import UpdateRelay.Proofs.Delivery.Exact

/-!
# Names of instances

A consumer group is named for its family, its resource and its instance, with dashes in between
that resources and instances may contain as well. Two instances can meet in one group just if one of
their names ends in a dash and the other name. Instances that are named apart never move one
another's groups, so that each gets every event.
-/

namespace UpdateRelay

/-- Whether a name ends in a dash and another name. -/
def Nested (inner outer : String) : Prop := ("-" ++ inner).toList <:+ outer.toList

instance (inner outer : String) : Decidable (Nested inner outer) :=
  inferInstanceAs (Decidable (_ <:+ _))

namespace Nested

variable {inner outer : String}

theorem iff_exists : Nested inner outer ↔ ∃ front : String, outer = front ++ "-" ++ inner := by
  constructor
  · rintro ⟨front, same⟩
    refine ⟨String.ofList front, String.toList_inj.1 ?_⟩
    simp [← same]
  · rintro ⟨front, rfl⟩
    exact ⟨front.toList, by simp⟩

theorem ne (nested : Nested inner outer) : inner ≠ outer := by
  rintro rfl
  have length := nested.length_le
  have dash : "-".toList.length = 1 := rfl
  rw [String.toList_append, List.length_append, dash] at length
  omega

/-- Names with equally many dashes are not nested. -/
theorem not_of_count (dashes : outer.toList.count '-' ≤ inner.toList.count '-') :
    ¬Nested inner outer := by
  intro nested
  have counted := nested.sublist.count_le '-'
  simp at counted
  omega

end Nested

/-! ## Names of groups -/

/-- Of two cuts of a text at a mark, one comes first, and the rest lies between the two. -/
theorem append_mark_eq {mark : Char} {front back front' back' : List Char}
    (same : front ++ mark :: back = front' ++ mark :: back') :
    (front = front' ∧ back = back') ∨
      (∃ middle, front' = front ++ mark :: middle ∧ back = middle ++ mark :: back') ∨
      ∃ middle, front = front' ++ mark :: middle ∧ back' = middle ++ mark :: back := by
  rcases List.append_eq_append_iff.1 same with ⟨middle, rfl, rest⟩ | ⟨middle, rfl, rest⟩
  · cases middle with
    | nil => simp_all
    | cons letter middle =>
      obtain ⟨rfl, rfl⟩ := List.cons.inj rest
      exact Or.inr (Or.inl ⟨middle, rfl, rfl⟩)
  · cases middle with
    | nil => simp_all
    | cons letter middle =>
      obtain ⟨rfl, rfl⟩ := List.cons.inj rest
      exact Or.inr (Or.inr ⟨middle, rfl, rfl⟩)

namespace Instance

variable {first second : Instance}

/-- When the groups of two resources at two instances of a family have one name. -/
theorem group_eq_iff (kin : first.family = second.family) {resource another : String} :
    first.group resource = second.group another ↔
      (resource = another ∧ first.name = second.name) ∨
      (∃ middle : String, another = resource ++ "-" ++ middle ∧
        first.name = middle ++ "-" ++ second.name) ∨
      ∃ middle : String, resource = another ++ "-" ++ middle ∧
        second.name = middle ++ "-" ++ first.name := by
  have text : ∀ {front back : String} {middle : List Char},
      front.toList = middle ++ '-' :: back.toList →
        front = String.ofList middle ++ "-" ++ back := by
    intro front back middle letters
    exact String.toList_inj.1 (by simp [letters])
  constructor
  · intro same
    have dash : "-".toList = ['-'] := rfl
    have letters := congrArg String.toList same
    simp only [group, kin, String.toList_append, List.append_assoc,
      List.append_cancel_left_eq, dash, List.singleton_append] at letters
    rcases append_mark_eq letters with ⟨front, back⟩ | ⟨middle, front, back⟩ | ⟨middle, front, back⟩
    · exact Or.inl ⟨String.toList_inj.1 front, String.toList_inj.1 back⟩
    · exact Or.inr (Or.inl ⟨String.ofList middle, String.toList_inj.1 (by simp [front]),
        text back⟩)
    · exact Or.inr (Or.inr ⟨String.ofList middle, String.toList_inj.1 (by simp [front]),
        text back⟩)
  · rintro (⟨rfl, names⟩ | ⟨middle, rfl, names⟩ | ⟨middle, rfl, names⟩)
    · rw [group, group, kin, names]
    · simp [group, kin, names, String.append_assoc]
    · simp [group, kin, names, String.append_assoc]

/-- Two instances of a family read for all resources in different groups just if neither name ends
in a dash and the other one. -/
theorem groups_ne_iff (kin : first.family = second.family) :
    (∀ resource another, (resource, first.name) ≠ (another, second.name) →
      first.group resource ≠ second.group another) ↔
      ¬Nested first.name second.name ∧ ¬Nested second.name first.name := by
  constructor
  · intro different
    constructor
    · intro nested
      obtain ⟨middle, name⟩ := Nested.iff_exists.1 nested
      refine different ("" ++ "-" ++ middle) "" ?_ ((group_eq_iff kin).2 ?_)
      · simp [nested.ne]
      · exact Or.inr (Or.inr ⟨middle, rfl, name⟩)
    · intro nested
      obtain ⟨middle, name⟩ := Nested.iff_exists.1 nested
      refine different "" ("" ++ "-" ++ middle) ?_ ((group_eq_iff kin).2 ?_)
      · simp [nested.ne.symm]
      · exact Or.inr (Or.inl ⟨middle, rfl, name⟩)
  · rintro ⟨inside, outside⟩ resource another differ same
    rcases (group_eq_iff kin).1 same with ⟨rfl, name⟩ | ⟨middle, _, name⟩ | ⟨middle, _, name⟩
    · exact differ (by rw [name])
    · exact outside (Nested.iff_exists.2 ⟨middle, name⟩)
    · exact inside (Nested.iff_exists.2 ⟨middle, name⟩)

end Instance

/-! ## Steps of loops -/

/-- What a loop's step does to the journal: nothing, or its reader leaves or takes a record. -/
theorem Node.journal_pollLoop? {node after : Node} {loop : ConsumptionLoop}
    (stepped : node.pollLoop? loop = some after) :
    after.journal = node.journal ∨ after.journal = node.journal.leave loop.reader ∨
      after.journal = node.journal.take loop.reader := by
  have handedOn : ∀ (node : Node) (record : JournalRecord),
      (node.handOn loop record).journal = node.journal := by
    intro node record
    unfold handOn
    cases eventFor? loop.resource record <;> rfl
  have isRead : (node.read loop).journal = node.journal ∨
      (node.read loop).journal = node.journal.leave loop.reader ∨
      (node.read loop).journal = node.journal.take loop.reader := by
    unfold read
    split
    next => exact Or.inr (Or.inr (handedOn _ _))
    next => exact Or.inl rfl
    next => exact Or.inr (Or.inl rfl)
    next => exact Or.inl rfl
  cases loopTurn stepped with
  | tidied | resumed | failed => exact Or.inl rfl
  | ended => exact Or.inr (Or.inl rfl)
  | read => exact isRead

namespace Cluster

/-- Whether the brokers of a cluster are one family and their names keep all their groups apart. -/
structure WellNamed (cluster : Cluster) (family : String) : Prop where
  kin : ∀ broker ∈ cluster.brokers, broker.identity.family = family
  apart : (cluster.brokers.map (·.identity.name)).Pairwise fun first second =>
    first ≠ second ∧ ¬Nested first second ∧ ¬Nested second first

theorem WellNamed.group_ne {cluster : Cluster} {family : String}
    (wellNamed : cluster.WellNamed family) {index query : Nat} {broker other : JournaledBroker}
    (isBroker : cluster.brokers[index]? = some broker)
    (isOther : cluster.brokers[query]? = some other) (elsewhere : index ≠ query)
    (resource another : String) :
    broker.identity.group resource ≠ other.identity.group another := by
  have kin : broker.identity.family = other.identity.family := by
    rw [wellNamed.kin broker (List.mem_of_getElem? isBroker),
      wellNamed.kin other (List.mem_of_getElem? isOther)]
  have differ : broker.identity.name ≠ other.identity.name ∧
      ¬Nested broker.identity.name other.identity.name ∧
      ¬Nested other.identity.name broker.identity.name := by
    obtain ⟨inside, rfl⟩ := List.getElem?_eq_some_iff.1 isBroker
    obtain ⟨alsoInside, rfl⟩ := List.getElem?_eq_some_iff.1 isOther
    have pairs := List.pairwise_iff_getElem.1 (List.pairwise_map.1 wellNamed.apart)
    rcases Nat.lt_or_gt_of_ne elsewhere with before | before
    · exact pairs index query inside alsoInside before
    · obtain ⟨names, first, second⟩ := pairs query index alsoInside inside before
      exact ⟨names.symm, second, first⟩
  refine (Instance.groups_ne_iff kin).2 differ.2 resource another fun same => ?_
  exact differ.1 (Prod.mk.inj same).2

theorem WellNamed.groupsApart {cluster : Cluster} {family : String}
    (wellNamed : cluster.WellNamed family) : cluster.Apart := by
  intro index query broker other isBroker isOther resource another same
  by_contra elsewhere
  exact wellNamed.group_ne isBroker isOther elsewhere resource another same

/-- Different names with equally many dashes, as processes make them up, keep groups apart. -/
theorem WellNamed.of_dashes {cluster : Cluster} {family : String} (dashes : Nat)
    (kin : ∀ broker ∈ cluster.brokers, broker.identity.family = family)
    (even : ∀ broker ∈ cluster.brokers, broker.identity.name.toList.count '-' = dashes)
    (distinct : (cluster.brokers.map (·.identity.name)).Nodup) : cluster.WellNamed family where
  kin := kin
  apart := by
    refine List.Pairwise.imp_of_mem (fun {first second} isFirst isSecond differ => ?_) distinct
    obtain ⟨broker, member, rfl⟩ := List.mem_map.1 isFirst
    obtain ⟨other, otherMember, rfl⟩ := List.mem_map.1 isSecond
    have same := (even broker member).trans (even other otherMember).symm
    exact ⟨differ, Nested.not_of_count (Nat.le_of_eq same.symm),
      Nested.not_of_count (Nat.le_of_eq same)⟩

/-- A step of a loop of one broker leaves the groups of all others as they are. -/
theorem group?_stepLoop {cluster : Cluster} (sound : cluster.Sound) {index : Nat}
    {identity : Instance} {resource : String}
    (foreign : ∀ {broker : JournaledBroker}, cluster.brokers[index]? = some broker →
      ∀ another, identity.group resource ≠ broker.identity.group another) (generation : Nat) :
    (cluster.perform (.stepLoop index generation)).journal.group? identity.topic
        (identity.group resource) =
      cluster.journal.group? identity.topic (identity.group resource) := by
  rcases cluster.perform_stepLoop index generation with idle | ⟨node, loop, after, isNode, member,
    stepped, isAfter⟩
  · rw [idle]
  · obtain ⟨isBroker, journal⟩ := node?_eq_some isNode
    have other : identity.group resource ≠ loop.reader.group := by
      rw [(sound.loopReads isBroker loop member).2]
      exact foreign isBroker loop.resource
    have sameJournal : (cluster.withNode index after).journal = after.journal := rfl
    rw [isAfter, sameJournal, ← journal]
    rcases Node.journal_pollLoop? stepped with same | left | took
    · rw [same]
    · rw [left, Journal.group?_leave_of_ne _ _ other]
    · rw [took, Journal.group?_take_of_ne _ _ other]

/-- Two instances of a family read for all resources in groups of their own just if neither name
ends in a dash and the other one. Where this is so for all brokers of a run, no broker holds a
reader of another one's group, whatever its loops do leaves the groups of the others where they are,
and in a run that lasts every subscriber is offered all events from the time it joined. -/
theorem separate_instances_never_compete (createsOnDemand : Bool) (actions : List Action)
    (family : String) (wellNamed : (reached createsOnDemand actions).WellNamed family) :
    let last := reached createsOnDemand actions
    (∀ first second : Instance, first.family = second.family →
      ((∀ resource another, (resource, first.name) ≠ (another, second.name) →
          first.group resource ≠ second.group another) ↔
        ¬Nested first.name second.name ∧ ¬Nested second.name first.name)) ∧
    (∀ {index query : Nat} {broker other : JournaledBroker}, last.brokers[index]? = some broker →
      last.brokers[query]? = some other → index ≠ query → ∀ resource,
        (∀ loop ∈ broker.loops, loop.reader.group ≠ other.identity.group resource) ∧
        (∀ claim ∈ claimsAt last.claims index, ∀ reader ∈ claim.reader,
          reader.group ≠ other.identity.group resource) ∧
        ∀ generation, (last.perform (.stepLoop index generation)).journal.group?
            other.identity.topic (other.identity.group resource) =
          last.journal.group? other.identity.topic (other.identity.group resource)) ∧
    (∀ topic, (∀ action ∈ actions, action.lasts topic) → last.Calm →
      ∀ {index : Nat} {broker : JournaledBroker}, last.brokers[index]? = some broker →
        ∀ {resource : String} {id : SubscriberId} {place : Nat},
          broker.seat? resource id = some place →
          ∃ box, broker.room.get? place = some box ∧
            Delivered (last.journal.records topic) resource broker.identity.capacity
              (log createsOnDemand actions ⟨index, resource, place⟩) box) := by
  intro last
  have sound : last.Sound := sound_reached createsOnDemand actions
  refine ⟨fun _ _ kin => Instance.groups_ne_iff kin, ?_, ?_⟩
  · intro index query broker other isBroker isOther elsewhere resource
    have apart := wellNamed.group_ne isBroker isOther elsewhere
    refine ⟨fun loop member => ?_, fun claim member reader held => ?_, fun generation => ?_⟩
    · rw [(sound.loopReads isBroker loop member).2]
      exact apart loop.resource resource
    · rw [(sound.claimReads isBroker claim member reader held).2]
      exact apart claim.resource resource
    · refine group?_stepLoop sound (fun {current} isCurrent another => ?_) generation
      obtain rfl := Option.some.inj (isBroker.symm.trans isCurrent)
      exact (apart another resource).symm
  · intro topic lasts calm index broker isBroker resource id place seat
    obtain ⟨lasting, exact⟩ := exact_reached lasts wellNamed.groupsApart
    exact delivered_of_calm sound lasting exact calm isBroker seat

/-- Two processes have a subscriber for the same resource, and there is one event. -/
def twoProcesses : List Action :=
  [.start ⟨"updates", "relay", "1-af-0", 4⟩, .start ⟨"updates", "relay", "2-af-0", 4⟩,
    .subscribe 0 .unlimited "door", .stepCall 0, .stepCall 0,
    .subscribe 1 .unlimited "door", .stepCall 1, .stepCall 1,
    .publish 0 .unlimited "door" ⟨"door", 1, "opened"⟩, .stepCall 2,
    .stepLoop 0 1, .stepLoop 0 1, .stepLoop 1 1, .stepLoop 1 1]

theorem event_for_two_processes :
    (reached true twoProcesses).WellNamed "relay" ∧
      (∃ broker box, (reached true twoProcesses).brokers[1]? = some broker ∧
        broker.room.get? 0 = some box ∧
        Delivered ((reached true twoProcesses).journal.records "updates") "door" 4
          (log true twoProcesses ⟨1, "door", 0⟩) box) ∧
      (log true twoProcesses ⟨0, "door", 0⟩).offered = [⟨"door", 1, "opened"⟩] ∧
      (log true twoProcesses ⟨1, "door", 0⟩).offered = [⟨"door", 1, "opened"⟩] := by
  have wellNamed : (reached true twoProcesses).WellNamed "relay" :=
    .of_dashes 2 (by decide) (by decide) (by decide)
  have second : ∃ broker, (reached true twoProcesses).brokers[1]? = some broker ∧
      broker.seat? "door" ⟨1⟩ = some 0 ∧ broker.identity.capacity = 4 := ⟨_, rfl, rfl, rfl⟩
  obtain ⟨broker, isBroker, seat, capacity⟩ := second
  obtain ⟨_, _, delivers⟩ :=
    separate_instances_never_compete true twoProcesses "relay" wellNamed
  obtain ⟨box, found, delivered⟩ := delivers "updates" (by decide) (by decide) isBroker seat
  exact ⟨wellNamed, ⟨broker, box, isBroker, found, capacity ▸ delivered⟩, by decide, by decide⟩

/-- One of two processes has a name that ends in a dash and the name of the other. Each has a
subscriber for a resource of its own, and there is an event for the second one. -/
def rivals : List Action :=
  [.start ⟨"updates", "relay", "b-c", 4⟩, .start ⟨"updates", "relay", "c", 4⟩,
    .subscribe 0 .unlimited "a", .stepCall 0, .stepCall 0,
    .subscribe 1 .unlimited "a-b", .stepCall 1, .stepCall 1,
    .publish 1 .unlimited "a-b" ⟨"a-b", 1, "opened"⟩, .stepCall 2,
    .stepLoop 0 1, .stepLoop 0 1, .stepLoop 1 1]

/-- Both read in one group, and the event is lost to the one that it is for. -/
theorem event_lost_to_rival :
    (Instance.mk "updates" "relay" "b-c" 4).group "a" =
        (Instance.mk "updates" "relay" "c" 4).group "a-b" ∧
      (∃ broker, (reached true rivals).brokers[1]? = some broker ∧
        broker.seat? "a-b" ⟨1⟩ = some 0 ∧
        (broker.room.get? 0).map (·.queue) = some []) ∧
      (reached true rivals).Calm ∧
      eventsFor "a-b" ((reached true rivals).journal.records "updates") =
        [⟨"a-b", 1, "opened"⟩] ∧
      log true rivals ⟨1, "a-b", 0⟩ = ⟨0, [], []⟩ :=
  ⟨by decide, ⟨_, rfl, rfl, rfl⟩, by decide, by decide, by decide⟩

end Cluster

end UpdateRelay
