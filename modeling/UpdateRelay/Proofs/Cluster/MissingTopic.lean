import UpdateRelay.Proofs.Cluster.Provisioning

/-!
# Operations whose topic is missing

Publishes and subscribes that begin while their topic is missing are all granted, whatever the order
in which their calls take steps: one of them makes the topic, and each publish leaves one record.
-/

namespace UpdateRelay

/-! ## Time -/

/-- A scope that is not done at an instant was not done before. -/
theorem Scope.stop?_of_le {scope : Scope} {earlier later : Nat} (le : earlier ≤ later)
    (live : scope.stop? later = none) : scope.stop? earlier = none := by
  obtain ⟨cancelled, deadline⟩ := scope
  cases cancelled with
  | true => contradiction
  | false =>
    cases deadline with
    | none => rfl
    | some deadline =>
      have ahead : ¬deadline ≤ later := fun passed => by simp [stop?, passed] at live
      exact if_neg fun passed => ahead (Nat.le_trans passed le)

namespace Cluster

theorem now_begin (cluster : Cluster) (index : Nat) (start : Node → Node × Progress) :
    (cluster.begin index start).now = cluster.now := by
  unfold begin
  cases cluster.node? index with
  | none => rfl
  | some node =>
    dsimp only
    split <;> rfl

/-- Time does not go back. -/
theorem now_perform_le (cluster : Cluster) (action : Action) :
    cluster.now ≤ (cluster.perform action).now := by
  cases action with
  | publish | subscribe | close => exact Nat.le_of_eq (cluster.now_begin _ _).symm
  | stepCall ticket =>
    rcases cluster.perform_stepCall ticket with same | ⟨_, _, _, progress, _, _, _, _, noted⟩
    · exact Nat.le_of_eq (by rw [same])
    · rw [noted]
      cases progress <;> exact Nat.le_refl _
  | stepLoop index generation =>
    rcases cluster.perform_stepLoop index generation with same | ⟨_, _, _, _, _, _, stepped⟩
    · exact Nat.le_of_eq (by rw [same])
    · rw [stepped]
      exact Nat.le_refl _
  | pass duration => exact Nat.le_add_right _ _
  | _ => exact Nat.le_refl _

theorem now_performAll_le (cluster : Cluster) (actions : List Action) :
    cluster.now ≤ (cluster.performAll actions).now := by
  induction actions generalizing cluster with
  | nil => exact Nat.le_refl _
  | cons action actions inductionHypothesis =>
    exact Nat.le_trans (cluster.now_perform_le action) (inductionHypothesis _)

/-! ## Runs -/

variable {cluster : Cluster} {topic : String} {operations : List (Nat × Operation)}

/-- What a run comes to for operations in progress. -/
structure Outcome (before after : Cluster) (topic : String) (operations : List (Nat × Operation))
    (actions : List Action) : Prop where
  provisioned : after.Provisioned topic (operations ++ operationsOf topic before actions)
  withinSteps : ∀ {ticket operation steps}, (ticket, operation) ∈ operations →
    before.WithinSteps topic ticket operation steps →
      after.WithinSteps topic ticket operation (steps - actions.countP (·.isStepOf ticket))
  tally : creations topic before actions + (before.journal.content? topic).isSome.toNat =
    (after.journal.content? topic).isSome.toNat

/-- Operations stay in order through a run that leaves their topic to them. -/
theorem Provisioned.performAll (provisioned : cluster.Provisioned topic operations)
    {actions : List Action} (spares : sparesAll topic cluster actions = true)
    (live : ∀ {ticket operation},
      (ticket, operation) ∈ operations ++ operationsOf topic cluster actions →
      operation.scope.stop? (cluster.performAll actions).now = none) :
    Outcome cluster (cluster.performAll actions) topic operations actions := by
  induction actions generalizing cluster operations with
  | nil =>
    refine ⟨?_, fun _ withinSteps => withinSteps, Nat.zero_add _⟩
    rw [operationsOf, List.append_nil]
    exact provisioned
  | cons action actions inductionHypothesis =>
    simp only [sparesAll, Bool.and_eq_true] at spares
    rw [operationsOf, ← List.append_assoc] at live
    change Outcome cluster ((cluster.perform action).performAll actions) topic operations _
    have now : ∀ {ticket operation}, (ticket, operation) ∈ operations →
        operation.scope.stop? cluster.now = none := fun member =>
      Scope.stop?_of_le (cluster.now_performAll_le (action :: actions))
        (live (List.mem_append_left _ (List.mem_append_left _ member)))
    have contentStep := provisioned.contentStep spares.1 now
    have later := inductionHypothesis (provisioned.perform spares.1 now) spares.2 live
    refine ⟨?_, fun {ticket operation steps} isOperation withinSteps => ?_, ?_⟩
    · rw [operationsOf, ← List.append_assoc]
      exact later.provisioned
    · have stepped := withinSteps.perform provisioned spares.1 isOperation
        (now isOperation) contentStep.stays
      have rest := later.withinSteps (List.mem_append_left _ isOperation) stepped
      rw [Nat.sub_sub] at rest
      rw [List.countP_cons]
      cases own : action.isStepOf ticket <;> simpa [own, Nat.add_comm] using rest
    · have step := contentStep.tally
      have rest := later.tally
      simp only [creations]
      omega

theorem operationsOf_append (topic : String) (cluster : Cluster) (earlier later : List Action) :
    operationsOf topic cluster (earlier ++ later) =
      operationsOf topic cluster earlier ++
        operationsOf topic (cluster.performAll earlier) later := by
  induction earlier generalizing cluster with
  | nil => rfl
  | cons action earlier inductionHypothesis =>
    simp only [List.cons_append, operationsOf, inductionHypothesis, List.append_assoc]
    rfl

theorem sparesAll_append (topic : String) (cluster : Cluster) (earlier later : List Action) :
    sparesAll topic cluster (earlier ++ later) =
      (sparesAll topic cluster earlier && sparesAll topic (cluster.performAll earlier) later) := by
  induction earlier generalizing cluster with
  | nil => rfl
  | cons action earlier inductionHypothesis =>
    simp only [List.cons_append, sparesAll, inductionHypothesis, Bool.and_assoc]
    rfl

/-! ## From a missing topic on -/

/-- Whether a topic is missing while requests are answered, and nobody is about to use it: no call
that is in progress is at a broker of the topic, and none is a close. -/
structure Unprovisioned (cluster : Cluster) (topic : String) : Prop where
  serviceable : cluster.journal.Serviceable topic none
  serves : cluster.link.serves = true
  closeless : ∀ caller ∈ cluster.calls, caller.call.isClose = false
  unused : ∀ caller ∈ cluster.calls, cluster.uses topic caller.broker = false

theorem Unprovisioned.provisioned (unprovisioned : cluster.Unprovisioned topic)
    (numbered : cluster.Numbered) (accounted : cluster.Accounted) :
    cluster.Provisioned topic [] where
  numbered
  accounted
  serviceable := unprovisioned.serviceable.content.symm ▸ unprovisioned.serviceable
  serves := unprovisioned.serves
  old := fun member => nomatch member
  topicUses := fun member => nomatch member
  withinSteps := fun member => nomatch member
  closeless := unprovisioned.closeless
  strangers := fun caller member _ => unprovisioned.unused caller member
  written := by
    have unwritten : cluster.unwritten [] = [] :=
      List.filterMap_eq_nil_iff.2 fun caller _ => if_neg List.not_mem_nil
    rw [unprovisioned.serviceable.content, List.map_nil, unwritten]
    exact .refl _

/-- Once all operations have their answers no record is still to be written. -/
theorem Provisioned.unwritten_eq_nil (provisioned : cluster.Provisioned topic operations)
    (answered : ∀ entry ∈ operations, (cluster.reply? entry.1).isSome = true) :
    cluster.unwritten (operations.map Prod.fst) = [] := by
  refine List.filterMap_eq_nil_iff.2 fun caller member => if_neg fun own => ?_
  obtain ⟨entry, isOperation, same⟩ := List.mem_map.1 own
  have replied := answered entry isOperation
  rw [same, provisioned.accounted.reply?_of_mem member] at replied
  contradiction

/-- Once an operation has its answer the topic is there. -/
theorem Provisioned.present (provisioned : cluster.Provisioned topic operations) {ticket : Nat}
    {operation : Operation} (isOperation : (ticket, operation) ∈ operations)
    (answered : (cluster.reply? ticket).isSome = true) :
    (cluster.journal.content? topic).isSome = true := by
  rcases provisioned.withinSteps isOperation with ⟨call, _, inProgress, _⟩ | ⟨_, _, _, present⟩
  · have unanswered := provisioned.accounted.reply?_of_caller? provisioned.numbered inProgress
    rw [unanswered] at answered
    contradiction
  · exact present

/-- Once all operations have their answers the topic holds what they leave. -/
theorem Provisioned.finished (provisioned : cluster.Provisioned topic operations)
    (any : operations ≠ [])
    (answered : ∀ entry ∈ operations, (cluster.reply? entry.1).isSome = true) :
    ∃ records, cluster.journal.content? topic = some records ∧
      records.Perm (operations.filterMap (·.2.record?)) := by
  obtain ⟨entry, isOperation⟩ := List.exists_mem_of_ne_nil operations any
  have present := provisioned.present isOperation (answered entry isOperation)
  obtain ⟨records, isContent⟩ := Option.isSome_iff_exists.1 present
  have written := provisioned.written
  rw [provisioned.unwritten_eq_nil answered, List.append_nil, isContent, Option.getD_some]
    at written
  exact ⟨records, isContent, written⟩

/-- Whether the call with a number has an answer that grants what an operation asks for. -/
def Grants (cluster : Cluster) (ticket : Nat) (operation : Operation) : Prop :=
  ∃ reply, cluster.reply? ticket = some reply ∧ operation.Granted reply

theorem WithinSteps.granted {ticket : Nat} {operation : Operation}
    (withinSteps : cluster.WithinSteps topic ticket operation 0) :
    cluster.Grants ticket operation := by
  rcases withinSteps with ⟨call, left, _, none, under⟩ | ⟨reply, replied, grants, _⟩
  · exact absurd under.positive (Nat.not_lt_of_le none)
  · exact ⟨reply, replied, grants⟩

/-- In every run that starts with a topic missing, in which nobody but the publishes and subscribes
at its brokers makes, writes or removes the topic, and in which nothing is closed or keeps a request
from its answer: of those that begin at an open broker, have to ask the journal and keep a live
scope, each is in progress or granted at any time, and granted within four of its own steps whatever
the order of the steps; nobody else is ever in progress at the brokers of the topic. Of all requests
to make the topic one at the most succeeds. When there are such operations and all have their
answers exactly one has, and the topic holds one record for each publish, with the name of its
resource and its event, and nothing else. -/
theorem missing_topic_loses_nothing (earlier actions later : List Action) {topic : String}
    (missing : (reached false earlier).Unprovisioned topic)
    (spares : sparesAll topic (reached false earlier) (actions ++ later) = true)
    (live : ∀ entry ∈ operationsOf topic (reached false earlier) (actions ++ later),
      entry.2.scope.stop? (reached false (earlier ++ (actions ++ later))).now = none) :
    let before := reached false earlier
    let after := reached false (earlier ++ (actions ++ later))
    let operations := operationsOf topic before (actions ++ later)
    (∀ caller ∈ after.calls, after.uses topic caller.broker = true →
      ∃ entry ∈ operations, entry.1 = caller.ticket) ∧
    (∀ entry ∈ operations,
      (∃ call, after.caller? entry.1 = some ⟨entry.1, entry.2.broker, call⟩) ∨
        after.Grants entry.1 entry.2) ∧
    (∀ entry ∈ operationsOf topic before actions, 4 ≤ later.countP (·.isStepOf entry.1) →
      after.Grants entry.1 entry.2) ∧
    creations topic before (actions ++ later) ≤ 1 ∧
    (operations ≠ [] → (∀ entry ∈ operations, (after.reply? entry.1).isSome = true) →
      creations topic before (actions ++ later) = 1 ∧
        ∃ records, after.journal.content? topic = some records ∧
          records.Perm (operations.filterMap (·.2.record?))) := by
  intro before after operations
  let between := before.performAll actions
  have isAfter : after = between.performAll later :=
    (reached_append false earlier _).trans List.foldl_append
  have isOperations : operations =
      operationsOf topic before actions ++ operationsOf topic between later :=
    operationsOf_append topic before actions later
  have whole : after = before.performAll (actions ++ later) := reached_append false earlier _
  -- The run as a whole settles what is made and written, its second part how soon.
  have initial := missing.provisioned (numbered_reached false earlier)
    (accounted_reached false earlier)
  have outcome := initial.performAll spares fun member => whole ▸ live _ member
  rw [← whole] at outcome
  have settled : after.Provisioned topic operations := outcome.provisioned
  have tally := outcome.tally
  rw [missing.serviceable.content, Option.isSome_none, Bool.toNat_false, Nat.add_zero] at tally
  refine ⟨fun caller member uses => ?_, fun entry isOperation => ?_,
    fun entry isOperation stepped => ?_, ?_, fun any answered => ?_⟩
  · by_contra stranger
    have foreign : caller.ticket ∉ operations.map Prod.fst :=
      fun own => stranger (List.mem_map.1 own)
    rw [settled.strangers caller member foreign] at uses
    contradiction
  · rcases settled.withinSteps isOperation with
      ⟨call, _, inProgress, _⟩ | ⟨reply, replied, grants, _⟩
    · exact Or.inl ⟨call, inProgress⟩
    · exact Or.inr ⟨reply, replied, grants⟩
  · rw [sparesAll_append, Bool.and_eq_true] at spares
    have liveLater : ∀ {ticket operation}, (ticket, operation) ∈ operations →
        operation.scope.stop? (between.performAll later).now = none := fun member =>
      isAfter ▸ live _ member
    have midway : between.Provisioned topic (operationsOf topic before actions) :=
      (initial.performAll spares.1 fun {ticket operation} member =>
        Scope.stop?_of_le (between.now_performAll_le later)
          (liveLater (isOperations.symm ▸ List.mem_append_left _ member))).provisioned
    have rest := midway.performAll spares.2 fun member => liveLater (isOperations.symm ▸ member)
    have withinSteps := rest.withinSteps isOperation (midway.withinSteps isOperation)
    rw [← isAfter, Nat.sub_eq_zero_of_le stepped] at withinSteps
    exact withinSteps.granted
  · rw [tally]
    exact Bool.toNat_le _
  · obtain ⟨records, isContent, written⟩ := settled.finished any answered
    exact ⟨by rw [tally, isContent, Option.isSome_some, Bool.toNat_true], records, isContent,
      written⟩

/-- Two brokers have lost their topic. -/
def lostTopic : List Action :=
  [.start ⟨"updates", "relay", "one", 4⟩, .start ⟨"updates", "relay", "two", 4⟩,
    .removeTopic "updates"]

/-- Both brokers publish and one is subscribed to. The first two calls find the topic missing before
the third begins. -/
def concurrentCalls : List Action :=
  [.publish 0 .unlimited "door" ⟨"door", 1, "opened"⟩, .subscribe 1 .unlimited "gate",
    .stepCall 0, .stepCall 1, .publish 1 .unlimited "gate" ⟨"gate", 2, "closed"⟩]

/-- The calls ask for the topic in turn, and go on until they have their answers. -/
def remainingSteps : List Action :=
  [.stepCall 2, .stepCall 1, .stepCall 0, .stepCall 2, .stepCall 0, .stepCall 1, .stepCall 2,
    .stepCall 1, .stepCall 1, .stepCall 0, .stepCall 0, .stepCall 2]

/-- All of them are granted, though each found the topic missing, and the topic was made once. -/
theorem concurrentCalls_lose_nothing :
    let before := reached false lostTopic
    let after := reached false (lostTopic ++ (concurrentCalls ++ remainingSteps))
    before.Unprovisioned "updates" ∧
      (operationsOf "updates" before concurrentCalls).map Prod.fst = [0, 1, 2] ∧
      (∀ entry ∈ operationsOf "updates" before concurrentCalls, after.Grants entry.1 entry.2) ∧
      creations "updates" before (concurrentCalls ++ remainingSteps) = 1 ∧
      ∃ records, after.journal.content? "updates" = some records ∧
        records.Perm [Node.recordOf "door" ⟨"door", 1, "opened"⟩,
          Node.recordOf "gate" ⟨"gate", 2, "closed"⟩] := by
  have missing : (reached false lostTopic).Unprovisioned "updates" :=
    ⟨by decide, by decide, by decide, by decide⟩
  have operations : operationsOf "updates" (reached false lostTopic)
      (concurrentCalls ++ remainingSteps) =
      [(0, .publish 0 .unlimited "door" ⟨"door", 1, "opened"⟩),
        (1, .subscribe 1 .unlimited "gate"),
        (2, .publish 1 .unlimited "gate" ⟨"gate", 2, "closed"⟩)] := rfl
  have lives : ∀ entry ∈ operationsOf "updates" (reached false lostTopic)
      (concurrentCalls ++ remainingSteps),
      entry.2.scope.stop? (reached false (lostTopic ++ (concurrentCalls ++ remainingSteps))).now =
        none := by
    rw [operations]
    decide
  obtain ⟨_, _, granted, _, finished⟩ :=
    missing_topic_loses_nothing lostTopic concurrentCalls remainingSteps missing (by decide) lives
  have steps : ∀ entry ∈ operationsOf "updates" (reached false lostTopic) concurrentCalls,
      4 ≤ remainingSteps.countP (·.isStepOf entry.1) := by decide
  rw [operations] at finished
  obtain ⟨once, written⟩ := finished (by simp) (by decide)
  exact ⟨missing, rfl, fun entry isOperation => granted entry isOperation (steps entry isOperation),
    once, written⟩

end Cluster

end UpdateRelay
