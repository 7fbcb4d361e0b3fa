import UpdateRelay.Proofs.Backends.Serving

/-!
# The first subscriber of a resource

A durable broker at rest opens a reader at the end of its topic for a resource that nobody has
subscribed to, so that the new loop has nothing to read and the others notice nothing.
-/

namespace UpdateRelay

namespace Journal

/-- In a topic that exists a reader is opened at the end. -/
theorem attach_of_topic {journal : Journal} {name : String} {topic : Topic}
    (isOpen : journal.closed = false) (found : journal.topics.get? name = some topic)
    (group : String) :
    journal.attach name group = (journal.modifyTopic name (Topic.join · group),
      .ok ⟨name, topic.epoch, group, topic.records.length, false⟩) := by
  have has : journal.hasTopic name = true := by
    rw [hasTopic_eq_isSome, found]
    rfl
  simp only [attach, isOpen, ensureTopic, has, found, if_true, Bool.false_eq_true, if_false]

/-- A new member of a group stirs nobody. -/
theorem mustLook_join (journal : Journal) (name group : String) (reader : Reader) :
    (journal.modifyTopic name (Topic.join · group)).mustLook reader =
      journal.mustLook reader := by
  unfold mustLook liveTopic?
  rw [get?_modifyTopic]
  by_cases here : reader.topic = name
  · rw [if_pos here, here]
    cases journal.topics.get? name with
    | none => rfl
    | some topic =>
      simp only [Option.map_some, Option.filter_some, Topic.join]
      by_cases epoch : topic.epoch = reader.epoch <;> simp [epoch]
  · rw [if_neg here]

/-- A new group starts at the end. -/
theorem position_join {journal : Journal} {name group : String} {topic : Topic}
    (found : journal.topics.get? name = some topic) (absent : topic.groups.get? group = none) :
    (journal.modifyTopic name (Topic.join · group)).position name group =
      topic.records.length := by
  rw [position, group?, get?_modifyTopic, if_pos rfl, found, Option.map_some, Option.bind_some,
    Topic.get?_join, if_pos rfl, absent]
  rfl

end Journal

namespace Node

variable {node : Node} {direct : DirectBroker} {resource : String} {topic : Topic}

/-- The broker after a subscribe has made the entry of a resource. -/
def withEntry (node : Node) (resource : String) (topic : Topic) : Node where
  now := node.now
  journal := node.journal.modifyTopic node.broker.identity.topic
    (Journal.Topic.join · (node.broker.identity.group resource))
  link := node.link
  broker := node.broker.spendNumber.found resource ⟨node.broker.nextNumber⟩
    (node.broker.readerOf resource topic)

/-- A resource without an entry is read by nobody at rest. -/
theorem Ready.group_absent (ready : node.Ready) (rests : node.Rests)
    (absent : node.broker.entries.get? resource = none)
    (found : node.journal.topics.get? node.broker.identity.topic = some topic) :
    topic.groups.get? (node.broker.identity.group resource) = none := by
  refine ready.counts.get?_group_eq_none found (List.countP_eq_zero.2 fun reader isReader => ?_)
  obtain ⟨loop, member, rfl⟩ := List.mem_map.1 isReader
  have live := (ready.waits member (rests loop member)).1
  obtain ⟨entry, present, _⟩ := ready.entryLoops.serving loop member live
  have group : loop.reader.group = node.broker.identity.group loop.resource :=
    (ready.sound.loopReads loop member).2
  intro reads
  simp only [Reader.readsFor, decide_eq_true_eq] at reads
  have same := node.broker.identity.group_injective (group.symm.trans reads.2.2)
  rw [same, absent] at present
  contradiction

theorem follows_withEntry (ready : node.Ready)
    (isOpen : node.broker.closed = false) (absent : node.broker.entries.get? resource = none)
    (found : node.journal.topics.get? node.broker.identity.topic = some topic) :
    node.Follows (node.withEntry resource topic) := by
  -- The entry is made in three steps: a number is used up, a reader is opened, the loop starts.
  have numbered := (Effect.numbered resource).sound ready.sound
  have attaches : Effect ⟨node.journal, node.broker.spendNumber,
      some ⟨resource, ⟨node.broker.nextNumber⟩, none⟩⟩ []
      ⟨(node.withEntry resource topic).journal, node.broker.spendNumber,
        some ⟨resource, ⟨node.broker.nextNumber⟩, node.broker.readerOf resource topic⟩⟩ :=
    .attached rfl ready.isOpen (.refl _) found
  have founds : Effect ⟨(node.withEntry resource topic).journal, node.broker.spendNumber,
      some ⟨resource, ⟨node.broker.nextNumber⟩, node.broker.readerOf resource topic⟩⟩ []
      ((node.withEntry resource topic).footprint none) :=
    .withEntry rfl isOpen absent
  have sound := founds.sound (attaches.sound numbered)
  refine ⟨sound, rfl, rfl, rfl, Journal.steady_join (.refl _) _ _, fun loop member => ?_⟩
  rcases List.mem_append.1 member with old | new
  · exact Or.inl (.of_mem old)
  · obtain rfl := List.mem_singleton.1 new
    have later : (node.withEntry resource topic).journal.topics.get? node.broker.identity.topic =
        some (Journal.Topic.join topic (node.broker.identity.group resource)) := by
      rw [withEntry, Journal.get?_modifyTopic, if_pos rfl, found]
      rfl
    have live := Journal.liveTopic?_eq_some_iff.2 ⟨later, rfl⟩
    exact Or.inr ⟨rfl, Option.isSome_of_eq_some live⟩

theorem owes_withEntry (ready : node.Ready) (rests : node.Rests)
    (isOpen : node.broker.closed = false) (absent : node.broker.entries.get? resource = none)
    (found : node.journal.topics.get? node.broker.identity.topic = some topic) :
    (node.withEntry resource topic).Owes (node.withEntry resource topic).broker.direct := by
  have follows := follows_withEntry ready isOpen absent found
  refine .nothing (fun loop member _ => ?_) rfl
  rcases List.mem_append.1 member with old | new
  · -- Loops that were there before find no new records.
    have records : (node.withEntry resource topic).journal.records loop.reader.topic =
        node.journal.records loop.reader.topic ++ [] := by
      rw [withEntry, Journal.records_join, List.append_nil]
    refine ⟨fun gone phase => ?_, ?_⟩
    · rw [(ready.waits old (rests loop old)).2.1] at phase
      contradiction
    · rw [follows.unread ready rests member old rfl records]
      rfl
  · -- The new loop starts at the end of the topic.
    obtain rfl := List.mem_singleton.1 new
    refine ⟨fun gone phase => by contradiction, ?_⟩
    have nothing : ((node.journal.records node.broker.identity.topic).drop
        topic.records.length) = [] := by
      rw [Journal.records, found, List.drop_length]
    simp only [unread, JournaledBroker.readerOf]
    rw [withEntry, Journal.records_join,
      Journal.position_join found (ready.group_absent rests absent found), nothing]
    rfl

/-! ## The call -/

theorem pollCall?_opening (ready : node.Ready) {scope : Scope}
    (checked : scope.check node.now = .ok ()) (id : SubscriberId)
    (found : node.journal.topics.get? node.broker.identity.topic = some topic) :
    node.pollCall? (.subscribe resource id scope .opening) =
      some ({ node with journal := (node.withEntry resource topic).journal },
        .pending
          (.subscribe resource id scope (.opened (node.broker.readerOf resource topic)))) := by
  have attached := Journal.attach_of_topic ready.isOpen found
    (node.broker.identity.group resource)
  simp only [pollCall?, checked, holds, ready.link, Link.sound, Bool.false_eq_true, if_false,
    pollSubscribe, attach, attached]
  rfl

theorem pollCall?_opened (ready : node.Ready) {scope : Scope}
    (checked : scope.check node.now = .ok ()) (id : SubscriberId) (reader : Reader)
    (isOpen : node.broker.closed = false)
    (absent : node.broker.entries.get? resource = none) (journal : Journal) :
    { node with journal := journal }.pollCall? (.subscribe resource id scope (.opened reader)) =
      some ({ node with
        journal := journal
        broker := node.broker.found resource id reader },
        .replied (.subscribed (.ok ⟨id, resource, node.broker.room.nextPlace⟩))) := by
  simp only [pollCall?, checked, holds, ready.link, Link.sound, Bool.false_eq_true, if_false,
    pollSubscribe, register, isOpen, absent, subscriptionAt]
  rfl

/-- A subscribe may be the first one of its resource. -/
theorem Corresponds.found (corresponds : node.Corresponds direct)
    (isOpen : node.broker.closed = false) {scope : Scope} (checked : scope.check node.now = .ok ())
    (absent : node.broker.entries.get? resource = none) :
    Bound ({ direct with nextNumber := direct.nextNumber + 1 }.register resource
        ⟨direct.nextNumber⟩)
      (.subscribed (.ok ⟨⟨direct.nextNumber⟩, resource, direct.room.nextPlace⟩))
      (node.modifyBroker JournaledBroker.spendNumber)
      (.pending (.subscribe resource ⟨node.broker.nextNumber⟩ scope .opening)) := by
  have spent := corresponds.spendNumber
  obtain rfl := corresponds.same
  cases corresponds.due with
  | ended isOver =>
    rw [isOver.closed] at isOpen
    contradiction
  | lasting _ ready =>
    cases spent with
    | ended isOver =>
      have isClosed : node.broker.closed = true := isOver.closed
      rw [isClosed] at isOpen
      contradiction
    | lasting _ spentReady =>
      obtain ⟨topic, found⟩ := Option.isSome_iff_exists.1 ready.hasTopic
      have follows := follows_withEntry ready isOpen absent found
      have owes := owes_withEntry ready corresponds.rests isOpen absent found
      have registered : (node.withEntry resource topic).broker.direct =
          { node.broker.direct with nextNumber := node.broker.direct.nextNumber + 1 }.register
            resource ⟨node.broker.direct.nextNumber⟩ :=
        node.broker.spendNumber.direct_found resource _ _ absent
      rw [registered] at owes
      -- Nothing that the call does stirs a loop, so it goes on alone until it has its answer.
      have spentRests : (node.modifyBroker JournaledBroker.spendNumber).Rests :=
        ready.rests_of_calm corresponds.rests rfl fun _ => rfl
      refine .calling spentRests (pollCall?_opening spentReady checked _ found) ?_
      refine .calling ?_ (pollCall?_opened spentReady checked _ _ isOpen absent _) ?_
      · exact ready.rests_of_calm corresponds.rests rfl fun _ => Journal.mustLook_join _ _ _ _
      · exact .answered (.lasting isOpen (follows.ready ready corresponds.rests) owes)

theorem Corresponds.subscribe (corresponds : node.Corresponds direct) (scope : Scope)
    (resource : String) : Bound (direct.subscribe scope node.now resource).1
      (.subscribed (direct.subscribe scope node.now resource).2)
      (node.beginSubscribe scope resource).1 (node.beginSubscribe scope resource).2 := by
  have spent := corresponds.spendNumber
  obtain rfl := corresponds.same
  have holds : Mailbox.canHold node.broker.direct.capacity =
      Mailbox.canHold node.broker.identity.capacity :=
    Mailbox.canHold_effectiveCapacity _
  simp only [beginSubscribe, DirectBroker.subscribe, holds]
  cases checked : scope.check node.now with
  | error cause => exact .answered corresponds.due
  | ok =>
    dsimp only
    cases fits : Mailbox.canHold node.broker.identity.capacity with
    | false =>
      have capacity : BrokerFailure.mailboxTooLarge node.broker.identity.capacity =
          .mailboxTooLarge node.broker.direct.capacity :=
        congrArg _ (Mailbox.effectiveCapacity_of_not_canHold fits).symm
      simp only [Bool.not_false, if_true, capacity]
      exact .answered spent
    | true =>
      simp only [Bool.not_true, Bool.false_eq_true, if_false]
      by_cases isClosed : node.broker.closed = true
      · have directClosed : node.broker.direct.closed = true := isClosed
        rw [if_pos isClosed, if_pos directClosed]
        exact .answered spent
      · have directOpen : ¬node.broker.direct.closed = true := isClosed
        rw [if_neg isClosed, if_neg directOpen]
        cases present : node.broker.entries.get? resource with
        | some entry => exact .answered (corresponds.join present)
        | none =>
          exact corresponds.found (Bool.eq_false_iff.2 isClosed) checked present

end Node

end UpdateRelay
