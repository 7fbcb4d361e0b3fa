import UpdateRelay.Proofs.Broker.Seats
import UpdateRelay.Proofs.Broker.EntryLoops
import UpdateRelay.Proofs.Broker.Turn
import UpdateRelay.Proofs.Journal.MemberCounts
import UpdateRelay.Proofs.Mail.Fifo

/-!
# Effects of steps

All that one step of a loop or of a call can do to the journal, to its broker and to what its
subscribe has claimed. `Effect before feeds after` has one constructor for each kind of step, and
`feeds` is what subscribers can tell of it: which mailboxes were offered an event or emptied.
`effect_pollLoop?`, `effect_pollCall?` and the lemmas about the beginnings of calls say that there
is no other kind, so that whatever all effects keep is kept by whatever goes on.
-/

namespace UpdateRelay

/-! ## What loops offer -/

namespace Node

/-- The offers that a loop makes when it looks at its topic. -/
def readFeeds (node : Node) (loop : ConsumptionLoop) : List (Nat × Feed) :=
  match node.journal.peek loop.reader with
  | .ok (some record) =>
      match eventFor? loop.resource record with
      | some event =>
          match node.broker.entryAt? loop.resource loop.generation with
          | some entry => entry.subscribers.feeds event
          | none => []
      | none => []
  | _ => []

/-- The offers that a loop makes in one step. -/
def pollFeeds (node : Node) (loop : ConsumptionLoop) : List (Nat × Feed) :=
  match loop.phase with
  | .pruning _ | .pausing _ => []
  | .reading =>
      if loop.cancelled then [] else if 0 < node.link.failingReads then []
      else node.readFeeds loop
  | .waiting =>
      if loop.cancelled then [] else if node.journal.mustLook loop.reader then node.readFeeds loop
      else []

end Node

/-! ## Effects -/

/-- What a step can touch: the journal, one broker, and the claim of one subscribe, if the step is
one of a subscribe. -/
structure Footprint where
  journal : Journal
  broker : JournaledBroker
  claim : Option Claim

/-- The broker after a loop went over to a phase. -/
def JournaledBroker.enter (broker : JournaledBroker) (loop : ConsumptionLoop)
    (phase : LoopPhase) : JournaledBroker :=
  broker.modifyLoop loop.generation fun loop => { loop with phase := phase }

/-- The reader that a broker's loop for a resource gets from a topic. -/
def JournaledBroker.readerOf (broker : JournaledBroker) (resource : String) (topic : Topic) :
    Reader :=
  ⟨broker.identity.topic, topic.epoch, broker.identity.group resource, topic.records.length, false⟩

/-- The kinds of steps. -/
inductive Effect : Footprint → List (Nat × Feed) → Footprint → Prop
  /-- A request made the journal grow, at the most. -/
  | grew {journal after broker claim} (growth : journal.Grows after) :
      Effect ⟨journal, broker, claim⟩ [] ⟨after, broker, claim⟩
  /-- A subscribe without a reader failed. -/
  | gaveUp {journal after broker claim} (growth : journal.Grows after)
      (bare : claim.reader = none) :
      Effect ⟨journal, broker, some claim⟩ [] ⟨after, broker, none⟩
  /-- A subscribe began and goes on. -/
  | numbered {journal broker} (resource : String) :
      Effect ⟨journal, broker, none⟩ []
        ⟨journal, broker.spendNumber, some ⟨resource, ⟨broker.nextNumber⟩, none⟩⟩
  /-- A subscribe began and failed after its id was used up. -/
  | wasted {journal broker} : Effect ⟨journal, broker, none⟩ [] ⟨journal, broker.spendNumber, none⟩
  /-- A subscribe found the entry of its resource at once. -/
  | joined {journal broker resource entry} (found : broker.entries.get? resource = some entry) :
      Effect ⟨journal, broker, none⟩ []
        ⟨journal, broker.spendNumber.join resource entry ⟨broker.nextNumber⟩, none⟩
  /-- A reader was opened for a subscribe. -/
  | attached {journal ready broker claim topic} (bare : claim.reader = none)
      (isOpen : journal.closed = false) (growth : journal.Grows ready)
      (found : ready.topics.get? broker.identity.topic = some topic) :
      Effect ⟨journal, broker, some claim⟩ []
        ⟨ready.modifyTopic broker.identity.topic
            (Journal.Topic.join · (broker.identity.group claim.resource)),
          broker, some { claim with reader := broker.readerOf claim.resource topic }⟩
  /-- A subscribe failed after a reader was opened for it. -/
  | released {journal broker claim reader} (held : claim.reader = some reader) :
      Effect ⟨journal, broker, some claim⟩ [] ⟨journal.leave reader, broker, none⟩
  /-- A subscribe found that its resource had got an entry meanwhile. -/
  | joinedLate {journal broker claim reader entry} (held : claim.reader = some reader)
      (found : broker.entries.get? claim.resource = some entry) :
      Effect ⟨journal, broker, some claim⟩ []
        ⟨journal.leave reader, broker.join claim.resource entry claim.id, none⟩
  /-- A subscribe made the entry of its resource. -/
  | withEntry {journal broker claim reader} (held : claim.reader = some reader)
      (isOpen : broker.closed = false) (absent : broker.entries.get? claim.resource = none) :
      Effect ⟨journal, broker, some claim⟩ []
        ⟨journal, broker.found claim.resource claim.id reader, none⟩
  /-- A close began. -/
  | disbanded {journal broker} :
      Effect ⟨journal, broker, none⟩ [] ⟨journal, broker.disband, none⟩
  /-- A close ended after all loops had. -/
  | shut {journal broker} (ended : broker.loops = []) :
      Effect ⟨journal, broker, none⟩ [] ⟨journal.close, broker, none⟩
  /-- Somebody ended a subscription. -/
  | pruned {journal broker claim} (resource : String) (ids : List SubscriberId) :
      Effect ⟨journal, broker, claim⟩ [] ⟨journal, broker.prune resource ids, claim⟩
  /-- A subscriber did something to its mailbox. -/
  | fed {journal broker claim place} (feed : Feed) (own : feed.event? = none)
      (born : place < broker.room.nextPlace) :
      Effect ⟨journal, broker, claim⟩ [(place, feed)]
        ⟨journal, broker.modifyBox place feed.change, claim⟩
  /-- A loop removed the subscribers that it had found gone. -/
  | tidied {journal broker claim loop ids} (member : loop ∈ broker.loops)
      (phase : loop.phase = .pruning ids) :
      Effect ⟨journal, broker, claim⟩ []
        ⟨journal, (broker.prune loop.resource ids).enter loop .reading, claim⟩
  /-- A loop began to pause or ended its pause. -/
  | entered {journal broker claim loop phase} (member : loop ∈ broker.loops)
      (live : loop.cancelled = false) (awake : phase ≠ .waiting) :
      Effect ⟨journal, broker, claim⟩ [] ⟨journal, broker.enter loop phase, claim⟩
  /-- A loop found nothing to read. -/
  | waited {journal broker claim loop} (member : loop ∈ broker.loops)
      (live : loop.cancelled = false) (seen : journal.peek loop.reader = .ok none) :
      Effect ⟨journal, broker, claim⟩ []
        ⟨journal, broker.modifyLoop loop.generation fun loop =>
          { loop with reader := journal.look loop.reader, phase := .waiting }, claim⟩
  /-- A loop that was told to stop ended. -/
  | ended {journal broker claim loop} (member : loop ∈ broker.loops)
      (cancelled : loop.cancelled = true) :
      Effect ⟨journal, broker, claim⟩ []
        ⟨journal.leave loop.reader, broker.dropLoop loop.generation, claim⟩
  /-- A loop ended because its reading had come to its end. -/
  | retired {journal broker claim loop} (member : loop ∈ broker.loops)
      (live : loop.cancelled = false) (finished : journal.peek loop.reader = .error .closed) :
      Effect ⟨journal, broker, claim⟩ []
        ⟨journal.leave loop.reader,
          (broker.dissolve loop.resource loop.generation).dropLoop loop.generation, claim⟩
  /-- A loop read a record that tells its subscribers nothing, or has no subscribers any more. -/
  | passed {journal broker claim loop record} (member : loop ∈ broker.loops)
      (live : loop.cancelled = false) (seen : journal.peek loop.reader = .ok (some record))
      (mute : Node.eventFor? loop.resource record = none ∨
        broker.entryAt? loop.resource loop.generation = none) :
      Effect ⟨journal, broker, claim⟩ []
        ⟨journal.take loop.reader, broker.enter loop .reading, claim⟩
  /-- A loop read a record and offered its event to the subscribers of its entry. -/
  | handed {journal broker claim loop record event entry phase} (member : loop ∈ broker.loops)
      (live : loop.cancelled = false) (seen : journal.peek loop.reader = .ok (some record))
      (telling : Node.eventFor? loop.resource record = some event)
      (found : broker.entryAt? loop.resource loop.generation = some entry)
      (awake : phase ≠ .waiting) :
      Effect ⟨journal, broker, claim⟩ (entry.subscribers.feeds event)
        ⟨journal.take loop.reader,
          { broker with room := (entry.subscribers.offerAll event broker.room).1 }.enter
            loop phase, claim⟩

/-! ## Steps of loops -/

/-- What a step leads to from the journal and the broker of a node. -/
def Node.footprint (node : Node) (claim : Option Claim) : Footprint :=
  ⟨node.journal, node.broker, claim⟩

namespace Node

variable (node : Node) {loop : ConsumptionLoop} {record : JournalRecord} {event : Event}

theorem handOn_of_mute (mute : eventFor? loop.resource record = none) :
    node.handOn loop record = node.enter loop.generation .reading := by
  simp [handOn, mute]

theorem handOn_of_absent (telling : eventFor? loop.resource record = some event)
    (absent : node.broker.entryAt? loop.resource loop.generation = none) :
    node.handOn loop record = node.enter loop.generation .reading := by
  simp [handOn, telling, JournaledBroker.offer, absent]

theorem handOn_of_present {entry : Entry} (telling : eventFor? loop.resource record = some event)
    (found : node.broker.entryAt? loop.resource loop.generation = some entry) :
    ∃ phase, phase ≠ .waiting ∧ node.handOn loop record =
      { node with
        broker :=
          { node.broker with
            room := (entry.subscribers.offerAll event node.broker.room).1 } }.enter
        loop.generation phase := by
  refine ⟨if (entry.subscribers.offerAll event node.broker.room).2.gone.isEmpty then .reading
    else .pruning (entry.subscribers.offerAll event node.broker.room).2.gone, ?_, ?_⟩
  · split <;> simp
  · simp [handOn, telling, JournaledBroker.offer, found]

end Node

theorem effect_read {node : Node} {loop : ConsumptionLoop} (member : loop ∈ node.broker.loops)
    (live : loop.cancelled = false) (claim : Option Claim) :
    Effect (node.footprint claim) (node.readFeeds loop) ((node.read loop).footprint claim) := by
  unfold Node.readFeeds Node.read
  cases seen : node.journal.peek loop.reader with
  | error cause =>
    obtain rfl := Journal.peek_eq_error seen
    exact .retired member live seen
  | ok result =>
    cases result with
    | none => exact .waited member live seen
    | some record =>
      dsimp only
      cases telling : Node.eventFor? loop.resource record with
      | none =>
        rw [Node.handOn_of_mute _ telling]
        exact .passed member live seen (Or.inl telling)
      | some event =>
        cases found : node.broker.entryAt? loop.resource loop.generation with
        | none =>
          rw [Node.handOn_of_absent { node with journal := node.journal.take loop.reader } telling
            found]
          exact .passed member live seen (Or.inr found)
        | some entry =>
          obtain ⟨phase, awake, handed⟩ :=
            Node.handOn_of_present { node with journal := node.journal.take loop.reader }
              telling found
          rw [handed]
          exact .handed member live seen telling found awake

/-- A loop that was told to stop offers nothing. -/
theorem pollFeeds_of_cancelled (node : Node) {loop : ConsumptionLoop}
    (cancelled : loop.cancelled = true) : node.pollFeeds loop = [] := by
  unfold Node.pollFeeds
  split <;> simp [cancelled]

/-- A step of a loop is one of the effects. -/
theorem effect_pollLoop? {node after : Node} {loop : ConsumptionLoop}
    (member : loop ∈ node.broker.loops) (stepped : node.pollLoop? loop = some after)
    (claim : Option Claim) :
    Effect (node.footprint claim) (node.pollFeeds loop) (after.footprint claim) := by
  cases Node.loopTurn stepped with
  | tidied phase =>
    have silent : node.pollFeeds loop = [] := by simp only [Node.pollFeeds, phase]
    rw [silent]
    exact .tidied member phase
  | ended cancelled =>
    rw [pollFeeds_of_cancelled node cancelled]
    exact .ended member cancelled
  | resumed live phase =>
    have silent : node.pollFeeds loop = [] := by simp only [Node.pollFeeds, phase]
    rw [silent]
    exact .entered member live (by simp)
  | failed live phase fails =>
    have silent : node.pollFeeds loop = [] := by simp [Node.pollFeeds, phase, fails]
    rw [silent]
    exact .entered member live (by simp)
  | read live awake =>
    have offers : node.pollFeeds loop = node.readFeeds loop := by
      rcases awake with ⟨phase, sound⟩ | ⟨phase, mustLook⟩
      · simp [Node.pollFeeds, phase, live, sound]
      · simp [Node.pollFeeds, phase, live, mustLook]
    rw [offers]
    exact effect_read member live claim

/-- A loop that has to wait offers nothing. -/
theorem pollFeeds_eq_nil {node : Node} {loop : ConsumptionLoop}
    (waits : node.pollLoop? loop = none) : node.pollFeeds loop = [] := by
  unfold Node.pollLoop? at waits
  unfold Node.pollFeeds
  cases phase : loop.phase with
  | pruning | pausing => rfl
  | reading =>
    simp only [phase] at waits
    split at waits
    next => contradiction
    next => split at waits <;> contradiction
  | waiting =>
    simp only [phase] at waits ⊢
    split at waits
    next => contradiction
    next live =>
      split at waits
      next => contradiction
      next calm => rw [if_neg live, if_neg calm]

/-! ## Steps of calls -/

/-- What a call has claimed after a step: nothing, once it has its answer. -/
def Progress.claim? : Progress → Option Claim
  | .pending call => call.claim?
  | .replied _ => none

theorem Call.isSome_claim?_subscribe (resource : String) (id : SubscriberId) (scope : Scope)
    (stage : SubscribeStage) : (Call.subscribe resource id scope stage).claim?.isSome := by
  cases stage <;> rfl

/-- A publish can do no more than let the journal grow. -/
theorem Node.PublishTurn.grows {node after : Node} {record : JournalRecord} {scope : Scope}
    {stage : PublishStage} {progress : Progress}
    (turn : node.PublishTurn record scope stage after progress) :
    node.journal.Grows after.journal ∧ after.broker = node.broker ∧ progress.claim? = none := by
  have appended := node.journal.grows_append node.broker.identity.topic record
  have made := node.journal.grows_makeTopic node.broker.identity.topic
  cases turn with
  | hung => exact ⟨.refl _, rfl, rfl⟩
  | written _ answered | unwritten _ answered | missing answered =>
    rw [answered] at appended
    exact ⟨appended, rfl, rfl⟩
  | made answered | unmade answered =>
    rw [answered] at made
    exact ⟨made, rfl, rfl⟩

theorem effect_attach {node after : Node} {resource : String} {reader : Reader}
    (id : SubscriberId) (answered : node.attach resource = (after, .ok reader)) :
    Effect (node.footprint (some ⟨resource, id, none⟩)) []
      (after.footprint (some ⟨resource, id, reader⟩)) := by
  unfold Node.attach at answered
  rcases attached : node.journal.attach node.broker.identity.topic
    (node.broker.identity.group resource) with ⟨journal, outcome⟩
  rw [attached] at answered
  obtain ⟨rfl, rfl⟩ := Prod.mk.inj answered
  obtain ⟨isOpen, ready, topic, growth, found, rfl, rfl⟩ := Journal.attach_eq_ok attached
  exact .attached rfl isOpen growth found

theorem attach_eq_error {node after : Node} {resource : String} {cause : JournalFailure}
    (answered : node.attach resource = (after, .error cause)) : after = node := by
  unfold Node.attach at answered
  rcases attached : node.journal.attach node.broker.identity.topic
    (node.broker.identity.group resource) with ⟨journal, outcome⟩
  rw [attached] at answered
  obtain ⟨rfl, rfl⟩ := Prod.mk.inj answered
  obtain rfl := Journal.attach_eq_error attached
  rfl

theorem Node.SubscribeTurn.effect {node after : Node} {resource : String} {id : SubscriberId}
    {scope : Scope} {stage : SubscribeStage} {progress : Progress}
    (turn : node.SubscribeTurn resource id scope stage after progress) :
    Effect (node.footprint (Call.subscribe resource id scope stage).claim?) []
      (after.footprint progress.claim?) := by
  have growth := node.journal.grows_makeTopic node.broker.identity.topic
  cases turn with
  | stuck | hung => exact .grew (.refl _)
  | attached asks answered =>
    rcases asks with rfl | rfl
    · exact effect_attach id answered
    · exact effect_attach id answered
  | refused asks answered =>
    obtain rfl := attach_eq_error answered
    rcases asks with rfl | rfl
    · exact .gaveUp (.refl _) rfl
    · exact .gaveUp (.refl _) rfl
  | missing answered =>
    obtain rfl := attach_eq_error answered
    exact .grew (.refl _)
  | made answered =>
    rw [answered] at growth
    exact .grew growth
  | unmade answered =>
    rw [answered] at growth
    exact .gaveUp growth rfl
  | shut => exact .released rfl
  | joined _ found => exact .joinedLate rfl found
  | withEntry isOpen absent => exact .withEntry rfl isOpen absent

/-- A step of a call is one of the effects. -/
theorem effect_pollCall? {node after : Node} {call : Call} {progress : Progress}
    (stepped : node.pollCall? call = some (after, progress)) :
    Effect (node.footprint call.claim?) [] (after.footprint progress.claim?) := by
  cases Node.callTurn stepped with
  | failed => exact .grew (.refl _)
  | publish _ turn =>
    obtain ⟨growth, broker, claimless⟩ := turn.grows
    rw [claimless, Node.footprint, Node.footprint, broker]
    exact .grew growth
  | @abandoned _ _ _ stage =>
    cases stage with
    -- A scope that ends while a reader is held gives the reader back.
    | opened reader => exact .released rfl
    | opening | creating | reopening | stuck => exact .gaveUp (.refl _) rfl
  | subscribe turn => exact turn.effect
  | closed ended => exact .shut ended

/-! ## Beginnings of calls -/

theorem effect_beginPublish (node : Node) (scope : Scope) (resource : String) (event : Event) :
    Effect (node.footprint none) [] ((node.beginPublish scope resource event).1.footprint
      (node.beginPublish scope resource event).2.claim?) := by
  unfold Node.beginPublish
  split
  next => exact .grew (.refl _)
  next =>
    split
    next => exact .grew (.refl _)
    next => exact .grew (.refl _)

theorem effect_beginSubscribe (node : Node) (scope : Scope) (resource : String) :
    Effect (node.footprint none) [] ((node.beginSubscribe scope resource).1.footprint
      (node.beginSubscribe scope resource).2.claim?) := by
  simp only [Node.beginSubscribe]
  split
  next => exact .grew (.refl _)
  next =>
    split
    next => exact .wasted
    next =>
      split
      next => exact .wasted
      next =>
        split
        next entry found => exact .joined found
        next => exact .numbered resource

theorem effect_beginClose (node : Node) :
    Effect (node.footprint none) [] (node.beginClose.1.footprint node.beginClose.2.claim?) := by
  unfold Node.beginClose
  split
  next => exact .grew (.refl _)
  next => exact .disbanded

end UpdateRelay
