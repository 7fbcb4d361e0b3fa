import UpdateRelay.Proofs.Delivery.Direct

/-!
# Holders of subscriptions

The holders of the subscriptions of an in-process broker, in two groups: those whose subscriptions
are accounted for one by one, and strangers. `DirectBroker.HeldBy` says that every registration
belongs to one of them and that the first group's are all in force. What a holder does with its own
subscription is a `DirectBroker.HolderStep`, and spares all the others.
-/

namespace UpdateRelay

/-- Whether a request ends a subscription or does something at its receiving end. -/
def BrokerRequest.handles : BrokerRequest → Subscription → Bool
  | .unsubscribe resource id, sub => resource = sub.resource ∧ id = sub.id
  | .receive place, sub | .drain place, sub | .abandon place, sub => place = sub.place
  | .close, _ => true
  | .subscribe _ _, _ | .publish _ _ _, _ | .notify _, _ | .count _, _ => false

/-- Whether a request neither starts a subscription nor ends all of them. -/
def BrokerRequest.isOrdinary : BrokerRequest → Bool
  | .subscribe _ _ | .close => false
  | _ => true

/-- All that others bring to the account of a subscription is events. -/
theorem Subscription.hear_of_not_handles {sub : Subscription} {exchange : Exchange}
    (foreign : exchange.request.handles sub = false) (account : Account) :
    sub.hear account exchange = account ∨
      ∃ event, sub.hear account exchange = account.publish event := by
  obtain ⟨now, request, answer⟩ := exchange
  cases request with
  | subscribe | count => exact Or.inl rfl
  | unsubscribe | receive | drain | abandon =>
    simp only [BrokerRequest.handles, decide_eq_false_iff_not] at foreign
    exact Or.inl (if_neg foreign)
  | publish scope resource event =>
    simp only [hear]
    split
    next => exact Or.inr ⟨event, rfl⟩
    next => exact Or.inl rfl
  | notify notice =>
    simp only [hear]
    split
    next => exact Or.inr ⟨notice.event, rfl⟩
    next => exact Or.inl rfl
  | close => simp [BrokerRequest.handles] at foreign

namespace DirectBroker

variable {broker : DirectBroker} {own others : List Subscription} {sub : Subscription}

/-! ## Subscriptions in force -/

/-- Whether a subscription is on the roster of its resource and its mailbox has both its ends. -/
def InForce (broker : DirectBroker) (sub : Subscription) : Prop :=
  broker.seat? sub.resource sub.id = some sub.place ∧
    ∃ box, broker.room.get? sub.place = some box ∧ box.hasSender = true ∧ box.hasReceiver = true

/-- Whether a broker agrees with an account of a subscription by which it was never ended and its
receiver never given up. -/
def Upholds (broker : DirectBroker) (sub : Subscription) : Prop :=
  ∃ account, broker.Follows sub account ∧ account.held = true ∧ account.registered = true

theorem Upholds.inForce (upheld : broker.Upholds sub) (seated : broker.Seated) :
    broker.InForce sub := by
  obtain ⟨account, follows, held, registered⟩ := upheld
  have seat := follows.seat held registered
  obtain ⟨box, found, receives, _⟩ := follows.box
  obtain ⟨same, isSame, sends⟩ := (seated.sends sub.place).2 ⟨_, _, seat⟩
  obtain rfl := Option.some.inj (found.symm.trans isSame)
  exact ⟨seat, box, found, sends, receives.trans held⟩

theorem Follows.received_append_queue {account : Account} (follows : broker.Follows sub account)
    (held : account.held = true) : account.received ++ broker.room.queue sub.place =
      (Fifo.fed broker.capacity account.feeds).kept := by
  obtain ⟨box, found, receives, mirrors⟩ := follows.box
  have isQueue : broker.room.queue sub.place = box.queue := by simp [Mailroom.queue, found]
  rw [isQueue]
  exact (mirrors.held (receives.trans held)).1

theorem Follows.upholds_publish {after : DirectBroker} {account : Account} {event : Event}
    (follows : broker.Follows sub account) (held : account.held = true)
    (registered : account.registered = true) (capacity : after.capacity = broker.capacity)
    (later : after.Follows sub (account.publish event)) :
    after.Upholds sub ∧ broker.room.queue sub.place <+: after.room.queue sub.place := by
  refine ⟨⟨_, later, by simpa using held, by simpa using registered⟩, ?_⟩
  have before := follows.received_append_queue held
  have now := later.received_append_queue (by simpa using held)
  simp only [Account.publish, registered, if_true, Account.feed, capacity, Fifo.fed_append] at now
  rw [← List.prefix_append_right_inj account.received, before, now]
  exact Fifo.kept_next _ _ _

/-- What others ask for neither ends a subscription nor takes anything from its mailbox. -/
theorem Upholds.serve (upheld : broker.Upholds sub) (seated : broker.Seated) (now : Nat)
    {request : BrokerRequest} (foreign : request.handles sub = false) :
    (broker.serve now request).1.Upholds sub ∧
      broker.room.queue sub.place <+: (broker.serve now request).1.room.queue sub.place := by
  obtain ⟨account, follows, held, registered⟩ := upheld
  have later := follows.serve seated now request
  have capacity := capacity_serve broker now request
  have heard := @Subscription.hear_of_not_handles sub
    ⟨now, request, (broker.serve now request).2⟩ foreign account
  rcases heard with same | ⟨event, published⟩
  · rw [same] at later
    have queues := later.received_append_queue held
    rw [capacity, ← follows.received_append_queue held] at queues
    exact ⟨⟨account, later, held, registered⟩, List.append_cancel_left queues ▸ List.prefix_rfl⟩
  · rw [published] at later
    exact follows.upholds_publish held registered capacity later

/-- A holder takes an event out of its own mailbox. -/
theorem Upholds.receive (upheld : broker.Upholds sub) (seated : broker.Seated) (now : Nat) :
    (broker.serve now (.receive sub.place)).1.Upholds sub := by
  obtain ⟨account, follows, held, registered⟩ := upheld
  have later := follows.serve seated now (.receive sub.place)
  simp only [Subscription.hear, if_true] at later
  exact ⟨_, later, held, registered⟩

/-! ## What requests do to the registry -/

theorem seat?_of_publish {scope : Scope} {now : Nat} {resource query : String} {event : Event}
    {id : SubscriberId} {place : Nat}
    (seat : (broker.publish scope now resource event).1.seat? query id = some place) :
    broker.seat? query id = some place := by
  rcases broker.publish_cases scope now resource event with ⟨cause, failed, _⟩ | ⟨done, _⟩
  · rwa [failed] at seat
  · rw [done, hand, seat?_prune] at seat
    split at seat
    next => contradiction
    next => exact seat

theorem registry_publish (broker : DirectBroker) (scope : Scope) (now : Nat) (resource : String)
    (event : Event) :
    (broker.publish scope now resource event).1.closed = broker.closed ∧
      (broker.publish scope now resource event).1.nextNumber = broker.nextNumber ∧
      (broker.publish scope now resource event).1.room.nextPlace = broker.room.nextPlace := by
  rcases broker.publish_cases scope now resource event with ⟨cause, failed, _⟩ | ⟨done, _⟩
  · rw [failed]
    exact ⟨rfl, rfl, rfl⟩
  · obtain ⟨number, _, closed, quieter⟩ :=
      (broker.offer resource event).1.prune_same resource (broker.offer resource event).2
    rw [done]
    exact ⟨closed, number, quieter.1.trans (Roster.nextPlace_offerEach _ _ _)⟩

/-- An ordinary request only takes registrations away. -/
theorem registry_serve (broker : DirectBroker) (now : Nat) {request : BrokerRequest}
    (ordinary : request.isOrdinary = true) :
    let after := (broker.serve now request).1
    after.closed = broker.closed ∧ after.nextNumber = broker.nextNumber ∧
      after.room.nextPlace = broker.room.nextPlace ∧
      ∀ resource id place, after.seat? resource id = some place →
        broker.seat? resource id = some place := by
  intro after
  cases request with
  | subscribe | close => simp [BrokerRequest.isOrdinary] at ordinary
  | unsubscribe resource id =>
    obtain ⟨number, _, closed, quieter⟩ := broker.prune_same resource [id]
    refine ⟨closed, number, quieter.1, fun query other place seat => ?_⟩
    have pruned : (broker.prune resource [id]).seat? query other = some place := seat
    rw [seat?_prune] at pruned
    split at pruned
    next => contradiction
    next => exact pruned
  | publish scope resource event =>
    obtain ⟨closed, number, places⟩ := broker.registry_publish scope now resource event
    exact ⟨closed, number, places, fun _ _ _ => seat?_of_publish⟩
  | notify notice =>
    obtain ⟨closed, number, places⟩ :=
      broker.registry_publish (notice.scope now) now notice.resource notice.event
    exact ⟨closed, number, places, fun _ _ _ => seat?_of_publish⟩
  | count => exact ⟨rfl, rfl, rfl, fun _ _ _ seat => seat⟩
  | receive | drain | abandon =>
    exact ⟨rfl, rfl, Mailroom.nextPlace_modify _ _ _, fun _ _ _ seat => seat⟩

/-- A subscribe that fails uses up a number at the most. -/
theorem subscribe_eq_error {joined : DirectBroker} {scope : Scope} {now : Nat} {resource : String}
    {cause : BrokerFailure}
    (refused : broker.subscribe scope now resource = (joined, .error cause)) :
    joined = broker ∨ joined = { broker with nextNumber := broker.nextNumber + 1 } := by
  unfold subscribe at refused
  split at refused
  next => exact Or.inl (Prod.mk.inj refused).1.symm
  next =>
    dsimp only at refused
    split at refused
    next => exact Or.inr (Prod.mk.inj refused).1.symm
    next =>
      split at refused
      next => exact Or.inr (Prod.mk.inj refused).1.symm
      next => simp at refused

/-! ## Who holds what -/

/-- Whether an open broker has no registrations but those of two groups of holders, one
subscription each, and has kept up all of the first group's. -/
structure HeldBy (broker : DirectBroker) (own others : List Subscription) : Prop where
  isOpen : broker.closed = false
  seated : broker.Seated
  upheld : ∀ sub ∈ own, broker.Upholds sub
  claimed : ∀ {resource id place}, broker.seat? resource id = some place →
    ⟨id, resource, place⟩ ∈ own ++ others
  used : ∀ sub ∈ own ++ others,
    sub.id.number < broker.nextNumber ∧ sub.place < broker.room.nextPlace
  ids : ((own ++ others).map Subscription.id).Nodup
  places : ((own ++ others).map Subscription.place).Nodup

namespace HeldBy

theorem ofCapacity (capacity : Nat) : (DirectBroker.ofCapacity capacity).HeldBy [] [] where
  isOpen := rfl
  seated := .ofCapacity capacity
  upheld := by simp
  claimed := fun seat => by cases seat
  used := by simp
  ids := .nil
  places := .nil

theorem inForce (heldBy : broker.HeldBy own others) (member : sub ∈ own) : broker.InForce sub :=
  (heldBy.upheld sub member).inForce heldBy.seated

/-- In which order the first group is listed does not matter. -/
theorem of_perm {listed : List Subscription} (heldBy : broker.HeldBy own others)
    (perm : own.Perm listed) : broker.HeldBy listed others where
  isOpen := heldBy.isOpen
  seated := heldBy.seated
  upheld := fun sub member => heldBy.upheld sub (perm.mem_iff.2 member)
  claimed := fun seat => (perm.append_right others).mem_iff.1 (heldBy.claimed seat)
  used := fun sub member => heldBy.used sub ((perm.append_right others).mem_iff.2 member)
  ids := ((perm.append_right others).map _).nodup_iff.1 heldBy.ids
  places := ((perm.append_right others).map _).nodup_iff.1 heldBy.places

/-- A holder may become a stranger. -/
theorem give (heldBy : broker.HeldBy (sub :: own) others) : broker.HeldBy own (sub :: others) := by
  have perm : (sub :: own ++ others).Perm (own ++ sub :: others) := List.perm_middle.symm
  constructor
  case isOpen => exact heldBy.isOpen
  case seated => exact heldBy.seated
  case upheld => exact fun other member => heldBy.upheld other (List.mem_cons_of_mem sub member)
  case claimed => exact fun seat => perm.mem_iff.1 (heldBy.claimed seat)
  case used => exact fun other member => heldBy.used other (perm.mem_iff.2 member)
  case ids => exact (perm.map _).nodup_iff.1 heldBy.ids
  case places => exact (perm.map _).nodup_iff.1 heldBy.places

/-- A stranger without a registration need not be listed. -/
theorem forget (heldBy : broker.HeldBy own (sub :: others))
    (left : broker.seat? sub.resource sub.id = none) : broker.HeldBy own others := by
  have sublist : (own ++ others).Sublist (own ++ sub :: others) :=
    (List.sublist_cons_self sub others).append_left own
  constructor
  case isOpen => exact heldBy.isOpen
  case seated => exact heldBy.seated
  case upheld => exact heldBy.upheld
  case claimed =>
    intro resource id place seat
    have listed := heldBy.claimed seat
    simp only [List.mem_append, List.mem_cons] at listed ⊢
    rcases listed with isOwn | rfl | isOther
    · exact Or.inl isOwn
    · simp [left] at seat
    · exact Or.inr isOther
  case used => exact fun other member => heldBy.used other (sublist.subset member)
  case ids => exact heldBy.ids.sublist (sublist.map _)
  case places => exact heldBy.places.sublist (sublist.map _)

/-- Two holders have neither id nor place in common. -/
theorem apart (heldBy : broker.HeldBy (sub :: own) others) {other : Subscription}
    (member : other ∈ own ++ others) : sub.id ≠ other.id ∧ sub.place ≠ other.place := by
  have ids := (List.nodup_cons.1 heldBy.ids).1
  have places := (List.nodup_cons.1 heldBy.places).1
  exact ⟨fun same => ids (same ▸ List.mem_map_of_mem member),
    fun same => places (same ▸ List.mem_map_of_mem member)⟩

/-- What a holder does with its own subscription is no other's part. -/
theorem foreign (heldBy : broker.HeldBy (sub :: own) others) {other : Subscription}
    (member : other ∈ own) :
    (BrokerRequest.unsubscribe sub.resource sub.id).handles other = false ∧
      (BrokerRequest.receive sub.place).handles other = false ∧
      (BrokerRequest.abandon sub.place).handles other = false := by
  obtain ⟨id, place⟩ := heldBy.apart (List.mem_append_left others member)
  simp [BrokerRequest.handles, id, place]

/-- An ordinary request leaves everything with its holders, if it keeps up the first group's
subscriptions. -/
theorem serve (heldBy : broker.HeldBy own others) (now : Nat) {request : BrokerRequest}
    (ordinary : request.isOrdinary = true)
    (upheld : ∀ sub ∈ own, (broker.serve now request).1.Upholds sub) :
    (broker.serve now request).1.HeldBy own others := by
  obtain ⟨closed, number, places, seats⟩ := broker.registry_serve now ordinary
  constructor
  case isOpen => exact closed.trans heldBy.isOpen
  case seated => exact seated_serve heldBy.seated now request
  case upheld => exact upheld
  case claimed => exact fun seat => heldBy.claimed (seats _ _ _ seat)
  case used =>
    rw [number, places]
    exact heldBy.used
  case ids => exact heldBy.ids
  case places => exact heldBy.places

/-- What strangers ask for leaves the first group's subscriptions in force, with all that their
mailboxes hold. -/
theorem serve_foreign (heldBy : broker.HeldBy own others) (now : Nat) {request : BrokerRequest}
    (ordinary : request.isOrdinary = true) (foreign : ∀ sub ∈ own, request.handles sub = false) :
    (broker.serve now request).1.HeldBy own others ∧ ∀ sub ∈ own,
      broker.room.queue sub.place <+: (broker.serve now request).1.room.queue sub.place := by
  have spared := fun sub member =>
    (heldBy.upheld sub member).serve heldBy.seated now (foreign sub member)
  exact ⟨heldBy.serve now ordinary fun sub member => (spared sub member).1,
    fun sub member => (spared sub member).2⟩

theorem spendNumber (heldBy : broker.HeldBy own others) :
    { broker with nextNumber := broker.nextNumber + 1 }.HeldBy own others where
  isOpen := heldBy.isOpen
  seated := heldBy.seated.spendNumber
  upheld := by
    intro sub member
    obtain ⟨account, follows, standing⟩ := heldBy.upheld sub member
    exact ⟨account, ⟨follows.box, follows.seat, follows.own, Nat.lt_succ_of_lt follows.used,
      follows.shut⟩, standing⟩
  claimed := heldBy.claimed
  used := fun sub member =>
    ⟨Nat.lt_succ_of_lt (heldBy.used sub member).1, (heldBy.used sub member).2⟩
  ids := heldBy.ids
  places := heldBy.places

theorem refuse (heldBy : broker.HeldBy own others) {after : DirectBroker} {scope : Scope}
    {now : Nat} {resource : String} {cause : BrokerFailure}
    (refused : broker.subscribe scope now resource = (after, .error cause)) :
    after.HeldBy own others ∧ after.room = broker.room := by
  rcases subscribe_eq_error refused with rfl | rfl
  · exact ⟨heldBy, rfl⟩
  · exact ⟨heldBy.spendNumber, rfl⟩

/-- A new holder gets an id and a place that nobody had, and its subscription is in force. -/
theorem enroll (heldBy : broker.HeldBy own others) {after : DirectBroker} {scope : Scope}
    {now : Nat}
    {resource : String} (granted : broker.subscribe scope now resource = (after, .ok sub)) :
    after.HeldBy (sub :: own) others ∧ ∀ other ∈ own,
      broker.room.queue other.place <+: after.room.queue other.place := by
  have isAfter : (broker.serve now (.subscribe scope resource)).1 = after := by
    simp [DirectBroker.serve, granted]
  have spared := fun other member =>
    (heldBy.upheld other member).serve heldBy.seated now
      (show (BrokerRequest.subscribe scope resource).handles other = false from rfl)
  have seated := seated_serve heldBy.seated now (.subscribe scope resource)
  rw [isAfter] at spared seated
  have fresh := follows_subscribe heldBy.seated granted
  obtain ⟨isOpen, isSub, isJoined⟩ := subscribe_eq_ok granted
  have isId : sub.id = ⟨broker.nextNumber⟩ := by rw [isSub]
  have isPlace : sub.place = broker.room.nextPlace := by rw [isSub]
  refine ⟨?_, fun other member => (spared other member).2⟩
  constructor
  case isOpen => rw [isJoined]; exact isOpen
  case seated => exact seated
  case upheld =>
    rintro other (_ | ⟨_, member⟩)
    · exact ⟨.fresh, fresh, rfl, rfl⟩
    · exact (spared other member).1
  case claimed =>
    intro query id place seat
    rw [isJoined, seat?_register] at seat
    rw [isSub, List.cons_append, List.mem_cons]
    split at seat
    next new =>
      obtain ⟨rfl, rfl⟩ := new
      exact Or.inl (by rw [← Option.some.inj seat])
    next => exact Or.inr (heldBy.claimed seat)
  case used =>
    have number : after.nextNumber = broker.nextNumber + 1 := by rw [isJoined]; rfl
    have places : after.room.nextPlace = broker.room.nextPlace + 1 := by
      rw [isJoined]
      exact Mailroom.nextPlace_add _ _
    intro other member
    rcases List.mem_cons.1 member with rfl | old
    · rw [number, places, isId, isPlace]
      exact ⟨Nat.lt_succ_self _, Nat.lt_succ_self _⟩
    · have used := heldBy.used other old
      omega
  case ids =>
    refine List.nodup_cons.2 ⟨fun taken => ?_, heldBy.ids⟩
    obtain ⟨other, member, same⟩ := List.mem_map.1 taken
    have used := (heldBy.used other member).1
    rw [same, isId] at used
    exact Nat.lt_irrefl _ used
  case places =>
    refine List.nodup_cons.2 ⟨fun taken => ?_, heldBy.places⟩
    obtain ⟨other, member, same⟩ := List.mem_map.1 taken
    have used := (heldBy.used other member).2
    rw [same, isPlace] at used
    exact Nat.lt_irrefl _ used

end HeldBy

/-! ## Steps of one holder -/

/-- What a holder and the broker have to do with each other at one instant: from what the holder
had to what it has then, and what the broker is then. -/
inductive HolderStep (broker : DirectBroker) (now : Nat) :
    Option Subscription → Option Subscription → DirectBroker → Prop
  | rest (held : Option Subscription) : HolderStep broker now held held broker
  | receive (sub : Subscription) :
      HolderStep broker now (some sub) (some sub) (broker.serve now (.receive sub.place)).1
  | publish (held : Option Subscription) (scope : Scope) (resource : String) (event : Event) :
      HolderStep broker now held held (broker.serve now (.publish scope resource event)).1
  | refused {after : DirectBroker} {scope : Scope} {resource : String} {cause : BrokerFailure}
      (answer : broker.subscribe scope now resource = (after, .error cause)) :
      HolderStep broker now none none after
  | granted {after : DirectBroker} {scope : Scope} {resource : String} {sub : Subscription}
      (answer : broker.subscribe scope now resource = (after, .ok sub)) :
      HolderStep broker now none (some sub) after
  | release (sub : Subscription) : HolderStep broker now (some sub) none
      (((broker.serve now (.unsubscribe sub.resource sub.id)).1).serve now (.abandon sub.place)).1

namespace HeldBy

/-- After the release of a subscription its holder has nothing with the broker. -/
theorem release (heldBy : broker.HeldBy (sub :: own) others) (now : Nat) :
    let left := (broker.serve now (.unsubscribe sub.resource sub.id)).1
    let after := (left.serve now (.abandon sub.place)).1
    after.HeldBy own others ∧ ∀ other ∈ own,
      broker.room.queue other.place <+: after.room.queue other.place := by
  intro left after
  have gone : left.seat? sub.resource sub.id = none := by
    have pruned := broker.seat?_prune sub.resource sub.resource [sub.id] sub.id
    rw [if_pos ⟨rfl, List.mem_singleton.2 rfl⟩] at pruned
    exact pruned
  obtain ⟨unsubscribed, kept⟩ := heldBy.give.serve_foreign now rfl
    fun _ member => (heldBy.foreign member).1
  obtain ⟨abandoned, still⟩ := unsubscribed.serve_foreign now rfl
    fun _ member => (heldBy.foreign member).2.2
  exact ⟨abandoned.forget gone, fun other member => (kept other member).trans (still other member)⟩

/-- What one holder does leaves everybody else's subscription in force, with all that its
mailbox holds. -/
theorem holderStep {before later : Option Subscription} {now : Nat} {after : DirectBroker}
    (heldBy : broker.HeldBy (before.toList ++ own) others)
    (holderStep : broker.HolderStep now before later after) :
    after.HeldBy (later.toList ++ own) others ∧ ∀ other ∈ own,
      broker.room.queue other.place <+: after.room.queue other.place := by
  cases holderStep with
  | rest => exact ⟨heldBy, fun _ _ => List.prefix_rfl⟩
  | receive sub =>
    have spared := fun other (member : other ∈ own) =>
      (heldBy.upheld other (List.mem_cons_of_mem sub member)).serve heldBy.seated now
        (heldBy.foreign member).2.1
    refine ⟨heldBy.serve now rfl ?_, fun other member => (spared other member).2⟩
    rintro other (_ | ⟨_, member⟩)
    · exact (heldBy.upheld sub List.mem_cons_self).receive heldBy.seated now
    · exact (spared other member).1
  | publish held scope resource event =>
    obtain ⟨published, kept⟩ :=
      @serve_foreign _ _ _ heldBy now (.publish scope resource event) rfl fun _ _ => rfl
    exact ⟨published, fun other member => kept other (List.mem_append_right _ member)⟩
  | refused answer =>
    obtain ⟨refused, room⟩ := heldBy.refuse answer
    exact ⟨refused, fun _ _ => room ▸ List.prefix_rfl⟩
  | granted answer => exact heldBy.enroll answer
  | release sub => exact heldBy.release now

end HeldBy

/-! ## Counting registrations -/

/-- How many subscribers a resource has who are none of some strangers. -/
def audienceBut (broker : DirectBroker) (strangers : List Subscription) (resource : String) : Nat :=
  (broker.roster resource).entries.countP fun entry => entry.1 ∉ strangers.map Subscription.id

/-- Where there are no strangers this is the whole audience. -/
theorem audienceBut_nil (broker : DirectBroker) (resource : String) :
    broker.audienceBut [] resource = broker.audience resource := by
  simp [audienceBut, audience, Roster.size]

/-- The registrations of a resource that are not strangers' are those of the first group. -/
theorem HeldBy.audienceBut_eq (heldBy : broker.HeldBy own others) (resource : String) :
    broker.audienceBut others resource = own.countP (·.resource = resource) := by
  rw [audienceBut, List.countP_eq_length_filter, List.countP_eq_length_filter]
  have apart := heldBy.ids
  rw [List.map_append, List.nodup_append] at apart
  obtain ⟨ownIds, _, disjoint⟩ := apart
  -- Both are lists of ids without repetition, and with the same members.
  have same : (((broker.roster resource).entries.filter
      fun entry => entry.1 ∉ others.map Subscription.id).map Prod.fst).Perm
        ((own.filter (·.resource = resource)).map Subscription.id) := by
    rw [List.perm_ext_iff_of_nodup
      ((broker.roster resource).ids_nodup.sublist (List.filter_sublist.map _))
      (ownIds.sublist (List.filter_sublist.map _))]
    intro id
    constructor
    · intro listed
      obtain ⟨⟨_, place⟩, member, rfl⟩ := List.mem_map.1 listed
      obtain ⟨isEntry, noStranger⟩ := List.mem_filter.1 member
      have holder := heldBy.claimed (Roster.place?_eq_some_iff.2 isEntry)
      rcases List.mem_append.1 holder with isOwn | isOther
      · exact List.mem_map.2 ⟨_, List.mem_filter.2 ⟨isOwn, by simp⟩, rfl⟩
      · have taken := List.mem_map_of_mem (f := Subscription.id) isOther
        simp [taken] at noStranger
    · intro listed
      obtain ⟨sub, member, rfl⟩ := List.mem_map.1 listed
      obtain ⟨isOwn, here⟩ := List.mem_filter.1 member
      obtain rfl : sub.resource = resource := by simpa using here
      refine List.mem_map.2 ⟨(sub.id, sub.place), List.mem_filter.2 ⟨?_, ?_⟩, rfl⟩
      · exact Roster.place?_eq_some_iff.1 (heldBy.inForce isOwn).1
      · simp only [decide_eq_true_eq]
        exact fun taken => disjoint _ (List.mem_map_of_mem isOwn) _ taken rfl
  simpa using same.length_eq

end DirectBroker

end UpdateRelay
