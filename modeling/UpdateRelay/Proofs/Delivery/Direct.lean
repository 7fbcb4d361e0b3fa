import UpdateRelay.Proofs.Backends.Projection
import UpdateRelay.Proofs.Backends.Script
import UpdateRelay.Proofs.Broker.Direct

/-!
# Subscriptions of an in-process broker

What clients ask of an in-process broker and hear from it settles what each subscriber gets:
`Subscription.account` reads off its requests and answers what one bounded queue of its own would
be fed. Whatever else goes on at the broker, its mailbox is that queue.
-/

namespace UpdateRelay

/-- What a client asked at an instant, and what it heard. -/
structure Exchange where
  now : Nat
  request : BrokerRequest
  answer : BrokerAnswer

namespace Exchange

/-- Whether a request that can fail did not. -/
def succeeded (exchange : Exchange) : Bool :=
  match exchange.answer with
  | .completed (.ok ()) => true
  | _ => false

/-- The events that a client heard. -/
def events (exchange : Exchange) : List Event :=
  match exchange.answer with
  | .received (.event event) => [event]
  | .drained events => events
  | _ => []

end Exchange

/-- What requests and answers tell of a subscription: whether it has not been ended, whether its
receiver is still there, what its mailbox was fed and what the receiver got. -/
structure Account where
  registered : Bool
  held : Bool
  feeds : List Feed
  received : List Event
  deriving DecidableEq, Repr

namespace Account

def fresh : Account := ⟨true, true, [], []⟩

def feed (account : Account) (feed : Feed) : Account :=
  { account with feeds := account.feeds ++ [feed] }

/-- The account after an event of the resource was published. -/
def publish (account : Account) (event : Event) : Account :=
  if account.registered then account.feed (.offer event) else account

@[simp] theorem registered_publish (account : Account) (event : Event) :
    (account.publish event).registered = account.registered := by
  unfold publish
  split <;> rfl

@[simp] theorem held_publish (account : Account) (event : Event) :
    (account.publish event).held = account.held := by
  unfold publish
  split <;> rfl

/-- The account after the receiver took something. -/
def take (account : Account) (feed : Feed) (events : List Event) : Account :=
  { account.feed feed with received := account.received ++ events }

end Account

namespace Subscription

/-- The account of a subscription after an exchange. -/
def hear (sub : Subscription) (account : Account) (exchange : Exchange) : Account :=
  match exchange.request with
  | .subscribe _ _ | .count _ => account
  | .unsubscribe resource id =>
      if resource = sub.resource ∧ id = sub.id then { account with registered := false }
      else account
  | .publish _ resource event =>
      if resource = sub.resource ∧ exchange.succeeded then account.publish event else account
  | .notify notice =>
      -- Nobody is told whether the publish of a notice succeeds; it does unless its scope is done.
      if notice.resource = sub.resource ∧ (notice.scope exchange.now).stop? exchange.now = none then
        account.publish notice.event
      else account
  | .receive place =>
      if place = sub.place then account.take .receive exchange.events else account
  | .drain place => if place = sub.place then account.take .drain exchange.events else account
  | .abandon place =>
      if place = sub.place then { account.take .abandon [] with held := false } else account
  | .close => { account with registered := false }

/-- The account of a subscription since it began. -/
def account (sub : Subscription) (exchanges : List Exchange) : Account :=
  exchanges.foldl sub.hear .fresh

/-- Whether a request is one of the receiver, ends the subscription or publishes to its resource. -/
def concerns (sub : Subscription) : BrokerRequest → Bool
  | .subscribe _ _ | .count _ => false
  | .unsubscribe resource id => resource = sub.resource ∧ id = sub.id
  | .publish _ resource _ => resource = sub.resource
  | .notify notice => notice.resource = sub.resource
  | .receive place | .drain place | .abandon place => place = sub.place
  | .close => true

theorem hear_of_not_concerns {sub : Subscription} {exchange : Exchange}
    (foreign : sub.concerns exchange.request = false) (account : Account) :
    sub.hear account exchange = account := by
  obtain ⟨now, request, answer⟩ := exchange
  cases request <;> simp_all [concerns, hear]

/-- What others do with the broker does not show in the account. -/
theorem account_filter (sub : Subscription) (exchanges : List Exchange) :
    sub.account (exchanges.filter (sub.concerns ·.request)) = sub.account exchanges := by
  unfold account
  rw [List.foldl_filter]
  congr
  funext account exchange
  split
  next => rfl
  next foreign => exact (hear_of_not_concerns (by simpa using foreign) account).symm

end Subscription

namespace DirectBroker

/-- What clients ask and hear, request by request. -/
def exchanges (broker : DirectBroker) : Script → List Exchange
  | [] => []
  | (now, request) :: script =>
      let (after, answer) := broker.serve now request
      ⟨now, request, answer⟩ :: after.exchanges script

def serveAll (broker : DirectBroker) (script : Script) : DirectBroker :=
  script.foldl (fun broker entry => (broker.serve entry.1 entry.2).1) broker

theorem seated_serve {broker : DirectBroker} (seated : broker.Seated) (now : Nat)
    (request : BrokerRequest) : (broker.serve now request).1.Seated := by
  have published : ∀ (scope : Scope) (resource : String) (event : Event),
      (broker.publish scope now resource event).1.Seated := by
    intro scope resource event
    unfold publish
    split
    next => exact seated
    next =>
      split
      next => exact seated
      next => exact (seated.offer resource event).prune resource _
  cases request with
  | subscribe scope resource =>
    simp only [serve, subscribe]
    have counted : { broker with nextNumber := broker.nextNumber + 1 }.Seated :=
      seated.spendNumber
    split
    next => exact seated
    next =>
      split
      next => exact counted
      next =>
        split
        next => exact counted
        next isOpen => exact seated.register (by simpa using isOpen) resource
  | unsubscribe resource id => exact seated.prune resource [id]
  | publish scope resource event => exact published scope resource event
  | notify notice => exact published _ notice.resource notice.event
  | count => exact seated
  | receive place => exact seated.modifyBox place .receive
  | drain place => exact seated.modifyBox place .drain
  | abandon place => exact seated.modifyBox place .abandon
  | close => exact seated.close

theorem seated_serveAll {broker : DirectBroker} (seated : broker.Seated) (script : Script) :
    (broker.serveAll script).Seated := by
  induction script generalizing broker with
  | nil => exact seated
  | cons entry script inductionHypothesis =>
    exact inductionHypothesis (seated_serve seated entry.1 entry.2)

/-- A publish leaves the broker as it is where its scope is done or the broker closed, and else
hands the event on. -/
theorem publish_cases (broker : DirectBroker) (scope : Scope) (now : Nat) (resource : String)
    (event : Event) :
    (∃ cause, broker.publish scope now resource event = (broker, .error cause) ∧
      (scope.stop? now ≠ none ∨ broker.closed = true)) ∨
      broker.publish scope now resource event = (broker.hand resource event, .ok ()) ∧
        scope.stop? now = none := by
  unfold publish Scope.check
  cases done : scope.stop? now with
  | some reason => exact Or.inl ⟨_, rfl, by simp⟩
  | none =>
    cases isShut : broker.closed with
    | true => exact Or.inl ⟨.closed, by simp, by simp⟩
    | false => exact Or.inr ⟨by simp [hand], rfl⟩

/-! ## One subscription -/

/-- Whether a broker agrees with the account of a subscription: its mailbox is a queue with the
feeds of the account, and nobody else has its place. -/
structure Follows (broker : DirectBroker) (sub : Subscription) (account : Account) : Prop where
  box : ∃ box, broker.room.get? sub.place = some box ∧ box.hasReceiver = account.held ∧
    (Fifo.fed broker.capacity account.feeds).Mirrors account.received box
  seat : account.held = true → account.registered = true →
    broker.seat? sub.resource sub.id = some sub.place
  own : ∀ {resource id}, broker.seat? resource id = some sub.place →
    resource = sub.resource ∧ id = sub.id ∧ account.registered = true
  used : sub.id.number < broker.nextNumber
  shut : broker.closed = true → account.registered = false

namespace Follows

variable {broker : DirectBroker} {sub : Subscription} {account : Account}

/-- Subscribers may leave, if the subscription leaves only when it is ended or its receiver is
gone. -/
theorem thin {after : DirectBroker} (follows : broker.Follows sub account) {still : Bool}
    (quieter : broker.room.Quieter after.room) (capacity : after.capacity = broker.capacity)
    (number : after.nextNumber = broker.nextNumber)
    (seat : account.held = true → still = true →
      after.seat? sub.resource sub.id = some sub.place)
    (own : ∀ {resource id}, after.seat? resource id = some sub.place →
      resource = sub.resource ∧ id = sub.id ∧ still = true)
    (shut : after.closed = true → still = false) :
    after.Follows sub { account with registered := still } where
  box := by
    obtain ⟨box, found, held, mirrors⟩ := follows.box
    rw [capacity]
    rcases quieter.2 sub.place with same | hung
    · exact ⟨box, same.trans found, held, mirrors⟩
    · rw [found] at hung
      exact ⟨box.hangUp, hung, held, mirrors.of_same rfl rfl⟩
  seat := seat
  own := own
  used := number ▸ follows.used
  shut := shut

theorem unsubscribe (follows : broker.Follows sub account) (resource : String)
    (id : SubscriberId) : (broker.unsubscribe resource id).Follows sub
      (if resource = sub.resource ∧ id = sub.id then { account with registered := false }
        else account) := by
  obtain ⟨number, capacity, closed, quieter⟩ := broker.prune_same resource [id]
  split
  next ended =>
    obtain ⟨rfl, rfl⟩ := ended
    refine follows.thin quieter capacity number (fun _ gone => by cases gone) ?_ fun _ => rfl
    intro query other seat
    rw [DirectBroker.unsubscribe, seat?_prune] at seat
    split at seat
    next => contradiction
    next left =>
      obtain ⟨rfl, rfl, _⟩ := follows.own seat
      simp at left
  next other =>
    have apart : ¬(sub.resource = resource ∧ sub.id ∈ [id]) := by
      simpa [eq_comm] using other
    refine follows.thin quieter capacity number ?_ ?_ fun isShut => follows.shut (closed ▸ isShut)
    · intro held registered
      rw [DirectBroker.unsubscribe, seat?_prune, if_neg apart]
      exact follows.seat held registered
    · intro query reader seat
      rw [DirectBroker.unsubscribe, seat?_prune] at seat
      split at seat
      next => contradiction
      next => exact follows.own seat

theorem close (follows : broker.Follows sub account) :
    broker.close.Follows sub { account with registered := false } :=
  follows.thin broker.quieter_close rfl rfl (fun _ gone => by cases gone)
    (fun seat => by cases seat) fun _ => rfl

theorem subscribe (follows : broker.Follows sub account) (scope : Scope) (now : Nat)
    (resource : String) : (broker.subscribe scope now resource).1.Follows sub account := by
  have counted : { broker with nextNumber := broker.nextNumber + 1 }.Follows sub account :=
    ⟨follows.box, follows.seat, follows.own, Nat.lt_succ_of_lt follows.used, follows.shut⟩
  have born : sub.place ≠ broker.room.nextPlace := by
    obtain ⟨box, found, _⟩ := follows.box
    exact Nat.ne_of_lt (Mailroom.lt_of_get?_eq_some found)
  have old : sub.id ≠ ⟨broker.nextNumber⟩ := by
    intro same
    have used := follows.used
    rw [same] at used
    exact Nat.lt_irrefl _ used
  unfold DirectBroker.subscribe
  split
  next => exact follows
  next =>
    dsimp only
    split
    next => exact counted
    next =>
      split
      next => exact counted
      next =>
        -- The new subscriber has an id and a place that are not those of the subscription.
        constructor
        case box =>
          obtain ⟨box, found, held, mirrors⟩ := follows.box
          refine ⟨box, ?_, held, mirrors⟩
          simp only [register, Mailroom.get?_add, if_neg born, found]
        case seat =>
          intro held registered
          rw [seat?_register, if_neg fun new => old new.2]
          exact follows.seat held registered
        case own =>
          intro query id seat
          rw [seat?_register] at seat
          split at seat
          next => exact absurd (Option.some.inj seat).symm born
          next => exact follows.own seat
        case used => exact Nat.lt_succ_of_lt follows.used
        case shut => exact follows.shut

/-- What happens in the mailbox of the subscription happens to its queue. -/
theorem feed (follows : broker.Follows sub account) (seated : broker.Seated) (feed : Feed)
    {box : Mailbox} (found : broker.room.get? sub.place = some box) :
    (broker.modifyBox sub.place feed.change).Follows sub
      { account.take feed (feed.taken box) with held := (feed.change box).hasReceiver } := by
  obtain ⟨same, isSame, held, mirrors⟩ := follows.box
  obtain rfl := Option.some.inj (found.symm.trans isSame)
  refine ⟨⟨feed.change box, ?_, rfl, ?_⟩, fun isHeld => ?_, follows.own, follows.used,
    follows.shut⟩
  · simp [DirectBroker.modifyBox, Mailroom.get?_modify, found]
  · have fed := mirrors.next feed
    rw [seated.sized found, ← Fifo.fed_append] at fed
    exact fed
  · exact follows.seat (held ▸ Feed.hasReceiver_of_change isHeld)

theorem modifyBox_of_ne (follows : broker.Follows sub account) {place : Nat}
    (elsewhere : place ≠ sub.place) (change : Mailbox → Mailbox) :
    (broker.modifyBox place change).Follows sub account := by
  obtain ⟨box, found, held, mirrors⟩ := follows.box
  refine ⟨⟨box, ?_, held, mirrors⟩, follows.seat, follows.own, follows.used, follows.shut⟩
  simp only [DirectBroker.modifyBox, Mailroom.get?_modify, if_neg elsewhere, found]

/-- An offer reaches the subscription if it is to its resource and the subscription has not been
ended; only who has no receiver may have left before, and does not care. -/
theorem offer (follows : broker.Follows sub account) (seated : broker.Seated) (resource : String)
    (event : Event) : (broker.offer resource event).1.Follows sub
      (if resource = sub.resource then account.publish event else account) := by
  obtain ⟨box, found, held, mirrors⟩ := follows.box
  have isBox := seated.get?_offer resource event sub.place
  rw [found] at isBox
  have listed : sub.place ∈ (broker.roster resource).places ↔
      ∃ id, broker.seat? resource id = some sub.place := Roster.mem_places_iff
  by_cases addressed : resource = sub.resource ∧ account.registered = true
  · obtain ⟨rfl, registered⟩ := addressed
    have fed := mirrors.next (.offer event)
    rw [seated.sized found, ← Fifo.fed_append] at fed
    rw [if_pos rfl, Account.publish, if_pos registered]
    split at isBox
    next =>
      have still := box.hasReceiver_offer event
      have sameGot : account.received ++ Feed.taken (.offer event) box = account.received :=
        List.append_nil _
      exact ⟨⟨box.offer event, isBox, still.trans held, sameGot ▸ fed⟩, follows.seat, follows.own,
        follows.used, follows.shut⟩
    next absent =>
      -- Off the roster without having been ended: the receiver is gone, and what it got is final.
      have gone : account.held ≠ true := fun isHeld =>
        absent (listed.2 ⟨sub.id, follows.seat isHeld registered⟩)
      refine ⟨⟨box, isBox, held, ?_, fun isHeld => absurd (held ▸ isHeld) gone⟩, follows.seat,
        follows.own, follows.used, follows.shut⟩
      rw [Account.feed, Fifo.fed_append]
      exact mirrors.got.trans (Fifo.kept_next _ _ _)
  · have unheard : (if resource = sub.resource then account.publish event else account) =
        account := by
      split
      next here => exact if_neg fun registered => addressed ⟨here, registered⟩
      next => rfl
    have absent : sub.place ∉ (broker.roster resource).places := by
      intro present
      obtain ⟨id, seat⟩ := listed.1 present
      obtain ⟨here, _, registered⟩ := follows.own seat
      exact addressed ⟨here, registered⟩
    rw [if_neg absent] at isBox
    rw [unheard]
    exact ⟨⟨box, isBox, held, mirrors⟩, follows.seat, follows.own, follows.used, follows.shut⟩

/-- Whoever an offer finds gone has lost its receiver. -/
theorem held_of_gone (follows : broker.Follows sub account) (seated : broker.Seated)
    {resource : String} {event : Event} (gone : sub.id ∈ (broker.offer resource event).2)
    (seat : broker.seat? resource sub.id = some sub.place) : account.held = false := by
  obtain ⟨box, found, held, _⟩ := follows.box
  have listed : (broker.offer resource event).2 = _ :=
    Roster.gone_offerEach (seated.places_nodup resource) broker.room
  obtain ⟨place, isSeat, verdict⟩ := Roster.mem_answering.1 (listed ▸ gone)
  obtain rfl := Option.some.inj (isSeat.symm.trans seat)
  simp only [Mailroom.verdict, found] at verdict
  exact held ▸ box.verdict_eq_disconnected_iff.1 verdict

theorem hand (follows : broker.Follows sub account) (seated : broker.Seated) (resource : String)
    (event : Event) : (broker.hand resource event).Follows sub
      (if resource = sub.resource then account.publish event else account) := by
  have offered := follows.offer seated resource event
  have held : (if resource = sub.resource then account.publish event else account).held =
      account.held := by
    split <;> simp
  generalize (if resource = sub.resource then account.publish event else account) = next
    at offered held
  have seats : ∀ {query id place}, (broker.hand resource event).seat? query id = some place →
      (broker.offer resource event).1.seat? query id = some place := by
    intro query id place seat
    rw [DirectBroker.hand, seat?_prune] at seat
    split at seat
    next => contradiction
    next => exact seat
  obtain ⟨number, capacity, closed, quieter⟩ :=
    (broker.offer resource event).1.prune_same resource (broker.offer resource event).2
  refine offered.thin quieter capacity number ?_ (fun seat => offered.own (seats seat))
    fun isShut => offered.shut (closed ▸ isShut)
  intro isHeld registered
  have seat := offered.seat isHeld registered
  rw [DirectBroker.hand, seat?_prune, if_neg]
  · exact seat
  · -- Only those are removed after an offer whose receiver is gone.
    rintro ⟨here, gone⟩
    have lost := follows.held_of_gone seated gone (here ▸ seat)
    rw [← held, isHeld] at lost
    contradiction

/-- What a receiver does shows in the account if it is the one of the subscription. -/
theorem modifyBox (follows : broker.Follows sub account) (seated : broker.Seated) (feed : Feed)
    (place : Nat) (events : List Event) (still : Bool)
    (heard : ∀ {box : Mailbox}, broker.room.get? place = some box →
      events = feed.taken box ∧ (box.hasReceiver = account.held →
        still = (feed.change box).hasReceiver)) :
    (broker.modifyBox place feed.change).Follows sub
      (if place = sub.place then { account.take feed events with held := still } else account) := by
  split
  next here =>
    subst here
    obtain ⟨box, found, held, _⟩ := follows.box
    obtain ⟨rfl, change⟩ := heard found
    obtain rfl := change held
    exact follows.feed seated feed found
  next elsewhere => exact follows.modifyBox_of_ne elsewhere _

/-- Every request leaves the broker in agreement with what the subscription hears. -/
theorem serve (follows : broker.Follows sub account) (seated : broker.Seated) (now : Nat)
    (request : BrokerRequest) : (broker.serve now request).1.Follows sub
      (sub.hear account ⟨now, request, (broker.serve now request).2⟩) := by
  cases request with
  | subscribe scope resource => exact follows.subscribe scope now resource
  | unsubscribe resource id => exact follows.unsubscribe resource id
  | publish scope resource event =>
    simp only [DirectBroker.serve, Subscription.hear]
    rcases broker.publish_cases scope now resource event with ⟨cause, failed, _⟩ | ⟨done, _⟩
    · simpa [failed, Exchange.succeeded] using follows
    · simpa [done, Exchange.succeeded] using follows.hand seated resource event
  | notify notice =>
    simp only [DirectBroker.serve, Subscription.hear]
    rcases broker.publish_cases (notice.scope now) now notice.resource notice.event with
      ⟨cause, failed, ended⟩ | ⟨done, live⟩
    · have unheard : (if notice.resource = sub.resource ∧ (notice.scope now).stop? now = none then
          account.publish notice.event else account) = account := by
        split
        next live =>
          have isShut := ended.resolve_left (not_not.2 live.2)
          simp [Account.publish, follows.shut isShut]
        next => rfl
      rw [failed, unheard]
      exact follows
    · simpa [done, live] using follows.hand seated notice.resource notice.event
  | count => exact follows
  | receive place =>
    refine follows.modifyBox seated .receive place _ account.held fun {box} found =>
      ⟨?_, fun same => same.symm⟩
    simp only [DirectBroker.serve, Exchange.events, Mailroom.receipt, found, Feed.taken]
    cases box.receipt <;> rfl
  | drain place =>
    refine follows.modifyBox seated .drain place _ account.held fun {box} found =>
      ⟨?_, fun same => same.symm⟩
    simp only [DirectBroker.serve, Exchange.events, Mailroom.queue, found, Feed.taken]
  | abandon place =>
    exact follows.modifyBox seated .abandon place [] false fun _ => ⟨rfl, fun _ => rfl⟩
  | close => exact follows.close

end Follows

theorem subscribe_eq_ok {broker joined : DirectBroker} {scope : Scope} {now : Nat}
    {resource : String} {sub : Subscription}
    (subscribed : broker.subscribe scope now resource = (joined, .ok sub)) :
    broker.closed = false ∧ sub = ⟨⟨broker.nextNumber⟩, resource, broker.room.nextPlace⟩ ∧
      joined = { broker with nextNumber := broker.nextNumber + 1 }.register resource
        ⟨broker.nextNumber⟩ := by
  unfold subscribe at subscribed
  split at subscribed
  next => simp at subscribed
  next =>
    dsimp only at subscribed
    split at subscribed
    next => simp at subscribed
    next =>
      split at subscribed
      next => simp at subscribed
      next isOpen =>
        obtain ⟨rfl, same⟩ := Prod.mk.inj subscribed
        exact ⟨by simpa using isOpen, (Except.ok.inj same).symm, rfl⟩

/-- Who has just subscribed has a mailbox of its own, with nothing in it. -/
theorem follows_subscribe {broker joined : DirectBroker} {sub : Subscription}
    (seated : broker.Seated) {scope : Scope} {now : Nat} {resource : String}
    (subscribed : broker.subscribe scope now resource = (joined, .ok sub)) :
    joined.Follows sub .fresh := by
  obtain ⟨isOpen, rfl, rfl⟩ := subscribe_eq_ok subscribed
  constructor
  case box =>
    refine ⟨.fresh broker.capacity, ?_, rfl, Fifo.mirrors_fresh broker.capacity⟩
    simp [register, Mailroom.get?_add]
  case seat =>
    intro _ _
    simp [seat?_register]
  case own =>
    intro query id seat
    rw [seat?_register] at seat
    split at seat
    next new => exact ⟨new.1, new.2, rfl⟩
    next => exact absurd (seated.seatOld seat).2 (Nat.lt_irrefl _)
  case used => exact Nat.lt_succ_self _
  case shut => exact fun isShut => absurd (isOpen.symm.trans isShut) Bool.false_ne_true

theorem capacity_serve (broker : DirectBroker) (now : Nat) (request : BrokerRequest) :
    (broker.serve now request).1.capacity = broker.capacity := by
  have pruned : ∀ (broker : DirectBroker) (resource : String) (ids : List SubscriberId),
      (broker.prune resource ids).capacity = broker.capacity :=
    fun broker resource ids => (broker.prune_same resource ids).2.1
  have published : ∀ (scope : Scope) (resource : String) (event : Event),
      (broker.publish scope now resource event).1.capacity = broker.capacity := by
    intro scope resource event
    rcases broker.publish_cases scope now resource event with ⟨cause, failed, _⟩ | ⟨done, _⟩
    · rw [failed]
    · rw [done]
      exact pruned _ resource _
  cases request with
  | subscribe scope resource =>
    simp only [serve, subscribe]
    split
    next => rfl
    next =>
      split
      next => rfl
      next => split <;> rfl
  | unsubscribe resource id => exact pruned broker resource [id]
  | publish scope resource event => exact published scope resource event
  | notify notice => exact published _ notice.resource notice.event
  | count | receive | drain | abandon | close => rfl

theorem capacity_serveAll (broker : DirectBroker) (script : Script) :
    (broker.serveAll script).capacity = broker.capacity := by
  induction script generalizing broker with
  | nil => rfl
  | cons entry script inductionHypothesis =>
    exact (inductionHypothesis _).trans (broker.capacity_serve entry.1 entry.2)

theorem follows_serveAll {broker : DirectBroker} {sub : Subscription} {account : Account}
    (seated : broker.Seated) (follows : broker.Follows sub account) (script : Script) :
    (broker.serveAll script).Follows sub ((broker.exchanges script).foldl sub.hear account) := by
  induction script generalizing broker account with
  | nil => exact follows
  | cons entry script inductionHypothesis =>
    exact inductionHypothesis (seated_serve seated entry.1 entry.2)
      (follows.serve seated entry.1 entry.2)

/-- Whatever is asked of an in-process broker before and after, by whomever: as long as a subscriber
keeps its receiver, what it received and what its mailbox holds are what one bounded queue keeps of
the events published to its resource, in order, until the subscription is ended; it is on the roster
just until then; and it is told of the end once it has everything. Exchanges that do not concern the
subscription have no part in this. -/
theorem each_subscription_is_a_queue (capacity : Nat) (earlier later : Script) {now : Nat}
    {scope : Scope} {resource : String} {sub : Subscription} {joined : DirectBroker}
    (subscribed :
      ((ofCapacity capacity).serveAll earlier).subscribe scope now resource = (joined, .ok sub)) :
    let account := sub.account (joined.exchanges later)
    let last := joined.serveAll later
    sub.resource = resource ∧
    (∃ box, last.room.get? sub.place = some box ∧ box.hasReceiver = account.held ∧
      (account.held = true →
        account.received ++ box.queue = (Fifo.fed (max capacity 1) account.feeds).kept ∧
        (last.seat? resource sub.id = some sub.place ↔ account.registered = true) ∧
        (box.receipt = .closed ↔ account.registered = false ∧ box.queue = []))) ∧
    sub.account ((joined.exchanges later).filter (sub.concerns ·.request)) = account := by
  intro account last
  have seated : ((ofCapacity capacity).serveAll earlier).Seated :=
    seated_serveAll (.ofCapacity capacity) earlier
  have joinedSeated : joined.Seated := by
    have still := seated_serve seated now (.subscribe scope resource)
    rwa [serve, subscribed] at still
  obtain ⟨_, isSub, isJoined⟩ := subscribe_eq_ok subscribed
  have isResource : sub.resource = resource := by rw [isSub]
  have size : last.capacity = max capacity 1 := by
    rw [capacity_serveAll, isJoined]
    exact capacity_serveAll _ earlier
  have lastSeated : last.Seated := seated_serveAll joinedSeated later
  have follows : last.Follows sub account :=
    follows_serveAll joinedSeated (follows_subscribe seated subscribed) later
  obtain ⟨box, found, held, mirrors⟩ := follows.box
  refine ⟨isResource, ⟨box, found, held, fun isHeld => ?_⟩, sub.account_filter _⟩
  rw [size] at mirrors
  have seat : last.seat? sub.resource sub.id = some sub.place ↔ account.registered = true :=
    ⟨fun taken => (follows.own taken).2.2, follows.seat isHeld⟩
  -- The sending end is there just while the subscriber is on a roster.
  have sends : box.hasSender = true ↔ account.registered = true := by
    rw [← seat]
    constructor
    · intro sending
      obtain ⟨query, id, taken⟩ := (lastSeated.sends sub.place).1 ⟨box, found, sending⟩
      obtain ⟨rfl, rfl, _⟩ := follows.own taken
      exact taken
    · intro taken
      obtain ⟨other, isOther, sending⟩ := (lastSeated.sends sub.place).2 ⟨_, _, taken⟩
      obtain rfl := Option.some.inj (found.symm.trans isOther)
      exact sending
  refine ⟨(mirrors.held (held.trans isHeld)).1, isResource ▸ seat, ?_⟩
  rw [← Bool.not_eq_true, ← sends]
  unfold Mailbox.receipt
  cases box.queue <;> cases box.hasSender <;> simp

/-- Two subscribers come before a third one. -/
def earlierSubscribers : Script :=
  [(0, .subscribe .unlimited "door"), (0, .subscribe .unlimited "window")]

/-- The first subscriber drops its receiver, one event finds the mailbox of the third one full, one
publish is cancelled, and somebody unsubscribes the id of the third one from another resource before
it leaves. -/
def mixedUse : Script :=
  [(1, .abandon 0), (2, .publish .unlimited "door" ⟨"door", 1, "opened"⟩),
    (3, .publish .unlimited "window" ⟨"window", 2, "opened"⟩),
    (4, .publish .unlimited "door" ⟨"door", 3, "closed"⟩), (5, .receive 2),
    (6, .publish ⟨true, none⟩ "door" ⟨"door", 4, "opened"⟩), (7, .unsubscribe "window" ⟨3⟩),
    (8, .publish .unlimited "door" ⟨"door", 5, "opened"⟩), (9, .unsubscribe "door" ⟨3⟩),
    (10, .publish .unlimited "door" ⟨"door", 6, "closed"⟩)]

/-- It got the first event of the door and has the one after the lost ones. -/
theorem queue_in_mixedUse :
    ∃ joined box, ((ofCapacity 0).serveAll earlierSubscribers).subscribe .unlimited 0 "door" =
        (joined, .ok ⟨⟨3⟩, "door", 2⟩) ∧
      (joined.serveAll mixedUse).room.get? 2 = some box ∧
      (Subscription.mk ⟨3⟩ "door" 2).account (joined.exchanges mixedUse) =
        ⟨false, true, [.offer ⟨"door", 1, "opened"⟩, .offer ⟨"door", 3, "closed"⟩, .receive,
          .offer ⟨"door", 5, "opened"⟩], [⟨"door", 1, "opened"⟩]⟩ ∧
      [⟨"door", 1, "opened"⟩] ++ box.queue =
        [⟨"door", 1, "opened"⟩, ⟨"door", 5, "opened"⟩] ∧
      ¬box.receipt = .closed := by
  have subscribed : ∃ joined,
      ((ofCapacity 0).serveAll earlierSubscribers).subscribe .unlimited 0 "door" =
        (joined, .ok ⟨⟨3⟩, "door", 2⟩) ∧
      (Subscription.mk ⟨3⟩ "door" 2).account (joined.exchanges mixedUse) =
        ⟨false, true, [.offer ⟨"door", 1, "opened"⟩, .offer ⟨"door", 3, "closed"⟩, .receive,
          .offer ⟨"door", 5, "opened"⟩], [⟨"door", 1, "opened"⟩]⟩ := ⟨_, rfl, by decide⟩
  obtain ⟨joined, isJoined, account⟩ := subscribed
  obtain ⟨_, ⟨box, found, _, queued⟩, _⟩ := each_subscription_is_a_queue 0 earlierSubscribers
    mixedUse isJoined
  rw [account] at queued
  obtain ⟨kept, _, closes⟩ := queued rfl
  have both : [⟨"door", 1, "opened"⟩] ++ box.queue =
      [⟨"door", 1, "opened"⟩, ⟨"door", 5, "opened"⟩] := kept
  refine ⟨joined, box, isJoined, found, account, both, fun closed => ?_⟩
  rw [(closes.1 closed).2] at both
  contradiction

end DirectBroker

end UpdateRelay
