import UpdateRelay.Proofs.Broker.NoRegistration
import UpdateRelay.Proofs.Service.Holders

/-!
# An in-process broker between the halves of its publishes

A publish offers its event to the subscribers of a resource, and afterwards removes those who turned
out to be gone. `SharedBroker` is an in-process broker at which anything may happen between these
halves, other publishes included. What is to be removed was settled earlier, so by then its roster
may have been emptied, filled again or given up.
-/

namespace UpdateRelay

/-! ## Publishes under way -/

/-- The subscriptions that an answer grants. -/
def BrokerAnswer.grants : BrokerAnswer → List Subscription
  | subscribed (.ok sub) => [sub]
  | _ => []

/-- What a publish has yet to do: to remove those from a resource whom it found gone. -/
structure Sweep where
  resource : String
  gone : List SubscriberId
  deriving DecidableEq, Repr

/-- An in-process broker with the publishes that are between their halves, each under its ticket,
and all subscriptions that were ever granted. -/
structure SharedBroker where
  broker : DirectBroker
  sweeps : Table Nat Sweep
  nextTicket : Nat
  granted : List Subscription
  deriving DecidableEq, Repr

namespace SharedBroker

/-- What may happen: a request is served in one go, or one half of a publish is done. -/
inductive Action
  | serve (now : Nat) (request : BrokerRequest)
  | beginPublish (scope : Scope) (now : Nat) (resource : String) (event : Event)
  | finishPublish (ticket : Nat)

def ofCapacity (capacity : Nat) : SharedBroker := ⟨.ofCapacity capacity, ∅, 0, []⟩

/-- The broker after an action. A publish that fails has no second half, and one that has nobody to
remove need not wait for its own. -/
def perform (shared : SharedBroker) : Action → SharedBroker
  | .serve now request =>
      let (after, answer) := shared.broker.serve now request
      { shared with broker := after, granted := shared.granted ++ answer.grants }
  | .beginPublish scope now resource event =>
      match scope.check now with
      | .error _ => shared
      | .ok () =>
          if shared.broker.closed then shared
          else
            let (offered, gone) := shared.broker.offer resource event
            { shared with
              broker := offered
              sweeps := shared.sweeps.set shared.nextTicket ⟨resource, gone⟩
              nextTicket := shared.nextTicket + 1 }
  | .finishPublish ticket =>
      match shared.sweeps.get? ticket with
      | none => shared
      | some sweep =>
          { shared with
            broker := shared.broker.prune sweep.resource sweep.gone
            sweeps := shared.sweeps.erase ticket }

def performAll (shared : SharedBroker) (actions : List Action) : SharedBroker :=
  actions.foldl perform shared

/-- The broker that was made and after that went through some actions. -/
def reached (capacity : Nat) (actions : List Action) : SharedBroker :=
  (ofCapacity capacity).performAll actions

variable {shared : SharedBroker}

theorem perform_beginPublish {scope : Scope} {now : Nat} (live : scope.stop? now = none)
    (isOpen : shared.broker.closed = false) (resource : String) (event : Event) :
    shared.perform (.beginPublish scope now resource event) =
      { shared with
        broker := (shared.broker.offer resource event).1
        sweeps := shared.sweeps.set shared.nextTicket
          ⟨resource, (shared.broker.offer resource event).2⟩
        nextTicket := shared.nextTicket + 1 } := by
  simp [perform, Scope.check, live, isOpen]

theorem perform_finishPublish {ticket : Nat} {sweep : Sweep}
    (underWay : shared.sweeps.get? ticket = some sweep) :
    shared.perform (.finishPublish ticket) =
      { shared with
        broker := shared.broker.prune sweep.resource sweep.gone
        sweeps := shared.sweeps.erase ticket } := by
  simp [perform, underWay]

/-- A publish is its two halves, one right after the other. -/
theorem publish_eq_halves {scope : Scope} {now : Nat} (live : scope.stop? now = none)
    (isOpen : shared.broker.closed = false) (resource : String) (event : Event) :
    shared.broker.publish scope now resource event =
      (((shared.perform (.beginPublish scope now resource event)).perform
        (.finishPublish shared.nextTicket)).broker, .ok ()) := by
  have underWay : (shared.perform (.beginPublish scope now resource event)).sweeps.get?
      shared.nextTicket = some ⟨resource, (shared.broker.offer resource event).2⟩ := by
    rw [perform_beginPublish live isOpen, Table.get?_set, if_pos rfl]
  rw [perform_finishPublish underWay, perform_beginPublish live isOpen]
  simp [DirectBroker.publish, Scope.check, live, isOpen]

/-! ## What every action keeps -/

/-- Whether the registry of a broker and its publishes under way are in order: nobody is registered
whose subscription was not granted with this id, for this resource and at this place, no id is
granted twice, and only those are to be removed who have lost their receivers. -/
structure WellFormed (shared : SharedBroker) : Prop where
  seated : shared.broker.Seated
  noEmptyRoster : shared.broker.NoEmptyRoster
  issued : ∀ {resource id place}, shared.broker.seat? resource id = some place →
    ⟨id, resource, place⟩ ∈ shared.granted
  used : ∀ sub ∈ shared.granted,
    sub.id.number < shared.broker.nextNumber ∧ sub.place < shared.broker.room.nextPlace
  once : ∀ {first second}, first ∈ shared.granted → second ∈ shared.granted →
    first.id = second.id → first = second
  tickets : ∀ {ticket sweep}, shared.sweeps.get? ticket = some sweep → ticket < shared.nextTicket
  gone : ∀ {ticket sweep}, shared.sweeps.get? ticket = some sweep → ∀ id ∈ sweep.gone,
    ∃ place, ⟨id, sweep.resource, place⟩ ∈ shared.granted ∧ shared.broker.room.Abandoned place

/-- What stays of a broker: who was granted a subscription and is off the roster never gets on it
again, nobody gets a receiver back, and a publish under way stays so until all whom it is to remove
have left. -/
structure Since (earlier later : SharedBroker) : Prop where
  granted : earlier.granted ⊆ later.granted
  closed : earlier.broker.closed = true → later.broker.closed = true
  abandoned : ∀ {place}, earlier.broker.room.Abandoned place → later.broker.room.Abandoned place
  left : ∀ {sub resource place}, sub ∈ earlier.granted →
    later.broker.seat? resource sub.id = some place →
      earlier.broker.seat? resource sub.id = some place
  nextTicket : earlier.nextTicket ≤ later.nextTicket
  ended : ∀ {ticket}, ticket < earlier.nextTicket → earlier.sweeps.get? ticket = none →
    later.sweeps.get? ticket = none
  swept : ∀ {ticket sweep}, earlier.sweeps.get? ticket = some sweep →
    later.sweeps.get? ticket = some sweep ∨ later.sweeps.get? ticket = none ∧
      ∀ id ∈ sweep.gone, later.broker.seat? sweep.resource id = none

namespace Since

theorem refl (shared : SharedBroker) : shared.Since shared where
  granted := List.Subset.refl _
  closed := id
  abandoned := id
  left := fun _ seat => seat
  nextTicket := Nat.le_refl _
  ended := fun _ none => none
  swept := Or.inl

/-- Who was granted a subscription and is off a roster stays off it. -/
theorem stays_off {earlier later : SharedBroker} (since : earlier.Since later) {sub : Subscription}
    (member : sub ∈ earlier.granted) {resource : String}
    (off : earlier.broker.seat? resource sub.id = none) :
    later.broker.seat? resource sub.id = none := by
  cases seat : later.broker.seat? resource sub.id with
  | none => rfl
  | some place =>
    rw [since.left member seat] at off
    contradiction

theorem trans {middle later : SharedBroker} (first : shared.Since middle)
    (last : middle.Since later) (wellFormed : shared.WellFormed) : shared.Since later where
  granted := List.Subset.trans first.granted last.granted
  closed := fun isClosed => last.closed (first.closed isClosed)
  abandoned := fun gone => last.abandoned (first.abandoned gone)
  left := fun member seat => first.left member (last.left (first.granted member) seat)
  nextTicket := Nat.le_trans first.nextTicket last.nextTicket
  ended := fun old none =>
    last.ended (Nat.lt_of_lt_of_le old first.nextTicket) (first.ended old none)
  swept := by
    intro ticket sweep underWay
    rcases first.swept underWay with still | ⟨done, off⟩
    · exact last.swept still
    · refine Or.inr ⟨last.ended ?_ done, fun id member => ?_⟩
      · exact Nat.lt_of_lt_of_le (wellFormed.tickets underWay) first.nextTicket
      · obtain ⟨place, isGranted, _⟩ := wellFormed.gone underWay id member
        exact last.stays_off (first.granted isGranted) (off id member)

end Since

/-- Operations that register nobody keep everything in order, and so do publishes that end once they
have removed whom they found gone. -/
theorem WellFormed.thin (wellFormed : shared.WellFormed) {after : DirectBroker}
    (registersNobody : shared.broker.RegistersNobody after) (seated : after.Seated)
    (sweeps : Table Nat Sweep)
    (kept : ∀ {ticket}, sweeps.get? ticket = shared.sweeps.get? ticket ∨
      sweeps.get? ticket = none ∧ ∀ sweep, shared.sweeps.get? ticket = some sweep →
        ∀ id ∈ sweep.gone, after.seat? sweep.resource id = none) :
    { shared with broker := after, sweeps := sweeps }.WellFormed ∧
      shared.Since { shared with broker := after, sweeps := sweeps } := by
  have under : ∀ {ticket sweep}, sweeps.get? ticket = some sweep →
      shared.sweeps.get? ticket = some sweep := by
    intro ticket sweep found
    rcases @kept ticket with same | ⟨none, _⟩
    · exact same ▸ found
    · rw [none] at found
      contradiction
  constructor
  · constructor
    case seated => exact seated
    case noEmptyRoster => exact registersNobody.noEmptyRoster wellFormed.noEmptyRoster
    case issued => exact fun seat => wellFormed.issued (registersNobody.seats seat)
    case used =>
      intro sub member
      obtain ⟨id, place⟩ := wellFormed.used sub member
      exact ⟨Nat.lt_of_lt_of_le id registersNobody.number,
        Nat.lt_of_lt_of_le place registersNobody.places⟩
    case once => exact wellFormed.once
    case tickets => exact fun found => wellFormed.tickets (under found)
    case gone =>
      intro ticket sweep found id member
      obtain ⟨place, isGranted, gone⟩ := wellFormed.gone (under found) id member
      exact ⟨place, isGranted, registersNobody.abandoned gone⟩
  · constructor
    case granted => exact List.Subset.refl _
    case closed => exact registersNobody.closed
    case abandoned => exact registersNobody.abandoned
    case left => exact fun _ seat => registersNobody.seats seat
    case nextTicket => exact Nat.le_refl _
    case ended =>
      intro ticket _ absent
      rcases @kept ticket with same | ⟨none, _⟩
      · exact same.trans absent
      · exact none
    case swept =>
      intro ticket sweep found
      rcases @kept ticket with same | ⟨none, off⟩
      · exact Or.inl (same.trans found)
      · exact Or.inr ⟨none, off sweep found⟩

/-- Who is granted a subscription has an id and a place that were never granted before. -/
theorem WellFormed.grant (wellFormed : shared.WellFormed) {scope : Scope} {now : Nat}
    {resource : String} {joined : DirectBroker} {sub : Subscription}
    (subscribed : shared.broker.subscribe scope now resource = (joined, .ok sub)) :
    { shared with broker := joined, granted := shared.granted ++ [sub] }.WellFormed ∧
      shared.Since { shared with broker := joined, granted := shared.granted ++ [sub] } := by
  have seated : joined.Seated := by
    have still := DirectBroker.seated_serve wellFormed.seated now (.subscribe scope resource)
    rwa [DirectBroker.serve, subscribed] at still
  obtain ⟨isOpen, rfl, rfl⟩ := DirectBroker.subscribe_eq_ok subscribed
  have isNew : ∀ sub ∈ shared.granted, sub.id ≠ ⟨shared.broker.nextNumber⟩ := by
    intro sub member same
    have old := (wellFormed.used sub member).1
    rw [same] at old
    exact Nat.lt_irrefl _ old
  have abandoned : ∀ {place}, shared.broker.room.Abandoned place →
      (shared.broker.room.add shared.broker.capacity).Abandoned place := fun gone => gone.add _
  constructor
  · constructor
    case seated => exact seated
    case noEmptyRoster => exact wellFormed.noEmptyRoster.register resource _
    case issued =>
      intro query id place seat
      rw [DirectBroker.seat?_register] at seat
      split at seat
      next new =>
        obtain ⟨rfl, rfl⟩ := new
        obtain rfl := Option.some.inj seat
        exact List.mem_append_right _ (List.mem_singleton.2 rfl)
      next => exact List.mem_append_left _ (wellFormed.issued seat)
    case used =>
      intro sub member
      change _ ∧ sub.place < (shared.broker.room.add _).nextPlace
      rw [Mailroom.nextPlace_add]
      rcases List.mem_append.1 member with old | new
      · obtain ⟨id, place⟩ := wellFormed.used sub old
        exact ⟨Nat.lt_succ_of_lt id, Nat.lt_succ_of_lt place⟩
      · obtain rfl := List.mem_singleton.1 new
        exact ⟨Nat.lt_succ_self _, Nat.lt_succ_self _⟩
    case once =>
      intro first second isFirst isSecond same
      rcases List.mem_append.1 isFirst with oldFirst | newFirst <;>
        rcases List.mem_append.1 isSecond with oldSecond | newSecond
      · exact wellFormed.once oldFirst oldSecond same
      · obtain rfl := List.mem_singleton.1 newSecond
        exact absurd same (isNew first oldFirst)
      · obtain rfl := List.mem_singleton.1 newFirst
        exact absurd same.symm (isNew second oldSecond)
      · exact (List.mem_singleton.1 newFirst).trans (List.mem_singleton.1 newSecond).symm
    case tickets => exact wellFormed.tickets
    case gone =>
      intro ticket sweep found id member
      obtain ⟨place, isGranted, gone⟩ := wellFormed.gone found id member
      exact ⟨place, List.mem_append_left _ isGranted, abandoned gone⟩
  · constructor
    case granted => exact List.subset_append_left _ _
    case closed => exact fun isClosed => absurd (isOpen.symm.trans isClosed) Bool.false_ne_true
    case abandoned => exact abandoned
    case left =>
      intro sub query place member seat
      rwa [DirectBroker.seat?_register, if_neg fun new => isNew sub member new.2] at seat
    case nextTicket => exact Nat.le_refl _
    case ended => exact fun _ none => none
    case swept => exact Or.inl

/-- A request is a subscribe that is granted, or registers nobody. -/
theorem serve_cases (broker : DirectBroker) (now : Nat) (request : BrokerRequest) :
    (∃ scope resource joined sub, request = .subscribe scope resource ∧
      broker.subscribe scope now resource = (joined, .ok sub)) ∨
      (broker.serve now request).2.grants = [] ∧
        broker.RegistersNobody (broker.serve now request).1 := by
  cases request with
  | subscribe scope resource =>
    cases subscribed : broker.subscribe scope now resource with | mk joined result
    cases result with
    | ok sub => exact Or.inl ⟨scope, resource, joined, sub, rfl, subscribed⟩
    | error cause =>
      simp only [DirectBroker.serve, subscribed, BrokerAnswer.grants, true_and]
      rcases DirectBroker.subscribe_eq_error subscribed with rfl | rfl
      · exact Or.inr (.refl _)
      · exact Or.inr (.spendNumber broker)
  | unsubscribe resource id => exact Or.inr ⟨rfl, .prune broker resource [id]⟩
  | publish scope resource event => exact Or.inr ⟨rfl, .publish broker scope now resource event⟩
  | notify notice => exact Or.inr ⟨rfl, .publish broker _ now notice.resource notice.event⟩
  | count => exact Or.inr ⟨rfl, .refl broker⟩
  | receive place => exact Or.inr ⟨rfl, .modifyBox broker place .receive⟩
  | drain place => exact Or.inr ⟨rfl, .modifyBox broker place .drain⟩
  | abandon place => exact Or.inr ⟨rfl, .modifyBox broker place .abandon⟩
  | close => exact Or.inr ⟨rfl, .close broker⟩

/-- A publish that begins has only those to remove who are on the roster without a receiver. -/
theorem WellFormed.sweep (wellFormed : shared.WellFormed) (resource : String) (event : Event) :
    { shared with
        broker := (shared.broker.offer resource event).1
        sweeps := shared.sweeps.set shared.nextTicket
          ⟨resource, (shared.broker.offer resource event).2⟩
        nextTicket := shared.nextTicket + 1 }.WellFormed ∧
      shared.Since { shared with
        broker := (shared.broker.offer resource event).1
        sweeps := shared.sweeps.set shared.nextTicket
          ⟨resource, (shared.broker.offer resource event).2⟩
        nextTicket := shared.nextTicket + 1 } := by
  have registersNobody : shared.broker.RegistersNobody (shared.broker.offer resource event).1 :=
    .offer _ _ _
  obtain ⟨offered, since⟩ := wellFormed.thin registersNobody
    (wellFormed.seated.offer resource event) shared.sweeps (Or.inl rfl)
  have others : ∀ {ticket}, ticket ≠ shared.nextTicket →
      (shared.sweeps.set shared.nextTicket
        ⟨resource, (shared.broker.offer resource event).2⟩).get? ticket =
          shared.sweeps.get? ticket := fun other => by rw [Table.get?_set, if_neg other]
  constructor
  · refine { offered with tickets := ?_, gone := ?_ }
    · intro ticket sweep found
      by_cases new : ticket = shared.nextTicket
      · exact new ▸ Nat.lt_succ_self _
      · exact Nat.lt_succ_of_lt (wellFormed.tickets ((others new).symm.trans found))
    · intro ticket sweep found id member
      by_cases new : ticket = shared.nextTicket
      · rw [new, Table.get?_set, if_pos rfl] at found
        obtain rfl := Option.some.inj found
        obtain ⟨place, seat, gone⟩ := (wellFormed.seated.mem_gone_offer event).1 member
        exact ⟨place, wellFormed.issued seat, registersNobody.abandoned gone⟩
      · exact offered.gone ((others new).symm.trans found) id member
  · refine { since with nextTicket := Nat.le_succ _, ended := ?_, swept := ?_ }
    · intro ticket old none
      exact (others (Nat.ne_of_lt old)).trans none
    · intro ticket sweep found
      exact Or.inl ((others (Nat.ne_of_lt (wellFormed.tickets found))).trans found)

theorem WellFormed.perform (wellFormed : shared.WellFormed) (action : Action) :
    (shared.perform action).WellFormed ∧ shared.Since (shared.perform action) := by
  have idle : shared.WellFormed ∧ shared.Since shared := ⟨wellFormed, .refl shared⟩
  cases action with
  | serve now request =>
    rcases serve_cases shared.broker now request with
      ⟨scope, resource, joined, sub, rfl, subscribed⟩ | ⟨none, registersNobody⟩
    · simpa [SharedBroker.perform, DirectBroker.serve, subscribed, BrokerAnswer.grants] using
        wellFormed.grant subscribed
    · simpa [SharedBroker.perform, none] using wellFormed.thin registersNobody
        (DirectBroker.seated_serve wellFormed.seated now request) shared.sweeps (Or.inl rfl)
  | beginPublish scope now resource event =>
    cases done : scope.stop? now with
    | some reason => simpa [SharedBroker.perform, Scope.check, done] using idle
    | none =>
      cases isClosed : shared.broker.closed with
      | true => simpa [SharedBroker.perform, Scope.check, done, isClosed] using idle
      | false =>
        rw [perform_beginPublish done isClosed]
        exact wellFormed.sweep resource event
  | finishPublish ticket =>
    cases underWay : shared.sweeps.get? ticket with
    | none => simpa [SharedBroker.perform, underWay] using idle
    | some sweep =>
      rw [perform_finishPublish underWay]
      refine wellFormed.thin (.prune _ _ _) (wellFormed.seated.prune _ _) _ fun {other} => ?_
      rw [Table.get?_erase]
      by_cases this : other = ticket
      · subst this
        refine Or.inr ⟨if_pos rfl, fun same isSame id member => ?_⟩
        obtain rfl := Option.some.inj (underWay.symm.trans isSame)
        rw [DirectBroker.seat?_prune, if_pos ⟨rfl, member⟩]
      · exact Or.inl (if_neg this)

theorem WellFormed.performAll (wellFormed : shared.WellFormed) (actions : List Action) :
    (shared.performAll actions).WellFormed ∧ shared.Since (shared.performAll actions) := by
  induction actions generalizing shared with
  | nil => exact ⟨wellFormed, .refl shared⟩
  | cons action actions inductionHypothesis =>
    obtain ⟨next, since⟩ := wellFormed.perform action
    obtain ⟨last, later⟩ := inductionHypothesis next
    exact ⟨last, since.trans later wellFormed⟩

theorem wellFormed_reached (capacity : Nat) (actions : List Action) :
    (reached capacity actions).WellFormed := by
  refine (WellFormed.performAll ?_ actions).1
  constructor
  case seated => exact .ofCapacity capacity
  case noEmptyRoster => exact fun _ _ found => by cases found
  case issued => exact fun seat => by cases seat
  case used => simp [ofCapacity]
  case once => simp [ofCapacity]
  case tickets => exact fun found => by cases found
  case gone => exact fun found => by cases found

/-! ## What a publish removes -/

namespace WellFormed

/-- Who had lost its receiver when a publish began is off the roster once the publish has ended,
whatever went on in between. -/
theorem off_after_publish (wellFormed : shared.WellFormed) {scope : Scope} {now : Nat}
    (live : scope.stop? now = none) (isOpen : shared.broker.closed = false) {sub : Subscription}
    (member : sub ∈ shared.granted) (gone : shared.broker.room.Abandoned sub.place) (event : Event)
    (later : List Action) :
    (((shared.perform (.beginPublish scope now sub.resource event)).performAll later).perform
      (.finishPublish shared.nextTicket)).broker.seat? sub.resource sub.id = none := by
  obtain ⟨begunWellFormed, begins⟩ :=
    wellFormed.perform (.beginPublish scope now sub.resource event)
  have underWay : (shared.perform (.beginPublish scope now sub.resource event)).sweeps.get?
      shared.nextTicket = some ⟨sub.resource, (shared.broker.offer sub.resource event).2⟩ := by
    rw [perform_beginPublish live isOpen, Table.get?_set, if_pos rfl]
  have sameSeats : ∀ query id,
      (shared.perform (.beginPublish scope now sub.resource event)).broker.seat? query id =
        shared.broker.seat? query id := by
    intro query id
    rw [perform_beginPublish live isOpen]
    rfl
  generalize shared.perform (.beginPublish scope now sub.resource event) = begun at *
  obtain ⟨meantimeWellFormed, meantime⟩ := begunWellFormed.performAll later
  have isGranted := begins.granted member
  have lastStep := (meantimeWellFormed.perform (.finishPublish shared.nextTicket)).2
  cases seat : shared.broker.seat? sub.resource sub.id with
  | none =>
    have off := meantime.stays_off isGranted ((sameSeats _ _).trans seat)
    exact lastStep.stays_off (meantime.granted isGranted) off
  | some place =>
    -- It is at the place that it was granted, so the offer found it gone.
    obtain rfl : place = sub.place :=
      congrArg Subscription.place (wellFormed.once (wellFormed.issued seat) member rfl)
    have found : sub.id ∈ (shared.broker.offer sub.resource event).2 :=
      (wellFormed.seated.mem_gone_offer event).2 ⟨_, seat, gone⟩
    rcases meantime.swept underWay with still | ⟨_, off⟩
    · rw [perform_finishPublish still, DirectBroker.seat?_prune, if_pos ⟨rfl, found⟩]
    · exact lastStep.stays_off (meantime.granted isGranted) (off sub.id found)

/-- Who has its receiver is not removed when a publish ends. -/
theorem on_after_publish (wellFormed : shared.WellFormed) {resource : String} {id : SubscriberId}
    {place : Nat} (seat : shared.broker.seat? resource id = some place)
    (held : ¬shared.broker.room.Abandoned place) (ticket : Nat) :
    (shared.perform (.finishPublish ticket)).broker.seat? resource id = some place := by
  cases underWay : shared.sweeps.get? ticket with
  | none => simpa [SharedBroker.perform, underWay] using seat
  | some sweep =>
    rw [perform_finishPublish underWay, DirectBroker.seat?_prune, if_neg, seat]
    rintro ⟨rfl, member⟩
    obtain ⟨other, isGranted, gone⟩ := wellFormed.gone underWay id member
    obtain rfl : other = place :=
      congrArg Subscription.place (wellFormed.once isGranted (wellFormed.issued seat) rfl)
    exact held gone

/-- An id is registered for the resource that it was granted for, if at all. -/
theorem seat?_of_ne (wellFormed : shared.WellFormed) {sub : Subscription}
    (member : sub ∈ shared.granted) {resource : String} (foreign : resource ≠ sub.resource) :
    shared.broker.seat? resource sub.id = none := by
  cases seat : shared.broker.seat? resource sub.id with
  | none => rfl
  | some place =>
    have same := wellFormed.once (wellFormed.issued seat) member rfl
    exact absurd (congrArg Subscription.resource same) foreign

/-- A closed broker has no rosters. -/
theorem resources_of_closed (wellFormed : shared.WellFormed)
    (isClosed : shared.broker.closed = true) : shared.broker.resources = ∅ :=
  wellFormed.noEmptyRoster.resources_eq_empty (wellFormed.seated.shut isClosed)

/-- Who unsubscribed once is registered nowhere ever after. -/
theorem off_after_unsubscribe (wellFormed : shared.WellFormed) {sub : Subscription}
    (member : sub ∈ shared.granted) (now : Nat) (later : List Action) (resource : String) :
    ((shared.perform (.serve now (.unsubscribe sub.resource sub.id))).performAll
      later).broker.seat? resource sub.id = none := by
  obtain ⟨endedWellFormed, ends⟩ :=
    wellFormed.perform (.serve now (.unsubscribe sub.resource sub.id))
  have isGranted := ends.granted member
  refine (endedWellFormed.performAll later).2.stays_off isGranted ?_
  by_cases own : resource = sub.resource
  · subst own
    change (shared.broker.prune sub.resource [sub.id]).seat? sub.resource sub.id = none
    simp [DirectBroker.seat?_prune]
  · exact endedWellFormed.seat?_of_ne isGranted own

end WellFormed

/-- Whatever happened at an in-process broker, with publishes between their halves: no roster is
empty; who is registered has an id that was granted for just this resource and is below the next
one, and is on no other roster; after a close there are no rosters ever again; a publish that goes
through leaves nobody on the roster who had lost its receiver before it began, and neither half of
it removes anybody who has one; ending a subscription that was ended before or is another resource's
changes nothing; and the count of resources is that of those with a registration. -/
theorem registry_well_formed (capacity : Nat) (actions : List Action) :
    let shared := reached capacity actions
    let broker := shared.broker
    (∀ resource roster, broker.resources.get? resource = some roster → roster.isEmpty = false) ∧
    (∀ resource id place, broker.seat? resource id = some place →
      ⟨id, resource, place⟩ ∈ shared.granted ∧ id.number < broker.nextNumber ∧
        ∀ other, other ≠ resource → broker.seat? other id = none) ∧
    (∀ now later,
      ((shared.perform (.serve now .close)).performAll later).broker.resources = ∅) ∧
    (∀ scope now resource event, scope.stop? now = none → broker.closed = false →
      let begun := shared.perform (.beginPublish scope now resource event)
      (∀ query id, begun.broker.seat? query id = broker.seat? query id) ∧
      (∀ sub ∈ shared.granted, sub.resource = resource → broker.room.Abandoned sub.place →
        ∀ later, ((begun.performAll later).perform
          (.finishPublish shared.nextTicket)).broker.seat? resource sub.id = none) ∧
      broker.publish scope now resource event =
        ((begun.perform (.finishPublish shared.nextTicket)).broker, .ok ())) ∧
    (∀ ticket resource id place, broker.seat? resource id = some place →
      ¬broker.room.Abandoned place →
        (shared.perform (.finishPublish ticket)).broker.seat? resource id = some place) ∧
    (∀ sub ∈ shared.granted,
      (∀ resource, resource ≠ sub.resource → broker.unsubscribe resource sub.id = broker) ∧
      ∀ now later resource,
        let ended := (shared.perform
          (.serve now (.unsubscribe sub.resource sub.id))).performAll later
        ended.broker.unsubscribe resource sub.id = ended.broker) ∧
    (∀ resource id, broker.seat? resource id = none → broker.unsubscribe resource id = broker) ∧
    broker.servedCount = {resource | ∃ id place, broker.seat? resource id = some place}.ncard := by
  intro shared broker
  have wellFormed : shared.WellFormed := wellFormed_reached capacity actions
  refine ⟨wellFormed.noEmptyRoster, ?registered, ?closed, ?begun, ?finished, ?ended, ?absent,
    wellFormed.noEmptyRoster.servedCount⟩
  case registered =>
    intro resource id place seat
    have isGranted := wellFormed.issued seat
    exact ⟨isGranted, (wellFormed.used _ isGranted).1,
      fun other foreign => wellFormed.seat?_of_ne isGranted foreign⟩
  case closed =>
    intro now later
    obtain ⟨shut, _⟩ := wellFormed.perform (.serve now .close)
    obtain ⟨last, since⟩ := shut.performAll later
    exact last.resources_of_closed (since.closed rfl)
  case begun =>
    intro scope now resource event live isOpen begun
    refine ⟨fun query id => ?_, ?_, publish_eq_halves live isOpen resource event⟩
    · simp only [begun, perform_beginPublish live isOpen]
      rfl
    · rintro sub member rfl gone later
      exact wellFormed.off_after_publish live isOpen member gone event later
  case finished =>
    exact fun ticket _ _ _ seat held => wellFormed.on_after_publish seat held ticket
  case ended =>
    intro sub member
    constructor
    · intro resource foreign
      exact wellFormed.noEmptyRoster.unsubscribe_of_absent (wellFormed.seat?_of_ne member foreign)
    · intro now later resource ended
      have endedWellFormed : ended.WellFormed :=
        ((wellFormed.perform (.serve now (.unsubscribe sub.resource sub.id))).1.performAll later).1
      exact endedWellFormed.noEmptyRoster.unsubscribe_of_absent
        (wellFormed.off_after_unsubscribe member now later resource)
  case absent => exact fun _ _ off => wellFormed.noEmptyRoster.unsubscribe_of_absent off

/-- A publish finds the only subscriber gone; it leaves by itself and another one comes, before the
publish removes whom it found. -/
def replacedSubscriber : List Action :=
  [.serve 0 (.subscribe .unlimited "door"), .serve 1 (.abandon 0),
    .beginPublish .unlimited 2 "door" ⟨"door", 1, "opened"⟩, .serve 3 (.unsubscribe "door" ⟨1⟩),
    .serve 4 (.subscribe .unlimited "door"), .finishPublish 0]

example : (reached 0 replacedSubscriber).broker.seat? "door" ⟨1⟩ = none ∧
    (reached 0 replacedSubscriber).broker.seat? "door" ⟨2⟩ = some 1 := by decide

end SharedBroker

end UpdateRelay
