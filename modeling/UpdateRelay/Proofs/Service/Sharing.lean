import UpdateRelay.Proofs.Service.Steps
import UpdateRelay.Service

/-!
# A service over a shared broker

A service over an open in-process broker that strangers use as well. Its clients come, write, read,
stop reading and leave as they like, its sessions take their steps in any order, strangers do what
they like with subscriptions of their own, and the service may be told to stop at any moment.
`SharedService.Sound` holds all along, and no action but its own steps concerns a session.
-/

namespace UpdateRelay

/-- What a client does at its end of a connection. -/
inductive ClientMove
  | write (bytes : Bytes)
  | endCommands
  | leave
  | read

def Connection.meet (connection : Connection) : ClientMove → Connection
  | .write bytes => (connection.write bytes).1
  | .endCommands => connection.endCommands
  | .leave => connection.dropClient
  | .read => connection.read

/-- A client whose session was cancelled. -/
def Client.cancel (client : Client) : Client :=
  { client with scope := { client.scope with cancelled := true } }

/-- The service after a client connected, if it accepts one. -/
def Service.admit (service : Service) (scope : Scope) (requestTime buffer : Nat) : Service :=
  if service.accepts then
    { service with
      hub := service.hub.addClient (.start scope requestTime (.ofLines buffer)) }
  else service

theorem Service.connect_eq_admit (service : Service) (buffer : Nat) :
    service.connect buffer = service.admit .unlimited defaultRequestTime buffer := rfl

/-- A service and the subscriptions that its broker granted to others. -/
structure SharedService where
  service : Service
  strangers : List Subscription

namespace SharedService

/-- What goes on: a client connects or does something; the connection of a session is taken as far
as it goes; a session takes a step, if it need not wait; a session is cancelled, or the service is
told to stop; time passes; changes are counted; or a stranger asks the broker for something. -/
inductive Action
  | connect (scope : Scope) (requestTime buffer : Nat)
  | client (index : Nat) (move : ClientMove)
  | refresh (index : Nat)
  | step (index : Nat)
  | cancel (index : Nat)
  | stop
  | pass (duration : Nat)
  | count (counts : ChangeCounts)
  | stranger (request : BrokerRequest)

/-- Whether an action is a step of one session. -/
def Action.isStep (action : Action) (index : Nat) : Bool :=
  match action with
  | .step stepping => stepping = index
  | _ => false

variable (shared : SharedService)

def hub : Hub := shared.service.hub

def clients : List Client := shared.hub.clients

def withHub (hub : Hub) : SharedService :=
  { shared with service := { shared.service with hub := hub } }

/-- Strangers keep to their own subscriptions, and leave the broker open. -/
def permits : BrokerRequest → Bool
  | .close => false
  | .unsubscribe _ id => id ∈ shared.strangers.map Subscription.id
  | .receive place | .drain place | .abandon place =>
      place ∈ shared.strangers.map Subscription.place
  | .subscribe _ _ | .publish _ _ _ | .notify _ | .count _ => true

/-- Serves a stranger. -/
def oblige (request : BrokerRequest) : SharedService :=
  match shared.hub.broker with
  | .inProcess broker =>
      if shared.permits request then
        let (after, answer) := broker.serve shared.hub.now request
        { shared.withHub { shared.hub with broker := .inProcess after } with
          strangers :=
            match answer with
            | .subscribed (.ok subscription) => subscription :: shared.strangers
            | _ => shared.strangers }
      else shared
  | .durable _ => shared

def next : Action → SharedService
  | .connect scope requestTime buffer =>
      { shared with service := shared.service.admit scope requestTime buffer }
  | .client index move =>
      shared.withHub <| shared.hub.modifyClient index fun client =>
        { client with connection := client.connection.meet move }
  | .refresh index => shared.withHub (shared.hub.refresh index)
  | .step index => shared.withHub ((shared.hub.move? index).getD shared.hub)
  | .cancel index => shared.withHub (shared.hub.cancel index)
  | .stop => { shared with service := shared.service.stop }
  | .pass duration => shared.withHub { shared.hub with now := shared.hub.now + duration }
  | .count counts => shared.withHub { shared.hub with counts := counts }
  | .stranger request => shared.oblige request

def after (actions : List Action) : SharedService := actions.foldl next shared

/-- A service that has just started, over a broker that nobody has used. -/
def start (capacity : Nat) (reachable : Bool) : SharedService := ⟨.start capacity reachable, []⟩

/-- The subscriptions that the sessions have with the broker. -/
def subscriptions (clients : List Client) : List Subscription :=
  clients.filterMap fun client => client.session.subscription?

/-! ## What always holds -/

/-- Whether the broker is open and has no registrations but those of the sessions and of strangers,
nothing keeps the sessions from it, and a service that was told to stop has cancelled them all. -/
structure Sound (broker : DirectBroker) : Prop where
  isBroker : shared.hub.broker = .inProcess broker
  heldBy : broker.HeldBy (subscriptions shared.clients) shared.strangers
  plain : ∀ client ∈ shared.clients, client.Plain
  cancelled : shared.service.stopping = true →
    ∀ client ∈ shared.clients, client.scope.cancelled = true

variable {shared} {broker : DirectBroker}

/-- What all sessions have is what one of them has and what the others have. -/
theorem exists_perm_subscriptions {clients : List Client} {index : Nat} {client : Client}
    (found : clients[index]? = some client) :
    ∃ rest, (subscriptions clients).Perm (client.session.subscription?.toList ++ rest) ∧
      (∀ changed, (subscriptions (clients.set index changed)).Perm
        (changed.session.subscription?.toList ++ rest)) ∧
      ∀ other neighbour subscription, other ≠ index → clients[other]? = some neighbour →
        neighbour.session.subscription? = some subscription → subscription ∈ rest := by
  obtain ⟨inside, isClient⟩ := List.getElem?_eq_some_iff.1 found
  have around : ∀ changed : Client, (subscriptions (clients.set index changed)).Perm
      (changed.session.subscription?.toList ++
        (subscriptions (clients.take index) ++ subscriptions (clients.drop (index + 1)))) := by
    intro changed
    rw [List.set_eq_take_append_cons_drop, if_pos inside]
    have middle : subscriptions (changed :: clients.drop (index + 1)) =
        changed.session.subscription?.toList ++ subscriptions (clients.drop (index + 1)) := by
      unfold subscriptions
      rw [List.filterMap_cons]
      cases changed.session.subscription? <;> rfl
    rw [subscriptions, List.filterMap_append]
    refine List.Perm.trans ?_ (List.perm_append_comm_assoc _ _ _)
    exact List.Perm.append_left _ (List.Perm.of_eq middle)
  refine ⟨_, ?_, around, ?_⟩
  · have same := around client
    rwa [← isClient, List.set_getElem_self, isClient] at same
  · intro other neighbour subscription elsewhere isNeighbour has
    rcases Nat.lt_or_gt_of_ne elsewhere with before | behind
    · refine List.mem_append_left _ (List.mem_filterMap.2 ⟨neighbour, ?_, has⟩)
      exact List.mem_of_getElem? (by rw [List.getElem?_take, if_pos before]; exact isNeighbour)
    · refine List.mem_append_right _ (List.mem_filterMap.2 ⟨neighbour, ?_, has⟩)
      refine List.mem_of_getElem? (i := other - (index + 1)) ?_
      rw [List.getElem?_drop, Nat.add_sub_cancel' behind]
      exact isNeighbour

/-- Whether a session and what it has with the broker come through from one state to another: the
session is the same, and no event is gone from its mailbox. -/
def Spares (shared later : SharedService) (index : Nat) : Prop :=
  ∀ client, shared.clients[index]? = some client →
    ∃ same, later.clients[index]? = some same ∧ same.session = client.session ∧
      ∀ subscription, client.session.subscription? = some subscription →
        shared.hub.broker.room.queue subscription.place <+:
          later.hub.broker.room.queue subscription.place

theorem spares_refl (shared : SharedService) (index : Nat) : shared.Spares shared index :=
  fun client found => ⟨client, found, rfl, fun _ _ => List.prefix_rfl⟩

/-- Whether a change of clients leaves their sessions alone and lets none go on that was
cancelled. -/
structure Harmless (change : Client → Client) : Prop where
  session : ∀ client, (change client).session = client.session
  faults : ∀ client, (change client).faults = client.faults
  hungSince : ∀ client, (change client).hungSince = client.hungSince
  cancelled : ∀ client, client.scope.cancelled = true → (change client).scope.cancelled = true

theorem harmless_id : Harmless id := ⟨fun _ => rfl, fun _ => rfl, fun _ => rfl, fun _ => id⟩

theorem harmless_cancel : Harmless Client.cancel :=
  ⟨fun _ => rfl, fun _ => rfl, fun _ => rfl, fun _ _ => rfl⟩

theorem harmless_ite {change : Client → Client} (harmless : Harmless change) (applies : Prop)
    [Decidable applies] : Harmless fun client => if applies then change client else client := by
  by_cases holds : applies
  · simpa only [holds, if_true] using harmless
  · simp only [holds, if_false]
    exact harmless_id

theorem harmless_of_connection {change : Client → Client}
    (only : ∀ client, ∃ connection, change client = { client with connection := connection }) :
    Harmless change := by
  constructor
  case cancelled =>
    intro client cancelled
    obtain ⟨connection, same⟩ := only client
    rwa [same]
  all_goals
    intro client
    obtain ⟨connection, same⟩ := only client
    rw [same]

theorem harmless_refresh (now : Nat) : Harmless (Client.refresh · now) := by
  refine harmless_of_connection fun client => ?_
  dsimp only [Client.refresh]
  split
  next => exact ⟨client.connection, rfl⟩
  next =>
    split
    next => exact ⟨client.connection.listen, rfl⟩
    next => exact ⟨client.connection.push, rfl⟩
    next => exact ⟨client.connection, rfl⟩

/-- What leaves the broker and all sessions alone leaves everything sound. -/
theorem Sound.of_harmless (sound : shared.Sound broker) {later : SharedService}
    (isBroker : later.hub.broker = shared.hub.broker)
    (strangers : later.strangers = shared.strangers)
    (harmless : ∀ index : Nat, ∃ change : Client → Client, Harmless change ∧
      later.clients[index]? = shared.clients[index]?.map change)
    (stopping : later.service.stopping = true → shared.service.stopping = true ∨
      ∀ client ∈ later.clients, client.scope.cancelled = true) :
    later.Sound broker ∧ ∀ index, shared.Spares later index := by
  have earlier : ∀ client ∈ later.clients, ∃ was ∈ shared.clients, ∃ change,
      Harmless change ∧ client = change was := by
    intro client member
    obtain ⟨index, isClient⟩ := List.getElem?_of_mem member
    obtain ⟨change, leaves, same⟩ := harmless index
    rw [same] at isClient
    obtain ⟨was, found, rfl⟩ := Option.map_eq_some_iff.1 isClient
    exact ⟨was, List.mem_of_getElem? found, change, leaves, rfl⟩
  have sessions : later.clients.map Client.session = shared.clients.map Client.session := by
    refine List.ext_getElem? fun index => ?_
    obtain ⟨change, leaves, same⟩ := harmless index
    rw [List.getElem?_map, List.getElem?_map, same, Option.map_map]
    exact congrArg (Option.map · _) (funext leaves.session)
  have same : subscriptions later.clients = subscriptions shared.clients := by
    have ofSessions : ∀ clients, subscriptions clients =
        (clients.map Client.session).filterMap Session.subscription? := fun clients => by
      rw [List.filterMap_map]
      rfl
    rw [ofSessions, sessions, ← ofSessions]
  refine ⟨⟨isBroker.trans sound.isBroker, ?_, fun client member => ?_,
    fun stops client member => ?_⟩, fun index client found => ?_⟩
  · rw [same, strangers]
    exact sound.heldBy
  · obtain ⟨was, wasMember, change, leaves, rfl⟩ := earlier client member
    obtain ⟨faults, hungSince, orderly⟩ := sound.plain was wasMember
    exact ⟨(leaves.faults was).trans faults, (leaves.hungSince was).trans hungSince,
      (leaves.session was).symm ▸ orderly⟩
  · rcases stopping stops with stopped | cancelled
    · obtain ⟨was, wasMember, change, leaves, rfl⟩ := earlier client member
      exact leaves.cancelled was (sound.cancelled stopped was wasMember)
    · exact cancelled client member
  · obtain ⟨change, leaves, isLater⟩ := harmless index
    exact ⟨change client, by rw [isLater, found]; rfl, leaves.session client,
      fun _ _ => isBroker ▸ List.prefix_rfl⟩

/-- A step of a session concerns no other. -/
theorem Sound.replace (sound : shared.Sound broker) {index : Nat} {client changed : Client}
    {after : DirectBroker} (found : shared.clients[index]? = some client) (plain : changed.Plain)
    (scope : changed.scope = client.scope)
    (holderStep : broker.HolderStep shared.hub.now client.session.subscription?
      changed.session.subscription? after) :
    let later := shared.withHub { shared.hub with
      broker := .inProcess after
      clients := shared.clients.set index changed }
    later.Sound after ∧ ∀ other, other ≠ index → shared.Spares later other := by
  intro later
  obtain ⟨rest, before, around, others⟩ := exists_perm_subscriptions found
  obtain ⟨heldBy, kept⟩ := (sound.heldBy.of_perm before).holderStep holderStep
  refine ⟨⟨rfl, heldBy.of_perm (around changed).symm, fun other member => ?_,
    fun stops other member => ?_⟩, fun other elsewhere neighbour isNeighbour => ?_⟩
  · rcases List.mem_or_eq_of_mem_set member with old | rfl
    · exact sound.plain other old
    · exact plain
  · rcases List.mem_or_eq_of_mem_set member with old | rfl
    · exact sound.cancelled stops other old
    · rw [scope]
      exact sound.cancelled stops client (List.mem_of_getElem? found)
  · refine ⟨neighbour, ?_, rfl, fun subscription has => ?_⟩
    · exact (List.getElem?_set_ne (Ne.symm elsewhere)).trans isNeighbour
    · rw [sound.isBroker]
      exact kept subscription (others other neighbour subscription elsewhere isNeighbour has)

theorem next_step_of_waits {index : Nat} (waits : shared.hub.move? index = none) :
    shared.next (.step index) = shared := by
  simp only [next, waits, Option.getD_none]
  rfl

/-- A session that need not wait takes the step that it meets, which is a step of a holder with the
broker. -/
theorem Sound.next_step (sound : shared.Sound broker) {index : Nat} {client : Client}
    {after : DirectBroker} {stimulus : Stimulus} (found : shared.clients[index]? = some client)
    (meets : client.encounter broker shared.hub.now = some (after, stimulus)) :
    ∃ settled,
      broker.HolderStep shared.hub.now client.session.subscription?
        (client.session.react shared.hub.counts stimulus).subscription? settled ∧
      shared.next (.step index) = shared.withHub { shared.hub with
        broker := .inProcess settled
        clients := shared.clients.set index (client.asked.react shared.hub.counts stimulus) } := by
  have plain := sound.plain client (List.mem_of_getElem? found)
  obtain ⟨settled, isSettled, holderStep⟩ := Client.exists_holderStep plain meets shared.hub.counts
  refine ⟨settled, holderStep, ?_⟩
  have moves := Hub.move?_inProcess sound.isBroker found plain
  simp only [next, moves, meets, Option.map_some, Option.getD_some, isSettled]
  rfl

theorem getElem?_of_stepped {later : SharedService} {index : Nat} {client changed : Client}
    {settled : DirectBroker} (found : shared.clients[index]? = some client)
    (stepped : later = shared.withHub { shared.hub with
      broker := .inProcess settled
      clients := shared.clients.set index changed }) :
    later.clients[index]? = some changed := by
  rw [stepped]
  exact List.getElem?_set_self (List.getElem?_eq_some_iff.1 found).1

/-- A session waits, or takes a step. -/
theorem Sound.step_cases (sound : shared.Sound broker) (index : Nat) :
    shared.next (.step index) = shared ∨ ∃ client stimulus settled,
      shared.clients[index]? = some client ∧
      broker.HolderStep shared.hub.now client.session.subscription?
        (client.session.react shared.hub.counts stimulus).subscription? settled ∧
      shared.next (.step index) = shared.withHub { shared.hub with
        broker := .inProcess settled
        clients := shared.clients.set index (client.asked.react shared.hub.counts stimulus) } := by
  cases found : shared.clients[index]? with
  | none =>
    have nobody : shared.hub.clients[index]? = none := found
    exact Or.inl (next_step_of_waits (by simp [Hub.move?, nobody]))
  | some client =>
    have moves := Hub.move?_inProcess sound.isBroker found
      (sound.plain client (List.mem_of_getElem? found))
    cases meets : client.encounter broker shared.hub.now with
    | none => exact Or.inl (next_step_of_waits (by rw [moves, meets]; rfl))
    | some encounter =>
      obtain ⟨settled, holderStep, isNext⟩ := sound.next_step found meets
      exact Or.inr ⟨client, encounter.2, settled, rfl, holderStep, isNext⟩

theorem Sound.step (sound : shared.Sound broker) (index : Nat) :
    ∃ after, (shared.next (.step index)).Sound after ∧
      ∀ other, other ≠ index → shared.Spares (shared.next (.step index)) other := by
  rcases sound.step_cases index with waits | ⟨client, stimulus, settled, found, holderStep, isNext⟩
  · rw [waits]
    exact ⟨broker, sound, fun other _ => shared.spares_refl other⟩
  · have plain := sound.plain client (List.mem_of_getElem? found)
    rw [isNext]
    exact ⟨settled, sound.replace found (plain.react shared.hub.counts stimulus) rfl holderStep⟩

/-- Who connects has nothing with the broker yet. -/
theorem Sound.connect (sound : shared.Sound broker) (scope : Scope) (requestTime buffer : Nat) :
    let later := shared.next (.connect scope requestTime buffer)
    later.Sound broker ∧ ∀ index, shared.Spares later index := by
  intro later
  cases accepts : shared.service.accepts with
  | false =>
    have same : later = shared := by simp [later, next, Service.admit, accepts]
    rw [same]
    exact ⟨sound, shared.spares_refl⟩
  | true =>
    have goesOn : shared.service.stopping = false := by
      simp only [Service.accepts, Bool.and_eq_true, Bool.not_eq_true'] at accepts
      exact accepts.2
    have isLater : later = shared.withHub
        (shared.hub.addClient (.start scope requestTime (.ofLines buffer))) := by
      simp [later, next, Service.admit, accepts, withHub, hub]
    have isClients : later.clients =
        shared.clients ++ [.start scope requestTime (.ofLines buffer)] := by
      rw [isLater]
      rfl
    refine ⟨⟨?_, ?_, fun client member => ?_, fun stops => ?_⟩, fun index client found => ?_⟩
    · rw [isLater]
      exact sound.isBroker
    · have same : subscriptions later.clients = subscriptions shared.clients := by
        rw [isClients, subscriptions, List.filterMap_append]
        exact List.append_nil _
      rw [same, isLater]
      exact sound.heldBy
    · rw [isClients] at member
      rcases List.mem_append.1 member with old | new
      · exact sound.plain client old
      · obtain rfl := List.mem_singleton.1 new
        exact Client.plain_start scope requestTime (.ofLines buffer)
    · rw [isLater] at stops
      exact absurd (goesOn.symm.trans stops) Bool.false_ne_true
    · refine ⟨client, ?_, rfl, fun _ _ => ?_⟩
      · rw [isClients]
        exact List.getElem?_append_left (List.getElem?_eq_some_iff.1 found).1 ▸ found
      · rw [isLater]
        exact List.prefix_rfl

/-- Each of some sessions is cancelled. -/
theorem exists_foldl_cancel (indices : List Nat) (hub : Hub) :
    ∃ clients, indices.foldl Hub.cancel hub = { hub with clients := clients } ∧
      ∀ index : Nat, clients[index]? =
        if index ∈ indices then hub.clients[index]?.map Client.cancel else hub.clients[index]? := by
  induction indices generalizing hub with
  | nil => exact ⟨hub.clients, rfl, fun index => by simp⟩
  | cons first indices inductionHypothesis =>
    obtain ⟨clients, folded, each⟩ := inductionHypothesis (hub.cancel first)
    refine ⟨clients, folded, fun index => ?_⟩
    have once : (hub.cancel first).clients[index]? =
        if first = index then hub.clients[index]?.map Client.cancel else hub.clients[index]? := by
      refine (List.getElem?_modify Client.cancel first hub.clients index).trans ?_
      by_cases here : first = index <;> simp [here]
    rw [each, once]
    by_cases here : first = index
    · subst here
      -- To be cancelled twice is to be cancelled.
      cases hub.clients[first]? <;> simp [Client.cancel]
    · simp [here, Ne.symm here]

theorem Sound.stop (sound : shared.Sound broker) :
    (shared.next .stop).Sound broker ∧ ∀ index, shared.Spares (shared.next .stop) index := by
  obtain ⟨clients, folded, each⟩ :=
    exists_foldl_cancel (List.range shared.hub.clients.length) shared.hub
  have isHub : (shared.next .stop).hub = { shared.hub with clients := clients } := folded
  have isClients : ∀ index : Nat,
      (shared.next .stop).clients[index]? = shared.clients[index]?.map Client.cancel := by
    intro index
    rw [SharedService.clients, isHub]
    refine (each index).trans ?_
    split
    next => rfl
    next outside =>
      have nobody : shared.hub.clients[index]? = none :=
        List.getElem?_eq_none (by simpa using outside)
      rw [SharedService.clients, nobody]
      rfl
  refine sound.of_harmless (by rw [isHub]) rfl
    (fun index => ⟨Client.cancel, harmless_cancel, isClients index⟩)
    fun _ => Or.inr fun client member => ?_
  obtain ⟨index, isClient⟩ := List.getElem?_of_mem member
  rw [isClients] at isClient
  obtain ⟨was, _, rfl⟩ := Option.map_eq_some_iff.1 isClient
  rfl

/-- Whatever changes one client without its session leaves everything sound. -/
theorem Sound.modifyClient (sound : shared.Sound broker) (index : Nat)
    {change : Client → Client} (harmless : Harmless change) :
    let later := shared.withHub (shared.hub.modifyClient index change)
    later.Sound broker ∧ ∀ other, shared.Spares later other := by
  intro later
  refine sound.of_harmless rfl rfl (fun other => ⟨_, harmless_ite harmless (index = other), ?_⟩)
    fun stops => Or.inl stops
  exact List.getElem?_modify change index shared.clients other

/-- What strangers may ask for is no part of a session's. -/
theorem Sound.foreign (sound : shared.Sound broker) {request : BrokerRequest}
    (permitted : shared.permits request = true) :
    ∀ subscription ∈ subscriptions shared.clients, request.handles subscription = false := by
  intro subscription member
  have ids := sound.heldBy.ids
  have places := sound.heldBy.places
  rw [List.map_append, List.nodup_append] at ids places
  cases request with
  | unsubscribe resource id =>
    have strange : id ∈ shared.strangers.map Subscription.id := by simpa [permits] using permitted
    have other : id ≠ subscription.id := fun same =>
      ids.2.2 _ (List.mem_map_of_mem member) _ strange same.symm
    simp [BrokerRequest.handles, other]
  | receive place | drain place | abandon place =>
    have strange : place ∈ shared.strangers.map Subscription.place := by
      simpa [permits] using permitted
    have other : place ≠ subscription.place := fun same =>
      places.2.2 _ (List.mem_map_of_mem member) _ strange same.symm
    simp [BrokerRequest.handles, other]
  | close => simp [permits] at permitted
  | subscribe | publish | notify | count => rfl

/-- A broker whose subscriptions are held by the same sessions as before leaves everything sound. -/
theorem Sound.withBroker (sound : shared.Sound broker) {after : DirectBroker}
    {strangers : List Subscription} (heldBy : after.HeldBy (subscriptions shared.clients) strangers)
    (kept : ∀ subscription ∈ subscriptions shared.clients,
      broker.room.queue subscription.place <+: after.room.queue subscription.place) :
    let later := { shared.withHub { shared.hub with broker := .inProcess after } with
      strangers := strangers }
    later.Sound after ∧ ∀ index, shared.Spares later index := by
  intro later
  refine ⟨⟨rfl, heldBy, sound.plain, sound.cancelled⟩, fun index client found =>
    ⟨client, found, rfl, fun subscription has => ?_⟩⟩
  rw [sound.isBroker]
  exact kept subscription (List.mem_filterMap.2 ⟨client, List.mem_of_getElem? found, has⟩)

/-- Strangers get subscriptions of their own, and what they do with these concerns no session. -/
theorem Sound.oblige (sound : shared.Sound broker) (request : BrokerRequest) :
    ∃ after, (shared.oblige request).Sound after ∧
      ∀ index, shared.Spares (shared.oblige request) index := by
  unfold SharedService.oblige
  rw [sound.isBroker]
  dsimp only
  split
  next permitted =>
    cases request with
    | subscribe scope resource =>
      cases answered : broker.subscribe scope shared.hub.now resource with
      | mk after result =>
        simp only [DirectBroker.serve, answered]
        cases result with
        | ok subscription =>
          obtain ⟨enrolled, kept⟩ := sound.heldBy.enroll answered
          exact ⟨after, sound.withBroker enrolled.give kept⟩
        | error cause =>
          obtain ⟨refused, room⟩ := sound.heldBy.refuse answered
          exact ⟨after, sound.withBroker refused fun _ _ => room ▸ List.prefix_rfl⟩
    | unsubscribe | publish | notify | count | receive | drain | abandon =>
      obtain ⟨served, kept⟩ :=
        sound.heldBy.serve_foreign shared.hub.now rfl (sound.foreign permitted)
      exact ⟨_, sound.withBroker served kept⟩
    | close => simp [permits] at permitted
  next => exact ⟨broker, sound, shared.spares_refl⟩

/-- Whatever goes on leaves everything sound, and concerns no session but the one whose step it
is. -/
theorem Sound.next (sound : shared.Sound broker) (action : Action) :
    ∃ after, (shared.next action).Sound after ∧
      ∀ index, action.isStep index = false → shared.Spares (shared.next action) index := by
  have unconcerned : ∀ {after : DirectBroker}, ((shared.next action).Sound after ∧
      ∀ index, shared.Spares (shared.next action) index) →
        ∃ after, (shared.next action).Sound after ∧
          ∀ index, action.isStep index = false → shared.Spares (shared.next action) index :=
    fun ⟨still, spares⟩ => ⟨_, still, fun index _ => spares index⟩
  cases action with
  | connect scope requestTime buffer =>
    exact unconcerned (sound.connect scope requestTime buffer)
  | client index move =>
    exact unconcerned (sound.modifyClient index (harmless_of_connection fun _ => ⟨_, rfl⟩))
  | refresh index => exact unconcerned (sound.modifyClient index (harmless_refresh shared.hub.now))
  | step index =>
    obtain ⟨after, still, spares⟩ := sound.step index
    refine ⟨after, still, fun other elsewhere => spares other ?_⟩
    rintro rfl
    simp [Action.isStep] at elsewhere
  | cancel index => exact unconcerned (sound.modifyClient index harmless_cancel)
  | stop => exact unconcerned sound.stop
  | pass duration =>
    exact unconcerned (sound.of_harmless rfl rfl
      (fun index => ⟨id, harmless_id, by simp [SharedService.next, withHub, clients, hub]⟩) Or.inl)
  | count counts =>
    exact unconcerned (sound.of_harmless rfl rfl
      (fun index => ⟨id, harmless_id, by simp [SharedService.next, withHub, clients, hub]⟩) Or.inl)
  | stranger request =>
    obtain ⟨after, still, spares⟩ := sound.oblige request
    exact ⟨after, still, fun index _ => spares index⟩

theorem sound_start (capacity : Nat) (reachable : Bool) :
    (start capacity reachable).Sound (.ofCapacity capacity) where
  isBroker := rfl
  heldBy := .ofCapacity capacity
  plain := fun _ member => by cases member
  cancelled := fun stops => by cases stops

theorem Sound.after (sound : shared.Sound broker) (actions : List Action) :
    ∃ after, (shared.after actions).Sound after := by
  induction actions generalizing shared broker with
  | nil => exact ⟨broker, sound⟩
  | cons action actions inductionHypothesis =>
    obtain ⟨_, still, _⟩ := sound.next action
    exact inductionHypothesis still

end SharedService

end UpdateRelay
