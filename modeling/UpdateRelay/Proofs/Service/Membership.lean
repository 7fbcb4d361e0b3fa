import UpdateRelay.Proofs.Service.Sharing

/-!
# Sessions and registrations

The sessions of a service over a shared in-process broker and the registrations at that broker
agree at any time, and after the service was told to stop it comes to its end when all sessions
have, which takes each of them three steps at the most.
-/

namespace UpdateRelay

namespace Session

/-- Whether a session has a subscription to a resource, which it may be releasing. -/
def has (session : Session) (resource : String) : Bool :=
  session.subscription?.any (·.resource = resource)

/-- Whether a session goes on and holds a subscription to a resource. -/
def isSubscribedTo (session : Session) (resource : String) : Bool :=
  session.result?.isNone && session.resource? = some resource

theorem has_of_not_isReleasing {session : Session} (orderly : session.Orderly)
    (between : session.isReleasing = false) (resource : String) :
    session.has resource = session.isSubscribedTo resource := by
  have held := subscription?_of_not_isReleasing between
  unfold has isSubscribedTo resource?
  cases result : session.result? with
  | none => rw [held]; cases session.held <;> simp
  | some => simp [subscription?_of_result? orderly (by simp [result])]

end Session

namespace SharedService

variable {shared : SharedService} {broker : DirectBroker}

/-! ## After the stop -/

theorem stopping_next (stops : shared.service.stopping = true) (action : Action) :
    (shared.next action).service.stopping = true := by
  cases action with
  | connect =>
    simp only [next, Service.admit]
    split <;> exact stops
  | stranger request =>
    simp only [next, oblige]
    split
    next => split <;> exact stops
    next => exact stops
  | stop => rfl
  | client | refresh | step | cancel | pass | count => exact stops

theorem length_foldl_cancel (indices : List Nat) (hub : Hub) :
    (indices.foldl Hub.cancel hub).clients.length = hub.clients.length := by
  induction indices generalizing hub with
  | nil => rfl
  | cons index indices inductionHypothesis =>
    exact (inductionHypothesis (hub.cancel index)).trans (List.length_modify _ _ _)

/-- Nobody comes but who is accepted, and who has come is never forgotten. -/
theorem Sound.clients_next (sound : shared.Sound broker) (action : Action) :
    (shared.next action).clients.length = shared.clients.length ∨
      shared.service.accepts = true ∧ ∃ scope requestTime buffer,
        (shared.next action).clients =
          shared.clients ++ [.start scope requestTime (.ofLines buffer)] := by
  cases action with
  | connect scope requestTime buffer =>
    simp only [SharedService.next, Service.admit]
    split
    next accepts => exact Or.inr ⟨accepts, scope, requestTime, buffer, rfl⟩
    next => exact Or.inl rfl
  | client | refresh | cancel => exact Or.inl (List.length_modify _ _ _)
  | step index =>
    rcases sound.step_cases index with waits | ⟨client, stimulus, settled, _, _, isNext⟩
    · exact Or.inl (by rw [waits])
    · rw [isNext]
      exact Or.inl List.length_set
  | stop => exact Or.inl (length_foldl_cancel _ _)
  | pass | count => exact Or.inl rfl
  | stranger request =>
    refine Or.inl ?_
    simp only [SharedService.next, SharedService.oblige]
    split
    next => split <;> rfl
    next => rfl

/-- After the stop each step of a session brings it nearer to its end, and nothing else takes it
away from there. -/
theorem Sound.stepsLeft_next (sound : shared.Sound broker) (stops : shared.service.stopping = true)
    {index : Nat} {client : Client} (found : shared.clients[index]? = some client)
    (action : Action) :
    ∃ later, (shared.next action).clients[index]? = some later ∧
      later.session.stepsLeft ≤
        client.session.stepsLeft - if action.isStep index then 1 else 0 := by
  cases steps : action.isStep index with
  | false =>
    obtain ⟨_, _, spares⟩ := sound.next action
    obtain ⟨later, isLater, same, _⟩ := spares index steps client found
    exact ⟨later, isLater, by simp [same]⟩
  | true =>
    obtain rfl : action = .step index := by
      cases action with
      | step => simpa [Action.isStep] using steps
      | _ => simp [Action.isStep] at steps
    have member := List.mem_of_getElem? found
    cases goesOn : client.session.result?.isSome with
    | true =>
      have atEnd := Session.stepsLeft_eq_zero_iff.2 goesOn
      rcases sound.step_cases index with waits | ⟨same, stimulus, settled, isSame, _, isNext⟩
      · exact ⟨client, by rw [waits]; exact found, by simp [atEnd]⟩
      · obtain rfl := Option.some.inj (found.symm.trans isSame)
        have still := Session.react_of_result? goesOn shared.hub.counts stimulus
        refine ⟨_, getElem?_of_stepped found isNext, ?_⟩
        have ended : (client.session.react shared.hub.counts stimulus).stepsLeft = 0 := by
          rw [still, atEnd]
        exact Nat.le_trans (Nat.le_of_eq ended) (Nat.zero_le _)
    | false =>
      obtain ⟨after, stimulus, meets, nearer⟩ := Client.exists_encounter (sound.plain client member)
        (sound.cancelled stops client member) goesOn broker shared.hub.now shared.hub.counts
      obtain ⟨settled, _, isNext⟩ := sound.next_step found meets
      exact ⟨_, getElem?_of_stepped found isNext, Nat.le_sub_one_of_lt nearer⟩

theorem Sound.stepsLeft_after (sound : shared.Sound broker)
    (stops : shared.service.stopping = true) {index : Nat} {client : Client}
    (found : shared.clients[index]? = some client) (actions : List Action) :
    ∃ later, (shared.after actions).clients[index]? = some later ∧
      later.session.stepsLeft ≤ client.session.stepsLeft - actions.countP (·.isStep index) := by
  induction actions generalizing shared broker client with
  | nil => exact ⟨client, found, by simp⟩
  | cons action actions inductionHypothesis =>
    obtain ⟨middle, isMiddle, nearer⟩ := sound.stepsLeft_next stops found action
    obtain ⟨_, still, _⟩ := sound.next action
    obtain ⟨later, isLater, rest⟩ :=
      inductionHypothesis still (stopping_next stops action) isMiddle
    refine ⟨later, isLater, ?_⟩
    rw [List.countP_cons]
    omega

theorem Sound.length_after (sound : shared.Sound broker)
    (stops : shared.service.stopping = true) (actions : List Action) :
    (shared.after actions).clients.length = shared.clients.length ∧
      (shared.after actions).service.stopping = true := by
  induction actions generalizing shared broker with
  | nil => exact ⟨rfl, stops⟩
  | cons action actions inductionHypothesis =>
    obtain ⟨_, still, _⟩ := sound.next action
    obtain ⟨length, stopped⟩ := inductionHypothesis still (stopping_next stops action)
    rcases sound.clients_next action with same | ⟨accepts, _⟩
    · exact ⟨length.trans same, stopped⟩
    · simp [Service.accepts, stops] at accepts

theorem isServing_eq_false_iff : shared.service.isServing = false ↔
    shared.service.stopping = true ∧
      ∀ client ∈ shared.clients, client.session.result?.isSome = true := by
  simp [Service.isServing, clients, hub, Option.isSome_iff_ne_none]

/-- Three steps of each session end the service after the stop. -/
theorem Sound.isServing_after (sound : shared.Sound broker)
    (stops : shared.service.stopping = true) {actions : List Action}
    (steps : ∀ index < shared.clients.length, 3 ≤ actions.countP (·.isStep index)) :
    (shared.after actions).service.isServing = false := by
  obtain ⟨length, stopped⟩ := sound.length_after stops actions
  refine isServing_eq_false_iff.2 ⟨stopped, fun later member => ?_⟩
  obtain ⟨index, isLater⟩ := List.getElem?_of_mem member
  have inside : index < shared.clients.length :=
    length ▸ (List.getElem?_eq_some_iff.1 isLater).1
  obtain ⟨same, isSame, left⟩ :=
    sound.stepsLeft_after stops (List.getElem?_eq_getElem inside) actions
  obtain rfl := Option.some.inj (isLater.symm.trans isSame)
  refine Session.stepsLeft_eq_zero_iff.1 ?_
  have atMost := (shared.clients[index]).session.stepsLeft_le
  have enough := steps index inside
  omega

/-! ## What a service does on its own -/

theorem after_append (shared : SharedService) (earlier later : List Action) :
    shared.after (earlier ++ later) = (shared.after earlier).after later :=
  List.foldl_append

/-- A session goes on by refreshing its connection and taking steps. -/
theorem exists_actions_runClient (shared : SharedService) (index steps : Nat) :
    ∃ actions, shared.withHub (Hub.runClient index steps shared.hub).1 = shared.after actions := by
  induction steps generalizing shared with
  | zero => exact ⟨[], rfl⟩
  | succ steps inductionHypothesis =>
    rw [Hub.runClient]
    cases moves : (shared.hub.refresh index).move? index with
    | none => exact ⟨[.refresh index], rfl⟩
    | some later =>
      obtain ⟨actions, same⟩ := inductionHypothesis (shared.withHub later)
      have stepped : shared.after [.refresh index, .step index] = shared.withHub later := by
        have moved : (shared.next (.refresh index)).hub.move? index = some later := moves
        change (shared.next (.refresh index)).withHub
          (((shared.next (.refresh index)).hub.move? index).getD _) = shared.withHub later
        rw [moved]
        rfl
      refine ⟨[.refresh index, .step index] ++ actions, ?_⟩
      rw [after_append, stepped, ← same]
      rfl

theorem exists_actions_runEach (shared : SharedService) (steps : Nat) (indices : List Nat) :
    ∃ actions, shared.withHub (Hub.runEach steps indices shared.hub).1 = shared.after actions := by
  induction indices generalizing shared with
  | nil => exact ⟨[], rfl⟩
  | cons index indices inductionHypothesis =>
    obtain ⟨first, isFirst⟩ := shared.exists_actions_runClient index steps
    obtain ⟨others, isOthers⟩ :=
      inductionHypothesis (shared.withHub (Hub.runClient index steps shared.hub).1)
    refine ⟨first ++ others, ?_⟩
    rw [after_append, ← isFirst, ← isOthers]
    rfl

/-- An in-process broker has nothing to do in the background. -/
theorem Sound.exists_actions_round (sound : shared.Sound broker) :
    ∃ actions, shared.withHub shared.hub.round.1 = shared.after actions := by
  have settled : { shared.hub with broker := shared.hub.broker.settle } = shared.hub := by
    rw [sound.isBroker, AnyBroker.settle, ← sound.isBroker]
  unfold Hub.round
  dsimp only
  rw [settled]
  exact shared.exists_actions_runEach _ _

theorem Sound.exists_actions_runRounds (sound : shared.Sound broker) (rounds : Nat) :
    ∃ actions, shared.withHub (Hub.runRounds rounds shared.hub) = shared.after actions := by
  induction rounds generalizing shared broker with
  | zero => exact ⟨[], rfl⟩
  | succ rounds inductionHypothesis =>
    obtain ⟨first, isFirst⟩ := sound.exists_actions_round
    rw [Hub.runRounds]
    cases ran : shared.hub.round with
    | mk later went =>
      rw [ran] at isFirst
      cases went with
      | false => exact ⟨first, isFirst⟩
      | true =>
        obtain ⟨after, still⟩ := sound.after first
        rw [← isFirst] at still
        obtain ⟨others, isOthers⟩ := inductionHypothesis still
        refine ⟨first ++ others, ?_⟩
        rw [after_append, ← isFirst, ← isOthers]
        rfl

/-- What a service does until all its sessions wait is a run of actions. -/
theorem exists_actions_settle (capacity : Nat) (reachable : Bool) (actions : List Action) :
    let shared := (start capacity reachable).after actions
    ∃ steps, { shared with service := shared.service.settle } = shared.after steps := by
  intro shared
  obtain ⟨broker, sound⟩ : ∃ broker, shared.Sound broker :=
    (sound_start capacity reachable).after actions
  exact sound.exists_actions_runRounds _

/-! ## Sessions and registrations agree -/

theorem Sound.audienceBut_eq (sound : shared.Sound broker) (resource : String) :
    broker.audienceBut shared.strangers resource =
      shared.clients.countP (·.session.has resource) := by
  rw [sound.heldBy.audienceBut_eq, subscriptions, List.countP_filterMap]
  refine List.countP_congr fun client _ => ?_
  unfold Session.has
  cases client.session.subscription? <;> simp

theorem Sound.inForce (sound : shared.Sound broker) {client : Client} {subscription : Subscription}
    (member : client ∈ shared.clients) (has : client.session.subscription? = some subscription) :
    broker.InForce subscription :=
  sound.heldBy.inForce (List.mem_filterMap.2 ⟨client, member, has⟩)

/-- Who has started a release completes it with the next step. -/
theorem Sound.step_of_isReleasing (sound : shared.Sound broker) {index : Nat} {client : Client}
    (found : shared.clients[index]? = some client)
    (releasing : client.session.isReleasing = true) :
    ∃ later, (shared.next (.step index)).clients[index]? = some later ∧
      later.session.isReleasing = false := by
  obtain ⟨stimulus, after, meets, released⟩ : ∃ stimulus after,
      client.encounter broker shared.hub.now = some (after, stimulus) ∧
        (client.session.react shared.hub.counts stimulus).isReleasing = false := by
    unfold Client.encounter
    generalize client.session = session at releasing ⊢
    obtain ⟨held, phase⟩ := session
    cases phase with
    | releasing subscription sequel =>
      refine ⟨.released (.ok ()), _, rfl, ?_⟩
      cases sequel <;> rfl
    | _ => simp [Session.isReleasing] at releasing
  obtain ⟨settled, _, isNext⟩ := sound.next_step found meets
  exact ⟨_, getElem?_of_stepped found isNext, released⟩

theorem Sound.audienceBut_of_between (sound : shared.Sound broker)
    (between : ∀ client ∈ shared.clients, client.session.isReleasing = false) (resource : String) :
    broker.audienceBut shared.strangers resource =
      shared.clients.countP (·.session.isSubscribedTo resource) := by
  rw [sound.audienceBut_eq]
  refine List.countP_congr fun client member => ?_
  rw [Session.has_of_not_isReleasing (sound.plain client member).orderly (between client member)]

/-! ### Between the steps of the program

A broker in the same process answers at once, so a session that comes to a release completes it
before anything else goes on. -/

/-- The state after an action and the release that it led to, if it did. -/
def turn (shared : SharedService) (action : Action) : SharedService :=
  match action with
  | .step index =>
      let stepped := shared.next (.step index)
      if stepped.clients[index]?.any (·.session.isReleasing) then stepped.next (.step index)
      else stepped
  | _ => shared.next action

def afterTurns (shared : SharedService) (actions : List Action) : SharedService :=
  actions.foldl turn shared

theorem exists_actions_turn (shared : SharedService) (action : Action) :
    ∃ actions, shared.turn action = shared.after actions := by
  unfold turn
  split
  next index =>
    dsimp only
    split
    next => exact ⟨[.step index, .step index], rfl⟩
    next => exact ⟨[.step index], rfl⟩
  next => exact ⟨[action], rfl⟩

theorem exists_actions_afterTurns (shared : SharedService) (actions : List Action) :
    ∃ steps, shared.afterTurns actions = shared.after steps := by
  induction actions generalizing shared with
  | nil => exact ⟨[], rfl⟩
  | cons action actions inductionHypothesis =>
    obtain ⟨first, isFirst⟩ := shared.exists_actions_turn action
    obtain ⟨others, isOthers⟩ := inductionHypothesis (shared.turn action)
    refine ⟨first ++ others, ?_⟩
    rw [after_append, ← isFirst, ← isOthers]
    rfl

/-- Whether there is no session at an index that is in the middle of a release. -/
def Between (shared : SharedService) (index : Nat) : Prop :=
  ∀ client, shared.clients[index]? = some client → client.session.isReleasing = false

/-- No action but a step of a session brings it to a release. -/
theorem Sound.between_next (sound : shared.Sound broker) {action : Action} {index : Nat}
    (between : shared.Between index) (elsewhere : action.isStep index = false) :
    (shared.next action).Between index := by
  intro later isLater
  obtain ⟨_, _, spares⟩ := sound.next action
  cases found : shared.clients[index]? with
  | some client =>
    obtain ⟨same, isSame, session, _⟩ := spares index elsewhere client found
    obtain rfl := Option.some.inj (isLater.symm.trans isSame)
    rw [session]
    exact between client found
  | none =>
    have beyond := List.getElem?_eq_none_iff.1 found
    have inside := (List.getElem?_eq_some_iff.1 isLater).1
    rcases sound.clients_next action with same | ⟨_, scope, requestTime, buffer, joined⟩
    · omega
    · rw [joined, List.getElem?_append_right beyond] at isLater
      obtain rfl := List.mem_singleton.1 (List.mem_of_getElem? isLater)
      rfl

theorem Sound.between_turn (sound : shared.Sound broker) (between : ∀ index, shared.Between index)
    (action : Action) (index : Nat) : (shared.turn action).Between index := by
  cases action with
  | step stepping =>
    obtain ⟨after, still, _⟩ := sound.next (.step stepping)
    simp only [turn]
    by_cases here : stepping = index
    · subst here
      split
      next releases =>
        intro later isLater
        obtain ⟨client, isClient, releasing⟩ := (Option.any_eq_true _ _).1 releases
        obtain ⟨same, isSame, released⟩ := still.step_of_isReleasing isClient releasing
        obtain rfl := Option.some.inj (isLater.symm.trans isSame)
        exact released
      next goesOn =>
        intro later isLater
        rw [isLater] at goesOn
        simpa using goesOn
    · have elsewhere : (Action.step stepping).isStep index = false := by
        simpa [Action.isStep] using here
      have stepped := sound.between_next (between index) elsewhere
      split
      next => exact still.between_next stepped elsewhere
      next => exact stepped
  | connect | client | refresh | cancel | stop | pass | count | stranger =>
    exact sound.between_next (between index) rfl

theorem Sound.between_afterTurns (sound : shared.Sound broker)
    (between : ∀ index, shared.Between index) (actions : List Action) (index : Nat) :
    (shared.afterTurns actions).Between index := by
  induction actions generalizing shared broker with
  | nil => exact between index
  | cons action actions inductionHypothesis =>
    obtain ⟨steps, isTurn⟩ := shared.exists_actions_turn action
    obtain ⟨after, still⟩ := sound.after steps
    rw [← isTurn] at still
    exact inductionHypothesis still fun other => sound.between_turn between action other

/-- Whatever clients, sessions, strangers and the operator of a service over an open in-process
broker do, in whatever order:

- Between the steps of the program, the registrations of a resource that are not strangers' are as
  many as the sessions that go on and hold a subscription to it. Within its steps they are as many
  as the sessions that have one, held or being released.
- Nothing but its own steps changes a session, ends its subscription or takes an event from its
  mailbox, however another session ends.
- The service comes to its end only after it was told to stop and all sessions have ended, and
  then no registration of a session is left.
- It does come to its end, whatever goes on between, once each session has taken three steps after
  the stop, whether it was blocked by its client or in the middle of something before. -/
theorem sessions_and_registrations_agree (capacity : Nat) (reachable : Bool)
    (actions : List Action) :
    (let between := (start capacity reachable).afterTurns actions
      ∃ steps broker, between = (start capacity reachable).after steps ∧
        between.hub.broker = .inProcess broker ∧
        ∀ resource, broker.audienceBut between.strangers resource =
          between.clients.countP (·.session.isSubscribedTo resource)) ∧
    let shared := (start capacity reachable).after actions
    ∃ broker, shared.hub.broker = .inProcess broker ∧ broker.closed = false ∧
      (∀ resource, broker.audienceBut shared.strangers resource =
        shared.clients.countP (·.session.has resource)) ∧
      (∀ action index client, action.isStep index = false →
        shared.clients[index]? = some client →
          ∃ after later, (shared.next action).hub.broker = .inProcess after ∧
            (shared.next action).clients[index]? = some later ∧
            later.session = client.session ∧
            ∀ subscription, client.session.subscription? = some subscription →
              broker.InForce subscription ∧ after.InForce subscription ∧
              broker.room.queue subscription.place <+: after.room.queue subscription.place) ∧
      (shared.service.isServing = false →
        shared.service.stopping = true ∧
        (∀ client ∈ shared.clients, client.session.result?.isSome = true) ∧
        ∀ resource, broker.audienceBut shared.strangers resource = 0) ∧
      ∀ later : List Action,
        (∀ index < shared.clients.length, 3 ≤ later.countP (·.isStep index)) →
          (shared.after (.stop :: later)).service.isServing = false := by
  have fresh := sound_start capacity reachable
  constructor
  · intro between
    obtain ⟨steps, isBetween⟩ := (start capacity reachable).exists_actions_afterTurns actions
    obtain ⟨broker, sound⟩ := fresh.after steps
    rw [← isBetween] at sound
    refine ⟨steps, broker, isBetween, sound.isBroker,
      sound.audienceBut_of_between fun client member => ?_⟩
    obtain ⟨index, isClient⟩ := List.getElem?_of_mem member
    exact fresh.between_afterTurns (fun _ _ nobody => by cases nobody) actions index client isClient
  intro shared
  obtain ⟨broker, sound⟩ : ∃ broker, shared.Sound broker := fresh.after actions
  refine ⟨broker, sound.isBroker, sound.heldBy.isOpen, sound.audienceBut_eq, ?_, ?_, ?_⟩
  · intro action index client elsewhere found
    obtain ⟨after, still, spares⟩ := sound.next action
    obtain ⟨later, isLater, same, kept⟩ := spares index elsewhere client found
    refine ⟨after, later, still.isBroker, isLater, same, fun subscription has => ⟨?_, ?_, ?_⟩⟩
    · exact sound.inForce (List.mem_of_getElem? found) has
    · exact still.inForce (List.mem_of_getElem? isLater) (same ▸ has)
    · have queues := kept subscription has
      rwa [sound.isBroker, still.isBroker] at queues
  · intro isOver
    obtain ⟨stops, ended⟩ := isServing_eq_false_iff.1 isOver
    refine ⟨stops, ended, fun resource => ?_⟩
    rw [sound.audienceBut_eq, List.countP_eq_zero]
    intro client member
    have nothing := Session.subscription?_of_result? (sound.plain client member).orderly
      (ended client member)
    simp [Session.has, nothing]
  · intro later steps
    have length : (shared.next .stop).clients.length = shared.clients.length :=
      length_foldl_cancel _ _
    exact sound.stop.1.isServing_after rfl (length ▸ steps)

/-- What a client does that subscribes, and its session with it. -/
def joining (index : Nat) : List Action :=
  [.client index (.write (Bytes.ofText
      "\x7b\"resource_id\":\"door\",\"action\":\"subscribe\"\x7d\n")),
    .refresh index, .step index, .step index]

/-- The first of two subscribers sends bytes that are no text, which ends its session. -/
example :
    let shared := (start 4 true).after <|
      [.connect .unlimited 5000 64, .connect .unlimited 5000 64] ++ joining 0 ++ joining 1 ++
        [.client 0 (.write [0xff, newline]), .refresh 0, .step 0, .step 0]
    shared.clients.map (·.session.resource?) = [none, some "door"] ∧
      shared.clients.map (·.session.result?.isSome) = [true, false] ∧
      shared.hub.broker.audience "door" = 1 := by decide +kernel

end SharedService

end UpdateRelay
