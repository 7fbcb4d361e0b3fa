import UpdateRelay.Proofs.Service.Holders
import UpdateRelay.Proofs.Session.Interactions
import UpdateRelay.Session.Hub

/-!
# Steps of sessions over an in-process broker

What a step of a session over an in-process broker consists of: what the session meets, which
`Client.encounter` tells together with what its request does to the broker, and what becomes of its
mailbox. `Client.exists_holderStep` reads each step as one of a holder at the broker. Once its
lifetime was cancelled a session never waits, and `Session.stepsLeft` counts down to its end.
-/

namespace UpdateRelay

/-! ## Sessions -/

namespace Session

/-- The subscription that a session has with its broker: the one that it holds or is releasing. -/
def subscription? (session : Session) : Option Subscription :=
  match session.phase with
  | .releasing subscription _ => some subscription
  | _ => session.held

/-- Whether a session is in the middle of a release. -/
def isReleasing (session : Session) : Bool :=
  match session.phase with
  | .releasing _ _ => true
  | _ => false

theorem subscription?_of_not_isReleasing {session : Session}
    (between : session.isReleasing = false) : session.subscription? = session.held := by
  obtain ⟨held, phase⟩ := session
  cases phase with
  | releasing => simp [isReleasing] at between
  | _ => rfl

theorem subscription?_of_result? {session : Session} (orderly : session.Orderly)
    (ended : session.result?.isSome = true) : session.subscription? = none := by
  obtain ⟨held, phase⟩ := session
  cases phase with
  | ended result => exact orderly
  | _ => simp [result?] at ended

/-- Nothing happens to a session that has ended. -/
theorem react_of_result? {session : Session} (ended : session.result?.isSome = true)
    (counts : ChangeCounts) (stimulus : Stimulus) : session.react counts stimulus = session := by
  obtain ⟨held, phase⟩ := session
  cases phase with
  | ended result => cases stimulus <;> rfl
  | _ => simp [result?] at ended

theorem orderly_react {session : Session} (orderly : session.Orderly) (counts : ChangeCounts)
    (stimulus : Stimulus) : (session.react counts stimulus).Orderly :=
  (balance_interactions orderly ⟨counts, stimulus⟩).2

/-- To come to an end is not yet to have released what is held. -/
theorem subscription?_finish (session : Session) (result : Except SessionFailure Unit) :
    (session.finish result).subscription? = session.held := by
  unfold finish
  cases held : session.held <;> rfl

theorem subscription?_apply (held : Option Subscription) (counts : ChangeCounts)
    (command : Command) : (apply ⟨held, .listening⟩ counts command).subscription? = held := by
  unfold apply
  cases command.action? with
  | none => rfl
  | some action =>
    cases action with
    | subscribe =>
      cases held with
      | none => rfl
      | some subscription =>
        dsimp only
        split <;> rfl
    | update =>
      dsimp only
      split
      next => cases counts.get? command.resource <;> rfl
      next => rfl

/-- Whatever a session meets while it waits, it keeps its subscription at first. -/
theorem subscription?_react_of_waits {session : Session} (waits : session.request? = none)
    (counts : ChangeCounts) (stimulus : Stimulus) :
    (session.react counts stimulus).subscription? = session.subscription? := by
  obtain ⟨held, phase⟩ := session
  cases phase with
  | listening =>
    cases stimulus with
    | lifetimeOver => exact subscription?_finish ⟨held, .listening⟩ (.ok ())
    | command item =>
      rcases item with _ | (cause | command)
      · exact subscription?_finish ⟨held, .listening⟩ (.ok ())
      · exact subscription?_finish ⟨held, .listening⟩ (.error cause)
      · exact subscription?_apply held counts command
    | event event =>
      cases event with
      | none => exact subscription?_finish ⟨held, .listening⟩ (.ok ())
      | some event => rfl
    | _ => rfl
  | sending event =>
    cases stimulus with
    | lifetimeOver => exact subscription?_finish ⟨held, .sending event⟩ (.ok ())
    | sent result =>
      cases result with
      | ok => rfl
      | error cause => exact subscription?_finish ⟨held, .sending event⟩ (.error cause)
    | _ => rfl
  | ended => cases stimulus <;> rfl
  | subscribing | publishing | releasing => simp [request?] at waits

end Session

/-! ## Steps -/

namespace Client

/-- Whether a client is as it is where nobody makes its requests fail or hang. -/
structure Plain (client : Client) : Prop where
  faults : client.faults = .none
  hungSince : client.hungSince = none
  orderly : client.session.Orderly

theorem plain_start (scope : Scope) (requestTime : Nat) (connection : Connection) :
    (Client.start scope requestTime connection).Plain := ⟨rfl, rfl, trivial⟩

/-- What a session meets at its step, if it need not wait, with the broker after its request. -/
def encounter (client : Client) (broker : DirectBroker) (now : Nat) :
    Option (DirectBroker × Stimulus) :=
  match client.session.request? with
  | some (.subscribe resource) =>
      let (after, result) := broker.subscribe client.scope now resource
      some (after, .subscribed result (client.isOver now))
  | some (.publish event) =>
      let (after, result) :=
        broker.publish (client.scope.within now client.requestTime) now event.resource event
      some (after, .published result)
  | some (.unsubscribe resource id) => some (broker.unsubscribe resource id, .released (.ok ()))
  | none => (client.session.choose? (client.observation broker.room now)).map (broker, ·)

/-- The client after its session made a request, if it has one. -/
def asked (client : Client) : Client :=
  { client with requests := client.requests ++ client.session.request?.toList }

theorem Plain.react {client : Client} (plain : client.Plain) (counts : ChangeCounts)
    (stimulus : Stimulus) : (client.asked.react counts stimulus).Plain :=
  ⟨plain.faults, rfl, Session.orderly_react plain.orderly counts stimulus⟩

end Client

/-- A step of a session over an in-process broker is an encounter. -/
theorem Hub.move?_inProcess {hub : Hub} {broker : DirectBroker} {index : Nat} {client : Client}
    (isBroker : hub.broker = .inProcess broker) (found : hub.clients[index]? = some client)
    (plain : client.Plain) :
    hub.move? index = (client.encounter broker hub.now).map fun (after, stimulus) =>
      { hub with
        broker := settleMail client.session stimulus (.inProcess after)
        clients := hub.clients.set index (client.asked.react hub.counts stimulus) } := by
  obtain ⟨faults, hungSince, _⟩ := plain
  unfold move? Client.encounter Client.asked
  simp only [found, hungSince]
  cases asks : client.session.request? with
  | none =>
    obtain ⟨now, _, counts, clients⟩ := hub
    obtain rfl := isBroker
    simp only [Option.map_map, Option.toList_none, List.append_nil]
    rfl
  | some request =>
    simp only [makeRequest, faults, Faults.none, perform, isBroker]
    cases request <;> rfl

/-- While a session waits, all that it does to its broker is to take an event from its mailbox. -/
theorem Session.exists_holderStep_of_waits {session : Session} (waits : session.request? = none)
    (broker : DirectBroker) (now : Nat) (stimulus : Stimulus) :
    ∃ settled, Hub.settleMail session stimulus (.inProcess broker) = .inProcess settled ∧
      broker.HolderStep now session.subscription? session.subscription? settled := by
  obtain ⟨held, phase⟩ := session
  cases phase with
  | listening | sending | ended =>
    rcases stimulus with _ | _ | (_ | event) | _ | _ | _ | _
    case event.some =>
      cases held with
      | none => exact ⟨broker, rfl, .rest none⟩
      | some subscription => exact ⟨_, rfl, .receive subscription⟩
    all_goals exact ⟨broker, rfl, .rest held⟩
  | subscribing | publishing | releasing => simp [request?] at waits

/-- What a session meets and what becomes of its mailbox is one step of a holder at its
broker. -/
theorem Client.exists_holderStep {client : Client} (plain : client.Plain)
    {broker after : DirectBroker} {now : Nat} {stimulus : Stimulus}
    (meets : client.encounter broker now = some (after, stimulus)) (counts : ChangeCounts) :
    ∃ settled, Hub.settleMail client.session stimulus (.inProcess after) = .inProcess settled ∧
      broker.HolderStep now client.session.subscription?
        (client.session.react counts stimulus).subscription? settled := by
  have orderly := plain.orderly
  unfold encounter at meets
  generalize client.session = session at meets orderly ⊢
  cases asks : session.request? with
  | none =>
    rw [asks] at meets
    obtain ⟨_, _, same⟩ := Option.map_eq_some_iff.1 meets
    obtain ⟨rfl, rfl⟩ := Prod.mk.inj same
    rw [Session.subscription?_react_of_waits asks]
    exact Session.exists_holderStep_of_waits asks broker now _
  | some request =>
    obtain ⟨held, phase⟩ := session
    cases phase with
    | listening | sending | ended => simp [Session.request?] at asks
    | subscribing resource =>
      obtain rfl : held = none := orderly
      simp only [Session.request?] at meets
      cases answered : broker.subscribe client.scope now resource with
      | mk joined result =>
        rw [answered] at meets
        obtain ⟨rfl, rfl⟩ := Prod.mk.inj (Option.some.inj meets)
        refine ⟨joined, rfl, ?_⟩
        cases result with
        | ok subscription => exact .granted answered
        | error cause =>
          have left : (Session.react ⟨none, .subscribing resource⟩ counts
              (.subscribed (.error cause) (client.isOver now))).subscription? = none := by
            simp only [Session.react]
            split <;> rfl
          rw [left]
          exact .refused answered
    | publishing event =>
      obtain ⟨rfl, rfl⟩ := Prod.mk.inj (Option.some.inj meets)
      exact ⟨_, rfl, .publish held _ event.resource event⟩
    | releasing subscription sequel =>
      obtain ⟨rfl, rfl⟩ := Prod.mk.inj (Option.some.inj meets)
      obtain rfl : held = none := orderly
      refine ⟨_, rfl, ?_⟩
      cases sequel <;> exact .release subscription

/-! ## The way to the end -/

/-- After how many steps a session has ended, at the most, if its lifetime was cancelled. -/
def Session.stepsLeft (session : Session) : Nat :=
  match session.phase with
  | .ended _ => 0
  | .releasing _ (.finish _) => 1
  | .listening | .sending _ => if session.held.isSome then 2 else 1
  | .subscribing _ => 2
  | .releasing _ (.subscribe _) | .publishing _ => 3

theorem Session.stepsLeft_le (session : Session) : session.stepsLeft ≤ 3 := by
  unfold stepsLeft
  split
  all_goals first | omega | split <;> omega

theorem Session.stepsLeft_eq_zero_iff {session : Session} :
    session.stepsLeft = 0 ↔ session.result?.isSome = true := by
  obtain ⟨held, phase⟩ := session
  rcases phase with _ | _ | _ | _ | ⟨_, _ | _⟩ | _
  case listening | sending => cases held <;> simp [stepsLeft, result?]
  all_goals simp [stepsLeft, result?]

/-- To come to an end takes a release at the most. -/
theorem Session.stepsLeft_finish (session : Session) (result : Except SessionFailure Unit) :
    (session.finish result).stepsLeft = if session.held.isSome then 1 else 0 := by
  unfold finish
  cases session.held <;> rfl

/-- A session whose lifetime was cancelled does not wait, and each step brings it nearer to its
end. -/
theorem Client.exists_encounter {client : Client} (plain : client.Plain)
    (cancelled : client.scope.cancelled = true) (goesOn : client.session.result?.isSome = false)
    (broker : DirectBroker) (now : Nat) (counts : ChangeCounts) :
    ∃ after stimulus, client.encounter broker now = some (after, stimulus) ∧
      (client.session.react counts stimulus).stepsLeft < client.session.stepsLeft := by
  have ended : client.isOver now = true := by simp [isOver, Scope.stop?, cancelled]
  have orderly := plain.orderly
  have stops : ∀ held phase, (phase = .listening ∨ ∃ event, phase = .sending event) →
      Session.choose? ⟨held, phase⟩ (client.observation broker.room now) = some .lifetimeOver := by
    rintro held phase (rfl | ⟨event, rfl⟩) <;> simp [Session.choose?, observation, ended]
  unfold encounter
  generalize client.session = session at orderly goesOn ⊢
  obtain ⟨held, phase⟩ := session
  cases phase with
  | listening | sending =>
    rw [stops _ _ (by simp)]
    refine ⟨broker, .lifetimeOver, rfl, ?_⟩
    simp only [Session.react, Session.stepsLeft_finish]
    cases held <;> simp [Session.stepsLeft]
  | subscribing resource =>
    -- The broker refuses, and the session sees that its lifetime is over when it listens again.
    obtain rfl : held = none := orderly
    have refused : broker.subscribe client.scope now resource = (broker, .error .cancelled) := by
      simp [DirectBroker.subscribe, Scope.check, Scope.stop?, cancelled, StopReason.error]
    simp only [Session.request?, refused, ended]
    exact ⟨broker, _, rfl, Nat.lt_succ_self 1⟩
  | publishing event =>
    refine ⟨_, _, rfl, ?_⟩
    cases held <;> simp [Session.react, Session.enter, Session.stepsLeft]
  | releasing subscription sequel =>
    refine ⟨_, _, rfl, ?_⟩
    cases sequel <;> simp [Session.react, Session.enter, Session.stepsLeft]
  | ended result => simp [Session.result?] at goesOn

end UpdateRelay
