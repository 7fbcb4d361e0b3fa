import UpdateRelay.Proofs.Session.Course

/-!
# The trace of a session

All that a session does for its client and with its broker, in order: the commands that it heeds,
with the counts of changes then, and its interactions. `Activity.allDue` reads off a trace what
ought to be published, by nothing but its commands and the subscriptions that it tells of; this is
what is published.
-/

namespace UpdateRelay

/-- What a session does: it heeds a command, or has an interaction with its broker. -/
inductive Activity
  | heeded (command : Command) (counts : ChangeCounts)
  | interacted (interaction : Interaction)

namespace Activity

/-- The event whose publish is asked for, if one is. -/
def published? : Activity → Option Event
  | interacted (.asked (.publish event)) => some event
  | interacted _ | heeded _ _ => none

/-- The subscription that is held after an activity. -/
def held (before : Option Subscription) : Activity → Option Subscription
  | interacted (.granted subscription) => some subscription
  | interacted (.asked (.unsubscribe _ _)) => none
  | interacted (.asked (.subscribe _)) | interacted (.asked (.publish _)) | heeded _ _ => before

def heldAfter (before : Option Subscription) (activities : List Activity) : Option Subscription :=
  activities.foldl held before

/-- The event that a command ought to bring about: an update of the held resource does, if its count
is known. -/
def due? (before : Option Subscription) : Activity → Option Event
  | heeded command counts =>
      if command.action? = some .update ∧
          before.map Subscription.resource = some command.resource then
        (counts.get? command.resource).map fun count =>
          ⟨command.resource, count, s!"Project {command.resource} updated"⟩
      else none
  | interacted _ => none

/-- The events that all commands ought to bring about, in order. -/
def allDue (before : Option Subscription) : List Activity → List Event
  | [] => []
  | activity :: activities =>
      (activity.due? before).toList ++ allDue (activity.held before) activities

theorem heldAfter_append (before : Option Subscription) (first second : List Activity) :
    heldAfter before (first ++ second) = heldAfter (heldAfter before first) second :=
  List.foldl_append

theorem allDue_append (before : Option Subscription) (first second : List Activity) :
    allDue before (first ++ second) =
      allDue before first ++ allDue (heldAfter before first) second := by
  induction first generalizing before with
  | nil => rfl
  | cons activity first inductionHypothesis =>
    simp only [List.cons_append, allDue, inductionHypothesis, List.append_assoc]
    rfl

/-- Interactions alone ask for nothing to be published. -/
theorem allDue_interacted (before : Option Subscription) (record : List Interaction) :
    allDue before (record.map interacted) = [] := by
  induction record generalizing before with
  | nil => rfl
  | cons interaction record inductionHypothesis =>
    simp only [List.map_cons, allDue, due?, inductionHypothesis]
    rfl

theorem held_of_book? {owed after : Option Subscription} {interaction : Interaction}
    (booked : Interaction.book? owed interaction = some after) :
    held owed (interacted interaction) = after := by
  cases owed with
  | none =>
    rcases interaction with (_ | _ | _) | _ <;> simp [Interaction.book?] at booked <;>
      simpa [held] using booked
  | some subscription =>
    rcases Interaction.book?_some_eq_some booked with ⟨publishes, rfl⟩ | ⟨rfl, rfl⟩
    · rcases interaction with (_ | _ | _) | _ <;>
        first | rfl | simp [Interaction.isPublish] at publishes
    · rfl

/-- What is owed back after a record is what is held by it. -/
theorem heldAfter_of_balance? {owed final : Option Subscription} {record : List Interaction}
    (balanced : Interaction.balance? owed record = some final) :
    heldAfter owed (record.map interacted) = final := by
  induction record generalizing owed with
  | nil => exact Option.some.inj balanced
  | cons interaction record inductionHypothesis =>
    rw [Interaction.balance?_cons] at balanced
    obtain ⟨middle, booked, rest⟩ := Option.bind_eq_some_iff.1 balanced
    rw [List.map_cons, heldAfter, List.foldl_cons, held_of_book? booked]
    exact inductionHypothesis rest

end Activity

/-- Whether a command asks for nothing: its action is unknown, it is an update of a resource that is
not held or whose count is unknown, or it subscribes to what is held already. -/
inductive Command.Idle (command : Command) (held : Option Subscription) (counts : ChangeCounts) :
    Prop
  | unknown (action : command.action? = none)
  | foreign (action : command.action? = some .update)
      (other : held.map Subscription.resource ≠ some command.resource)
  | uncounted (action : command.action? = some .update)
      (count : counts.get? command.resource = none)
  | repeated (action : command.action? = some .subscribe)
      (same : held.map Subscription.resource = some command.resource)

/-! ## What one thing brings about -/

/-- The event that is being published in a phase. -/
def Phase.publishing? : Phase → Option Event
  | publishing event => some event
  | _ => none

/-- The command that came, if one did. -/
def Stimulus.command? : Stimulus → Option Command
  | .command (some (.ok asked)) => some asked
  | _ => none

namespace Session

/-- What a session does when something happens that fits what it is doing: a command is heeded, and
what it has to do with its broker follows. -/
def activities (session : Session) (happening : Happening) : List Activity :=
  if session.awaits happening.stimulus then
    happening.stimulus.command?.toList.map (.heeded · happening.counts) ++
      (session.interactions happening).map .interacted
  else []

theorem publishing?_finish (session : Session) (result : Except SessionFailure Unit) :
    (session.finish result).phase.publishing? = none := by
  unfold finish
  split <;> rfl

/-- A command is followed by the publish that it ought to bring about. -/
theorem publishing?_apply (session : Session) (counts : ChangeCounts) (command : Command) :
    (session.apply counts command).phase.publishing? =
      (Activity.heeded command counts).due? session.held := by
  cases asked : command.action? with
  | none => simp [apply, Activity.due?, asked, enter, Phase.publishing?]
  | some action =>
    cases action with
    | subscribe =>
      cases isHeld : session.held with
      | none => simp [apply, Activity.due?, asked, isHeld, enter, Phase.publishing?]
      | some subscription =>
        by_cases same : subscription.resource = command.resource <;>
          simp [apply, Activity.due?, asked, isHeld, same, enter, Phase.publishing?]
    | update =>
      have held : session.resource? = session.held.map Subscription.resource := rfl
      by_cases own : session.held.map Subscription.resource = some command.resource
      · cases known : counts.get? command.resource <;>
          simp [apply, Activity.due?, asked, held, own, known, enter, Phase.publishing?, stateEvent]
      · simp [apply, Activity.due?, asked, held, own, enter, Phase.publishing?]

/-- A listening session goes on listening after a command that asks for nothing. -/
theorem apply_of_idle {session : Session} {counts : ChangeCounts} {command : Command}
    (listens : session.phase = .listening) (idle : command.Idle session.held counts) :
    session.apply counts command = session := by
  have still : session.enter .listening = session := by
    rw [enter, ← listens]
  have held : session.resource? = session.held.map Subscription.resource := rfl
  cases idle with
  | unknown action => simpa [apply, action] using still
  | foreign action other => simpa [apply, action, held, other] using still
  | uncounted action count => simpa [apply, action, count] using still
  | repeated action same =>
    obtain ⟨subscription, isHeld, same⟩ := Option.map_eq_some_iff.1 same
    simpa [apply, action, isHeld, same] using still

/-- Nothing but a command is followed by a publish. -/
theorem publishing?_react {session : Session} {stimulus : Stimulus}
    (fits : session.awaits stimulus = true) (counts : ChangeCounts) :
    (session.react counts stimulus).phase.publishing? =
      stimulus.command?.bind fun command => (Activity.heeded command counts).due? session.held := by
  obtain ⟨held, phase⟩ := session
  cases phase with
  | listening =>
    cases stimulus with
    | lifetimeOver => exact publishing?_finish _ _
    | command item =>
      rcases item with _ | (cause | command)
      · exact publishing?_finish _ _
      · exact publishing?_finish _ _
      · exact publishing?_apply ⟨held, .listening⟩ counts command
    | event event =>
      cases event with
      | none => exact publishing?_finish _ _
      | some event => rfl
    | _ => simp [awaits] at fits
  | sending event =>
    cases stimulus with
    | lifetimeOver => exact publishing?_finish _ _
    | sent result =>
      cases result with
      | ok => rfl
      | error cause => exact publishing?_finish _ _
    | _ => simp [awaits] at fits
  | subscribing resource =>
    cases stimulus with
    | subscribed result lifetimeOver =>
      cases result with
      | ok subscription => rfl
      | error cause =>
        cases lifetimeOver with
        | true => rfl
        | false => exact publishing?_finish _ _
    | _ => simp [awaits] at fits
  | publishing event =>
    cases stimulus with
    | published result => rfl
    | _ => simp [awaits] at fits
  | releasing subscription sequel =>
    cases stimulus with
    | released result => cases sequel <;> rfl
    | _ => simp [awaits] at fits
  | ended result => simp [awaits] at fits

/-- What is published is what is asked for by the phase that a session enters. -/
theorem filterMap_published?_interactions {session : Session} {happening : Happening}
    (fits : session.awaits happening.stimulus = true) :
    ((session.interactions happening).map Activity.interacted).filterMap Activity.published? =
      (session.meet happening).phase.publishing?.toList := by
  have granted : ((grant happening.stimulus).map Activity.interacted).filterMap
      Activity.published? = [] := by
    unfold grant
    split <;> rfl
  simp only [interactions, if_pos fits, List.map_append, List.filterMap_append, granted,
    List.nil_append]
  cases phase : (session.meet happening).phase <;>
    simp [request?, phase, Phase.publishing?, Activity.published?]

/-- What one thing makes a session publish is what ought to be published, and it holds what its
interactions leave it. -/
theorem published_activities {session : Session} (orderly : session.Orderly)
    (happening : Happening) :
    (session.activities happening).filterMap Activity.published? =
        Activity.allDue session.held (session.activities happening) ∧
      Activity.heldAfter session.held (session.activities happening) =
        (session.meet happening).held := by
  have balanced := (balance_interactions orderly happening).1
  unfold activities
  split
  next fits =>
    have interacted := filterMap_published?_interactions fits
    rw [meet, publishing?_react fits] at interacted
    have after := Activity.heldAfter_of_balance? balanced
    -- The command, if one came, is the only activity that can ask for a publish.
    cases isCommand : happening.stimulus.command? with
    | none => simpa [isCommand, interacted, Activity.allDue_interacted] using after
    | some command =>
      rw [isCommand, Option.bind_some] at interacted
      simp only [Option.toList_some, List.map_cons, List.map_nil, List.singleton_append,
        List.filterMap_cons, Activity.published?, interacted, Activity.allDue,
          Activity.allDue_interacted,
        List.append_nil, true_and]
      exact after
  next unfit =>
    rw [meet, react_of_not_awaits (Bool.eq_false_iff.2 unfit)]
    exact ⟨rfl, rfl⟩

end Session

/-! ## The trace of a course -/

namespace Course

/-- What a moment brings to the session, if anything. -/
def happening? (course : Course) : Moment → Option Happening
  | .turn turn => (course.session.choose? (course.observation turn)).map (⟨turn.counts, ·⟩)
  | .granted subscription _ => some ⟨.empty, .subscribed (.ok subscription) false⟩
  | .refused cause lifetimeOver => some ⟨.empty, .subscribed (.error cause) lifetimeOver⟩
  | .published result => some ⟨.empty, .published result⟩
  | .released result => some ⟨.empty, .released result⟩
  | .posted _ | .hungUp => none

def activities (course : Course) (moment : Moment) : List Activity :=
  (course.happening? moment).elim [] course.session.activities

/-- All that the session does in some moments. -/
def trace (course : Course) : List Moment → List Activity
  | [] => []
  | moment :: moments => course.activities moment ++ (course.meet moment).trace moments

/-- A moment matters to the session by what it brings to it. -/
theorem session_meet (course : Course) (moment : Moment) :
    (course.meet moment).session =
      (course.happening? moment).elim course.session course.session.meet := by
  cases moment with
  | turn turn =>
    simp only [meet, happening?]
    cases course.session.choose? (course.observation turn) with
    | none => exact course.session_present turn
    | some stimulus => simp only [react, session_present]; rfl
  | granted subscription capacity =>
    simp only [meet, grant, happening?, Option.elim_some, Session.meet]
    split
    next => rfl
    next elsewhere =>
      refine (Session.react_of_not_awaits ?_).symm
      cases phase : course.session.phase with
      | subscribing resource => exact absurd phase (elsewhere resource)
      | _ => simp [Session.awaits, phase]
  | refused | published | released => rfl
  | posted | hungUp => rfl

theorem orderly_meet {course : Course} (orderly : course.session.Orderly) (moment : Moment) :
    (course.meet moment).session.Orderly := by
  rw [session_meet]
  cases course.happening? moment with
  | none => exact orderly
  | some happening => exact (Session.balance_interactions orderly happening).2

theorem orderly_follow {course : Course} (orderly : course.session.Orderly)
    (moments : List Moment) : (course.follow moments).session.Orderly := by
  induction moments generalizing course with
  | nil => exact orderly
  | cons moment moments inductionHypothesis =>
    exact inductionHypothesis (orderly_meet orderly moment)

theorem published_trace {course : Course} (orderly : course.session.Orderly)
    (moments : List Moment) :
    (course.trace moments).filterMap Activity.published? =
        Activity.allDue course.session.held (course.trace moments) ∧
      Activity.heldAfter course.session.held (course.trace moments) =
        (course.follow moments).session.held := by
  induction moments generalizing course with
  | nil => exact ⟨rfl, rfl⟩
  | cons moment moments inductionHypothesis =>
    have step : (course.activities moment).filterMap Activity.published? =
          Activity.allDue course.session.held (course.activities moment) ∧
        Activity.heldAfter course.session.held (course.activities moment) =
          (course.meet moment).session.held := by
      rw [activities, session_meet]
      cases course.happening? moment with
      | none => exact ⟨rfl, rfl⟩
      | some happening => exact Session.published_activities orderly happening
    obtain ⟨published, held⟩ := step
    obtain ⟨rest, final⟩ := inductionHypothesis (orderly_meet orderly moment)
    constructor
    · rw [trace, List.filterMap_append, published, rest, Activity.allDue_append, held]
    · rw [trace, Activity.heldAfter_append, held, final]
      rfl

/-- A command that asks for nothing is heeded, and that is all. -/
theorem meet_of_idle {course : Course} {turn : Turn} {command : Command}
    (chosen : course.session.choose? (course.observation turn) =
      some (.command (some (.ok command))))
    (idle : command.Idle course.session.held turn.counts) :
    course.meet (.turn turn) = course ∧
      course.activities (.turn turn) = [.heeded command turn.counts] := by
  have listens : course.session.phase = .listening := by
    cases choice_of_choose? chosen with
    | command listens => exact listens
  have same : course.session.react turn.counts (.command (some (.ok command))) =
      course.session := by
    simpa [Session.react, listens] using Session.apply_of_idle listens idle
  constructor
  · simp only [meet, chosen, present_of_listening listens, react, account, listens, same]
  · simp [activities, happening?, chosen, Session.activities, Session.interactions, Session.awaits,
      Session.grant, Session.meet, Session.request?, Stimulus.command?, listens, same]

/-- Whatever comes of a publish, the session listens again and nothing else changes. -/
theorem meet_published {course : Course} {event : Event}
    (publishes : course.session.phase = .publishing event) (result : Except BrokerFailure Unit) :
    course.meet (.published result) =
      { course with session := course.session.enter .listening } := by
  rw [meet, react_answer course _ rfl]
  simp only [Session.react, publishes]

/-- An answer to a publish that was not asked for changes nothing. -/
theorem meet_published_of_ne {course : Course}
    (other : ∀ event, course.session.phase ≠ .publishing event)
    (result : Except BrokerFailure Unit) : course.meet (.published result) = course := by
  have unfit : course.session.awaits (.published result) = false := by
    cases phase : course.session.phase with
    | publishing event => exact absurd phase (other event)
    | _ => simp [Session.awaits, phase]
  rw [meet, react_answer course _ rfl, Session.react_of_not_awaits unfit]

/-- No answer to a publish makes a session do anything. -/
theorem activities_published (course : Course) (result : Except BrokerFailure Unit) :
    course.activities (.published result) = [] := by
  cases phase : course.session.phase <;>
    simp [activities, happening?, Session.activities, Session.interactions, Session.awaits,
      Session.grant,
      Session.meet, Session.react, Session.enter, Session.request?, Stimulus.command?, phase]

/-- In every course of a session, the publishes that it asks for are, in order, those that its
commands ought to bring about: one for each update of the resource of the subscription that is held
then, if its count is known, with this count. A command with an unknown action, for a resource that
is not held or not counted, or for a subscription to what is held already, makes it do nothing, and
leaves its subscription and its mailbox as they are. What comes of a publish makes no difference:
the session goes on listening. -/
theorem publishes_valid_updates (moments : List Moment) :
    let course := start.follow moments
    let trace := start.trace moments
    trace.filterMap Activity.published? = Activity.allDue none trace ∧
      Activity.heldAfter none trace = course.session.held ∧
      (∀ turn command,
        course.session.choose? (course.observation turn) = some (.command (some (.ok command))) →
        command.Idle course.session.held turn.counts →
          course.meet (.turn turn) = course ∧
            course.activities (.turn turn) = [.heeded command turn.counts]) ∧
      ∀ result, course.activities (.published result) = [] ∧
        (∀ event, course.session.phase = .publishing event →
          course.meet (.published result) =
            { course with session := course.session.enter .listening }) ∧
        ((∀ event, course.session.phase ≠ .publishing event) →
          course.meet (.published result) = course) := by
  intro course trace
  have orderly : start.session.Orderly := trivial
  obtain ⟨published, held⟩ := published_trace orderly moments
  refine ⟨published, held, fun turn command => meet_of_idle, fun result => ⟨?_, ?_, ?_⟩⟩
  · exact course.activities_published result
  · exact fun event publishes => meet_published publishes result
  · exact fun other => meet_published_of_ne other result

/-- A client asks for updates before it holds anything, of another resource, of one that is not
counted, and twice of the one that it holds, in between which a publish fails. -/
def repeatedUpdates : List Moment :=
  let ask : String → String → Moment := fun resource action =>
    .turn ⟨ChangeCounts.empty.set "door" 4, false, .item (.ok ⟨resource, action⟩), none⟩
  [ask "door" "update", ask "door" "subscribe", .granted ⟨⟨1⟩, "door", 0⟩ 8,
    ask "gate" "update", ask "door" "rename", ask "door" "update", .published (.error .closed),
    ask "door" "subscribe", ask "door" "update", .published (.ok ()), ask "gate" "subscribe",
    .released (.ok ()), .granted ⟨⟨2⟩, "gate", 1⟩ 8, ask "gate" "update"]

example : (start.trace repeatedUpdates).filterMap Activity.published? =
    [⟨"door", 4, "Project door updated"⟩, ⟨"door", 4, "Project door updated"⟩] := by decide

end Course

end UpdateRelay
