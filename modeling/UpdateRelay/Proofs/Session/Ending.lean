import UpdateRelay.Proofs.Session.Delivery
import UpdateRelay.Proofs.Session.Trace

/-!
# Why a session ends

The result of a session tells what ended it. `Course.Ending` lists what can, each with its result: a
failure of the client's commands, of sending or of subscribing ends it with that failure; the end of
its lifetime, of the commands or of the events of the held subscription ends it well. What it turns
to when several of these come together is settled by `Session.choose?`, where the end of its
lifetime counts before anything else.
-/

namespace UpdateRelay

/-! ## The end of a lifetime -/

/-- A moment as it is while the lifetime of the session is over, or while it is not. -/
def Moment.stamp (isOver : Bool) : Moment → Moment
  | .turn seen => .turn { seen with lifetimeOver := isOver }
  | .refused cause _ => .refused cause isOver
  | moment => moment

/-- What happens around a session whose lifetime ends at some point. -/
def Moment.lifetime (before after : List Moment) : List Moment :=
  before.map (stamp false) ++ after.map (stamp true)

/-- The result that a session is about to end with, or has ended with. -/
def Phase.outcome? : Phase → Option (Except SessionFailure Unit)
  | releasing _ (.finish result) => some result
  | ended result => some result
  | _ => none

theorem Phase.outcome?_eq_none_iff {phase : Phase} :
    phase.outcome? = none ↔ phase.isLast = false := by
  rcases phase with _ | _ | _ | _ | ⟨_, _ | _⟩ | _ <;> simp [outcome?, isLast]

theorem Session.outcome?_finish (session : Session) (result : Except SessionFailure Unit) :
    (session.finish result).phase.outcome? = some result := by
  unfold finish
  split <;> rfl

theorem Session.outcome?_of_result? {session : Session} {result : Except SessionFailure Unit}
    (ended : session.result? = some result) : session.phase.outcome? = some result := by
  unfold result? at ended
  split at ended
  next phase => rw [phase]; exact ended
  next => contradiction

theorem Session.outcome?_react {session : Session} {result : Except SessionFailure Unit}
    (last : session.phase.outcome? = some result) (counts : ChangeCounts) (stimulus : Stimulus) :
    (session.react counts stimulus).phase.outcome? = some result := by
  obtain ⟨held, phase⟩ := session
  rcases phase with _ | _ | _ | _ | ⟨_, _ | other⟩ | other <;> try contradiction
  case releasing.finish => cases stimulus <;> exact last
  case ended => cases stimulus <;> exact last

/-- What a session does not wait for does not bring it to its end. -/
theorem Session.awaits_of_outcome? {session : Session} {counts : ChangeCounts} {stimulus : Stimulus}
    {result : Except SessionFailure Unit} (early : session.phase.outcome? = none)
    (ends : (session.react counts stimulus).phase.outcome? = some result) :
    session.awaits stimulus = true := by
  by_contra unfit
  rw [react_of_not_awaits (Bool.eq_false_iff.2 unfit), early] at ends
  contradiction

namespace Course

/-- What ends a session, with the result that it has then. -/
inductive Ending (course : Course) : Moment → Except SessionFailure Unit → Prop
  | commandFailed {turn : Turn} {cause : SessionFailure}
      (listens : course.session.phase = .listening) (going : turn.lifetimeOver = false)
      (failed : turn.command = .item (.error cause)) : Ending course (.turn turn) (.error cause)
  | sendFailed {turn : Turn} {event : Event} {cause : SessionFailure}
      (sends : course.session.phase = .sending event) (going : turn.lifetimeOver = false)
      (failed : turn.send = some (.error cause)) : Ending course (.turn turn) (.error cause)
  | subscribeFailed {resource : String} {cause : BrokerFailure}
      (subscribes : course.session.phase = .subscribing resource) :
      Ending course (.refused cause false) (.error (.broker cause))
  | lifetimeOver {turn : Turn}
      (waits : course.session.phase = .listening ∨ ∃ event, course.session.phase = .sending event)
      (isOver : turn.lifetimeOver = true) : Ending course (.turn turn) (.ok ())
  | commandsEnded {turn : Turn} (listens : course.session.phase = .listening)
      (going : turn.lifetimeOver = false) (finished : turn.command = .ended) :
      Ending course (.turn turn) (.ok ())
  | eventsEnded {turn : Turn} {holding : Holding} (listens : course.session.phase = .listening)
      (going : turn.lifetimeOver = false) (quiet : turn.command = .nothing)
      (holds : course.session.held = some holding.subscription)
      (isCurrent : course.current = some holding) (finished : holding.mail = .ended) :
      Ending course (.turn turn) (.ok ())

variable {course : Course}

/-! ## One moment -/

theorem choose?_listening {turn : Turn} (listens : course.session.phase = .listening)
    (going : turn.lifetimeOver = false) : course.session.choose? (course.observation turn) =
      (Session.stimulusOf .command turn.command).or
        (if course.session.held.isSome then
          Session.stimulusOf .event (course.current.elim .nothing Holding.mail) else none) := by
  simp [Session.choose?, listens, going, observation]

theorem choose?_sending {turn : Turn} {event : Event}
    (sends : course.session.phase = .sending event) (going : turn.lifetimeOver = false) :
    course.session.choose? (course.observation turn) = turn.send.map .sent := by
  simp [Session.choose?, sends, going, observation]

theorem choose?_of_over {turn : Turn} (waits : course.session.phase = .listening ∨
      ∃ event, course.session.phase = .sending event) (isOver : turn.lifetimeOver = true) :
    course.session.choose? (course.observation turn) = some .lifetimeOver := by
  rcases waits with listens | ⟨event, sends⟩
  · simp [Session.choose?, listens, isOver, observation]
  · simp [Session.choose?, sends, isOver, observation]

theorem session_meet_turn (turn : Turn) {stimulus : Stimulus}
    (chosen : course.session.choose? (course.observation turn) = some stimulus) :
    (course.meet (.turn turn)).session = course.session.react turn.counts stimulus := by
  rw [session_meet, happening?, chosen]
  rfl

/-- What ends a session makes it come to an end with its result. -/
theorem Ending.session_meet {moment : Moment} {result : Except SessionFailure Unit}
    (ending : course.Ending moment result) :
    (course.meet moment).session = course.session.finish result := by
  cases ending with
  | @commandFailed turn cause listens going failed =>
    have chosen : course.session.choose? (course.observation turn) =
        some (.command (some (.error cause))) := by
      rw [choose?_listening listens going, failed]
      rfl
    rw [session_meet_turn turn chosen]
    simp only [Session.react, listens]
  | @sendFailed turn event cause sends going failed =>
    have chosen : course.session.choose? (course.observation turn) =
        some (.sent (.error cause)) := by
      rw [choose?_sending sends going, failed]
      rfl
    rw [session_meet_turn turn chosen]
    simp only [Session.react, sends]
  | subscribeFailed subscribes =>
    rw [Course.session_meet]
    simp [happening?, Session.meet, Session.react, subscribes]
  | @lifetimeOver turn waits isOver =>
    rw [session_meet_turn turn (choose?_of_over waits isOver)]
    rcases waits with listens | ⟨event, sends⟩
    · simp only [Session.react, listens]
    · simp only [Session.react, sends]
  | @commandsEnded turn listens going finished =>
    have chosen : course.session.choose? (course.observation turn) = some (.command none) := by
      rw [choose?_listening listens going, finished]
      rfl
    rw [session_meet_turn turn chosen]
    simp only [Session.react, listens]
  | @eventsEnded turn holding listens going quiet holds isCurrent finished =>
    have chosen : course.session.choose? (course.observation turn) = some (.event none) := by
      simp [choose?_listening listens going, quiet, holds, isCurrent, finished, Session.stimulusOf]
    rw [session_meet_turn turn chosen]
    simp only [Session.react, listens]

theorem session_meet_idle (turn : Turn)
    (idle : course.session.choose? (course.observation turn) = none) :
    (course.meet (.turn turn)).session = course.session := by
  rw [session_meet, happening?, idle]
  rfl

section Turns

variable {turn : Turn} {result : Except SessionFailure Unit}

/-- A listening session ends by its commands, or by its events while there are no commands. -/
theorem ending_of_listening (sound : course.Sound) (listens : course.session.phase = .listening)
    (going : turn.lifetimeOver = false)
    (ends : (course.meet (.turn turn)).session.phase.outcome? = some result) :
    course.Ending (.turn turn) result := by
  have choice := choose?_listening listens going
  cases seen : turn.command with
  | item item =>
    rw [seen] at choice
    rw [session_meet_turn turn choice] at ends
    cases item with
    | error cause =>
      simp only [Session.react, listens, Session.outcome?_finish] at ends
      obtain rfl := Option.some.inj ends
      exact .commandFailed listens going seen
    | ok command =>
      have calm := course.session.isCalm_apply turn.counts command
      have last := Phase.outcome?_eq_none_iff.2 (Phase.isLast_eq_false_of_isCalm calm)
      simp only [Session.react, listens, last] at ends
      contradiction
  | ended =>
    rw [seen] at choice
    rw [session_meet_turn turn choice] at ends
    simp only [Session.react, listens, Session.outcome?_finish] at ends
    obtain rfl := Option.some.inj ends
    exact .commandsEnded listens going seen
  | nothing =>
    have idle : course.session.choose? (course.observation turn) ≠ none := by
      intro idle
      rw [session_meet_idle turn idle, listens] at ends
      contradiction
    cases isHeld : course.session.held with
    | none => simp [choice, seen, isHeld, Session.stimulusOf] at idle
    | some subscription =>
      obtain ⟨holding, isCurrent, rfl⟩ := sound.held isHeld
      simp only [seen, isHeld, isCurrent, Session.stimulusOf, Option.isSome_some, if_true,
        Option.elim_some, Option.none_or] at choice
      cases mail : holding.mail with
      | nothing => simp [choice, mail] at idle
      | item event =>
        rw [mail] at choice
        rw [session_meet_turn turn choice] at ends
        simp only [Session.react, listens, Session.enter, Phase.outcome?] at ends
        contradiction
      | ended =>
        rw [mail] at choice
        rw [session_meet_turn turn choice] at ends
        simp only [Session.react, listens, Session.outcome?_finish] at ends
        obtain rfl := Option.some.inj ends
        exact .eventsEnded listens going seen isHeld isCurrent mail

/-- A sending session ends by a failure to send. -/
theorem ending_of_sending {event : Event} (sends : course.session.phase = .sending event)
    (going : turn.lifetimeOver = false)
    (ends : (course.meet (.turn turn)).session.phase.outcome? = some result) :
    course.Ending (.turn turn) result := by
  have choice := choose?_sending sends going
  cases sent : turn.send with
  | none =>
    rw [sent] at choice
    rw [session_meet_idle turn choice, sends] at ends
    contradiction
  | some sending =>
    rw [sent] at choice
    rw [session_meet_turn turn choice] at ends
    rcases sending with cause | ⟨⟩
    · simp only [Session.react, sends, Session.outcome?_finish] at ends
      obtain rfl := Option.some.inj ends
      exact .sendFailed sends going sent
    · simp only [Session.react, sends, Session.enter, Phase.outcome?] at ends
      contradiction

theorem ending_of_turn (sound : course.Sound) (early : course.session.phase.outcome? = none)
    (ends : (course.meet (.turn turn)).session.phase.outcome? = some result) :
    course.Ending (.turn turn) result := by
  by_cases waits : course.session.phase = .listening ∨
      ∃ event, course.session.phase = .sending event
  · cases isOver : turn.lifetimeOver with
    | true =>
      have ending : course.Ending (.turn turn) (.ok ()) := .lifetimeOver waits isOver
      rw [ending.session_meet, Session.outcome?_finish] at ends
      exact Option.some.inj ends ▸ ending
    | false =>
      rcases waits with listens | ⟨event, sends⟩
      · exact ending_of_listening sound listens isOver ends
      · exact ending_of_sending sends isOver ends
  · have idle : course.session.choose? (course.observation turn) = none := by
      cases phase : course.session.phase <;> simp_all [Session.choose?]
    rw [session_meet_idle turn idle, early] at ends
    contradiction

end Turns

/-- A session that has not come to its end does so by what ends it, and by nothing else. -/
theorem outcome?_meet (sound : course.Sound) (early : course.session.phase.outcome? = none)
    (moment : Moment) (result : Except SessionFailure Unit) :
    (course.meet moment).session.phase.outcome? = some result ↔ course.Ending moment result := by
  constructor
  · intro ends
    cases moment with
    | turn turn => exact ending_of_turn sound early ends
    | posted | hungUp =>
      rw [show course.session.phase.outcome? = some result from ends] at early
      contradiction
    | granted subscription capacity =>
      rw [session_meet] at ends
      have fits := Session.awaits_of_outcome? early ends
      cases phase : course.session.phase with
      | subscribing resource =>
        simp [happening?, Session.meet, Session.react, phase, Phase.outcome?] at ends
      | _ => simp [Session.awaits, phase] at fits
    | refused cause lifetimeOver =>
      have fits := Session.awaits_of_outcome? early ends
      cases phase : course.session.phase with
      | subscribing resource =>
        cases lifetimeOver with
        | true =>
          simp [meet, react, Session.react, phase, Session.enter, Phase.outcome?] at ends
        | false =>
          have ending : course.Ending (.refused cause false) (.error (.broker cause)) :=
            .subscribeFailed phase
          rw [ending.session_meet, Session.outcome?_finish] at ends
          exact Option.some.inj ends ▸ ending
      | _ => simp [Session.awaits, phase] at fits
    | published answer =>
      have fits := Session.awaits_of_outcome? early ends
      cases phase : course.session.phase with
      | publishing event =>
        simp [meet, react, Session.react, phase, Session.enter, Phase.outcome?] at ends
      | _ => simp [Session.awaits, phase] at fits
    | released answer =>
      have fits := Session.awaits_of_outcome? early ends
      cases phase : course.session.phase with
      | releasing subscription sequel =>
        cases sequel with
        | subscribe resource =>
          simp [meet, react, Session.react, phase, Session.enter, Phase.outcome?] at ends
        | finish other =>
          rw [phase] at early
          contradiction
      | _ => simp [Session.awaits, phase] at fits
  · intro ending
    rw [ending.session_meet, Session.outcome?_finish]

/-! ## What comes after -/

/-- Nothing ends a session that has come to its end. -/
theorem Ending.early {moment : Moment} {result : Except SessionFailure Unit}
    (ending : course.Ending moment result) : course.session.phase.outcome? = none := by
  cases ending with
  | commandFailed listens | commandsEnded listens | eventsEnded listens => rw [listens]; rfl
  | sendFailed sends => rw [sends]; rfl
  | subscribeFailed subscribes => rw [subscribes]; rfl
  | lifetimeOver waits =>
    rcases waits with listens | ⟨event, sends⟩
    · rw [listens]; rfl
    · rw [sends]; rfl

/-- Nothing changes the result that a session is about to end with. -/
theorem outcome?_meet_of_some {result : Except SessionFailure Unit}
    (last : course.session.phase.outcome? = some result) (moment : Moment) :
    (course.meet moment).session.phase.outcome? = some result := by
  rw [session_meet]
  cases course.happening? moment with
  | none => exact last
  | some happening => exact Session.outcome?_react last happening.counts happening.stimulus

theorem outcome?_follow_of_some {result : Except SessionFailure Unit}
    (last : course.session.phase.outcome? = some result) (moments : List Moment) :
    (course.follow moments).session.phase.outcome? = some result := by
  induction moments generalizing course with
  | nil => exact last
  | cons moment moments inductionHypothesis =>
    exact inductionHypothesis (outcome?_meet_of_some last moment)

/-- A session has come to its end just when something ended it on the way. -/
theorem outcome?_follow (moments : List Moment) (result : Except SessionFailure Unit) :
    (start.follow moments).session.phase.outcome? = some result ↔
      ∃ earlier moment later, moments = earlier ++ moment :: later ∧
        (start.follow earlier).Ending moment result := by
  constructor
  · intro last
    induction moments using List.reverseRecOn with
    | nil => contradiction
    | append_singleton earlier moment inductionHypothesis =>
      rw [follow_append] at last
      cases before : (start.follow earlier).session.phase.outcome? with
      | none =>
        have ending := (outcome?_meet (sound_start.follow earlier) before moment result).1 last
        exact ⟨earlier, moment, [], rfl, ending⟩
      | some other =>
        obtain rfl : other = result :=
          Option.some.inj ((outcome?_meet_of_some before moment).symm.trans last)
        obtain ⟨first, cause, between, rfl, ending⟩ := inductionHypothesis before
        exact ⟨first, cause, between ++ [moment], by simp, ending⟩
  · rintro ⟨earlier, moment, later, rfl, ending⟩
    have last : ((start.follow earlier).meet moment).session.phase.outcome? = some result := by
      rw [ending.session_meet, Session.outcome?_finish]
    rw [follow_append]
    exact outcome?_follow_of_some last later

theorem session_follow_ended {result : Except SessionFailure Unit}
    (ended : course.session = ⟨none, .ended result⟩) (moments : List Moment) :
    (course.follow moments).session = ⟨none, .ended result⟩ := by
  induction moments generalizing course with
  | nil => exact ended
  | cons moment moments inductionHypothesis =>
    refine inductionHypothesis ?_
    rw [session_meet, ended]
    cases course.happening? moment with
    | none => rfl
    | some happening =>
      have unfit : Session.awaits ⟨none, .ended result⟩ happening.stimulus = false := by
        simp [Session.awaits]
      simp only [Option.elim_some, Session.meet, Session.react_of_not_awaits unfit]

/-- A session that releases its last subscription waits for this, and ends with it. -/
theorem session_meet_releasing {subscription : Subscription}
    {result : Except SessionFailure Unit}
    (releases : course.session = ⟨none, .releasing subscription (.finish result)⟩)
    (moment : Moment) :
    (∃ answer, moment = .released answer) ∧ (course.meet moment).session = ⟨none, .ended result⟩ ∨
      (∀ answer, moment ≠ .released answer) ∧ (course.meet moment).session = course.session := by
  cases moment with
  | released answer =>
    refine Or.inl ⟨⟨answer, rfl⟩, ?_⟩
    simp [session_meet, happening?, releases, Session.meet, Session.react, Session.enter]
  | turn turn =>
    have last : course.session.phase.isLast = true := by rw [releases]; rfl
    exact Or.inr ⟨fun _ => by simp, by rw [meet_turn_of_isLast last]⟩
  | granted | refused | published =>
    refine Or.inr ⟨fun _ => by simp, ?_⟩
    simp [session_meet, happening?, releases, Session.meet, Session.react]
  | posted | hungUp => exact Or.inr ⟨fun _ => by simp, rfl⟩

theorem result?_follow_releasing {subscription : Subscription}
    {result : Except SessionFailure Unit}
    (releases : course.session = ⟨none, .releasing subscription (.finish result)⟩)
    (moments : List Moment) : (course.follow moments).session.result? = some result ↔
      ∃ answer, Moment.released answer ∈ moments := by
  induction moments generalizing course with
  | nil => simp [follow, releases, Session.result?]
  | cons moment moments inductionHypothesis =>
    have onward : course.follow (moment :: moments) = (course.meet moment).follow moments := rfl
    rcases session_meet_releasing releases moment with ⟨⟨answer, rfl⟩, ended⟩ | ⟨other, same⟩
    · rw [onward, session_follow_ended ended]
      exact ⟨fun _ => ⟨answer, List.mem_cons_self⟩, fun _ => rfl⟩
    · rw [onward, inductionHypothesis (same.trans releases)]
      refine exists_congr fun answer => ?_
      simp [List.mem_cons, Ne.symm (other answer)]

/-- A session that comes to its end has its result at once if it holds nothing, and else when its
subscription is released. -/
theorem result?_follow_finish {session : Session} {result : Except SessionFailure Unit}
    (finishes : course.session = session.finish result) (moments : List Moment) :
    (course.follow moments).session.result? = some result ↔
      session.held = none ∨ ∃ answer, Moment.released answer ∈ moments := by
  unfold Session.finish at finishes
  cases isHeld : session.held with
  | none =>
    rw [isHeld] at finishes
    rw [session_follow_ended finishes]
    exact ⟨fun _ => Or.inl rfl, fun _ => rfl⟩
  | some subscription =>
    rw [isHeld] at finishes
    rw [result?_follow_releasing finishes]
    simp

/-- A session has a result just when something ended it on the way and what it held was released. -/
theorem result?_follow (moments : List Moment) (result : Except SessionFailure Unit) :
    (start.follow moments).session.result? = some result ↔
      ∃ earlier moment later, moments = earlier ++ moment :: later ∧
        (start.follow earlier).Ending moment result ∧
        ((start.follow earlier).session.held = none ∨
          ∃ answer, Moment.released answer ∈ later) := by
  have after : ∀ {earlier moment later}, (start.follow earlier).Ending moment result →
      ((start.follow (earlier ++ moment :: later)).session.result? = some result ↔
        (start.follow earlier).session.held = none ∨ ∃ answer, Moment.released answer ∈ later) := by
    intro earlier moment later ending
    rw [follow_append]
    exact result?_follow_finish ending.session_meet later
  constructor
  · intro ended
    obtain ⟨earlier, moment, later, rfl, ending⟩ :=
      (outcome?_follow moments result).1 (Session.outcome?_of_result? ended)
    exact ⟨earlier, moment, later, rfl, ending, (after ending).1 ended⟩
  · rintro ⟨earlier, moment, later, rfl, ending, released⟩
    exact (after ending).2 released

/-! ## After the end of the lifetime -/

/-- Once its lifetime is over, a session ends well if it ends. -/
theorem Ending.of_stamp {moment : Moment} {result : Except SessionFailure Unit}
    (ending : course.Ending (moment.stamp true) result) : result = .ok () := by
  generalize stamped : moment.stamp true = seen at ending
  cases ending with
  | lifetimeOver | commandsEnded | eventsEnded => rfl
  | commandFailed _ going | sendFailed _ going =>
    cases moment <;> simp only [Moment.stamp, Moment.turn.injEq, reduceCtorEq] at stamped
    rw [← stamped] at going
    contradiction
  | subscribeFailed => cases moment <;> simp [Moment.stamp] at stamped

theorem outcome?_follow_stamped (sound : course.Sound)
    (early : ∀ result, course.session.phase.outcome? = some result → result = .ok ())
    {moments : List Moment} {result : Except SessionFailure Unit}
    (last : (course.follow (moments.map (Moment.stamp true))).session.phase.outcome? =
      some result) : result = .ok () := by
  induction moments generalizing course with
  | nil => exact early result last
  | cons moment moments inductionHypothesis =>
    refine inductionHypothesis (sound.meet (moment.stamp true)) (fun other ends => ?_) last
    cases before : course.session.phase.outcome? with
    | none => exact ((outcome?_meet sound before (moment.stamp true) other).1 ends).of_stamp
    | some same =>
      obtain rfl : same = other :=
        Option.some.inj ((outcome?_meet_of_some before (moment.stamp true)).symm.trans ends)
      exact early same before

/-- A waiting session that sees the end of its lifetime does nothing but come to its end. -/
theorem meet_of_over {turn : Turn} (waits : course.session.phase = .listening ∨
      ∃ event, course.session.phase = .sending event) (isOver : turn.lifetimeOver = true) :
    course.meet (.turn turn) = { course with session := course.session.finish (.ok ()) } := by
  have ending : course.Ending (.turn turn) (.ok ()) := .lifetimeOver waits isOver
  have presented : course.present turn = course := by
    rcases waits with listens | ⟨event, sends⟩
    · exact present_of_listening listens turn
    · simp [present, sends, isOver]
  have unaccounted : course.account .lifetimeOver = course := by
    rcases waits with listens | ⟨event, sends⟩
    · simp [account, listens]
    · simp [account, sends]
  have session := ending.session_meet
  simp only [meet, choose?_of_over waits isOver, presented, react, unaccounted] at session ⊢
  rw [session]

/-- All that it asks for then is the release of what it holds. -/
theorem activities_of_over {turn : Turn} (waits : course.session.phase = .listening ∨
      ∃ event, course.session.phase = .sending event) (isOver : turn.lifetimeOver = true) :
    course.activities (.turn turn) = course.session.held.toList.map fun subscription =>
      .interacted (.asked (.unsubscribe subscription.resource subscription.id)) := by
  have chosen := choose?_of_over waits isOver
  have met : course.session.react turn.counts .lifetimeOver = course.session.finish (.ok ()) := by
    rw [← session_meet_turn turn chosen, meet_of_over waits isOver]
  have awaits : course.session.awaits .lifetimeOver = true := by
    rcases waits with listens | ⟨event, sends⟩
    · simp [Session.awaits, listens]
    · simp [Session.awaits, sends]
  simp only [activities, happening?, chosen, Option.map_some, Option.elim_some, Session.activities,
    Session.interactions, Session.meet, met, awaits, if_true, Stimulus.command?, Session.grant]
  cases isHeld : course.session.held <;> simp [Session.finish, isHeld, Session.request?]

/-- A session that has come to its end does nothing more that can be told from outside. -/
theorem activities_of_isLast (last : course.session.phase.isLast = true) (moment : Moment) :
    course.activities moment = [] := by
  have quiet : ∀ happening, course.session.activities happening = [] := by
    rintro ⟨counts, stimulus⟩
    generalize course.session = session at last
    obtain ⟨held, phase⟩ := session
    rcases phase with _ | _ | _ | _ | ⟨_, _ | _⟩ | _ <;> try contradiction
    case releasing.finish =>
      cases stimulus <;> simp [Session.activities, Session.interactions, Session.awaits,
        Session.grant,
        Session.meet, Session.react, Session.enter, Session.request?, Stimulus.command?]
    case ended => simp [Session.activities, Session.awaits]
  rw [activities]
  cases course.happening? moment with
  | none => rfl
  | some happening => exact quiet happening

theorem trace_of_isLast (sound : course.Sound) (last : course.session.phase.isLast = true)
    (moments : List Moment) : course.trace moments = [] := by
  induction moments generalizing course with
  | nil => rfl
  | cons moment moments inductionHypothesis =>
    rw [trace, activities_of_isLast last,
      inductionHypothesis (sound.meet moment) (meet_of_isLast sound last moment).1,
      List.append_nil]

/-- A subscribe that fails when the lifetime is over ends nothing, but the next turn does. -/
theorem result?_of_refused {resource : String} (orderly : course.session.Orderly)
    (subscribes : course.session.phase = .subscribing resource) (cause : BrokerFailure)
    {turn : Turn} (isOver : turn.lifetimeOver = true) :
    ((course.meet (.refused cause true)).meet (.turn turn)).session.result? = some (.ok ()) := by
  have unheld : course.session.held = none := by
    rw [Session.Orderly, subscribes] at orderly
    exact orderly
  have listens : (course.meet (.refused cause true)).session = ⟨none, .listening⟩ := by
    rw [session_meet]
    simp [happening?, Session.meet, Session.react, subscribes, Session.enter, unheld]
  have waits : (course.meet (.refused cause true)).session.phase = .listening := by rw [listens]
  rw [meet_of_over (Or.inl waits) isOver, listens]
  rfl

/-- In every course of a session whose lifetime ends at some point, or never: it has a result just
when one of the things that end a session happened and what it held then was released, and this is
the result of that ending. If it had not come to its end when its lifetime ended, its result can
only be a good one, also where a subscribe fails afterwards. A session that sees the end of its
lifetime while it listens or sends asks for the release of what it holds and does nothing else, then
or later: it heeds no command, takes and hands on no event and asks for nothing. -/
theorem result_tells_why (before after : List Moment) :
    let moments := Moment.lifetime before after
    let course := start.follow moments
    (∀ result, course.session.result? = some result ↔
      ∃ earlier moment later, moments = earlier ++ moment :: later ∧
        (start.follow earlier).Ending moment result ∧
        ((start.follow earlier).session.held = none ∨
          ∃ answer, Moment.released answer ∈ later)) ∧
    ((start.follow (before.map (Moment.stamp false))).session.phase.isLast = false →
      ∀ result, course.session.result? = some result → result = .ok ()) ∧
    (∀ resource, course.session.phase = .subscribing resource → ∀ cause turn,
      turn.lifetimeOver = true →
        ((course.meet (.refused cause true)).meet (.turn turn)).session.result? =
          some (.ok ())) ∧
    ((course.session.phase = .listening ∨ ∃ event, course.session.phase = .sending event) →
      ∀ turn, turn.lifetimeOver = true →
        let left := course.meet (.turn turn)
        left = { course with session := course.session.finish (.ok ()) } ∧
        course.activities (.turn turn) = (course.session.held.toList.map fun subscription =>
          .interacted (.asked (.unsubscribe subscription.resource subscription.id))) ∧
        ∀ more, left.trace more = [] ∧ (left.follow more).handed = course.handed ∧
          (left.follow more).reached = course.reached ∧
          (left.follow more).holdings.map Holding.taken = course.holdings.map Holding.taken) := by
  intro moments course
  have sound : course.Sound := sound_start.follow moments
  refine ⟨result?_follow moments, ?good, ?refused, ?seen⟩
  case good =>
    intro early result ended
    have none := Phase.outcome?_eq_none_iff.2 early
    have last := Session.outcome?_of_result? ended
    simp only [course, moments, Moment.lifetime, follow_append] at last
    refine outcome?_follow_stamped (sound_start.follow _) (fun other is => ?_) last
    rw [none] at is
    contradiction
  case refused =>
    intro resource subscribes cause turn isOver
    have idle : start.session.Orderly := trivial
    exact result?_of_refused (orderly_follow idle moments) subscribes cause isOver
  case seen =>
    intro waits turn isOver left
    have isLeft : left = { course with session := course.session.finish (.ok ()) } :=
      meet_of_over waits isOver
    have last : left.session.phase.isLast = true := by
      rw [isLeft]
      exact Session.isLast_finish _ _
    have leftSound : left.Sound := sound.meet (.turn turn)
    refine ⟨isLeft, activities_of_over waits isOver, fun more => ?_⟩
    obtain ⟨handed, reached, taken⟩ := same_of_isLast leftSound last more
    refine ⟨trace_of_isLast leftSound last more, ?_, ?_, ?_⟩
    · rw [handed, isLeft]
    · rw [reached, isLeft]
    · rw [taken, isLeft]
      rfl

/-- The lifetime of a session ends while it is subscribing, with a failure of the client waiting. -/
def overtaken : List Moment :=
  Moment.lifetime
    [.turn ⟨.empty, false, .item (.ok ⟨"door", "subscribe"⟩), none⟩]
    [.refused .cancelled false, .turn ⟨.empty, false, .item (.error .disconnected), none⟩]

example : (start.follow overtaken).session.result? = some (.ok ()) := by rfl

end Course

end UpdateRelay
