import UpdateRelay.Proofs.Session.Interactions

/-!
# The course of a session

A session with all that it meets: turns, in which it sees whether its lifetime is over and what its
client and its mailbox have for it, and answers of its broker. Beside it stands what became of the
events of each subscription that it was granted: which of them came into its mailbox, how many the
session took, how many of these it handed to its client's sink and how many went through.

The broker, the client and the sink are not modelled: whatever they do, in whatever order, is a list
of moments. `Course.Sound` holds after every such list.
-/

namespace UpdateRelay

/-- A subscription that a session was granted, its mailbox and what became of its events: all that
came in, and how many of them were taken, handed to the sink and sent through. -/
structure Holding where
  subscription : Subscription
  box : Mailbox
  came : List Event
  taken : Nat
  handed : Nat
  reached : Nat
  deriving DecidableEq, Repr

namespace Holding

def start (subscription : Subscription) (capacity : Nat) : Holding :=
  ⟨subscription, .fresh capacity, [], 0, 0, 0⟩

/-- What the mailbox has for the session. -/
def mail (holding : Holding) : Intake Event :=
  match holding.box.receipt with
  | .event event => .item event
  | .empty => .nothing
  | .closed => .ended

/-- An event is sent to the mailbox, which may be full. -/
def post (holding : Holding) (event : Event) : Holding :=
  { holding with
    box := holding.box.offer event
    came := if holding.box.verdict = .delivered then holding.came ++ [event] else holding.came }

def hangUp (holding : Holding) : Holding := { holding with box := holding.box.hangUp }

def take (holding : Holding) : Holding :=
  { holding with box := holding.box.receive, taken := holding.taken + 1 }

def hand (holding : Holding) : Holding := { holding with handed := holding.handed + 1 }

def reach (holding : Holding) : Holding := { holding with reached := holding.reached + 1 }

end Holding

/-- What a session sees when it is its turn, its mailbox apart, and the counts of changes then. -/
structure Turn where
  counts : ChangeCounts
  lifetimeOver : Bool
  command : Intake CommandItem
  send : Option (Except SessionFailure Unit)

/-- What happens around a session: its turn comes, its broker answers, or an event or the end comes
to the mailbox of its last subscription. -/
inductive Moment
  | turn (turn : Turn)
  | granted (subscription : Subscription) (capacity : Nat)
  | refused (cause : BrokerFailure) (lifetimeOver : Bool)
  | published (result : Except BrokerFailure Unit)
  | released (result : Except BrokerFailure Unit)
  | posted (event : Event)
  | hungUp

/-- A session, the subscriptions that it was granted, oldest first, whether the event that it is
sending was handed to the sink, and the events that were handed to the sink and that went
through. -/
structure Course where
  session : Session
  past : List Holding
  current : Option Holding
  isHanded : Bool
  handed : List Event
  reached : List Event

namespace Course

def start : Course := ⟨.start, [], none, false, [], []⟩

/-- All subscriptions that were granted, oldest first. -/
def holdings (course : Course) : List Holding := course.past ++ course.current.toList

def modifyCurrent (course : Course) (change : Holding → Holding) : Course :=
  { course with current := course.current.map change }

/-- What a session sees when it is its turn. -/
def observation (course : Course) (turn : Turn) : Observation where
  lifetimeOver := turn.lifetimeOver
  command := turn.command
  event := course.current.elim .nothing Holding.mail
  send := turn.send

/-- The event that is being sent is handed to the sink, unless it was before or the lifetime of the
session is over. -/
def present (course : Course) (turn : Turn) : Course :=
  match course.session.phase with
  | .sending event =>
      if turn.lifetimeOver || course.isHanded then course
      else
        { course.modifyCurrent Holding.hand with
          isHanded := true
          handed := course.handed ++ [event] }
  | _ => course

/-- What becomes of events when a session reacts: one is taken, or one went through. -/
def account (course : Course) (stimulus : Stimulus) : Course :=
  match course.session.phase, stimulus with
  | .listening, .event (some _) => { course.modifyCurrent Holding.take with isHanded := false }
  | .sending event, .sent (.ok ()) =>
      { course.modifyCurrent Holding.reach with reached := course.reached ++ [event] }
  | _, _ => course

def react (course : Course) (counts : ChangeCounts) (stimulus : Stimulus) : Course :=
  { course.account stimulus with session := course.session.react counts stimulus }

/-- A broker's answer that grants a subscription to a session that waits for it. -/
def grant (course : Course) (subscription : Subscription) (capacity : Nat) : Course :=
  match course.session.phase with
  | .subscribing _ =>
      { course with
        session := course.session.react .empty (.subscribed (.ok subscription) false)
        past := course.holdings
        current := some (.start subscription capacity) }
  | _ => course

/-- The course after one moment. -/
def meet (course : Course) : Moment → Course
  | .turn turn =>
      let presented := course.present turn
      match course.session.choose? (course.observation turn) with
      | some stimulus => presented.react turn.counts stimulus
      | none => presented
  | .granted subscription capacity => course.grant subscription capacity
  | .refused cause lifetimeOver =>
      course.react .empty (.subscribed (.error cause) lifetimeOver)
  | .published result => course.react .empty (.published result)
  | .released result => course.react .empty (.released result)
  | .posted event => course.modifyCurrent (Holding.post · event)
  | .hungUp => course.modifyCurrent Holding.hangUp

def follow (course : Course) (moments : List Moment) : Course := moments.foldl meet course

end Course

/-! ## What holds of a held subscription -/

namespace Holding

/-- The events that were handed to the sink. -/
def handedEvents (holding : Holding) : List Event := holding.came.take holding.handed

/-- The events that went through. -/
def reachedEvents (holding : Holding) : List Event := holding.came.take holding.reached

/-- Whether what was not taken is what the mailbox has. -/
structure Queued (holding : Holding) : Prop where
  queue : holding.box.queue = holding.came.drop holding.taken
  taken : holding.taken ≤ holding.came.length

/-- Whether all that was taken went through. -/
structure Settled (holding : Holding) : Prop where
  handed : holding.handed = holding.taken
  reached : holding.reached = holding.taken

/-- Whether all that was taken went through but for one event. -/
structure Sends (holding : Holding) (event : Event) (isHanded : Bool) : Prop where
  taken : holding.taken = holding.reached + 1
  next : holding.came[holding.reached]? = some event
  handed : holding.handed = if isHanded then holding.taken else holding.reached

/-- Whether all that was taken went through, or all but the last event. -/
structure Closed (holding : Holding) : Prop where
  reached : holding.reached ≤ holding.handed
  handed : holding.handed ≤ holding.taken
  taken : holding.taken ≤ holding.reached + 1

theorem Settled.closed {holding : Holding} (settled : holding.Settled) : holding.Closed := by
  obtain ⟨handed, reached⟩ := settled
  constructor <;> omega

theorem Sends.closed {holding : Holding} {event : Event} {isHanded : Bool}
    (sends : holding.Sends event isHanded) : holding.Closed := by
  obtain ⟨taken, _, handed⟩ := sends
  cases isHanded <;> simp only [if_true, Bool.false_eq_true, if_false] at handed <;>
    constructor <;> omega

theorem Queued.post {holding : Holding} (queued : holding.Queued) (event : Event) :
    (holding.post event).Queued := by
  obtain ⟨queue, taken⟩ := queued
  by_cases delivered : holding.box.verdict = .delivered
  · refine ⟨?_, ?_⟩
    · simp only [Holding.post, Mailbox.queue_offer, if_pos delivered, queue]
      rw [List.drop_append_of_le_length taken]
    · simp only [Holding.post, if_pos delivered, List.length_append]
      omega
  · refine ⟨?_, ?_⟩
    · simp only [Holding.post, Mailbox.queue_offer, if_neg delivered, queue]
    · simp only [Holding.post, if_neg delivered, taken]

/-- What came in is only added to. -/
theorem came_post (holding : Holding) (event : Event) :
    holding.came <+: (holding.post event).came := by
  simp only [Holding.post]
  split
  next => exact List.prefix_append _ _
  next => exact List.prefix_refl _

/-- What the session takes is the first event that was not taken yet. -/
theorem Queued.next {holding : Holding} (queued : holding.Queued) {event : Event}
    (mail : holding.mail = .item event) :
    holding.came[holding.taken]? = some event ∧ holding.take.Queued := by
  have queue := queued.queue
  unfold Holding.mail Mailbox.receipt at mail
  cases rest : holding.box.queue with
  | nil =>
    rw [rest] at mail
    cases sender : holding.box.hasSender <;> simp [sender] at mail
  | cons first others =>
    simp only [rest, Intake.item.injEq] at mail
    subst mail
    rw [rest] at queue
    have next : holding.came[holding.taken]? = some first := by
      rw [← List.head?_drop, ← queue]
      rfl
    refine ⟨next, ?_, ?_⟩
    · simp only [Holding.take, Mailbox.receive, rest, List.tail_cons]
      rw [← List.tail_drop, ← queue, List.tail_cons]
    · exact (List.getElem?_eq_some_iff.1 next).1

end Holding

/-! ## What holds of every course -/

/-- Whether a phase comes before the end of a session and has no event in it. -/
def Phase.isCalm : Phase → Bool
  | .listening | .subscribing _ | .publishing _ | .releasing _ (.subscribe _) => true
  | .sending _ | .releasing _ (.finish _) | .ended _ => false

/-- Whether a phase is the end of a session or the release before it. -/
def Phase.isLast : Phase → Bool
  | .releasing _ (.finish _) | .ended _ => true
  | .listening | .subscribing _ | .publishing _ | .releasing _ (.subscribe _) | .sending _ => false

theorem Phase.isLast_eq_false_of_isCalm {phase : Phase} (calm : phase.isCalm = true) :
    phase.isLast = false := by
  rcases phase with _ | _ | _ | _ | ⟨_, _ | _⟩ | _ <;> first | rfl | contradiction

theorem Phase.calm_or_last_or_sending (phase : Phase) :
    phase.isCalm = true ∨ phase.isLast = true ∨ ∃ event, phase = .sending event := by
  rcases phase with _ | event | _ | _ | ⟨_, _ | _⟩ | _
  case sending => exact Or.inr (Or.inr ⟨event, rfl⟩)
  all_goals first | exact Or.inl rfl | exact Or.inr (Or.inl rfl)

/-- Whether something that happens is an answer of the broker that brings no subscription. -/
def Stimulus.isPlainAnswer : Stimulus → Bool
  | .subscribed (.error _) _ | .published _ | .released _ => true
  | _ => false

namespace Session

theorem of_stimulusOf_eq_some {α : Type} {make : Option α → Stimulus} {intake : Intake α}
    {stimulus : Stimulus} (made : stimulusOf make intake = some stimulus) :
    (∃ value, intake = .item value ∧ stimulus = make (some value)) ∨
      (intake = .ended ∧ stimulus = make none) := by
  cases intake with
  | nothing => contradiction
  | item value => exact Or.inl ⟨value, rfl, (Option.some.inj made).symm⟩
  | ended => exact Or.inr ⟨rfl, (Option.some.inj made).symm⟩

theorem isLast_finish (session : Session) (result : Except SessionFailure Unit) :
    (session.finish result).phase.isLast = true := by
  unfold finish
  split <;> rfl

theorem held_finish (session : Session) (result : Except SessionFailure Unit) :
    (session.finish result).held = none := by
  unfold finish
  split <;> rfl

theorem isCalm_apply (session : Session) (counts : ChangeCounts) (command : Command) :
    (session.apply counts command).phase.isCalm = true := by
  unfold apply
  split
  next =>
    split
    next => split <;> rfl
    next => rfl
  next =>
    split
    next => split <;> rfl
    next => rfl
  next => rfl

/-- A command leaves a session with the subscription that it held, or with none. -/
theorem held_apply (session : Session) (counts : ChangeCounts) (command : Command) :
    (session.apply counts command).held = session.held ∨
      (session.apply counts command).held = none := by
  unfold apply
  split
  next =>
    split
    next => split <;> simp [enter]
    next => exact Or.inl rfl
  next =>
    split
    next => split <;> exact Or.inl rfl
    next => exact Or.inl rfl
  next => exact Or.inl rfl

/-- An answer without a subscription leaves a session as it is, or takes it on with no event in it.
-/
theorem react_of_answer (session : Session) (counts : ChangeCounts) {stimulus : Stimulus}
    (answer : stimulus.isPlainAnswer = true) :
    session.react counts stimulus = session ∨
      (((session.react counts stimulus).phase.isCalm = true ∧ session.phase.isCalm = true) ∨
          (session.react counts stimulus).phase.isLast = true) ∧
        ((session.react counts stimulus).held = session.held ∨
          (session.react counts stimulus).held = none) := by
  obtain ⟨held, phase⟩ := session
  rcases stimulus with _ | _ | _ | _ | ⟨cause | subscription, lifetimeOver⟩ | result | result <;>
    try contradiction
  case subscribed.error =>
    cases phase with
    | subscribing resource =>
      refine Or.inr ?_
      cases lifetimeOver with
      | true => exact ⟨Or.inl ⟨rfl, rfl⟩, Or.inl rfl⟩
      | false => exact ⟨Or.inr (isLast_finish _ _), Or.inr (held_finish _ _)⟩
    | _ => exact Or.inl (react_of_not_awaits rfl)
  case published =>
    cases phase with
    | publishing event => exact Or.inr ⟨Or.inl ⟨rfl, rfl⟩, Or.inl rfl⟩
    | _ => exact Or.inl (react_of_not_awaits rfl)
  case released =>
    cases phase with
    | releasing subscription sequel =>
      cases sequel with
      | subscribe resource => exact Or.inr ⟨Or.inl ⟨rfl, rfl⟩, Or.inl rfl⟩
      | finish result => exact Or.inr ⟨Or.inr rfl, Or.inl rfl⟩
    | _ => exact Or.inl (react_of_not_awaits rfl)

end Session

/-- What a phase says of the last subscription that was granted. -/
def Holding.Fits (holding : Holding) (isHanded : Bool) (phase : Phase) : Prop :=
  match phase with
  | .sending event => holding.Sends event isHanded
  | _ => if phase.isCalm then holding.Settled else holding.Closed

theorem Holding.fits_of_isCalm {holding : Holding} {isHanded : Bool} {phase : Phase}
    (calm : phase.isCalm = true) : holding.Fits isHanded phase ↔ holding.Settled := by
  cases phase with
  | sending event => contradiction
  | _ => simp only [Fits, calm, if_true]

theorem Holding.fits_of_isLast {holding : Holding} {isHanded : Bool} {phase : Phase}
    (last : phase.isLast = true) : holding.Fits isHanded phase ↔ holding.Closed := by
  rcases phase with _ | _ | _ | _ | ⟨_, _ | _⟩ | _ <;>
    first | contradiction | exact Iff.rfl

theorem Holding.Fits.closed {holding : Holding} {isHanded : Bool} {phase : Phase}
    (fits : holding.Fits isHanded phase) : holding.Closed := by
  rcases phase with _ | _ | _ | _ | ⟨_, _ | _⟩ | _
  all_goals first | exact Settled.closed fits | exact Sends.closed fits | exact fits

/-- What comes in does not matter to what was taken. -/
theorem Holding.Fits.of_same {holding changed : Holding} {isHanded : Bool} {phase : Phase}
    (fits : holding.Fits isHanded phase) (came : holding.came <+: changed.came)
    (taken : changed.taken = holding.taken) (handed : changed.handed = holding.handed)
    (reached : changed.reached = holding.reached) : changed.Fits isHanded phase := by
  have settled : holding.Settled → changed.Settled := fun was =>
    ⟨by rw [handed, taken, was.handed], by rw [reached, taken, was.reached]⟩
  have closed : holding.Closed → changed.Closed := fun was =>
    ⟨by rw [reached, handed]; exact was.reached, by rw [handed, taken]; exact was.handed,
      by rw [taken, reached]; exact was.taken⟩
  rcases phase with _ | event | _ | _ | ⟨_, _ | _⟩ | _
  case sending =>
    obtain ⟨wasTaken, next, wasHanded⟩ := fits
    refine ⟨by rw [taken, reached, wasTaken], ?_, by rw [handed, taken, reached, wasHanded]⟩
    obtain ⟨more, split⟩ := came
    rw [← split, reached, List.getElem?_append_left (List.getElem?_eq_some_iff.1 next).1, next]
  all_goals first | exact settled fits | exact closed fits

namespace Course

/-- What holds of a course after whatever happened. -/
structure Sound (course : Course) : Prop where
  handed : course.handed = course.holdings.flatMap Holding.handedEvents
  reached : course.reached = course.holdings.flatMap Holding.reachedEvents
  past : ∀ holding ∈ course.past, holding.Settled
  queued : ∀ {holding}, course.current = some holding → holding.Queued
  fits : ∀ {holding}, course.current = some holding →
    holding.Fits course.isHanded course.session.phase
  held : ∀ {subscription}, course.session.held = some subscription →
    ∃ holding, course.current = some holding ∧ holding.subscription = subscription
  sending : ∀ {event}, course.session.phase = .sending event → course.session.held ≠ none

/-- A step that leaves the accounts alone and takes no event is sound. -/
theorem Sound.withSession {course : Course} (sound : course.Sound) {session : Session}
    (phase : (session.phase.isCalm = true ∧ course.session.phase.isCalm = true) ∨
      session.phase.isLast = true)
    (held : session.held = course.session.held ∨ session.held = none) :
    Sound { course with session := session } where
  handed := sound.handed
  reached := sound.reached
  past := sound.past
  queued := sound.queued
  fits := by
    intro holding isCurrent
    have fits := sound.fits isCurrent
    rcases phase with ⟨calm, wasCalm⟩ | last
    · exact (Holding.fits_of_isCalm calm).2 ((Holding.fits_of_isCalm wasCalm).1 fits)
    · exact (Holding.fits_of_isLast last).2 fits.closed
  held := by
    intro subscription isHeld
    rcases held with same | none
    · exact sound.held (same.symm.trans isHeld)
    · rw [none] at isHeld
      contradiction
  sending := by
    intro event sends
    simp only at sends
    rw [sends] at phase
    simp [Phase.isCalm, Phase.isLast] at phase

/-- The last subscription that was granted is the only one whose account changes. -/
theorem Sound.withCurrent {course : Course} (sound : course.Sound) {holding : Holding}
    (isCurrent : course.current = some holding) (changed : Holding) {session : Session}
    {isHanded : Bool} {handed reached : List Event}
    (isSame : changed.subscription = holding.subscription)
    (handedEvents : changed.handedEvents = holding.handedEvents ++ handed)
    (reachedEvents : changed.reachedEvents = holding.reachedEvents ++ reached)
    (queued : changed.Queued) (fits : changed.Fits isHanded session.phase)
    (held : session.held = course.session.held)
    (sending : ∀ {event}, session.phase = .sending event → session.held ≠ none) :
    Sound ⟨session, course.past, some changed, isHanded, course.handed ++ handed,
      course.reached ++ reached⟩ where
  handed := by
    simp only [sound.handed, holdings, isCurrent, Option.toList_some, List.flatMap_append,
      List.flatMap_singleton, handedEvents, List.append_assoc]
  reached := by
    simp only [sound.reached, holdings, isCurrent, Option.toList_some, List.flatMap_append,
      List.flatMap_singleton, reachedEvents, List.append_assoc]
  past := sound.past
  queued := fun same => Option.some.inj same ▸ queued
  fits := fun same => Option.some.inj same ▸ fits
  held := by
    intro subscription isHeld
    obtain ⟨last, isLast, same⟩ := sound.held (held.symm.trans isHeld)
    obtain rfl := Option.some.inj (isCurrent.symm.trans isLast)
    exact ⟨changed, rfl, isSame.trans same⟩
  sending := sending

/-- Events that come to a mailbox, and its end, change no account. -/
theorem Sound.modifyCurrent {course : Course} (sound : course.Sound) {change : Holding → Holding}
    (subscription : ∀ holding, (change holding).subscription = holding.subscription)
    (came : ∀ holding, holding.came <+: (change holding).came)
    (taken : ∀ holding, (change holding).taken = holding.taken)
    (handed : ∀ holding, (change holding).handed = holding.handed)
    (reached : ∀ holding, (change holding).reached = holding.reached)
    (queued : ∀ {holding}, holding.Queued → (change holding).Queued) :
    (course.modifyCurrent change).Sound := by
  cases isCurrent : course.current with
  | none =>
    have same : course.modifyCurrent change = course := by
      rw [Course.modifyCurrent, isCurrent, Option.map_none, ← isCurrent]
    rwa [same]
  | some holding =>
    have was := sound.queued isCurrent
    have fits := sound.fits isCurrent
    obtain ⟨wasReached, wasHanded, _⟩ := fits.closed
    have wasTaken := was.taken
    have first : ∀ {count}, count ≤ holding.came.length →
        (change holding).came.take count = holding.came.take count := by
      intro count inside
      obtain ⟨more, split⟩ := came holding
      rw [← split, List.take_append_of_le_length inside]
    have handedEvents : (change holding).handedEvents = holding.handedEvents ++ [] := by
      rw [List.append_nil, Holding.handedEvents, handed, first (by omega)]
      rfl
    have reachedEvents : (change holding).reachedEvents = holding.reachedEvents ++ [] := by
      rw [List.append_nil, Holding.reachedEvents, reached, first (by omega)]
      rfl
    have stillFits := fits.of_same (came holding) (taken holding) (handed holding) (reached holding)
    have later := sound.withCurrent isCurrent _ (subscription holding) handedEvents reachedEvents
      (queued was) stillFits rfl sound.sending
    simpa [Course.modifyCurrent, isCurrent] using later

/-! ## Turns -/

/-- What a session can turn to. -/
inductive Choice (course : Course) (turn : Turn) : Stimulus → Prop
  | lifetimeOver (waits : course.session.phase = .listening ∨
      ∃ event, course.session.phase = .sending event) (isOver : turn.lifetimeOver = true) :
      Choice course turn .lifetimeOver
  | command (listens : course.session.phase = .listening) (item : Option CommandItem) :
      Choice course turn (.command item)
  | event {holding : Holding} {event : Event} (listens : course.session.phase = .listening)
      (holds : course.session.held ≠ none) (isCurrent : course.current = some holding)
      (mail : holding.mail = .item event) : Choice course turn (.event (some event))
  | ended (listens : course.session.phase = .listening) : Choice course turn (.event none)
  | sent {event : Event} {result : Except SessionFailure Unit}
      (sends : course.session.phase = .sending event) (going : turn.lifetimeOver = false)
      (came : turn.send = some result) : Choice course turn (.sent result)

theorem choice_of_choose? {course : Course} {turn : Turn} {stimulus : Stimulus}
    (chosen : course.session.choose? (course.observation turn) = some stimulus) :
    Choice course turn stimulus := by
  unfold Session.choose? at chosen
  split at chosen
  next listens =>
    split at chosen
    next isOver =>
      obtain rfl := Option.some.inj chosen
      exact .lifetimeOver (Or.inl listens) isOver
    next =>
      rcases Option.or_eq_some_iff.1 chosen with command | ⟨_, event⟩
      · rcases Session.of_stimulusOf_eq_some command with ⟨item, _, rfl⟩ | ⟨_, rfl⟩
        · exact .command listens (some item)
        · exact .command listens none
      · split at event
        next holds =>
          rcases Session.of_stimulusOf_eq_some event with ⟨item, mail, rfl⟩ | ⟨_, rfl⟩
          · cases isCurrent : course.current with
            | none => simp [observation, isCurrent] at mail
            | some holding =>
              simp only [observation, isCurrent, Option.elim_some] at mail
              exact .event listens (Option.isSome_iff_ne_none.1 holds) isCurrent mail
          · exact .ended listens
        next => contradiction
  next event sends =>
    split at chosen
    next isOver =>
      obtain rfl := Option.some.inj chosen
      exact .lifetimeOver (Or.inr ⟨event, sends⟩) isOver
    next going =>
      obtain ⟨result, came, rfl⟩ := Option.map_eq_some_iff.1 chosen
      exact .sent sends (Bool.eq_false_iff.2 going) came
  next => contradiction

theorem session_present (course : Course) (turn : Turn) :
    (course.present turn).session = course.session := by
  unfold present
  split
  next => split <;> rfl
  next => rfl

theorem present_of_listening {course : Course} (listens : course.session.phase = .listening)
    (turn : Turn) : course.present turn = course := by
  simp only [present, listens]

/-- A sink that is asked has the event. -/
theorem isHanded_present {course : Course} {turn : Turn} {event : Event}
    (sends : course.session.phase = .sending event) (going : turn.lifetimeOver = false) :
    (course.present turn).isHanded = true := by
  cases handed : course.isHanded <;> simp [present, sends, going, handed]

/-- The subscription whose event a session is sending. -/
theorem Sound.exists_sends {course : Course} (sound : course.Sound) {event : Event}
    (sends : course.session.phase = .sending event) :
    ∃ holding, course.current = some holding ∧ holding.Sends event course.isHanded := by
  obtain ⟨subscription, isHeld⟩ := Option.ne_none_iff_exists'.1 (sound.sending sends)
  obtain ⟨holding, isCurrent, _⟩ := sound.held isHeld
  have fits := sound.fits isCurrent
  rw [sends] at fits
  exact ⟨holding, isCurrent, fits⟩

theorem Sound.present {course : Course} (sound : course.Sound) (turn : Turn) :
    (course.present turn).Sound := by
  unfold Course.present
  split
  next event sends =>
    split
    next => exact sound
    next fresh =>
      have unhanded : course.isHanded = false := by
        cases handed : course.isHanded
        · rfl
        · simp [handed] at fresh
      obtain ⟨holding, isCurrent, taken, next, handed⟩ := sound.exists_sends sends
      simp only [unhanded, Bool.false_eq_true, if_false] at handed
      have handedEvents : holding.hand.handedEvents = holding.handedEvents ++ [event] := by
        simp only [Holding.handedEvents, Holding.hand]
        rw [List.take_add_one, handed, next]
        rfl
      have fits : holding.hand.Fits true course.session.phase := by
        rw [sends]
        exact ⟨taken, next, by simp only [Holding.hand, handed, taken, if_true]⟩
      have queued : holding.hand.Queued :=
        ⟨(sound.queued isCurrent).queue, (sound.queued isCurrent).taken⟩
      have later := sound.withCurrent isCurrent holding.hand rfl handedEvents
        (List.append_nil _).symm queued fits rfl sound.sending
      simpa [Course.modifyCurrent, isCurrent] using later
  next => exact sound

/-- Whatever a session turns to, the accounts stay right. -/
theorem Sound.react {course : Course} (sound : course.Sound) {turn : Turn} {stimulus : Stimulus}
    (choice : Choice course turn stimulus) :
    ((course.present turn).react turn.counts stimulus).Sound := by
  have presented := sound.present turn
  have finished : ∀ result, Sound
      { course.present turn with session := course.session.finish result } := fun result =>
    presented.withSession (Or.inr (course.session.isLast_finish result))
      (Or.inr (course.session.held_finish result))
  cases choice with
  | lifetimeOver waits _ =>
    rcases waits with listens | ⟨event, sends⟩
    · simpa [Course.react, account, Session.react, session_present, listens] using finished (.ok ())
    · simpa [Course.react, account, Session.react, session_present, sends] using finished (.ok ())
  | command listens item =>
    rcases item with _ | (cause | command)
    · simpa [Course.react, account, Session.react, session_present, listens] using finished (.ok ())
    · simpa [Course.react, account, Session.react, session_present, listens] using
        finished (.error cause)
    · have applied := presented.withSession
        (Or.inl ⟨course.session.isCalm_apply turn.counts command, by
          rw [session_present, listens]; rfl⟩)
        (by rw [session_present]; exact course.session.held_apply turn.counts command)
      simpa [Course.react, account, Session.react, session_present, listens] using applied
  | ended listens =>
    simpa [Course.react, account, Session.react, session_present, listens] using finished (.ok ())
  | @event holding event listens holds isCurrent mail =>
    obtain ⟨next, queued⟩ := (sound.queued isCurrent).next mail
    have settled : holding.Settled := by
      have fits := sound.fits isCurrent
      rwa [listens] at fits
    have sends : holding.take.Fits false (course.session.enter (.sending event)).phase :=
      ⟨by simp only [Holding.take, settled.reached], by
        simp only [Holding.take, settled.reached, next], by
        simp only [Holding.take, settled.handed, settled.reached, Bool.false_eq_true, if_false]⟩
    have later := sound.withCurrent isCurrent holding.take rfl
      (List.append_nil _).symm (List.append_nil _).symm queued sends rfl fun _ => holds
    simpa [Course.react, account, Session.react, present_of_listening listens, listens,
      Course.modifyCurrent, isCurrent, Session.enter] using later
  | @sent event result sends going came =>
    rcases result with cause | ⟨⟩
    · simpa [Course.react, account, Session.react, session_present, sends] using
        finished (.error cause)
    · have stillSends : (course.present turn).session.phase = .sending event := by
        rw [session_present, sends]
      obtain ⟨holding, isCurrent, taken, next, handed⟩ := presented.exists_sends stillSends
      rw [isHanded_present sends going, if_pos rfl] at handed
      have reachedEvents : holding.reach.reachedEvents = holding.reachedEvents ++ [event] := by
        simp only [Holding.reachedEvents, Holding.reach]
        rw [List.take_add_one, next]
        rfl
      have settled : holding.reach.Fits (course.present turn).isHanded
          (course.session.enter .listening).phase :=
        ⟨handed, by simp only [Holding.reach, taken]⟩
      have held : (course.session.enter .listening).held = (course.present turn).session.held := by
        rw [session_present]
        rfl
      have queued : holding.reach.Queued :=
        ⟨(presented.queued isCurrent).queue, (presented.queued isCurrent).taken⟩
      have later := presented.withCurrent isCurrent holding.reach rfl
        (List.append_nil _).symm reachedEvents queued settled held fun same => by cases same
      simpa [Course.react, account, Session.react, stillSends, session_present, sends,
        Course.modifyCurrent, isCurrent, Session.enter] using later

/-! ## Answers of the broker -/

/-- A granted subscription begins with nothing taken, and what came before it is settled. -/
theorem Sound.grant {course : Course} (sound : course.Sound) (subscription : Subscription)
    (capacity : Nat) : (course.grant subscription capacity).Sound := by
  unfold Course.grant
  split
  next resource subscribing =>
    have granted : course.session.react .empty (.subscribed (.ok subscription) false) =
        ⟨some subscription, .listening⟩ := by
      simp only [Session.react, subscribing]
    rw [granted]
    exact {
      handed := by
        simp only [sound.handed, holdings, Option.toList_some, List.flatMap_append,
          List.flatMap_singleton, Holding.handedEvents, Holding.start, List.take_zero,
          List.append_nil]
      reached := by
        simp only [sound.reached, holdings, Option.toList_some, List.flatMap_append,
          List.flatMap_singleton, Holding.reachedEvents, Holding.start, List.take_zero,
          List.append_nil]
      past := by
        intro holding member
        rcases List.mem_append.1 member with old | last
        · exact sound.past holding old
        · have fits := sound.fits (Option.mem_toList.1 last)
          rwa [subscribing] at fits
      queued := fun isNew => Option.some.inj isNew ▸ ⟨rfl, Nat.zero_le _⟩
      fits := fun isNew => Option.some.inj isNew ▸ ⟨rfl, rfl⟩
      held := fun isHeld => ⟨_, rfl, Option.some.inj isHeld⟩
      sending := nofun }
  next => exact sound

/-- An answer changes the session only. -/
theorem react_answer (course : Course) (counts : ChangeCounts) {stimulus : Stimulus}
    (answer : stimulus.isPlainAnswer = true) : course.react counts stimulus =
      { course with session := course.session.react counts stimulus } := by
  have same : course.account stimulus = course := by
    unfold account
    split
    next => contradiction
    next => contradiction
    next => rfl
  rw [Course.react, same]

theorem Sound.answer {course : Course} (sound : course.Sound) (counts : ChangeCounts)
    {stimulus : Stimulus} (answer : stimulus.isPlainAnswer = true) :
    (course.react counts stimulus).Sound := by
  rw [react_answer course counts answer]
  rcases course.session.react_of_answer counts answer with same | ⟨phase, held⟩
  · rw [same]
    exact sound
  · exact sound.withSession phase held

/-! ## All moments -/

theorem Sound.meet {course : Course} (sound : course.Sound) (moment : Moment) :
    (course.meet moment).Sound := by
  cases moment with
  | turn turn =>
    simp only [Course.meet]
    split
    next stimulus chosen => exact sound.react (choice_of_choose? chosen)
    next => exact sound.present turn
  | granted subscription capacity => exact sound.grant subscription capacity
  | refused | published | released => exact sound.answer _ rfl
  | posted event =>
    exact sound.modifyCurrent (fun _ => rfl) (fun holding => holding.came_post event) (fun _ => rfl)
      (fun _ => rfl) (fun _ => rfl) fun queued => queued.post event
  | hungUp =>
    exact sound.modifyCurrent (fun _ => rfl) (fun _ => List.prefix_refl _) (fun _ => rfl)
      (fun _ => rfl) (fun _ => rfl) fun queued => ⟨queued.queue, queued.taken⟩

theorem sound_start : start.Sound where
  handed := rfl
  reached := rfl
  past := nofun
  queued := nofun
  fits := nofun
  held := nofun
  sending := nofun

theorem Sound.follow {course : Course} (sound : course.Sound) (moments : List Moment) :
    (course.follow moments).Sound := by
  induction moments generalizing course with
  | nil => exact sound
  | cons moment moments inductionHypothesis => exact inductionHypothesis (sound.meet moment)

end Course

end UpdateRelay
