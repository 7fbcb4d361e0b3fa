import Mathlib.Data.List.Induction
import UpdateRelay.Proofs.Session.Course

/-!
# What the client of a session sees

The client sees the events of the subscriptions that its session held one after the other, in order
and without gaps. Once a session has let go of a subscription, nothing of it is handed on any more;
and an event that was taken fails to go through only if it is the last one that is taken at all,
because sending it failed or the lifetime of the session ended meanwhile.
-/

namespace UpdateRelay

/-- A holding without what was not taken from its mailbox. -/
def Holding.record (holding : Holding) : Holding :=
  { holding with box := .fresh 0, came := holding.came.take holding.taken }

namespace Holding

theorem handedEvents_record {holding : Holding} (closed : holding.Closed) :
    holding.record.handedEvents = holding.handedEvents := by
  simp only [handedEvents, record, List.take_take, Nat.min_eq_left closed.handed]

theorem reachedEvents_record {holding : Holding} (closed : holding.Closed) :
    holding.record.reachedEvents = holding.reachedEvents := by
  simp only [reachedEvents, record, List.take_take,
    Nat.min_eq_left (Nat.le_trans closed.reached closed.handed)]

/-- What comes in after the last event was taken is not recorded. -/
theorem record_post {holding : Holding} (queued : holding.Queued) (event : Event) :
    (holding.post event).record = holding.record := by
  simp only [record, post]
  split
  next => rw [List.take_append_of_le_length queued.taken]
  next => rfl

end Holding

/-- Only a grant makes a session hold something else than before. -/
theorem Session.held_react (session : Session) (counts : ChangeCounts) {stimulus : Stimulus}
    (plain : ∀ subscription lifetimeOver,
      stimulus ≠ .subscribed (.ok subscription) lifetimeOver) :
    (session.react counts stimulus).held = session.held ∨
      (session.react counts stimulus).held = none := by
  unfold react
  split
  all_goals first
    | exact Or.inl rfl
    | exact Or.inr (session.held_finish _)
    | exact session.held_apply counts _
    | skip
  next => exact absurd rfl (plain _ _)
  next =>
    split
    next => exact Or.inl rfl
    next => exact Or.inr (session.held_finish _)

namespace Course

/-! ## What one moment does to the accounts -/

/-- What a moment can do to the accounts: nothing, change that of the held subscription, or open one
for a subscription that was granted. -/
inductive AccountChange (course after : Course) : Prop
  | still (records : after.holdings.map Holding.record = course.holdings.map Holding.record)
      (held : after.session.held = course.session.held ∨ after.session.held = none)
  | moved (early : course.session.phase.isLast = false) (holds : course.session.held ≠ none)
      (past : after.past = course.past) (was : course.current.isSome = true)
      (is : after.current.isSome = true)
  | opened {holding : Holding} (early : course.session.phase.isLast = false)
      (holdings : after.holdings = course.holdings ++ [holding])

theorem accountChange_refl (course : Course) : course.AccountChange course :=
  .still rfl (Or.inl rfl)

/-- A change of the last mailbox that takes nothing from it changes no account. -/
theorem accountChange_modifyCurrent {course : Course} {change : Holding → Holding}
    (record : ∀ {holding}, course.current = some holding →
      (change holding).record = holding.record) :
    course.AccountChange (course.modifyCurrent change) := by
  refine .still ?_ (Or.inl rfl)
  cases isCurrent : course.current with
  | none => simp [modifyCurrent, holdings, isCurrent]
  | some holding => simp [modifyCurrent, holdings, isCurrent, record isCurrent]

/-- A reaction that takes no event and gets none through changes the session only. -/
theorem react_of_account {course : Course} {counts : ChangeCounts} {stimulus : Stimulus}
    (same : course.account stimulus = course) : course.react counts stimulus =
      { course with session := course.session.react counts stimulus } := by
  rw [react, same]

theorem past_present (course : Course) (turn : Turn) :
    (course.present turn).past = course.past := by
  unfold present
  split
  next => split <;> rfl
  next => rfl

theorem isSome_current_present (course : Course) (turn : Turn) :
    (course.present turn).current.isSome = course.current.isSome := by
  unfold present
  split
  next =>
    split
    next => rfl
    next => exact Option.isSome_map
  next => rfl

theorem past_react (course : Course) (counts : ChangeCounts) (stimulus : Stimulus) :
    (course.react counts stimulus).past = course.past := by
  unfold react account
  split <;> rfl

theorem isSome_current_react (course : Course) (counts : ChangeCounts) (stimulus : Stimulus) :
    (course.react counts stimulus).current.isSome = course.current.isSome := by
  unfold react account
  split
  next => exact Option.isSome_map
  next => exact Option.isSome_map
  next => rfl

/-- What a session turns to while it is sending, or when it takes an event, is about the
subscription that it holds. -/
theorem accountChange_of_held {course : Course} (sound : course.Sound) (turn : Turn)
    (holds : course.session.held ≠ none) (early : course.session.phase.isLast = false) :
    course.AccountChange (course.meet (.turn turn)) := by
  obtain ⟨subscription, isHeld⟩ := Option.ne_none_iff_exists'.1 holds
  obtain ⟨holding, isCurrent, _⟩ := sound.held isHeld
  have was : course.current.isSome = true := Option.isSome_of_eq_some isCurrent
  simp only [meet]
  split
  next =>
    refine .moved early holds ?_ was ?_
    · rw [past_react, past_present]
    · rw [isSome_current_react, isSome_current_present, was]
  next =>
    refine .moved early holds (course.past_present turn) was ?_
    rw [isSome_current_present, was]

/-- A session that holds nothing takes nothing. -/
theorem accountChange_of_unheld {course : Course} (sound : course.Sound) (turn : Turn)
    (unheld : course.session.held = none) : course.AccountChange (course.meet (.turn turn)) := by
  have presented : course.present turn = course := by
    unfold present
    split
    next event sends => exact absurd unheld (sound.sending sends)
    next => rfl
  simp only [meet, presented]
  split
  next stimulus chosen =>
    have same : course.account stimulus = course := by
      unfold account
      split
      next =>
        cases choice_of_choose? chosen with
        | event _ holds => exact absurd unheld holds
      next sends => exact absurd unheld (sound.sending sends)
      next => rfl
    rw [react_of_account same]
    refine .still rfl (course.session.held_react _ ?_)
    intro _ _ same
    cases choice_of_choose? chosen <;> cases same
  next => exact accountChange_refl course

theorem meet_turn_of_isLast {course : Course} (last : course.session.phase.isLast = true)
    (turn : Turn) : course.meet (.turn turn) = course := by
  obtain ⟨⟨held, phase⟩, past, current, isHanded, handed, reached⟩ := course
  rcases phase with _ | _ | _ | _ | ⟨_, _ | _⟩ | _ <;> first | contradiction | rfl

theorem accountChange_meet {course : Course} (sound : course.Sound) (moment : Moment) :
    course.AccountChange (course.meet moment) := by
  cases moment with
  | turn turn =>
    cases last : course.session.phase.isLast with
    | true =>
      rw [meet_turn_of_isLast last]
      exact accountChange_refl course
    | false =>
      by_cases unheld : course.session.held = none
      · exact accountChange_of_unheld sound turn unheld
      · exact accountChange_of_held sound turn unheld last
  | granted subscription capacity =>
    simp only [meet, grant]
    split
    next resource subscribing => exact .opened (by rw [subscribing]; rfl) rfl
    next => exact accountChange_refl course
  | refused | published | released =>
    simp only [meet]
    rw [react_answer _ _ rfl]
    exact .still rfl (course.session.held_react _ fun _ _ same => by cases same)
  | posted event =>
    exact accountChange_modifyCurrent fun isCurrent =>
      Holding.record_post (sound.queued isCurrent) event
  | hungUp => exact accountChange_modifyCurrent fun _ => rfl

/-! ## Subscriptions that were let go of -/

/-- What holds of a course since a moment at which the session held nothing: the accounts from
before are what they were, and if no subscription was granted since, none is held. -/
structure Since (now course : Course) : Prop where
  length : now.holdings.length ≤ course.holdings.length
  records : (course.holdings.take now.holdings.length).map Holding.record =
    now.holdings.map Holding.record
  unheld : course.holdings.length = now.holdings.length → course.session.held = none

theorem Since.of_concat {now course : Course} {earlier : List Holding} {last : Holding}
    (holdings : course.holdings = earlier ++ [last]) (length : now.holdings.length ≤ earlier.length)
    (records : (earlier.take now.holdings.length).map Holding.record =
      now.holdings.map Holding.record) : now.Since course := by
  have longer : course.holdings.length = earlier.length + 1 := by
    rw [holdings, List.length_append, List.length_singleton]
  refine ⟨by omega, ?_, fun equal => by omega⟩
  rw [holdings, List.take_append_of_le_length length, records]

theorem Since.accountChange {now course after : Course} (since : now.Since course)
    (accountChange : course.AccountChange after) : now.Since after := by
  obtain ⟨length, records, unheld⟩ := since
  cases accountChange with
  | still same held =>
    have lengths : after.holdings.length = course.holdings.length := by
      simpa using congrArg List.length same
    refine ⟨lengths ▸ length, ?_, fun equal => ?_⟩
    · rw [List.map_take, same, ← List.map_take, records]
    · rcases held with held | none
      · exact held.trans (unheld (lengths ▸ equal))
      · exact none
  | moved _ holds past was is =>
    -- The subscription that is held was granted since, so only its account changes.
    have newer : now.holdings.length ≠ course.holdings.length := fun equal =>
      holds (unheld equal.symm)
    obtain ⟨holding, isCurrent⟩ := Option.isSome_iff_exists.1 was
    obtain ⟨changed, isChanged⟩ := Option.isSome_iff_exists.1 is
    have old : course.holdings = course.past ++ [holding] := by
      rw [holdings, isCurrent, Option.toList_some]
    have new : after.holdings = course.past ++ [changed] := by
      rw [holdings, isChanged, Option.toList_some, past]
    rw [old, List.length_append, List.length_singleton] at length newer
    have inside : now.holdings.length ≤ course.past.length := by omega
    rw [old, List.take_append_of_le_length inside] at records
    exact .of_concat new inside records
  | opened _ new => exact .of_concat new length records

theorem since_follow {now course : Course} (sound : course.Sound) (since : now.Since course)
    (moments : List Moment) : now.Since (course.follow moments) := by
  induction moments generalizing course with
  | nil => exact since
  | cons moment moments inductionHypothesis =>
    exact inductionHypothesis (sound.meet moment)
      (since.accountChange (accountChange_meet sound moment))

theorem Sound.closed {course : Course} (sound : course.Sound) :
    ∀ holding ∈ course.holdings, holding.Closed := by
  intro holding member
  rcases List.mem_append.1 member with old | last
  · exact (sound.past holding old).closed
  · exact (sound.fits (Option.mem_toList.1 last)).closed

/-- Accounts that are the same tell of the same events. -/
theorem flatMap_of_records (events : Holding → List Event) {these others : List Holding}
    (recorded : ∀ {holding : Holding}, holding.Closed → events holding.record = events holding)
    (closed : ∀ holding ∈ these, holding.Closed) (otherClosed : ∀ holding ∈ others, holding.Closed)
    (same : these.map Holding.record = others.map Holding.record) :
    these.flatMap events = others.flatMap events := by
  have told : ∀ list : List Holding, (∀ holding ∈ list, holding.Closed) →
      (list.map Holding.record).flatMap events = list.flatMap events := by
    intro list closed
    rw [List.flatMap_map, List.flatMap_def, List.flatMap_def]
    exact congrArg List.flatten
      (List.map_congr_left fun holding member => recorded (closed holding member))
  rw [← told these closed, same, told others otherClosed]

/-- What is handed on later is of subscriptions that were granted later. -/
theorem Since.handed {now course : Course} (since : now.Since course) (sound : now.Sound)
    (soundLater : course.Sound) : course.handed =
      now.handed ++ (course.holdings.drop now.holdings.length).flatMap Holding.handedEvents := by
  have same := flatMap_of_records Holding.handedEvents Holding.handedEvents_record
    (fun holding member => soundLater.closed holding (List.mem_of_mem_take member)) sound.closed
    since.records
  rw [soundLater.handed, sound.handed, ← same, ← List.flatMap_append, List.take_append_drop]

theorem Since.reached {now course : Course} (since : now.Since course) (sound : now.Sound)
    (soundLater : course.Sound) : course.reached =
      now.reached ++ (course.holdings.drop now.holdings.length).flatMap Holding.reachedEvents := by
  have same := flatMap_of_records Holding.reachedEvents Holding.reachedEvents_record
    (fun holding member => soundLater.closed holding (List.mem_of_mem_take member)) sound.closed
    since.records
  rw [soundLater.reached, sound.reached, ← same, ← List.flatMap_append, List.take_append_drop]

/-! ## The end of a session -/

/-- A session that has come to its end takes nothing and stays there. -/
theorem meet_of_isLast {course : Course} (sound : course.Sound)
    (last : course.session.phase.isLast = true) (moment : Moment) :
    (course.meet moment).session.phase.isLast = true ∧ (course.meet moment).past = course.past ∧
      (course.meet moment).current.map Holding.record = course.current.map Holding.record := by
  have answered : ∀ {counts stimulus}, stimulus.isPlainAnswer = true →
      (course.react counts stimulus).session.phase.isLast = true ∧
        (course.react counts stimulus).past = course.past ∧
        (course.react counts stimulus).current.map Holding.record =
          course.current.map Holding.record := by
    intro counts stimulus answer
    rw [react_answer course counts answer]
    refine ⟨?_, rfl, rfl⟩
    rcases course.session.react_of_answer counts answer with same | ⟨⟨_, calm⟩ | stillLast, _⟩
    · rw [same]
      exact last
    · rw [Phase.isLast_eq_false_of_isCalm calm] at last
      contradiction
    · exact stillLast
  cases moment with
  | turn turn =>
    rw [meet_turn_of_isLast last]
    exact ⟨last, rfl, rfl⟩
  | granted subscription capacity =>
    simp only [meet, grant]
    split
    next resource subscribing =>
      rw [subscribing] at last
      contradiction
    next => exact ⟨last, rfl, rfl⟩
  | refused | published | released => exact answered rfl
  | posted event =>
    refine ⟨last, rfl, ?_⟩
    simp only [meet, modifyCurrent]
    cases isCurrent : course.current with
    | none => rfl
    | some holding => exact congrArg some (Holding.record_post (sound.queued isCurrent) event)
  | hungUp =>
    refine ⟨last, rfl, ?_⟩
    simp only [meet, modifyCurrent]
    cases course.current <;> rfl

theorem follow_of_isLast {course : Course} (sound : course.Sound)
    (last : course.session.phase.isLast = true) (moments : List Moment) :
    (course.follow moments).past = course.past ∧
      (course.follow moments).current.map Holding.record = course.current.map Holding.record := by
  induction moments generalizing course with
  | nil => exact ⟨rfl, rfl⟩
  | cons moment moments inductionHypothesis =>
    obtain ⟨stillLast, past, current⟩ := meet_of_isLast sound last moment
    obtain ⟨laterPast, laterCurrent⟩ := inductionHypothesis (sound.meet moment) stillLast
    exact ⟨laterPast.trans past, laterCurrent.trans current⟩

/-- Why an event that was taken does not go through when a session comes to its end: its lifetime is
over while the event is being sent, or sending it has failed. -/
theorem cause_of_loss {course : Course} (sound : course.Sound)
    (early : course.session.phase.isLast = false) {moment : Moment}
    (last : (course.meet moment).session.phase.isLast = true) {holding : Holding}
    (isCurrent : (course.meet moment).current = some holding)
    (lost : holding.reached < holding.taken) :
    ∃ turn event, moment = .turn turn ∧ course.session.phase = .sending event ∧
      holding.came[holding.reached]? = some event ∧
      (turn.lifetimeOver = true ∨ ∃ cause, turn.send = some (.error cause)) := by
  have unsettled : ¬holding.Settled := fun settled => by
    rw [settled.reached] at lost
    exact Nat.lt_irrefl _ lost
  -- Where no event is being sent and none is taken, all that was taken went through.
  have calm : course.session.phase.isCalm = true → course.current ≠ some holding := fun calm same =>
    unsettled ((Holding.fits_of_isCalm calm).1 (sound.fits same))
  have listening : course.session.phase = .listening → course.current ≠ some holding :=
    fun listens => calm (by rw [listens]; rfl)
  have answered : ∀ {counts stimulus}, stimulus.isPlainAnswer = true →
      (course.react counts stimulus).session.phase.isLast = true →
      (course.react counts stimulus).current ≠ some holding := by
    intro counts stimulus answer last isCurrent
    rw [react_answer course counts answer] at last isCurrent
    rcases course.session.phase.calm_or_last_or_sending with isCalm | isLast | ⟨event, sends⟩
    · exact calm isCalm isCurrent
    · rw [early] at isLast
      contradiction
    · have unfit : course.session.awaits stimulus = false := by
        cases stimulus with
        | lifetimeOver | command | event | sent => contradiction
        | subscribed | published | released => simp only [Session.awaits, sends]
      rw [Session.react_of_not_awaits unfit, early] at last
      contradiction
  cases moment with
  | granted subscription capacity =>
    simp only [meet, grant] at last
    split at last
    next resource subscribing =>
      simp [Session.react, subscribing, Phase.isLast] at last
    next =>
      rw [early] at last
      contradiction
  | refused | published | released => exact absurd isCurrent (answered rfl last)
  | posted | hungUp =>
    exact absurd (early.symm.trans last) Bool.false_ne_true
  | turn turn =>
    cases chosen : course.session.choose? (course.observation turn) with
    | none =>
      simp only [meet, chosen, session_present, early] at last
      contradiction
    | some stimulus =>
      simp only [meet, chosen] at last isCurrent
      cases choice_of_choose? chosen with
      | lifetimeOver waits isOver =>
        rcases waits with listens | ⟨event, sends⟩
        · simp only [present_of_listening listens, react, account, listens] at isCurrent
          exact absurd isCurrent (listening listens)
        · have same : course.present turn = course := by simp [present, sends, isOver]
          simp only [same, react, account, sends] at isCurrent
          obtain ⟨current, isSame, sending⟩ := sound.exists_sends sends
          obtain rfl := Option.some.inj (isCurrent.symm.trans isSame)
          exact ⟨turn, event, rfl, sends, sending.next, Or.inl isOver⟩
      | command listens item =>
        simp only [present_of_listening listens, react, account, listens] at isCurrent
        exact absurd isCurrent (listening listens)
      | ended listens =>
        simp only [present_of_listening listens, react, account, listens] at isCurrent
        exact absurd isCurrent (listening listens)
      | event listens =>
        simp [present_of_listening listens, react, Session.react, listens, Session.enter,
          Phase.isLast] at last
      | @sent event result sends going came =>
        rcases result with cause | ⟨⟩
        · have stillSends : (course.present turn).session.phase = .sending event := by
            rw [session_present, sends]
          simp only [react, account, stillSends] at isCurrent
          obtain ⟨current, isSame, sending⟩ := (sound.present turn).exists_sends stillSends
          obtain rfl := Option.some.inj (isCurrent.symm.trans isSame)
          exact ⟨turn, event, rfl, sends, sending.next, Or.inr ⟨cause, came⟩⟩
        · simp [react, Session.react, session_present, sends, Session.enter, Phase.isLast] at last

theorem follow_append (course : Course) (earlier later : List Moment) :
    course.follow (earlier ++ later) = (course.follow earlier).follow later :=
  List.foldl_append

/-- What became of an event that was taken and did not go through by the end of a session. -/
theorem exists_loss (moments : List Moment) {holding : Holding}
    (isCurrent : (start.follow moments).current = some holding)
    (lost : holding.reached < holding.taken)
    (last : (start.follow moments).session.phase.isLast = true) :
    ∃ earlier turn later event, moments = earlier ++ .turn turn :: later ∧
      (start.follow earlier).session.phase = .sending event ∧
      holding.came[holding.reached]? = some event ∧
      (turn.lifetimeOver = true ∨ ∃ cause, turn.send = some (.error cause)) := by
  induction moments using List.reverseRecOn generalizing holding with
  | nil => contradiction
  | append_singleton earlier moment inductionHypothesis =>
    have sound := sound_start.follow earlier
    rw [follow_append] at isCurrent last
    cases early : (start.follow earlier).session.phase.isLast with
    | false =>
      obtain ⟨turn, event, rfl, sends, next, cause⟩ :=
        cause_of_loss sound early last isCurrent lost
      exact ⟨earlier, turn, [], event, rfl, sends, next, cause⟩
    | true =>
      -- The end was there before, and the account has been what it is since.
      obtain ⟨_, _, same⟩ := meet_of_isLast sound early moment
      have recorded : (start.follow earlier).current.map Holding.record = some holding.record := by
        rw [← same]
        exact congrArg (Option.map Holding.record) isCurrent
      obtain ⟨was, isWas, equal⟩ := Option.map_eq_some_iff.1 recorded
      have reached : was.record.reached = holding.record.reached := congrArg Holding.reached equal
      have taken : was.record.taken = holding.record.taken := congrArg Holding.taken equal
      simp only [Holding.record] at reached taken
      have came : was.came.take was.taken = holding.came.take holding.taken :=
        congrArg Holding.came equal
      obtain ⟨before, turn, later, event, split, sends, next, cause⟩ :=
        inductionHypothesis isWas (by omega) early
      refine ⟨before, turn, later ++ [moment], event, by simp [split], sends, ?_, cause⟩
      rw [← next, ← List.getElem?_take_of_lt lost, ← came, taken, reached,
        List.getElem?_take_of_lt lost]

/-! ## Whatever happens -/

/-- What was taken of the subscription that came last goes through, but for one event whose fate is
known. -/
theorem account_of_current (moments : List Moment) {holding : Holding}
    (isCurrent : (start.follow moments).current = some holding) :
    holding.reached ≤ holding.handed ∧ holding.handed ≤ holding.taken ∧
      holding.taken ≤ holding.reached + 1 ∧ holding.taken ≤ holding.came.length ∧
      (holding.reached < holding.taken →
        ∃ event, holding.came[holding.reached]? = some event ∧
          ((start.follow moments).session.phase = .sending event ∨
            ((start.follow moments).session.phase.isLast = true ∧
              ∃ earlier turn later, moments = earlier ++ .turn turn :: later ∧
                (start.follow earlier).session.phase = .sending event ∧
                (turn.lifetimeOver = true ∨ ∃ cause, turn.send = some (.error cause))))) := by
  have sound := sound_start.follow moments
  have fits := sound.fits isCurrent
  obtain ⟨reached, handed, taken⟩ := fits.closed
  refine ⟨reached, handed, taken, (sound.queued isCurrent).taken, fun lost => ?_⟩
  rcases (start.follow moments).session.phase.calm_or_last_or_sending with
    isCalm | isLast | ⟨event, sends⟩
  · have settled := (Holding.fits_of_isCalm isCalm).1 fits
    rw [settled.reached] at lost
    exact absurd lost (Nat.lt_irrefl _)
  · obtain ⟨earlier, turn, later, event, split, sends, next, cause⟩ :=
      exists_loss moments isCurrent lost isLast
    exact ⟨event, next, Or.inr ⟨isLast, earlier, turn, later, split, sends, cause⟩⟩
  · rw [sends] at fits
    exact ⟨event, fits.next, Or.inl sends⟩

/-- At the end of a session nothing is taken or handed on any more. -/
theorem same_of_isLast {course : Course} (sound : course.Sound)
    (last : course.session.phase.isLast = true) (more : List Moment) :
    (course.follow more).handed = course.handed ∧ (course.follow more).reached = course.reached ∧
      (course.follow more).holdings.map Holding.taken = course.holdings.map Holding.taken := by
  have later := sound.follow more
  obtain ⟨past, current⟩ := follow_of_isLast sound last more
  have records : (course.follow more).holdings.map Holding.record =
      course.holdings.map Holding.record := by
    simp only [holdings, List.map_append, past, ← Option.toList_map, current]
  refine ⟨?_, ?_, ?_⟩
  · rw [later.handed, sound.handed]
    exact flatMap_of_records _ Holding.handedEvents_record later.closed sound.closed records
  · rw [later.reached, sound.reached]
    exact flatMap_of_records _ Holding.reachedEvents_record later.closed sound.closed records
  · have taken := congrArg (List.map Holding.taken) records
    rw [List.map_map, List.map_map] at taken
    exact taken

theorem listening_of_command {course : Course} {turn : Turn} {item : Option CommandItem}
    (chosen : course.session.choose? (course.observation turn) = some (.command item)) :
    course.session.phase = .listening := by
  cases choice_of_choose? chosen with
  | command listens => exact listens

/-- Where a session listens, all that was taken went through. -/
theorem settled_of_listening {course : Course} (sound : course.Sound)
    (listens : course.session.phase = .listening) {holding : Holding}
    (member : holding ∈ course.holdings) : holding.reached = holding.taken := by
  rcases List.mem_append.1 member with old | last
  · exact (sound.past holding old).reached
  · have fits := sound.fits (Option.mem_toList.1 last)
    rw [listens] at fits
    exact fits.reached

/-- A command for another resource makes a session let go of its subscription, and nothing else. -/
theorem meet_subscribe {course : Course} {turn : Turn} {command : Command}
    {subscription : Subscription}
    (chosen : course.session.choose? (course.observation turn) =
      some (.command (some (.ok command))))
    (subscribes : command.action? = some .subscribe)
    (held : course.session.held = some subscription)
    (other : subscription.resource ≠ command.resource) :
    course.meet (.turn turn) = { course with
      session := ⟨none, .releasing subscription (.subscribe command.resource)⟩ } := by
  have listens := listening_of_command chosen
  have applied : course.session.react turn.counts (.command (some (.ok command))) =
      ⟨none, .releasing subscription (.subscribe command.resource)⟩ := by
    simp only [Session.react, listens, Session.apply, subscribes, held, if_neg other]
  simp only [meet, chosen, present_of_listening listens, react, account, listens, applied]

/-- What is handed on after a session let go of its subscription comes from later ones. -/
theorem later_of_unheld {course : Course} (sound : course.Sound)
    (unheld : course.session.held = none) (more : List Moment) :
    (course.follow more).handed = course.handed ++
        ((course.follow more).holdings.drop course.holdings.length).flatMap Holding.handedEvents ∧
      (course.follow more).reached = course.reached ++
        ((course.follow more).holdings.drop course.holdings.length).flatMap
          Holding.reachedEvents := by
  have since : course.Since (course.follow more) :=
    since_follow sound ⟨Nat.le_refl _, by rw [List.take_length], fun _ => unheld⟩ more
  exact ⟨since.handed sound (sound.follow more), since.reached sound (sound.follow more)⟩

/-- In every course of a session: the events that are handed to the sink are those that came to the
mailboxes of the subscriptions held one after the other, in order, of each a first part; those that
go through likewise. All that was taken goes through, but for the last event of all if it is still
being sent, if sending it failed or if the session's lifetime ended meanwhile; after that nothing is
taken. Once a command for another resource was applied, nothing but events of later subscriptions is
handed on. -/
theorem client_sees_held_subscription_in_order (moments : List Moment) :
    let course := start.follow moments
    course.handed = course.holdings.flatMap Holding.handedEvents ∧
      course.reached = course.holdings.flatMap Holding.reachedEvents ∧
      (∀ subscription, course.session.held = some subscription →
        ∃ holding, course.current = some holding ∧ holding.subscription = subscription) ∧
      (∀ holding ∈ course.past, holding.handed = holding.taken ∧ holding.reached = holding.taken) ∧
      (∀ holding, course.current = some holding →
        holding.reached ≤ holding.handed ∧ holding.handed ≤ holding.taken ∧
          holding.taken ≤ holding.reached + 1 ∧ holding.taken ≤ holding.came.length ∧
          (holding.reached < holding.taken →
            ∃ event, holding.came[holding.reached]? = some event ∧
              (course.session.phase = .sending event ∨
                (course.session.phase.isLast = true ∧
                  ∃ earlier turn later, moments = earlier ++ .turn turn :: later ∧
                    (start.follow earlier).session.phase = .sending event ∧
                    (turn.lifetimeOver = true ∨ ∃ cause, turn.send = some (.error cause)))))) ∧
      (course.session.phase.isLast = true → ∀ more,
        (course.follow more).handed = course.handed ∧
          (course.follow more).reached = course.reached ∧
          (course.follow more).holdings.map Holding.taken = course.holdings.map Holding.taken) ∧
      ∀ turn command subscription,
        course.session.choose? (course.observation turn) = some (.command (some (.ok command))) →
        command.action? = some .subscribe → course.session.held = some subscription →
        subscription.resource ≠ command.resource →
          (∀ holding ∈ course.holdings, holding.reached = holding.taken) ∧
          ∀ more, let later := course.follow (.turn turn :: more)
            later.handed = course.handed ++
                (later.holdings.drop course.holdings.length).flatMap Holding.handedEvents ∧
              later.reached = course.reached ++
                (later.holdings.drop course.holdings.length).flatMap Holding.reachedEvents := by
  intro course
  have sound : course.Sound := sound_start.follow moments
  refine ⟨sound.handed, sound.reached, fun _ => sound.held, fun holding member => ?_,
    fun _ => account_of_current moments, same_of_isLast sound, ?_⟩
  · exact ⟨(sound.past holding member).handed, (sound.past holding member).reached⟩
  · intro turn command subscription chosen subscribes held other
    refine ⟨fun _ => settled_of_listening sound (listening_of_command chosen), fun more => ?_⟩
    have met := meet_subscribe chosen subscribes held other
    have later := later_of_unheld (sound.meet (.turn turn)) (by rw [met]) more
    rw [met] at later
    simp only [follow, List.foldl_cons, met]
    exact later

/-- A client moves from one resource to another while an event of the first is in the mailbox, and
is gone while the second event of the other is being sent. -/
def interrupted : List Moment :=
  let look : Intake CommandItem → Bool → Moment := fun command isOver =>
    .turn ⟨.empty, isOver, command, some (.ok ())⟩
  [look (.item (.ok ⟨"door", "subscribe"⟩)) false, .granted ⟨⟨1⟩, "door", 0⟩ 8,
    .posted ⟨"door", 1, "opened"⟩, look .nothing false, look .nothing false,
    .posted ⟨"door", 2, "closed"⟩, look (.item (.ok ⟨"gate", "subscribe"⟩)) false,
    .released (.ok ()), .granted ⟨⟨2⟩, "gate", 1⟩ 8, .posted ⟨"gate", 1, "opened"⟩,
    .posted ⟨"gate", 2, "closed"⟩, look .nothing false, look .nothing false, look .nothing false,
    look .nothing true]

example : (start.follow interrupted).reached = [⟨"door", 1, "opened"⟩, ⟨"gate", 1, "opened"⟩] ∧
    (start.follow interrupted).holdings.map Holding.taken = [1, 2] := by decide

end Course

end UpdateRelay
