import UpdateRelay.Proofs.Mail.MailingList

/-!
# Accounts of offers

What an offer to a mailing list comes to: each subscriber is in just one of the three groups that
the tally tells of, and each mailbox is left with or without the event as its group says. Who is no
longer sent anything still gets what was queued, and then the end (`Mailbox.RunsOut`).
-/

namespace UpdateRelay

/-! ## Mailboxes without sending ends -/

namespace Mailbox

/-- What becomes of a mailbox that has lost its sending end: its receiver gets what was queued, and
loses some of it only by giving up. -/
structure RunsOut (box : Mailbox) (got : List Event) (now : Mailbox) : Prop where
  silent : now.hasSender = false
  taken : (got ++ now.queue) <+: box.queue
  held : now.hasReceiver = true → box.hasReceiver = true ∧ got ++ now.queue = box.queue

namespace RunsOut

variable {box middle now : Mailbox} {got more : List Event}

theorem refl (silent : box.hasSender = false) : box.RunsOut [] box :=
  ⟨silent, List.prefix_rfl, fun held => ⟨held, rfl⟩⟩

theorem trans (first : box.RunsOut got middle) (last : middle.RunsOut more now) :
    box.RunsOut (got ++ more) now := by
  refine ⟨last.silent, ?_, fun isHeld => ?_⟩ <;> rw [List.append_assoc]
  · exact ((List.prefix_append_right_inj got).2 last.taken).trans first.taken
  · obtain ⟨stillHeld, later⟩ := last.held isHeld
    obtain ⟨held, same⟩ := first.held stillHeld
    exact ⟨held, (congrArg _ later).trans same⟩

/-- The receiver is told of the end just when it has everything. -/
theorem receipt_eq_closed_iff (runsOut : box.RunsOut got now) :
    now.receipt = .closed ↔ now.queue = [] := by
  rw [Mailbox.receipt_eq_closed_iff]
  exact and_iff_left runsOut.silent

end RunsOut

end Mailbox

namespace MailingList

variable {list : MailingList} {id : SubscriberId} {place : Nat} {box : Mailbox}

/-! ## The tally -/

/-- The subscribers for whom an offer comes to the same. -/
def group (list : MailingList) (outcome : Offer) : List SubscriberId :=
  Roster.answering list.roster.entries list.room outcome

theorem group_perm (list : MailingList) :
    (list.group .delivered ++ list.group .dropped ++ list.group .disconnected).Perm
      (list.roster.entries.map Prod.fst) :=
  Roster.answering_perm list.roster.entries list.room

theorem ordered_group (list : MailingList) (outcome : Offer) :
    (list.group outcome).Pairwise fun first second => first.number < second.number :=
  (list.roster.ordered.filter _).map _ fun _ _ below => below

theorem mem_group (seat : list.roster.place? id = some place)
    (found : list.room.get? place = some box) (outcome : Offer) :
    id ∈ list.group outcome ↔ box.verdict = outcome := by
  have here : list.room.verdict place = box.verdict := by simp only [Mailroom.verdict, found]
  rw [group, Roster.mem_answering, ← here]
  constructor
  · rintro ⟨other, isSeat, verdict⟩
    obtain rfl := Option.some.inj (isSeat.symm.trans seat)
    exact verdict
  · exact fun verdict => ⟨place, seat, verdict⟩

/-- The tally of an offer tells of all three groups. -/
theorem Sound.tally (sound : list.Sound) (event : Event) :
    (list.roster.offerAll event list.room).2 =
      ⟨(list.group .delivered).length, (list.group .dropped).length,
        list.group .disconnected⟩ :=
  Roster.tally_offerEach (Roster.places_nodup sound.apart) list.room

/-- Nobody is left out of a tally, and nobody is in it twice. -/
theorem Sound.tally_complete (sound : list.Sound) (event : Event) :
    let tally := (list.roster.offerAll event list.room).2
    tally.delivered + tally.dropped + tally.gone.length = list.roster.size := by
  have counted := list.group_perm.length_eq
  rw [List.length_append, List.length_append, List.length_map] at counted
  rw [sound.tally event]
  exact counted

/-- Nothing gives a mailbox its receiver back. -/
theorem Sound.abandoned_performAll (sound : list.Sound) (found : list.room.get? place = some box)
    (abandoned : box.hasReceiver = false) (actions : List Action) :
    ∃ now, (list.performAll actions).room.get? place = some now ∧ now.hasReceiver = false := by
  induction actions generalizing list box with
  | nil => exact ⟨box, found, abandoned⟩
  | cons action actions inductionHypothesis =>
    have still : (Feed.changeAll (list.feedsAt place action) box).hasReceiver = false := by
      rw [Bool.eq_false_iff] at abandoned ⊢
      exact fun held => abandoned (Feed.hasReceiver_of_changeAll held)
    rcases sound.get?_perform found action with same | hung
    · exact inductionHypothesis (sound.perform action) same still
    · exact inductionHypothesis (sound.perform action) hung still

/-- Whoever gave up is listed for as long as it stays, whatever was in its mailbox. -/
theorem Sound.gone_after_abandon (sound : list.Sound) (isThere : list.room.get? place = some box)
    (later : List Action) (event : Event) :
    let now := (list.perform (.abandon place)).performAll later
    now.roster.place? id = some place → id ∈ (now.roster.offerAll event now.room).2.gone := by
  intro now seat
  have abandoned : (list.perform (.abandon place)).room.get? place = some box.abandon := by
    simp [MailingList.perform, MailingList.feed, MailingList.modifyBox, Mailroom.get?_modify,
      isThere, Feed.change]
  have soundLeft := sound.perform (.abandon place)
  obtain ⟨last, found, gone⟩ := soundLeft.abandoned_performAll abandoned rfl later
  rw [(soundLeft.performAll later).tally event]
  exact (mem_group seat found .disconnected).2 (last.verdict_eq_disconnected_iff.2 gone)

/-! ## Mailboxes after an offer -/

theorem Sound.get?_offerAll (sound : list.Sound) (event : Event) (place : Nat) :
    (list.roster.offerAll event list.room).1.get? place =
      if place ∈ list.roster.places then (list.room.get? place).map (·.offer event)
      else list.room.get? place :=
  Roster.get?_offerEach (Roster.places_nodup sound.apart) list.room place

/-- The mailbox of a subscriber has one more event, the last one, if the subscriber is one of those
who got it, and is as it was if not. -/
theorem Sound.get?_offerAll_of_seat (sound : list.Sound)
    (seat : list.roster.place? id = some place) (found : list.room.get? place = some box)
    (event : Event) :
    (list.roster.offerAll event list.room).1.get? place =
      some (if id ∈ list.group .delivered then { box with queue := box.queue ++ [event] }
        else box) := by
  rw [sound.get?_offerAll, if_pos (Roster.mem_places_iff.2 ⟨id, seat⟩), found, Option.map_some,
    Mailbox.offer_eq]
  simp only [mem_group seat found]

/-! ## Joining and leaving -/

/-- Whoever joins has an empty mailbox, also in place of another of the same id. -/
theorem Sound.box_of_insert (sound : list.Sound) (id : SubscriberId) {capacity : Nat}
    (canHold : Mailbox.canHold capacity = true) :
    let joined := list.perform (.insert id capacity)
    joined.roster.place? id = some list.room.nextPlace ∧
      joined.room.get? list.room.nextPlace = some (.fresh capacity) := by
  intro joined
  have isJoined : joined = list.insert id capacity := if_pos canHold
  have notOld : list.roster.place? id ≠ some list.room.nextPlace := fun isOld =>
    sound.place?_ne_nextPlace isOld rfl
  rw [isJoined, MailingList.insert, Roster.place?_insert, if_pos rfl,
    Roster.get?_hangUp_of_ne notOld, Mailroom.get?_add, if_pos rfl]
  exact ⟨rfl, rfl⟩

/-- Whether a subscriber of an id is sent nothing more after an action: it leaves, another takes its
place, or all are let go. -/
def Action.ends (id : SubscriberId) : Action → Bool
  | .insert other capacity => other = id && Mailbox.canHold capacity
  | .remove other => other = id
  | .close => true
  | .offer _ | .receive _ | .drain _ | .abandon _ => false

theorem not_sends_of_ends (seat : list.roster.place? id = some place) {action : Action}
    (ends : action.ends id = true) : ¬(list.perform action).room.Sends place := by
  intro sends
  cases action with
  | insert other capacity =>
    obtain ⟨rfl, canHold⟩ : other = id ∧ Mailbox.canHold capacity = true := by
      simpa [Action.ends] using ends
    rw [perform, if_pos canHold] at sends
    exact ((Roster.sends_hangUp _ _ _ _).1 sends).1 seat
  | remove other =>
    obtain rfl : other = id := of_decide_eq_true ends
    exact ((Roster.sends_hangUp _ _ _ _).1 sends).1 seat
  | close =>
    exact ((Roster.sends_hangUpAll _ _ _).1 sends).1 (Roster.mem_places_iff.2 ⟨id, seat⟩)
  | offer | receive | drain | abandon => contradiction

/-- Whoever is sent nothing more has left the roster, and its mailbox has lost its sending end and
nothing else. -/
theorem Sound.get?_of_ends (sound : list.Sound) (seat : list.roster.place? id = some place)
    (found : list.room.get? place = some box) {action : Action} (ends : action.ends id = true) :
    place ∉ (list.perform action).roster.places ∧
      (list.perform action).room.get? place = some box.hangUp := by
  have silent := not_sends_of_ends seat ends
  refine ⟨fun member => silent (((sound.perform action).sends place).2 member), ?_⟩
  have unfed : list.feedsAt place action = [] := by
    cases action with
    | insert | remove | close => rfl
    | offer | receive | drain | abandon => contradiction
  obtain ⟨other, isThere, sends⟩ := sound.exists_box seat
  obtain rfl := Option.some.inj (found.symm.trans isThere)
  have either := sound.get?_perform found action
  rw [unfed] at either
  exact either.resolve_left fun same => silent ⟨box, same, sends⟩

/-! ## After the end -/

/-- What the receiver at a place gets from an action. -/
def taken (list : MailingList) (place : Nat) (action : Action) : List Event :=
  match list.room.get? place with
  | some box => Feed.takenAll (list.feedsAt place action) box
  | none => []

/-- What the receiver at a place gets along a run. -/
def takenAll (list : MailingList) (place : Nat) : List Action → List Event
  | [] => []
  | action :: actions =>
      list.taken place action ++ (list.perform action).takenAll place actions

/-- A mailbox without its sending end is offered nothing. -/
theorem Sound.feedsAt_silent (sound : list.Sound) (found : list.room.get? place = some box)
    (silent : box.hasSender = false) (action : Action) :
    (list.feedsAt place action).filterMap Feed.event? = [] := by
  -- Whoever is on the roster has its sending end.
  have away : place ∉ list.roster.places := by
    intro member
    obtain ⟨other, isThere, sends⟩ := (sound.sends place).2 member
    rw [← Option.some.inj (found.symm.trans isThere), silent] at sends
    contradiction
  cases action with
  | offer event => rw [feedsAt, if_neg away, List.filterMap_nil]
  | receive other | drain other | abandon other =>
    simp only [feedsAt]
    split <;> rfl
  | insert | remove | close => rfl

theorem Sound.runsOut_perform (sound : list.Sound) (found : list.room.get? place = some box)
    (silent : box.hasSender = false) (action : Action) :
    ∃ now, (list.perform action).room.get? place = some now ∧
      box.RunsOut (list.taken place action) now := by
  have got : list.taken place action = Feed.takenAll (list.feedsAt place action) box := by
    simp only [taken, found]
  have unsent : (Feed.changeAll (list.feedsAt place action) box).hasSender = false := by
    rw [Feed.hasSender_changeAll, silent]
  obtain ⟨kept, held⟩ :=
    Feed.takenAll_of_silent (sound.feedsAt_silent found silent action) box
  rw [got]
  rcases sound.get?_perform found action with same | hung
  · exact ⟨_, same, unsent, kept, held⟩
  · exact ⟨_, hung, rfl, kept, held⟩

theorem Sound.runsOut_performAll (sound : list.Sound) (found : list.room.get? place = some box)
    (silent : box.hasSender = false) (actions : List Action) :
    ∃ now, (list.performAll actions).room.get? place = some now ∧
      box.RunsOut (list.takenAll place actions) now := by
  induction actions generalizing list box with
  | nil => exact ⟨box, found, .refl silent⟩
  | cons action actions inductionHypothesis =>
    -- The sending end stays lost, so nothing is offered later either.
    obtain ⟨middle, isThere, first⟩ := sound.runsOut_perform found silent action
    obtain ⟨now, isLast, last⟩ :=
      inductionHypothesis (sound.perform action) isThere first.silent
    exact ⟨now, isLast, first.trans last⟩

/-! ## The whole account -/

/-- In every run of a mailing list, an offer accounts for every subscriber. It splits those who are
registered into three groups: the tally has the sizes of the first two and the third in ascending
order, and the subscribers stay who they were. The event is put at the end of the mailboxes whose
receivers are there and that have room for it; full mailboxes stay as they were and count as
dropped; who has given up is gone, however full its mailbox was. Mailboxes have the capacities with
which they were made, and none holds more. Whoever leaves, is replaced or is let go loses its
sending end and nothing else: the receiver gets what was queued, in order, and is told of the end
just when it has got all of it. -/
theorem offer_accounts_for_everyone (actions : List Action) (event : Event) :
    let list := reached actions
    let offered := list.roster.offerAll event list.room
    let groups := list.group .delivered ++ list.group .dropped ++ list.group .disconnected
    groups.Nodup ∧ groups.Perm (list.roster.entries.map Prod.fst) ∧
    offered.2 = ⟨(list.group .delivered).length, (list.group .dropped).length,
      list.group .disconnected⟩ ∧
    offered.2.delivered + offered.2.dropped + offered.2.gone.length = list.roster.size ∧
    offered.2.gone.Pairwise (fun first second => first.number < second.number) ∧
    list.perform (.offer event) = ⟨list.roster, offered.1⟩ ∧
    (∀ place, place ∉ list.roster.places → offered.1.get? place = list.room.get? place) ∧
    list.room.capacities = actions.filterMap Action.opens? ∧ list.room.Bounded ∧
    (∀ id capacity, Mailbox.canHold capacity = true →
      let joined := list.perform (.insert id capacity)
      joined.roster.place? id = some list.room.nextPlace ∧
        joined.room.get? list.room.nextPlace = some (.fresh capacity)) ∧
    ∀ id place, list.roster.place? id = some place →
      ∃ box, list.room.get? place = some box ∧ box.receipt ≠ .closed ∧
      (id ∈ list.group .delivered ↔
        box.hasReceiver = true ∧ box.queue.length < box.capacity) ∧
      (id ∈ list.group .dropped ↔
        box.hasReceiver = true ∧ box.queue.length = box.capacity) ∧
      (id ∈ list.group .disconnected ↔ box.hasReceiver = false) ∧
      offered.1.get? place =
        some (if id ∈ list.group .delivered then { box with queue := box.queue ++ [event] }
          else box) ∧
      (∀ later,
        let now := (list.perform (.abandon place)).performAll later
        now.roster.place? id = some place →
          id ∈ (now.roster.offerAll event now.room).2.gone) ∧
      ∀ ending, ending.ends id = true →
        let ended := list.perform ending
        place ∉ ended.roster.places ∧ ended.room.get? place = some box.hangUp ∧
        ∀ later, ∃ now, (ended.performAll later).room.get? place = some now ∧
          box.RunsOut (ended.takenAll place later) now ∧
          (now.receipt = .closed ↔ now.queue = []) := by
  intro list offered groups
  have sound : list.Sound := sound_reached actions
  have complete : groups.Perm (list.roster.entries.map Prod.fst) := list.group_perm
  refine ⟨complete.nodup_iff.2 list.roster.ids_nodup, complete, sound.tally event,
    sound.tally_complete event, ?ordered, rfl, ?others, ?capacities, sound.bounded,
    fun id _ canHold => sound.box_of_insert id canHold, fun id place seat => ?subscriber⟩
  case ordered =>
    rw [show offered.2 = _ from sound.tally event]
    exact list.ordered_group .disconnected
  case others => exact fun place away => (sound.get?_offerAll event place).trans (if_neg away)
  case capacities => exact (capacities_performAll empty actions).trans (List.nil_append _)
  case subscriber =>
    obtain ⟨box, found, sends⟩ := sound.exists_box seat
    have fits : box.queue.length ≤ box.capacity := sound.bounded place box found
    refine ⟨box, found, ?unclosed, ?delivered, ?dropped, ?gone,
      sound.get?_offerAll_of_seat seat found event,
      fun later => sound.gone_after_abandon found later event, fun ending ends => ?ended⟩
    case unclosed => exact fun closed => by simp [(box.receipt_eq_closed_iff.1 closed).2] at sends
    case delivered => exact (mem_group seat found _).trans box.verdict_eq_delivered_iff
    case dropped =>
      -- No mailbox is beyond its capacity, so one without room is just full.
      rw [mem_group seat found, box.verdict_eq_dropped_iff]
      exact and_congr_right fun _ => ⟨Nat.le_antisymm fits, fun same => Nat.le_of_eq same.symm⟩
    case gone => exact (mem_group seat found _).trans box.verdict_eq_disconnected_iff
    case ended =>
      obtain ⟨away, hung⟩ := sound.get?_of_ends seat found ends
      refine ⟨away, hung, fun later => ?_⟩
      obtain ⟨now, isThere, runsOut⟩ :=
        (sound.perform ending).runsOut_performAll hung rfl later
      exact ⟨now, isThere, ⟨runsOut.silent, runsOut.taken, runsOut.held⟩,
        runsOut.receipt_eq_closed_iff⟩

/-- The first event fills the mailboxes of the second and the third subscriber. Then the third gives
up, and another takes the place of the first. -/
def takeover : List Action :=
  [.insert ⟨2⟩ 1, .insert ⟨3⟩ 0, .insert ⟨1⟩ 4, .offer ⟨"project", 1, "created"⟩, .abandon 1,
    .insert ⟨1⟩ 2]

/-- The new subscriber gets the next event, the second has no room for it and the third is gone; the
old subscriber still gets the first event, and then the end. -/
theorem accounts_after_takeover :
    let list := reached takeover
    let created : Event := ⟨"project", 1, "created"⟩
    let renamed : Event := ⟨"project", 2, "renamed"⟩
    let offered := list.roster.offerAll renamed list.room
    let left := list.perform (.remove ⟨2⟩)
    list.roster.entries = [(⟨1⟩, 3), (⟨2⟩, 0), (⟨3⟩, 1)] ∧ offered.2 = ⟨1, 1, [⟨3⟩]⟩ ∧
      offered.1.boxes = [⟨1, [created], true, true⟩, ⟨1, [], true, false⟩,
        ⟨4, [created], false, true⟩, ⟨2, [renamed], true, true⟩] ∧
      offered.1.get? 2 = list.room.get? 2 ∧ list.room.capacities = [1, 1, 4, 2] ∧
      left.takenAll 0 [.offer renamed, .receive 0] = [created] ∧
      ∃ now, (left.performAll [.offer renamed, .receive 0]).room.get? 0 = some now ∧
        now.receipt = .closed := by
  intro list created renamed offered left
  obtain ⟨_, _, tally, _, _, _, others, capacities, _, _, subscribers⟩ :=
    offer_accounts_for_everyone takeover renamed
  obtain ⟨box, found, _, _, _, _, _, _, ended⟩ := subscribers ⟨2⟩ 0 (by decide)
  obtain ⟨_, _, after⟩ := ended (.remove ⟨2⟩) (by decide)
  obtain ⟨now, isThere, _, closed⟩ := after [.offer renamed, .receive 0]
  have received : now.queue = [] := by
    have isNow : (left.performAll [.offer renamed, .receive 0]).room.get? 0 =
        some ⟨1, [], false, true⟩ := by decide
    rw [Option.some.inj (isThere.symm.trans isNow)]
  exact ⟨by decide, tally.trans (by decide), by decide, others 2 (by decide),
    capacities.trans (by decide), by decide, now, isThere, closed.2 received⟩

end MailingList

end UpdateRelay
