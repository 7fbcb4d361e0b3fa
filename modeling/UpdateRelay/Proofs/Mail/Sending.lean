import UpdateRelay.Proofs.Mail.Fifo

/-!
# Sending ends

Which mailboxes still have their sending ends after each operation on a roster: only hang-ups take
them away, and only from those who are hung up on.
-/

namespace UpdateRelay

/-- Whether there is a mailbox at a place and it has its sending end. -/
def Mailroom.Sends (room : Mailroom) (place : Nat) : Prop :=
  ∃ box, room.get? place = some box ∧ box.hasSender = true

namespace Mailroom

theorem not_sends_empty (place : Nat) : ¬Mailroom.empty.Sends place := by
  rintro ⟨box, found, _⟩
  simp [get?, empty] at found

theorem sends_modify {room : Mailroom} {place : Nat} {change : Mailbox → Mailbox}
    (kept : ∀ box, (change box).hasSender = box.hasSender) (query : Nat) :
    (room.modify place change).Sends query ↔ room.Sends query := by
  unfold Sends
  rw [get?_modify]
  by_cases here : place = query <;> cases found : room.get? query <;> simp [here, kept]

theorem sends_hangUp (room : Mailroom) (place query : Nat) :
    (room.modify place Mailbox.hangUp).Sends query ↔ query ≠ place ∧ room.Sends query := by
  unfold Sends
  rw [get?_modify]
  by_cases here : place = query
  · subst here
    cases room.get? place <;> simp [Mailbox.hangUp]
  · simp [here, Ne.symm here]

theorem sends_add (room : Mailroom) (capacity query : Nat) :
    (room.add capacity).Sends query ↔ query = room.nextPlace ∨ room.Sends query := by
  unfold Sends
  rw [get?_add]
  by_cases here : query = room.nextPlace <;> simp [here, Mailbox.fresh]

end Mailroom

theorem Feed.hasSender_change (feed : Feed) (box : Mailbox) :
    (feed.change box).hasSender = box.hasSender := by
  cases feed with
  | offer event =>
    simp only [change, Mailbox.offer]
    cases box.verdict <;> rfl
  | receive | drain | abandon => rfl

theorem Feed.hasSender_changeAll (feeds : List Feed) (box : Mailbox) :
    (changeAll feeds box).hasSender = box.hasSender := by
  induction feeds generalizing box with
  | nil => rfl
  | cons feed feeds inductionHypothesis =>
    exact (inductionHypothesis (feed.change box)).trans (feed.hasSender_change box)

namespace Roster

theorem sends_offerEach (event : Event) (entries : List (SubscriberId × Nat)) (room : Mailroom)
    (query : Nat) : (offerEach event entries room).1.Sends query ↔ room.Sends query := by
  induction entries generalizing room with
  | nil => simp [offerEach]
  | cons entry entries inductionHypothesis =>
    rw [offerEach, inductionHypothesis]
    exact Mailroom.sends_modify (Feed.offer event).hasSender_change query

theorem sends_hangUp (roster : Roster) (id : SubscriberId) (room : Mailroom) (query : Nat) :
    (roster.hangUp id room).Sends query ↔ roster.place? id ≠ some query ∧ room.Sends query := by
  unfold hangUp
  cases found : roster.place? id with
  | none => simp
  | some place => simp [Mailroom.sends_hangUp, eq_comm]

theorem sends_hangUpEach (roster : Roster) (ids : List SubscriberId) (room : Mailroom)
    (query : Nat) : (roster.hangUpEach ids room).Sends query ↔
      (∀ id ∈ ids, roster.place? id ≠ some query) ∧ room.Sends query := by
  induction ids generalizing room with
  | nil => simp [hangUpEach]
  | cons id ids inductionHypothesis =>
    have step : roster.hangUpEach (id :: ids) room =
        roster.hangUpEach ids (roster.hangUp id room) := rfl
    rw [step, inductionHypothesis, sends_hangUp, List.forall_mem_cons]
    tauto

theorem sends_hangUpAll (roster : Roster) (room : Mailroom) (query : Nat) :
    (roster.hangUpAll room).Sends query ↔ query ∉ roster.places ∧ room.Sends query := by
  unfold hangUpAll
  induction roster.places generalizing room with
  | nil => simp
  | cons place places inductionHypothesis =>
    rw [List.foldl_cons, inductionHypothesis, Mailroom.sends_hangUp, List.mem_cons]
    tauto

/-- All subscribers of some rosters lose their sending ends, and nobody else. -/
theorem sends_foldl_hangUpAll (rosters : List Roster) (room : Mailroom) (query : Nat) :
    (rosters.foldl (fun room roster => roster.hangUpAll room) room).Sends query ↔
      (∀ roster ∈ rosters, query ∉ roster.places) ∧ room.Sends query := by
  induction rosters generalizing room with
  | nil => simp
  | cons roster rosters inductionHypothesis =>
    rw [List.foldl_cons, inductionHypothesis, sends_hangUpAll, List.forall_mem_cons]
    tauto

end Roster

end UpdateRelay
