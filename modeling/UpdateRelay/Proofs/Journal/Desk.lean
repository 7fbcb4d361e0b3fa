import UpdateRelay.Proofs.Journal.ReaderSystem
import UpdateRelay.Proofs.Table

/-!
# Desks are reader systems

A desk lets each of its readers ask without interruption, and serves those that wait in the order of
its line whenever its journal has changed. `Desk.Reached` are the desks that come of any of its
operations, in any order. Each of them is a reader system after some run, as `Desk.Reached.is_run`
says: the journal is the same, and the readers of the desk are among those of the system, each as
far with asking as it is at the desk. So what holds in every run of a reader system holds at desks.
-/

namespace UpdateRelay

/-! ## The readers of a desk -/

/-- The reader of a seat, unless it waits in the line. -/
def Seat.states : Seat → List ReaderState
  | .idle reader | .served reader _ => [⟨reader, .no⟩]
  | .waiting _ => []

def Waiter.state (waiter : Waiter) : ReaderState := ⟨waiter.reader, .waiting⟩

/-- The readers of seats and of a line, and how far each is with asking. -/
def heldStates (seats : Table String Seat) (line : List Waiter) : List ReaderState :=
  seats.values.flatMap Seat.states ++ line.map Waiter.state

section HeldStates

variable {seats : Table String Seat} {name : String} {old : Seat} (line : List Waiter)

theorem perm_heldStates (found : seats.get? name = some old) :
    (heldStates seats line).Perm (old.states ++ heldStates (seats.erase name) line) := by
  have split := (Table.perm_values found).flatMap_right Seat.states
  rw [heldStates, heldStates, ← List.append_assoc]
  exact split.append_right _

theorem perm_heldStates_replace (found : seats.get? name = some old) (seat : Seat) :
    (heldStates (seats.replace name seat) line).Perm
      (seat.states ++ heldStates (seats.erase name) line) := by
  have now : (seats.replace name seat).get? name = some seat := by
    rw [Table.get?_replace, if_pos rfl, found, Option.map_some]
  have split := perm_heldStates line now
  rwa [Table.erase_replace] at split

theorem perm_heldStates_set (seats : Table String Seat) (name : String) (seat : Seat) :
    (heldStates (seats.set name seat) line).Perm
      (seat.states ++ heldStates (seats.erase name) line) := by
  have now : (seats.set name seat).get? name = some seat := by
    rw [Table.get?_set, if_pos rfl]
  have split := perm_heldStates line now
  rwa [Table.erase_set] at split

/-- Whoever joins a line waits at its end. -/
theorem perm_heldStates_concat (seats : Table String Seat) (waiter : Waiter) :
    (waiter.state :: heldStates seats line).Perm (heldStates seats (line ++ [waiter])) := by
  rw [heldStates, heldStates, List.map_append, ← List.append_assoc]
  exact (List.perm_append_singleton _ _).symm

end HeldStates

/-! ## What reader systems come to -/

namespace ReaderSystem

/-- Whether a reader system comes to have a journal, and some readers among all that it has. -/
def Reaches (createsOnDemand : Bool) (journal : Journal) (states : List ReaderState) : Prop :=
  ∃ actions others, (reached createsOnDemand actions).journal = journal ∧
    (reached createsOnDemand actions).states.Perm (states ++ others)

namespace Reaches

variable {createsOnDemand : Bool} {journal : Journal} {states : List ReaderState}
  {state : ReaderState}

theorem perm (reaches : Reaches createsOnDemand journal states) {listed : List ReaderState}
    (same : states.Perm listed) : Reaches createsOnDemand journal listed := by
  obtain ⟨actions, others, isJournal, all⟩ := reaches
  exact ⟨actions, others, isJournal, all.trans (same.append_right others)⟩

/-- A reader that is not listed any more is one of the others. -/
theorem unlist (reaches : Reaches createsOnDemand journal (state :: states)) :
    Reaches createsOnDemand journal states := by
  obtain ⟨actions, others, isJournal, all⟩ := reaches
  exact ⟨actions, state :: others, isJournal, all.trans List.perm_middle.symm⟩

/-- What happens to the journal alone. -/
theorem onJournal (reaches : Reaches createsOnDemand journal states) {after : Journal}
    (action : Action) (performed : ∀ {system : ReaderSystem}, system.journal = journal →
      system.perform action = ⟨after, system.states⟩) :
    Reaches createsOnDemand after states := by
  obtain ⟨actions, others, isJournal, all⟩ := reaches
  have last : reached createsOnDemand (actions ++ [action]) =
      ⟨after, (reached createsOnDemand actions).states⟩ :=
    (performAll_append ..).trans (performed isJournal)
  exact ⟨actions ++ [action], others, by rw [last], by rwa [last]⟩

/-- What happens to one of the readers. -/
theorem onReader (reaches : Reaches createsOnDemand journal (state :: states)) {after : Journal}
    {moved : ReaderState} (action : Nat → Action)
    (performed : ∀ {system : ReaderSystem} {index : Nat}, system.journal = journal →
      system.states[index]? = some state →
        system.perform (action index) = ⟨after, system.states.set index moved⟩) :
    Reaches createsOnDemand after (moved :: states) := by
  obtain ⟨actions, others, isJournal, all⟩ := reaches
  -- Readers are listed up to their order, so the number that the action needs is looked up.
  obtain ⟨index, found⟩ := List.mem_iff_getElem?.1 (all.mem_iff.2 List.mem_cons_self)
  obtain ⟨front, back, split, isSet⟩ := exists_split_of_get? found
  have last : reached createsOnDemand (actions ++ [action index]) =
      ⟨after, front ++ moved :: back⟩ := by
    rw [← isSet]
    exact (performAll_append ..).trans (performed isJournal found)
  have rest : (front ++ back).Perm (states ++ others) := by
    rw [split] at all
    exact (List.perm_middle.symm.trans all).cons_inv
  refine ⟨actions ++ [action index], others, by rw [last], ?_⟩
  rw [last]
  exact List.perm_middle.trans (rest.cons moved)

theorem ask (reaches : Reaches createsOnDemand journal (state :: states)) :
    Reaches createsOnDemand (state.step journal).2.1 ((state.step journal).1 :: states) :=
  reaches.onReader .ask fun isJournal found => by simp only [ReaderSystem.perform, found, isJournal]

theorem abandon (reaches : Reaches createsOnDemand journal (state :: states)) :
    Reaches createsOnDemand journal (⟨state.reader, .no⟩ :: states) :=
  reaches.onReader .abandon fun isJournal found => by
    simp only [ReaderSystem.perform, found, isJournal]

theorem leave (reaches : Reaches createsOnDemand journal (state :: states)) :
    Reaches createsOnDemand (journal.leave state.reader) (⟨state.reader.release, .no⟩ :: states) :=
  reaches.onReader .leave fun isJournal found => by
    simp only [ReaderSystem.perform, found, isJournal]

/-- A reader that may look polls the journal by asking twice. -/
theorem poll (reaches : Reaches createsOnDemand journal (state :: states))
    (mayLook : state.asking = .no ∨
      state.asking = .waiting ∧ journal.mustLook state.reader = true)
    {looked : Reader} {after : Journal} {result : Option ReadResult}
    (polled : journal.poll state.reader = (looked, after, result)) :
    Reaches createsOnDemand after
      (⟨looked, if result.isNone then .waiting else .no⟩ :: states) := by
  have asked := reaches.ask.ask
  rwa [ReaderState.step_step mayLook, polled] at asked

theorem attach (reaches : Reaches createsOnDemand journal states) {name group : String}
    {after : Journal} {reader : Reader}
    (attached : journal.attach name group = (after, .ok reader)) :
    Reaches createsOnDemand after (⟨reader, .no⟩ :: states) := by
  obtain ⟨actions, others, isJournal, all⟩ := reaches
  have last : reached createsOnDemand (actions ++ [.attach name group]) =
      ⟨after, (reached createsOnDemand actions).states ++ [⟨reader, .no⟩]⟩ := by
    refine (performAll_append ..).trans ?_
    simp only [performAll, ReaderSystem.perform, reached] at isJournal ⊢
    rw [isJournal, attached]
  refine ⟨actions ++ [.attach name group], others, by rw [last], ?_⟩
  rw [last]
  exact (List.perm_append_singleton _ _).trans (all.cons _)

end Reaches

end ReaderSystem

/-! ## Operations of a desk -/

namespace Desk

open ReaderSystem (Reaches)

variable {createsOnDemand : Bool} {desk : Desk} {others : List ReaderState} {name : String}
  {reader : Reader}

/-- Whether a reader system comes to have the journal of a desk and all readers of the desk. -/
def IsRun (createsOnDemand : Bool) (desk : Desk) : Prop :=
  Reaches createsOnDemand desk.journal (heldStates desk.seats desk.line)

theorem exists_waiting_of_holder? {ticket : Nat} (holds : desk.holder? ticket = some name) :
    ∃ held, desk.seats.get? name = some (.waiting held) := by
  obtain ⟨⟨_, seat⟩, found, rfl⟩ := Option.map_eq_some_iff.1 holds
  have member := List.mem_of_find?_eq_some found
  have waits := List.find?_some found
  cases seat with
  | waiting held => exact ⟨held, Table.get?_eq_some_iff.2 member⟩
  | idle | served => contradiction

/-- Whoever gets a result rests with it, or leaves if it has no name any more. -/
theorem reaches_deliver {ticket : Nat} (result : ReadResult)
    (reaches : Reaches createsOnDemand desk.journal
      (⟨reader, .no⟩ :: (others ++ heldStates desk.seats desk.line))) :
    Reaches createsOnDemand (desk.deliver ticket reader result).journal (others ++
      heldStates (desk.deliver ticket reader result).seats
        (desk.deliver ticket reader result).line) := by
  unfold deliver
  split
  next name holds =>
    obtain ⟨held, found⟩ := exists_waiting_of_holder? holds
    have waited : (heldStates desk.seats desk.line).Perm
        (heldStates (desk.seats.erase name) desk.line) :=
      perm_heldStates desk.line found
    have rests : (heldStates (desk.seats.replace name (.served reader result)) desk.line).Perm
        (⟨reader, .no⟩ :: heldStates (desk.seats.erase name) desk.line) :=
      perm_heldStates_replace desk.line found (.served reader result)
    have same := (waited.cons _).trans rests.symm
    exact reaches.perm (List.perm_middle.symm.trans (same.append_left others))
  next => exact reaches.leave.unlist

/-- Serving a line, which ends when all its waiters were served or have their places again. -/
theorem isRun_serveEach {line : List Waiter}
    (reaches : Reaches createsOnDemand desk.journal
      (line.map Waiter.state ++ heldStates desk.seats desk.line)) :
    (serveEach line desk).IsRun createsOnDemand := by
  -- What is kept: the readers are those still to be served and those of the desk, whose line grows
  -- by the ones that are put back.
  induction line generalizing desk with
  | nil => exact reaches
  | cons waiter rest inductionHypothesis =>
    have keepsPlace (reader : Reader) := List.perm_middle.symm.trans
      ((perm_heldStates_concat desk.line desk.seats ⟨waiter.ticket, reader⟩).append_left
        (rest.map Waiter.state))
    unfold serveEach
    split
    next mustLook =>
      split
      next reader journal result polled =>
        have served : Reaches createsOnDemand { desk with journal := journal }.journal
            (⟨reader, .no⟩ :: (rest.map Waiter.state ++ heldStates desk.seats desk.line)) :=
          reaches.poll (Or.inr ⟨rfl, mustLook⟩) polled
        exact inductionHypothesis (reaches_deliver result served)
      next reader journal polled =>
        have waits := reaches.poll (Or.inr ⟨rfl, mustLook⟩) polled
        exact inductionHypothesis (waits.perm (keepsPlace reader))
    next => exact inductionHypothesis (reaches.perm (keepsPlace waiter.reader))

/-- What a seat holds leaves the journal when it is given up, whoever else there is. -/
theorem reaches_vacate (name : String)
    (reaches : Reaches createsOnDemand desk.journal
      (others ++ heldStates desk.seats desk.line)) :
    Reaches createsOnDemand (desk.vacate name).journal
      (others ++ heldStates (desk.vacate name).seats (desk.vacate name).line) := by
  have split {seat : Seat} (found : desk.seats.get? name = some seat) :
      (others ++ heldStates desk.seats desk.line).Perm
        (seat.states ++ (others ++ heldStates (desk.seats.erase name) desk.line)) := by
    rw [← List.append_assoc]
    refine ((perm_heldStates desk.line found).append_left others).trans ?_
    rw [← List.append_assoc]
    exact List.perm_append_comm.append_right _
  unfold vacate
  split
  next reader found => exact (reaches.perm (split found)).leave.unlist
  next reader result found => exact (reaches.perm (split found)).leave.unlist
  next found => exact reaches.perm (split found)
  next => exact reaches

theorem get?_vacate (desk : Desk) (name : String) : (desk.vacate name).seats.get? name = none := by
  unfold vacate
  split
  next => rw [Table.get?_erase, if_pos rfl]
  next => rw [Table.get?_erase, if_pos rfl]
  next => rw [Table.get?_erase, if_pos rfl]
  next absent => exact absent

theorem get?_of_idle? (idle : desk.idle? name = some reader) :
    desk.seats.get? name = some (.idle reader) := by
  unfold idle? at idle
  split at idle
  next found => rw [found, Option.some.inj idle]
  next => contradiction

namespace IsRun

variable (isRun : desk.IsRun createsOnDemand)

include isRun

theorem serve : desk.serve.IsRun createsOnDemand := by
  refine isRun_serveEach (isRun.perm ?_)
  exact List.perm_append_comm.trans (by simp [heldStates])

/-- What happens to the journal alone, after which the line is served. -/
theorem withJournal {journal : Journal} (action : ReaderSystem.Action)
    (performed : ∀ {system : ReaderSystem}, system.journal = desk.journal →
      system.perform action = ⟨journal, system.states⟩) :
    (desk.withJournal journal).IsRun createsOnDemand :=
  serve (isRun.onJournal action performed)

theorem vacate (name : String) : (desk.vacate name).IsRun createsOnDemand :=
  @reaches_vacate createsOnDemand desk [] name isRun

theorem attach (name topic group : String) :
    (desk.attach name topic group).1.IsRun createsOnDemand := by
  unfold Desk.attach
  split
  next journal cause attached =>
    rw [Journal.attach_eq_error attached]
    exact isRun
  next journal reader attached =>
    -- The new reader is opened before the seat that it gets is given up.
    have vacated := @reaches_vacate createsOnDemand { desk with journal := journal }
      [⟨reader, .no⟩] name (Reaches.attach isRun attached)
    have free := get?_vacate { desk with journal := journal } name
    generalize { desk with journal := journal }.vacate name = after at vacated free
    have taken := perm_heldStates_set after.line after.seats name (.idle reader)
    rw [Table.erase_eq_self free] at taken
    exact vacated.perm taken.symm

/-- A seat whose reader polled the journal. -/
theorem poll (idle : desk.idle? name = some reader) {looked : Reader} {journal : Journal}
    {result : Option ReadResult} (polled : desk.journal.poll reader = (looked, journal, result)) :
    Reaches createsOnDemand journal (⟨looked, if result.isNone then .waiting else .no⟩ ::
      heldStates (desk.seats.erase name) desk.line) :=
  (Reaches.perm isRun (perm_heldStates desk.line (get?_of_idle? idle))).poll (Or.inl rfl) polled

theorem next (idle : desk.idle? name = some reader) :
    (desk.next name reader).1.IsRun createsOnDemand := by
  have found := get?_of_idle? idle
  unfold Desk.next
  cases polled : desk.journal.poll reader with
  | mk looked rest =>
    -- A reader that found nothing gives up waiting at once.
    exact (isRun.poll idle polled).abandon.perm
      (perm_heldStates_replace desk.line found (.idle looked)).symm

theorem wait (idle : desk.idle? name = some reader) :
    (desk.wait name reader).IsRun createsOnDemand := by
  have found := get?_of_idle? idle
  unfold Desk.wait
  split
  next looked journal result polled =>
    exact (isRun.poll idle polled).perm
      (perm_heldStates_replace desk.line found (.served looked result)).symm
  next looked journal polled =>
    have waits : (heldStates (desk.seats.replace name (.waiting desk.nextTicket)) desk.line).Perm
        (heldStates (desk.seats.erase name) desk.line) :=
      perm_heldStates_replace desk.line found (.waiting desk.nextTicket)
    exact ((isRun.poll idle polled).perm (waits.symm.cons _)).perm
      (perm_heldStates_concat desk.line _ ⟨desk.nextTicket, looked⟩)

theorem collect (name : String) : (desk.collect name).1.IsRun createsOnDemand := by
  unfold Desk.collect
  split
  next reader result found =>
    have before := perm_heldStates desk.line found
    have now := perm_heldStates_replace desk.line found (.idle reader)
    exact isRun.perm (before.trans now.symm)
  next => exact isRun

theorem closeReader (idle : desk.idle? name = some reader) :
    (desk.closeReader name reader).IsRun createsOnDemand := by
  have found := get?_of_idle? idle
  have left := (Reaches.perm isRun (perm_heldStates desk.line found)).leave
  exact left.perm (perm_heldStates_replace desk.line found (.idle reader.release)).symm

end IsRun

/-- The desks that come of any operations, in any order. -/
inductive Reached (createsOnDemand : Bool) : Desk → Prop
  | empty : Reached createsOnDemand (.empty createsOnDemand)
  | makeTopic {desk : Desk} (reached : Reached createsOnDemand desk) (topic : String) :
      Reached createsOnDemand (desk.withJournal (desk.journal.makeTopic topic).1)
  | append {desk : Desk} (reached : Reached createsOnDemand desk) (topic : String)
      (record : JournalRecord) :
      Reached createsOnDemand (desk.withJournal (desk.journal.append topic record).1)
  | removeTopic {desk : Desk} (reached : Reached createsOnDemand desk) (topic : String) :
      Reached createsOnDemand (desk.withJournal (desk.journal.removeTopic topic))
  | close {desk : Desk} (reached : Reached createsOnDemand desk) :
      Reached createsOnDemand (desk.withJournal desk.journal.close)
  | breakDown {desk : Desk} (reached : Reached createsOnDemand desk) (appends : Nat)
      (refusesCreation : Bool) :
      Reached createsOnDemand (desk.withJournal
        { desk.journal with brokenAppends := appends, refusesCreation := refusesCreation })
  | serve {desk : Desk} (reached : Reached createsOnDemand desk) :
      Reached createsOnDemand desk.serve
  | attach {desk : Desk} (reached : Reached createsOnDemand desk) (name topic group : String) :
      Reached createsOnDemand (desk.attach name topic group).1
  | vacate {desk : Desk} (reached : Reached createsOnDemand desk) (name : String) :
      Reached createsOnDemand (desk.vacate name)
  | collect {desk : Desk} (reached : Reached createsOnDemand desk) (name : String) :
      Reached createsOnDemand (desk.collect name).1
  | next {desk : Desk} (reached : Reached createsOnDemand desk) {name : String} {reader : Reader}
      (idle : desk.idle? name = some reader) : Reached createsOnDemand (desk.next name reader).1
  | wait {desk : Desk} (reached : Reached createsOnDemand desk) {name : String} {reader : Reader}
      (idle : desk.idle? name = some reader) : Reached createsOnDemand (desk.wait name reader)
  | closeReader {desk : Desk} (reached : Reached createsOnDemand desk) {name : String}
      {reader : Reader} (idle : desk.idle? name = some reader) :
      Reached createsOnDemand (desk.closeReader name reader)

/-- Every desk is a reader system after some run: the journal is the same, and the readers with a
name and those in the line are among those of the system, each as far with asking. -/
theorem Reached.is_run (reached : Reached createsOnDemand desk) :
    ∃ actions others, (ReaderSystem.reached createsOnDemand actions).journal = desk.journal ∧
      (ReaderSystem.reached createsOnDemand actions).states.Perm
        (heldStates desk.seats desk.line ++ others) := by
  change desk.IsRun createsOnDemand
  -- By induction on what was done at the desk: each operation goes on from a run to a longer one.
  induction reached with
  | empty => exact ⟨[], [], rfl, .refl _⟩
  | makeTopic _ topic isRun =>
    exact isRun.withJournal (.makeTopic topic) fun same => by simp only [ReaderSystem.perform, same]
  | append _ topic record isRun =>
    exact isRun.withJournal (.append topic record) fun same => by
      simp only [ReaderSystem.perform, same]
  | removeTopic _ topic isRun =>
    exact isRun.withJournal (.removeTopic topic) fun same => by
      simp only [ReaderSystem.perform, same]
  | close _ isRun =>
    exact isRun.withJournal .close fun same => by simp only [ReaderSystem.perform, same]
  | breakDown _ appends refusesCreation isRun =>
    exact isRun.withJournal (.breakDown appends refusesCreation) fun same => by
      simp only [ReaderSystem.perform, same]
  | serve _ isRun => exact isRun.serve
  | attach _ name topic group isRun => exact isRun.attach name topic group
  | vacate _ name isRun => exact isRun.vacate name
  | collect _ name isRun => exact isRun.collect name
  | next _ idle isRun => exact isRun.next idle
  | wait _ idle isRun => exact isRun.wait idle
  | closeReader _ idle isRun => exact isRun.closeReader idle

/-- Whoever waits in the line waits for good reason: its group has got all records that the topic
had when the reader last looked. -/
theorem Reached.hasRead (reached : Reached createsOnDemand desk) {waiter : Waiter}
    (member : waiter ∈ desk.line) : desk.journal.HasRead waiter.reader := by
  obtain ⟨actions, others, isJournal, all⟩ := reached.is_run
  have listed : waiter.state ∈ (ReaderSystem.reached createsOnDemand actions).states := by
    refine all.mem_iff.2 (List.mem_append_left others (List.mem_append_right _ ?_))
    exact List.mem_map_of_mem member
  rw [← isJournal]
  exact (ReaderSystem.sound_reached createsOnDemand actions).read _ listed rfl

end Desk

end UpdateRelay
