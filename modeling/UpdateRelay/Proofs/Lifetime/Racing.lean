import Mathlib.Data.ENat.Lattice
import UpdateRelay.Proofs.Lifetime.Inheritance

/-!
# Work against its lifetime

Work under a lifetime races with the cancellations that reach the lifetime and with its deadline.
Whichever is first decides how the race ends and when, the deadline before the work at one instant.
-/

namespace UpdateRelay

/-- A cancellation of a lifetime some milliseconds from now. -/
structure Planned where
  name : Nat
  delay : Nat
  deriving DecidableEq, Repr

/-- A time that may be never. -/
def timeOf (time : Option Nat) : ℕ∞ := time.elim ⊤ (↑)

@[simp] theorem timeOf_none : timeOf none = ⊤ := rfl

@[simp] theorem timeOf_some (time : Nat) : timeOf (some time) = time := rfl

/-- After how long the first of some planned cancellations reaches a lifetime. -/
noncomputable def History.firstReach (history : History) (plan : List Planned) (name : Nat) : ℕ∞ :=
  sInf ((fun planned => (planned.delay : ℕ∞)) ''
    {planned | planned ∈ plan ∧ history.Reaches planned.name name})

/-- How long it is to the earliest limit of a lifetime. -/
noncomputable def History.timeLeft (history : History) (name : Nat) : ℕ∞ :=
  sInf ((fun instant => ((instant - history.now : Nat) : ℕ∞)) ''
    {instant | history.Limit name instant})

/-- The tree of a family in which some cancellations are still to come. -/
def Family.scheduled (family : Family) (plan : List Planned) : LifetimeTree :=
  plan.foldl (fun tree planned =>
    match family.lifetimes[planned.name]? with
    | some lifetime => tree.cancelLater lifetime planned.delay
    | none => tree) family.tree

/-! ## The first of three times -/

/-- Whether a race with this verdict after this time went to the first of a cancellation, the
deadline and the end of the work. -/
structure Verdict.Settles (verdict : Verdict) (reached limit needed time : ℕ∞) : Prop where
  finished : verdict = .finished ↔ needed < reached ∧ needed < limit
  cancelled : verdict = .stopped .cancelled ↔ reached < limit ∧ reached < needed
  late : verdict = .stopped .deadlineExceeded ↔ limit < reached ∧ limit ≤ needed
  unending : verdict = .unending ↔ time = ⊤
  earliest : time = min reached (min limit needed)

section Settles

variable {reached limit needed : ℕ∞}

theorem settles_finished (beforeCancelled : needed < reached) (beforeLimit : needed < limit) :
    Verdict.finished.Settles reached limit needed needed where
  finished := iff_of_true rfl ⟨beforeCancelled, beforeLimit⟩
  cancelled := iff_of_false nofun fun other => other.2.not_gt beforeCancelled
  late := iff_of_false nofun fun other => other.2.not_gt beforeLimit
  unending := iff_of_false nofun beforeLimit.ne_top
  earliest := by rw [min_eq_right beforeLimit.le, min_eq_right beforeCancelled.le]

theorem settles_cancelled (beforeLimit : reached < limit) (beforeDone : reached < needed) :
    (Verdict.stopped .cancelled).Settles reached limit needed reached where
  finished := iff_of_false nofun fun other => other.1.not_gt beforeDone
  cancelled := iff_of_true rfl ⟨beforeLimit, beforeDone⟩
  late := iff_of_false nofun fun other => other.1.not_gt beforeLimit
  unending := iff_of_false nofun beforeLimit.ne_top
  earliest := (min_eq_left (le_min beforeLimit.le beforeDone.le)).symm

theorem settles_late (beforeCancelled : limit < reached) (beforeDone : limit ≤ needed) :
    (Verdict.stopped .deadlineExceeded).Settles reached limit needed limit where
  finished := iff_of_false nofun fun other => other.2.not_ge beforeDone
  cancelled := iff_of_false nofun fun other => other.1.not_gt beforeCancelled
  late := iff_of_true rfl ⟨beforeCancelled, beforeDone⟩
  unending := iff_of_false nofun beforeCancelled.ne_top
  earliest := by rw [min_eq_left beforeDone, min_eq_right beforeCancelled.le]

theorem settles_unending : Verdict.unending.Settles ⊤ ⊤ ⊤ ⊤ where
  finished := iff_of_false nofun fun other => other.1.false
  cancelled := iff_of_false nofun fun other => other.1.false
  late := iff_of_false nofun fun other => other.1.false
  unending := iff_of_true rfl rfl
  earliest := by simp

end Settles

namespace LifetimeTree

/-! ## The agenda -/

/-- Whether a cancellation is of a token in the lineage of a lifetime. -/
def hits (lifetime : Lifetime) (cancellation : Cancellation) : Bool :=
  cancellation.lifetime.lineage.head?.any fun token => token ∈ lifetime.lineage

/-- Whether the cancellations to come are in the order of their instants, none of which has
passed. -/
structure Orderly (tree : LifetimeTree) : Prop where
  ordered : tree.agenda.Pairwise fun first second => first.instant ≤ second.instant
  ahead : ∀ cancellation ∈ tree.agenda, tree.now ≤ cancellation.instant

theorem mem_insertByInstant {cancellation other : Cancellation} {agenda : List Cancellation} :
    other ∈ insertByInstant cancellation agenda ↔ other = cancellation ∨ other ∈ agenda := by
  induction agenda with
  | nil => simp [insertByInstant]
  | cons first rest inductionHypothesis =>
    unfold insertByInstant
    split
    next => simp
    next => simp only [List.mem_cons, inductionHypothesis, or_left_comm]

theorem ordered_insertByInstant {cancellation : Cancellation} {agenda : List Cancellation}
    (ordered : agenda.Pairwise fun first second => first.instant ≤ second.instant) :
    (insertByInstant cancellation agenda).Pairwise
      fun first second => first.instant ≤ second.instant := by
  induction agenda with
  | nil => exact List.pairwise_singleton _ _
  | cons first rest inductionHypothesis =>
    obtain ⟨least, restOrdered⟩ := List.pairwise_cons.1 ordered
    unfold insertByInstant
    split
    next sooner =>
      refine List.pairwise_cons.2 ⟨fun other member => ?_, ordered⟩
      rcases List.mem_cons.1 member with rfl | later
      · exact Nat.le_of_lt sooner
      · exact Nat.le_trans (Nat.le_of_lt sooner) (least other later)
    next later =>
      refine List.pairwise_cons.2 ⟨fun other member => ?_, inductionHypothesis restOrdered⟩
      rcases mem_insertByInstant.1 member with rfl | member
      · exact Nat.le_of_not_lt later
      · exact least other member

theorem Orderly.cancelLater {tree : LifetimeTree} (orderly : tree.Orderly) (lifetime : Lifetime)
    (delay : Nat) : (tree.cancelLater lifetime delay).Orderly where
  ordered := ordered_insertByInstant orderly.ordered
  ahead := by
    intro cancellation member
    rcases mem_insertByInstant.1 member with rfl | member
    · exact Nat.le_add_right _ _
    · exact orderly.ahead cancellation member

/-- The first cancellation to come is carried out as if no time passed before it. -/
theorem Orderly.cancelNext {tree : LifetimeTree} {first : Cancellation} {rest : List Cancellation}
    (orderly : tree.Orderly) (agenda : tree.agenda = first :: rest) :
    (tree.cancelNext first rest).Orderly := by
  obtain ⟨ordered, ahead⟩ := orderly
  rw [agenda] at ordered ahead
  obtain ⟨least, restOrdered⟩ := List.pairwise_cons.1 ordered
  exact ⟨restOrdered, fun other member =>
    Nat.max_le.2 ⟨ahead other (List.mem_cons_of_mem _ member), least other member⟩⟩

theorem isCancelled_cancelNext (tree : LifetimeTree) (first : Cancellation)
    (rest : List Cancellation) (lifetime : Lifetime) :
    (tree.cancelNext first rest).isCancelled lifetime =
      (hits lifetime first || tree.isCancelled lifetime) := by
  have same : (tree.cancelNext first rest).isCancelled lifetime =
      (tree.cancel first.lifetime).isCancelled lifetime := rfl
  rw [same, Bool.eq_iff_iff, Bool.or_eq_true, hits, Option.any_eq_true]
  simpa only [decide_eq_true_eq] using tree.isCancelled_cancel first.lifetime lifetime

/-! ## The race -/

/-- The instant of the first cancellation on an agenda that reaches a lifetime. -/
def firstHit? (lifetime : Lifetime) (agenda : List Cancellation) : Option Nat :=
  (agenda.find? (hits lifetime)).map (·.instant)

/-- How a race ends and when, from the instant at which its lifetime is cancelled and from what the
clock alone does. -/
def outcome : (cancelled : Option Nat) → (up : Option (Nat × Verdict)) → Verdict × Option Nat
  | none, none => (.unending, none)
  | some cancelled, none => (.stopped .cancelled, some cancelled)
  | none, some (instant, verdict) => (verdict, some instant)
  | some cancelled, some (instant, verdict) =>
      if instant ≤ cancelled then (verdict, some instant)
      else (.stopped .cancelled, some cancelled)

theorem outcome_of_le {cancelled : Option Nat} {instant : Nat} {verdict : Verdict}
    (first : ∀ other ∈ cancelled, instant ≤ other) :
    outcome cancelled (some (instant, verdict)) = (verdict, some instant) := by
  cases cancelled with
  | none => rfl
  | some cancelled => exact if_pos (first cancelled rfl)

theorem outcome_of_lt {cancelled : Nat} {up : Option (Nat × Verdict)}
    (first : ∀ other ∈ up, cancelled < other.1) :
    outcome (some cancelled) up = (.stopped .cancelled, some cancelled) := by
  cases up with
  | none => rfl
  | some up => exact if_neg (Nat.not_le_of_lt (first up rfl))

/-- A race ends at one of the instants that decide it. -/
theorem mem_outcome {cancelled : Option Nat} {up : Option (Nat × Verdict)} {instant : Nat}
    (ends : instant ∈ (outcome cancelled up).2) :
    cancelled = some instant ∨ ∃ verdict, up = some (instant, verdict) := by
  rcases cancelled with _ | cancelled <;> rcases up with _ | ⟨other, verdict⟩
  · contradiction
  · obtain rfl := Option.some.inj ends
    exact Or.inr ⟨verdict, rfl⟩
  · exact Or.inl ends
  · simp only [outcome] at ends
    split at ends
    next =>
      obtain rfl := Option.some.inj ends
      exact Or.inr ⟨verdict, rfl⟩
    next => exact Or.inl ends

/-- Whether a race ended as said, with the tree moved on to the instant of its end. -/
def EndsAs (tree : LifetimeTree) (result : Verdict × LifetimeTree)
    (ended : Verdict × Option Nat) : Prop :=
  result.1 = ended.1 ∧ ∀ instant ∈ ended.2, result.2 = tree.moveTo instant

section Race

variable {tree : LifetimeTree} {lifetime : Lifetime} {finish : Option Nat}
  {first : Cancellation} {rest : List Cancellation}

theorem moveTo_cancelNext (isAgenda : tree.agenda = first :: rest) {instant : Nat}
    (due : first.instant ≤ instant) :
    (tree.cancelNext first rest).moveTo instant = tree.moveTo instant := by
  have settled : settleUntil instant tree.agenda tree =
      settleUntil instant rest (tree.cancelNext first rest) := by
    rw [isAgenda, settleUntil, if_pos due]
  rw [moveTo, moveTo, settled]
  rfl

theorem firstHit?_cons (hit : hits lifetime first = false) :
    firstHit? lifetime (first :: rest) = firstHit? lifetime rest := by
  rw [firstHit?, List.find?_cons_of_neg (by simp [hit]), firstHit?]

theorem le_firstHit? {agenda : List Cancellation} {instant : Nat}
    (least : ∀ other ∈ agenda, instant ≤ other.instant) {cancelled : Nat}
    (found : firstHit? lifetime agenda = some cancelled) : instant ≤ cancelled := by
  obtain ⟨other, isOther, rfl⟩ := Option.map_eq_some_iff.1 found
  exact least other (List.mem_of_find?_eq_some isOther)

theorem Orderly.le_of_find? (orderly : tree.Orderly) {reaching : Cancellation}
    (found : tree.agenda.find? (hits lifetime) = some reaching) {other : Cancellation}
    (isComing : other ∈ tree.agenda) (hit : hits lifetime other = true) :
    reaching.instant ≤ other.instant := by
  obtain ⟨-, before, after, isAgenda, missed⟩ := List.find?_eq_some_iff_append.1 found
  have ordered := orderly.ordered
  rw [isAgenda] at ordered isComing
  rcases List.mem_append.1 isComing with early | late
  · exact absurd hit (by simpa using missed other early)
  · rcases List.mem_cons.1 late with rfl | late
    · exact Nat.le_refl _
    · exact (List.pairwise_cons.1 (List.pairwise_append.1 ordered).2.1).1 other late

/-- A race that goes on past the first cancellation, if it does so in the rest of the agenda. -/
theorem endsAs_raceOn (orderly : tree.Orderly) (isAgenda : tree.agenda = first :: rest)
    (live : tree.isCancelled lifetime = false)
    (later : ∀ up ∈ timeUp? lifetime finish, first.instant < up.1)
    (onwards : hits lifetime first = false → (tree.cancelNext first rest).EndsAs
      (raceThrough lifetime finish rest (tree.cancelNext first rest))
      (outcome (firstHit? lifetime rest) (timeUp? lifetime finish))) :
    tree.EndsAs (raceThrough.raceOn lifetime finish first rest tree)
      (outcome (firstHit? lifetime (first :: rest)) (timeUp? lifetime finish)) := by
  have ahead : ∀ other ∈ rest, first.instant ≤ other.instant :=
    (List.pairwise_cons.1 (isAgenda ▸ orderly.ordered)).1
  unfold raceThrough.raceOn
  dsimp only
  rw [isCancelled_cancelNext, live, Bool.or_false]
  cases hit : hits lifetime first with
  | true =>
    have now : (tree.cancelNext first rest).now = first.instant :=
      Nat.max_eq_right (orderly.ahead first (isAgenda ▸ List.mem_cons_self))
    have found : firstHit? lifetime (first :: rest) = some first.instant := by
      rw [firstHit?, List.find?_cons_of_pos hit, Option.map_some]
    rw [if_pos rfl, found, outcome_of_lt later, now, moveTo_cancelNext isAgenda (Nat.le_refl _)]
    exact ⟨rfl, fun instant same => by rw [Option.mem_some.1 same]⟩
  | false =>
    obtain ⟨verdict, moved⟩ := onwards hit
    rw [if_neg Bool.false_ne_true, firstHit?_cons hit]
    refine ⟨verdict, fun instant ends => ?_⟩
    rw [moved instant ends]
    refine moveTo_cancelNext isAgenda ?_
    rcases mem_outcome ends with found | ⟨_, up⟩
    · exact le_firstHit? ahead found
    · exact Nat.le_of_lt (later _ up)

/-- A race ends by what comes first: a cancellation on the agenda, or the clock. -/
theorem endsAs_raceThrough {agenda : List Cancellation} (orderly : tree.Orderly)
    (isAgenda : tree.agenda = agenda) (live : tree.isCancelled lifetime = false) :
    tree.EndsAs (raceThrough lifetime finish agenda tree)
      (outcome (firstHit? lifetime agenda) (timeUp? lifetime finish)) := by
  induction agenda generalizing tree with
  | nil =>
    unfold raceThrough
    cases timeUp? lifetime finish with
    | none => exact ⟨rfl, nofun⟩
    | some up => exact ⟨rfl, fun instant same => by rw [← Option.some.inj same]⟩
  | cons first rest inductionHypothesis =>
    have onwards : hits lifetime first = false → (tree.cancelNext first rest).EndsAs
        (raceThrough lifetime finish rest (tree.cancelNext first rest))
        (outcome (firstHit? lifetime rest) (timeUp? lifetime finish)) := by
      intro missed
      refine inductionHypothesis (orderly.cancelNext isAgenda) rfl ?_
      rw [isCancelled_cancelNext, live, missed]
      rfl
    unfold raceThrough
    cases up : timeUp? lifetime finish with
    | none =>
      have later : ∀ other ∈ timeUp? lifetime finish, first.instant < other.1 := by simp [up]
      have goesOn := endsAs_raceOn orderly isAgenda live later onwards
      rw [up] at goesOn
      exact goesOn
    | some other =>
      obtain ⟨instant, verdict⟩ := other
      dsimp only
      split
      next sooner =>
        have least : ∀ other ∈ first :: rest, instant ≤ other.instant :=
          List.forall_mem_cons.2 ⟨sooner, fun other member => Nat.le_trans sooner
            ((List.pairwise_cons.1 (isAgenda ▸ orderly.ordered)).1 other member)⟩
        rw [outcome_of_le fun _ found => le_firstHit? least found]
        exact ⟨rfl, fun _ same => by rw [← Option.some.inj same]⟩
      next later =>
        have after : ∀ other ∈ timeUp? lifetime finish, first.instant < other.1 := by
          rw [up]
          rintro _ ⟨⟩
          exact Nat.lt_of_not_le later
        have goesOn := endsAs_raceOn orderly isAgenda live after onwards
        rw [up] at goesOn
        exact goesOn

end Race

/-- What the clock does to a race, by the time to the deadline and the time that the work takes. -/
theorem timeUp?_cases (lineage : List Token) (now : Nat) (deadline duration : Option Nat) :
    let up := timeUp? ⟨lineage, deadline.map (now + ·)⟩ (duration.map (now + ·))
    (up = none ∧ deadline = none ∧ duration = none) ∨
      (∃ time, up = some (now + time, .stopped .deadlineExceeded) ∧ deadline = some time ∧
        (time : ℕ∞) ≤ timeOf duration) ∨
      ∃ time, up = some (now + time, .finished) ∧ duration = some time ∧
        (time : ℕ∞) < timeOf deadline := by
  cases deadline with
  | none =>
    cases duration with
    | none => exact Or.inl ⟨rfl, rfl, rfl⟩
    | some duration => exact Or.inr (Or.inr ⟨duration, rfl, rfl, ENat.natCast_lt_top duration⟩)
  | some deadline =>
    cases duration with
    | none => exact Or.inr (Or.inl ⟨deadline, rfl, rfl, le_top⟩)
    | some duration =>
      by_cases late : deadline ≤ duration
      · refine Or.inr (Or.inl ⟨deadline, if_pos ?_, rfl, Nat.cast_le.2 late⟩)
        exact Nat.add_le_add_left late now
      · refine Or.inr (Or.inr ⟨duration, if_neg ?_, rfl, Nat.cast_lt.2 (Nat.lt_of_not_le late)⟩)
        exact fun other => late (Nat.le_of_add_le_add_left other)

/-- Whether the clock or a cancellation is first, if they are not at one instant. -/
theorem outcome_cases {now time : Nat} {cancelled : Option Nat} (verdict : Verdict)
    (apart : cancelled ≠ some time) :
    ((time : ℕ∞) < timeOf cancelled ∧
      outcome (cancelled.map (now + ·)) (some (now + time, verdict)) =
        (verdict, some (now + time))) ∨
    ∃ sooner < time, cancelled = some sooner ∧
      outcome (some (now + sooner)) (some (now + time, verdict)) =
        (.stopped .cancelled, some (now + sooner)) := by
  cases cancelled with
  | none => exact Or.inl ⟨ENat.natCast_lt_top time, rfl⟩
  | some cancelled =>
    have notSame : cancelled ≠ time := fun same => apart (congrArg some same)
    by_cases clock : time ≤ cancelled
    · have first : time < cancelled := Nat.lt_of_le_of_ne clock notSame.symm
      refine Or.inl ⟨Nat.cast_lt.2 first, outcome_of_le ?_⟩
      rintro _ ⟨⟩
      exact Nat.add_le_add_left clock now
    · have sooner : cancelled < time := Nat.lt_of_not_le clock
      refine Or.inr ⟨cancelled, sooner, rfl, outcome_of_lt ?_⟩
      rintro _ ⟨⟩
      exact Nat.add_lt_add_left sooner now

/-- The outcome of a race is that of the first of the three times that decide it. -/
theorem exists_settles_outcome (lineage : List Token) (now : Nat)
    {cancelled deadline duration : Option Nat}
    (notDeadline : ∀ time ∈ cancelled, deadline ≠ some time)
    (notDuration : ∀ time ∈ cancelled, duration ≠ some time) :
    let ended := outcome (cancelled.map (now + ·))
      (timeUp? ⟨lineage, deadline.map (now + ·)⟩ (duration.map (now + ·)))
    ∃ time : Option Nat, ended.2 = time.map (now + ·) ∧
      ended.1.Settles (timeOf cancelled) (timeOf deadline) (timeOf duration) (timeOf time) := by
  dsimp only
  rcases timeUp?_cases lineage now deadline duration with
    ⟨up, rfl, rfl⟩ | ⟨time, up, rfl, least⟩ | ⟨time, up, rfl, least⟩
  · rw [up]
    cases cancelled with
    | none => exact ⟨none, rfl, settles_unending⟩
    | some cancelled =>
      have never : (cancelled : ℕ∞) < ⊤ := ENat.natCast_lt_top cancelled
      exact ⟨some cancelled, rfl, settles_cancelled never never⟩
  · have apart : cancelled ≠ some time := fun same => notDeadline time same rfl
    rw [up]
    rcases outcome_cases (.stopped .deadlineExceeded) apart with
      ⟨first, ended⟩ | ⟨sooner, first, rfl, ended⟩
    · rw [ended]
      exact ⟨some time, rfl, settles_late first least⟩
    · have before : (sooner : ℕ∞) < time := Nat.cast_lt.2 first
      rw [Option.map_some, ended]
      exact ⟨some sooner, rfl, settles_cancelled before (before.trans_le least)⟩
  · have apart : cancelled ≠ some time := fun same => notDuration time same rfl
    rw [up]
    rcases outcome_cases .finished apart with ⟨first, ended⟩ | ⟨sooner, first, rfl, ended⟩
    · rw [ended]
      exact ⟨some time, rfl, settles_finished first least⟩
    · have before : (sooner : ℕ∞) < time := Nat.cast_lt.2 first
      rw [Option.map_some, ended]
      exact ⟨some sooner, rfl, settles_cancelled (before.trans least) before⟩

/-- Whether a lifetime is over is whether there is a reason for it. -/
theorem isDone_eq (tree : LifetimeTree) (lifetime : Lifetime) :
    tree.isDone lifetime = (tree.stop? lifetime).isSome := by
  unfold isDone stop? Scope.stop? scope
  cases tree.isCancelled lifetime with
  | true => rfl
  | false =>
    cases lifetime.deadline with
    | none => rfl
    | some deadline => by_cases late : deadline ≤ tree.now <;> simp [late]

/-- Work under a lifetime that is over is not begun. -/
theorem race_of_isDone {tree : LifetimeTree} {lifetime : Lifetime}
    (done : tree.isDone lifetime = true) :
    ∃ reason, tree.check lifetime = .error reason.error ∧
      ∀ duration, tree.race lifetime duration = (.stopped reason, tree) := by
  rw [isDone_eq] at done
  obtain ⟨reason, stopped⟩ := Option.isSome_iff_exists.1 done
  have told : (tree.scope lifetime).stop? tree.now = some reason := stopped
  exact ⟨reason, by rw [check, Scope.check, told], fun duration => by rw [race, stopped]⟩

/-- A race under a lifetime that is not over goes to the first of the three times. -/
theorem Orderly.race_settles {tree : LifetimeTree} (orderly : tree.Orderly) {lifetime : Lifetime}
    (goesOn : tree.isDone lifetime = false) {cancelled : Option Nat}
    (hit : firstHit? lifetime tree.agenda = cancelled.map (tree.now + ·)) (duration : Option Nat)
    (notDeadline : ∀ time ∈ cancelled, lifetime.deadline.map (· - tree.now) ≠ some time)
    (notDuration : ∀ time ∈ cancelled, duration ≠ some time) :
    ∃ time : Option Nat,
      (∀ delay ∈ time, (tree.race lifetime duration).2 = tree.moveTo (tree.now + delay)) ∧
      (tree.race lifetime duration).1.Settles (timeOf cancelled)
        (timeOf (lifetime.deadline.map (· - tree.now))) (timeOf duration) (timeOf time) := by
  obtain ⟨lineage, deadline⟩ := lifetime
  obtain ⟨live, notLate⟩ := Bool.or_eq_false_iff.1 goesOn
  have ahead : (deadline.map (· - tree.now)).map (tree.now + ·) = deadline := by
    cases deadline with
    | none => rfl
    | some deadline =>
      have notCome : tree.now < deadline := by simpa using notLate
      simp [Nat.add_sub_cancel' (Nat.le_of_lt notCome)]
  have raced : tree.race ⟨lineage, deadline⟩ duration =
      raceThrough ⟨lineage, deadline⟩ (duration.map (tree.now + ·)) tree.agenda tree := by
    have notStopped : tree.stop? ⟨lineage, deadline⟩ = none := by
      simpa [isDone_eq] using goesOn
    rw [race, notStopped]
  obtain ⟨verdict, moved⟩ := @endsAs_raceThrough tree ⟨lineage, deadline⟩
    (duration.map (tree.now + ·)) _ orderly rfl live
  obtain ⟨time, ended, settles⟩ :=
    exists_settles_outcome lineage tree.now notDeadline notDuration
  rw [hit] at verdict moved
  rw [ahead] at ended settles
  refine ⟨time, fun delay isDelay => ?_, ?_⟩
  · rw [raced]
    exact moved _ (by rw [ended, Option.mem_def.1 isDelay]; rfl)
  · rw [raced, verdict]
    exact settles

end LifetimeTree

/-! ## What is planned -/

namespace Family

variable {family : Family} {history : History} {plan : List Planned} {tree : LifetimeTree}

/-- Whether a tree is that of a family but for cancellations that are still to come. -/
structure Awaits (family : Family) (plan : List Planned) (tree : LifetimeTree) : Prop where
  now : tree.now = family.tree.now
  cancelled : tree.cancelled = family.tree.cancelled
  orderly : tree.Orderly
  agenda : ∀ cancellation, cancellation ∈ tree.agenda ↔
    ∃ planned ∈ plan, family.lifetimes[planned.name]? = some cancellation.lifetime ∧
      cancellation.instant = family.tree.now + planned.delay

theorem Keeps.awaits (keeps : family.Keeps history) (plan : List Planned) :
    family.Awaits plan (family.scheduled plan) := by
  induction plan using List.reverseRecOn with
  | nil =>
    refine ⟨rfl, rfl, ⟨?_, ?_⟩, ?_⟩ <;> simp [scheduled, keeps.agenda]
  | append_singleton plan planned inductionHypothesis =>
    have step : family.scheduled (plan ++ [planned]) =
        match family.lifetimes[planned.name]? with
        | some lifetime => (family.scheduled plan).cancelLater lifetime planned.delay
        | none => family.scheduled plan := by
      rw [scheduled, List.foldl_append]
      rfl
    rw [step]
    cases isLifetime : family.lifetimes[planned.name]? with
    | none =>
      refine { inductionHypothesis with agenda := fun cancellation => ?_ }
      rw [inductionHypothesis.agenda]
      simp [or_and_right, exists_or, isLifetime]
    | some lifetime =>
      refine ⟨inductionHypothesis.now, inductionHypothesis.cancelled,
        inductionHypothesis.orderly.cancelLater lifetime planned.delay, fun cancellation => ?_⟩
      obtain ⟨instant, cancelled⟩ := cancellation
      simp only [LifetimeTree.cancelLater, LifetimeTree.mem_insertByInstant,
        inductionHypothesis.agenda, inductionHypothesis.now, List.mem_append, List.mem_singleton,
        or_and_right, exists_or, exists_eq_left, isLifetime, Option.some.injEq]
      rw [or_comm, Cancellation.mk.injEq, and_comm, eq_comm]

theorem Keeps.hits_iff (keeps : family.Keeps history) {origin name : Nat}
    {lifetime : Lifetime} {cancellation : Cancellation}
    (isCancelled : family.lifetimes[origin]? = some cancellation.lifetime)
    (isLifetime : family.lifetimes[name]? = some lifetime) :
    LifetimeTree.hits lifetime cancellation = true ↔ history.Reaches origin name := by
  rw [← keeps.head_mem_iff isCancelled isLifetime, LifetimeTree.hits, Option.any_eq_true]
  simp only [decide_eq_true_eq]

/-- What is planned for a lifetime is on the agenda. -/
theorem Keeps.exists_hit (keeps : family.Keeps history) (awaits : family.Awaits plan tree)
    {name : Nat} {lifetime : Lifetime} (isLifetime : family.lifetimes[name]? = some lifetime)
    {planned : Planned} (member : planned ∈ plan) (reaches : history.Reaches planned.name name) :
    ∃ cancellation ∈ tree.agenda, LifetimeTree.hits lifetime cancellation = true ∧
      cancellation.instant = family.tree.now + planned.delay := by
  obtain ⟨cancelled, isCancelled, -⟩ := keeps.lineage_subset reaches isLifetime
  refine ⟨⟨family.tree.now + planned.delay, cancelled⟩, ?_, ?_, rfl⟩
  · exact (awaits.agenda _).2 ⟨planned, member, isCancelled, rfl⟩
  · exact (keeps.hits_iff isCancelled isLifetime).2 reaches

/-- The first cancellation on the agenda that reaches a lifetime is the first of those planned. -/
theorem Keeps.firstHit?_eq (keeps : family.Keeps history) (awaits : family.Awaits plan tree)
    {name : Nat} {lifetime : Lifetime} (isLifetime : family.lifetimes[name]? = some lifetime) :
    ∃ cancelled : Option Nat,
      LifetimeTree.firstHit? lifetime tree.agenda = cancelled.map (family.tree.now + ·) ∧
      timeOf cancelled = history.firstReach plan name ∧
      ∀ time ∈ cancelled, ∃ planned ∈ plan, history.Reaches planned.name name ∧
        planned.delay = time := by
  cases found : tree.agenda.find? (LifetimeTree.hits lifetime) with
  | none =>
    have nothing : {planned | planned ∈ plan ∧ history.Reaches planned.name name} = ∅ := by
      refine Set.eq_empty_of_forall_notMem fun planned ⟨member, reaches⟩ => ?_
      obtain ⟨cancellation, isComing, hit, -⟩ := keeps.exists_hit awaits isLifetime member reaches
      exact List.find?_eq_none.1 found cancellation isComing hit
    refine ⟨none, by rw [LifetimeTree.firstHit?, found]; rfl, ?_, by simp⟩
    rw [timeOf_none, History.firstReach, nothing, Set.image_empty, sInf_empty]
  | some first =>
    obtain ⟨planned, member, isCancelled, instant⟩ :=
      (awaits.agenda first).1 (List.mem_of_find?_eq_some found)
    have reaches := (keeps.hits_iff isCancelled isLifetime).1 (List.find?_some found)
    refine ⟨some planned.delay, ?_, (IsLeast.csInf_eq ⟨?_, ?_⟩).symm, ?_⟩
    · rw [LifetimeTree.firstHit?, found, Option.map_some, instant, Option.map_some]
    · exact ⟨planned, ⟨member, reaches⟩, rfl⟩
    · rintro _ ⟨other, ⟨otherMember, otherReaches⟩, rfl⟩
      obtain ⟨cancellation, isComing, hit, otherInstant⟩ :=
        keeps.exists_hit awaits isLifetime otherMember otherReaches
      have least := awaits.orderly.le_of_find? found isComing hit
      rw [instant, otherInstant] at least
      exact Nat.cast_le.2 (Nat.le_of_add_le_add_left least)
    · rintro _ ⟨⟩
      exact ⟨planned, member, reaches, rfl⟩

/-- How long it is to the deadline of a lifetime that has not come. -/
theorem Keeps.timeLeft_eq (keeps : family.Keeps history) {name : Nat} {lifetime : Lifetime}
    (isLifetime : family.lifetimes[name]? = some lifetime) :
    timeOf (lifetime.deadline.map (· - family.tree.now)) = history.timeLeft name := by
  have limits := keeps.limits isLifetime
  rw [History.timeLeft, keeps.now]
  cases set : lifetime.deadline with
  | none =>
    rw [set] at limits
    have nothing : {instant | history.Limit name instant} = ∅ :=
      Set.eq_empty_of_forall_notMem limits
    rw [nothing, Set.image_empty, sInf_empty, Option.map_none, timeOf_none]
  | some deadline =>
    rw [set] at limits
    have sooner : Monotone fun instant => ((instant - history.now : Nat) : ℕ∞) :=
      fun first second before => Nat.cast_le.2 (Nat.sub_le_sub_right before history.now)
    exact (sooner.map_isLeast limits).csInf_eq.symm

end Family

/-- Work under a lifetime that is over is not begun. Otherwise the race goes to the first of the
cancellations that reach the lifetime, its earliest limit and the end of the work, the limit before
the work at one instant, and lasts until then. -/
theorem race_goes_to_the_first (actions : List FamilyAction) (plan : List Planned) {name : Nat}
    {lifetime : Lifetime} (isLifetime : (Family.after actions).lifetimes[name]? = some lifetime)
    (duration : Option Nat)
    (apart : ∀ planned ∈ plan, (History.after actions).Reaches planned.name name →
      (planned.delay : ℕ∞) ≠ (History.after actions).timeLeft name ∧
        (planned.delay : ℕ∞) ≠ timeOf duration) :
    let tree := (Family.after actions).scheduled plan
    let history := History.after actions
    (tree.isDone lifetime = true →
      ∃ reason, tree.check lifetime = .error reason.error ∧
        ∀ duration, tree.race lifetime duration = (.stopped reason, tree)) ∧
    (tree.isDone lifetime = false →
      ∃ time, (tree.race lifetime duration).1.Settles (history.firstReach plan name)
          (history.timeLeft name) (timeOf duration) time ∧
        ∀ delay : Nat, time = delay →
          (tree.race lifetime duration).2 = tree.moveTo (history.now + delay)) := by
  intro tree history
  have keeps : (Family.after actions).Keeps history := Family.keeps_after actions
  have awaits : (Family.after actions).Awaits plan tree := keeps.awaits plan
  have now : tree.now = history.now := awaits.now.trans keeps.now
  refine ⟨LifetimeTree.race_of_isDone, fun goesOn => ?_⟩
  obtain ⟨cancelled, hit, first, isPlanned⟩ := keeps.firstHit?_eq awaits isLifetime
  have left := keeps.timeLeft_eq isLifetime
  rw [← awaits.now] at hit left
  obtain ⟨time, moved, settles⟩ := awaits.orderly.race_settles goesOn hit duration
    (fun time isTime same => by
      obtain ⟨planned, member, reaches, rfl⟩ := isPlanned time isTime
      rw [same] at left
      exact (apart planned member reaches).1 left)
    (fun time isTime same => by
      obtain ⟨planned, member, reaches, rfl⟩ := isPlanned time isTime
      exact (apart planned member reaches).2 (by rw [same, timeOf_some]))
  rw [first, left] at settles
  refine ⟨timeOf time, settles, fun delay isDelay => ?_⟩
  cases time with
  | none => exact absurd isDelay (ENat.top_ne_natCast delay)
  | some time =>
    obtain rfl := Nat.cast_inj.1 isDelay
    exact now ▸ moved time rfl

/-- A root, a lifetime with a timeout below it, and a child of this, after some time. -/
def threeGenerations : List FamilyAction :=
  [.make .root, .make (.within 0 50), .make (.child 1), .pass 10]

/-- The child is stopped through its root, before its work is done and its time is up. -/
theorem race_lost_through_the_root :
    let tree := (Family.after threeGenerations).scheduled [⟨1, 30⟩, ⟨0, 20⟩]
    (tree.race ⟨[2, 1, 0], some 50⟩ (some 25)).1 = .stopped .cancelled := by
  have keeps := Family.keeps_after threeGenerations
  have left : (History.after threeGenerations).timeLeft 2 = (40 : Nat) :=
    (@Family.Keeps.timeLeft_eq _ _ keeps 2 ⟨[2, 1, 0], some 50⟩ rfl).symm
  have reaches : (History.after threeGenerations).Reaches 0 2 :=
    .tail (.single (Or.inl ⟨0, Or.inr ⟨50, rfl⟩⟩)) (Or.inl ⟨0, Or.inl rfl⟩)
  obtain ⟨-, goesOn⟩ := @race_goes_to_the_first threeGenerations [⟨1, 30⟩, ⟨0, 20⟩] 2
    ⟨[2, 1, 0], some 50⟩ rfl (some 25) (by
      intro planned member _
      rw [left, timeOf_some, Nat.cast_inj.ne, Nat.cast_inj.ne]
      exact (by decide : ∀ planned ∈ [Planned.mk 1 30, ⟨0, 20⟩],
        planned.delay ≠ 40 ∧ planned.delay ≠ 25) planned member)
  obtain ⟨time, settles, -⟩ := goesOn (by decide)
  have first : (History.after threeGenerations).firstReach [⟨1, 30⟩, ⟨0, 20⟩] 2 ≤ (20 : Nat) :=
    sInf_le ⟨⟨0, 20⟩, ⟨by simp, reaches⟩, rfl⟩
  refine settles.cancelled.2 ⟨first.trans_lt ?_, first.trans_lt ?_⟩
  · rw [left]
    norm_cast
  · rw [timeOf_some]
    norm_cast

end UpdateRelay
