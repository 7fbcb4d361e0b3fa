import UpdateRelay.Proofs.Lifetime.Ancestry

/-!
# Inheritance of cancellations and deadlines

Whether a lifetime is over, and why, can be read off the history of its family: a cancellation of it
or of one above it counts, and of the timeouts on the way up the one that ends first. What is made
below a lifetime is over with it, what is over stays so, and a cancellation concerns just those that
share the token and those below them.
-/

namespace UpdateRelay

/-! ## What an operation is told -/

namespace LifetimeTree

/-- What an operation under a lifetime is told first: a cancellation comes before the deadline. -/
theorem check_eq (tree : LifetimeTree) (lifetime : Lifetime) :
    tree.check lifetime =
      if tree.isCancelled lifetime then .error .cancelled
      else if lifetime.deadline.any fun deadline => deadline ≤ tree.now then
        .error .deadlineExceeded
      else .ok () := by
  unfold check Scope.check Scope.stop? scope
  cases tree.isCancelled lifetime with
  | true => rfl
  | false =>
    cases lifetime.deadline with
    | none => rfl
    | some deadline => by_cases late : deadline ≤ tree.now <;> simp [late, StopReason.error]

theorem isDone_iff (tree : LifetimeTree) (lifetime : Lifetime) :
    tree.isDone lifetime = true ↔
      (∃ token ∈ lifetime.lineage, token ∈ tree.cancelled) ∨
        ∃ deadline, lifetime.deadline = some deadline ∧ deadline ≤ tree.now := by
  simp only [isDone, isCancelled, Bool.or_eq_true, List.any_eq_true, decide_eq_true_eq,
    Option.any_eq_true]

theorem isCancelled_cancel (tree : LifetimeTree) (cancelled lifetime : Lifetime) :
    (tree.cancel cancelled).isCancelled lifetime = true ↔
      (∃ token, cancelled.lineage.head? = some token ∧ token ∈ lifetime.lineage) ∨
        tree.isCancelled lifetime = true := by
  have first : ∀ token, token ∈ cancelled.lineage.take 1 ↔
      cancelled.lineage.head? = some token := by
    intro token
    cases cancelled.lineage <;> simp [eq_comm]
  simp only [isCancelled, cancel, List.any_eq_true, decide_eq_true_eq, List.mem_append, first,
    and_or_left, exists_or, and_comm]

end LifetimeTree

namespace Family

variable {family : Family} {history : History}

/-- What a family and its history say alike about every lifetime. -/
structure Obeys (family : Family) (history : History) : Prop where
  size : family.lifetimes.length = history.births.length
  deadline : ∀ {name : Nat} {lifetime : Lifetime}, family.lifetimes[name]? = some lifetime →
    ∀ deadline, lifetime.deadline = some deadline ↔
      IsLeast {instant | history.Limit name instant} deadline
  isDone : ∀ {name : Nat} {lifetime : Lifetime}, family.lifetimes[name]? = some lifetime →
    (family.tree.isDone lifetime = true ↔ history.IsCancelled name ∨ history.IsLate name)
  passes : ∀ {name : Nat} {lifetime : Lifetime}, family.lifetimes[name]? = some lifetime →
    (family.tree.check lifetime = .ok () ↔ family.tree.isDone lifetime = false)
  cancelled : ∀ {name : Nat} {lifetime : Lifetime}, family.lifetimes[name]? = some lifetime →
    (family.tree.check lifetime = .error .cancelled ↔ history.IsCancelled name)
  late : ∀ {name : Nat} {lifetime : Lifetime}, family.lifetimes[name]? = some lifetime →
    (family.tree.check lifetime = .error .deadlineExceeded ↔
      ¬history.IsCancelled name ∧ history.IsLate name)
  descends : ∀ {ancestor name : Nat} {above lifetime : Lifetime}, history.Descends ancestor name →
    family.lifetimes[ancestor]? = some above → family.lifetimes[name]? = some lifetime →
      (∀ deadline, above.deadline = some deadline →
        ∃ earlier ≤ deadline, lifetime.deadline = some earlier) ∧
      (family.tree.isDone above = true → family.tree.isDone lifetime = true)

/-- The deadline of a lifetime below another is no later, and it is cancelled with the other. -/
theorem Keeps.below (keeps : family.Keeps history) {ancestor name : Nat}
    (descends : history.Descends ancestor name) {lifetime : Lifetime}
    (isLifetime : family.lifetimes[name]? = some lifetime) :
    ∃ above, family.lifetimes[ancestor]? = some above ∧ above.lineage ⊆ lifetime.lineage ∧
      ∀ deadline, above.deadline = some deadline →
        ∃ earlier ≤ deadline, lifetime.deadline = some earlier := by
  induction descends generalizing lifetime with
  | refl => exact ⟨lifetime, isLifetime, List.Subset.refl _, fun deadline set => ⟨_, le_rfl, set⟩⟩
  | tail _ hangs inductionHypothesis =>
    obtain ⟨parent, isParent, lineage, sooner⟩ := keeps.hung hangs isLifetime
    obtain ⟨above, isAbove, sub, soonerStill⟩ := inductionHypothesis isParent
    refine ⟨above, isAbove, lineage ▸ List.subset_cons_of_subset _ sub, fun deadline set => ?_⟩
    obtain ⟨middle, before, isMiddle⟩ := soonerStill deadline set
    obtain ⟨earlier, beforeMiddle, isEarlier⟩ := sooner middle isMiddle
    exact ⟨earlier, beforeMiddle.trans before, isEarlier⟩

/-- A lifetime with more tokens above it and no later deadline is over with the other. -/
theorem isDone_of_below {tree : LifetimeTree} {above lifetime : Lifetime}
    (sub : above.lineage ⊆ lifetime.lineage)
    (sooner : ∀ deadline, above.deadline = some deadline →
      ∃ earlier ≤ deadline, lifetime.deadline = some earlier)
    (done : tree.isDone above = true) : tree.isDone lifetime = true := by
  rw [LifetimeTree.isDone_iff] at done ⊢
  rcases done with ⟨token, member, cancelled⟩ | ⟨deadline, set, come⟩
  · exact Or.inl ⟨token, sub member, cancelled⟩
  · obtain ⟨earlier, before, isEarlier⟩ := sooner deadline set
    exact Or.inr ⟨earlier, isEarlier, before.trans come⟩

theorem Keeps.obeys (keeps : family.Keeps history) : family.Obeys history where
  size := keeps.size
  deadline := keeps.deadline_iff
  isDone := by
    intro name lifetime isLifetime
    rw [LifetimeTree.isDone, Bool.or_eq_true, keeps.isCancelled_iff isLifetime,
      keeps.isLate_iff isLifetime]
  passes := by
    intro name lifetime _
    rw [LifetimeTree.check_eq, LifetimeTree.isDone, Bool.or_eq_false_iff]
    split <;> simp_all
  cancelled := by
    intro name lifetime isLifetime
    rw [LifetimeTree.check_eq, ← keeps.isCancelled_iff isLifetime]
    split
    next cancelled => simp [cancelled]
    next => split <;> simp_all
  late := by
    intro name lifetime isLifetime
    rw [LifetimeTree.check_eq, ← keeps.isCancelled_iff isLifetime, ← keeps.isLate_iff isLifetime]
    split
    next cancelled => simp [cancelled]
    next => split <;> simp_all
  descends := by
    intro ancestor name above lifetime descends isAbove isLifetime
    obtain ⟨other, isOther, sub, sooner⟩ := keeps.below descends isLifetime
    obtain rfl := Option.some.inj (isAbove.symm.trans isOther)
    exact ⟨sooner, isDone_of_below sub sooner⟩

/-! ## As actions go on -/

/-- What every action keeps: lifetimes stay what they are, cancellations are for good, and the clock
does not go back. -/
structure Since (before after : Family) : Prop where
  lifetimes : before.lifetimes <+: after.lifetimes
  cancelled : before.tree.cancelled ⊆ after.tree.cancelled
  now : before.tree.now ≤ after.tree.now

theorem Since.refl (family : Family) : family.Since family :=
  ⟨List.prefix_rfl, List.Subset.refl _, le_rfl⟩

theorem Since.trans {first second third : Family} (sooner : first.Since second)
    (afterwards : second.Since third) : first.Since third :=
  ⟨sooner.lifetimes.trans afterwards.lifetimes,
    List.Subset.trans sooner.cancelled afterwards.cancelled, sooner.now.trans afterwards.now⟩

theorem Keeps.since_perform (keeps : family.Keeps history) (action : FamilyAction) :
    family.Since (family.perform action) := by
  cases action with
  | make origin =>
    simp only [Family.perform]
    split
    next => exact ⟨List.prefix_append _ _, List.Subset.refl _, le_rfl⟩
    next => exact .refl family
  | cancel name =>
    simp only [Family.perform]
    split
    next => exact ⟨List.prefix_rfl, List.subset_append_right _ _, le_rfl⟩
    next => exact .refl family
  | pass duration =>
    simp only [Family.perform, keeps.advance]
    exact ⟨List.prefix_rfl, List.Subset.refl _, Nat.le_add_right _ _⟩

theorem Keeps.since_performAll (keeps : family.Keeps history) (actions : List FamilyAction) :
    family.Since (family.performAll actions) := by
  induction actions generalizing family history with
  | nil => exact .refl family
  | cons action actions inductionHypothesis =>
    exact (keeps.since_perform action).trans (inductionHypothesis (keeps.perform action))

theorem Since.isDone {later : Family} (since : family.Since later) {lifetime : Lifetime}
    (done : family.tree.isDone lifetime = true) : later.tree.isDone lifetime = true := by
  rw [LifetimeTree.isDone_iff] at done ⊢
  rcases done with ⟨token, member, cancelled⟩ | ⟨deadline, set, come⟩
  · exact Or.inl ⟨token, member, since.cancelled cancelled⟩
  · exact Or.inr ⟨deadline, set, come.trans since.now⟩

theorem after_append (actions later : List FamilyAction) :
    after (actions ++ later) = (after actions).performAll later := by
  rw [after, performAll, List.foldl_append]
  rfl

/-- A cancellation cancels those that it reaches and leaves all others as they are. -/
theorem Keeps.cancel_cases (keeps : family.Keeps history) {origin name : Nat}
    {cancelled lifetime : Lifetime} (isCancelled : family.lifetimes[origin]? = some cancelled)
    (isLifetime : family.lifetimes[name]? = some lifetime) :
    (history.Reaches origin name →
      (family.tree.cancel cancelled).check lifetime = .error .cancelled) ∧
    (¬history.Reaches origin name →
      (family.tree.cancel cancelled).isDone lifetime = family.tree.isDone lifetime ∧
      (family.tree.cancel cancelled).check lifetime = family.tree.check lifetime) := by
  have isHit := family.tree.isCancelled_cancel cancelled lifetime
  rw [keeps.head_mem_iff isCancelled isLifetime] at isHit
  constructor
  · intro reaches
    rw [LifetimeTree.check_eq, if_pos (isHit.2 (Or.inl reaches))]
  · intro spared
    have same : (family.tree.cancel cancelled).isCancelled lifetime =
        family.tree.isCancelled lifetime :=
      Bool.eq_iff_iff.2 (isHit.trans (or_iff_right spared))
    rw [LifetimeTree.isDone, LifetimeTree.isDone, LifetimeTree.check_eq, LifetimeTree.check_eq,
      same]
    exact ⟨rfl, rfl⟩

end Family

/-- After any actions, a lifetime is over just if a cancellation has reached it or the earliest of
its limits has come; its check fails just then, and for the cancellation if there is one. What
descends from a lifetime has no later deadline and is over with it. A lifetime that is over stays so
in all that follows, and cancelling one concerns exactly those that the cancellation reaches. -/
theorem lifetimes_follow_their_history (actions : List FamilyAction) :
    let family := Family.after actions
    let history := History.after actions
    family.Obeys history ∧
    (∀ (later : List FamilyAction) (name : Nat) (lifetime : Lifetime),
      family.lifetimes[name]? = some lifetime →
        (Family.after (actions ++ later)).lifetimes[name]? = some lifetime ∧
        (family.tree.isDone lifetime = true →
          (Family.after (actions ++ later)).tree.isDone lifetime = true)) ∧
    (∀ (origin name : Nat) (lifetime : Lifetime), origin < history.births.length →
      family.lifetimes[name]? = some lifetime →
        let tree := (Family.after (actions ++ [.cancel origin])).tree
        (history.Reaches origin name → tree.check lifetime = .error .cancelled) ∧
        (¬history.Reaches origin name →
          tree.isDone lifetime = family.tree.isDone lifetime ∧
          tree.check lifetime = family.tree.check lifetime)) := by
  intro family history
  have keeps : family.Keeps history := Family.keeps_after actions
  refine ⟨keeps.obeys, ?_, ?_⟩
  · intro later name lifetime isLifetime
    have since := keeps.since_performAll later
    rw [Family.after_append]
    obtain ⟨more, same⟩ := since.lifetimes
    refine ⟨?_, since.isDone⟩
    rw [← same, List.getElem?_append_left (List.getElem?_eq_some_iff.1 isLifetime).1, isLifetime]
  · intro origin name lifetime inside isLifetime
    obtain ⟨cancelled, isOrigin⟩ : ∃ cancelled, family.lifetimes[origin]? = some cancelled :=
      ⟨_, List.getElem?_eq_getElem (keeps.size ▸ inside)⟩
    have tree : (Family.after (actions ++ [.cancel origin])).tree =
        family.tree.cancel cancelled := by
      rw [Family.after_append]
      simp only [Family.performAll, List.foldl_cons, List.foldl_nil, Family.perform]
      rw [show (Family.after actions).lifetimes[origin]? = some cancelled from isOrigin]
    rw [tree]
    exact keeps.cancel_cases isOrigin isLifetime

/-- One with a timeout below a root, a child of it, one that shares the child's token, and one below
this with another timeout, after some time. -/
def sharingFamily : List FamilyAction :=
  [.make .root, .make (.within 0 50), .make (.child 1), .make (.sharing 2), .make (.within 3 80),
    .pass 10]

/-- Cancelling the one with the shared token cancels the child too, but not what is above. -/
theorem sharingFamily_cancelled_through_shared_token :
    (Family.after (sharingFamily ++ [.cancel 3])).tree.check ⟨[2, 1, 0], some 50⟩ =
        .error .cancelled ∧
      (Family.after (sharingFamily ++ [.cancel 3])).tree.isDone ⟨[1, 0], some 50⟩ = false := by
  obtain ⟨-, -, cancels⟩ := lifetimes_follow_their_history sharingFamily
  have keeps := Family.keeps_after sharingFamily
  have spared : ¬(History.after sharingFamily).Reaches 3 1 := fun reaches => by
    have member :=
      (@Family.Keeps.mem_lineage_iff _ _ keeps 3 1 2 ⟨[1, 0], some 50⟩ rfl rfl).2 reaches
    exact absurd member (by decide)
  refine ⟨(cancels 3 2 _ (by decide) rfl).1 (.single (Or.inr (Or.inr ⟨0, rfl⟩))), ?_⟩
  exact ((cancels 3 1 _ (by decide) rfl).2 spared).1.trans rfl

end UpdateRelay
