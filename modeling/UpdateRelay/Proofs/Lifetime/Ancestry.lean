import Mathlib.Logic.Relation
import Mathlib.Order.Bounds.Basic
import UpdateRelay.Lifetime.Tree

/-!
# Ancestry of lifetimes

Lifetimes are named by the order in which they are made. A `History` says only how and when each
was made and which were cancelled; a `Family` holds what was made of this: lineages of tokens,
cancelled tokens and deadlines that were copied. `Family.Keeps` is what ties the two together along
every run. From it follow which lifetimes a cancellation reaches (`Family.Keeps.isCancelled_iff`)
and what a deadline is the earliest of (`Family.Keeps.deadline_iff`).
-/

namespace UpdateRelay

/-- From what a lifetime is made: from nothing; with the token of another; below another; or below
another and with some milliseconds at the most. -/
inductive Origin
  | root
  | sharing (parent : Nat)
  | child (parent : Nat)
  | within (parent timeout : Nat)
  deriving DecidableEq, Repr

/-- How a lifetime was made, and when. -/
structure Birth where
  origin : Origin
  instant : Nat
  deriving DecidableEq, Repr

/-- What can be done with lifetimes. -/
inductive FamilyAction
  | make (origin : Origin)
  | cancel (name : Nat)
  | pass (duration : Nat)
  deriving DecidableEq, Repr

/-- The lifetime that another is made from. -/
def Origin.parent? : Origin → Option Nat
  | root => none
  | sharing parent | child parent | within parent _ => some parent

/-! ## Lifetimes as they are kept -/

/-- A tree and the lifetimes that were made in it, in order. -/
structure Family where
  tree : LifetimeTree
  lifetimes : List Lifetime

namespace Family

def empty : Family := ⟨.empty, []⟩

/-- What a lifetime made now is. -/
def lifetimeOf? (family : Family) : Origin → Option Lifetime
  | .root => some family.tree.root
  | .sharing parent => family.lifetimes[parent]?.map LifetimeTree.sharing
  | .child parent => family.lifetimes[parent]?.map family.tree.child
  | .within parent timeout => family.lifetimes[parent]?.map (family.tree.within · timeout)

def perform (family : Family) : FamilyAction → Family
  | .make origin =>
      match family.lifetimeOf? origin with
      | some lifetime => ⟨family.tree.grow, family.lifetimes ++ [lifetime]⟩
      | none => family
  | .cancel name =>
      match family.lifetimes[name]? with
      | some lifetime => { family with tree := family.tree.cancel lifetime }
      | none => family
  | .pass duration => { family with tree := family.tree.advance duration }

def performAll (family : Family) (actions : List FamilyAction) : Family :=
  actions.foldl perform family

/-- The family that actions lead to. -/
def after (actions : List FamilyAction) : Family := empty.performAll actions

end Family

/-! ## Lifetimes as they were made -/

/-- The births of lifetimes in order, and which were cancelled. -/
structure History where
  now : Nat
  births : List Birth
  cancelled : List Nat

namespace History

def empty : History := ⟨0, [], []⟩

/-- An action that names what is not there changes nothing. -/
def record (history : History) : FamilyAction → History
  | .make origin =>
      if ∀ parent ∈ origin.parent?, parent < history.births.length then
        { history with births := history.births ++ [⟨origin, history.now⟩] }
      else history
  | .cancel name =>
      if name < history.births.length then { history with cancelled := name :: history.cancelled }
      else history
  | .pass duration => { history with now := history.now + duration }

def recordAll (history : History) (actions : List FamilyAction) : History :=
  actions.foldl record history

/-- The history that actions make. -/
def after (actions : List FamilyAction) : History := empty.recordAll actions

/-- Whether a lifetime has the token of another because it was made so. -/
def Shares (history : History) (parent name : Nat) : Prop :=
  ∃ instant, history.births[name]? = some ⟨.sharing parent, instant⟩

/-- Whether a lifetime was made below another, with or without a timeout of its own. -/
def Hangs (history : History) (parent name : Nat) : Prop :=
  ∃ instant, history.births[name]? = some ⟨.child parent, instant⟩ ∨
    ∃ timeout, history.births[name]? = some ⟨.within parent timeout, instant⟩

/-- Whether a lifetime is another or was made below it, directly or not. -/
def Descends (history : History) : (ancestor name : Nat) → Prop :=
  Relation.ReflTransGen history.Hangs

/-- Whether a cancellation of one lifetime is one of another too: it goes to those made below, and
to both of two that share a token. -/
def Reaches (history : History) : (origin name : Nat) → Prop :=
  Relation.ReflTransGen fun first second =>
    history.Hangs first second ∨ history.Shares first second ∨ history.Shares second first

/-- The instants by which a lifetime is over because of a timeout: its own, or one of those that it
was made below. A lifetime that only shares a token has none. -/
inductive Limit (history : History) : (name instant : Nat) → Prop
  | own {name parent timeout instant : Nat}
      (born : history.births[name]? = some ⟨.within parent timeout, instant⟩) :
      Limit history name (instant + timeout)
  | inherited {name parent instant : Nat} (hangs : history.Hangs parent name)
      (limit : Limit history parent instant) : Limit history name instant

/-- The limits of a lifetime, by the way in which it was made. -/
theorem limit_iff {history : History} {name instant : Nat} {origin : Origin}
    (born : history.births[name]? = some ⟨origin, instant⟩) (limit : Nat) :
    history.Limit name limit ↔ match origin with
      | .root | .sharing _ => False
      | .child parent => history.Limit parent limit
      | .within parent timeout => limit = instant + timeout ∨ history.Limit parent limit := by
  constructor
  · intro isLimit
    cases isLimit with
    | own other =>
      obtain ⟨rfl, rfl⟩ := Birth.mk.inj (Option.some.inj (born.symm.trans other))
      exact Or.inl rfl
    | inherited hangs isLimit =>
      obtain ⟨_, other | ⟨_, other⟩⟩ := hangs
      · obtain ⟨rfl, rfl⟩ := Birth.mk.inj (Option.some.inj (born.symm.trans other))
        exact isLimit
      · obtain ⟨rfl, rfl⟩ := Birth.mk.inj (Option.some.inj (born.symm.trans other))
        exact Or.inr isLimit
  · cases origin with
    | root | sharing parent => exact False.elim
    | child parent => exact .inherited ⟨instant, Or.inl born⟩
    | within parent timeout =>
      rintro (rfl | isLimit)
      · exact .own born
      · exact .inherited ⟨instant, Or.inr ⟨timeout, born⟩⟩ isLimit

/-- Whether a lifetime was cancelled, itself or through another. -/
def IsCancelled (history : History) (name : Nat) : Prop :=
  ∃ origin ∈ history.cancelled, history.Reaches origin name

/-- Whether the earliest limit of a lifetime has come. -/
def IsLate (history : History) (name : Nat) : Prop :=
  ∃ deadline, IsLeast {instant | history.Limit name instant} deadline ∧ deadline ≤ history.now

end History

/-! ## What is kept of the history -/

namespace Family

/-- What a lifetime of a name was when it was made, or would have been. -/
def bornOf? (lifetimes : List Lifetime) (name : Nat) (birth : Birth) : Option Lifetime :=
  lifetimeOf? ⟨⟨birth.instant, name, [], []⟩, lifetimes⟩ birth.origin

/-- The token of a lifetime. -/
def tokenOf? (family : Family) (name : Nat) : Option Token :=
  family.lifetimes[name]?.bind fun lifetime => lifetime.lineage.head?

/-- Whether a family is what became of a history: its tokens are named like the lifetimes that they
were made for, and each lifetime is still what it was made of. -/
structure Keeps (family : Family) (history : History) : Prop where
  now : family.tree.now = history.now
  agenda : family.tree.agenda = []
  nextToken : family.tree.nextToken = history.births.length
  size : family.lifetimes.length = history.births.length
  older : ∀ {name : Nat} {birth : Birth}, history.births[name]? = some birth →
    ∀ parent ∈ birth.origin.parent?, parent < name
  made : ∀ {name : Nat} {birth : Birth}, history.births[name]? = some birth →
    family.lifetimes[name]? = bornOf? family.lifetimes name birth
  known : ∀ name ∈ history.cancelled, name < history.births.length
  cancelled : ∀ token, token ∈ family.tree.cancelled ↔
    ∃ name ∈ history.cancelled, family.tokenOf? name = some token

theorem lifetimeOf?_eq (family : Family) (origin : Origin) :
    family.lifetimeOf? origin =
      bornOf? family.lifetimes family.tree.nextToken ⟨origin, family.tree.now⟩ := by
  cases origin <;> rfl

theorem bornOf?_isSome_iff {lifetimes : List Lifetime} {name : Nat} {birth : Birth} :
    (bornOf? lifetimes name birth).isSome ↔
      ∀ parent ∈ birth.origin.parent?, parent < lifetimes.length := by
  obtain ⟨origin, instant⟩ := birth
  cases origin <;> simp [bornOf?, lifetimeOf?, Origin.parent?]

/-- Lifetimes that are made later change nothing about one whose parent is there. -/
theorem bornOf?_append {lifetimes : List Lifetime} {name : Nat} {birth : Birth}
    (older : ∀ parent ∈ birth.origin.parent?, parent < lifetimes.length) (more : List Lifetime) :
    bornOf? (lifetimes ++ more) name birth = bornOf? lifetimes name birth := by
  obtain ⟨origin, instant⟩ := birth
  cases origin with
  | root => rfl
  | sharing parent | child parent | within parent timeout =>
    have inside : parent < lifetimes.length := older parent rfl
    simp only [bornOf?, lifetimeOf?, List.getElem?_append_left inside]

theorem keeps_empty : empty.Keeps History.empty where
  now := rfl
  agenda := rfl
  nextToken := rfl
  size := rfl
  older := by simp [History.empty]
  made := by simp [History.empty]
  known := by simp [History.empty]
  cancelled := by simp [empty, History.empty, LifetimeTree.empty]

section Keeps

variable {family : Family} {history : History}

theorem Keeps.exists_birth (keeps : family.Keeps history) {name : Nat} {lifetime : Lifetime}
    (isLifetime : family.lifetimes[name]? = some lifetime) :
    ∃ birth, history.births[name]? = some birth :=
  ⟨_, List.getElem?_eq_getElem (keeps.size ▸ (List.getElem?_eq_some_iff.1 isLifetime).1)⟩

/-- A birth is an earlier one or the newest. -/
theorem birth_of_append {births : List Birth} {newest birth : Birth} {name : Nat}
    (isBirth : (births ++ [newest])[name]? = some birth) :
    births[name]? = some birth ∨ name = births.length ∧ birth = newest := by
  rw [List.getElem?_append] at isBirth
  split at isBirth
  next => exact Or.inl isBirth
  next late =>
    obtain ⟨last, rfl⟩ : name - births.length = 0 ∧ newest = birth := by
      simpa [List.getElem?_singleton] using isBirth
    exact Or.inr ⟨by omega, rfl⟩

theorem Keeps.make (keeps : family.Keeps history) (origin : Origin) :
    (family.perform (.make origin)).Keeps (history.record (.make origin)) := by
  have asked : (family.lifetimeOf? origin).isSome ↔
      ∀ parent ∈ origin.parent?, parent < history.births.length := by
    rw [lifetimeOf?_eq, bornOf?_isSome_iff, keeps.size]
  simp only [perform, History.record]
  cases isBorn : family.lifetimeOf? origin with
  | none =>
    rw [isBorn] at asked
    rw [if_neg (by simpa using asked)]
    exact keeps
  | some lifetime =>
    rw [isBorn] at asked
    have there := asked.1 rfl
    rw [if_pos there]
    constructor
    case now => exact keeps.now
    case agenda => exact keeps.agenda
    case nextToken => simp [LifetimeTree.grow, keeps.nextToken]
    case size => simp [keeps.size]
    case older =>
      intro name birth isBirth
      rcases birth_of_append isBirth with earlier | ⟨rfl, rfl⟩
      · exact keeps.older earlier
      · exact there
    case made =>
      intro name birth isBirth
      rcases birth_of_append isBirth with earlier | ⟨rfl, rfl⟩
      · have inside := (List.getElem?_eq_some_iff.1 earlier).1
        rw [List.getElem?_append_left (keeps.size ▸ inside), keeps.made earlier, bornOf?_append]
        intro parent isParent
        exact keeps.size ▸ Nat.lt_trans (keeps.older earlier parent isParent) inside
      · rw [bornOf?_append (keeps.size ▸ there), ← keeps.nextToken, ← keeps.now, ← lifetimeOf?_eq,
          isBorn, keeps.nextToken, ← keeps.size, List.getElem?_concat_length]
    case known =>
      intro name member
      exact Nat.lt_of_lt_of_le (keeps.known name member) (by simp)
    case cancelled =>
      intro token
      refine (keeps.cancelled token).trans
        (exists_congr fun name => and_congr_right fun member => ?_)
      have inside := keeps.known name member
      rw [tokenOf?, tokenOf?, List.getElem?_append_left (keeps.size ▸ inside)]

theorem Keeps.cancel (keeps : family.Keeps history) (name : Nat) :
    (family.perform (.cancel name)).Keeps (history.record (.cancel name)) := by
  simp only [perform, History.record]
  cases isLifetime : family.lifetimes[name]? with
  | none =>
    have outside := List.getElem?_eq_none_iff.1 isLifetime
    rw [keeps.size] at outside
    rw [if_neg (Nat.not_lt_of_le outside)]
    exact keeps
  | some lifetime =>
    have inside := (List.getElem?_eq_some_iff.1 isLifetime).1
    rw [keeps.size] at inside
    rw [if_pos inside]
    refine { keeps with known := ?_, cancelled := ?_ }
    · exact List.forall_mem_cons.2 ⟨inside, keeps.known⟩
    · intro token
      have own : token ∈ lifetime.lineage.take 1 ↔ family.tokenOf? name = some token := by
        rw [tokenOf?, isLifetime, Option.bind_some]
        cases lifetime.lineage <;> simp [eq_comm]
      simp only [LifetimeTree.cancel, List.mem_append, own, List.mem_cons, or_and_right, exists_or,
        exists_eq_left]
      exact or_congr_right (keeps.cancelled token)

/-- Nothing is on the agenda, so that only the clock moves. -/
theorem Keeps.advance (keeps : family.Keeps history) (duration : Nat) :
    family.tree.advance duration = { family.tree with now := family.tree.now + duration } := by
  simp [LifetimeTree.advance, LifetimeTree.moveTo, keeps.agenda, LifetimeTree.settleUntil]

theorem Keeps.pass (keeps : family.Keeps history) (duration : Nat) :
    (family.perform (.pass duration)).Keeps (history.record (.pass duration)) := by
  simp only [perform, keeps.advance]
  exact { keeps with now := congrArg (· + duration) keeps.now }

theorem Keeps.perform (keeps : family.Keeps history) (action : FamilyAction) :
    (family.perform action).Keeps (history.record action) := by
  cases action with
  | make origin => exact keeps.make origin
  | cancel name => exact keeps.cancel name
  | pass duration => exact keeps.pass duration

theorem Keeps.performAll (keeps : family.Keeps history) (actions : List FamilyAction) :
    (family.performAll actions).Keeps (history.recordAll actions) := by
  induction actions generalizing family history with
  | nil => exact keeps
  | cons action actions inductionHypothesis => exact inductionHypothesis (keeps.perform action)

theorem keeps_after (actions : List FamilyAction) : (after actions).Keeps (History.after actions) :=
  keeps_empty.performAll actions

end Keeps

end Family

/-! ## Tokens -/

namespace Family

variable {family : Family} {history : History}

/-- What a lifetime was made of, read from where it stands. -/
inductive MadeFrom (family : Family) (history : History) (name : Nat) : Lifetime → Prop
  | root {instant : Nat} (born : history.births[name]? = some ⟨.root, instant⟩) :
      MadeFrom family history name ⟨[name], none⟩
  | sharing {parent : Nat} {above : Lifetime} (older : parent < name)
      (isParent : family.lifetimes[parent]? = some above) (shares : history.Shares parent name) :
      MadeFrom family history name ⟨above.lineage, none⟩
  | child {parent instant : Nat} {above : Lifetime} (older : parent < name)
      (isParent : family.lifetimes[parent]? = some above)
      (born : history.births[name]? = some ⟨.child parent, instant⟩) :
      MadeFrom family history name ⟨name :: above.lineage, above.deadline⟩
  | within {parent timeout instant : Nat} {above : Lifetime} (older : parent < name)
      (isParent : family.lifetimes[parent]? = some above)
      (born : history.births[name]? = some ⟨.within parent timeout, instant⟩) :
      MadeFrom family history name
        ⟨name :: above.lineage, some (Scope.earlier above.deadline (instant + timeout))⟩

theorem Keeps.madeFrom (keeps : family.Keeps history) {name : Nat} {lifetime : Lifetime}
    (isLifetime : family.lifetimes[name]? = some lifetime) :
    family.MadeFrom history name lifetime := by
  obtain ⟨⟨origin, instant⟩, born⟩ := keeps.exists_birth isLifetime
  have made := keeps.made born
  have older := keeps.older born
  rw [isLifetime] at made
  cases origin with
  | root =>
    obtain rfl := Option.some.inj made
    exact .root born
  | sharing parent =>
    obtain ⟨above, isParent, rfl⟩ := Option.map_eq_some_iff.1 made.symm
    exact .sharing (older parent rfl) isParent ⟨instant, born⟩
  | child parent =>
    obtain ⟨above, isParent, rfl⟩ := Option.map_eq_some_iff.1 made.symm
    exact .child (older parent rfl) isParent born
  | within parent timeout =>
    obtain ⟨above, isParent, rfl⟩ := Option.map_eq_some_iff.1 made.symm
    exact .within (older parent rfl) isParent born

/-- The token of a lifetime was made for one that a cancellation of it reaches, and the other way
round. -/
theorem Keeps.token (keeps : family.Keeps history) {name : Nat} {lifetime : Lifetime}
    (isLifetime : family.lifetimes[name]? = some lifetime) :
    ∃ owner, lifetime.lineage.head? = some owner ∧ history.Reaches name owner ∧
      history.Reaches owner name := by
  induction name using Nat.strong_induction_on generalizing lifetime with
  | _ name inductionHypothesis =>
    cases keeps.madeFrom isLifetime with
    | root | child | within => exact ⟨name, rfl, .refl, .refl⟩
    | sharing older isParent shares =>
      obtain ⟨owner, first, down, up⟩ := inductionHypothesis _ older isParent
      exact ⟨owner, first, down.head (Or.inr (Or.inr shares)), up.tail (Or.inr (Or.inl shares))⟩

theorem Keeps.shared (keeps : family.Keeps history) {parent name : Nat}
    (shares : history.Shares parent name) :
    family.lifetimes[name]? = family.lifetimes[parent]?.map LifetimeTree.sharing := by
  obtain ⟨instant, born⟩ := shares
  exact keeps.made born

/-- A lifetime below another has a token of its own before those of the other, and is over no
later. -/
theorem Keeps.hung (keeps : family.Keeps history) {parent name : Nat} {lifetime : Lifetime}
    (hangs : history.Hangs parent name) (isLifetime : family.lifetimes[name]? = some lifetime) :
    ∃ above, family.lifetimes[parent]? = some above ∧ lifetime.lineage = name :: above.lineage ∧
      ∀ deadline, above.deadline = some deadline →
        ∃ earlier ≤ deadline, lifetime.deadline = some earlier := by
  obtain ⟨instant, born | ⟨timeout, born⟩⟩ := hangs
  · have made := keeps.made born
    rw [isLifetime] at made
    obtain ⟨above, isParent, rfl⟩ := Option.map_eq_some_iff.1 made.symm
    exact ⟨above, isParent, rfl, fun deadline set => ⟨deadline, Nat.le_refl _, set⟩⟩
  · have made := keeps.made born
    rw [isLifetime] at made
    obtain ⟨above, isParent, rfl⟩ := Option.map_eq_some_iff.1 made.symm
    refine ⟨above, isParent, rfl, fun deadline set =>
      ⟨_, Nat.min_le_left _ (instant + timeout), ?_⟩⟩
    simp only [LifetimeTree.within, set, Scope.earlier]

/-- Where a cancellation passes on, the lineage comes from the one that it passes on from. -/
theorem Keeps.lineage_subset (keeps : family.Keeps history) {first second : Nat}
    {lifetime : Lifetime} (reaches : history.Reaches first second)
    (isLifetime : family.lifetimes[second]? = some lifetime) :
    ∃ earlier, family.lifetimes[first]? = some earlier ∧ earlier.lineage ⊆ lifetime.lineage := by
  induction reaches generalizing lifetime with
  | refl => exact ⟨lifetime, isLifetime, List.Subset.refl _⟩
  | tail _ step inductionHypothesis =>
    rcases step with hangs | shares | shares
    · obtain ⟨above, isParent, lineage, -⟩ := keeps.hung hangs isLifetime
      obtain ⟨earlier, isEarlier, sub⟩ := inductionHypothesis isParent
      exact ⟨earlier, isEarlier, lineage ▸ List.subset_cons_of_subset _ sub⟩
    · have same := keeps.shared shares
      rw [isLifetime] at same
      obtain ⟨above, isParent, rfl⟩ := Option.map_eq_some_iff.1 same.symm
      obtain ⟨earlier, isEarlier, sub⟩ := inductionHypothesis isParent
      exact ⟨earlier, isEarlier, sub⟩
    · have same := keeps.shared shares
      rw [isLifetime] at same
      obtain ⟨earlier, isEarlier, sub⟩ := inductionHypothesis same
      exact ⟨earlier, isEarlier, sub⟩

/-- A cancellation reaches a lifetime just if the lineage of this has the token that it is of. -/
theorem Keeps.mem_lineage_iff (keeps : family.Keeps history) {origin name : Nat} {token : Token}
    {lifetime : Lifetime} (isToken : family.tokenOf? origin = some token)
    (isLifetime : family.lifetimes[name]? = some lifetime) :
    token ∈ lifetime.lineage ↔ history.Reaches origin name := by
  obtain ⟨cancelled, isCancelled, first⟩ := Option.bind_eq_some_iff.1 isToken
  constructor
  · intro member
    obtain ⟨owner, isOwner, down, -⟩ := keeps.token isCancelled
    obtain rfl := Option.some.inj (first.symm.trans isOwner)
    refine down.trans ?_
    clear down isOwner first isToken
    -- The owner of the token stands in the lineage as soon as the token does.
    induction name using Nat.strong_induction_on generalizing lifetime with
    | _ name inductionHypothesis =>
      cases keeps.madeFrom isLifetime with
      | root =>
        obtain rfl := List.mem_singleton.1 member
        exact .refl
      | sharing older isParent shares =>
        exact (inductionHypothesis _ older isParent member).tail (Or.inr (Or.inl shares))
      | child older isParent born =>
        rcases List.mem_cons.1 member with rfl | above
        · exact .refl
        · exact (inductionHypothesis _ older isParent above).tail (Or.inl ⟨_, Or.inl born⟩)
      | within older isParent born =>
        rcases List.mem_cons.1 member with rfl | above
        · exact .refl
        · exact (inductionHypothesis _ older isParent above).tail (Or.inl ⟨_, Or.inr ⟨_, born⟩⟩)
  · intro reaches
    obtain ⟨earlier, isEarlier, sub⟩ := keeps.lineage_subset reaches isLifetime
    obtain rfl := Option.some.inj (isCancelled.symm.trans isEarlier)
    exact sub (List.mem_of_head? first)

/-- The token that a cancellation of a lifetime cancels is in the lineages of those it reaches. -/
theorem Keeps.head_mem_iff (keeps : family.Keeps history) {origin name : Nat}
    {cancelled lifetime : Lifetime} (isCancelled : family.lifetimes[origin]? = some cancelled)
    (isLifetime : family.lifetimes[name]? = some lifetime) :
    (∃ token, cancelled.lineage.head? = some token ∧ token ∈ lifetime.lineage) ↔
      history.Reaches origin name := by
  obtain ⟨token, first, -⟩ := keeps.token isCancelled
  have isToken : family.tokenOf? origin = some token := by
    rw [tokenOf?, isCancelled]
    exact first
  rw [← keeps.mem_lineage_iff isToken isLifetime, first]
  simp

theorem Keeps.isCancelled_iff (keeps : family.Keeps history) {name : Nat} {lifetime : Lifetime}
    (isLifetime : family.lifetimes[name]? = some lifetime) :
    family.tree.isCancelled lifetime = true ↔ history.IsCancelled name := by
  simp only [LifetimeTree.isCancelled, List.any_eq_true, decide_eq_true_eq]
  constructor
  · rintro ⟨token, member, cancelled⟩
    obtain ⟨origin, isOrigin, isToken⟩ := (keeps.cancelled token).1 cancelled
    exact ⟨origin, isOrigin, (keeps.mem_lineage_iff isToken isLifetime).1 member⟩
  · rintro ⟨origin, isOrigin, reaches⟩
    obtain ⟨earlier, isEarlier, -⟩ := keeps.lineage_subset reaches isLifetime
    obtain ⟨token, first, -⟩ := keeps.token isEarlier
    have isToken : family.tokenOf? origin = some token := by rw [tokenOf?, isEarlier]; exact first
    exact ⟨token, (keeps.mem_lineage_iff isToken isLifetime).2 reaches,
      (keeps.cancelled token).2 ⟨origin, isOrigin, isToken⟩⟩

/-! ## Deadlines -/

/-- A lifetime has a deadline if it has limits at all, and then the earliest of them. -/
theorem Keeps.limits (keeps : family.Keeps history) {name : Nat} {lifetime : Lifetime}
    (isLifetime : family.lifetimes[name]? = some lifetime) :
    match lifetime.deadline with
    | none => ∀ instant, ¬history.Limit name instant
    | some deadline => IsLeast {instant | history.Limit name instant} deadline := by
  induction name using Nat.strong_induction_on generalizing lifetime with
  | _ name inductionHypothesis =>
    cases keeps.madeFrom isLifetime with
    | root born => simp [History.limit_iff born]
    | sharing older isParent shares =>
      obtain ⟨instant, born⟩ := shares
      simp [History.limit_iff born]
    | child older isParent born =>
      simp only [History.limit_iff born]
      exact inductionHypothesis _ older isParent
    | @within parent timeout instant above older isParent born =>
      have limits := inductionHypothesis _ older isParent
      simp only [History.limit_iff born]
      cases set : above.deadline with
      | none =>
        rw [set] at limits
        simp only [limits, or_false, Scope.earlier]
        exact isLeast_singleton
      | some deadline =>
        rw [set] at limits
        rw [Scope.earlier, min_comm]
        exact limits.insert (instant + timeout)

theorem Keeps.deadline_iff (keeps : family.Keeps history) {name : Nat} {lifetime : Lifetime}
    (isLifetime : family.lifetimes[name]? = some lifetime) (deadline : Nat) :
    lifetime.deadline = some deadline ↔
      IsLeast {instant | history.Limit name instant} deadline := by
  have limits := keeps.limits isLifetime
  cases set : lifetime.deadline with
  | none =>
    rw [set] at limits
    exact ⟨nofun, fun least => absurd least.1 (limits deadline)⟩
  | some earliest =>
    rw [set] at limits
    exact ⟨fun same => Option.some.inj same ▸ limits,
      fun least => congrArg some (limits.unique least)⟩

theorem Keeps.isLate_iff (keeps : family.Keeps history) {name : Nat} {lifetime : Lifetime}
    (isLifetime : family.lifetimes[name]? = some lifetime) :
    (lifetime.deadline.any fun deadline => deadline ≤ family.tree.now) = true ↔
      history.IsLate name := by
  simp only [Option.any_eq_true, decide_eq_true_eq, History.IsLate, ← keeps.deadline_iff isLifetime,
    keeps.now]

end Family

end UpdateRelay
