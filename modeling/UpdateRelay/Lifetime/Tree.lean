import UpdateRelay.Lifetime.Scope

/-!
# Lifetimes

A lifetime has a token that can be cancelled and maybe a deadline. The token of a lifetime that was
made from another has the other's token as its parent, and a cancellation reaches all tokens
below the one it names. The deadline is copied when the lifetime is made.

`LifetimeTree` holds which tokens were cancelled and which cancellations are still to come;
`LifetimeTree.race` says how a piece of work ends that runs under a lifetime.
-/

namespace UpdateRelay

/-- Names what can be cancelled. -/
abbrev Token := Nat

/-- The token of a lifetime, followed by those it hangs from, and the lifetime's deadline. -/
structure Lifetime where
  lineage : List Token
  deadline : Option Nat
  deriving DecidableEq, Repr

/-- A cancellation that is still to come. -/
structure Cancellation where
  instant : Nat
  lifetime : Lifetime
  deriving DecidableEq, Repr

/-- The time, the tokens that were given out and cancelled, and the cancellations to come,
earliest first. -/
structure LifetimeTree where
  now : Nat
  nextToken : Token
  cancelled : List Token
  agenda : List Cancellation
  deriving DecidableEq, Repr

/-- How a race between some work and its lifetime ends. -/
inductive Verdict
  | finished
  | stopped (reason : StopReason)
  | unending
  deriving DecidableEq, Repr

namespace LifetimeTree

def empty : LifetimeTree := ⟨0, 0, [], []⟩

/-! ## Making lifetimes -/

def grow (tree : LifetimeTree) : LifetimeTree := { tree with nextToken := tree.nextToken + 1 }

def root (tree : LifetimeTree) : Lifetime := ⟨[tree.nextToken], none⟩

/-- A lifetime that shares the token of another, but not its deadline. -/
def sharing (parent : Lifetime) : Lifetime := ⟨parent.lineage, none⟩

def child (tree : LifetimeTree) (parent : Lifetime) : Lifetime :=
  ⟨tree.nextToken :: parent.lineage, parent.deadline⟩

/-- A lifetime below another that has some milliseconds from now at the most. -/
def within (tree : LifetimeTree) (parent : Lifetime) (timeout : Nat) : Lifetime :=
  ⟨tree.nextToken :: parent.lineage, some (Scope.earlier parent.deadline (tree.now + timeout))⟩

/-! ## Looking at lifetimes -/

/-- Whether the token of the lifetime or one that it hangs from was cancelled. -/
def isCancelled (tree : LifetimeTree) (lifetime : Lifetime) : Bool :=
  lifetime.lineage.any fun token => token ∈ tree.cancelled

/-- Whether the lifetime is over: it was cancelled or its deadline has come. -/
def isDone (tree : LifetimeTree) (lifetime : Lifetime) : Bool :=
  tree.isCancelled lifetime || lifetime.deadline.any fun deadline => deadline ≤ tree.now

/-- The scope that operations under the lifetime have now. -/
def scope (tree : LifetimeTree) (lifetime : Lifetime) : Scope :=
  ⟨tree.isCancelled lifetime, lifetime.deadline⟩

/-- Why the lifetime is over, if it is. -/
def stop? (tree : LifetimeTree) (lifetime : Lifetime) : Option StopReason :=
  (tree.scope lifetime).stop? tree.now

def check (tree : LifetimeTree) (lifetime : Lifetime) : Except BrokerFailure Unit :=
  (tree.scope lifetime).check tree.now

/-! ## Cancelling, and the passing of time -/

def cancel (tree : LifetimeTree) (lifetime : Lifetime) : LifetimeTree :=
  { tree with cancelled := lifetime.lineage.take 1 ++ tree.cancelled }

/-- The agenda with one more cancellation, after those that do not come later. -/
def insertByInstant (cancellation : Cancellation) : List Cancellation → List Cancellation
  | [] => [cancellation]
  | first :: rest =>
      if cancellation.instant < first.instant then cancellation :: first :: rest
      else first :: insertByInstant cancellation rest

/-- The tree in which the lifetime will be cancelled some milliseconds from now. -/
def cancelLater (tree : LifetimeTree) (lifetime : Lifetime) (delay : Nat) : LifetimeTree :=
  { tree with agenda := insertByInstant ⟨tree.now + delay, lifetime⟩ tree.agenda }

/-- Carries out the first cancellation to come. -/
def cancelNext (tree : LifetimeTree) (first : Cancellation) (rest : List Cancellation) :
    LifetimeTree :=
  { tree with
    now := max tree.now first.instant
    cancelled := first.lifetime.lineage.take 1 ++ tree.cancelled
    agenda := rest }

/-- Carries out all cancellations up to an instant. -/
def settleUntil (instant : Nat) : List Cancellation → LifetimeTree → LifetimeTree
  | [], tree => { tree with agenda := [] }
  | first :: rest, tree =>
      if first.instant ≤ instant then settleUntil instant rest (tree.cancelNext first rest)
      else { tree with agenda := first :: rest }

def moveTo (tree : LifetimeTree) (instant : Nat) : LifetimeTree :=
  { settleUntil instant tree.agenda tree with now := instant }

def advance (tree : LifetimeTree) (duration : Nat) : LifetimeTree :=
  tree.moveTo (tree.now + duration)

/-! ## Work under a lifetime -/

/-- The instant at which the clock alone ends a race and how it does; at one instant the deadline
comes before the work. -/
def timeUp? (lifetime : Lifetime) (finish : Option Nat) : Option (Nat × Verdict) :=
  match lifetime.deadline, finish with
  | some deadline, some finish =>
      if deadline ≤ finish then some (deadline, .stopped .deadlineExceeded)
      else some (finish, .finished)
  | some deadline, none => some (deadline, .stopped .deadlineExceeded)
  | none, some finish => some (finish, .finished)
  | none, none => none

/-- Goes through the cancellations to come until one of them or the clock ends the race. What the
clock does at an instant comes before the cancellations of that instant. -/
def raceThrough (lifetime : Lifetime) (finish : Option Nat) :
    List Cancellation → LifetimeTree → Verdict × LifetimeTree
  -- No cancellation is left, so the clock alone decides.
  | [], tree =>
      match timeUp? lifetime finish with
      | some (instant, verdict) => (verdict, tree.moveTo instant)
      | none => (.unending, tree)
  | first :: rest, tree =>
      match timeUp? lifetime finish with
      | some (instant, verdict) =>
          if instant ≤ first.instant then (verdict, tree.moveTo instant)
          else raceOn first rest tree
      | none => raceOn first rest tree
where
  /-- Carries out one cancellation and goes on if it does not end the race. -/
  raceOn (first : Cancellation) (rest : List Cancellation) (tree : LifetimeTree) :
      Verdict × LifetimeTree :=
    let after := tree.cancelNext first rest
    if after.isCancelled lifetime then (.stopped .cancelled, after.moveTo after.now)
    else raceThrough lifetime finish rest after

/-- How work under a lifetime ends that takes some time, or never ends of itself. -/
def race (tree : LifetimeTree) (lifetime : Lifetime) (duration : Option Nat) :
    Verdict × LifetimeTree :=
  match tree.stop? lifetime with
  | some reason => (.stopped reason, tree)
  | none => raceThrough lifetime (duration.map (tree.now + ·)) tree.agenda tree

end LifetimeTree

end UpdateRelay
