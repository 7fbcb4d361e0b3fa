import UpdateRelay.Failure

/-!
# Scopes

What an operation may look at of the lifetime it runs under: whether that was cancelled, and by
when it has to be done.

Instants are whole milliseconds since the start, which is how fine timers are, and there is no last
one: timeouts that lead beyond the range of a clock are left out.
-/

namespace UpdateRelay

/-- Why a lifetime is over. -/
inductive StopReason
  | cancelled
  | deadlineExceeded
  deriving DecidableEq, Repr

/-- The failure of an operation whose lifetime is over. -/
def StopReason.error : StopReason → BrokerFailure
  | cancelled => .cancelled
  | deadlineExceeded => .deadlineExceeded

/-- Whether a lifetime was cancelled, and the instant from which it is done anyway. -/
structure Scope where
  cancelled : Bool
  deadline : Option Nat
  deriving DecidableEq, Repr

namespace Scope

def unlimited : Scope := ⟨false, none⟩

/-- Why the scope is done at an instant, if it is; a cancellation counts first. -/
def stop? (scope : Scope) (now : Nat) : Option StopReason :=
  if scope.cancelled then some .cancelled
  else
    match scope.deadline with
    | some deadline => if deadline ≤ now then some .deadlineExceeded else none
    | none => none

/-- Fails where the scope is done. -/
def check (scope : Scope) (now : Nat) : Except BrokerFailure Unit :=
  match scope.stop? now with
  | some reason => .error reason.error
  | none => .ok ()

/-- The earlier of a deadline that may be absent and another. -/
def earlier (deadline : Option Nat) (other : Nat) : Nat :=
  match deadline with
  | some deadline => min deadline other
  | none => other

/-- The scope that is done some milliseconds from now at the latest. -/
def within (scope : Scope) (now timeout : Nat) : Scope :=
  { scope with deadline := some (earlier scope.deadline (now + timeout)) }

end Scope

end UpdateRelay
