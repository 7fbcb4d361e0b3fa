import UpdateRelay.Lifetime.Scope
import UpdateRelay.Event

/-!
# Notices of changes

What a service that changed a resource has published for it. The change has happened by then, so
nobody is told when the publish fails.
-/

namespace UpdateRelay

/-- A change that is to be published, and how many milliseconds that may take. -/
structure Notice where
  resource : String
  event : Event
  timeout : Nat
  deriving DecidableEq, Repr

namespace Notice

def defaultTimeout : Nat := 5000

/-- The notice of a change of a resource. -/
def change (resource : String) (count : Int64) (message : String) (timeout : Nat) : Notice :=
  ⟨resource, ⟨resource, count, message⟩, timeout⟩

/-- The notice that a project, which now has some number of issues, got one more. -/
def newIssue (project issue : String) (issueCount : Int64) (timeout : Nat) : Notice :=
  change project issueCount s!"Issue {issue} added to project {project}" timeout

/-- The scope under which a notice is published. -/
def scope (notice : Notice) (now : Nat) : Scope := Scope.unlimited.within now notice.timeout

end Notice

end UpdateRelay
