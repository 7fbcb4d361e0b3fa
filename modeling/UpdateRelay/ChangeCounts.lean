import UpdateRelay.Table

/-!
# Counts of changes

How often each known resource has changed, for sessions that are asked to tell it. Counts have 64
bits, and there is none above the greatest: one more change of a resource that has it is a failure.
-/

namespace UpdateRelay

/-- The counts of the known resources. -/
structure ChangeCounts where
  byResource : Table String Int64
  deriving Repr

/-- Why one more change cannot be counted: a resource has the greatest count there is. -/
inductive CountFailure
  | greatest (resource : String)
  deriving DecidableEq, Repr

namespace ChangeCounts

def empty : ChangeCounts := ⟨∅⟩

def get? (counts : ChangeCounts) (resource : String) : Option Int64 :=
  counts.byResource.get? resource

def set (counts : ChangeCounts) (resource : String) (count : Int64) : ChangeCounts :=
  ⟨counts.byResource.set resource count⟩

/-- The count that one more change starts from; an unknown resource starts from zero. -/
def current (counts : ChangeCounts) (resource : String) : Int64 := (counts.get? resource).getD 0

/-- The count of a resource after one more change. -/
def successor (counts : ChangeCounts) (resource : String) : Except CountFailure Int64 :=
  let count := counts.current resource
  if count = Int64.maxValue then .error (.greatest resource) else .ok (count + 1)

/-- The counts after one more change of a resource, and its new count. -/
def increment (counts : ChangeCounts) (resource : String) :
    Except CountFailure (ChangeCounts × Int64) :=
  (counts.successor resource).map fun count => (counts.set resource count, count)

def remove (counts : ChangeCounts) (resource : String) : ChangeCounts :=
  ⟨counts.byResource.erase resource⟩

end ChangeCounts

end UpdateRelay
