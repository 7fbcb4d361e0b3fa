import Mathlib.Data.List.Induction
import UpdateRelay.ChangeCounts

/-!
# Counts and their history

What the count of a resource has come to can be read off all that was asked of the counts: the value
that was last set since the resource was last removed, and the increments after it, which
`ChangeCounts.total?` adds up as integers. `ChangeCounts.tallied_up_to_greatest` says that the count
is this integer as long as no request fails, that increments fail of the greatest count and of no
other, and that a failed one leaves all counts as they are.
-/

namespace UpdateRelay.ChangeCounts

/-! ## Requests -/

/-- What can be asked about a resource. -/
inductive Task
  | set (count : Int64)
  | increment
  | remove
  | get
  deriving DecidableEq, Repr

structure Request where
  resource : String
  task : Task
  deriving DecidableEq, Repr

/-- The counts after a request; one that fails leaves them as they are. -/
def perform (counts : ChangeCounts) (request : Request) : ChangeCounts :=
  match request.task with
  | .set count => counts.set request.resource count
  | .increment =>
      match counts.increment request.resource with
      | .ok (after, _) => after
      | .error _ => counts
  | .remove => counts.remove request.resource
  | .get => counts

/-- The count that a request is answered with: the new one for an increment, the one before it for
a removal. -/
def answer (counts : ChangeCounts) (request : Request) : Except CountFailure (Option Int64) :=
  match request.task with
  | .set _ => .ok none
  | .increment => (counts.increment request.resource).map fun incremented => some incremented.2
  | .remove | .get => .ok (counts.get? request.resource)

/-- The counts after some requests. -/
def after (requests : List Request) : ChangeCounts := requests.foldl perform empty

theorem after_concat (requests : List Request) (request : Request) :
    after (requests ++ [request]) = (after requests).perform request :=
  List.foldl_append

/-- Whether none of some requests fails. -/
def answersAll (counts : ChangeCounts) : List Request → Bool
  | [] => true
  | request :: rest => (counts.answer request).isOk && (counts.perform request).answersAll rest

theorem answersAll_concat (counts : ChangeCounts) (requests : List Request) (request : Request) :
    counts.answersAll (requests ++ [request]) =
      (counts.answersAll requests && ((requests.foldl perform counts).answer request).isOk) := by
  induction requests generalizing counts with
  | nil => exact Bool.and_true _
  | cons first rest ih =>
    rw [List.cons_append, answersAll, ih, answersAll, Bool.and_assoc]
    rfl

/-! ## History -/

/-- The count that a task sets, if it sets one. -/
def Task.value? : Task → Option Int64
  | set count => some count
  | increment | remove | get => none

/-- What was asked about a resource since it was last removed, the latest first. -/
def recent (requests : List Request) (resource : String) : List Task :=
  ((requests.filter (·.resource = resource)).map (·.task)).reverse.takeWhile (· ≠ .remove)

/-- The value that was last set, or zero. -/
def lastSet (tasks : List Task) : Int := (tasks.findSome? Task.value?).elim 0 Int64.toInt

/-- How many increments came after that. -/
def additions (tasks : List Task) : Nat := (tasks.takeWhile (·.value? = none)).count .increment

/-- The value last set and the increments after it, if there was any of these since a resource was
last removed. -/
def total? (requests : List Request) (resource : String) : Option Int :=
  let tasks := recent requests resource
  if ∀ task ∈ tasks, task = .get then none else some (lastSet tasks + additions tasks)

section Recent

variable (tasks : List Task)

theorem lastSet_set (count : Int64) : lastSet (.set count :: tasks) = count.toInt := rfl

theorem lastSet_increment : lastSet (.increment :: tasks) = lastSet tasks := rfl

theorem lastSet_get : lastSet (.get :: tasks) = lastSet tasks := rfl

theorem additions_set (count : Int64) : additions (.set count :: tasks) = 0 := rfl

theorem additions_increment : additions (.increment :: tasks) = additions tasks + 1 := by
  simp [additions, Task.value?]

theorem additions_get : additions (.get :: tasks) = additions tasks := by
  simp [additions, Task.value?]

variable {tasks}

/-- Questions leave everything at zero. -/
theorem nothing_of_silent (silent : ∀ task ∈ tasks, task = .get) :
    lastSet tasks = 0 ∧ additions tasks = 0 := by
  induction tasks with
  | nil => exact ⟨rfl, rfl⟩
  | cons task tasks ih =>
    obtain rfl := silent task List.mem_cons_self
    rw [lastSet_get, additions_get]
    exact ih fun other member => silent other (List.mem_cons_of_mem _ member)

end Recent

theorem recent_concat (requests : List Request) (request : Request) (resource : String) :
    recent (requests ++ [request]) resource =
      if request.resource = resource then
        if request.task = .remove then [] else request.task :: recent requests resource
      else recent requests resource := by
  unfold recent
  by_cases own : request.resource = resource
  · by_cases removes : request.task = .remove <;> simp [own, removes]
  · simp [own]

/-- What one more request adds to the history of its own resource. -/
theorem total?_concat (requests : List Request) (resource : String) (task : Task) :
    total? (requests ++ [⟨resource, task⟩]) resource =
      match task with
      | .set count => some count.toInt
      | .increment => some ((total? requests resource).getD 0 + 1)
      | .remove => none
      | .get => total? requests resource := by
  simp only [total?, recent_concat, if_true]
  generalize recent requests resource = tasks
  cases task with
  | set count => simp [lastSet_set, additions_set]
  | remove => simp
  | get => simp [lastSet_get, additions_get]
  | increment =>
    -- Where nothing is left of the history, it is zero that is counted from, as without it.
    have before : (if ∀ task ∈ tasks, task = .get then none
        else some (lastSet tasks + additions tasks)).getD 0 = lastSet tasks + additions tasks := by
      split
      next silent => simp [nothing_of_silent silent]
      next => rfl
    rw [before]
    simp [lastSet_increment, additions_increment, Int.add_assoc]

theorem total?_concat_of_ne (requests : List Request) {request : Request} {resource : String}
    (other : request.resource ≠ resource) :
    total? (requests ++ [request]) resource = total? requests resource := by
  simp only [total?, recent_concat, if_neg other]

/-! ## Increments -/

/-- One more than a count is above it, unless there is none above it. -/
theorem toInt_add_one {count : Int64} (notGreatest : count ≠ Int64.maxValue) :
    (count + 1).toInt = count.toInt + 1 := by
  have below : count.toInt < Int64.maxValue.toInt :=
    Int.lt_iff_le_and_ne.2 ⟨count.toInt_le, fun same => notGreatest (Int64.toInt_inj.1 same)⟩
  have sum : count + 1 = Int64.ofInt (count.toInt + 1) := by
    rw [Int64.ofInt_add, Int64.ofInt_toInt]
    rfl
  rw [sum]
  exact Int64.toInt_ofInt_of_le (Int.le_add_one count.minValue_le_toInt)
    (Int.add_lt_add_right below 1)

theorem increment_of_ne {counts : ChangeCounts} {resource : String}
    (notGreatest : counts.current resource ≠ Int64.maxValue) :
    counts.increment resource =
      .ok (counts.set resource (counts.current resource + 1), counts.current resource + 1) := by
  rw [increment, successor, if_neg notGreatest]
  rfl

theorem increment_of_eq {counts : ChangeCounts} {resource : String}
    (greatest : counts.current resource = Int64.maxValue) :
    counts.increment resource = .error (.greatest resource) := by
  rw [increment, successor, if_pos greatest]
  rfl

/-! ## Counts -/

theorem get?_perform_of_ne (counts : ChangeCounts) {request : Request} {resource : String}
    (other : request.resource ≠ resource) :
    (counts.perform request).get? resource = counts.get? resource := by
  obtain ⟨own, task⟩ := request
  have away : resource ≠ own := Ne.symm other
  cases task with
  | set count => simp [perform, set, get?, Table.get?_set, away]
  | increment =>
    by_cases greatest : counts.current own = Int64.maxValue
    · simp only [perform, increment_of_eq greatest]
    · simp [perform, increment_of_ne greatest, set, get?, Table.get?_set, away]
  | remove => simp [perform, remove, get?, Table.get?_erase, away]
  | get => rfl

/-- A count that is one more change away is one more, or the greatest still. -/
theorem get?_perform_increment (counts : ChangeCounts) (resource : String) :
    ((counts.perform ⟨resource, .increment⟩).get? resource).map Int64.toInt =
      some (min ((counts.current resource).toInt + 1) Int64.maxValue.toInt) := by
  by_cases greatest : counts.current resource = Int64.maxValue
  · have isGreatest : counts.get? resource = some Int64.maxValue := by
      cases found : counts.get? resource with
      | none =>
        rw [current, found] at greatest
        contradiction
      | some count =>
        rw [current, found] at greatest
        exact congrArg some greatest
    simp only [perform, increment_of_eq greatest, isGreatest, greatest]
    decide
  · have below := toInt_add_one greatest
    have fits := (counts.current resource + 1).toInt_le
    simp only [perform, increment_of_ne greatest, set, get?, Table.get?_set, if_true,
      Option.map_some]
    rw [below] at fits ⊢
    rw [Int.min_eq_left fits]

theorem toInt_current {counts : ChangeCounts} {resource : String} {total : Option Int}
    (counted : (counts.get? resource).map Int64.toInt =
      total.map (min · Int64.maxValue.toInt)) :
    (counts.current resource).toInt = min (total.getD 0) Int64.maxValue.toInt := by
  rw [current]
  cases found : counts.get? resource with
  | none =>
    rw [found, Option.map_none, eq_comm, Option.map_eq_none_iff] at counted
    rw [counted]
    decide
  | some count =>
    rw [found, Option.map_some, eq_comm, Option.map_eq_some_iff] at counted
    obtain ⟨total, rfl, isCount⟩ := counted
    exact isCount.symm

/-- A count is the integer that its history comes to, as far as there are counts. -/
theorem get?_after (requests : List Request) (resource : String) :
    ((after requests).get? resource).map Int64.toInt =
      (total? requests resource).map (min · Int64.maxValue.toInt) := by
  -- A history grows at its end, so it is the last request that is split off.
  induction requests using List.reverseRecOn with
  | nil => rfl
  | append_singleton requests request ih =>
    rw [after_concat]
    by_cases own : request.resource = resource
    · obtain ⟨resource, task⟩ := request
      obtain rfl := own
      rw [total?_concat]
      cases task with
      | set count =>
        simp only [perform, set, get?, Table.get?_set, if_true, Option.map_some]
        rw [Int.min_eq_left count.toInt_le]
      | increment =>
        have capped : ∀ total : Int, min (min total Int64.maxValue.toInt + 1)
            Int64.maxValue.toInt = min (total + 1) Int64.maxValue.toInt := by
          intro total
          omega
        rw [get?_perform_increment, toInt_current ih]
        exact congrArg some (capped _)
      | remove => simp [perform, remove, get?, Table.get?_erase]
      | get => exact ih
    · rw [get?_perform_of_ne _ own, total?_concat_of_ne requests own, ih]

/-- What is counted is never too large if no request fails. -/
theorem total?_le_of_answersAll {requests : List Request}
    (answered : empty.answersAll requests = true) {resource : String} {total : Int}
    (isTotal : total? requests resource = some total) : total ≤ Int64.maxValue.toInt := by
  induction requests using List.reverseRecOn generalizing total with
  | nil => contradiction
  | append_singleton requests request ih =>
    rw [answersAll_concat, Bool.and_eq_true] at answered
    obtain ⟨earlier, last⟩ := answered
    by_cases own : request.resource = resource
    · obtain ⟨resource, task⟩ := request
      obtain rfl := own
      rw [total?_concat] at isTotal
      cases task with
      | set count => exact Option.some.inj isTotal ▸ count.toInt_le
      | increment =>
        have notGreatest : (after requests).current resource ≠ Int64.maxValue := by
          intro greatest
          have failed : ((after requests).answer ⟨resource, .increment⟩).isOk = false := by
            rw [answer, increment_of_eq greatest]
            rfl
          exact absurd last (Bool.eq_false_iff.1 failed)
        have more := toInt_add_one notGreatest
        have fits := ((after requests).current resource + 1).toInt_le
        have counted := toInt_current (get?_after requests resource)
        have isSum := Option.some.inj isTotal
        omega
      | remove => contradiction
      | get => exact ih earlier isTotal
    · rw [total?_concat_of_ne requests own] at isTotal
      exact ih earlier isTotal

/-- What the count of a resource is after any requests. It is the integer that the history of the
resource comes to, or the greatest count if that integer is above it, and there is none if the
resource was neither set nor incremented since it was last removed. As long as no request fails the
integer is not above it. An increment is answered with the count that it stores, which is one more
than the one before it; it fails just if that was the greatest, and changes nothing then. Requests
about other resources do not matter. -/
theorem tallied_up_to_greatest (requests : List Request) (resource : String) :
    let counts := after requests
    let before := counts.current resource
    (counts.get? resource).map Int64.toInt =
        (total? requests resource).map (min · Int64.maxValue.toInt) ∧
      (empty.answersAll requests = true →
        (counts.get? resource).map Int64.toInt = total? requests resource) ∧
      (before ≠ Int64.maxValue → ∃ count,
        counts.answer ⟨resource, .increment⟩ = .ok (some count) ∧
        (counts.perform ⟨resource, .increment⟩).get? resource = some count ∧
        before < count ∧ count.toInt = before.toInt + 1) ∧
      (before = Int64.maxValue →
        counts.answer ⟨resource, .increment⟩ = .error (.greatest resource) ∧
        counts.perform ⟨resource, .increment⟩ = counts) ∧
      ∀ request, request.resource ≠ resource →
        (counts.perform request).get? resource = counts.get? resource := by
  intro counts before
  refine ⟨get?_after requests resource, fun answered => ?exact, fun notGreatest => ?more,
    fun greatest => ?full, fun request other => counts.get?_perform_of_ne other⟩
  case exact =>
    refine (get?_after requests resource).trans ?_
    cases isTotal : total? requests resource with
    | none => rfl
    | some total =>
      exact congrArg some (Int.min_eq_left (total?_le_of_answersAll answered isTotal))
  case more =>
    have more := toInt_add_one notGreatest
    refine ⟨before + 1, ?_, ?_, Int64.lt_iff_toInt_lt.2 (by omega), more⟩
    · rw [answer, increment_of_ne notGreatest]
      rfl
    · simp [perform, increment_of_ne notGreatest, set, get?, Table.get?_set, before]
  case full =>
    simp [answer, perform, increment_of_eq greatest, Except.map]

/-- A count comes up to the greatest, whether another resource has it or not. -/
theorem tallied_to_the_top :
    let requests : List Request := [⟨"p", .increment⟩, ⟨"q", .set Int64.maxValue⟩,
      ⟨"p", .set 9223372036854775805⟩, ⟨"p", .increment⟩, ⟨"p", .increment⟩]
    empty.answersAll requests = true ∧
      ((after requests).get? "p").map Int64.toInt = some 9223372036854775807 ∧
      (after requests).answer ⟨"p", .increment⟩ = .error (.greatest "p") := by
  intro requests
  have answered : empty.answersAll requests = true := by decide
  obtain ⟨_, exact, _, full, _⟩ := tallied_up_to_greatest requests "p"
  exact ⟨answered, (exact answered).trans (by decide), (full (by decide)).1⟩

/-- An increment of the greatest count fails, and is lost. -/
theorem increment_of_greatest :
    let requests : List Request := [⟨"p", .set Int64.maxValue⟩, ⟨"p", .increment⟩]
    total? requests "p" = some 9223372036854775808 ∧
      (after [⟨"p", .set Int64.maxValue⟩]).answer ⟨"p", .increment⟩ = .error (.greatest "p") ∧
      (after requests).get? "p" = some Int64.maxValue := by
  decide

end UpdateRelay.ChangeCounts
