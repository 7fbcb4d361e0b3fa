/-!
# Tables

A finite table from keys to values, kept in the order in which its keys first came. No key
occurs twice, so `Table.size` counts keys. Each operation is described through `Table.get?`.
-/

namespace UpdateRelay

/-- A finite table from keys to values. -/
structure Table (κ α : Type) where
  entries : List (κ × α)
  distinct : (entries.map Prod.fst).Nodup
  deriving DecidableEq, Repr

namespace Table

variable {κ α : Type}

def empty : Table κ α := ⟨[], List.nodup_nil⟩

instance : EmptyCollection (Table κ α) := ⟨empty⟩
instance : Inhabited (Table κ α) := ⟨empty⟩

def keys (table : Table κ α) : List κ := table.entries.map Prod.fst

def values (table : Table κ α) : List α := table.entries.map Prod.snd

def size (table : Table κ α) : Nat := table.entries.length

variable [DecidableEq κ]

def get? (table : Table κ α) (key : κ) : Option α :=
  (table.entries.find? fun entry => entry.1 = key).map Prod.snd

def contains (table : Table κ α) (key : κ) : Bool :=
  table.entries.any fun entry => entry.1 = key

def erase (table : Table κ α) (key : κ) : Table κ α where
  entries := table.entries.filter fun entry => entry.1 ≠ key
  distinct := table.distinct.sublist (List.filter_sublist.map _)

/-- The table with one value exchanged; a missing key stays missing. -/
def replace (table : Table κ α) (key : κ) (value : α) : Table κ α where
  entries := table.entries.map fun entry => if entry.1 = key then (key, value) else entry
  distinct := by
    have kept : (fun entry : κ × α => (if entry.1 = key then (key, value) else entry).1) =
        Prod.fst := by
      funext entry; split <;> simp_all
    simpa [List.map_map, Function.comp_def, kept] using table.distinct

/-- The table with a value for a key that may be new. -/
def set (table : Table κ α) (key : κ) (value : α) : Table κ α :=
  if present : key ∈ table.keys then table.replace key value
  else ⟨table.entries ++ [(key, value)], by
    rw [List.map_append, List.nodup_append]
    refine ⟨table.distinct, by simp, ?_⟩
    intro first member second same
    simp only [List.map_cons, List.map_nil, List.mem_singleton] at same
    subst same
    exact fun equal => present (equal ▸ member)⟩

/-- The table with one value changed; a missing key stays missing. -/
def modify (table : Table κ α) (key : κ) (change : α → α) : Table κ α :=
  match table.get? key with
  | some value => table.replace key (change value)
  | none => table

/-! ## What each operation does to `get?` -/

theorem get?_empty (key : κ) : (empty : Table κ α).get? key = none := rfl

theorem get?_erase (table : Table κ α) (key query : κ) :
    (table.erase key).get? query = if query = key then none else table.get? query := by
  obtain ⟨entries, distinct⟩ := table
  simp only [get?, erase]
  clear distinct
  induction entries with
  | nil => simp
  | cons entry rest ih =>
      by_cases gone : entry.1 = key <;> by_cases hit : entry.1 = query <;>
        by_cases same : query = key <;> simp_all

theorem get?_replace (table : Table κ α) (key query : κ) (value : α) :
    (table.replace key value).get? query =
      if query = key then (table.get? key).map fun _ => value else table.get? query := by
  obtain ⟨entries, distinct⟩ := table
  simp only [get?, replace]
  clear distinct
  induction entries with
  | nil => simp
  | cons entry rest ih =>
      by_cases hit : entry.1 = key <;> by_cases asked : entry.1 = query <;>
        by_cases same : query = key <;> simp_all

theorem get?_eq_none_iff (table : Table κ α) (key : κ) :
    table.get? key = none ↔ key ∉ table.keys := by
  simp only [get?, keys, Option.map_eq_none_iff, List.find?_eq_none, List.mem_map, not_exists,
    not_and, decide_eq_true_eq]

theorem get?_set (table : Table κ α) (key query : κ) (value : α) :
    (table.set key value).get? query = if query = key then some value else table.get? query := by
  unfold set
  split
  next present =>
      rw [get?_replace]
      have found : table.get? key ≠ none := fun missing =>
        (table.get?_eq_none_iff key).1 missing present
      obtain ⟨old, is⟩ := Option.ne_none_iff_exists'.1 found
      simp [is]
  next absent =>
      have missing := (table.get?_eq_none_iff key).2 absent
      unfold get? at missing ⊢
      rw [List.find?_append, Option.map_or]
      by_cases same : query = key
      · subst same; simp [missing]
      · simp [same, Ne.symm same]

theorem get?_modify (table : Table κ α) (key query : κ) (change : α → α) :
    (table.modify key change).get? query =
      if query = key then (table.get? key).map change else table.get? query := by
  unfold modify
  split
  next value found => rw [get?_replace]; simp [found]
  next missing => by_cases same : query = key <;> simp [same, missing]

end Table

end UpdateRelay
