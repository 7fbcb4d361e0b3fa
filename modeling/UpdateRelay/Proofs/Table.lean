import Mathlib.Data.List.Nodup
import UpdateRelay.Table

/-!
# Entries and keys of tables

`Table.get?` as membership among the entries, and what the operations of a table do to the list of
its keys and to the entries of other keys. Two tables whose entries go through the same operations
keep the same keys.
-/

namespace UpdateRelay

/-- Where keys tell items apart, all items but one are those that have another key. -/
theorem perm_cons_filter {α κ : Type} [DecidableEq κ] {key : α → κ} {items : List α}
    (distinct : (items.map key).Nodup) {item : α} (member : item ∈ items) :
    items.Perm (item :: items.filter fun other => key other ≠ key item) := by
  obtain ⟨front, back, rfl⟩ := List.append_of_mem member
  rw [List.map_append, List.map_cons, List.nodup_append, List.nodup_cons] at distinct
  obtain ⟨_, ⟨fresh, _⟩, apart⟩ := distinct
  have others : (front ++ item :: back).filter (fun other => key other ≠ key item) =
      front ++ back := by
    rw [List.filter_append, List.filter_cons_of_neg (by simp), List.filter_eq_self.2,
      List.filter_eq_self.2]
    · intro other isOther
      exact decide_eq_true fun same => fresh (List.mem_map.2 ⟨other, isOther, same⟩)
    · intro other isOther
      exact decide_eq_true (apart _ (List.mem_map.2 ⟨other, isOther, rfl⟩) _ List.mem_cons_self)
  rw [others]
  exact List.perm_middle

namespace Table

variable {κ α : Type}

@[ext] theorem ext {first second : Table κ α} (same : first.entries = second.entries) :
    first = second := by
  cases first
  cases second
  simpa using same

theorem mem_keys_of_mem {table : Table κ α} {key : κ} {value : α}
    (member : (key, value) ∈ table.entries) : key ∈ table.keys :=
  List.mem_map.2 ⟨(key, value), member, rfl⟩

theorem value_unique {table : Table κ α} {key : κ} {first second : α}
    (firstMember : (key, first) ∈ table.entries) (secondMember : (key, second) ∈ table.entries) :
    first = second :=
  (Prod.mk.inj (List.inj_on_of_nodup_map table.distinct firstMember secondMember rfl)).2

variable [DecidableEq κ]

theorem get?_eq_some_iff {table : Table κ α} {key : κ} {value : α} :
    table.get? key = some value ↔ (key, value) ∈ table.entries := by
  constructor
  · intro found
    obtain ⟨entry, hit, rfl⟩ := Option.map_eq_some_iff.1 found
    obtain rfl : entry.1 = key := by simpa using List.find?_some hit
    exact List.mem_of_find?_eq_some hit
  · intro member
    cases hit : table.get? key with
    | none => exact absurd (mem_keys_of_mem member) ((get?_eq_none_iff table key).1 hit)
    | some other =>
      obtain ⟨entry, found, rfl⟩ := Option.map_eq_some_iff.1 hit
      obtain rfl : entry.1 = key := by simpa using List.find?_some found
      rw [value_unique (List.mem_of_find?_eq_some found) member]

theorem mem_keys_iff {table : Table κ α} {key : κ} :
    key ∈ table.keys ↔ ∃ value, table.get? key = some value := by
  constructor
  · intro member
    obtain ⟨⟨_, value⟩, entryMember, rfl⟩ := List.mem_map.1 member
    exact ⟨value, get?_eq_some_iff.2 entryMember⟩
  · rintro ⟨value, found⟩
    exact mem_keys_of_mem (get?_eq_some_iff.1 found)

theorem contains_eq_isSome (table : Table κ α) (key : κ) :
    table.contains key = (table.get? key).isSome := by
  cases found : table.get? key with
  | none =>
    have absent := (get?_eq_none_iff table key).1 found
    simp only [contains, Option.isSome_none, List.any_eq_false, decide_eq_true_eq]
    rintro ⟨_, value⟩ member rfl
    exact absent (mem_keys_of_mem member)
  | some value =>
    simp only [contains, Option.isSome_some, List.any_eq_true, decide_eq_true_eq]
    exact ⟨(key, value), get?_eq_some_iff.1 found, rfl⟩

/-- An entry that is exchanged for itself is left alone. -/
theorem replace_self {table : Table κ α} {key : κ} {value : α}
    (found : table.get? key = some value) : table.replace key value = table := by
  apply ext
  refine (List.map_congr_left fun entry member => ?_).trans (List.map_id _)
  split
  next hit =>
    obtain ⟨entryKey, entryValue⟩ := entry
    obtain rfl : entryKey = key := hit
    exact congrArg (entryKey, ·) (value_unique (get?_eq_some_iff.1 found) member)
  next => rfl

/-! ## All entries but one -/

/-- A key that is missing is not there to be erased. -/
theorem erase_eq_self {table : Table κ α} {key : κ} (absent : table.get? key = none) :
    table.erase key = table := by
  apply ext
  refine List.filter_eq_self.2 fun entry member => decide_eq_true fun same => ?_
  exact (get?_eq_none_iff table key).1 absent (List.mem_map.2 ⟨entry, member, same⟩)

theorem erase_replace (table : Table κ α) (key : κ) (value : α) :
    (table.replace key value).erase key = table.erase key := by
  apply ext
  simp only [erase, replace, List.filter_map]
  have others : ((fun entry : κ × α => decide (entry.1 ≠ key)) ∘
      fun entry => if entry.1 = key then (key, value) else entry) =
        fun entry => decide (entry.1 ≠ key) := by
    funext entry
    by_cases same : entry.1 = key <;> simp [same]
  rw [others]
  refine (List.map_congr_left fun entry member => ?_).trans (List.map_id _)
  exact if_neg (of_decide_eq_true (List.mem_filter.1 member).2)

theorem erase_set (table : Table κ α) (key : κ) (value : α) :
    (table.set key value).erase key = table.erase key := by
  unfold set
  split
  next => exact table.erase_replace key value
  next =>
    apply ext
    simp [erase]

/-- The values of a table are one of them and those of the other keys. -/
theorem perm_values {table : Table κ α} {key : κ} {value : α}
    (found : table.get? key = some value) :
    table.values.Perm (value :: (table.erase key).values) :=
  (perm_cons_filter table.distinct (get?_eq_some_iff.1 found)).map Prod.snd

/-! ## Tables with other values -/

omit [DecidableEq κ] in
theorem map_fst_map {β : Type} (change : α → β) (entries : List (κ × α)) :
    (entries.map fun entry => (entry.1, change entry.2)).map Prod.fst = entries.map Prod.fst := by
  rw [List.map_map]
  rfl

/-- The table with all its values changed. -/
def mapValues {β : Type} (table : Table κ α) (change : α → β) : Table κ β where
  entries := table.entries.map fun entry => (entry.1, change entry.2)
  distinct := map_fst_map change table.entries ▸ table.distinct

section MapValues

variable {β : Type} (table : Table κ α) (change : α → β) (key : κ) (value : α)

omit [DecidableEq κ] in
theorem keys_mapValues : (table.mapValues change).keys = table.keys :=
  map_fst_map change table.entries

omit [DecidableEq κ] in
theorem values_mapValues : (table.mapValues change).values = table.values.map change := by
  simp [values, mapValues]

theorem get?_mapValues : (table.mapValues change).get? key = (table.get? key).map change := by
  simp only [get?, mapValues, List.find?_map, Option.map_map]
  rfl

theorem mapValues_erase :
    (table.erase key).mapValues change = (table.mapValues change).erase key := by
  apply Table.ext
  simp only [mapValues, erase, List.filter_map]
  rfl

theorem mapValues_replace :
    (table.replace key value).mapValues change =
      (table.mapValues change).replace key (change value) := by
  apply Table.ext
  simp only [mapValues, replace, List.map_map]
  refine List.map_congr_left fun entry _ => ?_
  simp only [Function.comp_apply]
  split <;> rfl

theorem mapValues_set :
    (table.set key value).mapValues change = (table.mapValues change).set key (change value) := by
  have sameKeys := table.keys_mapValues change
  unfold set
  by_cases present : key ∈ table.keys
  · rw [dif_pos present, dif_pos (sameKeys ▸ present), mapValues_replace]
  · rw [dif_neg present, dif_neg (sameKeys ▸ present)]
    apply Table.ext
    simp [mapValues]

end MapValues

end Table

end UpdateRelay
