import UpdateRelay.Proofs.Journal.MemberCounts

/-!
# Topics that outlast a change

Whatever happens to a journal, a topic that is there afterwards and is no younger than the journal
was there before, with the first of its records: `Journal.Outlasts`. So a topic that is gone stays
gone, whatever is made under its name, and a reader of it reads nothing again.
-/

namespace UpdateRelay.Journal

/-- Topics that were there before have their first records, and others are younger. -/
structure Outlasts (journal after : Journal) : Prop where
  epochs : journal.epochs ≤ after.epochs
  source : ∀ {name : String} {epoch : Nat} {topic : Topic}, epoch ≤ journal.epochs →
    after.liveTopic? name epoch = some topic →
    ∃ earlier, journal.liveTopic? name epoch = some earlier ∧ earlier.records <+: topic.records

theorem Grows.outlasts {journal after : Journal} (growth : journal.Grows after) :
    journal.Outlasts after where
  epochs := growth.epochs
  source := by
    intro name epoch topic old live
    obtain ⟨found, rfl⟩ := liveTopic?_eq_some_iff.1 live
    cases before : journal.topics.get? name with
    | none =>
      have younger := (growth.made before found).1
      omega
    | some earlier =>
      obtain ⟨more, isAfter⟩ := growth.kept before
      obtain rfl := Option.some.inj (found.symm.trans isAfter)
      exact ⟨earlier, liveTopic?_eq_some_iff.2 ⟨before, rfl⟩, more, rfl⟩

theorem Outlasts.modifyTopic {journal ready : Journal} (outlasts : journal.Outlasts ready)
    (name : String) {change : Topic → Topic} (epoch : ∀ topic, (change topic).epoch = topic.epoch)
    (records : ∀ topic, (change topic).records = topic.records) :
    journal.Outlasts (ready.modifyTopic name change) where
  epochs := outlasts.epochs
  source := by
    intro query asked topic old live
    obtain ⟨found, rfl⟩ := liveTopic?_eq_some_iff.1 live
    rw [get?_modifyTopic] at found
    split at found
    next here =>
      obtain ⟨current, isReady, rfl⟩ := Option.map_eq_some_iff.1 found
      rw [epoch] at old ⊢
      rw [records]
      exact outlasts.source old (liveTopic?_eq_some_iff.2 ⟨here ▸ isReady, rfl⟩)
    next => exact outlasts.source old (liveTopic?_eq_some_iff.2 ⟨found, rfl⟩)

theorem outlasts_leave (journal : Journal) (reader : Reader) :
    journal.Outlasts (journal.leave reader) := by
  have same := (Grows.refl journal).outlasts
  unfold leave
  split
  next => exact same
  next =>
    split
    next => exact same
    next =>
      exact same.modifyTopic _ (fun topic => Topic.epoch_leave topic reader.group)
        fun topic => Topic.records_leave topic reader.group

theorem outlasts_take (journal : Journal) (reader : Reader) :
    journal.Outlasts (journal.take reader) := by
  have same := (Grows.refl journal).outlasts
  unfold take
  split
  next => exact same.modifyTopic _ (fun _ => rfl) fun _ => rfl
  next => exact same

theorem outlasts_removeTopic (journal : Journal) (name : String) :
    journal.Outlasts (journal.removeTopic name) where
  epochs := Nat.le_refl _
  source := by
    intro query epoch topic old live
    obtain ⟨found, same⟩ := liveTopic?_eq_some_iff.1 live
    rw [removeTopic, Table.get?_erase] at found
    split at found
    next => contradiction
    next => exact ⟨topic, liveTopic?_eq_some_iff.2 ⟨found, same⟩, List.prefix_refl _⟩

theorem outlasts_close (journal : Journal) : journal.Outlasts journal.close where
  epochs := Nat.le_refl _
  source := fun _ live => nomatch (liveTopic?_eq_some_iff.1 live).1

theorem Outlasts.refl (journal : Journal) : journal.Outlasts journal :=
  (Grows.refl journal).outlasts

theorem Outlasts.trans {journal middle after : Journal} (first : journal.Outlasts middle)
    (second : middle.Outlasts after) : journal.Outlasts after where
  epochs := Nat.le_trans first.epochs second.epochs
  source := by
    intro name epoch topic old live
    obtain ⟨between, wasThere, more⟩ := second.source (Nat.le_trans old first.epochs) live
    obtain ⟨earlier, wasFirst, some⟩ := first.source old wasThere
    exact ⟨earlier, wasFirst, some.trans more⟩

/-- A topic that is gone stays gone. -/
theorem Outlasts.gone {journal after : Journal} (outlasts : journal.Outlasts after) {name : String}
    {epoch : Nat} (old : epoch ≤ journal.epochs) (gone : journal.liveTopic? name epoch = none) :
    after.liveTopic? name epoch = none := by
  cases live : after.liveTopic? name epoch with
  | none => rfl
  | some topic =>
    obtain ⟨earlier, wasThere, _⟩ := outlasts.source old live
    rw [gone] at wasThere
    contradiction

end UpdateRelay.Journal
