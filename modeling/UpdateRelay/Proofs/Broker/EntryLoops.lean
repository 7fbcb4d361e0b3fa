import UpdateRelay.Proofs.Broker.Registry

/-!
# Entries and their loops

`JournaledBroker.EntryLoops` says that each entry has subscribers and a loop of its generation that
was not told to stop, and that each such loop has its entry. Each operation of a durable broker
keeps this.
-/

namespace UpdateRelay

/-- Each entry has subscribers and a loop of its generation that was not told to stop, each such
loop has its entry, and generations are used once. -/
structure JournaledBroker.EntryLoops (broker : JournaledBroker) : Prop where
  inhabited : ∀ {resource entry}, broker.entries.get? resource = some entry →
    entry.subscribers.isEmpty = false
  entryOld : ∀ {resource entry}, broker.entries.get? resource = some entry →
    entry.generation < broker.freshGeneration
  loopOld : ∀ loop ∈ broker.loops, loop.generation < broker.freshGeneration
  loopsDistinct : (broker.loops.map (·.generation)).Nodup
  served : ∀ {resource entry}, broker.entries.get? resource = some entry →
    ∃ loop ∈ broker.loops, loop.resource = resource ∧ loop.generation = entry.generation ∧
      loop.cancelled = false
  serving : ∀ loop ∈ broker.loops, loop.cancelled = false →
    ∃ entry, broker.entries.get? loop.resource = some entry ∧
      entry.generation = loop.generation
  shut : broker.closed = true → ∀ resource, broker.entries.get? resource = none

namespace JournaledBroker.EntryLoops

variable {broker : JournaledBroker}

theorem ofEmpty (identity : Instance) : (JournaledBroker.empty identity).EntryLoops where
  inhabited := fun found => by cases found
  entryOld := fun found => by cases found
  loopOld := by simp [JournaledBroker.empty]
  loopsDistinct := List.nodup_nil
  served := fun found => by cases found
  serving := by simp [JournaledBroker.empty]
  shut := fun _ _ => rfl

theorem loop_unique (entryLoops : broker.EntryLoops) {first second : ConsumptionLoop}
    (firstMember : first ∈ broker.loops) (secondMember : second ∈ broker.loops)
    (same : first.generation = second.generation) : first = second :=
  List.inj_on_of_nodup_map entryLoops.loopsDistinct firstMember secondMember same

/-- Two loops of one resource that were not told to stop are the same. -/
theorem live_loop_unique (entryLoops : broker.EntryLoops) {first second : ConsumptionLoop}
    (firstMember : first ∈ broker.loops) (secondMember : second ∈ broker.loops)
    (firstLive : first.cancelled = false) (secondLive : second.cancelled = false)
    (same : first.resource = second.resource) : first = second := by
  obtain ⟨entry, found, generation⟩ := entryLoops.serving first firstMember firstLive
  obtain ⟨other, foundOther, otherGeneration⟩ := entryLoops.serving second secondMember secondLive
  rw [← same, found] at foundOther
  obtain rfl := Option.some.inj foundOther
  exact entryLoops.loop_unique firstMember secondMember (generation.symm.trans otherGeneration)

/-- Nothing depends on what the loops are doing, on mailboxes or on the numbers of ids. -/
theorem frame {after : JournaledBroker} (entryLoops : broker.EntryLoops)
    (entries : after.entries = broker.entries) (closed : after.closed = broker.closed)
    (freshGeneration : after.freshGeneration = broker.freshGeneration)
    (loops : SameLoops broker.loops after.loops) : after.EntryLoops where
  inhabited := fun found => entryLoops.inhabited (entries ▸ found)
  entryOld := fun found => freshGeneration ▸ entryLoops.entryOld (entries ▸ found)
  loopOld := by
    intro loop member
    obtain ⟨before, isBefore, _, generation, _⟩ := loops.exists_mem member
    rw [freshGeneration, ← generation]
    exact entryLoops.loopOld before isBefore
  loopsDistinct := loops.generations ▸ entryLoops.loopsDistinct
  served := by
    intro resource entry found
    obtain ⟨loop, member, loopResource, generation, live⟩ := entryLoops.served (entries ▸ found)
    obtain ⟨later, isLater, sameResource, sameGeneration, sameCancelled⟩ :=
      loops.symm.exists_mem member
    exact ⟨later, isLater, sameResource.trans loopResource, sameGeneration.trans generation,
      sameCancelled.trans live⟩
  serving := by
    intro loop member live
    obtain ⟨before, isBefore, resource, generation, cancelled⟩ := loops.exists_mem member
    rw [entries, ← resource, ← generation]
    exact entryLoops.serving before isBefore (cancelled.trans live)
  shut := by
    rw [closed, entries]
    exact entryLoops.shut

/-- The subscribers of an entry may change as long as there are some. -/
theorem reseat {after : JournaledBroker} {resource : String} {entry : Entry}
    (entryLoops : broker.EntryLoops) (found : broker.entries.get? resource = some entry)
    {subscribers : Roster} (inhabited : subscribers.isEmpty = false)
    (entries : ∀ query, after.entries.get? query =
      if query = resource then some { entry with subscribers := subscribers }
      else broker.entries.get? query)
    (closed : after.closed = broker.closed)
    (freshGeneration : after.freshGeneration = broker.freshGeneration)
    (loops : after.loops = broker.loops) : after.EntryLoops := by
  have source : ∀ {query current}, after.entries.get? query = some current →
      current.subscribers.isEmpty = false ∧ ∃ before,
        broker.entries.get? query = some before ∧ current.generation = before.generation := by
    intro query current foundAfter
    rw [entries] at foundAfter
    split at foundAfter
    next same =>
      obtain rfl := Option.some.inj foundAfter
      exact ⟨inhabited, entry, same ▸ found, rfl⟩
    next => exact ⟨entryLoops.inhabited foundAfter, current, foundAfter, rfl⟩
  constructor
  case inhabited => exact fun foundAfter => (source foundAfter).1
  case loopsDistinct => exact loops ▸ entryLoops.loopsDistinct
  case entryOld =>
    intro query current foundAfter
    obtain ⟨_, before, isBefore, same⟩ := source foundAfter
    rw [freshGeneration, same]
    exact entryLoops.entryOld isBefore
  case loopOld =>
    rw [loops, freshGeneration]
    exact entryLoops.loopOld
  case served =>
    intro query current foundAfter
    obtain ⟨_, before, isBefore, same⟩ := source foundAfter
    rw [loops, same]
    exact entryLoops.served isBefore
  case serving =>
    intro loop member live
    rw [loops] at member
    obtain ⟨before, isBefore, generation⟩ := entryLoops.serving loop member live
    rw [entries]
    split
    next here =>
      rw [here, found] at isBefore
      obtain rfl := Option.some.inj isBefore
      exact ⟨_, rfl, generation⟩
    next => exact ⟨before, isBefore, generation⟩
  case shut =>
    intro isClosed
    rw [closed] at isClosed
    have absent := entryLoops.shut isClosed resource
    rw [found] at absent
    contradiction

theorem join {resource : String} {entry : Entry} (entryLoops : broker.EntryLoops)
    (found : broker.entries.get? resource = some entry) (id : SubscriberId) :
    (broker.join resource entry id).EntryLoops :=
  entryLoops.reseat found (Roster.isEmpty_insert _ _ _) (fun query => get?_join _ _ query _ _)
    rfl rfl rfl

theorem found {resource : String} (entryLoops : broker.EntryLoops)
    (absent : broker.entries.get? resource = none) (isOpen : broker.closed = false)
    (id : SubscriberId) (reader : Reader) : (broker.found resource id reader).EntryLoops := by
  have entries : ∀ query, (broker.found resource id reader).entries.get? query =
      if query = resource then
        some ⟨Roster.empty.insert id broker.room.nextPlace, broker.freshGeneration⟩
      else broker.entries.get? query := fun query => get?_join _ _ query _ _
  have loops : (broker.found resource id reader).loops =
      broker.loops ++ [⟨resource, broker.freshGeneration, reader, false, .reading⟩] := rfl
  have fresh : (broker.found resource id reader).freshGeneration = broker.freshGeneration + 1 :=
    rfl
  constructor
  case inhabited =>
    intro query entry foundAfter
    rw [entries] at foundAfter
    split at foundAfter
    next =>
      obtain rfl := Option.some.inj foundAfter
      exact Roster.isEmpty_insert _ _ _
    next => exact entryLoops.inhabited foundAfter
  case entryOld =>
    intro query entry foundAfter
    rw [entries] at foundAfter
    rw [fresh]
    split at foundAfter
    next =>
      obtain rfl := Option.some.inj foundAfter
      exact Nat.lt_succ_self _
    next => exact Nat.lt_succ_of_lt (entryLoops.entryOld foundAfter)
  case loopOld =>
    intro loop member
    rw [fresh]
    rcases List.mem_append.1 (loops ▸ member) with old | new
    · exact Nat.lt_succ_of_lt (entryLoops.loopOld loop old)
    · obtain rfl := List.mem_singleton.1 new
      exact Nat.lt_succ_self _
  case loopsDistinct =>
    rw [loops, List.map_append, List.nodup_append]
    refine ⟨entryLoops.loopsDistinct, List.nodup_singleton _, ?_⟩
    rintro _ old _ new rfl
    obtain ⟨loop, member, same⟩ := List.mem_map.1 old
    have below := entryLoops.loopOld loop member
    rw [same, List.mem_singleton.1 new] at below
    exact Nat.lt_irrefl _ below
  case served =>
    intro query entry foundAfter
    rw [entries] at foundAfter
    rw [loops]
    split at foundAfter
    next same =>
      obtain rfl := Option.some.inj foundAfter
      exact ⟨_, List.mem_append_right _ List.mem_cons_self, same.symm, rfl, rfl⟩
    next =>
      obtain ⟨loop, member, serves⟩ := entryLoops.served foundAfter
      exact ⟨loop, List.mem_append_left _ member, serves⟩
  case serving =>
    intro loop member live
    rw [entries]
    rcases List.mem_append.1 (loops ▸ member) with old | new
    · obtain ⟨entry, isEntry, generation⟩ := entryLoops.serving loop old live
      rw [if_neg]
      · exact ⟨entry, isEntry, generation⟩
      · intro here
        rw [here, absent] at isEntry
        contradiction
    · obtain rfl := List.mem_singleton.1 new
      exact ⟨_, if_pos rfl, rfl⟩
  case shut =>
    intro isClosed
    have stillOpen : (broker.found resource id reader).closed = false := isOpen
    rw [stillOpen] at isClosed
    contradiction

/-- An entry is forgotten together with the last word to its loop. -/
theorem forget {after : JournaledBroker} {resource : String} {entry : Entry}
    (entryLoops : broker.EntryLoops) (found : broker.entries.get? resource = some entry)
    (entries : ∀ query, after.entries.get? query =
      if query = resource then none else broker.entries.get? query)
    (closed : after.closed = broker.closed)
    (freshGeneration : after.freshGeneration = broker.freshGeneration)
    (loops : after.loops = (broker.cancelLoop entry.generation).loops) : after.EntryLoops := by
  have kept : ∀ {query current}, after.entries.get? query = some current →
      query ≠ resource ∧ broker.entries.get? query = some current := by
    intro query current foundAfter
    rw [entries] at foundAfter
    split at foundAfter
    next => contradiction
    next other => exact ⟨other, foundAfter⟩
  -- A loop that is still live is not the one of the entry.
  have source : ∀ {loop}, loop ∈ after.loops → ∃ before ∈ broker.loops,
      loop.resource = before.resource ∧ loop.generation = before.generation ∧
        (loop.cancelled = false → before.cancelled = false ∧
          before.generation ≠ entry.generation) := by
    intro loop member
    rw [loops] at member
    obtain ⟨before, isBefore, rfl⟩ := mem_loops_modifyLoop member
    refine ⟨before, isBefore, ?_⟩
    split
    next => simp
    next other => exact ⟨rfl, rfl, fun live => ⟨live, other⟩⟩
  constructor
  case inhabited => exact fun foundAfter => entryLoops.inhabited (kept foundAfter).2
  case entryOld =>
    intro query current foundAfter
    rw [freshGeneration]
    exact entryLoops.entryOld (kept foundAfter).2
  case loopOld =>
    intro loop member
    obtain ⟨before, isBefore, _, same, _⟩ := source member
    rw [freshGeneration, same]
    exact entryLoops.loopOld before isBefore
  case loopsDistinct =>
    have generations : (broker.cancelLoop entry.generation).loops.map (·.generation) =
        broker.loops.map (·.generation) := by
      unfold cancelLoop modifyLoop
      rw [List.map_map]
      refine List.map_congr_left fun loop _ => ?_
      simp only [Function.comp_apply]
      split <;> rfl
    rw [loops, generations]
    exact entryLoops.loopsDistinct
  case served =>
    intro query current foundAfter
    obtain ⟨other, foundBefore⟩ := kept foundAfter
    obtain ⟨loop, member, sameResource, generation, live⟩ := entryLoops.served foundBefore
    -- The loop that was told to stop served another resource.
    have differs : loop.generation ≠ entry.generation := by
      intro same
      obtain ⟨last, isLast, lastResource, lastGeneration, _⟩ := entryLoops.served found
      obtain rfl := entryLoops.loop_unique member isLast (same.trans lastGeneration.symm)
      exact other (sameResource.symm.trans lastResource)
    refine ⟨loop, ?_, sameResource, generation, live⟩
    rw [loops]
    exact List.mem_map.2 ⟨loop, member, if_neg differs⟩
  case serving =>
    intro loop member live
    obtain ⟨before, isBefore, sameResource, same, wasLive⟩ := source member
    obtain ⟨beforeLive, differs⟩ := wasLive live
    obtain ⟨current, isCurrent, generation⟩ := entryLoops.serving before isBefore beforeLive
    rw [sameResource, same, entries, if_neg]
    · exact ⟨current, isCurrent, generation⟩
    · intro here
      rw [here, found] at isCurrent
      obtain rfl := Option.some.inj isCurrent
      exact differs generation.symm
  case shut =>
    intro isClosed query
    rw [closed] at isClosed
    rw [entries, entryLoops.shut isClosed query, ite_self]

theorem prune (entryLoops : broker.EntryLoops) (resource : String) (ids : List SubscriberId) :
    (broker.prune resource ids).EntryLoops := by
  cases found : broker.entries.get? resource with
  | none =>
    have same : broker.prune resource ids = broker := by simp [JournaledBroker.prune, found]
    rwa [same]
  | some entry =>
    cases last : (entry.subscribers.withoutAll ids).isEmpty with
    | true =>
      refine entryLoops.forget found (fun query => ?_) ?_ ?_ ?_
      · simp [get?_prune, found, last]
      all_goals simp [JournaledBroker.prune, found, last, cancelLoop, modifyLoop]
    | false =>
      refine entryLoops.reseat found last (fun query => ?_) ?_ ?_ ?_
      · simp [get?_prune, found, last]
      all_goals simp [JournaledBroker.prune, found, last]

theorem dissolve (entryLoops : broker.EntryLoops) (resource : String) (generation : Nat) :
    (broker.dissolve resource generation).EntryLoops := by
  cases found : broker.entryAt? resource generation with
  | none =>
    have same : broker.dissolve resource generation = broker := by
      simp [JournaledBroker.dissolve, found]
    rwa [same]
  | some entry =>
    obtain ⟨isEntry, rfl⟩ := entryAt?_eq_some_iff.1 found
    refine entryLoops.forget isEntry (fun query => ?_) ?_ ?_ ?_
    · simp [JournaledBroker.dissolve, found, cancelLoop, modifyLoop, Table.get?_erase]
    all_goals simp [JournaledBroker.dissolve, found, cancelLoop, modifyLoop]

theorem dropLoop {loop : ConsumptionLoop} (entryLoops : broker.EntryLoops)
    (member : loop ∈ broker.loops) (finished : loop.cancelled = true) :
    (broker.dropLoop loop.generation).EntryLoops where
  inhabited := entryLoops.inhabited
  entryOld := entryLoops.entryOld
  loopOld := fun other isOther => entryLoops.loopOld other (mem_loops_dropLoop.1 isOther).1
  loopsDistinct := entryLoops.loopsDistinct.sublist (List.filter_sublist.map _)
  served := by
    intro query entry found
    obtain ⟨server, isServer, resource, generation, live⟩ := entryLoops.served found
    refine ⟨server, mem_loops_dropLoop.2 ⟨isServer, fun same => ?_⟩, resource, generation, live⟩
    rw [entryLoops.loop_unique isServer member same, finished] at live
    contradiction
  serving := fun other isOther => entryLoops.serving other (mem_loops_dropLoop.1 isOther).1
  shut := entryLoops.shut

theorem disband (entryLoops : broker.EntryLoops) : broker.disband.EntryLoops where
  inhabited := fun found => by cases found
  entryOld := fun found => by cases found
  loopOld := by
    intro loop member
    obtain ⟨before, isBefore, rfl⟩ := List.mem_map.1 member
    exact entryLoops.loopOld before isBefore
  loopsDistinct := by
    have same : broker.disband.loops.map (·.generation) = broker.loops.map (·.generation) := by
      simp [JournaledBroker.disband, Function.comp_def]
    rw [same]
    exact entryLoops.loopsDistinct
  served := fun found => by cases found
  serving := by
    intro loop member live
    obtain ⟨before, _, rfl⟩ := List.mem_map.1 member
    contradiction
  shut := fun _ _ => rfl

end JournaledBroker.EntryLoops

end UpdateRelay
