import UpdateRelay.Broker.Journaled.Call
import UpdateRelay.Proofs.Mail.Roster
import UpdateRelay.Proofs.Table

/-!
# The registry of a durable broker

Where subscribers and loops are after each operation of a durable broker, and what a subscribe in
progress has claimed so far.
-/

namespace UpdateRelay

/-- What a subscribe in progress has so far: its resource, its id, and the reader that was opened
for it. -/
structure Claim where
  resource : String
  id : SubscriberId
  reader : Option Reader
  deriving DecidableEq, Repr

/-- The claim of a call, if it is a subscribe. -/
def Call.claim? : Call → Option Claim
  | .subscribe resource id _ (.opened reader) => some ⟨resource, id, some reader⟩
  | .subscribe resource id _ _ => some ⟨resource, id, none⟩
  | .publish _ _ _ | .close => none

namespace JournaledBroker

/-- The place of the mailbox of a subscriber of a resource. -/
def seat? (broker : JournaledBroker) (resource : String) (id : SubscriberId) : Option Nat :=
  (broker.entries.get? resource).bind (·.subscribers.place? id)

/-- The broker after one more id was used up. -/
def spendNumber (broker : JournaledBroker) : JournaledBroker :=
  { broker with nextNumber := broker.nextNumber + 1 }

/-! ## What is where -/

theorem seat?_eq_some_iff {broker : JournaledBroker} {resource : String} {id : SubscriberId}
    {place : Nat} : broker.seat? resource id = some place ↔
      ∃ entry, broker.entries.get? resource = some entry ∧
        entry.subscribers.place? id = some place :=
  Option.bind_eq_some_iff

theorem seat?_of_get? {broker : JournaledBroker} {resource : String} {entry : Entry}
    (found : broker.entries.get? resource = some entry) (id : SubscriberId) :
    broker.seat? resource id = entry.subscribers.place? id := by
  simp [seat?, found]

theorem entryAt?_eq_some_iff {broker : JournaledBroker} {resource : String} {generation : Nat}
    {entry : Entry} : broker.entryAt? resource generation = some entry ↔
      broker.entries.get? resource = some entry ∧ entry.generation = generation := by
  unfold entryAt?
  rw [Option.filter_eq_some_iff, decide_eq_true_eq]

theorem get?_join (broker : JournaledBroker) (resource query : String) (entry : Entry)
    (id : SubscriberId) : (broker.join resource entry id).entries.get? query =
      if query = resource then
        some { entry with subscribers := entry.subscribers.insert id broker.room.nextPlace }
      else broker.entries.get? query :=
  Table.get?_set _ _ _ _

theorem seat?_join {broker : JournaledBroker} {resource : String} {entry : Entry}
    (same : ∀ other, entry.subscribers.place? other = broker.seat? resource other)
    (id : SubscriberId) (query : String) (other : SubscriberId) :
    (broker.join resource entry id).seat? query other =
      if query = resource ∧ other = id then some broker.room.nextPlace
      else broker.seat? query other := by
  unfold seat?
  rw [get?_join]
  by_cases here : query = resource
  · subst here
    simp only [if_true, Option.bind_some, Roster.place?_insert, true_and]
    rw [same other]
    rfl
  · simp [here]

theorem get?_prune (broker : JournaledBroker) (resource query : String)
    (ids : List SubscriberId) : (broker.prune resource ids).entries.get? query =
      if query = resource then
        (broker.entries.get? resource).bind fun entry =>
          if (entry.subscribers.withoutAll ids).isEmpty then none
          else some { entry with subscribers := entry.subscribers.withoutAll ids }
      else broker.entries.get? query := by
  unfold prune
  cases found : broker.entries.get? resource with
  | none =>
    by_cases here : query = resource
    · simp [here, found]
    · simp [here]
  | some entry =>
    by_cases last : (entry.subscribers.withoutAll ids).isEmpty = true
    · simp [last, cancelLoop, modifyLoop, Table.get?_erase]
    · by_cases here : query = resource
      · simp [last, Table.get?_replace, here, found]
      · simp [last, Table.get?_replace, here]

theorem seat?_prune (broker : JournaledBroker) (resource query : String)
    (ids : List SubscriberId) (id : SubscriberId) :
    (broker.prune resource ids).seat? query id =
      if query = resource ∧ id ∈ ids then none else broker.seat? query id := by
  unfold seat?
  rw [get?_prune]
  by_cases here : query = resource
  · subst here
    cases found : broker.entries.get? query with
    | none => simp
    | some entry =>
      have left := entry.subscribers.place?_withoutAll ids id
      by_cases last : (entry.subscribers.withoutAll ids).isEmpty = true
      · have nobody := Roster.isEmpty_eq_true_iff.1 last id
        rw [left] at nobody
        simp only [Option.bind_some, last, if_true, Option.bind_none, true_and]
        exact nobody.symm
      · simpa [last] using left
  · simp [here]

/-- The loops after subscribers were removed: if nobody is left, the loop of the entry was told to
stop. -/
theorem loops_prune (broker : JournaledBroker) (resource : String) (ids : List SubscriberId) :
    (broker.prune resource ids).loops = broker.loops ∨
      ∃ entry, broker.entries.get? resource = some entry ∧
        (broker.prune resource ids).entries.get? resource = none ∧
        (broker.prune resource ids).loops = (broker.cancelLoop entry.generation).loops := by
  rw [get?_prune]
  unfold prune
  cases found : broker.entries.get? resource with
  | none => exact Or.inl rfl
  | some entry =>
    by_cases last : (entry.subscribers.withoutAll ids).isEmpty = true
    · exact Or.inr ⟨entry, rfl, by simp [last], by simp [last, cancelLoop, modifyLoop]⟩
    · exact Or.inl (by simp [last])

theorem prune_same (broker : JournaledBroker) (resource : String) (ids : List SubscriberId) :
    (broker.prune resource ids).identity = broker.identity ∧
      (broker.prune resource ids).nextNumber = broker.nextNumber ∧
      (broker.prune resource ids).freshGeneration = broker.freshGeneration := by
  unfold prune
  split
  next => exact ⟨rfl, rfl, rfl⟩
  next =>
    dsimp only
    split <;> exact ⟨rfl, rfl, rfl⟩

theorem dissolve_same (broker : JournaledBroker) (resource : String) (generation : Nat) :
    (broker.dissolve resource generation).identity = broker.identity ∧
      (broker.dissolve resource generation).nextNumber = broker.nextNumber ∧
      (broker.dissolve resource generation).freshGeneration = broker.freshGeneration := by
  unfold dissolve
  split <;> exact ⟨rfl, rfl, rfl⟩

theorem quieter_prune (broker : JournaledBroker) (resource : String) (ids : List SubscriberId) :
    broker.room.Quieter (broker.prune resource ids).room := by
  unfold prune
  split
  next => exact .refl _
  next entry _ =>
    have quieter := entry.subscribers.quieter_hangUpEach ids broker.room
    dsimp only
    split
    next => exact quieter
    next => exact quieter

theorem quieter_dissolve (broker : JournaledBroker) (resource : String) (generation : Nat) :
    broker.room.Quieter (broker.dissolve resource generation).room := by
  unfold dissolve
  split
  next => exact .refl _
  next entry _ => exact entry.subscribers.quieter_hangUpAll broker.room

theorem quieter_disband (broker : JournaledBroker) :
    broker.room.Quieter broker.disband.room := by
  have quieter := Roster.quieter_foldl_hangUpAll
    (broker.entries.values.map (·.subscribers)) broker.room
  rwa [List.foldl_map] at quieter

theorem get?_dissolve (broker : JournaledBroker) (resource query : String) (generation : Nat) :
    (broker.dissolve resource generation).entries.get? query =
      if query = resource ∧ (broker.entryAt? resource generation).isSome then none
      else broker.entries.get? query := by
  unfold dissolve
  cases found : broker.entryAt? resource generation with
  | none => simp
  | some entry => simp [cancelLoop, modifyLoop, Table.get?_erase]

theorem mem_loops_modifyLoop {broker : JournaledBroker} {generation : Nat}
    {change : ConsumptionLoop → ConsumptionLoop} {loop : ConsumptionLoop}
    (member : loop ∈ (broker.modifyLoop generation change).loops) :
    ∃ before ∈ broker.loops,
      loop = if before.generation = generation then change before else before := by
  obtain ⟨before, isBefore, rfl⟩ := List.mem_map.1 member
  exact ⟨before, isBefore, rfl⟩

theorem mem_loops_dropLoop {broker : JournaledBroker} {generation : Nat}
    {loop : ConsumptionLoop} :
    loop ∈ (broker.dropLoop generation).loops ↔
      loop ∈ broker.loops ∧ loop.generation ≠ generation := by
  simp [dropLoop, List.mem_filter]

/-- Whether two lists of loops differ in nothing but what the loops are doing. -/
def SameLoops (loops others : List ConsumptionLoop) : Prop :=
  others.map (fun loop => (loop.resource, loop.generation, loop.cancelled)) =
    loops.map (fun loop => (loop.resource, loop.generation, loop.cancelled))

theorem sameLoops_modifyLoop {broker : JournaledBroker} {generation : Nat}
    {change : ConsumptionLoop → ConsumptionLoop}
    (kept : ∀ loop, ((change loop).resource, (change loop).generation, (change loop).cancelled) =
      (loop.resource, loop.generation, loop.cancelled)) :
    SameLoops broker.loops (broker.modifyLoop generation change).loops := by
  unfold SameLoops modifyLoop
  rw [List.map_map]
  refine List.map_congr_left fun loop _ => ?_
  simp only [Function.comp_apply]
  split
  next => exact kept loop
  next => rfl

theorem SameLoops.exists_mem {loops others : List ConsumptionLoop} (same : SameLoops loops others)
    {loop : ConsumptionLoop} (member : loop ∈ others) :
    ∃ before ∈ loops, before.resource = loop.resource ∧ before.generation = loop.generation ∧
      before.cancelled = loop.cancelled := by
  have listed : (loop.resource, loop.generation, loop.cancelled) ∈
      loops.map fun loop => (loop.resource, loop.generation, loop.cancelled) :=
    same ▸ List.mem_map.2 ⟨loop, member, rfl⟩
  obtain ⟨before, isBefore, equal⟩ := List.mem_map.1 listed
  obtain ⟨resource, rest⟩ := Prod.mk.inj equal
  obtain ⟨generation, cancelled⟩ := Prod.mk.inj rest
  exact ⟨before, isBefore, resource, generation, cancelled⟩

theorem SameLoops.symm {loops others : List ConsumptionLoop} (same : SameLoops loops others) :
    SameLoops others loops := Eq.symm same

theorem SameLoops.generations {loops others : List ConsumptionLoop}
    (same : SameLoops loops others) :
    others.map (·.generation) = loops.map (·.generation) := by
  have projected := congrArg (List.map fun key : String × Nat × Bool => key.2.1) same
  simpa [List.map_map, Function.comp_def] using projected

end JournaledBroker

end UpdateRelay
