import UpdateRelay.Proofs.Cluster.OneReader
import UpdateRelay.Proofs.Mail.Sending

/-!
# Sending ends at durable brokers

A mailbox whose sending end is still held belongs to somebody who has a seat, in every state of
every run. So whoever loses the seat is told that nothing will follow.
-/

namespace UpdateRelay

namespace JournaledBroker

/-- Whether every mailbox that has its sending end belongs to somebody who has a seat. -/
def Connected (broker : JournaledBroker) : Prop :=
  ∀ place, broker.room.Sends place → ∃ resource id, broker.seat? resource id = some place

theorem connected_empty (identity : Instance) : (JournaledBroker.empty identity).Connected :=
  fun place sends => absurd sends (Mailroom.not_sends_empty place)

/-! ## Who is hung up on -/

theorem sends_prune (broker : JournaledBroker) (resource : String) (ids : List SubscriberId)
    (place : Nat) : (broker.prune resource ids).room.Sends place ↔
      (∀ id ∈ ids, broker.seat? resource id ≠ some place) ∧ broker.room.Sends place := by
  unfold prune
  cases found : broker.entries.get? resource with
  | none => simp [seat?, found]
  | some entry =>
    by_cases last : (entry.subscribers.withoutAll ids).isEmpty = true
    · simp [last, cancelLoop, modifyLoop, Roster.sends_hangUpEach, seat?_of_get? found]
    · simp [last, Roster.sends_hangUpEach, seat?_of_get? found]

theorem sends_dissolve (broker : JournaledBroker) (resource : String) (generation : Nat)
    (place : Nat) : (broker.dissolve resource generation).room.Sends place ↔
      ((broker.entryAt? resource generation).isSome →
        ∀ id, broker.seat? resource id ≠ some place) ∧ broker.room.Sends place := by
  unfold dissolve
  cases found : broker.entryAt? resource generation with
  | none => simp
  | some entry =>
    have isEntry := (entryAt?_eq_some_iff.1 found).1
    simp [cancelLoop, modifyLoop, Roster.sends_hangUpAll, Roster.mem_places_iff,
      seat?_of_get? isEntry]

theorem sends_disband (broker : JournaledBroker) (place : Nat) :
    broker.disband.room.Sends place ↔
      (∀ resource id, broker.seat? resource id ≠ some place) ∧ broker.room.Sends place := by
  have hungUp := Roster.sends_foldl_hangUpAll
    (broker.entries.values.map (·.subscribers)) broker.room place
  rw [List.foldl_map] at hungUp
  rw [disband, hungUp]
  refine and_congr_left fun _ => ⟨fun nobody resource id seat => ?_, fun nobody roster listed => ?_⟩
  · obtain ⟨entry, found, isPlace⟩ := seat?_eq_some_iff.1 seat
    have isValue : entry ∈ broker.entries.values :=
      List.mem_map.2 ⟨_, Table.get?_eq_some_iff.1 found, rfl⟩
    exact nobody _ (List.mem_map.2 ⟨entry, isValue, rfl⟩) (Roster.mem_places_iff.2 ⟨id, isPlace⟩)
  · obtain ⟨entry, isValue, rfl⟩ := List.mem_map.1 listed
    obtain ⟨⟨resource, _⟩, member, rfl⟩ := List.mem_map.1 isValue
    intro isPlace
    obtain ⟨id, seat⟩ := Roster.mem_places_iff.1 isPlace
    exact nobody resource id (seat?_eq_some_iff.2 ⟨_, Table.get?_eq_some_iff.2 member, seat⟩)

namespace Connected

variable {broker : JournaledBroker}

/-- Sending ends may go as long as no seat does. -/
theorem frame {after : JournaledBroker} (connected : broker.Connected)
    (entries : after.entries = broker.entries)
    (sends : ∀ place, after.room.Sends place → broker.room.Sends place) : after.Connected := by
  intro place sending
  simp only [seat?, entries]
  exact connected place (sends place sending)

/-- Whoever joins takes nobody's seat, as the id was not used before. -/
theorem join {resource : String} {entry : Entry} {id : SubscriberId} (connected : broker.Connected)
    (same : ∀ other, entry.subscribers.place? other = broker.seat? resource other)
    (unseated : broker.seat? resource id = none) : (broker.join resource entry id).Connected := by
  intro place sends
  simp only [seat?_join same]
  rcases (Mailroom.sends_add _ _ _).1 sends with rfl | sends
  · exact ⟨resource, id, by simp⟩
  · obtain ⟨there, other, seat⟩ := connected place sends
    refine ⟨there, other, ?_⟩
    rw [if_neg, seat]
    rintro ⟨rfl, rfl⟩
    rw [unseated] at seat
    contradiction

theorem prune (connected : broker.Connected) (resource : String) (ids : List SubscriberId) :
    (broker.prune resource ids).Connected := by
  intro place sends
  obtain ⟨kept, sends⟩ := (broker.sends_prune resource ids place).1 sends
  obtain ⟨there, id, seat⟩ := connected place sends
  refine ⟨there, id, ?_⟩
  rw [seat?_prune, if_neg, seat]
  rintro ⟨rfl, pruned⟩
  exact kept id pruned seat

theorem dissolve (connected : broker.Connected) (resource : String) (generation : Nat) :
    (broker.dissolve resource generation).Connected := by
  intro place sends
  obtain ⟨kept, sends⟩ := (broker.sends_dissolve resource generation place).1 sends
  obtain ⟨there, id, seat⟩ := connected place sends
  refine ⟨there, id, ?_⟩
  unfold seat? at seat ⊢
  rw [get?_dissolve, if_neg, seat]
  rintro ⟨rfl, dissolved⟩
  exact kept dissolved id seat

/-- Nobody is left whose mailbox has its sending end. -/
theorem not_sends_disband (connected : broker.Connected) (place : Nat) :
    ¬broker.disband.room.Sends place := by
  intro sends
  obtain ⟨nobody, sends⟩ := (broker.sends_disband place).1 sends
  obtain ⟨resource, id, seat⟩ := connected place sends
  exact nobody resource id seat

end Connected

end JournaledBroker

/-- Every effect keeps the mailboxes of those who have seats connected, and no others. -/
theorem Effect.connected {before after : Footprint} {feeds : List (Nat × Feed)}
    {others : List Claim} (effect : Effect before feeds after)
    (seated : before.broker.Seated (before.claim.toList ++ others))
    (connected : before.broker.Connected) : after.broker.Connected := by
  cases effect with
  | grew | gaveUp | numbered | wasted | attached | released | shut | entered | waited | ended
  | passed => exact connected.frame rfl fun _ sends => sends
  | @joined _ broker resource _ found =>
    have spent : broker.spendNumber.Connected := connected.frame rfl fun _ sends => sends
    exact spent.join (fun id => (JournaledBroker.seat?_of_get? found id).symm)
      ((seated.spendNumber resource).claimUnseated _ List.mem_cons_self resource)
  | joinedLate _ found =>
    exact connected.join (fun id => (JournaledBroker.seat?_of_get? found id).symm)
      (seated.claimUnseated _ List.mem_cons_self _)
  | @withEntry _ broker claim _ _ _ absent =>
    have same : ∀ id, (Entry.mk .empty broker.freshGeneration).subscribers.place? id =
        broker.seat? claim.resource id := by
      intro id
      rw [JournaledBroker.seat?, absent]
      exact Roster.place?_empty id
    exact (connected.join same (seated.claimUnseated _ List.mem_cons_self _)).frame rfl
      fun _ sends => sends
  | disbanded => exact fun place sends => absurd sends (connected.not_sends_disband place)
  | pruned resource ids => exact connected.prune resource ids
  | tidied => exact (connected.prune _ _).frame rfl fun _ sends => sends
  | fed feed =>
    intro place sends
    exact connected place ((Mailroom.sends_modify feed.hasSender_change place).1 sends)
  | retired => exact (connected.dissolve _ _).frame rfl fun _ sends => sends
  | @handed _ broker _ _ _ event entry =>
    intro place sends
    exact connected place ((Roster.sends_offerEach event entry.subscribers.entries broker.room
      place).1 sends)

namespace Cluster

theorem Step.connected {before after : Cluster} {action : Action}
    (step : Step before action after) (sound : before.Sound)
    (connected : ∀ broker ∈ before.brokers, broker.Connected) :
    ∀ broker ∈ after.brokers, broker.Connected := by
  intro current member
  cases step with
  | happened isBroker effect _ brokers claimsBefore =>
    rw [brokers] at member
    rcases List.mem_or_eq_of_mem_set member with old | rfl
    · exact connected current old
    · exact effect.connected (sound.footprint isBroker claimsBefore).seated
        (connected _ (List.mem_of_getElem? isBroker))
  | started growth brokers =>
    rw [brokers] at member
    rcases List.mem_append.1 member with old | new
    · exact connected current old
    · obtain rfl := List.mem_singleton.1 new
      exact JournaledBroker.connected_empty _
  | grew growth _ brokers => exact connected current (brokers ▸ member)
  | removed journal brokers => exact connected current (brokers ▸ member)

theorem connected_performAll {cluster : Cluster} (sound : cluster.Sound)
    (numbered : cluster.Numbered) (connected : ∀ broker ∈ cluster.brokers, broker.Connected)
    (actions : List Action) : ∀ broker ∈ (cluster.performAll actions).brokers,
      broker.Connected := by
  have kept : ∀ {cluster : Cluster}, cluster.Numbered →
      (cluster.Sound ∧ ∀ broker ∈ cluster.brokers, broker.Connected) → ∀ action,
        (cluster.perform action).Sound ∧
          ∀ broker ∈ (cluster.perform action).brokers, broker.Connected :=
    fun numbered both action => ⟨both.1.perform numbered action,
      (step_perform numbered action).connected both.1 both.2⟩
  exact (@keeps_performAll (fun cluster => cluster.Sound ∧ ∀ broker ∈ cluster.brokers,
    broker.Connected) kept cluster numbered ⟨sound, connected⟩ actions).2

theorem connected_reached (createsOnDemand : Bool) (actions : List Action) :
    ∀ broker ∈ (reached createsOnDemand actions).brokers, broker.Connected :=
  connected_performAll (sound_empty createsOnDemand) (numbered_empty createsOnDemand)
    (by simp [Cluster.empty]) actions

end Cluster

end UpdateRelay
