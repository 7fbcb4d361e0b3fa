import UpdateRelay.Session.Basic

/-!
# The ledger of a session

What a session has to do with its broker is recorded in order: the requests that it makes and the
subscriptions that it is granted. `Interaction.book?` keeps the account of such a record: which
subscription is owed back, and whether an interaction is in order at all. A session's own
`Session.held` is always the balance of its record, so each subscription that it is granted is
released once, before it asks for another and before it ends.
-/

namespace UpdateRelay

/-- What a session and its broker have to do with each other: the session makes a request, or it
is granted a subscription. -/
inductive Interaction
  | asked (request : Request)
  | granted (subscription : Subscription)
  deriving DecidableEq, Repr

/-- What happens to a session, with the counts of changes at that time. -/
structure Happening where
  counts : ChangeCounts
  stimulus : Stimulus

namespace Interaction

/-- Whether an interaction leaves all subscriptions alone. -/
def isPublish : Interaction → Bool
  | asked (.publish _) => true
  | _ => false

/-- Whether an interaction is the grant of a subscription. -/
def isGrant : Interaction → Bool
  | granted _ => true
  | _ => false

/-- Whether an interaction is the request to release a subscription. -/
def isRelease : Interaction → Bool
  | asked (.unsubscribe _ _) => true
  | _ => false

/-- The subscription that is owed back after an interaction, given the one that was owed before it.
There is no account where a second subscription is asked for or granted, or where something is
released that is not owed. -/
def book? : Option Subscription → Interaction → Option (Option Subscription)
  | owed, asked (.publish _) => some owed
  | none, asked (.subscribe _) => some none
  | none, granted subscription => some (some subscription)
  | some subscription, asked (.unsubscribe resource id) =>
    if resource = subscription.resource ∧ id = subscription.id then some none else none
  | _, _ => none

/-- The subscription that is owed back after a record of interactions, if all of them are in order.
-/
def balance? (owed : Option Subscription) (record : List Interaction) :
    Option (Option Subscription) :=
  record.foldlM book? owed

/-! ## What a balanced record looks like -/

theorem balance?_cons (owed : Option Subscription) (interaction : Interaction)
    (record : List Interaction) :
    balance? owed (interaction :: record) = (book? owed interaction).bind (balance? · record) := rfl

theorem balance?_append (owed : Option Subscription) (first second : List Interaction) :
    balance? owed (first ++ second) = (balance? owed first).bind (balance? · second) :=
  List.foldlM_append

theorem balance?_append_eq_some {owed final : Option Subscription} {first second : List Interaction}
    (balanced : balance? owed (first ++ second) = some final) :
    ∃ middle, balance? owed first = some middle ∧ balance? middle second = some final := by
  rw [balance?_append] at balanced
  exact Option.bind_eq_some_iff.1 balanced

/-- While a subscription is owed, an interaction either leaves it owed or releases it. -/
theorem book?_some_eq_some {subscription : Subscription} {interaction : Interaction}
    {after : Option Subscription} (booked : book? (some subscription) interaction = some after) :
    (interaction.isPublish = true ∧ after = some subscription) ∨
      (interaction = asked (.unsubscribe subscription.resource subscription.id) ∧
        after = none) := by
  cases interaction with
  | granted other => simp [book?] at booked
  | asked request =>
    cases request with
    | subscribe resource => simp [book?] at booked
    | publish event =>
      simp only [book?, Option.some.injEq] at booked
      exact Or.inl ⟨rfl, booked.symm⟩
    | unsubscribe resource id =>
      simp only [book?] at booked
      split at booked
      next same =>
        obtain ⟨rfl, rfl⟩ := same
        exact Or.inr ⟨rfl, (Option.some.inj booked).symm⟩
      next => contradiction

/-- A subscription becomes owed only when it is granted. -/
theorem owed_of_book?_eq_some {owed : Option Subscription} {interaction : Interaction}
    {subscription : Subscription} (booked : book? owed interaction = some (some subscription)) :
    (interaction.isPublish = true ∧ owed = some subscription) ∨
      interaction = granted subscription := by
  cases owed with
  | some other =>
    rcases book?_some_eq_some booked with ⟨publishes, same⟩ | ⟨_, none⟩
    · exact Or.inl ⟨publishes, same.symm⟩
    · contradiction
  | none =>
    rcases interaction with (_ | _ | _) | other <;> simp [book?] at booked
    exact Or.inr (congrArg granted booked)

/-- A subscription that is owed stays so up to its release, with nothing but publishes between. -/
theorem released_of_owed {subscription : Subscription} {final : Option Subscription}
    {record : List Interaction} (balanced : balance? (some subscription) record = some final) :
    (final = some subscription ∧ ∀ interaction ∈ record, interaction.isPublish = true) ∨
      ∃ between rest, record =
          between ++ asked (.unsubscribe subscription.resource subscription.id) :: rest ∧
        ∀ interaction ∈ between, interaction.isPublish = true := by
  induction record with
  | nil => exact Or.inl ⟨(Option.some.inj balanced).symm, by simp⟩
  | cons interaction record inductionHypothesis =>
    rw [balance?_cons] at balanced
    obtain ⟨middle, booked, balanced⟩ := Option.bind_eq_some_iff.1 balanced
    -- The first interaction leaves the subscription owed, or it is the release that is looked for.
    rcases book?_some_eq_some booked with ⟨publishes, rfl⟩ | ⟨rfl, rfl⟩
    · rcases inductionHypothesis balanced with ⟨same, all⟩ | ⟨between, rest, split, all⟩
      · exact Or.inl ⟨same, List.forall_mem_cons.2 ⟨publishes, all⟩⟩
      · exact Or.inr ⟨interaction :: between, rest, by rw [split, List.cons_append],
          List.forall_mem_cons.2 ⟨publishes, all⟩⟩
    · exact Or.inr ⟨[], record, rfl, by simp⟩

/-- A subscription that is owed at the end was owed from the start or granted on the way, with
nothing but publishes since. -/
theorem granted_of_owed {owed : Option Subscription} {subscription : Subscription}
    {record : List Interaction} (balanced : balance? owed record = some (some subscription)) :
    (owed = some subscription ∧ ∀ interaction ∈ record, interaction.isPublish = true) ∨
      ∃ earlier between, record = earlier ++ granted subscription :: between ∧
        ∀ interaction ∈ between, interaction.isPublish = true := by
  induction record generalizing owed with
  | nil => exact Or.inl ⟨Option.some.inj balanced, by simp⟩
  | cons interaction record inductionHypothesis =>
    rw [balance?_cons] at balanced
    obtain ⟨middle, booked, balanced⟩ := Option.bind_eq_some_iff.1 balanced
    -- It was owed after the first interaction, or it was granted somewhere in the rest.
    rcases inductionHypothesis balanced with ⟨rfl, all⟩ | ⟨earlier, between, split, all⟩
    · rcases owed_of_book?_eq_some booked with ⟨publishes, same⟩ | rfl
      · exact Or.inl ⟨same, List.forall_mem_cons.2 ⟨publishes, all⟩⟩
      · exact Or.inr ⟨[], record, rfl, all⟩
    · exact Or.inr ⟨interaction :: earlier, between, by rw [split, List.cons_append], all⟩

theorem owed_of_released {owed final : Option Subscription} {resource : String}
    {id : SubscriberId} {record : List Interaction}
    (balanced : balance? owed (asked (.unsubscribe resource id) :: record) = some final) :
    ∃ subscription, owed = some subscription ∧
      resource = subscription.resource ∧ id = subscription.id := by
  rw [balance?_cons] at balanced
  obtain ⟨middle, booked, _⟩ := Option.bind_eq_some_iff.1 balanced
  cases owed with
  | none => simp [book?] at booked
  | some subscription =>
    rcases book?_some_eq_some booked with ⟨publishes, _⟩ | ⟨same, _⟩
    · contradiction
    · injection same with same
      injection same with resourceSame idSame
      exact ⟨subscription, rfl, resourceSame, idSame⟩

theorem owed_of_granted {owed final : Option Subscription} {subscription : Subscription}
    {record : List Interaction}
    (balanced : balance? owed (granted subscription :: record) = some final) :
    balance? (some subscription) record = some final := by
  rw [balance?_cons] at balanced
  obtain ⟨middle, booked, balanced⟩ := Option.bind_eq_some_iff.1 balanced
  rcases owed with _ | other
  · obtain rfl := Option.some.inj booked
    exact balanced
  · simp [book?] at booked

/-- Grants and releases differ by what is owed. -/
theorem count_grants {owed final : Option Subscription} {record : List Interaction}
    (balanced : balance? owed record = some final) :
    record.countP isGrant + owed.toList.length =
      record.countP isRelease + final.toList.length := by
  induction record generalizing owed with
  | nil => rw [Option.some.inj balanced]; rfl
  | cons interaction record inductionHypothesis =>
    rw [balance?_cons] at balanced
    obtain ⟨middle, booked, balanced⟩ := Option.bind_eq_some_iff.1 balanced
    have rest := inductionHypothesis balanced
    -- A grant is made where nothing is owed and a release where something is, so each of them
    -- changes its count and the balance together.
    simp only [List.countP_cons]
    cases owed with
    | some subscription =>
      rcases book?_some_eq_some booked with ⟨publishes, rfl⟩ | ⟨rfl, rfl⟩
      · have neither : interaction.isGrant = false ∧ interaction.isRelease = false := by
          rcases interaction with (_ | _ | _) | _ <;> simp_all [isPublish, isGrant, isRelease]
        simpa [neither] using rest
      · simp only [isGrant, isRelease, Option.toList, List.length] at rest ⊢
        simp only [Bool.false_eq_true, if_false, if_true]
        omega
    | none =>
      rcases interaction with (_ | _ | _) | other <;> simp only [book?, Option.some.injEq] at booked
      · subst booked; simpa [isGrant, isRelease] using rest
      · subst booked; simpa [isGrant, isRelease] using rest
      · contradiction
      · subst booked
        simp only [isGrant, isRelease, Option.toList, List.length] at rest ⊢
        simp only [Bool.false_eq_true, if_false, if_true]
        omega

end Interaction

/-! ## The record of a session -/

namespace Session

/-- Whether something that happens fits what the session is doing. -/
def awaits (session : Session) (stimulus : Stimulus) : Bool :=
  match session.phase, stimulus with
  | .listening, .lifetimeOver | .listening, .command _ | .listening, .event _ => true
  | .sending _, .lifetimeOver | .sending _, .sent _ => true
  | .subscribing _, .subscribed _ _ => true
  | .publishing _, .published _ => true
  | .releasing _ _, .released _ => true
  | _, _ => false

/-- The subscription that a session is granted. -/
def grant : Stimulus → List Interaction
  | .subscribed (.ok subscription) _ => [.granted subscription]
  | _ => []

/-- The session after something happened to it. -/
def meet (session : Session) (happening : Happening) : Session :=
  session.react happening.counts happening.stimulus

/-- The interactions that something brings about: a grant, if it is one, and the request that the
session makes next. -/
def interactions (session : Session) (happening : Happening) : List Interaction :=
  if session.awaits happening.stimulus then
    grant happening.stimulus ++ (session.meet happening).request?.toList.map .asked
  else []

/-- The session after several things happened to it. -/
def follow (session : Session) (happenings : List Happening) : Session :=
  happenings.foldl meet session

/-- The interactions that several things bring about. -/
def record (session : Session) : List Happening → List Interaction
  | [] => []
  | happening :: happenings =>
    session.interactions happening ++ (session.meet happening).record happenings

/-- A session that waits for a subscription or a release, or has ended, holds no subscription. -/
def Orderly (session : Session) : Prop :=
  match session.phase with
  | .subscribing _ | .releasing _ _ | .ended _ => session.held = none
  | .listening | .sending _ | .publishing _ => True

/-- What a session does next is in order: its requests lead from what it owed to what it holds. -/
def Continues (owed : Option Subscription) (session : Session) : Prop :=
  Interaction.balance? owed (session.request?.toList.map .asked) = some session.held ∧
    session.Orderly

theorem react_of_not_awaits {session : Session} {counts : ChangeCounts} {stimulus : Stimulus}
    (unfit : session.awaits stimulus = false) : session.react counts stimulus = session := by
  obtain ⟨held, phase⟩ := session
  cases phase with
  | releasing subscription sequel =>
    cases sequel <;> cases stimulus <;> first | rfl | simp [awaits] at unfit
  | _ => cases stimulus <;> first | rfl | simp [awaits] at unfit

theorem continues_listening (owed : Option Subscription) : Continues owed ⟨owed, .listening⟩ :=
  ⟨rfl, trivial⟩

theorem continues_ended (result : Except SessionFailure Unit) :
    Continues none ⟨none, .ended result⟩ := ⟨rfl, rfl⟩

theorem continues_subscribing (resource : String) :
    Continues none ⟨none, .subscribing resource⟩ := ⟨rfl, rfl⟩

theorem continues_releasing (subscription : Subscription) (sequel : Sequel) :
    Continues (some subscription) ⟨none, .releasing subscription sequel⟩ := by
  refine ⟨?_, rfl⟩
  simp [request?, Interaction.book?, Interaction.balance?]

/-- A session that comes to an end releases what it holds. -/
theorem continues_finish (session : Session) (result : Except SessionFailure Unit) :
    Continues session.held (session.finish result) := by
  unfold finish
  cases session.held with
  | some subscription => exact continues_releasing subscription (.finish result)
  | none => exact continues_ended result

/-- A command makes a session ask for another subscription only after it has released the one that
it holds. -/
theorem continues_apply (held : Option Subscription) (counts : ChangeCounts) (command : Command) :
    Continues held (apply ⟨held, .listening⟩ counts command) := by
  unfold apply
  cases command.action? with
  | none => exact continues_listening held
  | some action =>
    cases action with
    | subscribe =>
      cases held with
      | none => exact continues_subscribing command.resource
      | some subscription =>
        by_cases same : subscription.resource = command.resource
        · simpa [same, enter] using continues_listening (some subscription)
        · simpa [same] using continues_releasing subscription (.subscribe command.resource)
    | update =>
      simp only
      split
      next =>
        cases counts.get? command.resource with
        | none => exact continues_listening held
        | some count => exact ⟨rfl, trivial⟩
      next => exact continues_listening held

/-- One thing that happens keeps the account: what a session holds is the balance of its
interactions. -/
theorem balance_interactions {session : Session} (orderly : session.Orderly)
    (happening : Happening) : Interaction.balance? session.held (session.interactions happening) =
        some (session.meet happening).held ∧ (session.meet happening).Orderly := by
  obtain ⟨counts, stimulus⟩ := happening
  -- What a phase does not await leaves the session and its record alone.
  by_cases fits : session.awaits stimulus = true
  · simp only [interactions, if_pos fits, meet]
    obtain ⟨held, phase⟩ := session
    cases phase with
    | listening =>
      cases stimulus with
      | lifetimeOver => exact continues_finish ⟨held, .listening⟩ (.ok ())
      | command item =>
        rcases item with _ | (cause | command)
        · exact continues_finish ⟨held, .listening⟩ (.ok ())
        · exact continues_finish ⟨held, .listening⟩ (.error cause)
        · exact continues_apply held counts command
      | event event =>
        cases event with
        | none => exact continues_finish ⟨held, .listening⟩ (.ok ())
        | some event => exact ⟨rfl, trivial⟩
      | _ => simp [awaits] at fits
    | sending event =>
      cases stimulus with
      | lifetimeOver => exact continues_finish ⟨held, .sending event⟩ (.ok ())
      | sent result =>
        cases result with
        | ok => exact continues_listening held
        | error cause => exact continues_finish ⟨held, .sending event⟩ (.error cause)
      | _ => simp [awaits] at fits
    | subscribing resource =>
      obtain rfl : held = none := orderly
      cases stimulus with
      | subscribed result lifetimeOver =>
        cases result with
        | ok subscription => exact ⟨rfl, trivial⟩
        | error cause =>
          cases lifetimeOver with
          | true => exact continues_listening none
          | false => exact continues_finish ⟨none, .subscribing resource⟩ (.error (.broker cause))
      | _ => simp [awaits] at fits
    | publishing event =>
      cases stimulus with
      | published result => exact continues_listening held
      | _ => simp [awaits] at fits
    | releasing subscription sequel =>
      obtain rfl : held = none := orderly
      cases stimulus with
      | released result =>
        cases sequel with
        | subscribe resource => exact continues_subscribing resource
        | finish result => exact continues_ended result
      | _ => simp [awaits] at fits
    | ended result => cases stimulus <;> simp [awaits] at fits
  · have unfit : session.awaits stimulus = false := by simpa using fits
    simp only [interactions, if_neg fits, meet, react_of_not_awaits unfit]
    exact ⟨rfl, orderly⟩

/-- Whatever happens, what a session holds is the balance of its record. -/
theorem balance_record {session : Session} (orderly : session.Orderly)
    (happenings : List Happening) :
    Interaction.balance? session.held (session.record happenings) =
        some (session.follow happenings).held ∧ (session.follow happenings).Orderly := by
  induction happenings generalizing session with
  | nil => exact ⟨rfl, orderly⟩
  | cons happening happenings inductionHypothesis =>
    obtain ⟨booked, met⟩ := balance_interactions orderly happening
    obtain ⟨rest, final⟩ := inductionHypothesis met
    refine ⟨?_, final⟩
    rw [record, Interaction.balance?_append, booked]
    exact rest

/-- Every subscription that a session is granted is released once: the next thing that it does,
publishes apart, is to ask for the release of just this subscription, unless it still holds it.
Nothing else is ever released. What was granted and not released is what it holds, one subscription
at the most, and a session that has ended holds nothing and asks for nothing. -/
theorem each_subscription_released_once (happenings : List Happening) :
    (∀ before subscription after,
      start.record happenings = before ++ .granted subscription :: after →
        ((start.follow happenings).held = some subscription ∧
            ∀ interaction ∈ after, interaction.isPublish = true) ∨
          ∃ between rest,
            after = between ++
              .asked (.unsubscribe subscription.resource subscription.id) :: rest ∧
            ∀ interaction ∈ between, interaction.isPublish = true) ∧
    (∀ before resource id after,
      start.record happenings = before ++ .asked (.unsubscribe resource id) :: after →
        ∃ earlier subscription between,
          before = earlier ++ .granted subscription :: between ∧
          (∀ interaction ∈ between, interaction.isPublish = true) ∧
          resource = subscription.resource ∧ id = subscription.id) ∧
    (start.record happenings).countP Interaction.isGrant =
      (start.record happenings).countP Interaction.isRelease +
        (start.follow happenings).held.toList.length ∧
    ((start.follow happenings).result?.isSome = true →
      (start.follow happenings).held = none ∧ (start.follow happenings).request? = none) := by
  have idle : start.Orderly := trivial
  obtain ⟨balanced, orderly⟩ := balance_record idle happenings
  refine ⟨?_, ?_, Interaction.count_grants balanced, ?_⟩
  · intro before subscription after split
    rw [split] at balanced
    obtain ⟨owed, _, balanced⟩ := Interaction.balance?_append_eq_some balanced
    -- Right after its grant the subscription is owed.
    exact Interaction.released_of_owed (Interaction.owed_of_granted balanced)
  · intro before resource id after split
    rw [split] at balanced
    obtain ⟨owed, earned, balanced⟩ := Interaction.balance?_append_eq_some balanced
    obtain ⟨subscription, rfl, resourceSame, idSame⟩ := Interaction.owed_of_released balanced
    -- What is released was owed; nothing is owed at the start, so it was granted before.
    rcases Interaction.granted_of_owed earned with ⟨fromStart, _⟩ | ⟨earlier, between, parts, all⟩
    · contradiction
    · exact ⟨earlier, subscription, between, parts, all, resourceSame, idSame⟩
  · intro finished
    generalize start.follow happenings = session at orderly finished ⊢
    obtain ⟨held, phase⟩ := session
    cases phase with
    | ended result => exact ⟨orderly, rfl⟩
    | _ => simp [result?] at finished

end Session

end UpdateRelay
