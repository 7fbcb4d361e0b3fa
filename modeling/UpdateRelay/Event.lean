/-!
# Events, subscriptions and commands

What is distributed, how a subscription is named, and what a client may ask for.
-/

namespace UpdateRelay

/-- One change of a resource, as its subscribers see it. -/
structure Event where
  resource : String
  count : Int64
  message : String
  deriving DecidableEq, Repr

/-- Names a subscription within one broker. -/
structure SubscriberId where
  number : Nat
  deriving DecidableEq, Repr

/-! ## Subscription ids -/

namespace SubscriberId

protected def compare (first second : SubscriberId) : Ordering :=
  compareOfLessAndEq first.number second.number

/-- An id is written as its number. -/
def label (id : SubscriberId) : String := toString id.number

/-- The form of an id that says what it is. -/
def description (id : SubscriberId) : String := s!"SubscriptionId({id.label})"

end SubscriberId

/-! ## Commands -/

/-- What a command may ask for. -/
inductive Action
  | subscribe
  | update
  deriving DecidableEq, Repr

namespace Action

def word : Action → String
  | subscribe => "subscribe"
  | update => "update"

/-- The action a word stands for; other words, whatever their case, stand for none. -/
def ofWord? (word : String) : Option Action :=
  [subscribe, update].find? fun action => action.word = word

theorem ofWord?_eq_some_iff (word : String) (action : Action) :
    ofWord? word = some action ↔ word = action.word := by
  constructor
  · intro found
    have spelled : action.word = word := by simpa using List.find?_some found
    exact spelled.symm
  · rintro rfl
    cases action <;> decide

end Action

/-- What a client asks for: a resource and the word of an action on it. The word may be one that
stands for no action, and then a session does nothing. -/
structure Command where
  resource : String
  action : String
  deriving DecidableEq, Repr

/-- The action that a command asks for. -/
def Command.action? (command : Command) : Option Action :=
  Action.ofWord? command.action

end UpdateRelay
