import UpdateRelay.Mail.Roster

/-!
# Subscriptions

What the holder of a subscription has: its id, its resource and the place of its mailbox.
-/

namespace UpdateRelay

structure Subscription where
  id : SubscriberId
  resource : String
  place : Nat
  deriving DecidableEq, Repr

end UpdateRelay
