import SignalGraph.Network.Event

/-! # Subscriptions

To hear of what a device owns one subscribes to it for a time, the lease. A subscription to a name
pattern stands for one to each device whose name matches it, now and later.
-/

namespace SignalGraph

inductive Lease where
  /-- Renewed until it is ended. -/
  | renewing
  | seconds (n : UInt32)
  | cancel
  deriving Repr, DecidableEq

namespace Lease

/-- The lease for a number of seconds: none cancels, a negative number renews. -/
def ofSeconds (n : Int32) : Lease :=
  if n = 0 then cancel else if n < 0 then renewing else seconds n.toUInt32

end Lease

inductive SubscriptionTarget where
  | device (id : ObjectId)
  /-- Every device whose name matches a glob. -/
  | pattern (glob : String)
  deriving Repr, DecidableEq

structure Subscription where
  device : ObjectId
  categories : Categories
  lease : Lease
  /-- When the lease runs out; none until a request was taken. -/
  expires : Option Timetag
  /-- Whether the last request was refused and is to be repeated. -/
  pending : Bool
  /-- The pattern that it comes from. -/
  pattern : Option String
  deriving Repr, DecidableEq

/-- A subscription to every device whose name matches a glob. -/
structure PatternSubscription where
  glob : String
  categories : Categories
  lease : Lease
  deriving Repr, DecidableEq

end SignalGraph
