import SignalGraph.Network.Delta
import SignalGraph.Object.Categories

/-! # Messages

What comes from the network and what goes out to it.
-/

namespace SignalGraph

inductive EventType where
  | announce
  | update
  | remove
  | expire
  deriving Repr, DecidableEq

/-- A value for an instance of a signal, or its release if there is none. -/
structure ValueUpdate where
  signal : ObjectId
  /-- The first instance if not given. -/
  slot : Option UInt64
  value : Option Value
  time : Timetag
  deriving Repr, DecidableEq

inductive NetworkEvent where
  | record (type : EventType) (delta : Delta)
  | value (update : ValueUpdate)
  /-- A sign of life of a device. -/
  | sync (device : ObjectId)
  deriving Repr, DecidableEq

inductive Destination where
  | bus
  | device (id : ObjectId)
  deriving Repr, DecidableEq

/-- A request to a device for its messages; one for no time at all cancels. -/
structure SubscriptionRequest where
  device : ObjectId
  categories : Categories
  leaseSeconds : UInt32
  deriving Repr, DecidableEq

end SignalGraph
