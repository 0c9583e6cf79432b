import SignalGraph.Property.Vocabulary
import SignalGraph.Value.Basic

/-! # Instances of a signal

A signal has one instance for each voice that can hold a value of its own. An instance is reserved
until its first value, active while it holds one, and free once released.
-/

namespace SignalGraph

structure Sample where
  value : Value
  time : Timetag
  deriving Repr, DecidableEq

inductive InstanceState where
  /-- Never active so far. -/
  | reserved
  | active
  /-- Released; the last value is kept. -/
  | free
  deriving Repr, DecidableEq

structure Instance where
  id : UInt64
  state : InstanceState
  last : Option Sample
  tag : Option UInt64
  activated : Option Timetag
  deriving Repr, DecidableEq

namespace Instance

def reserved (id : UInt64) : Instance := ⟨id, .reserved, none, none, none⟩

def isActive (i : Instance) : Bool := i.state == .active

/-- The instance with a new value: what was not active becomes so now. -/
def play (i : Instance) (sample : Sample) : Instance :=
  if i.isActive then { i with last := some sample }
  else { i with state := .active, activated := some sample.time, last := some sample }

def started (id : UInt64) (sample : Sample) : Instance :=
  ⟨id, .active, some sample, none, some sample.time⟩

end Instance

inductive PoolEventKind where
  | new
  | update
  | releasedByNetwork
  /-- Released here, or by losing its slot. -/
  | releasedHere
  /-- A value was dropped because no slot could be had. -/
  | overflow
  deriving Repr, DecidableEq

structure PoolEvent where
  kind : PoolEventKind
  id : UInt64
  deriving Repr, DecidableEq

inductive ReleaseOrigin where
  | here
  | network
  deriving Repr, DecidableEq

def ReleaseOrigin.event : ReleaseOrigin → PoolEventKind
  | here => .releasedHere
  | network => .releasedByNetwork

end SignalGraph
