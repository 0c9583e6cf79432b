import SignalGraph.Instance.Pool
import SignalGraph.Object.Categories

/-! # Configuration

What can be tuned about a graph, and the usual settings.
-/

namespace SignalGraph

structure Config where
  /-- How long a record stays after listeners heard that its object went. -/
  gracePeriodMs : UInt64
  /-- After how many seconds of silence a device is taken for gone; zero for never. -/
  deviceTimeoutSecs : UInt32
  autorenewIntervalSecs : UInt32
  /-- How many seconds before its end a lease is renewed. -/
  renewMarginSecs : UInt32
  maxInstances : Nat
  defaultInstances : Nat
  defaultSteal : StealMode
  maxMapSources : Nat
  /-- What to subscribe to on every device as it appears. -/
  autosubscribe : Categories
  deriving Repr, DecidableEq

namespace Config

def standard : Config where
  gracePeriodMs := 1000
  deviceTimeoutSecs := 10
  autorenewIntervalSecs := 60
  renewMarginSecs := 10
  maxInstances := Pool.maxCapacity
  defaultInstances := 1
  defaultSteal := .none
  maxMapSources := 8
  autosubscribe := .none

instance : Inhabited Config := ⟨standard⟩

def graceParts (c : Config) : Nat × Nat :=
  (c.gracePeriodMs.toNat / 1000, c.gracePeriodMs.toNat % 1000 * 1000000)

/-- The grace period in seconds, its fraction rounded before it is added. -/
def graceSeconds (c : Config) : Double :=
  let (seconds, nanoseconds) := c.graceParts
  (Binary.ofInt seconds).add ((Binary.ofInt nanoseconds).div (.ofInt 1000000000))

/-- The settings with a grace period of seconds and nanoseconds, in whole milliseconds. -/
def withGracePeriod (c : Config) (seconds nanoseconds : Nat) : Config :=
  { c with gracePeriodMs := UInt64.ofNat (seconds * 1000 + nanoseconds / 1000000) }

end Config

end SignalGraph
