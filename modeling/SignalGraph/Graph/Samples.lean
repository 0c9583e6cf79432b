import SignalGraph.Graph.Apply
import SignalGraph.Value.Coerce

/-! # Values of signals

Values for the instances of a signal, from the network or set here, and the instances themselves. A
value is taken as one of the kind that the signal declares and must have the length it declares.
-/

namespace SignalGraph

/-- A value as the signal declares its values. -/
def Record.conform (r : Record) (v : Value) : Except Error Value := do
  let kind := ((r.properties.get? (.wellKnown .type)).bind Value.toString?).bind Kind.ofText?
  let v ← match kind with
    | some kind => v.coerce kind
    | none => pure v
  match (r.properties.get? (.wellKnown .length)).bind Value.toInt32? with
  | some n =>
    if (v.size : Int) = n.toInt then return v else .error (.mismatch (.sampleLength n v.size))
  | none => return v

def Record.getPool (r : Record) : Except Error Pool :=
  match r.pool? with
  | some pool => .ok pool
  | none => .error (.missing (.pool r.id))

namespace Graph

variable {α : Type}

def withPool {β : Type} (signal : ObjectId) (x : Record → Attempt Pool β) :
    Attempt (Graph α) β := do
  let r ← demand ((← Attempt.current).store.getLive signal .signal)
  let pool ← demand r.getPool
  (x r).within pool fun pool g => g.modify signal (·.withPool pool)

/-- Works on the instances of a live signal and tells listeners what happened to them. -/
def withPoolEvents (signal : ObjectId) (x : Record → Attempt Pool (List PoolEvent)) :
    Attempt (Graph α) Unit := do
  let events ← withPool signal x
  Attempt.change (·.notifyPool signal events)

/-- A value for an instance, as the signal declares its values. -/
def sample (slot : UInt64) (v : Value) (time : Timetag) (r : Record) :
    Attempt Pool (List PoolEvent) := do
  let v ← demand (r.conform v)
  fun pool => let (pool, events) := pool.update slot ⟨v, time⟩; .ok events pool

/-- The release of an instance, or nothing if the pool does not have it. -/
def releaseIfHeld (slot : UInt64) : Attempt Pool (Option (List PoolEvent)) := fun pool =>
  match Pool.release slot .network pool with
  | .ok events pool => .ok (some events) pool
  | .error e pool => if e.isNotFound then .ok none pool else .error e pool

/-- Applies a value from the network. The release of an instance that the signal does not have is
    none. -/
def applyValue (u : ValueUpdate) : Attempt (Graph α) Unit := do
  let slot := u.slot.getD 0
  let events ← withPool u.signal fun r =>
    match u.value with
    | some v => some <$> sample slot v u.time r
    | none => releaseIfHeld slot
  match events with
  | some events =>
    Attempt.change (·.touchOwner u.signal)
    Attempt.change (·.notifyPool u.signal events)
  | none => return

/-! ## Instances -/

def reserveInstances (signal : ObjectId) (n : Nat) : Attempt (Graph α) (List UInt64) :=
  withPool signal fun _ => Pool.reserve n

def reserveInstanceIds (signal : ObjectId) (ids : List UInt64) :
    Attempt (Graph α) (List UInt64) :=
  withPool signal fun _ => Pool.reserveIds ids

def updateInstance (signal : ObjectId) (slot : UInt64) (v : Value) : Attempt (Graph α) Unit := do
  let g ← Attempt.current
  withPoolEvents signal (sample slot v g.now)

def releaseInstance (signal : ObjectId) (slot : UInt64) : Attempt (Graph α) Unit :=
  withPoolEvents signal fun _ => Pool.release slot .here

def removeInstance (signal : ObjectId) (slot : UInt64) : Attempt (Graph α) Unit :=
  withPoolEvents signal fun _ => Pool.remove slot

def tagInstance (signal : ObjectId) (slot : UInt64) (tag : Option UInt64) :
    Attempt (Graph α) Unit :=
  withPool signal fun _ => Pool.setTag slot tag

end Graph

end SignalGraph
