import SignalGraph.Attempt
import SignalGraph.Instance.Basic

/-! # Instance pools

The instances of one signal, in ascending order of their numbers and no more than a capacity fixed
at the start. A value for a new instance takes a reserved slot, else a free one, else that of an
active instance if the pool's steal mode gives one up.
-/

namespace SignalGraph

structure Pool where
  slots : List Instance
  steal : StealMode
  capacity : Nat
  deriving Repr, DecidableEq

namespace Pool

def maxCapacity : Nat := 128

def empty (capacity : Nat) (steal : StealMode) : Pool := ⟨[], steal, min capacity maxCapacity⟩

def size (p : Pool) : Nat := p.slots.length

def activeCount (p : Pool) : Nat := p.slots.countP Instance.isActive

/-! ## Looking up -/

/-- How many of some ascending instances have numbers below one. What is left to look at is halved
    each time, so that there are no more halvings than instances. -/
def countBelow (id : UInt64) : Nat → List Instance → Nat
  | 0, _ => 0
  | halvings + 1, is =>
    let half := is.length / 2
    match is.drop half with
    | [] => 0
    | i :: above =>
      if i.id < id then half + 1 + countBelow id halvings above
      else countBelow id halvings (is.take half)

/-- Where the instance of a number is, or would be. -/
def place (p : Pool) (id : UInt64) : Nat := countBelow id p.size p.slots

/-- Looks for an instance at its place and nowhere else. -/
def get? (p : Pool) (id : UInt64) : Option Instance :=
  (p.slots[p.place id]?).filter fun i => i.id == id

def contains (p : Pool) (id : UInt64) : Bool := (p.get? id).isSome

def get (p : Pool) (id : UInt64) : Except Error Instance :=
  match p.get? id with
  | some i => .ok i
  | none => .error (.missing (.poolInstance id))

/-! ## Changes of slots -/

/-- Puts an instance at its place among the others. -/
def insert (p : Pool) (i : Instance) : Pool :=
  { p with slots := p.slots.take (p.place i.id) ++ i :: p.slots.drop (p.place i.id) }

def modify (p : Pool) (id : UInt64) (f : Instance → Instance) : Pool :=
  { p with slots := p.slots.map fun i => if i.id == id then f i else i }

def erase (p : Pool) (id : UInt64) : Pool :=
  { p with slots := p.slots.filter fun i => i.id != id }

def setSteal (p : Pool) (mode : StealMode) : Pool := { p with steal := mode }

/-! ## Reservation -/

def addReserved (p : Pool) (ids : List UInt64) : Pool :=
  ids.foldl (fun p id => p.insert (.reserved id)) p

/-- The `n` lowest numbers that no instance has. -/
def lowestUnused (p : Pool) (n : Nat) : List UInt64 :=
  (((List.range (p.size + n)).map UInt64.ofNat).filter fun id => !p.contains id).take n

/-- Refuses a number of new instances that the capacity does not allow. How many there would be is a
    count of 64 bits. -/
def checkCapacity (p : Pool) (requested : Nat) : Except Error Unit :=
  if UInt64.size ≤ p.size + requested then .error .countOverflow
  else if p.capacity < p.size + requested then .error (.capacity requested p.capacity)
  else .ok ()

/-- Reserves `n` instances under the lowest unused numbers, or none at all. -/
def reserve (n : Nat) : Attempt Pool (List UInt64) := do
  let p ← Attempt.current
  demand (p.checkCapacity n)
  let ids := p.lowestUnused n
  Attempt.change (·.addReserved ids)
  return ids

/-- Reserves the given instances that are not there yet, or none at all. -/
def reserveIds (ids : List UInt64) : Attempt Pool (List UInt64) := do
  let p ← Attempt.current
  let fresh := ((ids.filter fun id => !p.contains id).mergeSort (· ≤ ·)).eraseDups
  demand (p.checkCapacity fresh.length)
  Attempt.change (·.addReserved fresh)
  return fresh

def dropInactive : Nat → List Instance → List Instance
  | 0, is => is
  | _, [] => []
  | n + 1, i :: is => if i.isActive then i :: dropInactive (n + 1) is else dropInactive n is

/-- Grows the pool to `size` slots or as many as the capacity allows, or drops inactive instances
    from the highest number down until `size` are left. -/
def resize (p : Pool) (size : Nat) : Pool :=
  let target := min size p.capacity
  if p.size < target then (reserve (target - p.size)).after p
  else { p with slots := (dropInactive (p.size - target) p.slots.reverse).reverse }

def make (capacity : Nat) (steal : StealMode) (size : Nat) : Except Error Pool :=
  match reserve size (empty capacity steal) with
  | .ok _ p => .ok p
  | .error e _ => .error e

/-! ## Values -/

/-- The lowest reserved instance, else the lowest free one. -/
def idle? (p : Pool) : Option Instance :=
  p.slots.find? (fun i => i.state == .reserved) <|> p.slots.find? (fun i => i.state == .free)

/-- The instance that comes first by an order, the earlier of two that tie. -/
def firstBy (before : Instance → Instance → Bool) : List Instance → Option Instance
  | [] => none
  | i :: is =>
    match firstBy before is with
    | none => some i
    | some j => some (if before j i then j else i)

/-- Whether an activation is earlier than another; none is earlier than any. -/
def earlier : Option Timetag → Option Timetag → Bool
  | some s, some t => decide (s < t)
  | none, some _ => true
  | _, none => false

/-- The active instance that the steal mode gives up: the first or the last to become active, and
    of several the lowest. -/
def victim? (p : Pool) : Option Instance :=
  let active := p.slots.filter Instance.isActive
  match p.steal with
  | .none => none
  | .oldest => firstBy (fun i j => earlier i.activated j.activated) active
  | .newest => firstBy (fun i j => earlier j.activated i.activated) active

def replace (p : Pool) (old id : UInt64) (sample : Sample) : Pool :=
  (p.erase old).insert (.started id sample)

/-- A value for an instance, which becomes active or takes the slot of another if it has none. -/
def update (p : Pool) (id : UInt64) (sample : Sample) : Pool × List PoolEvent :=
  match p.get? id with
  | some i =>
    (p.modify id (·.play sample), [⟨if i.isActive then .update else .new, id⟩])
  | none =>
    match p.idle? with
    | some old => (p.replace old.id id sample, [⟨.new, id⟩])
    | none =>
      match p.victim? with
      | some old => (p.replace old.id id sample, [⟨.releasedHere, old.id⟩, ⟨.new, id⟩])
      | none => (p, [⟨.overflow, id⟩])

def release (id : UInt64) (origin : ReleaseOrigin) : Attempt Pool (List PoolEvent) := do
  let i ← demand ((← Attempt.current).get id)
  if !i.isActive then return []
  Attempt.change (·.modify id ({ · with state := .free }))
  return [⟨origin.event, id⟩]

/-- Drops an instance, releasing it first if it is active. -/
def remove (id : UInt64) : Attempt Pool (List PoolEvent) := do
  let i ← demand ((← Attempt.current).get id)
  Attempt.change (·.erase id)
  return if i.isActive then [⟨.releasedHere, id⟩] else []

def setTag (id : UInt64) (tag : Option UInt64) : Attempt Pool Unit := do
  let _ ← demand ((← Attempt.current).get id)
  Attempt.change (·.modify id ({ · with tag }))

end Pool

end SignalGraph
