import SignalGraph.Attempt
import SignalGraph.Property.Validate
import SignalGraph.Value.Compare

/-! # Property tables

An ordered table of properties in two layers: what the network has confirmed, and edits made here
that wait to be sent. Readers see the staged layer over the confirmed one. Entries keep the order
in which their keys first came, and each key has at most one.
-/

namespace SignalGraph

inductive Change where
  | set (key : Key) (value : Value)
  | remove (key : Key)
  deriving Repr, DecidableEq

def Change.key : Change → Key
  | set key _ | remove key => key

structure Diff where
  changes : List Change
  deriving Repr, DecidableEq

namespace Diff

def empty : Diff := ⟨[]⟩

def size (d : Diff) : Nat := d.changes.length

def isEmpty (d : Diff) : Bool := d.changes.isEmpty

def push (d : Diff) (c : Change) : Diff := ⟨d.changes ++ [c]⟩

/-- The value that a diff sets last for a key, whatever it removes. -/
def get? (d : Diff) (key : Key) : Option Value :=
  d.changes.reverse.findSome? fun
    | .set k v => if k = key then some v else none
    | .remove _ => none

end Diff

structure TableEntry where
  key : Key
  committed : Option Value
  staged : Option Value
  /-- Removed here; the confirmed value stays until the removal is sent. -/
  removed : Bool
  deriving Repr, DecidableEq

namespace TableEntry

/-- The value that readers see. -/
def visible? (e : TableEntry) : Option Value :=
  if e.removed then none else e.staged <|> e.committed

def isStaged (e : TableEntry) : Bool := e.removed || e.staged.isSome

/-- The entry with its edit confirmed, if it then holds a value. -/
def commit? (e : TableEntry) : Option TableEntry :=
  match if e.removed then none else e.visible? with
  | some v => some ⟨e.key, some v, none, false⟩
  | none => none

/-- The entry without its edit, if it then holds a value. -/
def revert? (e : TableEntry) : Option TableEntry :=
  if e.committed.isSome then some { e with staged := none, removed := false } else none

end TableEntry

structure Table where
  entries : List TableEntry
  deriving Repr, DecidableEq

namespace Table

def empty : Table := ⟨[]⟩

instance : Inhabited Table := ⟨empty⟩

def entry? (t : Table) (key : Key) : Option TableEntry := t.entries.find? fun e => e.key = key

/-! ## Reading -/

def get? (t : Table) (key : Key) : Option Value := (t.entry? key).bind TableEntry.visible?

def get (t : Table) (key : Key) : Except Error Value :=
  match t.get? key with
  | some v => .ok v
  | none => .error (.missing (.property key))

def contains (t : Table) (key : Key) : Bool := (t.get? key).isSome

def toList (t : Table) : List (Key × Value) :=
  t.entries.filterMap fun e => e.visible?.map fun v => (e.key, v)

def keys (t : Table) : List Key := t.toList.map Prod.fst

def size (t : Table) : Nat := t.toList.length

def isStaged (t : Table) (key : Key) : Bool := (t.entry? key).any TableEntry.isStaged

def hasStaged (t : Table) : Bool := t.entries.any TableEntry.isStaged

/-- The edits that wait to be sent: sets in table order, then removals. -/
def stagedDiff (t : Table) : Diff :=
  ⟨(t.entries.filterMap fun e => e.staged.map fun v => .set e.key v) ++
    (t.entries.filter TableEntry.removed).map fun e => .remove e.key⟩

/-! ## Edits made here -/

def modify (t : Table) (key : Key) (f : TableEntry → TableEntry) : Table :=
  ⟨t.entries.map fun e => if e.key = key then f e else e⟩

def erase (t : Table) (key : Key) : Table := ⟨t.entries.filter fun e => e.key ≠ key⟩

def append (t : Table) (e : TableEntry) : Table := ⟨t.entries ++ [e]⟩

def set (key : Key) (v : Value) : Attempt Table Unit := do
  demand (key.validate v)
  Attempt.change fun t =>
    match t.entry? key with
    | some _ => t.modify key fun e => { e with staged := some v, removed := false }
    | none => t.append ⟨key, none, some v, false⟩

/-- Removes a value that readers see and returns it. The removal is staged if the network knows the
    key; else the entry goes at once. -/
def remove (key : Key) : Attempt Table Value := do
  let t ← Attempt.current
  let v ← demand (t.get key)
  Attempt.change fun t =>
    match t.entry? key with
    | some { committed := some _, .. } =>
      t.modify key fun e => { e with staged := none, removed := true }
    | _ => t.erase key
  return v

def commitStaged (t : Table) : Table := ⟨t.entries.filterMap TableEntry.commit?⟩

/-- Sends the staged edits, if there are any, and confirms them once they are taken. Returns how
    many there were. -/
def push (send : Diff → Except Error Unit) : Attempt Table Nat := do
  let diff := (← Attempt.current).stagedDiff
  if diff.isEmpty then return 0
  demand (send diff)
  Attempt.change commitStaged
  return diff.size

def discardStaged (t : Table) : Table := ⟨t.entries.filterMap TableEntry.revert?⟩

/-! ## Writes by the network -/

/-- Confirms a value; tells whether the confirmed layer changed. A removal staged here gives way,
    a staged value stays. -/
def apply (key : Key) (v : Value) : Attempt Table Bool := do
  demand (key.validate v)
  let t ← Attempt.current
  match t.entry? key with
  | none =>
    Attempt.change (·.append ⟨key, some v, none, false⟩)
    return true
  | some entry =>
    Attempt.change (·.modify key ({ · with removed := false }))
    if entry.committed.any (·.eqv v) then return false
    Attempt.change (·.modify key ({ · with committed := some v }))
    return true

/-- Removes a confirmed value; tells whether there was one. A staged value stays. -/
def applyRemoval (t : Table) (key : Key) : Table × Bool :=
  match t.entry? key with
  | none => (t, false)
  | some entry =>
    if entry.staged.isSome then
      (t.modify key fun e => { e with committed := none, removed := false }, entry.committed.isSome)
    else (t.erase key, entry.committed.isSome)

/-- Applies one change; one that the catalogue does not allow is skipped. -/
def applyChange (t : Table) : Change → Table × Bool
  | .set key v =>
    match apply key v t with
    | .ok changed t => (t, changed)
    | .error _ t => (t, false)
  | .remove key => t.applyRemoval key

/-- Applies changes in order; tells whether the confirmed layer changed at any of them. -/
def applyDiff (t : Table) (d : Diff) : Table × Bool :=
  d.changes.foldl (fun (t, changed) c =>
    let (t, now) := t.applyChange c
    (t, changed || now)) (t, false)

end Table

end SignalGraph
