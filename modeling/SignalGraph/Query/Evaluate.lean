import SignalGraph.Query.Basic
import SignalGraph.Value.Coerce

/-! # Evaluation of queries

The identities that a query yields: each once, all of live records of the query's kind, in the order
of the store or of the query's own list.
-/

namespace SignalGraph

/-- Whether a property passes a filter. The filter's value is taken as one of the property's kind;
    if it cannot be, only its presence counts. Equality also takes the value as it is, and in its
    strings a star stands for any text. -/
def FilterOp.accepts (op : FilterOp) (property : Value) (value : Value) : Bool :=
  match op with
  | .present => true
  | .absent => false
  | op =>
    match value.coerce property.kind with
    | .error _ => false
    | .ok target =>
      let order := property.compare? target
      let equal := property.isMatchedBy value || property.isMatchedBy target
      match op with
      | .equal => equal
      | .notEqual => !equal
      | .greater => order == some .gt
      | .greaterOrEqual => order == some .gt || order == some .eq
      | .less => order == some .lt
      | .lessOrEqual => order == some .lt || order == some .eq
      | .present | .absent => false

/-- Whether a record passes a filter; one without the property only passes for its absence. -/
def Record.passes (r : Record) (key : Key) (op : FilterOp) (value : Value) : Bool :=
  match r.property? key with
  | some property => op.accepts property value
  | none => op == .absent

/-- Whether a map has a chosen signal at its end in a direction, or at any end. -/
def Record.touches (r : Record) (chosen : ObjectId → Bool) (direction : Option Direction) : Bool :=
  let incoming := r.destination?.any chosen
  let outgoing := r.sources.any chosen
  match direction with
  | none => incoming || outgoing
  | some .input => incoming
  | some .output => outgoing

namespace Query

/-- The live records of a kind among given identities, each once. -/
def pick (s : Store) (kind : ObjectKind) (ids : List ObjectId) : List ObjectId :=
  (ids.filter fun id => (s.find? id).any fun r => r.isLive && r.kind == kind).eraseDups

def evaluate (s : Store) : Query → List ObjectId
  | all kind => (s.live kind).map Record.id
  | ids kind given => pick s kind given
  | filter input key op value =>
    (input.evaluate s).filter fun id => (s.find? id).any fun r => r.passes key op value
  | union a b =>
    let left := a.evaluate s
    left ++ ((b.evaluate s).eraseDups.filter fun id => id ∉ left)
  | intersect a b =>
    let right := b.evaluate s
    (a.evaluate s).filter fun id => id ∈ right
  | difference a b =>
    let right := b.evaluate s
    (a.evaluate s).filter fun id => id ∉ right
  | signalsOf device direction =>
    ((s.live .signal).filter fun r =>
      r.device? = some device ∧ (direction = none ∨ r.direction? = direction)).map Record.id
  | mapsOf signal direction =>
    ((s.live .map).filter fun r => r.touches (· = signal) direction).map Record.id
  | mapsOfDevice device direction =>
    let owned (signal : ObjectId) : Bool := (s.find? signal).bind Record.device? = some device
    ((s.live .map).filter fun r => r.touches owned direction).map Record.id
  | linksOf device => ((s.live .link).filter fun r => device ∈ r.linkEnds).map Record.id
  | signalsOfMap map => pick s .signal (((s.find? map).map Record.mapSignals).getD [])

def size (s : Store) (q : Query) : Nat := (q.evaluate s).length

end Query

end SignalGraph
