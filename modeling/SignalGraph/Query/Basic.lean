import SignalGraph.Object.Store

/-! # Queries

A query stands for a list of live records of one kind, which it yields when asked of a store:
those of a kind or of a list, those that pass a filter, those that stand in a relation to an
object, and combinations of queries of one kind.
-/

namespace SignalGraph

/-- How a property is to stand to the value of a filter. -/
inductive FilterOp where
  | equal
  | notEqual
  | present
  | absent
  | greater
  | greaterOrEqual
  | less
  | lessOrEqual
  deriving Repr, DecidableEq

/-- A query for records of one kind. -/
inductive Query where
  | all (kind : ObjectKind)
  | ids (kind : ObjectKind) (ids : List ObjectId)
  | filter (input : Query) (key : Key) (op : FilterOp) (value : Value)
  | union (a b : Query)
  | intersect (a b : Query)
  | difference (a b : Query)
  | signalsOf (device : ObjectId) (direction : Option Direction)
  /-- The maps of a signal: into it, out of it, or both. -/
  | mapsOf (signal : ObjectId) (direction : Option Direction)
  /-- The maps of any signal of a device. -/
  | mapsOfDevice (device : ObjectId) (direction : Option Direction)
  | linksOf (device : ObjectId)
  /-- The signals of a map, sources first. -/
  | signalsOfMap (map : ObjectId)
  deriving Repr, DecidableEq

namespace Query

def kind : Query → ObjectKind
  | all kind | ids kind _ => kind
  | filter input _ _ _ => input.kind
  | union a _ | intersect a _ | difference a _ => a.kind
  | signalsOf _ _ | signalsOfMap _ => .signal
  | mapsOf _ _ | mapsOfDevice _ _ => .map
  | linksOf _ => .link

def present (q : Query) (key : Key) : Query := q.filter key .present .null

def absent (q : Query) (key : Key) : Query := q.filter key .absent .null

def combine (make : Query → Query → Query) (a b : Query) : Except Error Query :=
  if a.kind = b.kind then .ok (make a b) else .error (.mismatch (.queryKind a.kind b.kind))

/-- The maps of an object: of a device's signals, or of a signal. -/
def mapsOfRecord (r : Record) (direction : Option Direction) : Query :=
  if r.kind = .device then mapsOfDevice r.id direction else mapsOf r.id direction

end Query

end SignalGraph
