import SignalGraph.Query.Evaluate

/-! # Cursors and iterators

A cursor walks what its query yielded when it took its first step, also while the store changes; it
passes over identities that are no longer held. An iterator does the same on a store that it
borrows, which therefore does not change, and yields records.
-/

namespace SignalGraph

/-- A place in what a query yielded: all of that, once the query has been asked, and how many of the
    identities the cursor has passed. -/
structure Cursor where
  query : Query
  snapshot : Option (List ObjectId)
  position : Nat
  deriving Repr, DecidableEq

namespace Cursor

def start (query : Query) : Cursor := ⟨query, none, 0⟩

/-- The cursor with its query asked, if only now. -/
def ensure (c : Cursor) (s : Store) : Cursor :=
  match c.snapshot with
  | some _ => c
  | none => { c with snapshot := some (c.query.evaluate s), position := 0 }

def ids (c : Cursor) : List ObjectId := c.snapshot.getD []

/-- Looks for the first identity that is held, from a position on, and tells the position behind
    it, or that behind all if none is held. -/
def seek (s : Store) : List ObjectId → Nat → Option ObjectId × Nat
  | [], position => (none, position)
  | id :: rest, position =>
    if s.contains id then (some id, position + 1) else seek s rest (position + 1)

/-- Passes on to the next identity that is still held. -/
def next (c : Cursor) (s : Store) : Option ObjectId × Cursor :=
  let c := c.ensure s
  let (found, position) := seek s (c.ids.drop c.position) c.position
  (found, { c with position })

def size (c : Cursor) (s : Store) : Nat × Cursor :=
  let c := c.ensure s
  (c.ids.length - c.position, c)

def restart (c : Cursor) : Cursor := start c.query

/-- Bounds of how many more steps find something; only the upper one says something, once the query
    has been asked. -/
def sizeHint (c : Cursor) : Nat × Option Nat :=
  (0, c.snapshot.map fun ids => ids.length - c.position)

end Cursor

/-- A place in what a query yields on a store that is borrowed: all of that, once someone has asked
    for it, and how many of the identities have been passed. -/
structure QueryIterator where
  query : Query
  store : Store
  snapshot : Option (List ObjectId)
  position : Nat
  deriving Repr, DecidableEq

namespace QueryIterator

def start (query : Query) (store : Store) : QueryIterator := ⟨query, store, none, 0⟩

/-- What the query yielded when it was asked, which is now if it has not been. -/
def ids (i : QueryIterator) : List ObjectId := i.snapshot.getD (i.query.evaluate i.store)

/-- Looks for the first identity that has a record, from a position on, and tells the position
    behind it, or that behind all if none has. -/
def seek (s : Store) : List ObjectId → Nat → Option Record × Nat
  | [], position => (none, position)
  | id :: rest, position =>
    match s.find? id with
    | some r => (some r, position + 1)
    | none => seek s rest (position + 1)

def next (i : QueryIterator) : Option Record × QueryIterator :=
  let (found, position) := seek i.store (i.ids.drop i.position) i.position
  (found, { i with snapshot := some i.ids, position })

/-- How many records are left. -/
def size (i : QueryIterator) : Nat × QueryIterator :=
  (i.ids.length - i.position, { i with snapshot := some i.ids })

def sizeHint (i : QueryIterator) : Nat × Option Nat :=
  Cursor.sizeHint ⟨i.query, i.snapshot, i.position⟩

end QueryIterator

end SignalGraph
