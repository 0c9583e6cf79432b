import SignalGraph.Binary.Arithmetic

/-! # Documents

The tree of a JSON document. Members of an object keep their order and may repeat a name; what a
repeated or an unknown member means is for the reader of the tree to say.
-/

namespace SignalGraph

inductive Json where
  | null
  | bool (b : Bool)
  | integer (n : Int)
  | double (x : Double)
  | single (x : Single)
  | string (s : String)
  /-- A well-formed text without a value: a number beyond all doubles, a string in which an escape
      names half of a character, an object with such a string for a name, or a collection inside
      too many others. -/
  | valueless
  | array (items : List Json)
  | object (members : List (String × Json))
  deriving Repr, Inhabited

namespace Json

/-- A number as a document; only finite ones have a spelling. -/
def ofDouble (x : Double) : Json := if x.isFinite then double x else null

def ofSingle (x : Single) : Json := if x.isFinite then single x else null

/-- Adds a member to an object whose members are sorted by name; the last of one name counts. -/
def insertMember (name : String) (value : Json) : List (String × Json) → List (String × Json)
  | [] => [(name, value)]
  | (other, v) :: rest =>
    if name < other then (name, value) :: (other, v) :: rest
    else if name = other then (name, value) :: rest
    else (other, v) :: insertMember name value rest

/-- The members sorted by name, the last of each name. -/
def sortMembers (members : List (String × Json)) : List (String × Json) :=
  members.foldl (fun sorted (name, value) => insertMember name value sorted) []

mutual

/-- The tree with the members of every object sorted by name and every number a 64-bit one. -/
def normalize : Json → Json
  | single x => ofDouble x.convert
  | array items => array (normalizeItems items)
  | object members => object (sortMembers (normalizeMembers members))
  | other => other

def normalizeItems : List Json → List Json
  | [] => []
  | item :: items => item.normalize :: normalizeItems items

def normalizeMembers : List (String × Json) → List (String × Json)
  | [] => []
  | (name, value) :: members => (name, value.normalize) :: normalizeMembers members

end

mutual

/-- Whether all parts of the tree have a value. -/
def isWhole : Json → Bool
  | valueless => false
  | array items => itemsWhole items
  | object members => membersWhole members
  | _ => true

def itemsWhole : List Json → Bool
  | [] => true
  | item :: items => item.isWhole && itemsWhole items

def membersWhole : List (String × Json) → Bool
  | [] => true
  | (_, value) :: members => value.isWhole && membersWhole members

end

end Json

end SignalGraph
