import SignalGraph.Object.Store

/-! # Trees

The live records of a store as lines for people to read: devices with their signals under them, then
maps, then links.
-/

namespace SignalGraph.Export

def unnamed : String := "<unnamed>"

/-- The line of a signal; `branch` joins it to its device. -/
def signalLine (branch : String) (r : Record) : String :=
  let direction := (r.direction?.map Vocabulary.text).getD "?"
  let kind := ((r.properties.get? (.wellKnown .type)).bind Value.toString?).getD "?"
  let length := ((r.properties.get? (.wellKnown .length)).bind Value.toInt32?).getD 1
  "  " ++ branch ++ " " ++ direction ++ " " ++ r.name?.getD unnamed ++ " [" ++ kind ++ " x" ++
    String.ofList (Text.decimalInt length.toInt) ++ "]"

/-- The lines of signals, of which the last closes the branch. -/
def signalLines : List Record → List String
  | [] => []
  | [r] => [signalLine "└─" r]
  | r :: rs => signalLine "├─" r :: signalLines rs

def deviceLines (s : Store) (r : Record) : List String :=
  (r.name?.getD unnamed ++ " (" ++ r.id.text ++ ")") ::
    signalLines ((s.live .signal).filter fun signal => signal.device? = some r.id)

/-- The name of an object that is held, else its identity. -/
def nameOf (s : Store) (id : ObjectId) : String :=
  ((s.find? id).bind s.fullName?).getD id.text

def mapLine (s : Store) (r : Record) : String :=
  "  [" ++ ", ".intercalate (r.sources.map (nameOf s)) ++ "] -> " ++
    (r.destination?.map (nameOf s)).getD "" ++ if r.isLocal then " (local)" else ""

def linkLine (s : Store) (r : Record) : String :=
  "  " ++ " <-> ".intercalate (r.linkEnds.map (nameOf s))

/-- Lines under a title, after an empty line; nothing if there are none. -/
def titled (title : String) (lines : List String) : List String :=
  if lines.isEmpty then [] else "" :: title :: lines

def treeLines (s : Store) : List String :=
  (s.live .device).flatMap (deviceLines s) ++
    titled "maps:" ((s.live .map).map (mapLine s)) ++
    titled "links:" ((s.live .link).map (linkLine s))

/-- The lines of a store, each ended. -/
def tree (s : Store) : String := "".intercalate ((treeLines s).map (· ++ "\n"))

end SignalGraph.Export
