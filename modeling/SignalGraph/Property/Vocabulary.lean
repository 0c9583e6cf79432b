/-! # Vocabularies

Properties whose text must be one of a few words, and those words.
-/

namespace SignalGraph

/-- A type whose members are words, listed in order. -/
class Vocabulary (α : Type) where
  words : List α
  text : α → String

def Vocabulary.ofText? {α : Type} [Vocabulary α] (s : String) : Option α :=
  (words (α := α)).find? fun w => text w == s

/-- The direction of a signal, seen from its device. -/
inductive Direction where
  | input
  | output
  deriving Repr, DecidableEq

instance : Vocabulary Direction where
  words := [.input, .output]
  text
    | .input => "input"
    | .output => "output"

/-- Which active instance gives up its slot when a pool is full. -/
inductive StealMode where
  | none
  | oldest
  | newest
  deriving Repr, DecidableEq

instance : Vocabulary StealMode where
  words := [.none, .oldest, .newest]
  text
    | .none => "none"
    | .oldest => "oldest"
    | .newest => "newest"

/-- Where the expression of a map is evaluated. -/
inductive ProcessLocation where
  | source
  | destination
  | any
  deriving Repr, DecidableEq

instance : Vocabulary ProcessLocation where
  words := [.source, .destination, .any]
  text
    | .source => "src"
    | .destination => "dst"
    | .any => "any"

/-- What carries the values of a map. -/
inductive Protocol where
  | udp
  | tcp
  deriving Repr, DecidableEq

instance : Vocabulary Protocol where
  words := [.udp, .tcp]
  text
    | .udp => "osc.udp"
    | .tcp => "osc.tcp"

/-- What a map slot does with values outside its bounds. -/
inductive BoundaryAction where
  | none
  | mute
  | clamp
  | fold
  | wrap
  deriving Repr, DecidableEq

instance : Vocabulary BoundaryAction where
  words := [.none, .mute, .clamp, .fold, .wrap]
  text
    | .none => "none"
    | .mute => "mute"
    | .clamp => "clamp"
    | .fold => "fold"
    | .wrap => "wrap"

end SignalGraph
