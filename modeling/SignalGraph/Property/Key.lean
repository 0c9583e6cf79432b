import SignalGraph.Property.Catalogue

/-! # Property keys

A key is a well-known property or a free name. Reading a key settles which: a well-known property
is found with or without its sign and by a few long forms, so that no free name spells one.
-/

namespace SignalGraph

inductive Key where
  | wellKnown (property : Property)
  | named (name : String)
  deriving Repr, DecidableEq

/-- A text without the sign of a well-known property in front of it. -/
def Property.bareName (s : String) : String :=
  match s.toList with
  | '@' :: rest => String.ofList rest
  | _ => s

def Property.ofText? (s : String) : Option Property :=
  match bareName s with
  | "expression" => some .expr
  | "maximum" => some .max
  | "minimum" => some .min
  | bare => all.find? fun p => bareName p.text == bare

namespace Key

def ofText (s : String) : Key :=
  match Property.ofText? s with
  | some p => wellKnown p
  | none => named s

def text : Key → String
  | wellKnown p => p.text
  | named s => s

end Key

end SignalGraph
