import SignalGraph.Property.Vocabulary
import SignalGraph.Value.Basic

/-! # Validation of properties

What the catalogue asks of a value: kind, then length, then words of the property's vocabulary.
Free names take any value.
-/

namespace SignalGraph

/-- A text as a word of a vocabulary, or the refusal to read it as one. -/
def readWord {α : Type} [Vocabulary α] (target : ReadTarget) (s : String) : Except Error α :=
  match Vocabulary.ofText? s with
  | some w => .ok w
  | none => .error (.unreadable s target)

def Kind.read (s : String) : Except Error Kind :=
  match Kind.ofText? s with
  | some k => .ok k
  | none => .error (.unreadable s .kindName)

namespace Property

/-- Whether a text is a word that the property's values may hold. -/
def checkWord (p : Property) (s : String) : Except Error Unit :=
  match p with
  | .direction => (readWord (α := Direction) .direction s).map fun _ => ()
  | .steal => (readWord (α := StealMode) .stealMode s).map fun _ => ()
  | .processLoc => (readWord (α := ProcessLocation) .processLocation s).map fun _ => ()
  | .protocol => (readWord (α := Protocol) .protocol s).map fun _ => ()
  | .boundMax | .boundMin => (readWord (α := BoundaryAction) .boundaryAction s).map fun _ => ()
  | .type => (Kind.read s).map fun _ => ()
  | _ => .ok ()

def validate (p : Property) (v : Value) : Except Error Unit :=
  if !p.rule.kind.accepts v.kind then .error (.mismatch (.propertyKind p v.kind))
  else
    match p.rule.length with
    | some n =>
      if v.size ≠ n then .error (.mismatch (.propertyLength p n v.size))
      else (v.toStrings?.getD []).forM p.checkWord
    | none => (v.toStrings?.getD []).forM p.checkWord

end Property

def Key.validate : Key → Value → Except Error Unit
  | wellKnown p, v => p.validate v
  | named _, _ => .ok ()

end SignalGraph
