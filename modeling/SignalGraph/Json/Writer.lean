import SignalGraph.Decimal.Layout
import SignalGraph.Json.Basic

/-! # Writing documents

The compact text of a document, and the indented one with a line for each item and member.
-/

namespace SignalGraph.Json

def escapedChar (c : Char) : List Char :=
  if c = '"' ∨ c = '\\' then ['\\', c]
  else if c.toNat = 0x8 then ['\\', 'b']
  else if c = '\t' then ['\\', 't']
  else if c = '\n' then ['\\', 'n']
  else if c.toNat = 0xc then ['\\', 'f']
  else if c = '\r' then ['\\', 'r']
  else if c.toNat < 0x20 then ['\\', 'u'] ++ Text.hexPadded 4 c.toNat
  else [c]

def stringText (s : String) : List Char := '"' :: s.toList.flatMap escapedChar ++ ['"']

def scalarText : Json → List Char
  | bool true => ['t', 'r', 'u', 'e']
  | bool false => ['f', 'a', 'l', 's', 'e']
  | integer n => Text.decimalInt n
  | double x => DecimalLayout.document.text x
  | single x => DecimalLayout.documentSingle.text x
  | string s => stringText s
  | _ => ['n', 'u', 'l', 'l']

/-! ## Compact text -/

mutual

def compact : Json → List Char
  | array items => '[' :: compactItems items ++ [']']
  | object members => '\x7b' :: compactMembers members ++ ['\x7d']
  | other => other.scalarText

def compactItems : List Json → List Char
  | [] => []
  | [item] => item.compact
  | item :: items => item.compact ++ ',' :: compactItems items

def compactMembers : List (String × Json) → List Char
  | [] => []
  | [(name, value)] => stringText name ++ ':' :: value.compact
  | (name, value) :: members =>
    stringText name ++ ':' :: value.compact ++ ',' :: compactMembers members

end

def compactText (j : Json) : String := String.ofList j.compact

/-! ## Indented text -/

def newLine (level : Nat) : List Char := '\n' :: List.replicate (2 * level) ' '

mutual

/-- The text with each item and member on a line of its own; a collection without any stays on
    one. -/
def indented (level : Nat) : Json → List Char
  | array [] => ['[', ']']
  | array items => '[' :: indentedItems (level + 1) items ++ newLine level ++ [']']
  | object [] => ['\x7b', '\x7d']
  | object members => '\x7b' :: indentedMembers (level + 1) members ++ newLine level ++ ['\x7d']
  | other => other.scalarText

def indentedItems (level : Nat) : List Json → List Char
  | [] => []
  | [item] => newLine level ++ item.indented level
  | item :: items => newLine level ++ item.indented level ++ ',' :: indentedItems level items

def indentedMembers (level : Nat) : List (String × Json) → List Char
  | [] => []
  | [(name, value)] => newLine level ++ stringText name ++ [':', ' '] ++ value.indented level
  | (name, value) :: members =>
    newLine level ++ stringText name ++ [':', ' '] ++ value.indented level ++
      ',' :: indentedMembers level members

end

def indentedText (j : Json) : String := String.ofList (j.indented 0)

end SignalGraph.Json
