import SignalGraph.Decimal.Layout
import SignalGraph.Value.Basic

/-! # Text of values

Values as people read them: vectors in brackets, strings in quotes.
-/

namespace SignalGraph

/-- A string in quotes, with a backslash before each quote in it. -/
def Text.inQuotes (s : String) : List Char :=
  '"' :: s.toList.flatMap (fun c => if c = '"' then ['\\', '"'] else [c]) ++ ['"']

def Scalar.text : Scalar → List Char
  | bool b => (if b then "true" else "false").toList
  | int32 n => Text.decimalInt n.toInt
  | int64 n => Text.decimalInt n.toInt
  | float32 x => DecimalLayout.plain.text x
  | float64 x => DecimalLayout.plain.text x
  | string s => Text.inQuotes s
  | time t => t.text.toList

def Value.text (v : Value) : String :=
  match v.scalars with
  | [] => "null"
  | [x] => String.ofList x.text
  | xs => String.ofList ('[' :: [',', ' '].intercalate (xs.map Scalar.text) ++ [']'])

end SignalGraph
