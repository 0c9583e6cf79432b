import SignalGraph.Text.Digits
import SignalGraph.Text.Hidden

/-! # Quoted text

Text as a diagnostic shows it: in double quotes, with a backslash before quotes and backslashes,
and with short or numbered escapes for what would not show.
-/

namespace SignalGraph.Text

def quotedChar (c : Char) : List Char :=
  if c = '"' ∨ c = '\\' then ['\\', c]
  else if c = '\n' then ['\\', 'n']
  else if c = '\r' then ['\\', 'r']
  else if c = '\t' then ['\\', 't']
  else if c.toNat = 0 then ['\\', '0']
  else if isHidden c then ['\\', 'u', '\x7b'] ++ hexDigits c.toNat ++ ['\x7d']
  else [c]

/-- A text in double quotes with escapes. -/
def quoted (s : String) : String :=
  String.ofList ('"' :: s.toList.flatMap quotedChar ++ ['"'])

end SignalGraph.Text
