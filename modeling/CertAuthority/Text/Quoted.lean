import CertAuthority.Text.Extending
import CertAuthority.Text.Numeral

namespace CertAuthority.Text

/-- One character of a quoted text. Quote and backslash take a backslash, the usual controls
their letter, and what has no visible form of its own its code point in hexadecimal. -/
def quotedChar (c : Char) : String :=
  if c = '"' then "\\\""
  else if c = '\\' then "\\\\"
  else if c = '\n' then "\\n"
  else if c = '\r' then "\\r"
  else if c = '\t' then "\\t"
  else if c.toNat = 0 then "\\0"
  else if isExtending c || !isVisible c then
    "\\u" ++ "\x7b" ++ Numeral.hexadecimal c.toNat ++ "\x7d"
  else c.toString

def quoted (s : String) : String := "\"" ++ String.join (s.toList.map quotedChar) ++ "\""

end CertAuthority.Text
