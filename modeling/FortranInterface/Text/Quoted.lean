import FortranInterface.Text.Visible

/-!
Texts between double quotes, as listings and messages show them. A quote and a backslash are
escaped, the common control characters have a letter each, and any other character that is not
visible is shown by its code point in hexadecimal.
-/

namespace FortranInterface.Text

def codePoint (c : Char) : String :=
  "\\u\x7b" ++ String.ofList (Nat.toDigits 16 c.toNat) ++ "\x7d"

def escaped (c : Char) : String :=
  if c = '"' then "\\\""
  else if c = '\\' then "\\\\"
  else if c = '\t' then "\\t"
  else if c = '\r' then "\\r"
  else if c = '\n' then "\\n"
  else if c = Char.ofNat 0 then "\\0"
  else if isVisible c then c.toString
  else codePoint c

def quoted (text : String) : String :=
  "\"" ++ String.join (text.toList.map escaped) ++ "\""

end FortranInterface.Text
