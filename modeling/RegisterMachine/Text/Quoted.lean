import RegisterMachine.Numeral
import RegisterMachine.Text.Unprintable

/-!
Text between double quotes. Quotes and backslashes are escaped, and so is every character that has
no shape of its own.
-/

namespace RegisterMachine.Text

/-- A character without a shape is written as its code point. -/
def escape (char : Char) : String :=
  if char = '"' then "\\\""
  else if char = '\\' then "\\\\"
  else if char = '\n' then "\\n"
  else if char = '\r' then "\\r"
  else if char = '\t' then "\\t"
  else if char = '\x00' then "\\0"
  else if isUnprintable char then "\\u\x7b" ++ Numeral.render 16 char.toNat ++ "\x7d"
  else String.singleton char

/-- The quotes themselves are never escaped. -/
def quoted (text : String) : String :=
  "\"" ++ String.join (text.toList.map escape) ++ "\""

/-- A list of texts is written in square brackets. -/
def quotedList (texts : List String) : String :=
  "[" ++ ", ".intercalate (texts.map quoted) ++ "]"

end RegisterMachine.Text
