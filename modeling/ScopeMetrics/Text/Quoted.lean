import ScopeMetrics.Text.Visible

/-!
# Quoted text

A text between quotes, as messages show it.  Single quotes are used unless the text holds one and
holds no double quote; the quote in use, the backslash and what has no visible form are escaped.
-/

namespace ScopeMetrics.Text

/-- The last `width` hexadecimal digits of a number, small letters, filled with zeros. -/
def hex (width n : Nat) : String :=
  let digits := Nat.toDigits 16 n
  String.ofList (List.replicate (width - digits.length) '0' ++ digits)

/-- One character of a text between two `quote` characters. -/
def escaped (quote c : Char) : String :=
  if c = quote then String.ofList ['\\', c]
  else if c = '\\' then "\\\\"
  else if c = '\n' then "\\n"
  else if c = '\r' then "\\r"
  else if c = '\t' then "\\t"
  else if isVisible c then c.toString
  else if c.toNat < 0x100 then "\\x" ++ hex 2 c.toNat
  else if c.toNat < 0x10000 then "\\u" ++ hex 4 c.toNat
  else "\\U" ++ hex 8 c.toNat

/-- The quote that a text is shown with. -/
def quoteFor (s : String) : Char :=
  if s.toList.contains '\'' && !s.toList.contains '"' then '"' else '\''

/-- The text between quotes. -/
def quoted (s : String) : String :=
  let q := quoteFor s
  q.toString ++ String.join (s.toList.map (escaped q)) ++ q.toString

end ScopeMetrics.Text
