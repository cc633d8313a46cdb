import CanonTree.Text.Printable

/-!
# Quoted text

Text inside a dump stands between double quotes.  Quotes, backslashes and the
usual controls are written with a backslash, and every other character that is
not shown as it is by its code point.  So a quoted text stays on one line and
ends at its first bare quote.
-/

namespace CanonTree.Text

def escape (c : Char) : List Char :=
  if c = '\x00' then ['\\', '0']
  else if c = '\t' then ['\\', 't']
  else if c = '\r' then ['\\', 'r']
  else if c = '\n' then ['\\', 'n']
  else if c = '"' then ['\\', '"']
  else if c = '\\' then ['\\', '\\']
  else if isPrintable c then [c]
  else ['\\', 'u', '\x7b'] ++ Nat.toDigits 16 c.toNat ++ ['\x7d']

def quotedChars (text : List Char) : List Char :=
  '"' :: text.flatMap escape ++ ['"']

def quoted (text : String) : String :=
  String.ofList (quotedChars text.toList)

end CanonTree.Text
