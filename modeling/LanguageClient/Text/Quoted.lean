import LanguageClient.Text.Printable
import LanguageClient.Text.Utf8

/-!
# Quoted texts and bytes

Messages show a text between quotes in the form that a reader could type: one
quote character is chosen, that quote and the backslash are escaped, and what
is not printable is written by its number.
-/

namespace LanguageClient.Quoted

/-- Single quotes, unless the content has single quotes and no double ones. -/
def quoteFor (hasSingle hasDouble : Bool) : CodePoint :=
  if hasSingle && !hasDouble then CodePoint.ofChar '"' else CodePoint.ofChar '\''

/-- The short escapes for tabulator, line feed and carriage return. -/
def control? (n : Nat) : Option Text :=
  if n = 0x09 then some "\\t"
  else if n = 0x0A then some "\\n"
  else if n = 0x0D then some "\\r"
  else none

/-- One code point of a quoted text. -/
def codePoint (quote c : CodePoint) : Text :=
  if c = quote || c.val = 0x5C then [CodePoint.ofChar '\\', c]
  else match control? c.val with
    | some escape => escape
    | none =>
      if c.isPrintable then [c]
      else if c.val < 0x100 then "\\x" ++ Text.hex 2 c.val
      else if c.val < 0x10000 then "\\u" ++ Text.hex 4 c.val
      else "\\U" ++ Text.hex 8 c.val

def text (t : Text) : Text :=
  let quote := quoteFor (t.any (·.val == 0x27)) (t.any (·.val == 0x22))
  [quote] ++ t.flatMap (codePoint quote) ++ [quote]

/-- One byte of a quoted byte string. -/
def byte (quote : CodePoint) (b : UInt8) : Text :=
  let c := CodePoint.ofNat b.toNat
  if c = quote || c.val = 0x5C then [CodePoint.ofChar '\\', c]
  else match control? c.val with
    | some escape => escape
    | none => if 0x20 ≤ c.val && c.val < 0x7F then [c] else "\\x" ++ Text.hex 2 c.val

/-- The byte string between quotes, marked by a `b`. -/
def bytes (bs : Bytes) : Text :=
  let quote := quoteFor (bs.contains 0x27) (bs.contains 0x22)
  [CodePoint.ofChar 'b', quote] ++ bs.flatMap (byte quote) ++ [quote]

end LanguageClient.Quoted
