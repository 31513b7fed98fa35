import LanguageClient.Text.Ranges

/-!
# Blank characters

The white space that is stripped from texts and at which commands are split:
the class White_Space of Unicode together with the four information separators
U+001C to U+001F.
-/

namespace LanguageClient

/-- White space, counting the information separators. -/
def CodePoint.isBlank (c : CodePoint) : Bool :=
  Ranges.contains
    [(0x9, 0xD), (0x1C, 0x20), (0x85, 0x85), (0xA0, 0xA0), (0x1680, 0x1680), (0x2000, 0x200A),
      (0x2028, 0x2029), (0x202F, 0x202F), (0x205F, 0x205F), (0x3000, 0x3000)] c.val

namespace Text

/-- The text without the blanks at either end. -/
def strip (t : Text) : Text := Cut.trim CodePoint.isBlank t

/-- The maximal runs of characters that are not blank. -/
def words (t : Text) : List Text :=
  let (last, done) := t.foldl
    (fun (current, done) c =>
      if c.isBlank then ([], if current.isEmpty then done else current.reverse :: done)
      else (c :: current, done))
    (([], []) : Text × List Text)
  (if last.isEmpty then done else last.reverse :: done).reverse

end Text

end LanguageClient
