import LanguageClient.Text.CodePoint

/-!
# Console markup

Markup puts styles into a text by tags in brackets, as in `[red]late[/red]`.  A bracket
opens a tag when a small letter, `#`, `/` or `@` follows it and it is closed before
another one opens.  A backslash before such a bracket takes that meaning from it.

Text that comes from elsewhere is escaped, so that none of its brackets opens a tag and
its last backslash does not reach into what follows.
-/

namespace LanguageClient.Markup

/-- The character that takes the meaning from a bracket. -/
def backslash : CodePoint := CodePoint.ofChar '\\'

def bracket : CodePoint := CodePoint.ofChar '['

/-- What a tag starts with: a small letter, a colour, an end, or an action. -/
def startsTag (c : CodePoint) : Bool :=
  (0x61 ≤ c.val && c.val ≤ 0x7A) || c == CodePoint.ofChar '#' || c == CodePoint.ofChar '/' ||
    c == CodePoint.ofChar '@'

/-- A closing bracket comes before the next opening one. -/
def closes : Text → Bool
  | [] => false
  | c :: rest => c == CodePoint.ofChar ']' || (c != bracket && closes rest)

/-- A bracket before this text opens a tag. -/
def opensTag : Text → Bool
  | [] => false
  | c :: rest => startsTag c && closes rest

/-- Escapes a text that follows `pending` backslashes. -/
def escapeFrom (pending : Nat) : Text → Text
  | [] => List.replicate pending backslash
  | c :: rest =>
    if c = backslash then escapeFrom (pending + 1) rest
    else if c = bracket ∧ opensTag rest then
      List.replicate (2 * pending + 1) backslash ++ c :: escapeFrom 0 rest
    else List.replicate pending backslash ++ c :: escapeFrom 0 rest

/-- The text ends in one backslash and not in two. -/
def endsInOneBackslash (t : Text) : Bool :=
  match t.reverse with
  | [] => false
  | [c] => c == backslash
  | c :: d :: _ => c == backslash && d != backslash

/-- The markup that stands for a text. -/
def escape (t : Text) : Text :=
  let escaped := escapeFrom 0 t
  if endsInOneBackslash escaped then escaped ++ [backslash] else escaped

def styled (style markup : Text) : Text :=
  Text.ofString "[" ++ style ++ Text.ofString "]" ++ markup ++ Text.ofString "[/" ++ style ++
    Text.ofString "]"

end LanguageClient.Markup
