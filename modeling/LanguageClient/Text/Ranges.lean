import LanguageClient.Text.CodePoint

/-!
# Classes of code points as ranges

A character class of the Unicode standard is a list of ranges, each written by
its first and last member.  The ranges of one class are in increasing order and
do not touch.
-/

namespace LanguageClient.Ranges

/-- The number lies in one of the ranges. -/
def contains (ranges : List (Nat × Nat)) (n : Nat) : Bool :=
  ranges.any fun range => range.1 ≤ n && n ≤ range.2

/-- The ranges are in increasing order and do not touch. -/
def Separated : List (Nat × Nat) → Bool
  | [] => true
  | [a] => a.1 ≤ a.2
  | a :: b :: rest => a.1 ≤ a.2 && a.2 + 1 < b.1 && Separated (b :: rest)

end LanguageClient.Ranges
