/-!
# Line endings

A file may end its lines with a line feed, a carriage return, or both.  When it is read
as text every ending becomes a line feed.
-/

namespace LanguageClient.Lines

/-- Every line ending becomes a line feed. -/
def normalize : List Char → List Char
  | [] => []
  | '\r' :: '\n' :: rest => '\n' :: normalize rest
  | c :: rest => (if c = '\r' then '\n' else c) :: normalize rest

/-- No carriage return is left. -/
theorem cr_not_mem_normalize (cs : List Char) : '\r' ∉ normalize cs := by
  fun_induction normalize cs with
  | case1 => simp
  | case2 rest ih => simpa using ih
  | case3 c rest _ ih =>
    by_cases h : c = '\r' <;> simp [h, ih, Ne.symm]

end LanguageClient.Lines
