/-!
# Ranges of code points

A property of characters is a list of closed ranges of code points. `CodeRanges.contains` looks a
code point up; `ascending` and `count` check a list that was written down.
-/

namespace LoxLang

/-- Closed ranges of code points, each as its first and its last member. -/
abbrev CodeRanges := List (Nat × Nat)

namespace CodeRanges

/-- A code point lies in one of the ranges. -/
def contains (ranges : CodeRanges) (code : Nat) : Bool :=
  ranges.any fun range => range.1 ≤ code && code ≤ range.2

/-- No range is empty, and each starts behind a gap after the one before it. -/
def ascending : CodeRanges → Bool
  | [] => true
  | [range] => range.1 ≤ range.2
  | range :: next :: rest =>
    range.1 ≤ range.2 && range.2 + 1 < next.1 && ascending (next :: rest)

/-- How many code points lie in ranges that ascend. -/
def count (ranges : CodeRanges) : Nat :=
  ranges.foldl (fun total range => total + (range.2 + 1 - range.1)) 0

theorem contains_iff {ranges : CodeRanges} {code : Nat} :
    ranges.contains code = true ↔ ∃ range ∈ ranges, range.1 ≤ code ∧ code ≤ range.2 := by
  simp [contains]

end CodeRanges

end LoxLang
