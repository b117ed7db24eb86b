/-!
# Character classes as sorted ranges

A Unicode property is given as a list of inclusive code point ranges in increasing order. Because
the list is sorted, the search for a code point stops at the first range that begins after it.
-/

namespace ApiCoverage.Text

/-- Inclusive ranges of code points. -/
abbrev CharRanges := List (Nat × Nat)

/-- Whether a code point lies in one of the ranges, which are sorted. -/
def CharRanges.covers : CharRanges → Nat → Bool
  | [], _ => false
  | (first, last) :: rest, code =>
      if code < first then false
      else if code ≤ last then true
      else CharRanges.covers rest code

end ApiCoverage.Text
