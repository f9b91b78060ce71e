/-! # Ranges of code points

A class of characters as the sorted edges of its ranges: a code point is in the class when it has
passed an odd number of edges.
-/
namespace DocumentMedia.Text

/-- The number of entries of `edges` from `lo` on, below `hi`, that are at most `n`. The entries
are sorted, so halving finds it. -/
def countEdges (edges : Array Nat) (n : Nat) : Nat → Nat → Nat → Nat
  | 0, lo, _ => lo
  | fuel + 1, lo, hi =>
    if lo < hi then
      let mid := (lo + hi) / 2
      if edges.getD mid 0 ≤ n then countEdges edges n fuel (mid + 1) hi
      else countEdges edges n fuel lo mid
    else lo

/-- Whether `n` lies in one of the ranges `[edges[0], edges[1])`, `[edges[2], edges[3])`, … -/
def inEdges (edges : Array Nat) (n : Nat) : Bool :=
  countEdges edges n (edges.size + 1) 0 edges.size % 2 == 1

end DocumentMedia.Text
