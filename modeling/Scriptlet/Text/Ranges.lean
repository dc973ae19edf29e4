/-!
# Sets of characters given by ranges

A Unicode property is a set of code points, written as the ascending list of its maximal ranges. For look-up
the ranges are put into a tree that knows, at each fork, the least and the greatest code point below it, so
that a search leaves out what cannot hold the code point it looks for.
-/

namespace Scriptlet.Text

/-- Ranges of code points, arranged for look-up. -/
inductive RangeTree where
  | empty
  /-- One range, both ends included. -/
  | range (least greatest : Nat)
  /-- Two trees with bounds for the code points of both. -/
  | fork (least greatest : Nat) (left right : RangeTree)

namespace RangeTree

/-- A lower bound of the code points. -/
def least : RangeTree → Nat
  | .empty => 0
  | .range least _ => least
  | .fork least _ _ _ => least

/-- An upper bound of the code points. -/
def greatest : RangeTree → Nat
  | .empty => 0
  | .range _ greatest => greatest
  | .fork _ greatest _ _ => greatest

/-- Whether a code point lies in one of the ranges. -/
def contains : RangeTree → Nat → Bool
  | .empty, _ => false
  | .range least greatest, n => least ≤ n && n ≤ greatest
  | .fork least greatest left right, n =>
    least ≤ n && n ≤ greatest && (left.contains n || right.contains n)

/-- The ranges of two trees. -/
def join (left right : RangeTree) : RangeTree :=
  .fork (min left.least right.least) (max left.greatest right.greatest) left right

/-- The tree of some ranges, halved at most `depth` times. -/
def ofListWithin : (depth : Nat) → List (Nat × Nat) → RangeTree
  | _, [] => .empty
  | _, [r] => .range r.1 r.2
  | 0, r :: rs => join (.range r.1 r.2) (ofListWithin 0 rs)
  | depth + 1, rs =>
    join (ofListWithin depth (rs.take (rs.length / 2))) (ofListWithin depth (rs.drop (rs.length / 2)))

/-- The tree of some ranges. -/
def ofList (ranges : List (Nat × Nat)) : RangeTree := ofListWithin ranges.length.log2.succ ranges

end RangeTree

end Scriptlet.Text
