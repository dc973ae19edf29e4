/-!
# Operators

The binary operators and the comparisons, with the symbols shown in messages and the tags used in data.
-/

namespace Scriptlet.Program

/-- A binary arithmetic operator. -/
inductive Operator where
  | add
  | sub
  | mul
  | floorDiv
  | mod
  deriving DecidableEq, Inhabited

/-- A comparison. -/
inductive Comparison where
  | eq
  | ne
  | lt
  | le
  | gt
  | ge
  | mem
  | notMem
  deriving DecidableEq, Inhabited

namespace Operator

def all : List Operator := [.add, .sub, .mul, .floorDiv, .mod]

/-- How the operator is written. -/
def symbol : Operator → String
  | .add => "+"
  | .sub => "-"
  | .mul => "*"
  | .floorDiv => "//"
  | .mod => "%"

/-- The tag of the operator in data. -/
def tag : Operator → String
  | .add => "Add"
  | .sub => "Sub"
  | .mul => "Mult"
  | .floorDiv => "FloorDiv"
  | .mod => "Mod"

def ofTag? (s : String) : Option Operator := all.find? fun op => op.tag = s

theorem ofTag?_tag (op : Operator) : ofTag? op.tag = some op := by
  cases op <;> decide

end Operator

namespace Comparison

def all : List Comparison := [.eq, .ne, .lt, .le, .gt, .ge, .mem, .notMem]

/-- How the comparison is written. -/
def symbol : Comparison → String
  | .eq => "=="
  | .ne => "!="
  | .lt => "<"
  | .le => "<="
  | .gt => ">"
  | .ge => ">="
  | .mem => "in"
  | .notMem => "not in"

/-- The tag of the comparison in data. -/
def tag : Comparison → String
  | .eq => "Eq"
  | .ne => "NotEq"
  | .lt => "Lt"
  | .le => "LtE"
  | .gt => "Gt"
  | .ge => "GtE"
  | .mem => "In"
  | .notMem => "NotIn"

def ofTag? (s : String) : Option Comparison := all.find? fun op => op.tag = s

theorem ofTag?_tag (op : Comparison) : ofTag? op.tag = some op := by
  cases op <;> decide

end Comparison

end Scriptlet.Program
