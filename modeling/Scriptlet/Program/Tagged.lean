import Scriptlet.Datum.Decode
import Scriptlet.Program.Tree

/-!
# Program trees as data

The tagged form of programs, one writer and one reader for each sort of tree. A reader is given a bound on
the nesting of the datum it reads and is called with the depth of that datum, which always suffices.
-/

namespace Scriptlet.Program

/-! ## Writing -/

mutual

def Expr.toDatum : Expr → Datum
  | .none => .text "None"
  | .bool b => .tagged "Bool" (.bool b)
  | .int n => .tagged "Int" (.int n.toInt)
  | .str s => .tagged "Str" (.text s)
  | .name x => .tagged "Name" (.text x)
  | .list items => .tagged "List" (.list (exprsToData items))
  | .tuple items => .tagged "Tuple" (.list (exprsToData items))
  | .dict entries => .tagged "Dict" (.list (entriesToData entries))
  | .index object index =>
    .tagged "Index" (.record [("object", object.toDatum), ("index", index.toDatum)])
  | .attr object attr =>
    .tagged "Attr" (.record [("object", object.toDatum), ("attr", .text attr)])
  | .call callee args =>
    .tagged "Call" (.record [("func", callee.toDatum), ("args", .list (argsToData args))])
  | .binary left op right =>
    .tagged "BinOp"
      (.record [("left", left.toDatum), ("op", .text op.tag), ("right", right.toDatum)])
  | .compare left op right =>
    .tagged "Compare"
      (.record [("left", left.toDatum), ("op", .text op.tag), ("right", right.toDatum)])
  | .not operand => .tagged "Not" operand.toDatum
  | .neg operand => .tagged "Neg" operand.toDatum
  | .and left right => .tagged "And" (.list [left.toDatum, right.toDatum])
  | .or left right => .tagged "Or" (.list [left.toDatum, right.toDatum])
  | .cond test body orelse =>
    .tagged "IfElse"
      (.record [("test", test.toDatum), ("body", body.toDatum), ("orelse", orelse.toDatum)])
  | .lambda params body =>
    .tagged "Lambda" (.record [("params", .list (paramsToData params)), ("body", body.toDatum)])

def exprsToData : List Expr → List Datum
  | [] => []
  | e :: es => e.toDatum :: exprsToData es

def entriesToData : List (Expr × Expr) → List Datum
  | [] => []
  | (k, v) :: es => .list [k.toDatum, v.toDatum] :: entriesToData es

def Param.toDatum : Param → Datum
  | .required x => .tagged "Required" (.text x)
  | .defaulted x value => .tagged "Default" (.list [.text x, value.toDatum])
  | .rest x => .tagged "Args" (.text x)
  | .bareStar => .text "KwOnlyMarker"
  | .keywords x => .tagged "Kwargs" (.text x)

def paramsToData : List Param → List Datum
  | [] => []
  | p :: ps => p.toDatum :: paramsToData ps

def Arg.toDatum : Arg → Datum
  | .positional value => .tagged "Positional" value.toDatum
  | .keyword x value => .tagged "Keyword" (.list [.text x, value.toDatum])
  | .spread value => .tagged "Star" value.toDatum
  | .spreadKeywords value => .tagged "StarStar" value.toDatum

def argsToData : List Arg → List Datum
  | [] => []
  | a :: as => a.toDatum :: argsToData as

end

mutual

def Target.toDatum : Target → Datum
  | .name x => .tagged "Name" (.text x)
  | .index object index =>
    .tagged "Index" (.record [("object", object.toDatum), ("index", index.toDatum)])
  | .tuple targets => .tagged "Tuple" (.list (targetsToData targets))

def targetsToData : List Target → List Datum
  | [] => []
  | t :: ts => t.toDatum :: targetsToData ts

end

mutual

def Stmt.toDatum : Stmt → Datum
  | .expr e => .tagged "Expr" e.toDatum
  | .assign target value =>
    .tagged "Assign" (.record [("target", target.toDatum), ("value", value.toDatum)])
  | .augment target op value =>
    .tagged "AugAssign"
      (.record [("target", target.toDatum), ("op", .text op.tag), ("value", value.toDatum)])
  | .branch test body orelse =>
    .tagged "If"
      (.record [("test", test.toDatum), ("body", .list (blockToData body)),
        ("orelse", .list (blockToData orelse))])
  | .loop target iter body =>
    .tagged "For"
      (.record [("target", target.toDatum), ("iter", iter.toDatum),
        ("body", .list (blockToData body))])
  | .leaveLoop => .text "Break"
  | .nextRound => .text "Continue"
  | .pass => .text "Pass"
  | .giveBack value => .tagged "Return" (.ofOption Expr.toDatum value)
  | .define name params body =>
    .tagged "Def"
      (.record [("name", .text name), ("params", .list (paramsToData params)),
        ("body", .list (blockToData body))])

def blockToData : List Stmt → List Datum
  | [] => []
  | s :: ss => s.toDatum :: blockToData ss

end

/-! ## Reading -/

def Operator.ofDatum? (d : Datum) : Option Operator :=
  d.oneOf? (Operator.all.map fun op => (op.tag, .unit op))

def Comparison.ofDatum? (d : Datum) : Option Comparison :=
  d.oneOf? (Comparison.all.map fun op => (op.tag, .unit op))

mutual

/-- Reads an expression nested at most `n` deep. -/
def Expr.read : Nat → Datum → Option Expr
  | 0, _ => Option.none
  | n + 1, d => d.oneOf? [
      ("None", .unit .none),
      ("Bool", .one .bool Datum.bool?),
      ("Int", .one .int Datum.integer?),
      ("Str", .one .str Datum.text?),
      ("Name", .one .name Datum.text?),
      ("List", .one .list (Datum.list? (Expr.read n))),
      ("Tuple", .one .tuple (Datum.list? (Expr.read n))),
      ("Dict", .one .dict (Datum.list? (Datum.pair? (Expr.read n) (Expr.read n)))),
      ("Index", .named fun r => do
        return .index (← Datum.required? r "object" (Expr.read n))
          (← Datum.required? r "index" (Expr.read n))),
      ("Attr", .named fun r => do
        return .attr (← Datum.required? r "object" (Expr.read n))
          (← Datum.required? r "attr" Datum.text?)),
      ("Call", .named fun r => do
        return .call (← Datum.required? r "func" (Expr.read n))
          (← Datum.required? r "args" (Datum.list? (Arg.read n)))),
      ("BinOp", .named fun r => do
        return .binary (← Datum.required? r "left" (Expr.read n))
          (← Datum.required? r "op" Operator.ofDatum?)
          (← Datum.required? r "right" (Expr.read n))),
      ("Compare", .named fun r => do
        return .compare (← Datum.required? r "left" (Expr.read n))
          (← Datum.required? r "op" Comparison.ofDatum?)
          (← Datum.required? r "right" (Expr.read n))),
      ("Not", .one .not (Expr.read n)),
      ("Neg", .one .neg (Expr.read n)),
      ("And", .two .and (Expr.read n) (Expr.read n)),
      ("Or", .two .or (Expr.read n) (Expr.read n)),
      ("IfElse", .named fun r => do
        return .cond (← Datum.required? r "test" (Expr.read n))
          (← Datum.required? r "body" (Expr.read n))
          (← Datum.required? r "orelse" (Expr.read n))),
      ("Lambda", .named fun r => do
        return .lambda (← Datum.required? r "params" (Datum.list? (Param.read n)))
          (← Datum.required? r "body" (Expr.read n)))]

/-- Reads a parameter nested at most `n` deep. -/
def Param.read : Nat → Datum → Option Param
  | 0, _ => Option.none
  | n + 1, d => d.oneOf? [
      ("Required", .one .required Datum.text?),
      ("Default", .two .defaulted Datum.text? (Expr.read n)),
      ("Args", .one .rest Datum.text?),
      ("KwOnlyMarker", .unit .bareStar),
      ("Kwargs", .one .keywords Datum.text?)]

/-- Reads an argument nested at most `n` deep. -/
def Arg.read : Nat → Datum → Option Arg
  | 0, _ => Option.none
  | n + 1, d => d.oneOf? [
      ("Positional", .one .positional (Expr.read n)),
      ("Keyword", .two .keyword Datum.text? (Expr.read n)),
      ("Star", .one .spread (Expr.read n)),
      ("StarStar", .one .spreadKeywords (Expr.read n))]

end

/-- Reads a target nested at most `n` deep. -/
def Target.read : Nat → Datum → Option Target
  | 0, _ => none
  | n + 1, d => d.oneOf? [
      ("Name", .one .name Datum.text?),
      ("Index", .named fun r => do
        return .index (← Datum.required? r "object" (Expr.read n))
          (← Datum.required? r "index" (Expr.read n))),
      ("Tuple", .one .tuple (Datum.list? (Target.read n)))]

/-- Reads the three parts of a definition, as a record or as a list in this order. -/
def readDefinition (n : Nat) (block : Datum → Option (List Stmt)) : Datum → Option Stmt
  | .record r => do
    return .define (← Datum.required? r "name" Datum.text?)
      (← Datum.required? r "params" (Datum.list? (Param.read n)))
      (← Datum.required? r "body" block)
  | .list [name, params, body] => do
    return .define (← name.text?) (← params.list? (Param.read n)) (← block body)
  | _ => none

/-- Reads a statement nested at most `n` deep. -/
def Stmt.read : Nat → Datum → Option Stmt
  | 0, _ => none
  | n + 1, d => d.oneOf? [
      ("Expr", .one .expr (Expr.read n)),
      ("Assign", .named fun r => do
        return .assign (← Datum.required? r "target" (Target.read n))
          (← Datum.required? r "value" (Expr.read n))),
      ("AugAssign", .named fun r => do
        return .augment (← Datum.required? r "target" (Target.read n))
          (← Datum.required? r "op" Operator.ofDatum?)
          (← Datum.required? r "value" (Expr.read n))),
      ("If", .named fun r => do
        return .branch (← Datum.required? r "test" (Expr.read n))
          (← Datum.required? r "body" (Datum.list? (Stmt.read n)))
          (← Datum.required? r "orelse" (Datum.list? (Stmt.read n)))),
      ("For", .named fun r => do
        return .loop (← Datum.required? r "target" (Target.read n))
          (← Datum.required? r "iter" (Expr.read n))
          (← Datum.required? r "body" (Datum.list? (Stmt.read n)))),
      ("Break", .unit .leaveLoop),
      ("Continue", .unit .nextRound),
      ("Pass", .unit .pass),
      ("Return", .one .giveBack (Datum.optional? (Expr.read n))),
      ("Def", .one id (readDefinition n (Datum.list? (Stmt.read n))))]

/-- Reads an expression. -/
def Expr.ofDatum? (d : Datum) : Option Expr := Expr.read d.depth d

/-- Reads a statement. -/
def Stmt.ofDatum? (d : Datum) : Option Stmt := Stmt.read d.depth d

/-- Writes a program. -/
def toDatum (program : List Stmt) : Datum := .list (blockToData program)

/-- Reads a program. -/
def ofDatum? (d : Datum) : Option (List Stmt) := d.list? Stmt.ofDatum?

end Scriptlet.Program
