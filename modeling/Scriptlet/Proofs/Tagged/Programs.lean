import Scriptlet.Program.Tagged

/-!
# Programs are read back from their tagged form

What was written is read as what it was, however deep it is nested: two variants never share a tag, a variant that
carries nothing is told apart from one that carries null, and the bound that a reader is given, the nesting of the
datum, always suffices.
-/

namespace Scriptlet

/-! ## Shapes of data -/

namespace Datum

/-- Every datum takes one step to read, so a bound of 0 reads nothing. -/
theorem depth_pos (d : Datum) : 0 < d.depth := by
  cases d <;> simp [depth]

section shapes

variable {α β γ : Type}

theorem depth_tagged (tag : String) (d : Datum) : (tagged tag d).depth = d.depth + 1 := by
  simp [tagged, depth, depthFields]

theorem oneOf?_tagged (table : List (String × Payload α)) (tag : String) (d : Datum) :
    (tagged tag d).oneOf? table = (table.lookup tag).bind (· (some d)) := rfl

@[simp]
theorem list?_list (read : Datum → Option α) (ds : List Datum) : (list ds).list? read = ds.mapM read := rfl

@[simp]
theorem pair?_list (first : Datum → Option α) (second : Datum → Option β) (a b : Datum) :
    pair? first second (.list [a, b]) = do return (← first a, ← second b) := rfl

@[simp]
theorem Payload.one_some (f : α → β) (read : Datum → Option α) (d : Datum) :
    Payload.one f read (some d) = (read d).map f := rfl

@[simp]
theorem Payload.two_some (f : α → β → γ) (first : Datum → Option α) (second : Datum → Option β)
    (d : Datum) : Payload.two f first second (some d) = (pair? first second d).map fun p => f p.1 p.2 :=
  rfl

@[simp]
theorem Payload.named_record (read : List (String × Datum) → Option α) (fields : List (String × Datum)) :
    Payload.named read (some (.record fields)) = read fields := rfl

@[simp]
theorem text?_text (s : String) : (text s).text? = some s := rfl

@[simp]
theorem bool?_bool (b : Bool) : (bool b).bool? = some b := rfl

@[simp]
theorem integer?_int (n : Integer) : (int n.toInt).integer? = some n := Integer.ofInt?_toInt n

end shapes

/-- The first field has the name that is asked for. -/
@[simp]
theorem required?_cons_self {α : Type} (fields : List (String × Datum)) (name : String) (d : Datum)
    (read : Datum → Option α) : required? ((name, d) :: fields) name read = read d := by
  simp [required?, field?]

/-- The first field has another name. -/
theorem required?_cons_ne {α : Type} (fields : List (String × Datum)) {name other : String}
    (h : name ≠ other) (d : Datum) (read : Datum → Option α) :
    required? ((other, d) :: fields) name read = required? fields name read := by
  simp [required?, field?, List.lookup_cons, beq_false_of_ne h]

end Datum

/-! ## Programs -/

namespace Program

open Datum

theorem Operator.ofDatum?_tag (op : Operator) : Operator.ofDatum? (.text op.tag) = some op := by
  cases op <;> decide

theorem Comparison.ofDatum?_tag (op : Comparison) : Comparison.ofDatum? (.text op.tag) = some op := by
  cases op <;> decide

mutual

/-- An expression is read back from its tagged form within any bound that allows for its nesting. One case for each
constructor. -/
theorem Expr.read_toDatum : (n : Nat) → (e : Expr) → e.toDatum.depth ≤ n → Expr.read n e.toDatum = some e
  | 0, e, h => absurd h (Nat.not_le_of_gt e.toDatum.depth_pos)
  | n + 1, .none, _ => rfl
  | n + 1, .bool b, _ => rfl
  | n + 1, .int i, h => by
    rw [Expr.toDatum, Expr.read, oneOf?_tagged]
    simp [List.lookup_cons]
  | n + 1, .str s, _ => rfl
  | n + 1, .name x, _ => rfl
  | n + 1, .list items, h => by
    rw [Expr.toDatum, depth_tagged] at h
    have inner := mapM_read_exprs n items (by simp only [depth] at h; omega)
    rw [Expr.toDatum, Expr.read, oneOf?_tagged]
    simp [List.lookup_cons, inner]
  | n + 1, .tuple items, h => by
    rw [Expr.toDatum, depth_tagged] at h
    have inner := mapM_read_exprs n items (by simp only [depth] at h; omega)
    rw [Expr.toDatum, Expr.read, oneOf?_tagged]
    simp [List.lookup_cons, inner]
  | n + 1, .dict entries, h => by
    rw [Expr.toDatum, depth_tagged] at h
    have inner := mapM_read_entries n entries (by simp only [depth] at h; omega)
    rw [Expr.toDatum, Expr.read, oneOf?_tagged]
    simp [List.lookup_cons, inner]
  | n + 1, .index object index, h => by
    simp only [Expr.toDatum, depth_tagged, depth, depthFields] at h
    have object_read := object.read_toDatum n (by omega)
    have index_read := index.read_toDatum n (by omega)
    rw [Expr.toDatum, Expr.read, oneOf?_tagged]
    simp [List.lookup_cons, required?_cons_ne, object_read, index_read]
  | n + 1, .attr object attr, h => by
    simp only [Expr.toDatum, depth_tagged, depth, depthFields] at h
    have object_read := object.read_toDatum n (by omega)
    rw [Expr.toDatum, Expr.read, oneOf?_tagged]
    simp [List.lookup_cons, required?_cons_ne, object_read]
  | n + 1, .call callee args, h => by
    simp only [Expr.toDatum, depth_tagged, depth, depthFields] at h
    have callee_read := callee.read_toDatum n (by omega)
    have args_read := mapM_read_args n args (by omega)
    rw [Expr.toDatum, Expr.read, oneOf?_tagged]
    simp [List.lookup_cons, required?_cons_ne, callee_read, args_read]
  | n + 1, .binary left op right, h => by
    simp only [Expr.toDatum, depth_tagged, depth, depthFields] at h
    have left_read := left.read_toDatum n (by omega)
    have right_read := right.read_toDatum n (by omega)
    rw [Expr.toDatum, Expr.read, oneOf?_tagged]
    simp [List.lookup_cons, required?_cons_ne, left_read, right_read, op.ofDatum?_tag]
  | n + 1, .compare left op right, h => by
    simp only [Expr.toDatum, depth_tagged, depth, depthFields] at h
    have left_read := left.read_toDatum n (by omega)
    have right_read := right.read_toDatum n (by omega)
    rw [Expr.toDatum, Expr.read, oneOf?_tagged]
    simp [List.lookup_cons, required?_cons_ne, left_read, right_read, op.ofDatum?_tag]
  | n + 1, .not operand, h => by
    rw [Expr.toDatum, depth_tagged] at h
    have operand_read := operand.read_toDatum n (by omega)
    rw [Expr.toDatum, Expr.read, oneOf?_tagged]
    simp [List.lookup_cons, operand_read]
  | n + 1, .neg operand, h => by
    rw [Expr.toDatum, depth_tagged] at h
    have operand_read := operand.read_toDatum n (by omega)
    rw [Expr.toDatum, Expr.read, oneOf?_tagged]
    simp [List.lookup_cons, operand_read]
  | n + 1, .and left right, h => by
    simp only [Expr.toDatum, depth_tagged, depth, depthList] at h
    have left_read := left.read_toDatum n (by omega)
    have right_read := right.read_toDatum n (by omega)
    rw [Expr.toDatum, Expr.read, oneOf?_tagged]
    simp [List.lookup_cons, left_read, right_read]
  | n + 1, .or left right, h => by
    simp only [Expr.toDatum, depth_tagged, depth, depthList] at h
    have left_read := left.read_toDatum n (by omega)
    have right_read := right.read_toDatum n (by omega)
    rw [Expr.toDatum, Expr.read, oneOf?_tagged]
    simp [List.lookup_cons, left_read, right_read]
  | n + 1, .cond test body orelse, h => by
    simp only [Expr.toDatum, depth_tagged, depth, depthFields] at h
    have test_read := test.read_toDatum n (by omega)
    have body_read := body.read_toDatum n (by omega)
    have orelse_read := orelse.read_toDatum n (by omega)
    rw [Expr.toDatum, Expr.read, oneOf?_tagged]
    simp [List.lookup_cons, required?_cons_ne, test_read, body_read, orelse_read]
  | n + 1, .lambda params body, h => by
    simp only [Expr.toDatum, depth_tagged, depth, depthFields] at h
    have params_read := mapM_read_params n params (by omega)
    have body_read := body.read_toDatum n (by omega)
    rw [Expr.toDatum, Expr.read, oneOf?_tagged]
    simp [List.lookup_cons, required?_cons_ne, params_read, body_read]

theorem mapM_read_exprs (n : Nat) : (es : List Expr) → depthList (exprsToData es) ≤ n →
    (exprsToData es).mapM (Expr.read n) = some es
  | [], _ => rfl
  | e :: es, h => by
    simp only [exprsToData, depthList] at h
    have first := e.read_toDatum n (by omega)
    have rest := mapM_read_exprs n es (by omega)
    simp [exprsToData, first, rest]

theorem mapM_read_entries (n : Nat) : (es : List (Expr × Expr)) → depthList (entriesToData es) ≤ n →
    (entriesToData es).mapM (pair? (Expr.read n) (Expr.read n)) = some es
  | [], _ => rfl
  | (k, v) :: es, h => by
    simp only [entriesToData, depthList, depth] at h
    have key_read := k.read_toDatum n (by omega)
    have value_read := v.read_toDatum n (by omega)
    have rest := mapM_read_entries n es (by omega)
    simp [entriesToData, key_read, value_read, rest]

theorem Param.read_toDatum : (n : Nat) → (p : Param) → p.toDatum.depth ≤ n →
    Param.read n p.toDatum = some p
  | 0, p, h => absurd h (Nat.not_le_of_gt p.toDatum.depth_pos)
  | n + 1, .required x, _ => rfl
  | n + 1, .defaulted x value, h => by
    simp only [Param.toDatum, depth_tagged, depth, depthList] at h
    have value_read := value.read_toDatum n (by omega)
    rw [Param.toDatum, Param.read, oneOf?_tagged]
    simp [List.lookup_cons, value_read]
  | n + 1, .rest x, _ => rfl
  | n + 1, .bareStar, _ => rfl
  | n + 1, .keywords x, _ => rfl

theorem mapM_read_params (n : Nat) : (ps : List Param) → depthList (paramsToData ps) ≤ n →
    (paramsToData ps).mapM (Param.read n) = some ps
  | [], _ => rfl
  | p :: ps, h => by
    simp only [paramsToData, depthList] at h
    have first := p.read_toDatum n (by omega)
    have rest := mapM_read_params n ps (by omega)
    simp [paramsToData, first, rest]

theorem Arg.read_toDatum : (n : Nat) → (a : Arg) → a.toDatum.depth ≤ n → Arg.read n a.toDatum = some a
  | 0, a, h => absurd h (Nat.not_le_of_gt a.toDatum.depth_pos)
  | n + 1, .positional value, h => by
    rw [Arg.toDatum, depth_tagged] at h
    have value_read := value.read_toDatum n (by omega)
    rw [Arg.toDatum, Arg.read, oneOf?_tagged]
    simp [value_read]
  | n + 1, .keyword x value, h => by
    simp only [Arg.toDatum, depth_tagged, depth, depthList] at h
    have value_read := value.read_toDatum n (by omega)
    rw [Arg.toDatum, Arg.read, oneOf?_tagged]
    simp [List.lookup_cons, value_read]
  | n + 1, .spread value, h => by
    rw [Arg.toDatum, depth_tagged] at h
    have value_read := value.read_toDatum n (by omega)
    rw [Arg.toDatum, Arg.read, oneOf?_tagged]
    simp [List.lookup_cons, value_read]
  | n + 1, .spreadKeywords value, h => by
    rw [Arg.toDatum, depth_tagged] at h
    have value_read := value.read_toDatum n (by omega)
    rw [Arg.toDatum, Arg.read, oneOf?_tagged]
    simp [List.lookup_cons, value_read]

theorem mapM_read_args (n : Nat) : (as : List Arg) → depthList (argsToData as) ≤ n →
    (argsToData as).mapM (Arg.read n) = some as
  | [], _ => rfl
  | a :: as, h => by
    simp only [argsToData, depthList] at h
    have first := a.read_toDatum n (by omega)
    have rest := mapM_read_args n as (by omega)
    simp [argsToData, first, rest]

end

mutual

theorem Target.read_toDatum : (n : Nat) → (t : Target) → t.toDatum.depth ≤ n →
    Target.read n t.toDatum = some t
  | 0, t, h => absurd h (Nat.not_le_of_gt t.toDatum.depth_pos)
  | n + 1, .name x, _ => rfl
  | n + 1, .index object index, h => by
    simp only [Target.toDatum, depth_tagged, depth, depthFields] at h
    have object_read := object.read_toDatum n (by omega)
    have index_read := index.read_toDatum n (by omega)
    rw [Target.toDatum, Target.read, oneOf?_tagged]
    simp [List.lookup_cons, required?_cons_ne, object_read, index_read]
  | n + 1, .tuple targets, h => by
    rw [Target.toDatum, depth_tagged] at h
    have inner := mapM_read_targets n targets (by simp only [depth] at h; omega)
    rw [Target.toDatum, Target.read, oneOf?_tagged]
    simp [List.lookup_cons, inner]

theorem mapM_read_targets (n : Nat) : (ts : List Target) → depthList (targetsToData ts) ≤ n →
    (targetsToData ts).mapM (Target.read n) = some ts
  | [], _ => rfl
  | t :: ts, h => by
    simp only [targetsToData, depthList] at h
    have first := t.read_toDatum n (by omega)
    have rest := mapM_read_targets n ts (by omega)
    simp [targetsToData, first, rest]

end

/-- A value that may be absent is written as null if it is, and no expression is. -/
theorem optional?_read_ofOption (n : Nat) (value : Option Expr) (h : (ofOption Expr.toDatum value).depth ≤ n) :
    (ofOption Expr.toDatum value).optional? (Expr.read n) = some value := by
  cases value with
  | none => rfl
  | some e =>
    have value_read := e.read_toDatum n h
    have present : e.toDatum ≠ .null := by
      cases e <;> simp [Expr.toDatum, tagged]
    simp only [ofOption]
    generalize e.toDatum = d at value_read present
    cases d <;> first | exact absurd rfl present | simp [optional?, value_read]

mutual

/-- So is a statement. -/
theorem Stmt.read_toDatum : (n : Nat) → (s : Stmt) → s.toDatum.depth ≤ n → Stmt.read n s.toDatum = some s
  | 0, s, h => absurd h (Nat.not_le_of_gt s.toDatum.depth_pos)
  | n + 1, .expr e, h => by
    rw [Stmt.toDatum, depth_tagged] at h
    have e_read := e.read_toDatum n (by omega)
    rw [Stmt.toDatum, Stmt.read, oneOf?_tagged]
    simp [e_read]
  | n + 1, .assign target value, h => by
    simp only [Stmt.toDatum, depth_tagged, depth, depthFields] at h
    have target_read := target.read_toDatum n (by omega)
    have value_read := value.read_toDatum n (by omega)
    rw [Stmt.toDatum, Stmt.read, oneOf?_tagged]
    simp [List.lookup_cons, required?_cons_ne, target_read, value_read]
  | n + 1, .augment target op value, h => by
    simp only [Stmt.toDatum, depth_tagged, depth, depthFields] at h
    have target_read := target.read_toDatum n (by omega)
    have value_read := value.read_toDatum n (by omega)
    rw [Stmt.toDatum, Stmt.read, oneOf?_tagged]
    simp [List.lookup_cons, required?_cons_ne, target_read, value_read, op.ofDatum?_tag]
  | n + 1, .branch test body orelse, h => by
    simp only [Stmt.toDatum, depth_tagged, depth, depthFields] at h
    have test_read := test.read_toDatum n (by omega)
    have body_read := mapM_read_block n body (by omega)
    have orelse_read := mapM_read_block n orelse (by omega)
    rw [Stmt.toDatum, Stmt.read, oneOf?_tagged]
    simp [List.lookup_cons, required?_cons_ne, test_read, body_read, orelse_read]
  | n + 1, .loop target iter body, h => by
    simp only [Stmt.toDatum, depth_tagged, depth, depthFields] at h
    have target_read := target.read_toDatum n (by omega)
    have iter_read := iter.read_toDatum n (by omega)
    have body_read := mapM_read_block n body (by omega)
    rw [Stmt.toDatum, Stmt.read, oneOf?_tagged]
    simp [List.lookup_cons, required?_cons_ne, target_read, iter_read, body_read]
  | n + 1, .leaveLoop, _ => rfl
  | n + 1, .nextRound, _ => rfl
  | n + 1, .pass, _ => rfl
  | n + 1, .giveBack value, h => by
    rw [Stmt.toDatum, depth_tagged] at h
    have value_read := optional?_read_ofOption n value (by omega)
    rw [Stmt.toDatum, Stmt.read, oneOf?_tagged]
    simp [List.lookup_cons, value_read]
  | n + 1, .define name params body, h => by
    simp only [Stmt.toDatum, depth_tagged, depth, depthFields] at h
    have params_read := mapM_read_params n params (by omega)
    have body_read := mapM_read_block n body (by omega)
    rw [Stmt.toDatum, Stmt.read, oneOf?_tagged]
    simp [List.lookup_cons, readDefinition, required?_cons_ne, params_read, body_read]

theorem mapM_read_block (n : Nat) : (ss : List Stmt) → depthList (blockToData ss) ≤ n →
    (blockToData ss).mapM (Stmt.read n) = some ss
  | [], _ => rfl
  | s :: ss, h => by
    simp only [blockToData, depthList] at h
    have first := s.read_toDatum n (by omega)
    have rest := mapM_read_block n ss (by omega)
    simp [blockToData, first, rest]

end

/-- And so is a program, with a bound for each of its statements. -/
theorem ofDatum?_toDatum (program : List Stmt) : ofDatum? (toDatum program) = some program := by
  have each : (blockToData program).mapM Stmt.ofDatum? = some program := by
    induction program with
    | nil => rfl
    | cons s ss ih =>
      have first : Stmt.ofDatum? s.toDatum = some s := s.read_toDatum _ (Nat.le_refl _)
      simp [blockToData, first, ih]
  exact each

end Program

end Scriptlet
