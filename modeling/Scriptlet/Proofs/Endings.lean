import Scriptlet.Proofs.Machine.Steps

/-!
# How statements end

The rules by which statements run and end, on any machine. A block runs off its end if its statements are run one after
another to the last one; otherwise it ends where one of them leaves it, and a call that ends so ends with the value of
the statement that gave it back. Execution follows these rules and no others.
-/

namespace Scriptlet

open Code (Expr Stmt Target)

/-- How the run of a piece of code has ended. -/
inductive Ending where
  /-- It was run to its end. -/
  | ranOff
  /-- A statement has given back the value of its expression, or none if it has no expression. -/
  | gaveBack (e : Option Expr) (v : Value)
  | leftLoop
  | nextRound

/-- What follows an ending. -/
def Ending.flow : Ending → Flow
  | .ranOff => .next
  | .gaveBack _ v => .result v
  | .leftLoop => .leaveLoop
  | .nextRound => .nextRound

/-- The value that an expression that may be missing gives. -/
inductive Engine.Gives {σ : Type} (k : Engine σ) : Option Expr → σ → Value → σ → Prop where
  | nothing {s : σ} : Gives k none s .none s
  | value {e : Expr} {s s' : σ} {v : Value} (h : k.eval e s = .ok v s') : Gives k (some e) s v s'

namespace Engine

variable {σ : Type} (k : Engine σ)

mutual

/-- A statement that has begun runs and ends. -/
inductive StmtEnds : Stmt → σ → Ending → σ → Prop where
  | expr {e : Expr} {s s' : σ} {v : Value} (value : k.eval e s = .ok v s') : StmtEnds (.expr e) s .ranOff s'
  | assign {t : Target} {e : Expr} {s s₁ s' : σ} {v : Value} (value : k.eval e s = .ok v s₁)
    (assigned : k.assign t v s₁ = .ok () s') : StmtEnds (.assign t e) s .ranOff s'
  | augment {t : Target} {op : Program.Operator} {e : Expr} {s s' : σ}
    (augmented : k.augmentTarget t op e s = .ok () s') : StmtEnds (.augment t op e) s .ranOff s'
  | branch {e : Expr} {body orelse : List Stmt} {s s₁ s₂ s' : σ} {v : Value} {b : Bool} {ending : Ending}
    (test : k.eval e s = .ok v s₁) (truth : k.truthy v s₁ = .ok b s₂)
    (chosen : BlockEnds (if b then body else orelse) s₂ ending s') : StmtEnds (.branch e body orelse) s ending s'
  | loop {t : Target} {e : Expr} {body : List Stmt} {s s₁ s₂ s' : σ} {v : Value} {items : List Value}
    {ending : Ending} (iter : k.eval e s = .ok v s₁) (snapshot : k.items v s₁ = .ok items s₂)
    (rounds : RoundsEnd t body items s₂ ending s') : StmtEnds (.loop t e body) s ending s'
  | leaveLoop {s : σ} : StmtEnds .leaveLoop s .leftLoop s
  | nextRound {s : σ} : StmtEnds .nextRound s .nextRound s
  | pass {s : σ} : StmtEnds .pass s .ranOff s
  | giveBack {e : Option Expr} {s s' : σ} {v : Value} (given : k.Gives e s v s') :
    StmtEnds (.giveBack e) s (.gaveBack e v) s'
  | define {x : Code.Name} {id : FunctionId} {defaults : List Expr} {s s₁ s₂ s' : σ} {vs : List Value} {f : Value}
    (values : k.evalAll defaults s = .ok vs s₁) (made : k.function id vs s₁ = .ok f s₂)
    (stored : k.store x f s₂ = .ok () s') : StmtEnds (.define x id defaults) s .ranOff s'

/-- A block runs and ends. -/
inductive BlockEnds : List Stmt → σ → Ending → σ → Prop where
  | nil {s : σ} : BlockEnds [] s .ranOff s
  | goesOn {st : Stmt} {ss : List Stmt} {s s₁ s₂ s' : σ} {ending : Ending} (begun : k.begin st.kind s = .ok () s₁)
    (first : StmtEnds st s₁ .ranOff s₂) (rest : BlockEnds ss s₂ ending s') : BlockEnds (st :: ss) s ending s'
  | stops {st : Stmt} {ss : List Stmt} {s s₁ s' : σ} {ending : Ending} (begun : k.begin st.kind s = .ok () s₁)
    (first : StmtEnds st s₁ ending s') (jumps : ending ≠ .ranOff) : BlockEnds (st :: ss) s ending s'

/-- The rounds of a loop run for some items and end. -/
inductive RoundsEnd : Target → List Stmt → List Value → σ → Ending → σ → Prop where
  | done {t : Target} {body : List Stmt} {s : σ} : RoundsEnd t body [] s .ranOff s
  | goesOn {t : Target} {body : List Stmt} {v : Value} {vs : List Value} {s s₁ s₂ s' : σ} {round ending : Ending}
    (assigned : k.assign t v s = .ok () s₁) (first : BlockEnds body s₁ round s₂)
    (again : round = .ranOff ∨ round = .nextRound) (rest : RoundsEnd t body vs s₂ ending s') :
    RoundsEnd t body (v :: vs) s ending s'
  | left {t : Target} {body : List Stmt} {v : Value} {vs : List Value} {s s₁ s' : σ}
    (assigned : k.assign t v s = .ok () s₁) (first : BlockEnds body s₁ .leftLoop s') :
    RoundsEnd t body (v :: vs) s .ranOff s'
  | gaveBack {t : Target} {body : List Stmt} {v : Value} {vs : List Value} {s s₁ s' : σ} {e : Option Expr} {w : Value}
    (assigned : k.assign t v s = .ok () s₁) (first : BlockEnds body s₁ (.gaveBack e w) s') :
    RoundsEnd t body (v :: vs) s (.gaveBack e w) s'

end

variable {k}

/-! ## Execution follows the rules -/

/-- The rounds of a loop end by the rules if their body does. -/
theorem roundsEnd_of_rounds {t : Target} {body : List Stmt} {items : List Value} {s s' : σ} {flow : Flow}
    (inner : ∀ {s flow s'}, k.execBlock body s = .ok flow s' → ∃ ending, ending.flow = flow ∧ k.BlockEnds body s ending s')
    (h : rounds (fun v => do k.assign t v; k.execBlock body) items s = .ok flow s') :
    ∃ ending, ending.flow = flow ∧ k.RoundsEnd t body items s ending s' := by
  induction items generalizing s with
  | nil =>
    cases h
    exact ⟨.ranOff, rfl, .done⟩
  | cons v vs ih =>
    rw [rounds] at h
    obtain ⟨round, s₂, ran, h⟩ := bind_eq_ok.1 h
    obtain ⟨_, s₁, assigned, ran⟩ := bind_eq_ok.1 ran
    obtain ⟨ending, rfl, first⟩ := inner ran
    cases ending with
    | ranOff =>
      obtain ⟨ending, same, rest⟩ := ih h
      exact ⟨ending, same, .goesOn assigned first (.inl rfl) rest⟩
    | nextRound =>
      obtain ⟨ending, same, rest⟩ := ih h
      exact ⟨ending, same, .goesOn assigned first (.inr rfl) rest⟩
    | leftLoop =>
      cases h
      exact ⟨.ranOff, rfl, .left assigned first⟩
    | gaveBack e w =>
      cases h
      exact ⟨.gaveBack e w, rfl, .gaveBack assigned first⟩

mutual

theorem stmtEnds_of_exec {s s' : σ} {flow : Flow} : (st : Stmt) → k.exec st s = .ok flow s' →
    ∃ ending, ending.flow = flow ∧ k.StmtEnds st s ending s'
  | .expr e, h => by
    rw [exec] at h
    obtain ⟨v, s₁, value, h⟩ := bind_eq_ok.1 h
    cases h
    exact ⟨.ranOff, rfl, .expr value⟩
  | .assign t e, h => by
    rw [exec] at h
    obtain ⟨v, s₁, value, h⟩ := bind_eq_ok.1 h
    obtain ⟨_, s₂, assigned, h⟩ := bind_eq_ok.1 h
    cases h
    exact ⟨.ranOff, rfl, .assign value assigned⟩
  | .augment t op e, h => by
    rw [exec] at h
    obtain ⟨_, s₁, augmented, h⟩ := bind_eq_ok.1 h
    cases h
    exact ⟨.ranOff, rfl, .augment augmented⟩
  | .branch e body orelse, h => by
    rw [exec] at h
    obtain ⟨v, s₁, test, h⟩ := bind_eq_ok.1 h
    obtain ⟨b, s₂, truth, h⟩ := bind_eq_ok.1 h
    cases b with
    | true =>
      obtain ⟨ending, same, chosen⟩ := blockEnds_of_execBlock body h
      exact ⟨ending, same, .branch test truth chosen⟩
    | false =>
      obtain ⟨ending, same, chosen⟩ := blockEnds_of_execBlock orelse h
      exact ⟨ending, same, .branch test truth chosen⟩
  | .loop t e body, h => by
    rw [exec] at h
    obtain ⟨v, s₁, iter, h⟩ := bind_eq_ok.1 h
    obtain ⟨items, s₂, snapshot, h⟩ := bind_eq_ok.1 h
    obtain ⟨ending, same, rounds⟩ := roundsEnd_of_rounds (fun h => blockEnds_of_execBlock body h) h
    exact ⟨ending, same, .loop iter snapshot rounds⟩
  | .leaveLoop, h => by
    cases h
    exact ⟨.leftLoop, rfl, .leaveLoop⟩
  | .nextRound, h => by
    cases h
    exact ⟨.nextRound, rfl, .nextRound⟩
  | .pass, h => by
    cases h
    exact ⟨.ranOff, rfl, .pass⟩
  | .giveBack none, h => by
    cases h
    exact ⟨.gaveBack none .none, rfl, .giveBack .nothing⟩
  | .giveBack (some e), h => by
    rw [exec] at h
    obtain ⟨v, s₁, value, h⟩ := bind_eq_ok.1 h
    cases h
    exact ⟨.gaveBack (some e) v, rfl, .giveBack (.value value)⟩
  | .define x id defaults, h => by
    rw [exec] at h
    obtain ⟨vs, s₁, values, h⟩ := bind_eq_ok.1 h
    obtain ⟨f, s₂, made, h⟩ := bind_eq_ok.1 h
    obtain ⟨_, s₃, stored, h⟩ := bind_eq_ok.1 h
    cases h
    exact ⟨.ranOff, rfl, .define values made stored⟩

theorem blockEnds_of_execBlock {s s' : σ} {flow : Flow} : (ss : List Stmt) → k.execBlock ss s = .ok flow s' →
    ∃ ending, ending.flow = flow ∧ k.BlockEnds ss s ending s'
  | [], h => by
    cases h
    exact ⟨.ranOff, rfl, .nil⟩
  | st :: ss, h => by
    rw [execBlock] at h
    obtain ⟨_, s₁, begun, h⟩ := bind_eq_ok.1 h
    obtain ⟨first, s₂, ran, h⟩ := bind_eq_ok.1 h
    obtain ⟨ending, rfl, ended⟩ := stmtEnds_of_exec st ran
    cases ending with
    | ranOff =>
      obtain ⟨ending, same, rest⟩ := blockEnds_of_execBlock ss h
      exact ⟨ending, same, .goesOn begun ended rest⟩
    | gaveBack e v =>
      cases h
      exact ⟨_, rfl, .stops begun ended (by simp)⟩
    | leftLoop =>
      cases h
      exact ⟨_, rfl, .stops begun ended (by simp)⟩
    | nextRound =>
      cases h
      exact ⟨_, rfl, .stops begun ended (by simp)⟩

end

/-! ## The rules are followed -/

theorem Gives.exec {e : Option Expr} {s s' : σ} {v : Value} (h : k.Gives e s v s') :
    k.exec (.giveBack e) s = .ok (.result v) s' := by
  cases h with
  | nothing => rfl
  | value h => rw [Engine.exec, bind_of_ok h]; rfl

mutual

theorem StmtEnds.exec {st : Stmt} {s s' : σ} {ending : Ending} : k.StmtEnds st s ending s' →
    k.exec st s = .ok ending.flow s'
  | .expr value => by rw [Engine.exec, bind_of_ok value]; rfl
  | .assign value assigned => by rw [Engine.exec, bind_of_ok value, bind_of_ok assigned]; rfl
  | .augment augmented => by rw [Engine.exec, bind_of_ok augmented]; rfl
  | .branch (b := b) test truth chosen => by
    have ran := chosen.execBlock
    rw [Engine.exec, bind_of_ok test, bind_of_ok truth]
    cases b with
    | true => exact ran
    | false => exact ran
  | .loop iter snapshot rounds => by
    rw [Engine.exec, bind_of_ok iter, bind_of_ok snapshot]
    exact rounds.rounds
  | .leaveLoop => rfl
  | .nextRound => rfl
  | .pass => rfl
  | .giveBack given => given.exec
  | .define values made stored => by
    rw [Engine.exec, bind_of_ok values, bind_of_ok made, bind_of_ok stored]
    rfl

theorem BlockEnds.execBlock {ss : List Stmt} {s s' : σ} {ending : Ending} : k.BlockEnds ss s ending s' →
    k.execBlock ss s = .ok ending.flow s'
  | .nil => rfl
  | .goesOn begun first rest => by
    rw [Engine.execBlock, bind_of_ok begun, bind_of_ok first.exec]
    exact rest.execBlock
  | .stops begun first jumps => by
    rw [Engine.execBlock, bind_of_ok begun, bind_of_ok first.exec]
    cases ending with
    | ranOff => exact absurd rfl jumps
    | gaveBack e v => rfl
    | leftLoop => rfl
    | nextRound => rfl

theorem RoundsEnd.rounds {t : Target} {body : List Stmt} {items : List Value} {s s' : σ} {ending : Ending} :
    k.RoundsEnd t body items s ending s' →
    Engine.rounds (fun v => do k.assign t v; k.execBlock body) items s = .ok ending.flow s'
  | .done => rfl
  | .goesOn assigned first again rest => by
    have ran : (do k.assign t _; k.execBlock body : EStateM Failure σ Flow) s = _ :=
      (bind_of_ok assigned).trans first.execBlock
    rw [Engine.rounds, bind_of_ok ran]
    rcases again with rfl | rfl
    · exact rest.rounds
    · exact rest.rounds
  | .left assigned first => by
    have ran : (do k.assign t _; k.execBlock body : EStateM Failure σ Flow) s = _ :=
      (bind_of_ok assigned).trans first.execBlock
    rw [Engine.rounds, bind_of_ok ran]
    rfl
  | .gaveBack assigned first => by
    have ran : (do k.assign t _; k.execBlock body : EStateM Failure σ Flow) s = _ :=
      (bind_of_ok assigned).trans first.execBlock
    rw [Engine.rounds, bind_of_ok ran]
    rfl

end

theorem execBlock_eq_ok_iff {ss : List Stmt} {s s' : σ} {flow : Flow} :
    k.execBlock ss s = .ok flow s' ↔ ∃ ending, ending.flow = flow ∧ k.BlockEnds ss s ending s' := by
  refine ⟨blockEnds_of_execBlock ss, ?_⟩
  rintro ⟨ending, rfl, ended⟩
  exact ended.execBlock

end Engine

end Scriptlet
