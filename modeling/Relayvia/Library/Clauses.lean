import Mathlib.Data.List.Basic

/-!
# AND/OR expressions over atoms that may fail

Expressions of any nesting, their Boolean value when every atom has one, and their
evaluation from left to right that stops at the clause which decides.
-/

namespace Clauses

/-- An atom, or clauses of which one with the value `decisive` decides: `false` for AND,
`true` for OR. -/
inductive Expr (A : Type*) where
  | atom (a : A)
  | combine (decisive : Bool) (clauses : List (Expr A))

variable {A ε : Type*}

namespace Expr

mutual

/-- The value where every atom has one. -/
def value (v : A → Bool) : Expr A → Bool
  | atom a => v a
  | combine decisive clauses => combined v decisive clauses

/-- The decisive value if a clause has it, and its opposite otherwise. -/
def combined (v : A → Bool) (decisive : Bool) : List (Expr A) → Bool
  | [] => !decisive
  | e :: clauses => if value v e = decisive then decisive else combined v decisive clauses

end

mutual

/-- Evaluation from left to right. -/
def eval (f : A → Except ε Bool) : Expr A → Except ε Bool
  | atom a => f a
  | combine decisive clauses => evalUntil f decisive clauses

/-- Stop at the first clause that decides. -/
def evalUntil (f : A → Except ε Bool) (decisive : Bool) : List (Expr A) → Except ε Bool
  | [] => .ok !decisive
  | e :: clauses => do
      if (← eval f e) = decisive then return decisive else evalUntil f decisive clauses

end

mutual

def atoms : Expr A → List A
  | atom a => [a]
  | combine _ clauses => atomsOf clauses

def atomsOf : List (Expr A) → List A
  | [] => []
  | e :: clauses => atoms e ++ atomsOf clauses

end

variable {f : A → Except ε Bool} {v : A → Bool}

theorem evalUntil_cons_ok {decisive b : Bool} {e : Expr A} {clauses : List (Expr A)}
    (h : eval f e = .ok b) : evalUntil f decisive (e :: clauses) =
      if b = decisive then .ok decisive else evalUntil f decisive clauses := by
  rw [evalUntil, h]
  rfl

theorem evalUntil_cons_error {decisive : Bool} {err : ε} {e : Expr A} {clauses : List (Expr A)}
    (h : eval f e = .error err) : evalUntil f decisive (e :: clauses) = .error err := by
  rw [evalUntil, h]
  rfl

mutual

/-- What the evaluation returns is the value, whatever the value of the atoms that fail. -/
theorem value_of_eval (hv : ∀ a b, f a = .ok b → v a = b) :
    ∀ (e : Expr A) {b : Bool}, eval f e = .ok b → value v e = b
  | atom a, b, h => by
      rw [eval] at h
      rw [value]
      exact hv a b h
  | combine decisive clauses, b, h => by
      rw [eval] at h
      rw [value]
      exact combined_of_evalUntil hv clauses h

theorem combined_of_evalUntil (hv : ∀ a b, f a = .ok b → v a = b) {decisive : Bool} :
    ∀ (clauses : List (Expr A)) {b : Bool}, evalUntil f decisive clauses = .ok b →
      combined v decisive clauses = b
  | [], b, h => by
      rw [evalUntil] at h
      cases h
      rw [combined]
  | e :: clauses, b, h => by
      cases he : eval f e with
      | error err =>
          rw [evalUntil_cons_error he] at h
          cases h
      | ok first =>
          rw [evalUntil_cons_ok he] at h
          rw [combined, value_of_eval hv e he]
          by_cases hfirst : first = decisive
          · rw [if_pos hfirst] at h ⊢
            cases h
            rfl
          · rw [if_neg hfirst] at h ⊢
            exact combined_of_evalUntil hv clauses h

end

mutual

/-- The evaluation fails only where an atom does. -/
theorem exists_of_eval_error :
    ∀ (e : Expr A) {err : ε}, eval f e = .error err → ∃ a ∈ atoms e, f a = .error err
  | atom a, err, h => by
      rw [eval] at h
      rw [atoms]
      exact ⟨a, List.mem_singleton_self a, h⟩
  | combine decisive clauses, err, h => by
      rw [eval] at h
      rw [atoms]
      exact exists_of_evalUntil_error clauses h

theorem exists_of_evalUntil_error {decisive : Bool} : ∀ (clauses : List (Expr A)) {err : ε},
    evalUntil f decisive clauses = .error err → ∃ a ∈ atomsOf clauses, f a = .error err
  | [], err, h => by
      rw [evalUntil] at h
      cases h
  | e :: clauses, err, h => by
      rw [atomsOf]
      cases he : eval f e with
      | error err' =>
          rw [evalUntil_cons_error he] at h
          cases h
          obtain ⟨a, ha, hf⟩ := exists_of_eval_error e he
          exact ⟨a, List.mem_append_left _ ha, hf⟩
      | ok first =>
          rw [evalUntil_cons_ok he] at h
          by_cases hfirst : first = decisive
          · rw [if_pos hfirst] at h
            cases h
          · rw [if_neg hfirst] at h
            obtain ⟨a, ha, hf⟩ := exists_of_evalUntil_error clauses h
            exact ⟨a, List.mem_append_right _ ha, hf⟩

end

end Expr

end Clauses
