import Mathlib.Data.List.Basic

/-!
# Input that arrives in chunks

A machine that reads one symbol after the other gives the same output however its input is
cut.  One that also looks at the ends of the chunks reads symbols that carry them.
-/

namespace Chunks

variable {σ α β : Type*} {step : σ → α → List β × σ}

/-- The output of a machine and its last state. -/
def feed (step : σ → α → List β × σ) : σ → List α → List β × σ
  | s, [] => ([], s)
  | s, a :: as => ((step s a).1 ++ (feed step (step s a).2 as).1, (feed step (step s a).2 as).2)

theorem feed_append (s : σ) (as bs : List α) :
    feed step s (as ++ bs) =
      ((feed step s as).1 ++ (feed step (feed step s as).2 bs).1,
        (feed step (feed step s as).2 bs).2) := by
  induction as generalizing s with
  | nil => rfl
  | cons a as ih => rw [List.cons_append, feed, ih, feed, List.append_assoc]

theorem feed_singleton (s : σ) (a : α) : feed step s [a] = step s a := by
  rw [feed, feed, List.append_nil]

/-- The symbols of a chunk, each with whether the chunk ends after it. -/
def markEnd : List α → List (α × Bool)
  | [] => []
  | [a] => [(a, true)]
  | a :: b :: as => (a, false) :: markEnd (b :: as)

def marked (chunks : List (List α)) : List (α × Bool) :=
  chunks.flatMap markEnd

theorem marked_cons (chunk : List α) (chunks : List (List α)) :
    marked (chunk :: chunks) = markEnd chunk ++ marked chunks :=
  List.flatMap_cons

theorem markEnd_fst (as : List α) : (markEnd as).map Prod.fst = as := by
  induction as using markEnd.induct with
  | case1 => rfl
  | case2 a => rfl
  | case3 a b as ih => rw [markEnd, List.map_cons, ih]

theorem marked_fst (chunks : List (List α)) : (marked chunks).map Prod.fst = chunks.flatten := by
  induction chunks with
  | nil => rfl
  | cons chunk chunks ih =>
      rw [marked_cons, List.map_append, markEnd_fst, ih, List.flatten_cons]

theorem drop_markEnd (as : List α) (n : ℕ) : (markEnd as).drop n = markEnd (as.drop n) := by
  induction as using markEnd.induct generalizing n with
  | case1 => simp [markEnd]
  | case2 a =>
      cases n with
      | zero => rfl
      | succ n => simp [markEnd]
  | case3 a b as ih =>
      cases n with
      | zero => rfl
      | succ n => rw [markEnd, List.drop_succ_cons, ih, List.drop_succ_cons]

/-- The last symbol is the only one with a mark. -/
theorem mark_markEnd {as : List α} {k : ℕ} (h : (markEnd as)[k]?.any Prod.snd = true) :
    k + 1 = as.length := by
  induction as using markEnd.induct generalizing k with
  | case1 => cases h
  | case2 a =>
      cases k with
      | zero => rfl
      | succ k => cases h
  | case3 a b as ih =>
      cases k with
      | zero => cases h
      | succ k =>
          have hrest := ih h
          rw [List.length_cons, hrest]

end Chunks
