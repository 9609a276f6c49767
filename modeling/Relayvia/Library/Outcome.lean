import Mathlib.Logic.Basic

/-!
# Pre- and postconditions of computations that may raise

`Outcome.Holds x post raises` says what is true of the value of `x` when it
returns and of the exception when it raises.
-/

namespace Outcome

universe u

variable {ε ε' : Type*} {α β : Type u}

def Holds (x : Except ε α) (post : α → Prop) (raises : ε → Prop) : Prop :=
  match x with
  | .ok a => post a
  | .error e => raises e

variable {x : Except ε α} {f : α → Except ε β} {post post' : α → Prop} {after : β → Prop}
  {raises raises' : ε → Prop}

@[simp] theorem holds_ok {a : α} :
    Holds (.ok a : Except ε α) post raises ↔ post a := Iff.rfl

@[simp] theorem holds_pure {a : α} :
    Holds (pure a : Except ε α) post raises ↔ post a := Iff.rfl

@[simp] theorem holds_error {e : ε} :
    Holds (.error e : Except ε α) post raises ↔ raises e := Iff.rfl

@[simp] theorem holds_throw {e : ε} :
    Holds (throw e : Except ε α) post raises ↔ raises e := Iff.rfl

@[simp] theorem holds_throw_bind {e : ε} :
    Holds ((throw e : Except ε α) >>= f) after raises ↔ raises e := Iff.rfl

theorem Holds.mono (h : Holds x post raises) (hpost : ∀ a, post a → post' a)
    (hraises : ∀ e, raises e → raises' e) : Holds x post' raises' := by
  cases x with
  | ok a => exact hpost a h
  | error e => exact hraises e h

theorem Holds.weaken (h : Holds x post raises) (hpost : ∀ a, post a → post' a) :
    Holds x post' raises :=
  h.mono hpost fun _ he ↦ he

theorem Holds.and (h : Holds x post raises) (h' : Holds x post' raises) :
    Holds x (fun a ↦ post a ∧ post' a) raises := by
  cases x with
  | ok a => exact ⟨h, h'⟩
  | error e => exact h

theorem Holds.bind (h : Holds x post raises) (hf : ∀ a, post a → Holds (f a) after raises) :
    Holds (x >>= f) after raises := by
  cases x with
  | ok a => exact hf a h
  | error e => exact h

theorem Holds.map {g : α → β} (h : Holds x (fun a ↦ after (g a)) raises) :
    Holds (x.map g) after raises := by
  cases x with
  | ok a => exact h
  | error e => exact h

theorem Holds.ite {c : Prop} [Decidable c] {y : Except ε α} (hx : c → Holds x post raises)
    (hy : ¬c → Holds y post raises) : Holds (if c then x else y) post raises := by
  split
  · next h => exact hx h
  · next h => exact hy h

/-- A computation of a smaller error type, run in a larger one. -/
theorem Holds.lift {x : Except ε α} {g : ε → ε'} {raises' : ε' → Prop}
    (h : Holds x post fun e ↦ raises' (g e)) : Holds (x.mapError g) post raises' := by
  cases x with
  | ok a => exact h
  | error e => exact h

theorem Holds.of_ok (h : Holds x post raises) {a : α} (hx : x = .ok a) : post a := by
  subst hx
  exact h

theorem Holds.of_error (h : Holds x post raises) {e : ε} (hx : x = .error e) : raises e := by
  subst hx
  exact h

theorem ok_bind {a : α} : (.ok a : Except ε α) >>= f = f a := rfl

theorem map_eq_ok_iff {g : α → β} {b : β} : x.map g = .ok b ↔ ∃ a, x = .ok a ∧ g a = b := by
  cases x <;> simp [Except.map]

theorem map_eq_error_iff {g : α → β} {e : ε} : x.map g = .error e ↔ x = .error e := by
  cases x <;> simp [Except.map]

theorem bind_eq_ok_iff {b : β} : x >>= f = .ok b ↔ ∃ a, x = .ok a ∧ f a = .ok b := by
  cases x with
  | ok a =>
      refine ⟨fun h ↦ ⟨a, rfl, h⟩, ?_⟩
      rintro ⟨a', ha', h⟩
      cases ha'
      exact h
  | error e =>
      constructor
      · intro h
        cases h
      · rintro ⟨a', ha', -⟩
        cases ha'

/-- A loop that collects values returns at every item. -/
theorem map_of_mapM {f : α → Except ε β} {xs : List α} {ys : List β} (h : xs.mapM f = .ok ys) :
    xs.map f = ys.map .ok := by
  induction xs generalizing ys with
  | nil =>
      cases h
      rfl
  | cons x xs ih =>
      rw [List.mapM_cons] at h
      obtain ⟨y, hy, h⟩ := bind_eq_ok_iff.mp h
      obtain ⟨ys, hys, h⟩ := bind_eq_ok_iff.mp h
      cases h
      rw [List.map_cons, List.map_cons, hy, ih hys]

theorem exists_of_mapM {f : α → Except ε β} {xs : List α} {ys : List β}
    (h : xs.mapM f = .ok ys) {a : α} (ha : a ∈ xs) : ∃ b ∈ ys, f a = .ok b := by
  have hmem : f a ∈ xs.map f := List.mem_map_of_mem ha
  rw [map_of_mapM h] at hmem
  obtain ⟨b, hb, heq⟩ := List.mem_map.mp hmem
  exact ⟨b, hb, heq.symm⟩

theorem exists_of_mem_mapM {f : α → Except ε β} {xs : List α} {ys : List β}
    (h : xs.mapM f = .ok ys) {b : β} (hb : b ∈ ys) : ∃ a ∈ xs, f a = .ok b := by
  have hmem : (.ok b : Except ε β) ∈ ys.map .ok := List.mem_map_of_mem hb
  rw [← map_of_mapM h] at hmem
  exact List.mem_map.mp hmem

theorem exists_of_mapM_error {f : α → Except ε β} {xs : List α} {e : ε}
    (h : xs.mapM f = .error e) : ∃ a ∈ xs, f a = .error e := by
  induction xs with
  | nil => cases h
  | cons a xs ih =>
      rw [List.mapM_cons] at h
      cases ha : f a with
      | error e' =>
          rw [ha] at h
          cases h
          exact ⟨a, List.mem_cons_self, ha⟩
      | ok b =>
          cases hxs : xs.mapM f with
          | error e' =>
              rw [ha, hxs] at h
              cases h
              obtain ⟨a', ha', he⟩ := ih hxs
              exact ⟨a', List.mem_cons_of_mem _ ha', he⟩
          | ok bs =>
              rw [ha, hxs] at h
              cases h

theorem mapM_congr {f f' : α → Except ε β} {xs : List α}
    (h : ∀ x ∈ xs, f x = f' x) : xs.mapM f = xs.mapM f' := by
  induction xs with
  | nil => rfl
  | cons x xs ih =>
      rw [List.mapM_cons, List.mapM_cons, h x (by simp), ih fun y hy ↦ h y (by simp [hy])]

/-- A loop collects nothing if and only if no item contributes. -/
theorem mapM_flatten_nil_iff {f : α → Except ε (List β)} {xs : List α} :
    (∃ yss, xs.mapM f = .ok yss ∧ yss.flatten = []) ↔ ∀ x ∈ xs, f x = .ok [] := by
  constructor
  · rintro ⟨yss, hyss, hnil⟩ x hx
    obtain ⟨ys, hys, hf⟩ := exists_of_mapM hyss hx
    rw [hf, List.flatten_eq_nil_iff.mp hnil ys hys]
  · intro h
    induction xs with
    | nil => exact ⟨[], rfl, rfl⟩
    | cons x xs ih =>
        obtain ⟨yss, hyss, hnil⟩ := ih fun y hy ↦ h y (by simp [hy])
        refine ⟨[] :: yss, ?_, hnil⟩
        rw [List.mapM_cons, h x (by simp), hyss]
        rfl

/-- A loop that leaves out a part of what the other collects at every item. -/
theorem mapM_suffix {f f' : α → Except ε (List β)} {fits : α → Prop}
    {xs : List α} {yss : List (List β)} (hstep : ∀ x ys, f x = .ok ys →
      ∃ rest, f' x = .ok rest ∧ rest <:+ ys ∧ (rest.length = ys.length → fits x))
    (h : xs.mapM f = .ok yss) :
    ∃ rests, xs.mapM f' = .ok rests ∧ rests.flatten.Sublist yss.flatten ∧
      (rests.flatten.length = yss.flatten.length → ∀ x ∈ xs, fits x) := by
  induction xs generalizing yss with
  | nil =>
      cases h
      exact ⟨[], rfl, .slnil, by simp⟩
  | cons x xs ih =>
      rw [List.mapM_cons] at h
      obtain ⟨ys, hys, h⟩ := bind_eq_ok_iff.mp h
      obtain ⟨yss, hyss, h⟩ := bind_eq_ok_iff.mp h
      cases h
      obtain ⟨rest, hrest, hsuffix, hfits⟩ := hstep x ys hys
      obtain ⟨rests, hrests, hsublist, hall⟩ := ih hyss
      refine ⟨rest :: rests, ?_, ?_, fun hlength ↦ ?_⟩
      · rw [List.mapM_cons, hrest, hrests]
        rfl
      · exact hsuffix.sublist.append hsublist
      · have hle := hsuffix.length_le
        have hle' := hsublist.length_le
        simp only [List.flatten_cons, List.length_append] at hlength
        exact List.forall_mem_cons.mpr ⟨hfits (by omega), hall (by omega)⟩

/-- The postcondition may speak about the computation itself. -/
theorem Holds.with_eq (h : Holds x post raises) :
    Holds x (fun a ↦ x = .ok a ∧ post a) raises := by
  cases x with
  | ok a => exact ⟨rfl, h⟩
  | error e => exact h

theorem holds_of_forall (hpost : ∀ a, x = .ok a → post a) (hraises : ∀ e, x = .error e → raises e) :
    Holds x post raises := by
  cases x with
  | ok a => exact hpost a rfl
  | error e => exact hraises e rfl

/-- A loop that keeps an invariant. -/
theorem holds_foldlM {γ : Type*} {step : β → γ → Except ε β} {inv : List γ → β → Prop}
    (hstep : ∀ c cs b, inv (c :: cs) b → Holds (step b c) (inv cs) raises) :
    ∀ (cs : List γ) (b : β), inv cs b → Holds (cs.foldlM step b) (inv []) raises
  | [], _, h => h
  | c :: cs, b, h => by
      rw [List.foldlM_cons]
      exact Holds.bind (hstep c cs b h) fun b' hb' ↦ holds_foldlM hstep cs b' hb'

/-- The computation returns exactly when `c` holds. -/
def Decides (x : Except ε α) (c : Prop) : Prop :=
  Holds x (fun _ ↦ c) fun _ ↦ ¬c

variable {c c' : Prop}

theorem Decides.bind (h : Decides x c) (hf : ∀ a, x = .ok a → Decides (f a) c') :
    Decides (x >>= f) (c ∧ c') := by
  cases x with
  | ok a =>
      have hc : c := h
      exact (hf a rfl).mono (fun _ h' ↦ ⟨hc, h'⟩) fun _ hnot hboth ↦ hnot hboth.2
  | error e =>
      intro hboth
      exact h hboth.1

theorem Decides.congr (h : Decides x c) (hc : c ↔ c') : Decides x c' := by
  rwa [← hc]

theorem decides_pure {a : α} : Decides (pure a : Except ε α) True := trivial

theorem decides_ok {a : α} : Decides (.ok a : Except ε α) True := trivial

/-- A first step that always returns. -/
theorem Decides.andThen (h : Decides x True) (hf : ∀ a, x = .ok a → Decides (f a) c) :
    Decides (x >>= f) c :=
  (h.bind hf).congr (by simp)

theorem Decides.map {g : α → β} (h : Decides x c) : Decides (x.map g) c := by
  cases x with
  | ok a => exact h
  | error e => exact h

/-- A loop that collects values returns when every item does. -/
theorem decides_mapM {γ : Type u} {f : γ → Except ε α} {p : γ → Prop} {xs : List γ}
    (h : ∀ a ∈ xs, Decides (f a) (p a)) : Decides (xs.mapM f) (∀ a ∈ xs, p a) := by
  induction xs with
  | nil => exact decides_pure.congr (by simp)
  | cons a xs ih =>
      have hrest := ih fun b hb ↦ h b (by simp [hb])
      rw [List.mapM_cons]
      apply ((h a (by simp)).bind fun _ _ ↦ hrest.bind fun _ _ ↦ decides_pure).congr
      simp

theorem Decides.returns_iff (h : Decides x c) : (∃ a, x = .ok a) ↔ c := by
  cases x with
  | ok a => exact ⟨fun _ ↦ h, fun _ ↦ ⟨a, rfl⟩⟩
  | error e =>
      refine ⟨fun ⟨a, ha⟩ ↦ ?_, fun hc ↦ absurd hc h⟩
      cases ha

/-- It raises instead of returning when `c` fails. -/
theorem Decides.exists_ok (h : Decides x c) (hc : c) : ∃ a, x = .ok a := by
  cases x with
  | ok a => exact ⟨a, rfl⟩
  | error e => exact absurd hc h

end Outcome
