import Mathlib.Algebra.Ring.Int.Defs
import Mathlib.Algebra.Ring.Nat
import Relayvia.Library.Outcome
import Relayvia.Validation.Nodes

/-!
# Comparison of JSON values

The Python operators that `_compare` applies to the operands of a Condition.  Numbers are
compared exactly, a bool is an int, and text by code points.
-/

namespace Relayvia

namespace Python

/-! ## Numbers -/

/-- A number as it is compared; a finite one is counted in units of `2 ^ (-1074)`, of which
every int and every float is a multiple. -/
inductive Number where
  | nan
  | inf (negative : Bool)
  | finite (units : ℤ)
  deriving DecidableEq

/-- `>`, `>=`, `<` or `<=`. -/
inductive Ordering where
  | gt | ge | lt | le
  deriving DecidableEq

/-- The operator on two values of a total order. -/
def Ordering.holds (less equal : Bool) : Ordering → Bool
  | gt => !less && !equal
  | ge => !less
  | lt => less
  | le => less || equal

namespace Number

def ofInt (i : ℤ) : Number :=
  .finite (i * 2 ^ 1074)

/-- The value of a 64-bit pattern. -/
def ofBits (bits : BitVec 64) : Number :=
  let exponent := (bits.extractLsb' 52 11).toNat
  let fraction := (bits.extractLsb' 0 52).toNat
  if exponent = 2047 then if fraction = 0 then .inf bits.msb else .nan
  else
    let magnitude := if exponent = 0 then fraction else (2 ^ 52 + fraction) * 2 ^ (exponent - 1)
    .finite (if bits.msb then -magnitude else magnitude)

def ofJson : Json → Option Number
  | .bool b => some (.ofInt (if b then 1 else 0))
  | .int i => some (.ofInt i)
  | .float bits => some (.ofBits bits)
  | _ => none

def less : Number → Number → Bool
  | .finite a, .finite b => a < b
  | .inf negative, .inf negative' => negative && !negative'
  | .inf negative, .finite _ => negative
  | .finite _, .inf negative => !negative
  | .nan, _ | _, .nan => false

def equal : Number → Number → Bool
  | .nan, _ => false
  | a, b => a = b

def ordered (op : Ordering) : Number → Number → Bool
  | .nan, _ | _, .nan => false
  | a, b => op.holds (a.less b) (a.equal b)

end Number

/-! ## Values -/

/-- `a == b` for items of containers, where `same` says that two NaNs are one object: these
are equal without a comparison. -/
def itemsEqual (same : Json → Json → Bool) (a b : Json) : Bool :=
  equal (fun x y ↦ same x y ||
    ((Number.ofJson x).any fun x ↦ (Number.ofJson y).any fun y ↦ x.equal y)) a b

/-- `a == b` for the operands. -/
def operandsEqual (same : Json → Json → Bool) (a b : Json) : Bool :=
  match Number.ofJson a, Number.ofJson b with
  | some x, some y => x.equal y
  | _, _ => itemsEqual same a b

inductive OperatorError where
  | typeError
  | valueError (message : String)
  deriving DecidableEq

mutual

/-- `a > b` and so on: numbers, texts, and lists up to their first different items. -/
def ordered (same : Json → Json → Bool) (op : Ordering) : Json → Json → Except OperatorError Bool
  | .str a, .str b => .ok (op.holds (a < b) (a = b))
  | .arr a, .arr b => orderedItems same op a b
  | a, b =>
      match Number.ofJson a, Number.ofJson b with
      | some x, some y => .ok (x.ordered op y)
      | _, _ => .error .typeError

def orderedItems (same : Json → Json → Bool) (op : Ordering) :
    List Json → List Json → Except OperatorError Bool
  | [], [] => .ok (op.holds false true)
  | [], _ :: _ => .ok (op.holds true false)
  | _ :: _, [] => .ok (op.holds false false)
  | a :: as, b :: bs =>
      if itemsEqual same a b then orderedItems same op as bs else ordered same op a b

end

/-- `item in container`: text in text, an item of a list, or a key of a dict, where a list or
a dict cannot be hashed. -/
def member (same : Json → Json → Bool) (item : Json) : Json → Except OperatorError Bool
  | .str text =>
      match item with
      | .str part => .ok (contains part.toList text.toList)
      | _ => .error .typeError
  | .arr items => .ok (items.any (itemsEqual same item))
  | .obj fields =>
      match item with
      | .str key => .ok (fields.lookup key).isSome
      | .arr _ | .obj _ => .error .typeError
      | _ => .ok false
  | _ => .error .typeError

/-- `value is None or (hasattr(value, "__len__") and len(value) == 0)`. -/
def lacksItems : Json → Bool
  | .null => true
  | .str s => s = ""
  | .arr items => items = []
  | .obj fields => fields = []
  | _ => false

variable {same : Json → Json → Bool} {op : Ordering}

theorem orderedItems_typeError {as bs : List Json} {e : OperatorError}
    (hitem : ∀ a ∈ as, ∀ b e, ordered same op a b = .error e → e = .typeError)
    (h : orderedItems same op as bs = .error e) : e = .typeError := by
  induction as generalizing bs with
  | nil =>
      cases bs with
      | nil | cons =>
          rw [orderedItems] at h
          cases h
  | cons a as ih =>
      cases bs with
      | nil =>
          rw [orderedItems] at h
          cases h
      | cons b bs =>
          rw [orderedItems] at h
          by_cases hequal : itemsEqual same a b = true
          · rw [if_pos hequal] at h
            exact ih (fun a ha ↦ hitem a (List.mem_cons_of_mem _ ha)) h
          · rw [if_neg hequal] at h
            exact hitem a List.mem_cons_self b e h

/-- An ordering raises nothing but a TypeError. -/
theorem ordered_typeError (a b : Json) {e : OperatorError}
    (h : ordered same op a b = .error e) : e = .typeError := by
  unfold ordered at h
  split at h
  · cases h
  · next items items' =>
    exact orderedItems_typeError (fun x hx y e ↦ ordered_typeError x y) h
  · split at h
    · cases h
    · cases h
      rfl
termination_by sizeOf a
decreasing_by
  have hlt := List.sizeOf_lt_of_mem hx
  subst_vars
  rw [Json.arr.sizeOf_spec]
  omega

theorem member_typeError {item container : Json} {e : OperatorError}
    (h : member same item container = .error e) : e = .typeError := by
  unfold member at h
  split at h
  · split at h
    · cases h
    · cases h
      rfl
  · cases h
  · split at h
    · cases h
    · cases h
      rfl
    · cases h
      rfl
    · cases h
  · cases h
    rfl

end Python

/-- `_compare`. -/
def compare (same : Json → Json → Bool) (left operator right : Json) :
    Except Python.OperatorError Bool :=
  match operator with
  | .str "==" => .ok (Python.operandsEqual same left right)
  | .str "!=" => .ok (!Python.operandsEqual same left right)
  | .str ">" => Python.ordered same .gt left right
  | .str ">=" => Python.ordered same .ge left right
  | .str "<" => Python.ordered same .lt left right
  | .str "<=" => Python.ordered same .le left right
  | .str "contains" => Python.member same right left
  | .str "not_contains" => (Python.member same right left).map (!·)
  | .str "is_empty" => .ok (Python.lacksItems left)
  | .str "is_not_empty" => .ok (!Python.lacksItems left)
  | _ => .error (.valueError "unsupported operator")

/-- The operator is one of the ten of the graph schema, or the comparison fails for it. -/
theorem compare_typeError {same : Json → Json → Bool} {left right : Json} {operator : String}
    {e : Python.OperatorError} (hoperator : operator ∈ conditionOperators)
    (h : compare same left (.str operator) right = .error e) : e = .typeError := by
  simp only [conditionOperators, List.mem_cons, List.not_mem_nil, or_false] at hoperator
  rcases hoperator with rfl | rfl | rfl | rfl | rfl | rfl | rfl | rfl | rfl | rfl
  · cases h
  · cases h
  · exact Python.ordered_typeError _ _ h
  · exact Python.ordered_typeError _ _ h
  · exact Python.ordered_typeError _ _ h
  · exact Python.ordered_typeError _ _ h
  · exact Python.member_typeError h
  · exact Python.member_typeError (Outcome.map_eq_error_iff.mp h)
  · cases h
  · cases h

end Relayvia
