import Relayvia.Json
import Relayvia.Library.Replace

/-!
# Python built-ins

The string operations of the language that the modelled code uses and whose
result matters to it, on lists of characters.
-/

namespace Relayvia.Python

/-- `str.isspace()` of one character. -/
def isSpace (c : Char) : Bool :=
  let n := c.toNat
  (9 ≤ n ∧ n ≤ 13) ∨ (28 ≤ n ∧ n ≤ 32) ∨ n = 0x85 ∨ n = 0xA0 ∨ n = 0x1680 ∨
    (0x2000 ≤ n ∧ n ≤ 0x200A) ∨ n = 0x2028 ∨ n = 0x2029 ∨ n = 0x202F ∨ n = 0x205F ∨ n = 0x3000

/-- `not s.strip()`: the string has only white space. -/
def isBlank (s : String) : Bool :=
  s.toList.all isSpace

/-- `needle in s`. -/
def contains (needle : List Char) : List Char → Bool
  | [] => needle.isEmpty
  | c :: cs => needle.isPrefixOf (c :: cs) || contains needle cs

/-- `s.count(a + b)` for a two-character needle: occurrences do not overlap. -/
def countPair (a b : Char) : List Char → ℕ
  | c :: d :: cs => if c = a ∧ d = b then countPair a b cs + 1 else countPair a b (d :: cs)
  | _ => 0

/-- `s.replace(old, new)` for a non-empty `old`, scanning from the left; the
fuel is the length of the text. -/
def replaceAux (old new : List Char) : ℕ → List Char → List Char
  | 0, s => s
  | _ + 1, [] => []
  | n + 1, c :: cs =>
      if old.isPrefixOf (c :: cs) then new ++ replaceAux old new n ((c :: cs).drop old.length)
      else c :: replaceAux old new n cs

def replace (old new s : List Char) : List Char :=
  replaceAux old new s.length s

theorem replace_eq (old new s : List Char) :
    replace old new s = Text.replace old new s := by
  have haux : ∀ (n : ℕ) (s : List Char),
      replaceAux old new n s = Text.replaceAux old new n s := by
    intro n
    induction n with
    | zero => intro s; rfl
    | succ n ih =>
        intro s
        cases s with
        | nil => rfl
        | cons c cs => rw [replaceAux, Text.replaceAux, ih, ih]
  exact haux s.length s

def hexDigit (n : ℕ) : Char :=
  Nat.digitChar (n % 16)

/-- `repr` of a string.  Characters from U+0100 on are taken as printable. -/
def repr (s : String) : String :=
  let quote := if '\'' ∈ s.toList ∧ '"' ∉ s.toList then '"' else '\''
  let escape (c : Char) : List Char :=
    if c = '\\' ∨ c = quote then ['\\', c]
    else if c = '\t' then ['\\', 't']
    else if c = '\n' then ['\\', 'n']
    else if c = '\r' then ['\\', 'r']
    else if c.toNat < 32 ∨ (127 ≤ c.toNat ∧ c.toNat ≤ 160) ∨ c.toNat = 173 then
      ['\\', 'x', hexDigit (c.toNat / 16), hexDigit c.toNat]
    else [c]
  String.ofList ([quote] ++ s.toList.flatMap escape ++ [quote])

/-! ## Equality -/

/-- The integer that a number other than a float is equal to. -/
def asInt : Json → Option ℤ
  | .bool b => some (if b then 1 else 0)
  | .int i => some i
  | _ => none

/-- `a == b` for a number `a`; `floatEqual` compares where one of two numbers is a float. -/
def equalNumbers (floatEqual : Json → Json → Bool) (a b : Json) : Bool :=
  match asInt a, b with
  | some i, .bool _ | some i, .int _ => asInt b = some i
  | none, .bool _ | none, .int _ | _, .float _ => floatEqual a b
  | _, _ => false

mutual

/-- `a == b` of two JSON values. -/
def equal (floatEqual : Json → Json → Bool) : Json → Json → Bool
  | .null, value => value = .null
  | .str s, value => value = .str s
  | .bool b, value => equalNumbers floatEqual (.bool b) value
  | .int i, value => equalNumbers floatEqual (.int i) value
  | .float bits, value => equalNumbers floatEqual (.float bits) value
  | .arr items, .arr items' => equalItems floatEqual items items'
  | .arr _, _ => false
  | .obj fields, .obj fields' =>
      fields.length = fields'.length ∧ equalFields floatEqual fields fields'
  | .obj _, _ => false

def equalItems (floatEqual : Json → Json → Bool) : List Json → List Json → Bool
  | [], [] => true
  | a :: as, b :: bs => equal floatEqual a b && equalItems floatEqual as bs
  | _, _ => false

/-- Every key of the first dict has an equal value in the second. -/
def equalFields (floatEqual : Json → Json → Bool) :
    List (String × Json) → List (String × Json) → Bool
  | [], _ => true
  | (key, a) :: fields, fields' =>
      (fields'.lookup key).any (equal floatEqual a) && equalFields floatEqual fields fields'

end

end Relayvia.Python
