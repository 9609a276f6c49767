import Relayvia.Graph
import Relayvia.Library.Outcome
import Relayvia.StateMachine

/-!
# Context references

`{{scope.path}}` references: their syntax, the extraction of all references
of a value, and the resolver that replaces them by run-time values.
-/

namespace Relayvia

/-- A parsed, unresolved reference.  `path` is kept as its segments. -/
structure ContextReference where
  raw : String
  scope : String
  path : List String
  nodeId : Option NodeId := none
  deriving DecidableEq

def ContextReference.pathText (r : ContextReference) : String :=
  ".".intercalate r.path

namespace ContextReference

def isIdentifierChar (c : Char) : Bool :=
  c.isAlphanum || c = '_' || c = '-'

def isIdentifier (segment : List Char) : Bool :=
  segment ≠ [] && segment.all isIdentifierChar

/-- `text.split(".")`. -/
def splitDots : List Char → List (List Char)
  | [] => [[]]
  | c :: cs =>
      match splitDots cs with
      | [] => [[c]]
      | segment :: rest => if c = '.' then [] :: segment :: rest else (c :: segment) :: rest

/-- What stands between the braces of a text `{{...}}`, without the white
space around it. -/
def body? (text : List Char) : Option (List Char) :=
  if ['{', '{'].isPrefixOf text && ['}', '}'].isSuffixOf text && 4 ≤ text.length then
    let inner := (text.drop 2).take (text.length - 4)
    some ((inner.dropWhile Python.isSpace).reverse.dropWhile Python.isSpace).reverse
  else none

/-- The scope alternatives of the reference pattern, on the dotted segments. -/
def ofSegments (raw : String) : List String → Option ContextReference
  | "workflow" :: "input" :: p :: ps => some { raw, scope := "workflow.input", path := p :: ps }
  | "workflow" :: "variables" :: p :: ps =>
      some { raw, scope := "workflow.variables", path := p :: ps }
  | "nodes" :: id :: "output" :: p :: ps =>
      some { raw, scope := "nodes." ++ id ++ ".output", path := p :: ps, nodeId := some id }
  | "run" :: p :: ps => some { raw, scope := "run", path := p :: ps }
  | _ => none

end ContextReference

open ContextReference in
/-- `_REFERENCE.fullmatch(value)`. -/
def matchReference (value : String) : Option ContextReference := do
  let body ← body? value.toList
  let segments := splitDots body
  if segments.all isIdentifier then ofSegments value (segments.map String.ofList) else none

def parseContextReference (value : String) : Except RelayviaError ContextReference :=
  match matchReference value with
  | some reference => .ok reference
  | none =>
      .error
        { code := "INVALID_CONTEXT_REFERENCE"
          message := "Context reference syntax is invalid"
          details := [("reference", .str value)] }

/-- The text up to and including the next `}}` on the same line. -/
def closing? : List Char → Option (List Char × List Char)
  | '}' :: '}' :: rest => some (['}', '}'], rest)
  | '\n' :: _ => none
  | c :: cs => (closing? cs).map fun (inner, rest) ↦ (c :: inner, rest)
  | [] => none

/-- `_TEMPLATE.finditer(value)`, scanning from the left; the fuel is the length
of the text. -/
def templatesAux : ℕ → List Char → List String
  | 0, _ => []
  | n + 1, '{' :: '{' :: cs =>
      match closing? cs with
      | some (inner, rest) => String.ofList ('{' :: '{' :: inner) :: templatesAux n rest
      | none => templatesAux n ('{' :: cs)
  | n + 1, _ :: cs => templatesAux n cs
  | _ + 1, [] => []

def templates (value : String) : List String :=
  templatesAux value.length value.toList

/-- Parse all template references in a string, rejecting malformed braces. -/
def parseContextReferences (value : String) : Except RelayviaError (List ContextReference) := do
  let opens := Python.contains ['{', '{'] value.toList
  let closes := Python.contains ['}', '}'] value.toList
  if ¬opens ∧ ¬closes then return []
  let matched := templates value
  if opens ∧ matched = [] then
    throw
      { code := "INVALID_CONTEXT_REFERENCE"
        message := "Context reference is missing a closing delimiter"
        details := [("value", .str value)] }
  let references ← matched.mapM parseContextReference
  if Python.countPair '{' '{' value.toList ≠ Python.countPair '}' '}' value.toList then
    throw
      { code := "INVALID_CONTEXT_REFERENCE"
        message := "Context reference delimiters are unbalanced"
        details := [("value", .str value)] }
  return references

mutual

/-- Recursively parse references in JSON-compatible values. -/
def extractContextReferences : Json → Except RelayviaError (List ContextReference)
  | .str text => parseContextReferences text
  | .obj fields => extractFromFields fields
  | .arr items => extractFromItems items
  | _ => .ok []

def extractFromFields : List (String × Json) → Except RelayviaError (List ContextReference)
  | [] => .ok []
  | (_, child) :: fields => do
      return (← extractContextReferences child) ++ (← extractFromFields fields)

def extractFromItems : List Json → Except RelayviaError (List ContextReference)
  | [] => .ok []
  | child :: items => do
      return (← extractContextReferences child) ++ (← extractFromItems items)

end

/-! ## Resolution -/

structure UnresolvedContextReference where
  reference : String
  message : String
  deriving DecidableEq

/-- The data a resolver reads.  `pyStr` is Python's `str` of a
JSON value that is not a string. -/
structure ContextResolver where
  workflowInput : Dict := []
  workflowVariables : Dict := []
  nodeOutputs : List (NodeId × Json) := []
  run : Dict := []
  pyStr : Json → String

namespace ContextResolver

def stringify (resolver : ContextResolver) : Json → String
  | .null => ""
  | .bool b => if b then "true" else "false"
  | .str s => s
  | value => resolver.pyStr value

/-- Follow the path through nested dicts; any missing step raises. -/
def navigate (reference : ContextReference) :
    Json → List String → Except UnresolvedContextReference Json
  | data, [] => .ok data
  | data, part :: path =>
      match data.get? part with
      | some child => navigate reference child path
      | none =>
          .error ⟨reference.raw, "Value " ++ Python.repr reference.pathText ++ " is not available"⟩

def resolveReference (resolver : ContextResolver) (reference : ContextReference) :
    Except UnresolvedContextReference Json :=
  if reference.scope = "workflow.input" then
    navigate reference (.obj resolver.workflowInput) reference.path
  else if reference.scope = "workflow.variables" then
    navigate reference (.obj resolver.workflowVariables) reference.path
  else if reference.scope = "run" then
    navigate reference (.obj resolver.run) reference.path
  else
    match reference.nodeId with
    | some id =>
        match resolver.nodeOutputs.lookup id with
        | some output => navigate reference output reference.path
        | none => .error ⟨reference.raw, "Node " ++ Python.repr id ++ " has no output yet"⟩
    | none =>
        .error ⟨reference.raw, "Unsupported reference scope " ++ Python.repr reference.scope⟩

/-- Replace the references of a text one after the other. -/
def interpolate (resolver : ContextResolver) :
    List Char → List ContextReference → Except UnresolvedContextReference Json
  | text, [] => .ok (.str (String.ofList text))
  | text, reference :: references => do
      let value ← resolver.resolveReference reference
      interpolate resolver
        (Python.replace reference.raw.toList (resolver.stringify value).toList text) references

/-- A pure reference keeps the type of its value; references inside a text are
interpolated as strings. -/
def resolveString (resolver : ContextResolver) (text : String) :
    Except UnresolvedContextReference Json :=
  if ¬Python.contains ['{', '{'] text.toList then .ok (.str text)
  else
    match matchReference text with
    | some reference => resolver.resolveReference reference
    | none =>
        match parseContextReferences text with
        | .ok references => resolver.interpolate text.toList references
        | .error e => .error ⟨text, e.message⟩

mutual

def resolve (resolver : ContextResolver) : Json → Except UnresolvedContextReference Json
  | .obj fields => do return .obj (← resolveFields resolver fields)
  | .arr items => do return .arr (← resolveItems resolver items)
  | .str text => resolver.resolveString text
  | value => .ok value

def resolveFields (resolver : ContextResolver) :
    List (String × Json) → Except UnresolvedContextReference (List (String × Json))
  | [] => .ok []
  | (key, child) :: fields => do
      return (key, ← resolve resolver child) :: (← resolveFields resolver fields)

def resolveItems (resolver : ContextResolver) :
    List Json → Except UnresolvedContextReference (List Json)
  | [] => .ok []
  | child :: items => do return (← resolve resolver child) :: (← resolveItems resolver items)

end

end ContextResolver

theorem resolve_plain (resolver : ContextResolver) {text : String}
    (h : Python.contains ['{', '{'] text.toList = false) :
    resolver.resolve (.str text) = .ok (.str text) := by
  rw [ContextResolver.resolve, ContextResolver.resolveString, h]
  rfl

/-- A field of a resolved dict is the resolved field. -/
theorem resolveFields_get? {resolver : ContextResolver} {fields resolved : List (String × Json)}
    (h : resolver.resolveFields fields = .ok resolved) {key : String} {value : Json}
    (hvalue : fields.lookup key = some value) :
    ∃ value', resolver.resolve value = .ok value' ∧ resolved.lookup key = some value' := by
  induction fields generalizing resolved with
  | nil => cases hvalue
  | cons entry fields ih =>
      obtain ⟨k, child⟩ := entry
      rw [ContextResolver.resolveFields] at h
      obtain ⟨child', hchild, h⟩ := Outcome.bind_eq_ok_iff.mp h
      obtain ⟨rest, hrest, h⟩ := Outcome.bind_eq_ok_iff.mp h
      cases h
      rw [List.lookup_cons] at hvalue ⊢
      cases hkey : key == k with
      | true =>
          rw [hkey] at hvalue
          cases hvalue
          exact ⟨child', hchild, rfl⟩
      | false =>
          rw [hkey] at hvalue
          exact ih hrest hvalue

theorem resolveFields_keys {resolver : ContextResolver} {fields resolved : List (String × Json)}
    (h : resolver.resolveFields fields = .ok resolved) :
    resolved.map Prod.fst = fields.map Prod.fst := by
  induction fields generalizing resolved with
  | nil =>
      cases h
      rfl
  | cons entry fields ih =>
      rw [ContextResolver.resolveFields] at h
      obtain ⟨child', -, h⟩ := Outcome.bind_eq_ok_iff.mp h
      obtain ⟨rest, hrest, h⟩ := Outcome.bind_eq_ok_iff.mp h
      cases h
      rw [List.map_cons, List.map_cons, ih hrest]

theorem resolveFields_get?_none {resolver : ContextResolver}
    {fields resolved : List (String × Json)} (h : resolver.resolveFields fields = .ok resolved)
    {key : String} (hnone : fields.lookup key = none) : resolved.lookup key = none := by
  rw [List.lookup_eq_none_iff] at hnone ⊢
  intro entry hentry
  have hkey : entry.1 ∈ fields.map Prod.fst := by
    rw [← resolveFields_keys h]
    exact List.mem_map_of_mem hentry
  obtain ⟨entry', hentry', heq⟩ := List.mem_map.mp hkey
  rw [← heq]
  exact hnone entry' hentry'

theorem mem_resolveItems {resolver : ContextResolver} {items resolved : List Json}
    (h : resolver.resolveItems items = .ok resolved) {item' : Json} (hitem : item' ∈ resolved) :
    ∃ item ∈ items, resolver.resolve item = .ok item' := by
  induction items generalizing resolved with
  | nil =>
      cases h
      cases hitem
  | cons item items ih =>
      rw [ContextResolver.resolveItems] at h
      obtain ⟨child', hchild, h⟩ := Outcome.bind_eq_ok_iff.mp h
      obtain ⟨rest, hrest, h⟩ := Outcome.bind_eq_ok_iff.mp h
      cases h
      rcases List.mem_cons.mp hitem with rfl | hmem
      · exact ⟨item, List.mem_cons_self, hchild⟩
      · obtain ⟨source, hsource, hresolve⟩ := ih hrest hmem
        exact ⟨source, List.mem_cons_of_mem _ hsource, hresolve⟩

end Relayvia
