import JJDai.Lib.NumberOrder
import JJDai.Primitive.CanonicalText
import JJDai.Primitive.Witness

/-! `jjdai.schema`: typed fields and strict object schemas. -/

namespace JJDai

open PyText Canonical

/-- A typed-boundary rejection, or another exception on the way. -/
inductive SchemaErr where
  | invalid (path code detail : Str)
  | raised (e : PyErr)
  deriving DecidableEq

abbrev Validated := Except SchemaErr

abbrev Validator := Json → Str → Validated Json

def invalid (path code detail : Str) : Validated α := .error (.invalid path code detail)

/-- The exception a rejection is: `ValidationError`, a `ValueError`. -/
def SchemaErr.err : SchemaErr → PyErr
  | .invalid path code detail => ⟨.validationError, path ++ ": " ++ detail ++ " [" ++ code ++ "]"⟩
  | .raised e => e

inductive FieldType where
  | str | int | float | bool | list | dict
  deriving DecidableEq

def FieldType.name : FieldType → Str
  | .str => "str"
  | .int => "int"
  | .float => "float"
  | .bool => "bool"
  | .list => "list"
  | .dict => "dict"

def typeName : Json → Str
  | .null => "NoneType"
  | .bool _ => "bool"
  | .int _ => "int"
  | .float _ => "float"
  | .str _ => "str"
  | .arr _ => "list"
  | .obj _ => "dict"

def FieldType.holds : FieldType → Json → Bool
  | .str, .str _ => true
  | .int, .int _ => true
  | .int, .bool _ => true
  | .float, .float _ => true
  | .bool, .bool _ => true
  | .list, .arr _ => true
  | .dict, .obj _ => true
  | _, _ => false

/-- A regular expression: its text, what `match` accepts, and what it matches in full. -/
structure Pattern where
  source : Str
  accepts : Str → Bool
  fullmatch : Str → Bool

/-- `^head[body]{least,most}$`; a `$` also stands before a last newline. -/
def Pattern.line (source head : Str) (body : CodePoint → Bool) (least : Nat) (most : Option Nat) : Pattern :=
  let counted (text : Str) : Bool :=
    text.all body && least ≤ text.length && most.all (fun most => text.length ≤ most)
  { source
    accepts := fun s =>
      let rest := s.drop head.length
      s.take head.length == head && counted (if rest.getLast? = some (ch '\n') then rest.dropLast else rest)
    fullmatch := fun s => s.take head.length == head && counted (s.drop head.length) }

inductive Number where
  | int (n : Int)
  | float (x : PyFloat)
  deriving DecidableEq

def Number.toJson : Number → Json
  | .int n => .int n
  | .float x => .float x

/-- `Field`; the nested schema and the item's field are there as their `validate`. -/
structure Field where
  type : FieldType
  required : Bool := true
  default : Option Json := none
  minLen : Option Nat := none
  maxLen : Option Nat := none
  minVal : Option Number := none
  maxVal : Option Number := none
  enum : List Json := []
  pattern : Option Pattern := none
  schema : Option Validator := none
  item : Option Validator := none
  nullable : Bool := false

def numberLess (a b : Json) : Bool :=
  match a, b with
  | .float x, .float y => x.less y
  | .float x, b => (asInt? b).any (fun n => x.below n)
  | a, .float y => (asInt? a).any (fun n => y.exceeds n)
  | a, b => (asInt? a).any (fun n => (asInt? b).any (fun m => n < m))

namespace Field

variable (f : Field)

def checkText (s : Str) (path : Str) : Validated Unit := do
  if let some least := f.minLen then
    if s.length < least then
      invalid path "min_len" ("shorter than " ++ natText least ++ " chars")
  if let some most := f.maxLen then
    if most < s.length then
      invalid path "max_len" ("longer than " ++ natText most ++ " chars (got " ++
        natText s.length ++ ")")
  if let some pattern := f.pattern then
    if !pattern.accepts s then invalid path "pattern" ("does not match " ++ pattern.source)

def checkRange (value : Json) (path : Str) : Validated Unit := do
  if let some least := f.minVal then
    if numberLess value least.toJson then invalid path "min_val" ("below " ++ reprJson least.toJson)
  if let some most := f.maxVal then
    if numberLess most.toJson value then invalid path "max_val" ("above " ++ reprJson most.toJson)

def checkSize (items : List Json) (path : Str) : Validated Unit := do
  if let some least := f.minLen then
    if items.length < least then
      invalid path "min_items" ("fewer than " ++ natText least ++ " items")
  if let some most := f.maxLen then
    if most < items.length then
      invalid path "max_items" ("more than " ++ natText most ++ " items (got " ++
        natText items.length ++ ")")

/-- A `bool` is no number here, and an `int` is a `float` on the wire. -/
def coerce (value : Json) (path : Str) : Validated Json :=
  match f.type, value with
  | .int, .bool _ => invalid path "type" "expected int, got bool"
  | .float, .bool _ => invalid path "type" "expected float, got bool"
  | .float, .int n =>
    match PyFloat.ofInt n with
    | some x => return .float x
    | none => .error (.raised ⟨.overflowError, []⟩)
  | _, _ => return value

/-- The checks by the value's own type, and the validation of what is inside. -/
def checkValue (value : Json) (path : Str) : Validated Json := do
  match value with
  | .str s =>
    f.checkText s path
    return value
  | .bool _ =>
    f.checkRange value path
    return value
  | .int _ =>
    f.checkRange value path
    return value
  | .float _ =>
    f.checkRange value path
    return value
  | .arr items =>
    f.checkSize items path
    match f.item with
    | none => return value
    | some validate =>
      let checked ← items.zipIdx.mapM (fun entry =>
        validate entry.1 (path ++ "[" ++ natText entry.2 ++ "]"))
      return .arr checked
  | .obj _ =>
    match f.schema with
    | none => return value
    | some validate => validate value path
  | _ => return value

def validate : Validator := fun value path => do
  if value = .null then
    if f.nullable then return .null
    else invalid path "null" "value may not be null"
  else
    let value ← f.coerce value path
    if !f.type.holds value then
      invalid path "type" ("expected " ++ f.type.name ++ ", got " ++ typeName value)
    if f.enum ≠ [] ∧ ¬f.enum.any (fun allowed => Json.pyEq value allowed) then
      invalid path "enum" ("must be one of " ++ reprJson (.arr f.enum))
    f.checkValue value path

end Field

structure Schema where
  name : Str
  fields : List (Str × Field)
  strict : Bool := true

namespace Schema

def collect (entries : Dict Str Json) (p : Str) : List (Str × Field) → Validated (Dict Str Json)
  | [] => return []
  | (name, f) :: rest => do
    let fp := if p ≠ [] then p ++ "." ++ name else name
    match Dict.get? entries name with
    | none =>
      if f.required then invalid fp "missing" "required field absent"
      let later ← collect entries p rest
      match f.default with
      | some value => return (name, value) :: later
      | none => return later
    | some value =>
      let checked ← f.validate value fp
      let later ← collect entries p rest
      return (name, checked) :: later

def validate (schema : Schema) : Validator := fun obj path => do
  let p := if path ≠ [] then path else schema.name
  match obj with
  | .obj entries =>
    let unknown := (Dict.keys entries).filter (fun key => key ∉ schema.fields.map Prod.fst)
    if schema.strict then
      if let first :: _ := unknown.insertionSort (· ≤ ·) then
        invalid (p ++ "." ++ first) "unknown" "unknown field (strict schema)"
    let out ← collect entries p schema.fields
    return .obj out
  | other => invalid p "type" ("expected object, got " ++ typeName other)

end Schema

def maxIdLen : Nat := 128
def maxTextLen : Nat := 32768
def maxMessages : Nat := 256
def maxAdapters : Nat := 8
def maxTokensHard : Nat := 131072
def maxList : Nat := 1024
def maxReasonLen : Nat := 512

def isIdChar (c : CodePoint) : Bool :=
  isDigit c || (65 ≤ c.val && c.val ≤ 90) || (97 ≤ c.val && c.val ≤ 122) || c == ch '.' ||
    c == ch '_' || c == ch '-'

def hex64Pattern : Pattern := .line "^[0-9a-f]\x7b64\x7d$" [] isLowerHex 64 (some 64)

def hexAnyPattern : Pattern := .line "^[0-9a-f]+$" [] isLowerHex 1 none

def shaIdPattern : Pattern := .line "^sha256:[0-9A-Za-z._\\-]\x7b1,96\x7d$" "sha256:" isIdChar 1 (some 96)

def nodeIdPattern : Pattern := .line "^node:[0-9A-Za-z._\\-]\x7b4,96\x7d$" "node:" isIdChar 4 (some 96)

def roles : List Str := ["system", "user", "assistant", "tool"]

def determinismLevels : List Str := ["attested", "reproducible"]

def floatBound (n : Nat) : Number := .float (.finite (.ofDigits false n 0))

def messageSchema : Schema where
  name := "Message"
  fields := [("role", { type := .str, enum := roles.map .str }),
    ("content", { type := .str, maxLen := some maxTextLen })]

def samplingSchema : Schema where
  name := "Sampling"
  fields := [
    ("seed",
      { type := .int, required := false, minVal := some (.int 0),
        maxVal := some (.int (2 ^ 63 - 1)) }),
    ("temperature", { type := .float, minVal := some (floatBound 0), maxVal := some (floatBound 2) }),
    ("top_p", { type := .float, minVal := some (floatBound 0), maxVal := some (floatBound 1) }),
    ("top_k",
      { type := .int, required := false, minVal := some (.int 0), maxVal := some (.int 100000) }),
    ("max_tokens", { type := .int, minVal := some (.int 1), maxVal := some (.int maxTokensHard) })]

def inferenceRequest : Schema where
  name := "InferenceRequest"
  fields := [
    ("substrate_id", { type := .str, pattern := some shaIdPattern }),
    ("adapter_ids",
      { type := .list, maxLen := some maxAdapters,
        item := some (Field.validate { type := .str, pattern := some shaIdPattern }) }),
    ("messages",
      { type := .list, minLen := some 1, maxLen := some maxMessages,
        item := some (Field.validate { type := .dict, schema := some messageSchema.validate }) }),
    ("sampling", { type := .dict, schema := some samplingSchema.validate }),
    ("request_id", { type := .str, minLen := some 1, maxLen := some maxIdLen }),
    ("nonce", { type := .str, minLen := some 8, maxLen := some maxIdLen }),
    ("champion_context",
      { type := .str, required := false, nullable := true, maxLen := some maxIdLen }),
    ("tokens",
      { type := .list, required := false, maxLen := some maxList,
        item := some (Field.validate { type := .str, maxLen := some 256 }) })]

def verdictEnvelope : Schema where
  name := "VerdictEnvelope"
  fields := [
    ("ok", { type := .bool }),
    ("reachable", { type := .list, maxLen := some maxList, item := some (Field.validate { type := .bool }) }),
    ("min_margin", { type := .float, minVal := some (floatBound 0), maxVal := some (floatBound 1) }),
    ("verifier_fp", { type := .str, minLen := some 1, maxLen := some maxIdLen }),
    ("determinism", { type := .str, enum := determinismLevels.map .str }),
    ("note", { type := .str, required := false, maxLen := some maxReasonLen }),
    ("verifier_node_id", { type := .str, required := false, pattern := some nodeIdPattern }),
    ("context_hash", { type := .str, required := false, pattern := some hex64Pattern }),
    ("nonce", { type := .str, required := false, minLen := some 8, maxLen := some maxIdLen }),
    ("sig",
      { type := .str, required := false, pattern := some hexAnyPattern, minLen := some 128,
        maxLen := some 128 })]

end JJDai
