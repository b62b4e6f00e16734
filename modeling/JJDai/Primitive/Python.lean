import JJDai.Lib.JsonText

/-! Exceptions and the few built-in operations the modelled code applies to
values whose type it has not checked. -/

namespace JJDai

open PyText

/-- Exception classes the modelled code can raise. -/
inductive PyClass where
  | keyError | typeError | attributeError | indexError | valueError
  | unicodeEncodeError | unicodeDecodeError | osError | runtimeError
  | journalCorruption | chainError | replicationError | segmentError | peerError | planeSchemaError
  | reservedValueError | challengeError | containmentError | overflowError | validationError
  | verdictError | crossVerifyError | entanglementError | anchorError | refusalError
  | diversityError | traceError | continuityError | stopIteration | beingRuntimeError | karmaError
  | actionRefused | sandboxEscape | isolationRefused | journalChainMismatch | vivekaError
  | coreBlockFull | portabilityError | authorizationError | planeHError | sqliteError
  | manifestError | attestationError | identityError | artifactBindingError (manifestVerified : Bool) | provenanceValueError
  | releaseError (code : Str) | toolsetError (code : Str) | sourceTreeError (code : Str)
  | pureBoundaryError (code : Str) | zeroDivisionError | xmrAnchorError
  deriving DecidableEq

/-- An exception; `text` is the message the source writes, empty for the
interpreter's own messages. -/
structure PyErr where
  kind : PyClass
  text : Str := []
  deriving DecidableEq

def PyErr.isValueError (e : PyErr) : Bool :=
  match e.kind with
  | .releaseError _ | .toolsetError _ | .sourceTreeError _ | .pureBoundaryError _ => true
  | kind => kind ∈ [.valueError, .unicodeEncodeError, .unicodeDecodeError, .planeSchemaError,
    .reservedValueError, .validationError, .provenanceValueError]

abbrev Py (α : Type u) := Except PyErr α

def raise (kind : PyClass) (text : Str := []) : Py α := .error ⟨kind, text⟩

theorem Py.bind_ok {x : Py α} {f : α → Py β} {b : β} :
    x.bind f = .ok b ↔ ∃ a, x = .ok a ∧ f a = .ok b := by
  cases x with
  | error e => simp [Except.bind]
  | ok a => simp [Except.bind]

theorem Py.unless_ok {p : Prop} [Decidable p] {kind : PyClass} {text : Str} {f : α → Py β}
    {rest : Py β} {b : β} :
    (if p then (raise kind text : Py α).bind f else rest) = .ok b ↔ ¬p ∧ rest = .ok b := by
  split <;> simp [*, raise, Except.bind]

theorem guard_ok {p : Prop} [Decidable p] {rest : Py (Bool × Str)} {text reason : Str} :
    (if p then pure (false, text) else rest) = .ok (true, reason) ↔
      ¬p ∧ rest = .ok (true, reason) := by
  split <;> simp [*, pure, Except.pure]

theorem read_ok {x : Py Json} {expected : Json} {rest : Prop} :
    (∃ value, x = .ok value ∧ ¬value ≠ expected ∧ rest) ↔ x = .ok expected ∧ rest := by
  constructor
  · rintro ⟨value, read, same, after⟩
    exact ⟨read.trans (congrArg Except.ok (not_not.mp same)), after⟩
  · rintro ⟨read, after⟩
    exact ⟨expected, read, not_not.mpr rfl, after⟩

theorem guard_none {p : Prop} [Decidable p] {rest : Py (Option Str)} {text : Str} :
    (if p then pure (some text) else rest) = .ok none ↔ ¬p ∧ rest = .ok none := by
  split <;> simp [*, pure, Except.pure]

theorem Py.exists_of_isOk {x : Py α} (ok : x.isOk = true) : ∃ a, x = .ok a := by
  cases x with
  | ok a => exact ⟨a, rfl⟩
  | error e => cases ok

theorem ok_bind (a : α) (f : α → Py β) : (Except.ok a : Py α).bind f = f a := rfl

theorem bind_error {x : Py α} {f : α → Py β} {e : PyErr} (failed : x.bind f = .error e) :
    x = .error e ∨ ∃ a, x = .ok a ∧ f a = .error e := by
  cases x with
  | error other => exact .inl (congrArg _ (Except.error.inj failed))
  | ok a => exact .inr ⟨a, rfl, failed⟩

theorem Py.mapM_ok {f : α → Py β} {items : List α} {results : List β} :
    items.mapM f = .ok results ↔ List.Forall₂ (fun item result => f item = .ok result) items results := by
  induction items generalizing results with
  | nil => simp [pure, Except.pure, eq_comm]
  | cons item rest ih =>
    simp only [List.mapM_cons, bind, Py.bind_ok, pure, Except.pure, Except.ok.injEq, ih]
    constructor
    · rintro ⟨first, made, later, others, rfl⟩
      exact .cons made others
    · rintro (_ | ⟨made, others⟩)
      exact ⟨_, made, _, others, rfl⟩

theorem mapM_ok_map {f : α → Py β} {g : α → β} {items : List α} (each : ∀ item ∈ items, f item = .ok (g item)) :
    items.mapM f = .ok (items.map g) := by
  induction items with
  | nil => rfl
  | cons item rest ih =>
    have later := ih (fun other member => each other (List.mem_cons_of_mem _ member))
    rw [List.mapM_cons, each item List.mem_cons_self, later]
    rfl

theorem mapM_of_forall {α β : Type} {f : α → Py β} {items : List α} (each : ∀ item ∈ items, ∃ row, f item = .ok row) :
    ∃ rows, items.mapM f = .ok rows := by
  induction items with
  | nil => exact ⟨[], rfl⟩
  | cons item rest ih =>
    obtain ⟨row, first⟩ := each item List.mem_cons_self
    obtain ⟨rows, later⟩ := ih (fun other member => each other (List.mem_cons_of_mem _ member))
    exact ⟨row :: rows, Py.mapM_ok.mpr (.cons first (Py.mapM_ok.mp later))⟩

/-- What a comprehension returns comes from its items, and each of them returns something. -/
theorem rows_of_mapM {α β : Type} {f : α → Py β} {items : List α} {rows : List β} (made : items.mapM f = .ok rows) :
    (∀ item ∈ items, ∃ row ∈ rows, f item = .ok row) ∧ ∀ row ∈ rows, ∃ item ∈ items, f item = .ok row := by
  have pairs := Py.mapM_ok.mp made
  clear made
  induction pairs with
  | nil =>
    exact ⟨fun item member => absurd member List.not_mem_nil, fun row member => absurd member List.not_mem_nil⟩
  | @cons item row items rows first _ ih =>
    constructor
    · intro other member
      rcases List.mem_cons.mp member with rfl | later
      · exact ⟨row, List.mem_cons_self, first⟩
      · obtain ⟨found, among, made⟩ := ih.1 other later
        exact ⟨found, List.mem_cons_of_mem _ among, made⟩
    · intro other member
      rcases List.mem_cons.mp member with rfl | later
      · exact ⟨item, List.mem_cons_self, first⟩
      · obtain ⟨found, among, made⟩ := ih.2 other later
        exact ⟨found, List.mem_cons_of_mem _ among, made⟩

def subscript (j : Json) (key : Str) : Py Json :=
  match j with
  | .obj fields =>
    match Dict.get? fields key with
    | some value => .ok value
    | none => raise .keyError key
  | _ => raise .typeError

def dotGet (j : Json) (key : Str) : Py Json :=
  match j with
  | .obj fields => .ok ((Dict.get? fields key).getD .null)
  | _ => raise .attributeError

def truthy : Json → Bool
  | .null => false
  | .bool value => value
  | .int value => value != 0
  | .float value => value.toInt? != some 0
  | .str s => s != []
  | .arr items => items != []
  | .obj fields => fields != []

/-- `isinstance(value, int)`, with the number it is; a `bool` is an `int`. -/
def asInt? : Json → Option Int
  | .int value => some value
  | .bool value => some (if value then 1 else 0)
  | _ => none

def pyList : Json → Py (List Json)
  | .arr items => .ok items
  | .str s => .ok (s.map (fun c => .str [c]))
  | .obj fields => .ok (fields.map (fun entry => .str entry.1))
  | _ => raise .typeError

def bytesFromHex : Json → Py Bytes
  | .str s =>
    match fromHex s with
    | some bytes => .ok bytes
    | none => raise .valueError
  | _ => raise .typeError

/-- `s.split(separator)` for a one-character separator. -/
def splitAt (separator : CodePoint) : Str → List Str
  | [] => [[]]
  | c :: rest =>
    if c = separator then [] :: splitAt separator rest
    else
      match splitAt separator rest with
      | [] => [[c]]
      | part :: parts => (c :: part) :: parts

theorem splitAt_nil (separator : CodePoint) : splitAt separator [] = [[]] := rfl

theorem splitAt_cons (separator c : CodePoint) (rest : Str) :
    splitAt separator (c :: rest) =
      if c = separator then [] :: splitAt separator rest
      else
        match splitAt separator rest with
        | [] => [[c]]
        | part :: parts => (c :: part) :: parts := rfl

/-- `repr(s)`; characters outside ASCII are taken as printable. -/
def pyRepr (s : Str) : Str :=
  let quote := if ch '\'' ∈ s ∧ ch '"' ∉ s then ch '"' else ch '\''
  let escaped := s.flatMap (fun c =>
    if c = quote ∨ c = ch '\\' then [ch '\\', c]
    else if c = ch '\n' then [ch '\\', ch 'n']
    else if c = ch '\r' then [ch '\\', ch 'r']
    else if c = ch '\t' then [ch '\\', ch 't']
    else if c.val < 0x20 ∨ c.val = 0x7F then
      [ch '\\', ch 'x', hexDigit (c.val / 16), hexDigit (c.val % 16)]
    else [c])
  quote :: (escaped ++ [quote])

mutual

def reprJson : Json → Str
  | .null => "None"
  | .bool true => "True"
  | .bool false => "False"
  | .int value => intText value
  | .float .nan => "nan"
  | .float (.infinity false) => "inf"
  | .float (.infinity true) => "-inf"
  | .float value => value.text
  | .str s => pyRepr s
  | .arr items => ch '[' :: (joinWith ", " (reprItems items) ++ [ch ']'])
  | .obj fields => ch '{' :: (joinWith ", " (reprFields fields) ++ [ch '}'])

def reprItems : List Json → List Str
  | [] => []
  | item :: rest => reprJson item :: reprItems rest

def reprFields : Dict Str Json → List Str
  | [] => []
  | (key, value) :: rest => (pyRepr key ++ ": " ++ reprJson value) :: reprFields rest

end

def pyStr : Json → Str
  | .str s => s
  | value => reprJson value

/-- Values a `set` or a `dict` key can hold. -/
def hashable : Json → Bool
  | .arr _ => false
  | .obj _ => false
  | _ => true

def setContains (s : List Json) (value : Json) : Py Bool := do
  if !hashable value then raise .typeError
  return s.any (fun member => decide (Json.pyEq member value))

def setAdd (s : List Json) (value : Json) : Py (List Json) := do
  if ← setContains s value then return s
  return s ++ [value]

/-- `n < value` for a natural number on the left. -/
def natLess (n : Nat) : Json → Py Bool
  | .int value => return decide ((n : Int) < value)
  | .bool value => return decide (n < if value then 1 else 0)
  | .float .nan => return false
  | .float (.infinity negative) => return !negative
  | .float (.finite d) =>
    match (PyFloat.finite d).toInt? with
    | some whole => return decide ((n : Int) < whole)
    | none => return !d.negative && decide (n * 10 ^ d.exponent.natAbs < d.digits)
  | _ => raise .typeError

def ascii (text : String) : Bytes := text.toList.map (fun c => UInt8.ofNat c.toNat)

def encode (s : Str) : Py Bytes :=
  match encodeUtf8 s with
  | some bytes => .ok bytes
  | none => raise .unicodeEncodeError

@[simp] theorem subscript_obj {fields : Dict Str Json} {key : Str} {value : Json} :
    subscript (.obj fields) key = .ok value ↔ Dict.get? fields key = some value := by
  rw [subscript]
  cases Dict.get? fields key <;> simp [raise]

@[simp] theorem dotGet_obj (fields : Dict Str Json) (key : Str) :
    dotGet (.obj fields) key = .ok ((Dict.get? fields key).getD .null) := rfl

theorem some_of_getD {fields : Dict Str Json} {key : Str} {value : Json}
    (read : (Dict.get? fields key).getD .null = value) (present : value ≠ .null) :
    Dict.get? fields key = some value := by
  cases found : Dict.get? fields key with
  | none => exact absurd (by rw [← read, found]; rfl) present
  | some other => rw [← read, found]; rfl

theorem obj_of_dotGet {j value : Json} {key : Str} (read : dotGet j key = .ok value) :
    ∃ fields, j = .obj fields := by
  cases j with
  | obj fields => exact ⟨fields, rfl⟩
  | _ => cases read

theorem obj_of_subscript {j value : Json} {key : Str} (read : subscript j key = .ok value) :
    ∃ fields, j = .obj fields := by
  cases j with
  | obj fields => exact ⟨fields, rfl⟩
  | _ => cases read

theorem bytesFromHex_toHex (bytes : Bytes) : bytesFromHex (.str (toHex bytes)) = .ok bytes := by
  simp only [bytesFromHex, fromHex_toHex]

theorem bytesFromHex_ok {j : Json} {bytes : Bytes} :
    bytesFromHex j = .ok bytes ↔ ∃ text, j = .str text ∧ fromHex text = some bytes := by
  cases j with
  | str text =>
    cases decoded : fromHex text with
    | none => simp [bytesFromHex, decoded, raise]
    | some key => simp [bytesFromHex, decoded]
  | _ => simp [bytesFromHex, raise]

end JJDai
