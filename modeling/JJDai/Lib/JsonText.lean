import JJDai.Lib.Hex
import JJDai.Lib.Json

/-! `json.dumps(obj, sort_keys=True, ensure_ascii=False)` and `json.loads`. -/

namespace PyText

def natText (n : Nat) : Str := (Nat.toDigits 10 n).map CodePoint.ofChar

def intText (n : Int) : Str :=
  if n < 0 then ch '-' :: natText n.natAbs else natText n.natAbs

def zeros (n : Nat) : Str := List.replicate n (ch '0')

/-- Exponents are printed with a sign and at least two digits. -/
def exponentText (e : Int) : Str :=
  (if e < 0 then ch '-' else ch '+') :: (if e.natAbs < 10 then zeros 1 else []) ++ natText e.natAbs

def signed (negative : Bool) (body : Str) : Str := if negative then ch '-' :: body else body

/-- `repr(float)` of a finite value without its sign, from its shortest digits. -/
def Decimal.body (d : Decimal) : Str :=
  let digits := natText d.digits
  let point : Int := digits.length + d.exponent
  if -4 < point ∧ point ≤ 16 then
    if point ≤ 0 then [ch '0'] ++ ch '.' :: (zeros point.natAbs ++ digits)
    else if d.exponent < 0 then digits.take point.toNat ++ ch '.' :: digits.drop point.toNat
    else (digits ++ zeros d.exponent.toNat) ++ [ch '.', ch '0']
  else
    digits.take 1 ++ ((if 1 < digits.length then ch '.' :: digits.drop 1 else []) ++
      ch 'e' :: exponentText (point - 1))

def Decimal.text (d : Decimal) : Str := signed d.negative d.body

def PyFloat.text : PyFloat → Str
  | .finite value => value.text
  | .infinity true => "-Infinity"
  | .infinity false => "Infinity"
  | .nan => "NaN"

def codePoint (n : Nat) : CodePoint := Fin.ofNat _ n

/-- The two-character escapes: the character and its letter after the backslash. -/
def shortEscapes : Dict CodePoint CodePoint :=
  [(codePoint 0x22, ch '"'), (codePoint 0x5C, ch '\\'), (codePoint 0x08, ch 'b'),
    (codePoint 0x09, ch 't'), (codePoint 0x0A, ch 'n'), (codePoint 0x0C, ch 'f'),
    (codePoint 0x0D, ch 'r')]

def shortEscape (c : CodePoint) : Option CodePoint := Dict.get? shortEscapes c

def escapeChar (c : CodePoint) : Str :=
  match shortEscape c with
  | some letter => [ch '\\', letter]
  | none =>
    if c.val < 0x20 then
      [ch '\\', ch 'u', ch '0', ch '0', hexDigit (c.val / 16), hexDigit (c.val % 16)]
    else [c]

def quoted (s : Str) : Str := ch '"' :: (s.flatMap escapeChar ++ [ch '"'])

def joinWith (separator : Str) : List Str → Str
  | [] => []
  | [text] => text
  | text :: rest => text ++ separator ++ joinWith separator rest

namespace Json

mutual

/-- The text of a value in the dict order it has. -/
def render : Json → Str
  | .null => "null"
  | .bool true => "true"
  | .bool false => "false"
  | .int n => intText n
  | .float x => x.text
  | .str s => quoted s
  | .arr items => ch '[' :: (joinWith ", " (renderItems items) ++ [ch ']'])
  | .obj fields => ch '{' :: (joinWith ", " (renderFields fields) ++ [ch '}'])

private def renderItems : List Json → List Str
  | [] => []
  | item :: rest => render item :: renderItems rest

private def renderFields : Dict Str Json → List Str
  | [] => []
  | (key, value) :: rest => (quoted key ++ ch ':' :: ch ' ' :: render value) :: renderFields rest

end

@[simp] theorem render_arr (items : List Json) :
    render (.arr items) = ch '[' :: (joinWith ", " (items.map render) ++ [ch ']']) := by
  have inner : renderItems items = items.map render := by
    induction items with
    | nil => rfl
    | cons head tail ih => simp [renderItems, ih]
  rw [render, inner]

def renderEntry (entry : Str × Json) : Str := quoted entry.1 ++ ch ':' :: ch ' ' :: render entry.2

@[simp] theorem render_obj (fields : Dict Str Json) :
    render (.obj fields) = ch '{' :: (joinWith ", " (fields.map renderEntry) ++ [ch '}']) := by
  have inner : renderFields fields = fields.map renderEntry := by
    induction fields with
    | nil => rfl
    | cons head tail ih => simp [renderFields, renderEntry, ih]
  rw [render, inner]

def dumps (j : Json) : Str := render (sortKeys j)

end Json

def isJsonSpace (c : CodePoint) : Bool :=
  c.val == 0x20 || c.val == 0x09 || c.val == 0x0A || c.val == 0x0D

def skipSpace (s : Str) : Str := s.dropWhile isJsonSpace

def isDigit (c : CodePoint) : Bool := 48 ≤ c.val && c.val ≤ 57

/-- Characters that can occur in a number; none can follow one in a JSON text. -/
def isNumberChar (c : CodePoint) : Bool :=
  isDigit c || c == ch '+' || c == ch '-' || c == ch '.' || c == ch 'e' || c == ch 'E'

def digitsValue (digits : Str) : Nat := digits.foldl (fun n c => 10 * n + (c.val - 48)) 0

/-- An optional fraction: no dot, or a dot and at least one digit. -/
def takeFraction (s : Str) : Option (Str × Str) :=
  match s with
  | [] => some ([], [])
  | c :: rest =>
    if c = ch '.' then
      let digits := rest.takeWhile isDigit
      if digits = [] then none else some (digits, rest.dropWhile isDigit)
    else some ([], s)

/-- The end of a number: nothing, or an exponent with at least one digit. -/
def takeExponent (s : Str) : Option Int :=
  match s with
  | [] => some 0
  | c :: rest =>
    if c = ch 'e' ∨ c = ch 'E' then
      let negative := rest.head? = some (ch '-')
      let digits := if negative ∨ rest.head? = some (ch '+') then rest.tail else rest
      if digits ≠ [] ∧ digits.all isDigit then
        some (if negative then -(digitsValue digits : Int) else digitsValue digits)
      else none
    else none

/-- A whole number token. The float is exact for the texts `repr` prints. -/
def parseNumber (s : Str) : Option Json :=
  let negative : Bool := s.head? = some (ch '-')
  let body := if negative then s.tail else s
  let whole := body.takeWhile isDigit
  let rest := body.dropWhile isDigit
  if whole = [] ∨ (whole.head? = some (ch '0') ∧ whole ≠ [ch '0']) then none
  else if rest = [] then
    some (.int (if negative then -(digitsValue whole : Int) else digitsValue whole))
  else do
    let (fraction, rest) ← takeFraction rest
    let exponent ← takeExponent rest
    some (.float (.finite (Decimal.ofDigits negative (digitsValue (whole ++ fraction))
      (exponent - fraction.length))))

def scanNumber (s : Str) : Option (Json × Str) :=
  (parseNumber (s.takeWhile isNumberChar)).map (fun value => (value, s.dropWhile isNumberChar))

def scanLiteral (text : Str) (value : Json) (s : Str) : Option (Json × Str) :=
  if text.isPrefixOf s then some (value, s.drop text.length) else none

/-- A value that starts with no bracket and no quote. -/
def scanAtom (s : Str) : Option (Json × Str) :=
  match s with
  | [] => none
  | c :: rest =>
    if c = ch 'n' then scanLiteral "null" .null s
    else if c = ch 't' then scanLiteral "true" (.bool true) s
    else if c = ch 'f' then scanLiteral "false" (.bool false) s
    else if c = ch 'N' then scanLiteral "NaN" (.float .nan) s
    else if c = ch 'I' then scanLiteral "Infinity" (.float (.infinity false)) s
    else if c = ch '-' ∧ rest.head? = some (ch 'I') then
      scanLiteral "-Infinity" (.float (.infinity true)) s
    else scanNumber s

def hex4 (a b c d : CodePoint) : Option CodePoint :=
  match hexValue a, hexValue b, hexValue c, hexValue d with
  | some a, some b, some c, some d => some (codePoint (4096 * a + 256 * b + 16 * c + d))
  | _, _, _, _ => none

/-- The letters that may follow a backslash, and what they stand for. -/
def longEscapes : Dict CodePoint CodePoint :=
  [(ch '"', codePoint 0x22), (ch '\\', codePoint 0x5C), (ch '/', codePoint 0x2F),
    (ch 'b', codePoint 0x08), (ch 'f', codePoint 0x0C), (ch 'n', codePoint 0x0A),
    (ch 'r', codePoint 0x0D), (ch 't', codePoint 0x09)]

def longEscape (c : CodePoint) : Option CodePoint := Dict.get? longEscapes c

/-- Characters up to the closing quote, each with whether `\u` wrote it. -/
def scanUnits : Str → Option (List (Bool × CodePoint) × Str)
  | [] => none
  | c :: rest =>
    if c = ch '"' then some ([], rest)
    else if c = ch '\\' then
      match rest with
      | [] => none
      | e :: rest =>
        if e = ch 'u' then
          match rest with
          | x :: y :: z :: w :: rest =>
            match hex4 x y z w with
            | some unit => (scanUnits rest).map (Prod.map ((true, unit) :: ·) id)
            | none => none
          | _ => none
        else
          match longEscape e with
          | some unit => (scanUnits rest).map (Prod.map ((false, unit) :: ·) id)
          | none => none
    else if c.val < 0x20 then none
    else (scanUnits rest).map (Prod.map ((false, c) :: ·) id)

/-- Two `\u` halves of a surrogate pair are one character. -/
def joinSurrogates : List (Bool × CodePoint) → Str
  | (true, high) :: (true, low) :: rest =>
    if 0xD800 ≤ high.val ∧ high.val ≤ 0xDBFF ∧ 0xDC00 ≤ low.val ∧ low.val ≤ 0xDFFF then
      codePoint (0x10000 + 1024 * (high.val - 0xD800) + (low.val - 0xDC00)) ::
        joinSurrogates rest
    else high :: joinSurrogates ((true, low) :: rest)
  | (_, c) :: rest => c :: joinSurrogates rest
  | [] => []

def scanString (s : Str) : Option (Str × Str) :=
  (scanUnits s).map (Prod.map joinSurrogates id)

/-- Elements separated by commas, up to the closing bracket. -/
def scanList (scan : Str → Option (α × Str)) (close : CodePoint) :
    Nat → Str → Option (List α × Str)
  | 0, _ => none
  | fuel + 1, s =>
    match scan s with
    | none => none
    | some (head, s) =>
      match skipSpace s with
      | [] => none
      | c :: s =>
        if c = close then some ([head], s)
        else if c = ch ',' then
          (scanList scan close fuel (skipSpace s)).map (Prod.map (head :: ·) id)
        else none

/-- What stands between two brackets, possibly nothing. -/
def scanBody (scan : Str → Option (α × Str)) (close : CodePoint) (fuel : Nat) (s : Str) :
    Option (List α × Str) :=
  match skipSpace s with
  | [] => none
  | c :: rest => if c = close then some ([], rest) else scanList scan close fuel (c :: rest)

def scanEntry (scan : Str → Option (Json × Str)) (s : Str) : Option ((Str × Json) × Str) :=
  match s with
  | [] => none
  | c :: rest =>
    if c = ch '"' then
      match scanString rest with
      | none => none
      | some (key, s) =>
        match skipSpace s with
        | [] => none
        | c :: s =>
          if c = ch ':' then (scan (skipSpace s)).map (Prod.map (fun value => (key, value)) id)
          else none
    else none

def dictOf (entries : List (Str × Json)) : Dict Str Json :=
  entries.foldl (fun d entry => Dict.set d entry.1 entry.2) []

def scanValue : Nat → Str → Option (Json × Str)
  | 0, _ => none
  | fuel + 1, s =>
    match s with
    | [] => none
    | c :: rest =>
      if c = ch '"' then (scanString rest).map (Prod.map Json.str id)
      else if c = ch '{' then
        (scanBody (scanEntry (scanValue fuel)) (ch '}') fuel rest).map
          (Prod.map (fun entries => Json.obj (dictOf entries)) id)
      else if c = ch '[' then
        (scanBody (scanValue fuel) (ch ']') fuel rest).map (Prod.map Json.arr id)
      else scanAtom s

/-- `json.loads`; `none` is `JSONDecodeError`. -/
def Json.loads (s : Str) : Option Json :=
  if s.head? = some (codePoint 0xFEFF) then none
  else
    match scanValue (s.length + 1) (skipSpace s) with
    | some (value, rest) => if skipSpace rest = [] then some value else none
    | none => none

end PyText
