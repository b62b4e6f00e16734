import JJDai.Primitive.Python

/-! `jjdai.canonical`: RFC 8785 text of a JSON value, with the number
serializer the source documents. -/

namespace JJDai.Canonical

open PyText

/-- `_es6_number` of a finite float that is not a whole number below 1e21. -/
def decimalText (d : Decimal) : Str :=
  let digits := natText d.digits
  let point : Int := digits.length + d.exponent
  if -4 < point ∧ point ≤ 16 then d.text
  else
    let e := point - 1
    signed d.negative (digits.take 1 ++ ((if 1 < digits.length then ch '.' :: digits.drop 1 else []) ++
      ch 'e' :: (if e < 0 then ch '-' else ch '+') :: natText e.natAbs))

def es6Number : PyFloat → Py Str
  | .nan => raise .valueError "non-finite numbers are not permitted in JCS"
  | .infinity _ => raise .valueError "non-finite numbers are not permitted in JCS"
  | .finite d =>
    if d.digits = 0 then return "0"
    else
      match (PyFloat.finite d).toInt? with
      | some whole => if whole.natAbs < 10 ^ 21 then return intText whole else return decimalText d
      | none => return decimalText d

/-- The escapes are those of the JSON writer. -/
def escapeString (s : Str) : Str := quoted s

/-- UTF-16 code units of one character; a lone surrogate has none. -/
def utf16 (c : CodePoint) : Py (List Nat) :=
  if 0xD800 ≤ c.val ∧ c.val ≤ 0xDFFF then raise .unicodeEncodeError
  else if c.val < 0x10000 then return [c.val]
  else return [0xD800 + (c.val - 0x10000) / 0x400, 0xDC00 + (c.val - 0x10000) % 0x400]

def keySort (key : Str) : Py (List Nat) := do
  let units ← key.mapM utf16
  return units.flatten

mutual

/-- `_serialize`. A dict's keys are all encoded for sorting before any value is
serialized, and values are serialized in sorted order. -/
def serialize : Json → Py Str
  | .null => return "null"
  | .bool true => return "true"
  | .bool false => return "false"
  | .str s => return escapeString s
  | .int n => return intText n
  | .float x => es6Number x
  | .arr items => do
    let texts ← (serializeItems items).mapM id
    return ch '[' :: (joinWith [ch ','] texts ++ [ch ']'])
  | .obj fields => do
    let keyed ← (serializeFields fields).mapM (fun entry => do
      let units ← keySort entry.1
      return (units, entry))
    let sorted := keyed.insertionSort (fun a b => a.1 ≤ b.1)
    let texts ← sorted.mapM (fun item => do
      let text ← item.2.2
      return escapeString item.2.1 ++ ch ':' :: text)
    return ch '{' :: (joinWith [ch ','] texts ++ [ch '}'])

def serializeItems : List Json → List (Py Str)
  | [] => []
  | item :: rest => serialize item :: serializeItems rest

def serializeFields : Dict Str Json → List (Str × Py Str)
  | [] => []
  | (key, value) :: rest => (key, serialize value) :: serializeFields rest

end

def canonical (j : Json) : Py Bytes := do
  let text ← serialize j
  encode text

end JJDai.Canonical
