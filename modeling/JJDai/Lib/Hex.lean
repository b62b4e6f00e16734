import JJDai.Lib.Text

/-! Hexadecimal text of bytes, as `bytes.hex` writes and `bytes.fromhex` reads it. -/

namespace PyText

abbrev ch (c : Char) : CodePoint := CodePoint.ofChar c

@[simp] theorem CodePoint.ofChar_inj {a b : Char} : CodePoint.ofChar a = CodePoint.ofChar b ↔ a = b :=
  CodePoint.ofChar_injective.eq_iff

def hexDigit (n : Nat) : CodePoint := CodePoint.ofChar (Nat.digitChar n)

def hexValue (c : CodePoint) : Option Nat :=
  if 48 ≤ c.val ∧ c.val ≤ 57 then some (c.val - 48)
  else if 97 ≤ c.val ∧ c.val ≤ 102 then some (c.val - 87)
  else if 65 ≤ c.val ∧ c.val ≤ 70 then some (c.val - 55)
  else none

@[simp] theorem hexValue_hexDigit {n : Nat} (small : n < 16) : hexValue (hexDigit n) = some n := by
  have all : ∀ n < 16, hexValue (hexDigit n) = some n := by decide
  exact all n small

def isAsciiSpace (c : CodePoint) : Bool := c.val == 32 || (9 ≤ c.val && c.val ≤ 13)

theorem isAsciiSpace_hexDigit {n : Nat} (small : n < 16) : isAsciiSpace (hexDigit n) = false := by
  have all : ∀ n < 16, isAsciiSpace (hexDigit n) = false := by decide
  exact all n small

def toHex (bytes : Bytes) : Str :=
  bytes.flatMap (fun b => [hexDigit (b.toNat / 16), hexDigit (b.toNat % 16)])

/-- Pairs of digits, with ASCII whitespace allowed between pairs. -/
def fromHex : Str → Option Bytes
  | [] => some []
  | [c] => if isAsciiSpace c then some [] else none
  | c :: d :: rest =>
    if isAsciiSpace c then fromHex (d :: rest)
    else
      match hexValue c, hexValue d, fromHex rest with
      | some high, some low, some bytes => some (UInt8.ofNat (16 * high + low) :: bytes)
      | _, _, _ => none

theorem fromHex_toHex (bytes : Bytes) : fromHex (toHex bytes) = some bytes := by
  induction bytes with
  | nil => rfl
  | cons b rest ih =>
    have bound : b.toNat < 256 := b.toNat_lt
    have pair : UInt8.ofNat (16 * (b.toNat / 16) + b.toNat % 16) = b := by
      rw [Nat.div_add_mod, UInt8.ofNat_toNat]
    have flat : toHex (b :: rest) =
        hexDigit (b.toNat / 16) :: hexDigit (b.toNat % 16) :: toHex rest := rfl
    rw [flat, fromHex, isAsciiSpace_hexDigit (by omega), hexValue_hexDigit (by omega),
      hexValue_hexDigit (by omega), ih]
    simp only [Bool.false_eq_true, if_false, pair]

theorem toHex_injective : Function.Injective toHex := by
  intro a b same
  have read := congrArg fromHex same
  simpa [fromHex_toHex] using read

def isAscii (s : Str) : Bool := s.all (fun c => c.val < 128)

theorem isAscii_toHex (bytes : Bytes) : isAscii (toHex bytes) = true := by
  have digit : ∀ n < 16, (hexDigit n).val < 128 := by decide
  simp only [isAscii, toHex, List.all_flatMap, List.all_eq_true]
  intro b _
  have bound : b.toNat < 256 := b.toNat_lt
  simp [digit (b.toNat / 16) (by omega), digit (b.toNat % 16) (by omega)]

end PyText
