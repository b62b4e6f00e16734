import Mathlib.Data.List.Basic
import Mathlib.Data.Option.Basic
import Mathlib.Tactic

/-! Python `str` as code points, lone surrogates included, and its UTF-8 form. -/

namespace PyText

abbrev Bytes := List UInt8

abbrev CodePoint := Fin 0x110000

abbrev Str := List CodePoint

instance CodePoint.neZero : NeZero 0x110000 := ⟨by decide⟩

instance CodePoint.lawfulBEq : LawfulBEq CodePoint := inferInstance

instance Str.lawfulBEq : LawfulBEq Str := inferInstance

def CodePoint.ofChar (c : Char) : CodePoint := Fin.ofNat _ c.toNat

/-- The code points of UTF-8, with ASCII bytes read one by one. -/
def points : Bytes → Str
  | [] => []
  | b :: rest =>
    if b.toNat < 0x80 then Fin.ofNat _ b.toNat :: points rest
    else ((b :: rest).toByteArray.utf8Decode?.getD #[]).toList.map CodePoint.ofChar

def Str.ofString (text : String) : Str := points text.toByteArray.data.toList

instance : Coe String Str := ⟨Str.ofString⟩

def CodePoint.toChar? (c : CodePoint) : Option Char :=
  if c.val < 0xD800 ∨ 0xDFFF < c.val then some (Char.ofNat c.val) else none

/-- `s.encode("utf-8")`: a lone surrogate has no encoding. -/
def encodeUtf8 (s : Str) : Option Bytes :=
  (s.mapM CodePoint.toChar?).map (fun chars => chars.flatMap String.utf8EncodeChar)

def decodeUtf8 (bytes : Bytes) : Option Str :=
  if bytes.all (fun b => b.toNat < 0x80) then some (points bytes)
  else bytes.toByteArray.utf8Decode?.map (fun chars => chars.toList.map CodePoint.ofChar)

theorem CodePoint.toNat_lt (c : Char) : c.toNat < 0x110000 := by
  have valid := c.valid
  rcases valid with low | high
  · exact lt_trans low (by decide)
  · exact high.2

theorem CodePoint.val_ofChar (c : Char) : (CodePoint.ofChar c).val = c.toNat :=
  Nat.mod_eq_of_lt (CodePoint.toNat_lt c)

private theorem utf8EncodeChar_cases (c : Char) :
    (c.toNat < 0x80 ∧ String.utf8EncodeChar c = [UInt8.ofNat c.toNat]) ∨
      ¬c.toNat < 0x80 ∧ ∃ b rest, String.utf8EncodeChar c = b :: rest ∧ ¬b.toNat < 0x80 := by
  unfold String.utf8EncodeChar
  simp only [Char.toNat]
  split_ifs with one two three
  · exact .inl ⟨by omega, rfl⟩
  all_goals refine .inr ⟨by omega, _, _, rfl, ?_⟩
  all_goals
    simp only [UInt8.toNat_ofNat']
    omega

private theorem exists_of_ascii {bytes : Bytes} (ascii : bytes.all (fun b => b.toNat < 0x80) = true) :
    ∃ chars : List Char, bytes = chars.flatMap String.utf8EncodeChar := by
  induction bytes with
  | nil => exact ⟨[], rfl⟩
  | cons b rest ih =>
    simp only [List.all_cons, Bool.and_eq_true, decide_eq_true_eq] at ascii
    obtain ⟨low, later⟩ := ascii
    obtain ⟨chars, rfl⟩ := ih later
    refine ⟨Char.ofNat b.toNat :: chars, ?_⟩
    have scalar : b.toNat.isValidChar := .inl (by omega)
    have code : (Char.ofNat b.toNat).toNat = b.toNat := by
      rw [Char.ofNat, dif_pos scalar]
      rfl
    rcases utf8EncodeChar_cases (Char.ofNat b.toNat) with ⟨_, encoded⟩ | ⟨high, _⟩
    · rw [List.flatMap_cons, encoded, code, UInt8.ofNat_toNat, List.singleton_append]
    · exact absurd (code.trans_lt low) high

private theorem flatMap_toByteArray (chars : List Char) :
    (chars.flatMap String.utf8EncodeChar).toByteArray = chars.utf8Encode := rfl

theorem points_chars (chars : List Char) :
    points (chars.flatMap String.utf8EncodeChar) = chars.map CodePoint.ofChar := by
  induction chars with
  | nil => rfl
  | cons c rest ih =>
    rcases utf8EncodeChar_cases c with ⟨ascii, encoded⟩ | ⟨_, b, more, encoded, high⟩
    · have byte : (UInt8.ofNat c.toNat).toNat = c.toNat := by
        rw [UInt8.toNat_ofNat']
        omega
      rw [List.flatMap_cons, encoded, List.singleton_append, points, byte, if_pos ascii, ih]
      rfl
    · have whole : (c :: rest).flatMap String.utf8EncodeChar = b :: (more ++ rest.flatMap String.utf8EncodeChar) := by
        rw [List.flatMap_cons, encoded, List.cons_append]
      rw [whole, points, if_neg high, ← whole, flatMap_toByteArray]
      simp

theorem Str.ofString_eq (text : String) : Str.ofString text = text.toList.map CodePoint.ofChar := by
  have bytes : text.toByteArray.data.toList = text.toList.flatMap String.utf8EncodeChar := by
    rw [← String.utf8Encode_toList, List.utf8Encode, List.toList_data_toByteArray]
  rw [Str.ofString, bytes, points_chars]

@[simp] theorem CodePoint.toChar?_ofChar (c : Char) : (CodePoint.ofChar c).toChar? = some c := by
  have scalar : c.toNat < 0xD800 ∨ 0xDFFF < c.toNat := by
    rcases c.valid with low | high
    · exact .inl low
    · exact .inr high.1
  simp only [toChar?, val_ofChar, if_pos scalar, Char.ofNat_toNat]

theorem CodePoint.ofChar_of_toChar? {c : CodePoint} {d : Char} (found : c.toChar? = some d) :
    CodePoint.ofChar d = c := by
  unfold toChar? at found
  split at found
  · rename_i scalar
    obtain rfl := Option.some.inj found
    have valid : c.val.isValidChar := by
      rcases scalar with low | high
      · exact .inl low
      · exact .inr ⟨high, c.isLt⟩
    apply Fin.ext
    rw [val_ofChar, Char.ofNat, dif_pos valid]
    rfl
  · cases found

theorem CodePoint.ofChar_injective : Function.Injective CodePoint.ofChar := by
  intro a b same
  have read := congrArg CodePoint.toChar? same
  simpa using read

@[simp] theorem Str.ofString_inj {a b : String} :
    Str.ofString a = Str.ofString b ↔ a = b := by
  rw [Str.ofString_eq, Str.ofString_eq]
  constructor
  · intro same
    exact String.toList_inj.mp (List.map_injective_iff.mpr CodePoint.ofChar_injective same)
  · rintro rfl; rfl

private theorem mapM_ofChar (chars : List Char) :
    (chars.map CodePoint.ofChar).mapM CodePoint.toChar? = some chars := by
  induction chars with
  | nil => rfl
  | cons c rest ih => simp [List.mapM_cons, ih]

theorem encodeUtf8_chars (chars : List Char) :
    encodeUtf8 (chars.map CodePoint.ofChar) = some (chars.flatMap String.utf8EncodeChar) := by
  simp only [encodeUtf8, mapM_ofChar, Option.map_some]

theorem exists_chars {s : Str} {bytes : Bytes} (encoded : encodeUtf8 s = some bytes) :
    ∃ chars : List Char, s = chars.map CodePoint.ofChar ∧
      bytes = chars.flatMap String.utf8EncodeChar := by
  obtain ⟨chars, read, rfl⟩ := Option.map_eq_some_iff.mp encoded
  refine ⟨chars, ?_, rfl⟩
  clear encoded
  induction s generalizing chars with
  | nil =>
    obtain rfl : chars = [] := by simpa using read.symm
    rfl
  | cons c rest ih =>
    rw [List.mapM_cons] at read
    obtain ⟨d, head, read⟩ := Option.bind_eq_some_iff.mp read
    obtain ⟨tail, rest_read, same⟩ := Option.bind_eq_some_iff.mp read
    obtain rfl : d :: tail = chars := Option.some.inj same
    rw [List.map_cons, CodePoint.ofChar_of_toChar? head, ← ih tail rest_read]

theorem decodeUtf8_chars (chars : List Char) :
    decodeUtf8 (chars.flatMap String.utf8EncodeChar) = some (chars.map CodePoint.ofChar) := by
  unfold decodeUtf8
  split
  · rw [points_chars]
  · simp [flatMap_toByteArray]

theorem decodeUtf8_encodeUtf8 {s : Str} {bytes : Bytes} (encoded : encodeUtf8 s = some bytes) :
    decodeUtf8 bytes = some s := by
  obtain ⟨chars, rfl, rfl⟩ := exists_chars encoded
  exact decodeUtf8_chars chars

theorem encodeUtf8_decodeUtf8 {s : Str} {bytes : Bytes} (decoded : decodeUtf8 bytes = some s) :
    encodeUtf8 s = some bytes := by
  by_cases ascii : bytes.all (fun b => b.toNat < 0x80) = true
  · obtain ⟨chars, rfl⟩ := exists_of_ascii ascii
    rw [decodeUtf8_chars] at decoded
    rw [← Option.some.inj decoded, encodeUtf8_chars]
  rw [decodeUtf8, if_neg ascii] at decoded
  obtain ⟨chars, read, rfl⟩ := Option.map_eq_some_iff.mp decoded
  rw [encodeUtf8_chars]
  have whole : chars.toList.utf8Encode = bytes.toByteArray := by
    have present : bytes.toByteArray.utf8Decode?.isSome := by simp [read]
    have same := @ByteArray.utf8Encode_get_utf8Decode? bytes.toByteArray present
    simpa [read] using same
  rw [← flatMap_toByteArray] at whole
  rw [List.toByteArray_inj.mp whole]

theorem encodeUtf8_append {s t : Str} {a b : Bytes} (left : encodeUtf8 s = some a)
    (right : encodeUtf8 t = some b) : encodeUtf8 (s ++ t) = some (a ++ b) := by
  obtain ⟨front, rfl, rfl⟩ := exists_chars left
  obtain ⟨back, rfl, rfl⟩ := exists_chars right
  rw [← List.map_append, encodeUtf8_chars, List.flatMap_append]

theorem encodeUtf8_append_inv {s t : Str} {bytes : Bytes}
    (encoded : encodeUtf8 (s ++ t) = some bytes) :
    ∃ a b, encodeUtf8 s = some a ∧ encodeUtf8 t = some b ∧ bytes = a ++ b := by
  obtain ⟨chars, whole, rfl⟩ := exists_chars encoded
  obtain ⟨front, back, rfl, rfl, rfl⟩ := List.map_eq_append_iff.mp whole.symm
  exact ⟨_, _, encodeUtf8_chars front, encodeUtf8_chars back, List.flatMap_append⟩

theorem decodeUtf8_front {s t : Str} {a b : Bytes} (whole : decodeUtf8 (a ++ b) = some s)
    (front : decodeUtf8 a = some t) : ∃ u, s = t ++ u ∧ decodeUtf8 b = some u := by
  obtain ⟨chars, rfl, bytes⟩ := exists_chars (encodeUtf8_decodeUtf8 whole)
  obtain ⟨lead, rfl, rfl⟩ := exists_chars (encodeUtf8_decodeUtf8 front)
  have valid : ByteArray.IsValidUTF8 (lead.utf8Encode ++ b.toByteArray) := by
    rw [← flatMap_toByteArray, ← List.toByteArray_append, bytes, flatMap_toByteArray]
    exact ByteArray.isValidUTF8_utf8Encode
  have rest : ByteArray.IsValidUTF8 b.toByteArray := by
    clear bytes whole front
    induction lead with
    | nil => simpa using valid
    | cons c lead ih =>
      rw [List.utf8Encode_cons, ByteArray.append_assoc,
        ByteArray.isValidUTF8_utf8Encode_singleton_append_iff] at valid
      exact ih valid
  obtain ⟨tail, same⟩ := rest
  have tailBytes : b = tail.flatMap String.utf8EncodeChar := by
    rw [← flatMap_toByteArray] at same
    exact List.toByteArray_inj.mp same
  subst tailBytes
  refine ⟨tail.map CodePoint.ofChar, ?_, decodeUtf8_chars tail⟩
  rw [← List.flatMap_append, decodeUtf8_chars] at whole
  rw [← Option.some.inj whole, List.map_append]

end PyText
