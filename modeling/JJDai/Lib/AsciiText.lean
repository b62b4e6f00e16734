import JJDai.Lib.JsonRoundTrip

/-! `json.dumps(obj, sort_keys=True)`, which writes ASCII only, and what `loads` reads back of it. -/

namespace PyText

def isHigh (c : CodePoint) : Bool := 0xD800 ≤ c.val && c.val ≤ 0xDBFF

def isLow (c : CodePoint) : Bool := 0xDC00 ≤ c.val && c.val ≤ 0xDFFF

def unicodeEscape (n : Nat) : Str := ch '\\' :: ch 'u' :: hexDigits n

/-- The two halves of a character beyond the first plane. -/
def highHalf (c : CodePoint) : CodePoint := codePoint (0xD800 + (c.val - 0x10000) / 1024)

def lowHalf (c : CodePoint) : CodePoint := codePoint (0xDC00 + (c.val - 0x10000) % 1024)

/-- What `ensure_ascii` makes of a character of the text. -/
def asciiChar (c : CodePoint) : Str :=
  if c.val < 0x7F then [c]
  else if c.val < 0x10000 then unicodeEscape c.val
  else unicodeEscape (highHalf c).val ++ unicodeEscape (lowHalf c).val

/-- The text with every character outside ASCII escaped; such characters stand in strings only. -/
def asciiText (text : Str) : Str := text.flatMap asciiChar

def Json.dumpsAscii (j : Json) : Str := asciiText j.dumps

/-- No high half of a surrogate pair stands before a low half. -/
def Unsplit (s : Str) : Prop := s.IsChain (fun a b => ¬(isHigh a ∧ isLow b))

instance (s : Str) : Decidable (Unsplit s) := inferInstanceAs (Decidable (List.IsChain _ _))

theorem Unsplit.prepend {front s : Str} (plain : ∀ c ∈ front, isHigh c = false) (unsplit : Unsplit s) :
    Unsplit (front ++ s) := by
  induction front with
  | nil => exact unsplit
  | cons c front ih =>
    have later := ih fun other member => plain other (List.mem_cons_of_mem _ member)
    refine List.IsChain.cons later ?_
    rintro d _ ⟨high, _⟩
    rw [plain c List.mem_cons_self] at high
    cases high

theorem val_codePoint {n : Nat} (small : n < 0x110000) : (codePoint n).val = n := Nat.mod_eq_of_lt small

theorem highHalf_val {c : CodePoint} (beyond : 0x10000 ≤ c.val) :
    (highHalf c).val = 0xD800 + (c.val - 0x10000) / 1024 := by
  have bound := c.isLt
  exact val_codePoint (by omega)

theorem lowHalf_val (c : CodePoint) : (lowHalf c).val = 0xDC00 + (c.val - 0x10000) % 1024 :=
  val_codePoint (by omega)

theorem joinSurrogates_halves {c : CodePoint} (beyond : 0x10000 ≤ c.val) (rest : List (Bool × CodePoint)) :
    joinSurrogates ((true, highHalf c) :: (true, lowHalf c) :: rest) = c :: joinSurrogates rest := by
  have bound := c.isLt
  have high := highHalf_val beyond
  have low := lowHalf_val c
  have whole : 0x10000 + 1024 * ((highHalf c).val - 0xD800) + ((lowHalf c).val - 0xDC00) = c.val := by omega
  have joined : codePoint (0x10000 + 1024 * ((highHalf c).val - 0xD800) + ((lowHalf c).val - 0xDC00)) = c := by
    rw [whole]
    exact Fin.ext (val_codePoint bound)
  rw [joinSurrogates, if_pos (by omega), joined]

/-- A character as the scanner sees it after `asciiText`. -/
def asciiUnits (c : CodePoint) : List (Bool × CodePoint) :=
  if (shortEscape c).isSome then [(false, c)]
  else if c.val < 0x20 then [(true, c)]
  else if c.val < 0x7F then [(false, c)]
  else if c.val < 0x10000 then [(true, c)]
  else [(true, highHalf c), (true, lowHalf c)]

theorem asciiText_append (s t : Str) : asciiText (s ++ t) = asciiText s ++ asciiText t := List.flatMap_append

theorem asciiText_plain {text : Str} (ascii : ∀ c ∈ text, c.val < 0x7F) : asciiText text = text := by
  induction text with
  | nil => rfl
  | cons c rest ih =>
    rw [asciiText, List.flatMap_cons, asciiChar, if_pos (ascii c List.mem_cons_self)]
    exact congrArg (c :: ·) (ih fun other member => ascii other (List.mem_cons_of_mem _ member))

theorem scanUnits_unicode {c : CodePoint} (small : c.val < 0x10000) (rest : Str) :
    scanUnits (unicodeEscape c.val ++ rest) = (scanUnits rest).map (Prod.map ([(true, c)] ++ ·) id) :=
  scanUnits_hex small rest

theorem scanUnits_asciiChar (c : CodePoint) (rest : Str) :
    scanUnits (asciiText (escapeChar c) ++ rest) = (scanUnits rest).map (Prod.map (asciiUnits c ++ ·) id) := by
  unfold escapeChar asciiUnits
  cases short : shortEscape c with
  | some letter =>
    have table : shortEscapes.all (fun entry => decide (entry.2.val < 0x7F)) := by decide
    have row := List.all_eq_true.mp table _ (Dict.mem_of_get? short)
    have plain : asciiText [ch '\\', letter] = [ch '\\', letter] := by
      refine asciiText_plain fun c member => ?_
      rcases List.mem_cons.mp member with rfl | last
      · decide
      · rw [List.mem_singleton.mp last]
        exact of_decide_eq_true row
    rw [plain]
    exact scanUnits_short short rest
  | none =>
    dsimp only
    by_cases control : c.val < 0x20
    · rw [if_pos control, if_neg (by simp), if_pos control, asciiText_plain]
      · exact scanUnits_control control rest
      · have digit : ∀ n < 16, (hexDigit n).val < 0x7F := by decide
        have first := digit (c.val / 16) (by omega)
        have second := digit (c.val % 16) (by omega)
        have fixed : (ch '\\').val < 0x7F ∧ (ch 'u').val < 0x7F ∧ (ch '0').val < 0x7F := by decide
        simpa using ⟨fixed.1, fixed.2.1, fixed.2.2, first, second⟩
    · have single : asciiText [c] = asciiChar c := List.append_nil _
      rw [if_neg control, if_neg (by simp), if_neg control, single, asciiChar]
      by_cases printable : c.val < 0x7F
      · rw [if_pos printable, if_pos printable]
        exact scanUnits_plain short control rest
      · rw [if_neg printable, if_neg printable]
        by_cases small : c.val < 0x10000
        · rw [if_pos small, if_pos small]
          exact scanUnits_unicode small rest
        · have beyond : 0x10000 ≤ c.val := not_lt.mp small
          have bound := c.isLt
          rw [if_neg small, if_neg small, List.append_assoc, scanUnits_unicode (by rw [highHalf_val beyond]; omega),
            scanUnits_unicode (by rw [lowHalf_val]; omega), Option.map_map]
          rfl

theorem scanUnits_ascii (s rest : Str) :
    scanUnits (asciiText (s.flatMap escapeChar) ++ ch '"' :: rest) = some (s.flatMap asciiUnits, rest) := by
  induction s with
  | nil =>
    rw [List.flatMap_nil, asciiText, List.flatMap_nil, List.nil_append, scanUnits.eq_def]
    simp
  | cons c s ih =>
    rw [List.flatMap_cons, asciiText_append, List.append_assoc, scanUnits_asciiChar, ih]
    rfl

theorem joinSurrogates_kept {c : CodePoint} {units : List (Bool × CodePoint)}
    (apart : isHigh c = true → ∀ unit ∈ units.head?, unit.1 = true → isLow unit.2 = false) (written : Bool) :
    joinSurrogates ((written, c) :: units) = c :: joinSurrogates units := by
  match written, units with
  | false, units => rw [joinSurrogates]; simp
  | true, [] => rw [joinSurrogates]; simp
  | true, (false, d) :: rest => rw [joinSurrogates]; simp
  | true, (true, d) :: rest =>
    rw [joinSurrogates, if_neg]
    rintro ⟨low, high, second, last⟩
    have alone := apart (by simp [isHigh, low, high]) (true, d) rfl rfl
    simp [isLow, second, last] at alone

theorem asciiUnits_single {c : CodePoint} (within : ¬((shortEscape c).isSome = false ∧ 0x10000 ≤ c.val)) :
    ∃ written, asciiUnits c = [(written, c)] := by
  unfold asciiUnits
  cases short : (shortEscape c).isSome with
  | true => exact ⟨false, if_pos rfl⟩
  | false =>
    have small : c.val < 0x10000 := by
      by_contra beyond
      exact within ⟨short, not_lt.mp beyond⟩
    rw [if_neg (by simp), if_pos small]
    split
    · exact ⟨true, rfl⟩
    · split
      · exact ⟨false, rfl⟩
      · exact ⟨true, rfl⟩

theorem head_asciiUnits {c : CodePoint} (lone : isLow c = false) (rest : List (Bool × CodePoint)) :
    ∀ unit ∈ (asciiUnits c ++ rest).head?, unit.1 = true → isLow unit.2 = false := by
  intro unit first _
  by_cases beyond : (shortEscape c).isSome = false ∧ 0x10000 ≤ c.val
  · obtain ⟨long, beyond⟩ := beyond
    have bound := c.isLt
    rw [asciiUnits, long, if_neg (by simp), if_neg (by omega), if_neg (by omega), if_neg (by omega)] at first
    obtain rfl : (true, highHalf c) = unit := by simpa using first
    have value := highHalf_val beyond
    simp only [isLow, Bool.and_eq_false_iff, decide_eq_false_iff_not]
    omega
  · obtain ⟨written, single⟩ : ∃ written, asciiUnits c = [(written, c)] := asciiUnits_single beyond
    rw [single] at first
    obtain rfl : (written, c) = unit := by simpa using first
    exact lone

theorem joinSurrogates_ascii {s : Str} (unsplit : Unsplit s) : joinSurrogates (s.flatMap asciiUnits) = s := by
  induction s with
  | nil => rfl
  | cons c s ih =>
    have later := ih unsplit.tail
    rw [List.flatMap_cons]
    by_cases beyond : (shortEscape c).isSome = false ∧ 0x10000 ≤ c.val
    · obtain ⟨long, beyond⟩ := beyond
      rw [asciiUnits, long, if_neg (by simp), if_neg (by omega), if_neg (by omega), if_neg (by omega)]
      exact (joinSurrogates_halves beyond _).trans (congrArg (c :: ·) later)
    · obtain ⟨written, single⟩ := asciiUnits_single beyond
      rw [single]
      refine (joinSurrogates_kept ?_ written).trans (congrArg (c :: ·) later)
      intro high
      cases s with
      | nil => simp
      | cons d rest =>
        have alone : ¬(isHigh c ∧ isLow d) := List.IsChain.rel unsplit
        exact head_asciiUnits (by simpa [high] using alone) _

theorem scanString_ascii {s : Str} (unsplit : Unsplit s) (rest : Str) :
    scanString (asciiText (s.flatMap escapeChar) ++ ch '"' :: rest) = some (s, rest) := by
  rw [scanString, scanUnits_ascii]
  simp [joinSurrogates_ascii unsplit]

/-- An entry of two strings in which nothing is joined. -/
def Textual (entry : Str × Json) : Prop := Unsplit entry.1 ∧ ∃ text, entry.2 = .str text ∧ Unsplit text

def asciiEntry (entry : Str × Json) : Str := asciiText (Json.renderEntry entry)

theorem asciiText_cons {c : CodePoint} (ascii : c.val < 0x7F) (text : Str) : asciiText (c :: text) = c :: asciiText text := by
  rw [asciiText, List.flatMap_cons, asciiChar, if_pos ascii]
  rfl

theorem asciiText_quoted (s rest : Str) :
    asciiText (quoted s) ++ rest = ch '"' :: (asciiText (s.flatMap escapeChar) ++ ch '"' :: rest) := by
  have quote : (ch '"').val < 0x7F := by decide
  rw [quoted, asciiText_cons quote, asciiText_append, asciiText_cons quote]
  simp [asciiText]

theorem asciiEntry_eq (key text rest : Str) :
    asciiEntry (key, .str text) ++ rest =
      ch '"' :: (asciiText (key.flatMap escapeChar) ++ ch '"' :: ch ':' :: ch ' ' :: (asciiText (quoted text) ++ rest)) := by
  have colon : (ch ':').val < 0x7F := by decide
  have space : (ch ' ').val < 0x7F := by decide
  rw [asciiEntry, Json.renderEntry, asciiText_append, List.append_assoc, asciiText_quoted, asciiText_cons colon,
    asciiText_cons space]
  simp [Json.render]

theorem asciiText_joinWith (texts : List Str) :
    asciiText (joinWith ", " texts) = joinWith ", " (texts.map asciiText) := by
  have separator : asciiText ", " = ", " := by decide
  induction texts with
  | nil => rfl
  | cons text rest ih =>
    cases rest with
    | nil => rfl
    | cons next rest =>
      have split : joinWith ", " (text :: next :: rest) = text ++ ", " ++ joinWith ", " (next :: rest) := rfl
      rw [split, asciiText_append, asciiText_append, separator, ih]
      rfl

theorem asciiText_object (fields : Dict Str Json) :
    asciiText (Json.obj fields).render = ch '{' :: (joinWith ", " (fields.map asciiEntry) ++ [ch '}']) := by
  have opening : (ch '{').val < 0x7F := by decide
  have closing : (ch '}').val < 0x7F := by decide
  rw [Json.render_obj, asciiText_cons opening, asciiText_append, asciiText_joinWith, List.map_map, asciiText_cons closing]
  rfl

theorem scanEntry_ascii {entry : Str × Json} (textual : Textual entry) (fuel : Nat) (rest : Str) :
    scanEntry (scanValue (fuel + 1)) (asciiEntry entry ++ rest) = some (entry, rest) := by
  obtain ⟨key, value⟩ := entry
  obtain ⟨unsplit, text, rfl, whole⟩ := textual
  have colon : isJsonSpace (ch ':') = false := by decide
  have quote : isJsonSpace (ch '"') = false := by decide
  have read : scanValue (fuel + 1) (asciiText (quoted text) ++ rest) = some (.str text, rest) := by
    rw [asciiText_quoted, scanValue, if_pos rfl, scanString_ascii whole]
    rfl
  have lead : skipSpace (ch ' ' :: (asciiText (quoted text) ++ rest)) = asciiText (quoted text) ++ rest := by
    have blank : Blank [ch ' '] := by simp [Blank]; decide
    have skipped := skipSpace_blank blank (asciiText (quoted text) ++ rest)
    rw [List.singleton_append] at skipped
    rw [skipped, asciiText_quoted, skipSpace_cons quote]
  rw [asciiEntry_eq]
  simp only [scanEntry, if_true, scanString_ascii unsplit, skipSpace_cons colon, lead, read]
  rfl

theorem solid_asciiEntry {entry : Str × Json} (textual : Textual entry) : Solid (asciiEntry entry) := by
  obtain ⟨key, value⟩ := entry
  obtain ⟨_, text, rfl, _⟩ := textual
  have shape := asciiEntry_eq key text []
  rw [List.append_nil] at shape
  rw [shape]
  exact solid_cons _ (by decide) (by decide) (by decide) (by decide)

theorem scanValue_ascii {fields : Dict Str Json} (textual : ∀ entry ∈ fields, Textual entry)
    (unique : (Dict.keys fields).Nodup) {fuel : Nat} (enough : (asciiText (Json.obj fields).render).length ≤ fuel)
    (rest : Str) :
    scanValue (fuel + 1) (asciiText (Json.obj fields).render ++ rest) = some (.obj fields, rest) := by
  have blank : Blank [ch ' '] := by simp [Blank]; decide
  rw [asciiText_object] at enough ⊢
  simp only [List.length_cons, List.length_append, List.length_nil] at enough
  obtain ⟨fuel, rfl⟩ : ∃ f, fuel = f + 1 := ⟨fuel - 1, by omega⟩
  have body := @scanBody_join (Str × Json) (scanEntry (scanValue (fuel + 1))) asciiEntry [ch ' '] blank (ch '}')
    (.inr rfl) fields (fuel + 1) (fun entry member rest _ => scanEntry_ascii (textual entry member) fuel rest)
    (fun entry member => solid_asciiEntry (textual entry member)) (by rw [← Json.commaSpace]; omega) rest
  rw [← Json.commaSpace] at body
  simp only [List.cons_append, List.append_assoc, List.nil_append]
  rw [scanValue_brace, body]
  simp [dictOf_unique unique]

theorem textual_sorted {fields : Dict Str Json} (textual : ∀ entry ∈ fields, Textual entry) :
    (Json.obj fields).sortKeys = .obj (Json.sortEntries fields) := by
  rw [Json.sortKeys_obj, Json.sortEntries_map]
  congr 1
  conv_rhs => rw [← List.map_id (Json.sortEntries fields)]
  refine List.map_congr_left fun entry member => ?_
  obtain ⟨_, text, same, _⟩ := textual entry (Json.mem_sortEntries.mp member)
  obtain ⟨key, value⟩ := entry
  obtain rfl : value = .str text := same
  rfl

theorem head_dumpsAscii {fields : Dict Str Json} (textual : ∀ entry ∈ fields, Textual entry) :
    (Json.obj fields).dumpsAscii.head? = some (ch '{') := by
  rw [Json.dumpsAscii, Json.dumps, textual_sorted textual, asciiText_object]
  rfl

section
variable {fields : Dict Str Json} (textual : ∀ entry ∈ fields, Textual entry) (unique : (Dict.keys fields).Nodup)

include textual unique

theorem scan_dumpsAscii :
    scanValue ((Json.obj fields).dumpsAscii.length + 1) (Json.obj fields).dumpsAscii =
      some (.obj (Json.sortEntries fields), []) := by
  have sorted : ∀ entry ∈ Json.sortEntries fields, Textual entry :=
    fun entry member => textual entry (Json.mem_sortEntries.mp member)
  have whole := scanValue_ascii sorted ((Json.keys_sortEntries fields).nodup_iff.mpr unique) (le_refl _) []
  rw [List.append_nil] at whole
  rw [Json.dumpsAscii, Json.dumps, textual_sorted textual]
  exact whole

theorem loads_dumpsAscii : Json.loads (Json.obj fields).dumpsAscii = some (.obj (Json.sortEntries fields)) := by
  have opened := head_dumpsAscii textual
  have brace : ch '{' ≠ codePoint 0xFEFF := by decide
  have blank : isJsonSpace (ch '{') = false := by decide
  have full := scan_dumpsAscii textual unique
  generalize (Json.obj fields).dumpsAscii = text at opened full
  cases text with
  | nil => cases opened
  | cons c rest =>
    obtain rfl : c = ch '{' := by simpa using opened
    rw [Json.loads, if_neg (by simpa using brace), skipSpace_cons blank, full]
    rfl

theorem loads_dumpsAscii_front {front back : Str} (whole : (Json.obj fields).dumpsAscii = front ++ back)
    (proper : back ≠ []) : Json.loads front = none :=
  loads_front (head_dumpsAscii textual) (scan_dumpsAscii textual unique) whole proper

end

theorem unicodeEscape_ascii {n : Nat} (small : n < 0x10000) : ∀ d ∈ unicodeEscape n, d.val < 0x80 := by
  have digit : ∀ n < 16, (hexDigit n).val < 0x80 := by decide
  have fixed : (ch '\\').val < 0x80 ∧ (ch 'u').val < 0x80 := by decide
  have first := digit (n / 4096) (by omega)
  have second := digit (n / 256 % 16) (by omega)
  have third := digit (n / 16 % 16) (by omega)
  have fourth := digit (n % 16) (by omega)
  simpa [unicodeEscape, hexDigits] using ⟨fixed.1, fixed.2, first, second, third, fourth⟩

theorem asciiChar_ascii (c : CodePoint) : ∀ d ∈ asciiChar c, d.val < 0x80 := by
  unfold asciiChar
  split
  · intro d member
    rw [List.mem_singleton.mp member]
    omega
  · split
    · exact unicodeEscape_ascii ‹_›
    · next beyond =>
      have bound := c.isLt
      have high := unicodeEscape_ascii (n := (highHalf c).val) (by rw [highHalf_val (by omega)]; omega)
      have low := unicodeEscape_ascii (n := (lowHalf c).val) (by rw [lowHalf_val]; omega)
      exact List.forall_mem_append.mpr ⟨high, low⟩

theorem encodeUtf8_single {c : CodePoint} (ascii : c.val < 0x80) : ∃ byte, encodeUtf8 [c] = some [byte] := by
  have scalar : c.toChar? = some (Char.ofNat c.val) := if_pos (.inl (by omega))
  have same := CodePoint.ofChar_of_toChar? scalar
  have value : (Char.ofNat c.val).val.toNat ≤ 0x7F := by
    have nat : (Char.ofNat c.val).toNat = c.val := by rw [← CodePoint.val_ofChar, same]
    exact le_of_eq_of_le nat (by omega)
  have encoded := encodeUtf8_chars [Char.ofNat c.val]
  rw [List.flatMap_cons, List.flatMap_nil, List.append_nil, String.utf8EncodeChar, if_pos value, List.map_cons,
    List.map_nil, same] at encoded
  exact ⟨_, encoded⟩

theorem encodeUtf8_ascii {text : Str} (ascii : ∀ c ∈ text, c.val < 0x80) :
    ∃ bytes, encodeUtf8 text = some bytes ∧ bytes.length = text.length := by
  induction text with
  | nil => exact ⟨[], rfl, rfl⟩
  | cons c rest ih =>
    obtain ⟨byte, single⟩ := encodeUtf8_single (ascii c List.mem_cons_self)
    obtain ⟨bytes, encoded, length⟩ := ih fun other member => ascii other (List.mem_cons_of_mem _ member)
    exact ⟨byte :: bytes, encodeUtf8_append single encoded, congrArg (· + 1) length⟩

theorem encode_dumpsAscii (j : Json) :
    ∃ bytes, encodeUtf8 j.dumpsAscii = some bytes ∧ bytes.length = j.dumpsAscii.length := by
  refine encodeUtf8_ascii fun c member => ?_
  obtain ⟨source, _, made⟩ := List.mem_flatMap.mp member
  exact asciiChar_ascii source c made

end PyText
