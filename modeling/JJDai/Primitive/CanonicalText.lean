import JJDai.Lib.JsonRoundTrip
import JJDai.Primitive.CanonicalOrder
import JJDai.Primitive.Crypto

/-! Which values have canonical bytes: those without lone surrogates, infinities and NaN. -/

namespace JJDai

open PyText Canonical

def encodable (s : Str) : Bool := !s.any isSurrogate

mutual

/-- Every string and key inside is encodable, and every number is finite. -/
def writable : Json → Bool
  | .str s => encodable s
  | .float (.finite _) => true
  | .float _ => false
  | .arr items => writableItems items
  | .obj fields => writableFields fields
  | _ => true

private def writableItems : List Json → Bool
  | [] => true
  | item :: rest => writable item && writableItems rest

private def writableFields : Dict Str Json → Bool
  | [] => true
  | (key, value) :: rest => encodable key && writable value && writableFields rest

end

theorem writable_arr {items : List Json} : writable (.arr items) ↔ ∀ item ∈ items, writable item := by
  rw [writable]
  induction items with
  | nil => simp [writableItems]
  | cons item rest ih => simp [writableItems, ih]

theorem writable_obj {fields : Dict Str Json} :
    writable (.obj fields) ↔ ∀ entry ∈ fields, encodable entry.1 ∧ writable entry.2 := by
  rw [writable]
  induction fields with
  | nil => simp [writableFields]
  | cons entry rest ih => simp [writableFields, ih]

theorem encodable_iff {s : Str} : encodable s ↔ ∀ c ∈ s, isSurrogate c = false := by
  simp [encodable]

@[simp] theorem encodable_append (s t : Str) : encodable (s ++ t) ↔ encodable s ∧ encodable t := by
  simp [encodable]

theorem encodable_nil : encodable [] := rfl

theorem toChar?_isSome (c : CodePoint) : c.toChar?.isSome = !isSurrogate c := by
  have spelled : isSurrogate c = decide (0xD800 ≤ c.val ∧ c.val ≤ 0xDFFF) := by
    simp [isSurrogate]
  unfold CodePoint.toChar?
  split
  · rename_i outside
    rw [spelled, decide_eq_false (by omega)]
    rfl
  · rename_i inside
    rw [spelled, decide_eq_true (by omega)]
    rfl

theorem encodeUtf8_isSome (s : Str) : (encodeUtf8 s).isSome = encodable s := by
  rw [encodeUtf8, Option.isSome_map]
  induction s with
  | nil => rfl
  | cons c rest ih =>
    have first := toChar?_isSome c
    simp only [encodable, List.any_cons, Bool.not_or] at ih ⊢
    rw [← first, ← ih, List.mapM_cons]
    cases c.toChar? with
    | none => rfl
    | some d => cases rest.mapM CodePoint.toChar? <;> rfl

theorem encode_isOk (s : Str) : (encode s).isOk = encodable s := by
  rw [← encodeUtf8_isSome, encode]
  cases encodeUtf8 s <;> rfl

private theorem plain_of_isNumberChar {c : CodePoint} (inside : isNumberChar c) :
    isSurrogate c = false := by
  unfold isNumberChar at inside
  simp only [isDigit, Bool.or_eq_true, Bool.and_eq_true, decide_eq_true_eq, beq_iff_eq] at inside
  rw [isSurrogate, Bool.and_eq_false_iff]
  left
  rw [decide_eq_false_iff_not]
  rcases inside with ((((digit | rfl) | rfl) | rfl) | rfl) | rfl
  · omega
  all_goals decide

theorem encodable_number {text : Str} (inside : ∀ c ∈ text, isNumberChar c) : encodable text :=
  encodable_iff.mpr (fun c member => plain_of_isNumberChar (inside c member))

theorem encodable_intText (n : Int) : encodable (intText n) :=
  encodable_number (isNumberChar_intText n)

theorem isNumberChar_decimalText (d : Decimal) : ∀ c ∈ decimalText d, isNumberChar c := by
  unfold decimalText
  simp only
  split
  · exact isNumberChar_decimal d
  · have digits : ∀ c ∈ natText d.digits, isNumberChar c := fun c member =>
      isNumberChar_of_isDigit (isDigit_natText _ c member)
    apply isNumberChar_signed
    intro c member
    simp only [List.mem_append, List.mem_cons] at member
    rcases member with front | fraction | rfl | sign | power
    · exact digits c (List.mem_of_mem_take front)
    · split at fraction
      · rcases List.mem_cons.mp fraction with rfl | rest
        · decide
        · exact digits c (List.mem_of_mem_drop rest)
      · cases fraction
    · decide
    · split at sign <;> subst sign <;> decide
    · exact isNumberChar_of_isDigit (isDigit_natText _ c power)

theorem encodable_decimalText (d : Decimal) : encodable (decimalText d) :=
  encodable_number (isNumberChar_decimalText d)

theorem es6Number_finite (d : Decimal) : ∃ text, es6Number (.finite d) = .ok text ∧ encodable text := by
  unfold es6Number
  simp only
  split
  · exact ⟨_, rfl, by decide⟩
  · split
    · split
      · exact ⟨_, rfl, encodable_intText _⟩
      · exact ⟨_, rfl, encodable_decimalText d⟩
    · exact ⟨_, rfl, encodable_decimalText d⟩

private theorem isSurrogate_hexDigit {n : Nat} (small : n < 16) : isSurrogate (hexDigit n) = false := by
  interval_cases n <;> decide

theorem escapeChar_any (c : CodePoint) : (escapeChar c).any isSurrogate = isSurrogate c := by
  unfold escapeChar
  cases found : shortEscape c with
  | some letter =>
    have member := Dict.mem_of_get? found
    simp only [shortEscapes, List.mem_cons, Prod.mk.injEq, List.not_mem_nil, or_false] at member
    rcases member with ⟨rfl, rfl⟩ | ⟨rfl, rfl⟩ | ⟨rfl, rfl⟩ | ⟨rfl, rfl⟩ | ⟨rfl, rfl⟩ | ⟨rfl, rfl⟩ |
      ⟨rfl, rfl⟩ <;> decide
  | none =>
    simp only
    split
    · rename_i control
      have low : isSurrogate c = false := by
        rw [isSurrogate, decide_eq_false (by omega)]
        rfl
      have first := isSurrogate_hexDigit (Nat.div_lt_of_lt_mul (by omega : c.val < 16 * 16))
      have second := isSurrogate_hexDigit (Nat.mod_lt c.val (by decide : 0 < 16))
      have letters : isSurrogate (ch '\\') = false ∧ isSurrogate (ch 'u') = false ∧
          isSurrogate (ch '0') = false := by decide
      simp [first, second, letters, low]
    · simp

theorem encodable_escapeString (s : Str) : encodable (escapeString s) = encodable s := by
  have quote : isSurrogate (ch '"') = false := by decide
  simp only [encodable, escapeString, quoted, List.any_cons, List.any_append, quote, List.any_nil,
    Bool.false_or, Bool.or_false]
  congr 1
  induction s with
  | nil => rfl
  | cons c rest ih => rw [List.flatMap_cons, List.any_append, ih, escapeChar_any, List.any_cons]

theorem encodable_joinWith {separator : Str} (plain : encodable separator) {texts : List Str} :
    encodable (joinWith separator texts) ↔ ∀ text ∈ texts, encodable text := by
  induction texts with
  | nil => simp [joinWith, encodable_nil]
  | cons text rest ih =>
    cases rest with
    | nil => simp [joinWith]
    | cons second rest =>
      rw [joinWith, encodable_append, encodable_append, ih]
      · simp [plain]
      · simp

theorem encodable_enclosed {first last : CodePoint} (opens : isSurrogate first = false)
    (closes : isSurrogate last = false) {text : Str} :
    encodable (first :: (text ++ [last])) ↔ encodable text := by
  simp [encodable, opens, closes]

theorem mapM_encodable {α : Type} {f : α → Py Str} {items : List α} :
    (∃ texts, items.mapM f = .ok texts ∧ ∀ text ∈ texts, encodable text) ↔
      ∀ item ∈ items, ∃ text, f item = .ok text ∧ encodable text := by
  induction items with
  | nil => simp [pure, Except.pure]
  | cons item rest ih =>
    rw [List.forall_mem_cons, ← ih]
    simp only [List.mapM_cons, bind, Py.bind_ok, pure, Except.pure, Except.ok.injEq]
    constructor
    · rintro ⟨_, ⟨first, made, later, others, rfl⟩, plain⟩
      exact ⟨⟨first, made, plain first List.mem_cons_self⟩, later, others,
        fun text member => plain text (List.mem_cons_of_mem _ member)⟩
    · rintro ⟨⟨first, made, plain⟩, later, others, rest⟩
      exact ⟨first :: later, ⟨first, made, later, others, rfl⟩, List.forall_mem_cons.mpr ⟨plain, rest⟩⟩

theorem serialize_arr_ok {items : List Json} {text : Str} :
    serialize (.arr items) = .ok text ↔ ∃ texts, (items.map serialize).mapM id = .ok texts ∧
      text = ch '[' :: (joinWith [ch ','] texts ++ [ch ']']) := by
  rw [serialize, serializeItems_eq]
  simp only [bind, Py.bind_ok, pure, Except.pure, Except.ok.injEq]
  simp only [@eq_comm _ _ text]

theorem serialize_obj_ok {fields : Dict Str Json} {text : Str} :
    serialize (.obj fields) = .ok text ↔ (∀ key ∈ Dict.keys fields, encodable key) ∧
      ∃ texts, ((fields.map (fun entry => (keyUnits entry.1, entry.1, serialize entry.2))).insertionSort
        (fun a b => a.1 ≤ b.1)).mapM (fun item => (do
          let text ← item.2.2
          return escapeString item.2.1 ++ ch ':' :: text : Py Str)) = .ok texts ∧
      text = ch '{' :: (joinWith [ch ','] texts ++ [ch '}']) := by
  have keys : Dict.keys (serializeFields fields) = Dict.keys fields := by
    simp [serializeFields_eq, Dict.keys]
  have plain : (∀ key ∈ Dict.keys fields, encodable key) ↔
      ¬(Dict.keys fields).any (fun key => key.any isSurrogate) := by
    simp [encodable]
  rw [serialize, keyed_eq, keys, plain]
  by_cases lone : (Dict.keys fields).any (fun key => key.any isSurrogate)
  · simp [lone, raise, bind, Except.bind]
  · rw [if_neg lone, serializeFields_eq]
    simp only [bind, Py.bind_ok, pure, Except.pure, Except.ok.injEq, List.map_map, lone,
      exists_eq_left', Bool.false_eq_true, not_false_eq_true, true_and]
    simp only [@eq_comm _ _ text]
    rfl

theorem serialize_writable (j : Json) :
    (∃ text, serialize j = .ok text ∧ encodable text) ↔ writable j := by
  induction j with
  | null => exact iff_of_true ⟨_, rfl, by decide⟩ rfl
  | bool value =>
    cases value
    · exact iff_of_true ⟨_, rfl, by decide⟩ rfl
    · exact iff_of_true ⟨_, rfl, by decide⟩ rfl
  | int n => exact iff_of_true ⟨_, rfl, encodable_intText n⟩ rfl
  | float x =>
    cases x with
    | finite d =>
      refine iff_of_true ?_ rfl
      rw [serialize]
      exact es6Number_finite d
    | infinity negative => simp [serialize, es6Number, raise, writable]
    | nan => simp [serialize, es6Number, raise, writable]
  | str s =>
    rw [serialize, writable]
    simp [pure, Except.pure, encodable_escapeString]
  | arr items ih =>
    rw [writable_arr]
    have inner := @mapM_encodable _ (id : Py Str → Py Str) (items.map serialize)
    rw [List.forall_mem_map] at inner
    constructor
    · rintro ⟨_, made, plain⟩
      obtain ⟨texts, all, rfl⟩ := serialize_arr_ok.mp made
      rw [encodable_enclosed (by decide) (by decide), encodable_joinWith (by decide)] at plain
      have each := inner.mp ⟨texts, all, plain⟩
      exact fun item member => (ih item member).mp (each item member)
    · intro all
      obtain ⟨texts, made, plain⟩ := inner.mpr (fun item member => (ih item member).mpr (all item member))
      refine ⟨_, serialize_arr_ok.mpr ⟨texts, made, rfl⟩, ?_⟩
      rw [encodable_enclosed (by decide) (by decide), encodable_joinWith (by decide)]
      exact plain
  | obj fields ih =>
    rw [writable_obj]
    have entry (key : Str) (value : Py Str) :
        (∃ text, (do let text ← value; return escapeString key ++ ch ':' :: text : Py Str) = .ok text ∧
          encodable text) ↔ encodable key ∧ ∃ text, value = .ok text ∧ encodable text := by
      have colon : encodable [ch ':'] := by decide
      have shape (text : Str) : encodable (escapeString key ++ ch ':' :: text) ↔
          encodable key ∧ encodable text := by
        rw [← List.singleton_append, encodable_append, encodable_append, encodable_escapeString]
        simp [colon]
      cases value with
      | error e => simp [bind, Except.bind]
      | ok text => simp [bind, Except.bind, pure, Except.pure, shape]
    have inner := @mapM_encodable _ (fun item : List Nat × Str × Py Str => (do
      let text ← item.2.2
      return escapeString item.2.1 ++ ch ':' :: text : Py Str))
      ((fields.map (fun entry => (keyUnits entry.1, entry.1, serialize entry.2))).insertionSort
        (fun a b => a.1 ≤ b.1))
    simp only [entry, List.mem_insertionSort, List.forall_mem_map] at inner
    constructor
    · rintro ⟨_, made, plain⟩
      obtain ⟨_, texts, all, rfl⟩ := serialize_obj_ok.mp made
      rw [encodable_enclosed (by decide) (by decide), encodable_joinWith (by decide)] at plain
      have each := inner.mp ⟨texts, all, plain⟩
      exact fun item member => ⟨(each item member).1, (ih item member).mp (each item member).2⟩
    · intro all
      obtain ⟨texts, made, plain⟩ := inner.mpr (fun item member =>
        ⟨(all item member).1, (ih item member).mpr (all item member).2⟩)
      refine ⟨_, serialize_obj_ok.mpr ⟨?_, texts, made, rfl⟩, ?_⟩
      · intro key member
        obtain ⟨item, inside, rfl⟩ := List.mem_map.mp member
        exact (all item inside).1
      · rw [encodable_enclosed (by decide) (by decide), encodable_joinWith (by decide)]
        exact plain

theorem canonical_isOk (j : Json) : (canonical j).isOk ↔ writable j := by
  rw [← serialize_writable, canonical]
  cases made : serialize j with
  | error e => simp [bind, Except.bind, Except.isOk, Except.toBool]
  | ok text =>
    have encodes := encode_isOk text
    simp [bind, Except.bind, encodes]

theorem encodable_toHex (bytes : Bytes) : encodable (toHex bytes) := by
  rw [encodable_iff]
  intro c member
  have ascii := List.all_eq_true.mp (isAscii_toHex bytes) c member
  rw [isSurrogate, decide_eq_false (by have := of_decide_eq_true ascii; omega)]
  rfl

theorem encodable_of_fromHex {text : Str} {bytes : Bytes} (decoded : fromHex text = some bytes) : encodable text := by
  have digit {c : CodePoint} {n : Nat} (value : hexValue c = some n) : isSurrogate c = false := by
    simp only [hexValue] at value
    simp only [isSurrogate, Bool.and_eq_false_iff, decide_eq_false_iff_not]
    split_ifs at value <;> omega
  have space {c : CodePoint} (blank : isAsciiSpace c = true) : isSurrogate c = false := by
    simp only [isAsciiSpace, Bool.or_eq_true, beq_iff_eq, Bool.and_eq_true, decide_eq_true_eq] at blank
    simp only [isSurrogate, Bool.and_eq_false_iff, decide_eq_false_iff_not]
    omega
  rw [encodable_iff]
  induction text using fromHex.induct generalizing bytes with
  | case1 => simp
  | case2 c blank => simpa using space blank
  | case3 c solid =>
    rw [fromHex, if_neg solid] at decoded
    cases decoded
  | case4 c d rest blank ih =>
    rw [fromHex, if_pos blank] at decoded
    intro other member
    rcases List.mem_cons.mp member with rfl | inside
    · exact space blank
    · exact ih decoded other inside
  | case5 c d rest solid high low bytes' later second first ih =>
    intro other member
    rcases List.mem_cons.mp member with rfl | member
    · exact digit first
    · rcases List.mem_cons.mp member with rfl | inside
      · exact digit second
      · exact ih later other inside
  | case6 c d rest solid none_left =>
    rw [fromHex, if_neg solid] at decoded
    split at decoded
    · rename_i first second later
      exact absurd later (none_left _ _ _ first second)
    · cases decoded

theorem encodable_nodeId (crypto : Crypto) (pub : Bytes) : encodable (canonicalNodeId crypto pub) := by
  rw [canonicalNodeId, encodable_append]
  exact ⟨by decide, encodable_toHex _⟩

end JJDai
