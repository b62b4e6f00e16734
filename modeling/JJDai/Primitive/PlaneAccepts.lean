import JJDai.Primitive.PlaneBound
import JJDai.Primitive.Segments

/-! What is enough for the checks of `append`: every string of the vocabulary, no reserved name,
and a size and depth within the bounds. -/

namespace JJDai

open PyText

mutual

def height : Json → Nat
  | .arr items => heightItems items + 1
  | .obj fields => heightFields fields + 1
  | _ => 0

def heightItems : List Json → Nat
  | [] => 0
  | item :: rest => max (height item) (heightItems rest)

def heightFields : Dict Str Json → Nat
  | [] => 0
  | (_, value) :: rest => max (height value) (heightFields rest)

end

/-- A string that the vocabulary has and no reserve claims. -/
def Free (text : Str) : Prop := checkScalar [] text = .ok () ∧ reservedHit text = none

instance (text : Str) : Decidable (Free text) := inferInstanceAs (Decidable (_ ∧ _))

theorem checkScalar_field {field text : Str} (free : checkScalar [] text = .ok ()) : checkScalar field text = .ok () :=
  checkScalar_ok.mpr (checkScalar_ok.mp free)

theorem checkPlaneValue_of {value : Json} : ∀ {field : Str} {depth seen : Nat},
    (∀ text ∈ texts value, checkScalar [] text = .ok ()) → seen + counted value ≤ maxPlaneNodes →
      depth + height value ≤ maxPlaneDepth → checkPlaneValue field value depth seen = .ok (seen + counted value) := by
  induction value with
  | null => intro field depth seen _ _ _; rfl
  | arr items ih =>
    intro field depth seen plain room shallow
    have inner : ∀ {i depth seen : Nat}, (∀ text ∈ textsItems items, checkScalar [] text = .ok ()) →
        seen + countedItems items ≤ maxPlaneNodes → depth + heightItems items ≤ maxPlaneDepth →
          checkPlaneItems field items i depth seen = .ok (seen + countedItems items) := by
      clear plain room shallow
      induction items with
      | nil => intros; rfl
      | cons item rest later =>
        intro i depth seen plain room shallow
        simp only [textsItems, List.mem_append, countedItems, heightItems] at plain room shallow
        have first := @ih item (by simp) (subIndex field i) depth seen (fun text member => plain text (Or.inl member))
          (by omega) (by omega)
        have others := @later (fun item member => ih item (by simp [member])) (i + 1) depth (seen + counted item)
          (fun text member => plain text (Or.inr member)) (by omega) (by omega)
        simp only [checkPlaneItems, first, bind, Except.bind, others, countedItems, Nat.add_assoc]
    simp only [texts, counted, height] at plain room shallow
    simp only [checkPlaneValue]
    rw [if_neg (by omega), if_neg (by omega), inner plain (by omega) (by omega)]
    simp only [counted]
    congr 1
    omega
  | obj fields ih =>
    intro field depth seen plain room shallow
    have inner : ∀ {depth seen : Nat}, (∀ text ∈ textsFields fields, checkScalar [] text = .ok ()) →
        seen + countedFields fields ≤ maxPlaneNodes → depth + heightFields fields ≤ maxPlaneDepth →
          checkPlaneFields field fields depth seen = .ok (seen + countedFields fields) := by
      clear plain room shallow
      induction fields with
      | nil => intros; rfl
      | cons entry rest later =>
        obtain ⟨key, value⟩ := entry
        intro depth seen plain room shallow
        simp only [textsFields, List.mem_cons, List.mem_append, countedFields, heightFields] at plain room shallow
        have named := @checkScalar_field (subField field key) _ (plain key (Or.inl rfl))
        have first := @ih (key, value) (by simp) (subField field key) depth seen
          (fun text member => plain text (Or.inr (Or.inl member))) (by dsimp only; omega) (by dsimp only; omega)
        have others := @later (fun entry member => ih entry (by simp [member])) depth (seen + counted value)
          (fun text member => plain text (Or.inr (Or.inr member))) (by omega) (by omega)
        simp only [checkPlaneFields, named, first, bind, Except.bind, others, countedFields, Nat.add_assoc]
    simp only [texts, counted, height] at plain room shallow
    simp only [checkPlaneValue]
    rw [if_neg (by omega), if_neg (by omega), inner plain (by omega) (by omega)]
    simp only [counted]
    congr 1
    omega
  | str text =>
    intro field depth seen plain room shallow
    simp only [texts, List.mem_singleton, forall_eq, counted, height] at plain room shallow
    simp only [checkPlaneValue]
    rw [if_neg (by omega), if_neg (by omega), checkScalar_field plain]
    rfl
  | _ =>
    intro field depth seen plain room shallow
    simp only [counted, height] at room shallow
    simp only [checkPlaneValue]
    rw [if_neg (by omega), if_neg (by omega)]
    rfl

theorem checkNoReservedValues_of {value : Json} : ∀ {field : Str} {seen : Nat},
    (∀ text ∈ texts value, reservedHit text = none) → seen + size value ≤ maxScanNodes →
      ∃ after ≤ seen + size value, checkNoReservedValues field value seen = .ok after := by
  induction value with
  | arr items ih =>
    intro field seen free room
    have inner : ∀ {i seen : Nat}, (∀ text ∈ textsItems items, reservedHit text = none) →
        seen + sizeItems items ≤ maxScanNodes →
          ∃ after ≤ seen + sizeItems items, checkNoReservedItems field items i seen = .ok after := by
      clear free room
      induction items with
      | nil => exact fun _ _ => ⟨_, Nat.le_refl _, rfl⟩
      | cons item rest later =>
        intro i seen free room
        simp only [textsItems, List.mem_append, sizeItems] at free room ⊢
        obtain ⟨middle, bound, first⟩ := @ih item (by simp) (subIndex field i) seen
          (fun text member => free text (Or.inl member)) (by omega)
        obtain ⟨after, least, others⟩ := @later (fun item member => ih item (by simp [member])) (i + 1) middle
          (fun text member => free text (Or.inr member)) (by omega)
        refine ⟨after, by omega, ?_⟩
        simp only [checkNoReservedItems, first, bind, Except.bind, others]
    simp only [texts, size] at free room ⊢
    obtain ⟨after, bound, passed⟩ := @inner 0 (seen + 1) free (by omega)
    refine ⟨after, by omega, ?_⟩
    rw [checkNoReservedValues, if_neg (by omega)]
    exact passed
  | obj fields ih =>
    intro field seen free room
    have inner : ∀ {seen : Nat}, (∀ text ∈ textsFields fields, reservedHit text = none) →
        seen + sizeFields fields ≤ maxScanNodes →
          ∃ after ≤ seen + sizeFields fields, checkNoReservedFields field fields seen = .ok after := by
      clear free room
      induction fields with
      | nil => exact fun _ _ => ⟨_, Nat.le_refl _, rfl⟩
      | cons entry rest later =>
        obtain ⟨key, value⟩ := entry
        intro seen free room
        simp only [textsFields, List.mem_cons, List.mem_append, sizeFields] at free room ⊢
        obtain ⟨middle, bound, first⟩ := @ih (key, value) (by simp) (subField field key) seen
          (fun text member => free text (Or.inr (Or.inl member))) (by dsimp only; omega)
        dsimp only at bound first
        obtain ⟨after, least, others⟩ := @later (fun entry member => ih entry (by simp [member])) middle
          (fun text member => free text (Or.inr (Or.inr member))) (by omega)
        refine ⟨after, by omega, ?_⟩
        simp only [checkNoReservedFields, free key (Or.inl rfl), first, bind, Except.bind, others]
    simp only [texts, size] at free room ⊢
    obtain ⟨after, bound, passed⟩ := @inner (seen + 1) free (by omega)
    refine ⟨after, by omega, ?_⟩
    rw [checkNoReservedValues, if_neg (by omega)]
    exact passed
  | str text =>
    intro field seen free room
    simp only [texts, List.mem_singleton, forall_eq, size] at free room
    refine ⟨seen + 1, Nat.le_refl _, ?_⟩
    rw [checkNoReservedValues, if_neg (by omega), free]
    rfl
  | _ =>
    intro field seen free room
    simp only [size] at room
    refine ⟨seen + 1, Nat.le_refl _, ?_⟩
    simp only [checkNoReservedValues]
    rw [if_neg (by omega)]
    rfl

theorem free_of_checkNoReservedValues {value : Json} : ∀ {field : Str} {seen after : Nat},
    checkNoReservedValues field value seen = .ok after → ∀ text ∈ texts value, reservedHit text = none := by
  induction value with
  | arr items ih =>
    intro field seen after passed
    have inner : ∀ {i seen after : Nat}, checkNoReservedItems field items i seen = .ok after →
        ∀ text ∈ textsItems items, reservedHit text = none := by
      clear passed
      induction items with
      | nil => exact fun _ _ member => absurd member List.not_mem_nil
      | cons item rest later =>
        intro i seen after passed text member
        simp only [checkNoReservedItems, bind, Py.bind_ok] at passed
        obtain ⟨middle, first, others⟩ := passed
        rcases List.mem_append.mp member with member | member
        · exact ih item (by simp) first text member
        · exact later (fun item member => ih item (by simp [member])) others text member
    rw [checkNoReservedValues] at passed
    split at passed
    · cases passed
    · exact inner passed
  | obj fields ih =>
    intro field seen after passed
    have inner : ∀ {seen after : Nat}, checkNoReservedFields field fields seen = .ok after →
        ∀ text ∈ textsFields fields, reservedHit text = none := by
      clear passed
      induction fields with
      | nil => exact fun _ _ member => absurd member List.not_mem_nil
      | cons entry rest later =>
        obtain ⟨key, value⟩ := entry
        intro seen after passed text member
        simp only [checkNoReservedFields] at passed
        split at passed
        · cases passed
        · rename_i named
          simp only [bind, Py.bind_ok] at passed
          obtain ⟨middle, first, others⟩ := passed
          rcases List.mem_cons.mp member with rfl | member
          · exact named
          · rcases List.mem_append.mp member with member | member
            · exact ih (key, value) (by simp) first text member
            · exact later (fun entry member => ih entry (by simp [member])) others text member
    rw [checkNoReservedValues] at passed
    split at passed
    · cases passed
    · exact inner passed
  | str text =>
    intro field seen after passed other member
    obtain rfl := List.mem_singleton.mp member
    rw [checkNoReservedValues] at passed
    split at passed
    · cases passed
    · split at passed
      · cases passed
      · assumption
  | _ => exact fun _ _ member => absurd member List.not_mem_nil

/-- The domains of commitments, the only scanned names with colons whose parts are no names. -/
def commitmentDomains : List Str := ["JJDAI:PREDICTION:v1", "JJDAI:INTENTION:v1"]

/-- The tables of both reserves. A scanned name has a character that no hash has and one that no word
has, and begins with a capital where it has a colon; it is one segment, or its third is scanned, or
it is a commitment domain. A namespace has a character of no hash and one of three initials, ends
in one slash, and has no colon. -/
theorem reserved_table :
    scannedValues.all (fun name => name.any (fun c => !isLowerHex c && c != ch '/') &&
      name.any (fun c => !(97 ≤ c.val && c.val ≤ 122)) && (!name.contains (ch ':') || name.head? == some (ch 'J')) &&
      (splitAt (ch ':') name == [name] || (splitAt (ch ':') name)[2]?.any scannedValues.contains ||
        commitmentDomains.contains name)) = true ∧
    commitmentDomains.all scannedValues.contains = true ∧
    reservedNamespaces.all (fun ns => ns.any (fun c => !isLowerHex c && c != ch '/') &&
      [some (ch 'c'), some (ch 'v'), some (ch 'm')].contains ns.head? && !ns.contains (ch ':') &&
      ns.getLast? == some (ch '/') && ns.dropLast != [] && ns.dropLast.getLast? != some (ch '/')) = true := by
  decide +kernel

structure ScannedShape (name : Str) : Prop where
  marked : ∃ c ∈ name, ¬isLowerHex c ∧ c ≠ ch '/'
  large : ∃ c ∈ name, ¬(97 ≤ c.val ∧ c.val ≤ 122)
  capital : ch ':' ∈ name → name.head? = some (ch 'J')
  parts : splitAt (ch ':') name = [name] ∨ (∃ part ∈ splitAt (ch ':') name, part ∈ scannedValues) ∨
    name ∈ commitmentDomains

structure NamespaceShape (ns : Str) : Prop where
  marked : ∃ c ∈ ns, ¬isLowerHex c ∧ c ≠ ch '/'
  initial : ns.head? ∈ [some (ch 'c'), some (ch 'v'), some (ch 'm')]
  plain : ch ':' ∉ ns
  slash : ∃ front, ns = front ++ [ch '/'] ∧ front ≠ [] ∧ front.getLast? ≠ some (ch '/')

theorem scanned_shape {name : Str} (scanned : name ∈ scannedValues) : ScannedShape name := by
  have shape := List.all_eq_true.mp reserved_table.1 name scanned
  simp only [Bool.and_eq_true, Bool.or_eq_true, Bool.not_eq_true', beq_iff_eq, bne_iff_ne, List.any_eq_true,
    Option.any_eq_true, List.contains_iff_mem, Bool.and_eq_false_iff, decide_eq_false_iff_not] at shape
  obtain ⟨⟨⟨⟨c, inside, digit, slash⟩, d, inside', small⟩, colon⟩, parts⟩ := shape
  refine ⟨⟨c, inside, by simp [digit], slash⟩, ⟨d, inside', not_and_or.mpr small⟩, ?_, ?_⟩
  · intro present
    cases colon with
    | inl absent => simp [present] at absent
    | inr head => exact head
  · rcases parts with (single | ⟨part, third, listed⟩) | domain
    · exact .inl single
    · exact .inr (.inl ⟨part, List.mem_of_getElem? third, listed⟩)
    · exact .inr (.inr domain)

theorem namespace_shape {ns : Str} (member : ns ∈ reservedNamespaces) : NamespaceShape ns := by
  have shape := List.all_eq_true.mp reserved_table.2.2 ns member
  simp only [Bool.and_eq_true, Bool.not_eq_true', beq_iff_eq, bne_iff_ne, List.any_eq_true,
    List.contains_iff_mem] at shape
  obtain ⟨⟨⟨⟨⟨⟨c, inside, digit, slash⟩, initial⟩, plain⟩, last⟩, some_left⟩, single⟩ := shape
  refine ⟨⟨c, inside, by simp [digit], slash⟩, initial, ?_, ns.dropLast, (List.dropLast_append_getLast? _ last).symm,
    some_left, single⟩
  intro present
  rw [List.contains_iff_mem.mpr present] at plain
  cases plain

theorem nil_not_scanned : ([] : Str) ∉ scannedValues := by
  intro scanned
  obtain ⟨c, inside, _⟩ := (scanned_shape scanned).marked
  cases inside

theorem commitmentDomains_scanned {domain : Str} (member : domain ∈ commitmentDomains) : domain ∈ scannedValues :=
  List.contains_iff_mem.mp (List.all_eq_true.mp reserved_table.2.1 domain member)

/-- A text that is, or lies below, a reserved namespace. -/
def InNamespace (text : Str) : Prop := ∃ ns ∈ reservedNamespaces, ns <+: text ∨ ns = text ++ [ch '/']

theorem inNamespace_probe {text : Str} :
    (∃ ns ∈ reservedNamespaces, ns <+: if text.getLast? = some (ch '/') then text else text ++ [ch '/']) ↔
      InNamespace text := by
  refine exists_congr (fun ns => and_congr_right (fun member => ?_))
  obtain ⟨front, rfl, _, single⟩ := (namespace_shape member).slash
  by_cases slash : text.getLast? = some (ch '/')
  · rw [if_pos slash]
    refine ⟨Or.inl, fun either => ?_⟩
    cases either with
    | inl below => exact below
    | inr same =>
      rw [(List.append_inj' same rfl).1] at single
      exact absurd slash single
  · rw [if_neg slash, List.prefix_concat_iff, or_comm]

theorem not_inNamespace_nil : ¬InNamespace [] := by
  intro inside
  obtain ⟨ns, member, either⟩ := inside
  obtain ⟨front, rfl, some_left, _⟩ := (namespace_shape member).slash
  cases either with
  | inl below => simp at below
  | inr same => exact some_left (List.append_inj' same rfl).1

/-- The scan finds nothing in a text that is not reserved as a whole and has no scanned segment. -/
theorem reservedHit_none {text : Str} : reservedHit text = none ↔
    ¬InNamespace text ∧ text ∉ scannedValues ∧ ∀ part ∈ splitAt (ch ':') text, part ∉ scannedValues := by
  unfold reservedHit
  by_cases empty : text = []
  · rw [if_pos empty, empty]
    refine iff_of_true rfl ⟨not_inNamespace_nil, nil_not_scanned, ?_⟩
    intro part member
    obtain rfl := List.mem_singleton.mp member
    exact nil_not_scanned
  · rw [if_neg empty, ← inNamespace_probe]
    by_cases scanned : text ∈ scannedValues
    · rw [if_pos (List.contains_iff_mem.mpr scanned)]
      exact iff_of_false (fun found => by cases found) (fun all => all.2.1 scanned)
    · rw [if_neg (fun held => scanned (List.contains_iff_mem.mp held))]
      simp only
      generalize (if text.getLast? = some (ch '/') then text else text ++ [ch '/']) = probe
      cases found : reservedNamespaces.find? (fun ns => ns.isPrefixOf probe) with
      | some ns =>
        have starts := List.isPrefixOf_iff_prefix.mp (List.find?_some (p := fun ns => List.isPrefixOf ns probe) found)
        exact iff_of_false (fun none_left => by cases none_left)
          (fun all => all.1 ⟨ns, List.mem_of_find?_eq_some found, starts⟩)
      | none =>
        have outside : ¬∃ ns ∈ reservedNamespaces, ns <+: probe := by
          intro inside
          obtain ⟨ns, member, starts⟩ := inside
          exact List.find?_eq_none.mp found ns member (List.isPrefixOf_iff_prefix.mpr starts)
        simp only [outside, scanned, not_false_eq_true, true_and]
        by_cases colon : ch ':' ∈ text
        · rw [if_pos (List.contains_iff_mem.mpr colon), List.find?_eq_none]
          simp only [List.contains_iff_mem]
        · rw [if_neg (fun held => colon (List.contains_iff_mem.mp held)), splitAt_absent colon]
          simpa using scanned

theorem reservedHit_hex {text : Str} (hex : ∀ c ∈ text, isLowerHex c) : reservedHit text = none := by
  have unscanned : text ∉ scannedValues := by
    intro scanned
    obtain ⟨c, inside, other, _⟩ := (scanned_shape scanned).marked
    exact other (hex c inside)
  have single : ch ':' ∉ text := fun member => absurd (hex _ member) (by decide)
  refine reservedHit_none.mpr ⟨?_, unscanned, ?_⟩
  · intro reserved
    obtain ⟨ns, member, either⟩ := reserved
    obtain ⟨c, present, other, slash⟩ := (namespace_shape member).marked
    cases either with
    | inl below => exact other (hex c (below.subset present))
    | inr same =>
      rw [same] at present
      cases List.mem_append.mp present with
      | inl inside => exact other (hex c inside)
      | inr last => exact slash (List.mem_singleton.mp last)
  · rw [splitAt_absent single]
    intro part member
    rw [List.mem_singleton.mp member]
    exact unscanned

theorem length_toHex (bytes : Bytes) : (toHex bytes).length = 2 * bytes.length := by
  induction bytes with
  | nil => rfl
  | cons b rest ih =>
    simp only [toHex, List.flatMap_cons, List.length_append, List.length_cons, List.length_nil] at ih ⊢
    omega

theorem isLowerHex_toHex (bytes : Bytes) : (toHex bytes).all isLowerHex = true := by
  have digit (n : Nat) (small : n < 16) : isLowerHex (hexDigit n) = true := by
    interval_cases n <;> decide
  rw [List.all_eq_true]
  intro c member
  obtain ⟨b, _, inside⟩ := List.mem_flatMap.mp member
  simp only [List.mem_cons, List.not_mem_nil, or_false] at inside
  have bound := b.toNat_lt
  rcases inside with rfl | rfl
  · exact digit _ (by omega)
  · exact digit _ (by omega)

theorem free_hash (crypto : Crypto) (data : Bytes) : Free (H_hex crypto data) := by
  have length : (H_hex crypto data).length = 64 := by rw [H_hex, length_toHex, crypto.length_H]
  have hex : ∀ c ∈ H_hex crypto data, isLowerHex c := fun c member =>
    List.all_eq_true.mp (isLowerHex_toHex (crypto.H data)) c member
  have whole : splitAt (ch ':') (H_hex crypto data) = [H_hex crypto data] :=
    splitAt_absent (fun member => absurd (hex _ member) (by decide))
  refine ⟨checkScalar_ok.mpr ?_, reservedHit_hex hex⟩
  rw [whole]
  refine ⟨show 1 ≤ maxDigestParts by decide, fun part member => ?_⟩
  obtain rfl := List.mem_singleton.mp member
  have hexish : isHexish (H_hex crypto data) = true := by
    simp only [isHexish, length, Bool.and_eq_true, List.all_eq_true]
    exact ⟨by decide, hex⟩
  simp [isPlanePart, matchesLine, hexish]

/-- A segment that the vocabulary has and no reserve claims. -/
def freePart (part : Str) : Bool := isPlanePart part && !scannedValues.contains part

theorem freePart_of_free {part : Str} (plain : ch ':' ∉ part) (free : Free part) : freePart part := by
  have listed := (checkScalar_ok.mp free.1).2 part
  rw [splitAt_absent plain] at listed
  have unscanned : scannedValues.contains part = false := by
    rw [← Bool.not_eq_true, List.contains_iff_mem]
    exact (reservedHit_none.mp free.2).2.1
  simp only [freePart, listed (List.mem_singleton_self _), unscanned, Bool.not_false, Bool.and_self]

theorem colon_not_mem_hash (crypto : Crypto) (data : Bytes) : ch ':' ∉ H_hex crypto data := by
  intro member
  exact absurd (List.all_eq_true.mp (isLowerHex_toHex (crypto.H data)) _ member) (by decide)

theorem freePart_hash (crypto : Crypto) (data : Bytes) : freePart (H_hex crypto data) :=
  freePart_of_free (colon_not_mem_hash crypto data) (free_hash crypto data)

def isWord (word : Str) : Bool :=
  1 ≤ word.length && word.length ≤ 128 && word.all (fun c => 97 ≤ c.val && c.val ≤ 122)

theorem freePart_word {word : Str} (small : isWord word) : freePart word := by
  simp only [isWord, Bool.and_eq_true, decide_eq_true_eq, List.all_eq_true] at small
  obtain ⟨⟨filled, short⟩, letters⟩ := small
  have token : isToken word = true := by
    simp only [isToken, Bool.and_eq_true, decide_eq_true_eq, List.all_eq_true]
    refine ⟨⟨filled, short⟩, fun c member => ?_⟩
    obtain ⟨low, high⟩ := letters c member
    simp [isTokenChar, low, high]
  have unscanned : scannedValues.contains word = false := by
    rw [← Bool.not_eq_true, List.contains_iff_mem]
    intro member
    obtain ⟨c, inside, other⟩ := (scanned_shape member).large
    exact other (letters c inside)
  simp only [freePart, isPlanePart, matchesLine, token, unscanned, Bool.true_or, Bool.or_true, Bool.not_false,
    Bool.and_self]

theorem colon_not_mem_word {word : Str} (small : isWord word) : ch ':' ∉ word := by
  simp only [isWord, Bool.and_eq_true, List.all_eq_true] at small
  intro member
  exact absurd (small.2 _ member) (by decide)

/-- A word with the initial of no reserved namespace. -/
def opens (word : Str) : Bool :=
  isWord word && !List.contains [some (ch 'c'), some (ch 'v'), some (ch 'm')] word.head?

theorem free_joined {word rest : Str} (start : opens word) (parts : ∀ part ∈ splitAt (ch ':') rest, freePart part)
    (few : (splitAt (ch ':') rest).length < maxDigestParts) : Free (word ++ ch ':' :: rest) := by
  rw [opens, Bool.and_eq_true, Bool.not_eq_true'] at start
  obtain ⟨small, apart⟩ := start
  have plain := colon_not_mem_word small
  have present : word ≠ [] := by
    rintro rfl
    cases small
  have cut : splitAt (ch ':') (word ++ ch ':' :: rest) = word :: splitAt (ch ':') rest := by
    rw [splitAt_append, splitAt_absent plain]
    rfl
  have every : ∀ part ∈ word :: splitAt (ch ':') rest, isPlanePart part ∧ scannedValues.contains part = false := by
    intro part member
    have free : freePart part := by
      rcases List.mem_cons.mp member with rfl | inside
      · exact freePart_word small
      · exact parts part inside
    rw [freePart, Bool.and_eq_true, Bool.not_eq_true'] at free
    exact free
  constructor
  · rw [checkScalar_ok, cut]
    exact ⟨few, fun part member => (every part member).1⟩
  · obtain ⟨c, word, rfl⟩ := List.exists_cons_of_ne_nil present
    refine reservedHit_none.mpr ⟨?_, ?_, ?_⟩
    · intro reserved
      obtain ⟨ns, member, either⟩ := reserved
      have initial := (namespace_shape member).initial
      have start : ns.head? = some c := by
        cases either with
        | inl below =>
          obtain ⟨tail, same⟩ := below
          cases ns with
          | nil => simp at initial
          | cons d ns => rw [(List.cons.inj same).1]; rfl
        | inr same => rw [same]; rfl
      rw [start] at initial
      exact absurd (List.contains_iff_mem.mpr initial) (by simpa using apart)
    · intro member
      have capital := (scanned_shape member).capital (by simp)
      simp only [isWord, Bool.and_eq_true, List.all_eq_true, decide_eq_true_eq] at small
      have letter := (small.2 c List.mem_cons_self).1
      rw [Option.some.inj capital] at letter
      exact absurd letter (by decide)
    · rw [cut]
      intro part member
      rw [← List.contains_iff_mem, (every part member).2]
      exact Bool.false_ne_true

end JJDai
