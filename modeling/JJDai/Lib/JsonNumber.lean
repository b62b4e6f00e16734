import JJDai.Lib.JsonText

/-! Numbers written by `dumps` are read back by `loads`. -/

namespace PyText

theorem isDigit_ofChar (c : Char) : isDigit (ch c) = c.isDigit := by
  rw [Bool.eq_iff_iff]
  simp only [isDigit, CodePoint.val_ofChar, Bool.and_eq_true, decide_eq_true_iff, Char.isDigit,
    Char.toNat, UInt32.le_iff_toNat_le, ge_iff_le]
  simp

theorem isDigit_natText (n : Nat) : ∀ c ∈ natText n, isDigit c := by
  intro c member
  obtain ⟨d, present, rfl⟩ := List.mem_map.mp member
  rw [isDigit_ofChar]
  exact Nat.isDigit_of_mem_toDigits (by omega) (by omega) present

theorem natText_ne_nil (n : Nat) : natText n ≠ [] := by
  simp [natText, Nat.toDigits_ne_nil]

theorem digitsValue_natText (n : Nat) : digitsValue (natText n) = n := by
  have read := @Nat.ofDigitChars_ten_toDigits n
  rw [Nat.ofDigitChars_eq_foldl] at read
  simpa [digitsValue, natText, List.foldl_map, CodePoint.val_ofChar] using read

private theorem foldl_digits (digits : Str) (start : Nat) :
    digits.foldl (fun n c => 10 * n + (c.val - 48)) start =
      start * 10 ^ digits.length + digitsValue digits := by
  induction digits generalizing start with
  | nil => simp [digitsValue]
  | cons c rest ih =>
    simp only [digitsValue, List.foldl_cons, List.length_cons] at ih ⊢
    rw [ih (10 * start + _), ih (10 * 0 + _)]
    ring

theorem digitsValue_append (a b : Str) :
    digitsValue (a ++ b) = digitsValue a * 10 ^ b.length + digitsValue b := by
  rw [digitsValue, List.foldl_append, foldl_digits]
  rfl

theorem digitsValue_zeros (n : Nat) : digitsValue (zeros n) = 0 := by
  induction n with
  | zero => rfl
  | succ n ih =>
    rw [zeros, List.replicate_succ', digitsValue_append, ← zeros, ih]
    decide

theorem isDigit_zeros (n : Nat) : ∀ c ∈ zeros n, isDigit c := by
  intro c member
  rw [List.eq_of_mem_replicate member]
  decide

private theorem toDigits_leading {n : Nat} (leading : (Nat.toDigits 10 n).head? = some '0') :
    n = 0 := by
  induction n using Nat.strong_induction_on with
  | _ n ih =>
    rw [Nat.toDigits_eq_if (by omega)] at leading
    split at leading
    · rename_i small
      have all : ∀ n < 10, [Nat.digitChar n].head? = some '0' → n = 0 := by decide
      exact all n small leading
    · rename_i large
      have front : (Nat.toDigits 10 (n / 10)).head? = some '0' := by
        rwa [List.head?_append_of_ne_nil _ Nat.toDigits_ne_nil] at leading
      have := ih (n / 10) (by omega) front
      omega

theorem natText_leading {n : Nat} (leading : (natText n).head? = some (ch '0')) : n = 0 := by
  rw [natText, List.head?_map] at leading
  obtain ⟨c, first, same⟩ := Option.map_eq_some_iff.mp leading
  obtain rfl := CodePoint.ofChar_inj.mp same
  exact toDigits_leading first

theorem isNumberChar_of_isDigit {c : CodePoint} (digit : isDigit c) : isNumberChar c := by
  simp [isNumberChar, digit]

private theorem takeWhile_digits {digits rest : Str} (all : ∀ c ∈ digits, isDigit c)
    (stop : ∀ c ∈ rest.head?, isDigit c = false) :
    (digits ++ rest).takeWhile isDigit = digits ∧ (digits ++ rest).dropWhile isDigit = rest := by
  rw [List.takeWhile_append_of_pos all, List.dropWhile_append_of_pos all]
  cases rest with
  | nil => simp
  | cons c rest => simp [stop c rfl]

private theorem head_signed {negative : Bool} {body : Str} (first : ∀ c ∈ body.head?, isDigit c) :
    (decide ((signed negative body).head? = some (ch '-')) = negative) ∧
      (if negative then (signed negative body).tail else signed negative body) = body := by
  have minus : isDigit (ch '-') = false := by decide
  cases negative with
  | true => simp [signed]
  | false =>
    refine ⟨?_, by simp [signed]⟩
    simp only [signed, Bool.false_eq_true, if_false, decide_eq_false_iff_not]
    intro same
    simpa [minus] using first _ same

section Parts

variable {negative : Bool} {whole tail : Str}

private theorem head_parts (some_left : whole ≠ []) (wholeDigits : ∀ c ∈ whole, isDigit c) :
    ∀ c ∈ (whole ++ tail).head?, isDigit c := by
  intro c first
  rw [List.head?_append_of_ne_nil _ some_left] at first
  exact wholeDigits c (List.mem_of_mem_head? first)

theorem parseNumber_int (some_left : whole ≠ []) (wholeDigits : ∀ c ∈ whole, isDigit c)
    (plain : whole.head? = some (ch '0') → whole = [ch '0']) :
    parseNumber (signed negative whole) =
      some (.int (if negative then -(digitsValue whole : Int) else digitsValue whole)) := by
  have first := @head_parts whole [] some_left wholeDigits
  rw [List.append_nil] at first
  obtain ⟨sign, body⟩ := @head_signed negative _ first
  obtain ⟨front, back⟩ := @takeWhile_digits whole [] wholeDigits (by simp)
  rw [List.append_nil] at front back
  simp only [parseNumber, sign, body, front, back]
  rw [if_neg (by tauto), if_pos trivial]

theorem parseNumber_float {fraction rest : Str} {e : Int} (some_left : whole ≠ [])
    (wholeDigits : ∀ c ∈ whole, isDigit c)
    (plain : whole.head? = some (ch '0') → whole = [ch '0']) (more : tail ≠ [])
    (stop : ∀ c ∈ tail.head?, isDigit c = false)
    (fractionRead : takeFraction tail = some (fraction, rest))
    (exponentRead : takeExponent rest = some e) :
    parseNumber (signed negative (whole ++ tail)) =
      some (.float (.finite (Decimal.ofDigits negative (digitsValue (whole ++ fraction))
        (e - fraction.length)))) := by
  obtain ⟨sign, body⟩ :=
    @head_signed negative _ (@head_parts whole tail some_left wholeDigits)
  obtain ⟨front, back⟩ := takeWhile_digits wholeDigits stop
  simp only [parseNumber, sign, body, front, back]
  rw [if_neg (by tauto), if_neg more]
  simp [fractionRead, exponentRead]

end Parts

theorem natText_plain (n : Nat) : (natText n).head? = some (ch '0') → natText n = [ch '0'] := by
  intro leading
  rw [natText_leading leading]
  decide

theorem intText_eq_signed (n : Int) : intText n = signed (decide (n < 0)) (natText n.natAbs) := by
  by_cases negative : n < 0 <;> simp [intText, signed, negative]

theorem parseNumber_intText (n : Int) : parseNumber (intText n) = some (.int n) := by
  rw [intText_eq_signed, parseNumber_int (natText_ne_nil _) (isDigit_natText _) (natText_plain _),
    digitsValue_natText]
  congr 2
  by_cases negative : n < 0
  · simp only [negative, decide_true, if_true]; omega
  · simp only [negative, decide_false, Bool.false_eq_true, if_false]; omega

private theorem takeFraction_dot {digits rest : Str} (some_left : digits ≠ [])
    (all : ∀ c ∈ digits, isDigit c) (stop : ∀ c ∈ rest.head?, isDigit c = false) :
    takeFraction (ch '.' :: (digits ++ rest)) = some (digits, rest) := by
  obtain ⟨front, back⟩ := takeWhile_digits all stop
  simp [takeFraction, front, back, some_left]

private theorem takeExponent_text (e : Int) : takeExponent (ch 'e' :: exponentText e) = some e := by
  have value : digitsValue ((if e.natAbs < 10 then zeros 1 else []) ++ natText e.natAbs) =
      e.natAbs := by
    rw [digitsValue_append, digitsValue_natText]
    split
    · rw [digitsValue_zeros]; simp
    · simp [digitsValue]
  have all : ∀ c ∈ (if e.natAbs < 10 then zeros 1 else []) ++ natText e.natAbs, isDigit c := by
    intro c member
    rcases List.mem_append.mp member with pad | digit
    · split at pad
      · exact isDigit_zeros 1 c pad
      · cases pad
    · exact isDigit_natText _ c digit
  have some_left : (if e.natAbs < 10 then zeros 1 else []) ++ natText e.natAbs ≠ [] := by
    simp [natText_ne_nil]
  have allBool : ((if e.natAbs < 10 then zeros 1 else []) ++ natText e.natAbs).all isDigit :=
    List.all_eq_true.mpr all
  by_cases negative : e < 0
  · simp only [takeExponent, exponentText, negative, if_true, true_or, List.cons_append,
      List.head?_cons, List.tail_cons]
    rw [if_pos ⟨some_left, allBool⟩, value]
    simp only [Option.some.injEq]; omega
  · have sign : ch '+' ≠ ch '-' := by decide
    simp only [takeExponent, exponentText, negative, if_false, true_or, if_true, List.cons_append,
      List.head?_cons, List.tail_cons, Option.some.injEq, sign, or_true]
    rw [if_pos ⟨some_left, allBool⟩, value]
    simp only [Option.some.injEq]; omega

section Layouts

variable (d : Decimal)

private theorem digits_nonzero (small : d.exponent < 0) : d.digits ≠ 0 := by
  rcases d.reduced with last | both
  · intro same; simp [same] at last
  · omega

private theorem length_digits_pos : 0 < (natText d.digits).length :=
  List.length_pos_iff.mpr (natText_ne_nil _)

private theorem parse_layout {whole fraction tail rest : Str} {e : Int} (pad : Nat)
    (some_left : whole ≠ []) (wholeDigits : ∀ c ∈ whole, isDigit c)
    (plain : whole.head? = some (ch '0') → whole = [ch '0'])
    (more : tail ≠ []) (stop : ∀ c ∈ tail.head?, isDigit c = false)
    (fractionRead : takeFraction tail = some (fraction, rest))
    (exponentRead : takeExponent rest = some e)
    (value : digitsValue (whole ++ fraction) = d.digits * 10 ^ pad)
    (exponent : e - fraction.length = d.exponent - pad) :
    parseNumber (signed d.negative (whole ++ tail)) = some (.float (.finite d)) := by
  rw [parseNumber_float some_left wholeDigits plain more stop fractionRead exponentRead, value,
    exponent, Decimal.ofDigits_scale]

private theorem not_digit_dot : isDigit (ch '.') = false := by decide

private theorem not_digit_e : isDigit (ch 'e') = false := by decide

private theorem parse_small (low : (natText d.digits).length + d.exponent ≤ 0) :
    parseNumber (signed d.negative ([ch '0'] ++
      ch '.' :: (zeros ((natText d.digits).length + d.exponent).natAbs ++ natText d.digits))) =
      some (.float (.finite d)) := by
  have digits : ∀ c ∈ zeros ((natText d.digits).length + d.exponent).natAbs ++ natText d.digits,
      isDigit c := by
    intro c member
    rcases List.mem_append.mp member with pad | digit
    · exact isDigit_zeros _ c pad
    · exact isDigit_natText _ c digit
  have zero : isDigit (ch '0') := by decide
  have lead : digitsValue [ch '0'] = 0 := by decide
  have fraction := @takeFraction_dot _ [] (by simp [natText_ne_nil]) digits (by simp)
  rw [List.append_nil] at fraction
  refine parse_layout d 0 (by simp) (by simpa using zero) (by simp) (by simp)
    (by simp [not_digit_dot]) fraction rfl ?_ ?_
  · rw [digitsValue_append, digitsValue_append, lead, digitsValue_zeros, digitsValue_natText]
    ring
  · simp only [List.length_append, zeros, List.length_replicate]
    omega

private theorem parse_inside (low : 0 < (natText d.digits).length + d.exponent)
    (small : d.exponent < 0) :
    parseNumber (signed d.negative
      ((natText d.digits).take ((natText d.digits).length + d.exponent).toNat ++
        ch '.' :: (natText d.digits).drop ((natText d.digits).length + d.exponent).toNat)) =
      some (.float (.finite d)) := by
  have digits := isDigit_natText d.digits
  have fraction := @takeFraction_dot
    ((natText d.digits).drop ((natText d.digits).length + d.exponent).toNat) []
    (by rw [Ne, List.drop_eq_nil_iff]; omega) (fun c member => digits c (List.mem_of_mem_drop member))
    (by simp)
  rw [List.append_nil] at fraction
  refine parse_layout d 0 ?_ (fun c member => digits c (List.mem_of_mem_take member)) ?_ (by simp)
    (by simp [not_digit_dot]) fraction rfl ?_ ?_
  · rw [Ne, List.take_eq_nil_iff]
    rintro (none_taken | none_left)
    · omega
    · exact natText_ne_nil _ none_left
  · intro leading
    rw [List.head?_take, if_neg (by omega)] at leading
    exact (digits_nonzero d small (natText_leading leading)).elim
  · rw [List.take_append_drop, digitsValue_natText]; ring
  · rw [List.length_drop]; omega

private theorem parse_whole (large : 0 ≤ d.exponent) :
    parseNumber (signed d.negative
      ((natText d.digits ++ zeros d.exponent.toNat) ++ [ch '.', ch '0'])) =
      some (.float (.finite d)) := by
  have zero : isDigit (ch '0') := by decide
  have lead : digitsValue [ch '0'] = 0 := by decide
  have fraction := @takeFraction_dot [ch '0'] [] (by simp)
    (by simpa using zero) (by simp)
  refine parse_layout d (d.exponent.toNat + 1) (by simp [natText_ne_nil]) ?_ ?_ (by simp)
    (by simp [not_digit_dot]) fraction rfl ?_ ?_
  · intro c member
    rcases List.mem_append.mp member with digit | pad
    · exact isDigit_natText _ c digit
    · exact isDigit_zeros _ c pad
  · intro leading
    rw [List.head?_append_of_ne_nil _ (natText_ne_nil _)] at leading
    have none_left := natText_leading leading
    have exponent : d.exponent = 0 := by
      rcases d.reduced with last | both
      · simp [none_left] at last
      · exact both.2
    rw [none_left, exponent]
    decide
  · rw [digitsValue_append, digitsValue_append, lead, digitsValue_zeros, digitsValue_natText]
    simp only [List.length_singleton, zeros, List.length_replicate]
    ring
  · simp only [List.length_singleton]; push_cast; omega

private theorem parse_scientific :
    parseNumber (signed d.negative ((natText d.digits).take 1 ++
      ((if 1 < (natText d.digits).length then ch '.' :: (natText d.digits).drop 1 else []) ++
        ch 'e' :: exponentText ((natText d.digits).length + d.exponent - 1)))) =
      some (.float (.finite d)) := by
  have digits := isDigit_natText d.digits
  have positive := length_digits_pos d
  have fraction : takeFraction
      ((if 1 < (natText d.digits).length then ch '.' :: (natText d.digits).drop 1 else []) ++
        ch 'e' :: exponentText ((natText d.digits).length + d.exponent - 1)) =
      some ((natText d.digits).drop 1,
        ch 'e' :: exponentText ((natText d.digits).length + d.exponent - 1)) := by
    split
    · rename_i several
      exact takeFraction_dot (by rw [Ne, List.drop_eq_nil_iff]; omega)
        (fun c member => digits c (List.mem_of_mem_drop member)) (by simp [not_digit_e])
    · rename_i single
      have other : ch 'e' ≠ ch '.' := by decide
      have empty : (natText d.digits).drop 1 = [] := List.drop_eq_nil_iff.mpr (by omega)
      simp [takeFraction, other, empty]
  refine parse_layout d 0 ?_ (fun c member => digits c (List.mem_of_mem_take member)) ?_ (by simp)
    ?_ fraction (takeExponent_text _) ?_ ?_
  · intro empty
    rw [List.take_eq_nil_iff] at empty
    rcases empty with absurd | empty
    · omega
    · exact natText_ne_nil _ empty
  · intro leading
    match shape : natText d.digits with
    | [] => simp [shape] at positive
    | c :: rest => simpa [shape] using leading
  · split <;> simp [not_digit_dot, not_digit_e]
  · rw [List.take_append_drop, digitsValue_natText]; ring
  · rw [List.length_drop]; omega

theorem parseNumber_decimal : parseNumber d.text = some (.float (.finite d)) := by
  rw [Decimal.text, Decimal.body]
  split
  · split
    · rename_i low; exact parse_small d low
    · rename_i high
      split
      · rename_i small; exact parse_inside d (by omega) small
      · rename_i large; exact parse_whole d (by omega)
  · exact parse_scientific d

end Layouts

private theorem isNumberChar_natText (n : Nat) : ∀ c ∈ natText n, isNumberChar c :=
  fun c member => isNumberChar_of_isDigit (isDigit_natText n c member)

private theorem isNumberChar_zeros (n : Nat) : ∀ c ∈ zeros n, isNumberChar c :=
  fun c member => isNumberChar_of_isDigit (isDigit_zeros n c member)

theorem isNumberChar_signed {negative : Bool} {body : Str}
    (inside : ∀ c ∈ body, isNumberChar c) : ∀ c ∈ signed negative body, isNumberChar c := by
  have minus : isNumberChar (ch '-') := by decide
  cases negative with
  | true => simpa [signed, minus] using inside
  | false => simpa [signed] using inside

theorem isNumberChar_intText (n : Int) : ∀ c ∈ intText n, isNumberChar c := by
  rw [intText_eq_signed]
  exact isNumberChar_signed (isNumberChar_natText _)

private theorem isNumberChar_exponentText (e : Int) : ∀ c ∈ exponentText e, isNumberChar c := by
  have plus : isNumberChar (ch '+') := by decide
  have minus : isNumberChar (ch '-') := by decide
  intro c member
  simp only [exponentText, List.cons_append, List.mem_cons, List.mem_append] at member
  rcases member with rfl | pad | digit
  · split <;> assumption
  · split at pad
    · exact isNumberChar_zeros 1 c pad
    · cases pad
  · exact isNumberChar_natText _ c digit

theorem isNumberChar_decimal (d : Decimal) : ∀ c ∈ d.text, isNumberChar c := by
  have dot : isNumberChar (ch '.') := by decide
  have letter : isNumberChar (ch 'e') := by decide
  have zero : isNumberChar (ch '0') := by decide
  have digits := isNumberChar_natText d.digits
  apply isNumberChar_signed
  intro c member
  rw [Decimal.body] at member
  split at member
  · split at member
    · simp only [List.cons_append, List.nil_append, List.mem_cons, List.mem_append] at member
      rcases member with rfl | rfl | pad | digit
      · exact zero
      · exact dot
      · exact isNumberChar_zeros _ c pad
      · exact digits c digit
    · split at member
      · simp only [List.mem_cons, List.mem_append] at member
        rcases member with front | rfl | back
        · exact digits c (List.mem_of_mem_take front)
        · exact dot
        · exact digits c (List.mem_of_mem_drop back)
      · simp only [List.mem_cons, List.mem_append, List.not_mem_nil, or_false] at member
        rcases member with (digit | pad) | rfl | rfl
        · exact digits c digit
        · exact isNumberChar_zeros _ c pad
        · exact dot
        · exact zero
  · simp only [List.mem_cons, List.mem_append] at member
    rcases member with front | back | rfl | exponent
    · exact digits c (List.mem_of_mem_take front)
    · split at back
      · rcases List.mem_cons.mp back with rfl | digit
        · exact dot
        · exact digits c (List.mem_of_mem_drop digit)
      · cases back
    · exact letter
    · exact isNumberChar_exponentText _ c exponent

theorem scanNumber_append {token rest : Str} {value : Json}
    (inside : ∀ c ∈ token, isNumberChar c) (stop : ∀ c ∈ rest.head?, isNumberChar c = false)
    (read : parseNumber token = some value) : scanNumber (token ++ rest) = some (value, rest) := by
  rw [scanNumber, List.takeWhile_append_of_pos inside, List.dropWhile_append_of_pos inside]
  cases rest with
  | nil => simp [read]
  | cons c rest => simp [stop c rfl, read]

theorem scanAtom_number {token rest : Str} {value : Json} (some_left : token ≠ [])
    (inside : ∀ c ∈ token, isNumberChar c) (stop : ∀ c ∈ rest.head?, isNumberChar c = false)
    (read : parseNumber token = some value) : scanAtom (token ++ rest) = some (value, rest) := by
  have whole := scanNumber_append inside stop read
  match token, some_left with
  | c :: token, _ =>
    have number := inside c (List.mem_cons_self ..)
    have no_n : c ≠ ch 'n' := by rintro rfl; revert number; decide
    have no_t : c ≠ ch 't' := by rintro rfl; revert number; decide
    have no_f : c ≠ ch 'f' := by rintro rfl; revert number; decide
    have no_N : c ≠ ch 'N' := by rintro rfl; revert number; decide
    have no_I : c ≠ ch 'I' := by rintro rfl; revert number; decide
    have no_minus : ¬(c = ch '-' ∧ (token ++ rest).head? = some (ch 'I')) := by
      rintro ⟨rfl, second⟩
      cases token with
      | nil => exact absurd read (by rw [show parseNumber [ch '-'] = none by decide]; simp)
      | cons d token =>
        have number := inside d (by simp)
        obtain rfl : d = ch 'I' := by simpa using second
        revert number; decide
    rw [List.cons_append] at whole ⊢
    simp only [scanAtom, no_n, no_t, no_f, no_N, no_I, no_minus, if_false, whole]

end PyText
