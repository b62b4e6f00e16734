import JJDai.Kernel.WasmPure
import JJDai.Lib.Leb128

/-! The encoding of a module's imports, and what the reader of `kernel.wasm_pure` makes of a module. -/

namespace JJDai.WasmPure

open PyText Leb128

section

variable (P : Bytes → Nat → Prop)

def Name (bytes : Bytes) (text : Str) : Prop :=
  ∃ length body, bytes = length ++ body ∧ P length body.length ∧ decodeUtf8 body = some text

inductive Limits : Bytes → Prop where
  | least {low : Bytes} {n : Nat} (lowest : P low n) : Limits (0x00 :: low)
  | range {low high : Bytes} {n m : Nat} (lowest : P low n) (highest : P high m) : Limits (0x01 :: (low ++ high))

def referenceTypes : List UInt8 := [0x70, 0x6F]

def valueTypes : List UInt8 := [0x7F, 0x7E, 0x7D, 0x7C, 0x7B] ++ referenceTypes

inductive Descriptor : Bytes → Kind → Prop where
  | func {index : Bytes} {n : Nat} (written : P index n) : Descriptor (0x00 :: index) .func
  | table {elem : UInt8} {limits : Bytes} (reference : elem ∈ referenceTypes) (bounds : Limits P limits) :
      Descriptor (0x01 :: elem :: limits) .table
  | memory {limits : Bytes} (bounds : Limits P limits) : Descriptor (0x02 :: limits) .memory
  | global {value mutable : UInt8} (type : value ∈ valueTypes) (flag : mutable = 0 ∨ mutable = 1) :
      Descriptor [0x03, value, mutable] .global

def Entry (bytes : Bytes) (imp : Import) : Prop :=
  ∃ front nm descriptor, bytes = front ++ (nm ++ descriptor) ∧ Name P front imp.moduleName ∧ Name P nm imp.name ∧
    Descriptor P descriptor imp.kind

inductive Entries : Nat → Bytes → List Import → Prop where
  | nil : Entries 0 [] []
  | cons {count : Nat} {bytes later : Bytes} {imp : Import} {others : List Import} (first : Entry P bytes imp)
      (rest : Entries count later others) : Entries (count + 1) (bytes ++ later) (imp :: others)

/-- A count, that many entries, and what comes after them. -/
def Counted (payload : Bytes) (imports : List Import) (trailing : Bytes) : Prop :=
  ∃ count n written, payload = count ++ (written ++ trailing) ∧ P count n ∧ Entries P n written imports

end

structure Section where
  id : UInt8
  size : Bytes
  payload : Bytes

def Section.bytes (s : Section) : Bytes := s.id :: (s.size ++ s.payload)

def header : Bytes := wasmMagic ++ [0x01, 0x00, 0x00, 0x00]

/-- A section of the core encoding, and the imports it declares. -/
def Section.Declares (s : Section) (imports : List Import) : Prop :=
  U32 s.size s.payload.length ∧ if s.id.toNat = importSection then Counted U32 s.payload imports [] else imports = []

/-- A module of the core encoding, and the imports it declares. -/
def Core (b : Bytes) (imports : List Import) : Prop :=
  ∃ parts : List Section, ∃ declared : List (List Import), b = header ++ parts.flatMap Section.bytes ∧
    List.Forall₂ Section.Declares parts declared ∧ imports = declared.flatten

def Wide (bytes : Bytes) (n : Nat) : Prop := Leb bytes n ∧ bytes.length ≤ 10

/-- The count of an import section is zero and its encoding ends behind the section. -/
def Hollow (payload rest : Bytes) : Prop :=
  ∃ count more, payload ++ rest = count ++ more ∧ Wide count 0 ∧ payload.length < count.length

/-- A section the reader passes when `rest` comes behind it. -/
def Section.Passes (s : Section) (rest : Bytes) (imports : List Import) : Prop :=
  Wide s.size s.payload.length ∧
    if s.id.toNat = importSection then
      (∃ trailing, Counted Wide s.payload imports trailing) ∨ Hollow s.payload rest ∧ imports = []
    else imports = []

/-- The sections of a module that imports functions alone, as the reader takes them. -/
inductive Reads : List Section → List Import → Prop where
  | nil : Reads [] []
  | cons {s : Section} {parts : List Section} {imports others : List Import}
      (first : s.Passes (parts.flatMap Section.bytes) imports) (functions : ∀ imp ∈ imports, imp.kind = .func)
      (rest : Reads parts others) : Reads (s :: parts) (imports ++ others)

@[simp] theorem byteAt_front {front rest : Bytes} {byte : UInt8} :
    byteAt (front ++ byte :: rest) front.length = .ok byte.toNat := by
  simp [byteAt, pure, Except.pure]

theorem ulebLoop_iff {fuel shift result n next : Nat} {front tail : Bytes} (budget : fuel * 7 + shift = 70)
    (below : result < 2 ^ shift) :
    ulebLoop (front ++ tail) fuel result shift front.length = .ok (n, next) ↔
      ∃ bytes rest m, tail = bytes ++ rest ∧ Leb bytes m ∧ bytes.length ≤ fuel ∧ n = result + m * 2 ^ shift ∧
        next = (front ++ bytes).length := by
  induction fuel generalizing front tail result shift with
  | zero =>
    constructor
    · intro read
      cases read
    · rintro ⟨bytes, _, _, _, written, short, _⟩
      have := written.length_pos
      omega
  | succ fuel ih =>
    cases tail with
    | nil =>
      constructor
      · intro read
        simp [ulebLoop, fail, raise, bind, Except.bind] at read
      · rintro ⟨bytes, _, _, empty, written, _⟩
        obtain ⟨rfl, rfl⟩ := List.append_eq_nil_iff.mp empty.symm
        cases written
    | cons byte after =>
      have inside : ¬(front ++ byte :: after).length ≤ front.length := by simp
      have small : byte.toNat % 128 < 128 := Nat.mod_lt _ (by decide)
      simp only [ulebLoop, if_neg inside, byteAt_front, bind, Except.bind, pure, Except.pure, low_bits, top_bit,
        or_shift below]
      by_cases ends : byte.toNat < 128
      · simp only [if_pos ends, Nat.mod_eq_of_lt ends, Except.ok.injEq, Prod.mk.injEq]
        constructor
        · rintro ⟨rfl, rfl⟩
          exact ⟨[byte], after, _, rfl, .last ends, Nat.succ_le_succ (Nat.zero_le _), rfl, by simp⟩
        · rintro ⟨bytes, rest, m, same, written, _, rfl, rfl⟩
          obtain ⟨rfl, rfl, _⟩ := (Leb.last ends).unique written (x := after) (y := rest) same
          exact ⟨rfl, by simp⟩
      · have goes := Nat.le_of_not_lt ends
        have digit : byte.toNat % 128 = byte.toNat - 128 := by
          have := byte.toNat_lt
          omega
        simp only [if_neg ends, digit]
        by_cases wide : 63 < shift + 7
        · have spent : fuel = 0 := by omega
          simp only [if_pos wide, fail, raise]
          constructor
          · intro read
            cases read
          · rintro ⟨bytes, rest, m, same, written, short, _, _⟩
            cases written with
            | last closed =>
              obtain rfl := (List.cons.inj same).1
              omega
            | more _ later =>
              have := later.length_pos
              rw [List.length_cons] at short
              omega
        · have next_budget : fuel * 7 + (shift + 7) = 70 := by omega
          have next_below := or_shift_lt below (digit ▸ small)
          have step : front ++ byte :: after = (front ++ [byte]) ++ after := by simp
          have length : front.length + 1 = (front ++ [byte]).length := by simp
          simp only [if_neg wide]
          rw [step, length, ih next_budget next_below]
          constructor
          · rintro ⟨bytes, rest, m, rfl, written, short, rfl, rfl⟩
            refine ⟨byte :: bytes, rest, _, rfl, .more goes written, Nat.succ_le_succ short, ?_, by simp⟩
            ring
          · rintro ⟨bytes, rest, m, same, written, short, rfl, rfl⟩
            cases written with
            | last closed =>
              obtain rfl := (List.cons.inj same).1
              exact absurd closed ends
            | more _ later =>
              obtain ⟨rfl, rfl⟩ := List.cons.inj same
              exact ⟨_, rest, _, rfl, later, Nat.le_of_succ_le_succ short, by ring, by simp⟩

theorem uleb_iff {n next : Nat} {front tail : Bytes} :
    uleb (front ++ tail) front.length = .ok (n, next) ↔
      ∃ bytes rest, tail = bytes ++ rest ∧ Wide bytes n ∧ next = (front ++ bytes).length := by
  unfold uleb
  rw [ulebLoop_iff rfl (by decide)]
  constructor
  · rintro ⟨bytes, rest, m, same, written, short, rfl, rfl⟩
    rw [pow_zero, mul_one, zero_add]
    exact ⟨bytes, rest, same, ⟨written, short⟩, rfl⟩
  · rintro ⟨bytes, rest, same, ⟨written, short⟩, rfl⟩
    exact ⟨bytes, rest, n, same, written, short, by simp, rfl⟩

theorem uleb_front {n : Nat} {front bytes rest : Bytes} (written : Wide bytes n) :
    uleb (front ++ (bytes ++ rest)) front.length = .ok (n, (front ++ bytes).length) :=
  uleb_iff.mpr ⟨bytes, rest, rfl, written, rfl⟩

theorem name_front {text : Str} {front bytes rest : Bytes} (written : Name Wide bytes text) :
    name (front ++ (bytes ++ rest)) front.length = .ok (text, (front ++ bytes).length) := by
  obtain ⟨length, body, rfl, wide, decoded⟩ := written
  have whole : front ++ (length ++ body ++ rest) = front ++ length ++ (body ++ rest) := by simp
  have stop : (front ++ length).length + body.length = (front ++ length ++ body).length := by simp [Nat.add_assoc]
  have fits : ¬(front ++ length ++ (body ++ rest)).length < (front ++ length ++ body).length := by simp
  have text_bytes :
      ((front ++ length ++ (body ++ rest)).take (front ++ length ++ body).length).drop (front ++ length).length = body := by
    rw [← List.append_assoc, List.take_left, List.drop_left]
  have read : uleb (front ++ length ++ (body ++ rest)) front.length = .ok (body.length, (front ++ length).length) := by
    rw [List.append_assoc]
    exact uleb_front wide
  rw [whole, ← List.append_assoc front length body]
  simp only [name, read, bind, Except.bind, stop, if_neg fits, text_bytes, decoded, pure, Except.pure]

theorem name_sound {text : Str} {front tail : Bytes} {next : Nat}
    (read : name (front ++ tail) front.length = .ok (text, next)) :
    ∃ bytes rest, tail = bytes ++ rest ∧ Name Wide bytes text ∧ next = (front ++ bytes).length := by
  simp only [name, bind, Py.bind_ok] at read
  obtain ⟨⟨n, pos⟩, length_read, read⟩ := read
  obtain ⟨length, after, rfl, wide, rfl⟩ := uleb_iff.mp length_read
  obtain ⟨fits, read⟩ := Py.unless_ok.mp read
  have bound : n ≤ after.length := by
    simp only [List.length_append] at fits
    omega
  have text_bytes :
      ((front ++ (length ++ after)).take ((front ++ length).length + n)).drop (front ++ length).length = after.take n := by
    rw [← List.append_assoc, List.take_length_add_append, List.drop_left]
  rw [text_bytes] at read
  split at read
  · rename_i decoded
    obtain ⟨rfl, rfl⟩ := Prod.mk.inj (Except.ok.inj read)
    refine ⟨length ++ after.take n, after.drop n, by simp, ⟨length, after.take n, rfl, ?_, decoded⟩, ?_⟩
    · rwa [List.length_take, Nat.min_eq_left bound]
    · simp [Nat.min_eq_left bound, Nat.add_assoc]
  · cases read

theorem byteAt_sound {front tail : Bytes} {n : Nat} (read : byteAt (front ++ tail) front.length = .ok n) :
    ∃ byte rest, tail = byte :: rest ∧ n = byte.toNat := by
  cases tail with
  | nil => simp [byteAt, raise] at read
  | cons byte rest =>
    rw [byteAt_front] at read
    exact ⟨byte, rest, rfl, (Except.ok.inj read).symm⟩

theorem kinds_func {n : Nat} : kinds n = .func ↔ n = 0 := by
  unfold kinds
  split <;> simp_all

theorem skipDescriptor_func {front rest : Bytes} {stop next : Nat} :
    skipDescriptor (front ++ 0x00 :: rest) front.length stop = .ok next ↔
      ∃ index after n, rest = index ++ after ∧ Wide index n ∧ next = (front ++ 0x00 :: index).length ∧ next ≤ stop := by
  have inside : ¬(front ++ 0x00 :: rest).length ≤ front.length := by simp
  have whole : front ++ 0x00 :: rest = (front ++ [0x00]) ++ rest := by simp
  have behind : front.length + 1 = (front ++ [0x00]).length := by simp
  have zero : (0x00 : UInt8).toNat = 0 := rfl
  simp only [skipDescriptor, if_neg inside, byteAt_front, zero, skipPayload, bind, Py.bind_ok, ok_bind, pure,
    Except.pure]
  rw [whole, behind]
  constructor
  · rintro ⟨_, ⟨⟨n, pos⟩, read, same⟩, read'⟩
    obtain ⟨index, after, rfl, wide, rfl⟩ := uleb_iff.mp read
    obtain rfl := Except.ok.inj same
    obtain ⟨within, read'⟩ := Py.unless_ok.mp read'
    obtain rfl := Except.ok.inj read'
    exact ⟨index, after, n, rfl, wide, by simp, Nat.le_of_not_lt within⟩
  · rintro ⟨index, after, n, rfl, wide, rfl, within⟩
    refine ⟨_, ⟨_, uleb_front wide, rfl⟩, ?_⟩
    have same : front ++ 0x00 :: index = front ++ [0x00] ++ index := by simp
    rw [same] at within ⊢
    rw [if_neg (Nat.not_lt_of_le within)]

theorem entry_sound {front tail : Bytes} {stop next : Nat} {imp : Import}
    (read : entry (front ++ tail) stop front.length = .ok (imp, next)) (function : imp.kind = .func) :
    ∃ bytes rest, tail = bytes ++ rest ∧ Entry Wide bytes imp ∧ next = (front ++ bytes).length ∧ next ≤ stop := by
  simp only [entry, bind, Py.bind_ok] at read
  obtain ⟨⟨moduleName, _⟩, first, ⟨nm, _⟩, second, read⟩ := read
  obtain ⟨lead, after, rfl, named, rfl⟩ := name_sound first
  rw [← List.append_assoc] at second read
  obtain ⟨middle, after, rfl, named', rfl⟩ := name_sound second
  rw [← List.append_assoc] at read
  obtain ⟨_, read⟩ := Py.unless_ok.mp read
  simp only [Py.bind_ok] at read
  obtain ⟨kind, at_kind, next', skipped, same⟩ := read
  obtain ⟨byte, rest, rfl, rfl⟩ := byteAt_sound at_kind
  obtain ⟨rfl, rfl⟩ := Prod.mk.inj (Except.ok.inj same)
  obtain rfl : byte = 0x00 := UInt8.toNat_inj.mp (kinds_func.mp function)
  obtain ⟨index, after, n, rfl, wide, rfl, within⟩ := skipDescriptor_func.mp skipped
  refine ⟨lead ++ (middle ++ 0x00 :: index), after, by simp, ⟨lead, middle, _, rfl, named, named', .func wide⟩, ?_,
    within⟩
  simp

theorem entry_front {front bytes rest : Bytes} {stop : Nat} {imp : Import} (written : Entry Wide bytes imp)
    (function : imp.kind = .func) (within : (front ++ bytes).length ≤ stop) :
    entry (front ++ (bytes ++ rest)) stop front.length = .ok (imp, (front ++ bytes).length) := by
  obtain ⟨lead, middle, descriptor, rfl, named, named', described⟩ := written
  obtain ⟨moduleName, nm, kind⟩ := imp
  obtain rfl : kind = .func := function
  cases described with
  | @func index n wide =>
    have whole : front ++ (lead ++ (middle ++ 0x00 :: index) ++ rest) =
        front ++ (lead ++ (middle ++ 0x00 :: (index ++ rest))) := by simp
    have first := @name_front _ front lead (middle ++ 0x00 :: (index ++ rest)) named
    have second := @name_front _ (front ++ lead) middle (0x00 :: (index ++ rest)) named'
    have skipped := (@skipDescriptor_func (front ++ lead ++ middle) (index ++ rest) stop _).mpr
      ⟨index, rest, n, rfl, wide, rfl, by simpa using within⟩
    have inside : ¬stop ≤ (front ++ lead ++ middle).length := by
      simp only [List.length_append, List.length_cons] at within ⊢
      omega
    have at_kind := @byteAt_front (front ++ lead ++ middle) (index ++ rest) 0x00
    rw [whole]
    simp only [List.append_assoc] at first second skipped at_kind inside
    simp only [entry, first, bind, Except.bind, second, if_neg inside, at_kind, skipped, pure, Except.pure]
    rfl

theorem entries_sound {count stop : Nat} {front tail : Bytes} {imports : List Import}
    (read : entries (front ++ tail) stop count front.length = .ok imports)
    (functions : ∀ imp ∈ imports, imp.kind = .func) :
    ∃ bytes rest, tail = bytes ++ rest ∧ Entries Wide count bytes imports ∧
      (count = 0 ∨ (front ++ bytes).length ≤ stop) := by
  induction count generalizing front tail imports with
  | zero =>
    obtain rfl := Except.ok.inj read
    exact ⟨[], tail, rfl, .nil, .inl rfl⟩
  | succ count ih =>
    simp only [entries, bind, Py.bind_ok] at read
    obtain ⟨⟨imp, _⟩, first, others, later, same⟩ := read
    obtain rfl := Except.ok.inj same
    obtain ⟨bytes, after, rfl, written, rfl, within⟩ := entry_sound first (functions imp List.mem_cons_self)
    rw [← List.append_assoc] at later
    obtain ⟨bytes', rest, rfl, others_written, ends⟩ :=
      ih later (fun other member => functions other (List.mem_cons_of_mem _ member))
    refine ⟨bytes ++ bytes', rest, by simp, .cons written others_written, .inr ?_⟩
    rcases ends with rfl | ends
    · cases others_written
      simpa using within
    · simpa using ends

theorem entries_front {count stop : Nat} {front bytes rest : Bytes} {imports : List Import}
    (written : Entries Wide count bytes imports) (functions : ∀ imp ∈ imports, imp.kind = .func)
    (within : count = 0 ∨ (front ++ bytes).length ≤ stop) :
    entries (front ++ (bytes ++ rest)) stop count front.length = .ok imports := by
  induction written generalizing front with
  | nil => rfl
  | @cons count bytes later imp others first others_written ih =>
    have total := within.resolve_left (Nat.succ_ne_zero _)
    rw [← List.append_assoc, List.length_append] at total
    have whole : front ++ (bytes ++ later ++ rest) = front ++ bytes ++ (later ++ rest) := by simp
    have one : entry (front ++ bytes ++ (later ++ rest)) stop front.length = .ok (imp, (front ++ bytes).length) := by
      rw [List.append_assoc]
      exact entry_front first (functions imp List.mem_cons_self) (Nat.le_of_add_right_le total)
    have more := @ih (front ++ bytes) (fun other member => functions other (List.mem_cons_of_mem _ member))
      (.inr (by rwa [List.length_append]))
    rw [whole]
    simp only [entries, one, more, bind, Except.bind, pure, Except.pure]

/-- What the reader does with the payload of an import section. -/
def readPayload (data : Bytes) (stop pos : Nat) : Py (List Import) := do
  let (count, p) ← uleb data pos
  entries data stop count p

theorem readPayload_sound {front payload rest : Bytes} {imports : List Import}
    (read : readPayload (front ++ (payload ++ rest)) (front ++ payload).length front.length = .ok imports)
    (functions : ∀ imp ∈ imports, imp.kind = .func) :
    (∃ trailing, Counted Wide payload imports trailing) ∨ Hollow payload rest ∧ imports = [] := by
  simp only [readPayload, bind, Py.bind_ok] at read
  obtain ⟨⟨n, p⟩, counted, read⟩ := read
  obtain ⟨count, more, split, wide, rfl⟩ := uleb_iff.mp counted
  rw [split, ← List.append_assoc] at read
  obtain ⟨written, after, rfl, listed, ends⟩ := entries_sound read functions
  by_cases fits : (count ++ written).length ≤ payload.length
  · have lead : count ++ written <+: payload ++ rest := ⟨after, by rw [split, List.append_assoc]⟩
    obtain ⟨trailing, rfl⟩ := List.prefix_of_prefix_length_le lead (List.prefix_append payload rest) fits
    exact .inl ⟨trailing, count, n, written, List.append_assoc _ _ _, wide, listed⟩
  · rcases ends with rfl | ends
    · cases listed
      rw [List.append_nil] at fits
      exact .inr ⟨⟨count, _, split, wide, Nat.lt_of_not_le fits⟩, rfl⟩
    · simp only [List.length_append] at ends fits
      omega

theorem readPayload_front {front payload rest : Bytes} {imports : List Import}
    (functions : ∀ imp ∈ imports, imp.kind = .func)
    (passed : (∃ trailing, Counted Wide payload imports trailing) ∨ Hollow payload rest ∧ imports = []) :
    readPayload (front ++ (payload ++ rest)) (front ++ payload).length front.length = .ok imports := by
  rcases passed with ⟨trailing, count, n, written, rfl, wide, listed⟩ | ⟨⟨count, more, split, wide, _⟩, rfl⟩
  · have whole : front ++ (count ++ (written ++ trailing) ++ rest) = front ++ (count ++ (written ++ (trailing ++ rest))) := by
      simp
    have counted := @uleb_front n front count (written ++ (trailing ++ rest)) wide
    rw [whole]
    simp only [readPayload, counted, bind, Except.bind]
    rw [← List.append_assoc front count]
    refine entries_front listed functions (.inr ?_)
    simp only [List.length_append]
    omega
  · rw [split]
    simp only [readPayload, uleb_front wide, bind, Except.bind]
    rfl

theorem sections_cons {s : Section} {front rest : Bytes} {fuel : Nat} (wide : Wide s.size s.payload.length) :
    sections (front ++ (s.bytes ++ rest)) (fuel + 1) front.length =
      if s.id.toNat = importSection then
        (readPayload (front ++ (s.bytes ++ rest)) (front ++ s.bytes).length (front ++ s.id :: s.size).length).bind
          fun imports => (sections (front ++ (s.bytes ++ rest)) fuel (front ++ s.bytes).length).bind
            fun others => .ok (imports ++ others)
      else sections (front ++ (s.bytes ++ rest)) fuel (front ++ s.bytes).length := by
  obtain ⟨id, size, payload⟩ := s
  have whole : front ++ (Section.bytes ⟨id, size, payload⟩ ++ rest) = front ++ id :: (size ++ (payload ++ rest)) := by
    simp [Section.bytes]
  have inside : front.length < (front ++ id :: (size ++ (payload ++ rest))).length := by simp
  have sized : uleb (front ++ id :: (size ++ (payload ++ rest))) (front.length + 1) =
      .ok (payload.length, (front ++ id :: size).length) := by
    have read := @uleb_front _ (front ++ [id]) size (payload ++ rest) wide
    simpa using read
  have stop : (front ++ id :: size).length + payload.length = (front ++ Section.bytes ⟨id, size, payload⟩).length := by
    simp [Section.bytes, Nat.add_assoc]
    omega
  have fits : ¬(front ++ id :: (size ++ (payload ++ rest))).length < (front ++ Section.bytes ⟨id, size, payload⟩).length := by
    simp [Section.bytes]
  rw [whole]
  simp only [sections, if_pos inside, byteAt_front, sized, stop, if_neg fits, bind, ok_bind, pure, Except.pure,
    readPayload]
  split
  · rename_i two
    cases uleb (front ++ id :: (size ++ (payload ++ rest))) (front ++ id :: size).length with
    | error e => rfl
    | ok read => rfl
  · rfl

theorem sections_sound {fuel : Nat} {front tail : Bytes} {imports : List Import}
    (read : sections (front ++ tail) fuel front.length = .ok imports)
    (functions : ∀ imp ∈ imports, imp.kind = .func) :
    ∃ parts : List Section, tail = parts.flatMap Section.bytes ∧ Reads parts imports := by
  induction fuel generalizing front tail imports with
  | zero => cases read
  | succ fuel ih =>
    cases tail with
    | nil =>
      have outside : ¬front.length < (front ++ []).length := by simp
      simp only [sections, if_neg outside] at read
      obtain rfl := Except.ok.inj read
      exact ⟨[], rfl, .nil⟩
    | cons id after =>
      obtain ⟨s, rest, same, wide⟩ : ∃ (s : Section) (rest : Bytes), id :: after = s.bytes ++ rest ∧
          Wide s.size s.payload.length := by
        have inside : front.length < (front ++ id :: after).length := by simp
        have whole : front ++ id :: after = front ++ [id] ++ after := by simp
        have behind : front.length + 1 = (front ++ [id]).length := by simp
        simp only [sections, if_pos inside, byteAt_front, bind, ok_bind, Py.bind_ok] at read
        obtain ⟨⟨n, pos⟩, sized, read⟩ := read
        rw [whole, behind] at sized
        obtain ⟨size, more, rfl, wide, rfl⟩ := uleb_iff.mp sized
        obtain ⟨fits, _⟩ := Py.unless_ok.mp read
        have bound : n ≤ more.length := by
          simp only [List.length_append, List.length_cons, List.length_nil] at fits
          omega
        refine ⟨⟨id, size, more.take n⟩, more.drop n, by simp [Section.bytes], ?_⟩
        rwa [List.length_take, Nat.min_eq_left bound]
      rw [same, sections_cons wide] at read
      rw [same]
      have whole : front ++ (s.bytes ++ rest) = front ++ s.bytes ++ rest := (List.append_assoc _ _ _).symm
      split at read
      · rename_i two
        obtain ⟨found, payload_read, read⟩ := Py.bind_ok.mp read
        obtain ⟨others, later, same⟩ := Py.bind_ok.mp read
        obtain rfl := Except.ok.inj same
        rw [whole] at later
        obtain ⟨parts, rfl, reads⟩ := ih later (fun imp member => functions imp (List.mem_append_right _ member))
        have found_functions : ∀ imp ∈ found, imp.kind = .func :=
          fun imp member => functions imp (List.mem_append_left _ member)
        refine ⟨s :: parts, rfl, .cons ⟨wide, ?_⟩ found_functions reads⟩
        rw [if_pos two]
        refine @readPayload_sound (front ++ s.id :: s.size) _ _ _ ?_ found_functions
        simpa [Section.bytes] using payload_read
      · rename_i other
        rw [whole] at read
        obtain ⟨parts, rfl, reads⟩ := ih read functions
        refine ⟨s :: parts, rfl, ?_⟩
        have passes : s.Passes (parts.flatMap Section.bytes) [] := ⟨wide, by rw [if_neg other]⟩
        exact .cons passes (fun imp member => absurd member List.not_mem_nil) reads

theorem sections_front {fuel : Nat} {front : Bytes} {parts : List Section} {imports : List Import}
    (reads : Reads parts imports) (enough : (parts.flatMap Section.bytes).length < fuel) :
    sections (front ++ parts.flatMap Section.bytes) fuel front.length = .ok imports := by
  induction reads generalizing front fuel with
  | nil =>
    cases fuel with
    | zero => exact absurd enough (Nat.not_lt_zero _)
    | succ fuel => simp [sections, pure, Except.pure]
  | @cons s parts imports others first functions rest ih =>
    cases fuel with
    | zero => exact absurd enough (Nat.not_lt_zero _)
    | succ fuel =>
      obtain ⟨wide, payload⟩ := first
      rw [List.flatMap_cons] at enough ⊢
      have shorter : (parts.flatMap Section.bytes).length < fuel := by
        simp only [List.length_append, Section.bytes, List.length_cons] at enough
        omega
      have later := @ih fuel (front ++ s.bytes) shorter
      rw [List.append_assoc] at later
      rw [sections_cons wide, later]
      split
      · rename_i two
        rw [if_pos two] at payload
        have found := @readPayload_front (front ++ s.id :: s.size) _ _ _ functions payload
        have same : front ++ s.id :: s.size ++ s.payload = front ++ s.bytes := by simp [Section.bytes]
        rw [← List.append_assoc (front ++ s.id :: s.size), same, List.append_assoc] at found
        rw [found]
        rfl
      · rename_i other
        rw [if_neg other] at payload
        rw [payload, List.nil_append]

end JJDai.WasmPure
