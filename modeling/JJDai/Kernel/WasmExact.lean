import JJDai.Kernel.WasmGrammar

/-! When the import check of `kernel.wasm_pure` passes what the core encoding says, and nothing else. -/

namespace JJDai.WasmPure

open PyText Leb128

/-- The imports are what the module declares and the allowlist names; nothing else comes back, and a
refusal is the boundary's own. -/
structure Exact (b : Bytes) : Prop where
  sound : ∀ imports, checkPureImports b = .ok imports →
    Core b imports ∧ ∀ imp ∈ imports, (imp.moduleName, imp.name) ∈ pureImportAllowlist ∧ imp.kind = .func
  complete : ∀ imports, Core b imports →
    (∀ imp ∈ imports, (imp.moduleName, imp.name) ∈ pureImportAllowlist ∧ imp.kind = .func) →
      checkPureImports b = .ok imports
  closed : ∀ e, checkPureImports b = .error e → ∃ code text, e = ⟨.pureBoundaryError code, text⟩

/-- What the reader passes in a section although the core encoding has no such section: an integer of
more than five bytes or more than 32 bits, bytes behind the counted entries, or a zero count whose
encoding ends behind the section. -/
inductive Slack (s : Section) (rest : Bytes) (imports : List Import) : Prop where
  | size (wide : ¬U32 s.size s.payload.length)
  | integer {trailing : Bytes} (importing : s.id.toNat = importSection) (passed : Counted Wide s.payload imports trailing)
      (wide : ¬Counted U32 s.payload imports trailing)
  | trailing {trailing : Bytes} (importing : s.id.toNat = importSection) (passed : Counted Wide s.payload imports trailing)
      (more : trailing ≠ [])
  | hollow (importing : s.id.toNat = importSection) (empty : Hollow s.payload rest)

/-- The reader passes the sections, and one of them for slack. -/
inductive Loose : List Section → List Import → Prop where
  | here {s : Section} {parts : List Section} {imports others : List Import}
      (first : s.Passes (parts.flatMap Section.bytes) imports) (functions : ∀ imp ∈ imports, imp.kind = .func)
      (slack : Slack s (parts.flatMap Section.bytes) imports) (rest : Reads parts others) :
      Loose (s :: parts) (imports ++ others)
  | later {s : Section} {parts : List Section} {imports others : List Import}
      (first : s.Passes (parts.flatMap Section.bytes) imports) (functions : ∀ imp ∈ imports, imp.kind = .func)
      (rest : Loose parts others) : Loose (s :: parts) (imports ++ others)

theorem wide_of_u32 {bytes : Bytes} {n : Nat} (written : U32 bytes n) : Wide bytes n :=
  ⟨written.1, Nat.le_trans written.2.1 (by decide)⟩

section

variable {P Q : Bytes → Nat → Prop}

theorem Name.imp {bytes : Bytes} {text : Str} (weaker : ∀ b n, P b n → Q b n) (named : Name P bytes text) :
    Name Q bytes text := by
  obtain ⟨length, body, same, written, decoded⟩ := named
  exact ⟨length, body, same, weaker _ _ written, decoded⟩

theorem Entry.imp {bytes : Bytes} {imp : Import} (weaker : ∀ b n, P b n → Q b n) (function : imp.kind = .func)
    (written : Entry P bytes imp) : Entry Q bytes imp := by
  obtain ⟨front, nm, descriptor, same, named, named', described⟩ := written
  refine ⟨front, nm, descriptor, same, named.imp weaker, named'.imp weaker, ?_⟩
  rw [function] at described ⊢
  cases described with
  | func index => exact .func (weaker _ _ index)

theorem Entries.imp {count : Nat} {bytes : Bytes} {imports : List Import} (weaker : ∀ b n, P b n → Q b n)
    (functions : ∀ imp ∈ imports, imp.kind = .func) (written : Entries P count bytes imports) :
    Entries Q count bytes imports := by
  induction written with
  | nil => exact .nil
  | cons first rest ih =>
    refine .cons (first.imp weaker (functions _ List.mem_cons_self)) (ih ?_)
    exact fun imp member => functions imp (List.mem_cons_of_mem _ member)

variable (left : ∀ b n, P b n → Leb b n) (right : ∀ b n, Q b n → Leb b n)

include left right

theorem Name.unique {a b x y : Bytes} {s t : Str} (one : Name P a s) (two : Name Q b t) (same : a ++ x = b ++ y) :
    a = b ∧ s = t ∧ x = y := by
  obtain ⟨length, body, rfl, written, decoded⟩ := one
  obtain ⟨length', body', rfl, written', decoded'⟩ := two
  rw [List.append_assoc, List.append_assoc] at same
  obtain ⟨rfl, sized, same⟩ := (left _ _ written).unique (right _ _ written') same
  obtain ⟨rfl, rfl⟩ := List.append_inj same sized
  rw [decoded] at decoded'
  exact ⟨rfl, Option.some.inj decoded', rfl⟩

theorem Entry.unique {a b x y : Bytes} {imp imp' : Import} (function : imp.kind = .func) (one : Entry P a imp)
    (two : Entry Q b imp') (same : a ++ x = b ++ y) : a = b ∧ imp = imp' ∧ x = y := by
  obtain ⟨front, nm, descriptor, rfl, named, named', described⟩ := one
  obtain ⟨front', nm', descriptor', rfl, second, second', described'⟩ := two
  obtain ⟨moduleName, name, kind⟩ := imp
  obtain ⟨moduleName', name', kind'⟩ := imp'
  obtain rfl : kind = .func := function
  simp only [List.append_assoc] at same
  obtain ⟨rfl, rfl, same⟩ := named.unique left right second same
  obtain ⟨rfl, rfl, same⟩ := named'.unique left right second' same
  cases described with
  | func index =>
    -- The kind byte tells the descriptors apart.
    cases described' with
    | func index' =>
      obtain ⟨rfl, _, rfl⟩ := (left _ _ index).unique (right _ _ index') (List.cons.inj same).2
      exact ⟨rfl, rfl, rfl⟩
    | table => exact absurd (List.cons.inj same).1 (by decide)
    | memory => exact absurd (List.cons.inj same).1 (by decide)
    | global => exact absurd (List.cons.inj same).1 (by decide)

theorem Entries.unique {count : Nat} {a b x y : Bytes} {imports imports' : List Import}
    (functions : ∀ imp ∈ imports, imp.kind = .func) (one : Entries P count a imports)
    (two : Entries Q count b imports') (same : a ++ x = b ++ y) : a = b ∧ imports = imports' ∧ x = y := by
  induction one generalizing b imports' with
  | nil =>
    cases two
    exact ⟨rfl, rfl, same⟩
  | cons first rest ih =>
    cases two with
    | cons first' rest' =>
      rw [List.append_assoc, List.append_assoc] at same
      obtain ⟨rfl, rfl, same⟩ := first.unique left right (functions _ List.mem_cons_self) first' same
      obtain ⟨rfl, rfl, rfl⟩ := ih (fun imp member => functions imp (List.mem_cons_of_mem _ member)) rest' same
      exact ⟨rfl, rfl, rfl⟩

theorem Counted.unique {payload x y : Bytes} {imports imports' : List Import}
    (functions : ∀ imp ∈ imports, imp.kind = .func) (one : Counted P payload imports x)
    (two : Counted Q payload imports' y) : imports = imports' ∧ x = y := by
  obtain ⟨count, n, written, rfl, counted, listed⟩ := one
  obtain ⟨count', n', written', same, counted', listed'⟩ := two
  obtain ⟨rfl, rfl, same⟩ := (left _ _ counted).unique (right _ _ counted') same
  obtain ⟨_, found, rest⟩ := listed.unique left right functions listed' same
  exact ⟨found, rest⟩

end

theorem tile_unique {parts parts' : List Section} (sized : ∀ s ∈ parts, Leb s.size s.payload.length)
    (sized' : ∀ s ∈ parts', Leb s.size s.payload.length)
    (same : parts.flatMap Section.bytes = parts'.flatMap Section.bytes) : parts = parts' := by
  induction parts generalizing parts' with
  | nil =>
    cases parts' with
    | nil => rfl
    | cons s rest => cases same
  | cons s rest ih =>
    cases parts' with
    | nil => cases same
    | cons s' rest' =>
      obtain ⟨id, size, payload⟩ := s
      obtain ⟨id', size', payload'⟩ := s'
      simp only [List.flatMap_cons, Section.bytes, List.cons_append, List.append_assoc] at same
      obtain ⟨rfl, behind⟩ := List.cons.inj same
      obtain ⟨rfl, long, tail⟩ := (sized _ List.mem_cons_self).unique (sized' _ List.mem_cons_self) behind
      obtain ⟨rfl, others⟩ := List.append_inj tail long
      rw [ih (fun s member => sized s (List.mem_cons_of_mem _ member))
        (fun s member => sized' s (List.mem_cons_of_mem _ member)) others]

variable {s : Section} {parts : List Section} {rest : Bytes} {imports declared : List Import}

theorem Section.Declares.passes (encoded : s.Declares imports) (functions : ∀ imp ∈ imports, imp.kind = .func) :
    s.Passes rest imports := by
  obtain ⟨sized, payload⟩ := encoded
  refine ⟨wide_of_u32 sized, ?_⟩
  split at payload
  · rename_i importing
    rw [if_pos importing]
    obtain ⟨count, n, written, same, counted, listed⟩ := payload
    exact .inl ⟨[], count, n, written, same, wide_of_u32 counted, listed.imp (fun _ _ => wide_of_u32) functions⟩
  · rename_i other
    rw [if_neg other]
    exact payload

theorem Slack.not_declares (slack : Slack s rest imports) (functions : ∀ imp ∈ imports, imp.kind = .func) :
    ¬s.Declares declared := by
  rintro ⟨sized, payload⟩
  cases slack with
  | size wide => exact wide sized
  | integer importing passed wide =>
    rw [if_pos importing] at payload
    obtain ⟨rfl, rfl⟩ := passed.unique (fun _ _ => And.left) (fun _ _ => And.left) functions payload
    exact wide payload
  | trailing importing passed more =>
    rw [if_pos importing] at payload
    exact more (passed.unique (fun _ _ => And.left) (fun _ _ => And.left) functions payload).2
  | hollow importing empty =>
    rw [if_pos importing] at payload
    obtain ⟨count, n, written, whole, counted, _⟩ := payload
    obtain ⟨count', more, split, counted', behind⟩ := empty
    rw [whole, List.append_assoc] at split
    obtain ⟨rfl, _⟩ := counted.1.unique counted'.1 split
    rw [whole, List.length_append] at behind
    omega

theorem Section.Passes.declares (passes : s.Passes rest imports) (tight : ¬Slack s rest imports) :
    s.Declares imports := by
  obtain ⟨_, payload⟩ := passes
  refine ⟨by_contra fun wide => tight (.size wide), ?_⟩
  split at payload
  · rename_i importing
    rw [if_pos importing]
    rcases payload with ⟨trailing, passed⟩ | ⟨empty, _⟩
    · have none_left : trailing = [] := by_contra fun more => tight (.trailing importing passed more)
      rw [none_left] at passed
      exact by_contra fun wide => tight (.integer importing passed wide)
    · exact absurd (.hollow importing empty) tight
  · rename_i other
    rw [if_neg other]
    exact payload

theorem Loose.reads (loose : Loose parts imports) : Reads parts imports := by
  induction loose with
  | here first functions _ rest => exact .cons first functions rest
  | later first functions _ ih => exact .cons first functions ih

theorem Reads.sized (reads : Reads parts imports) : ∀ s ∈ parts, Leb s.size s.payload.length := by
  induction reads with
  | nil => exact fun s member => absurd member List.not_mem_nil
  | cons first _ _ ih =>
    intro s member
    rcases List.mem_cons.mp member with rfl | later
    · exact first.1.1
    · exact ih s later

theorem Reads.declares_or_loose (reads : Reads parts imports) :
    (∃ declared, List.Forall₂ Section.Declares parts declared ∧ imports = declared.flatten) ∨ Loose parts imports := by
  induction reads with
  | nil => exact .inl ⟨[], .nil, rfl⟩
  | @cons s parts imports others first functions rest ih =>
    rcases ih with ⟨declared, each, rfl⟩ | loose
    · by_cases slack : Slack s (parts.flatMap Section.bytes) imports
      · exact .inr (.here first functions slack rest)
      · exact .inl ⟨imports :: declared, .cons (first.declares slack) each, rfl⟩
    · exact .inr (.later first functions loose)

theorem Loose.not_declares (loose : Loose parts imports) {declared : List (List Import)} :
    ¬List.Forall₂ Section.Declares parts declared := by
  induction loose generalizing declared with
  | here first functions slack rest =>
    rintro (_ | ⟨one, _⟩)
    exact slack.not_declares functions one
  | later first functions rest ih =>
    rintro (_ | ⟨_, others⟩)
    exact ih others

theorem sized_of_declares {declared : List (List Import)} (each : List.Forall₂ Section.Declares parts declared) :
    ∀ s ∈ parts, Leb s.size s.payload.length := by
  induction each with
  | nil => exact fun s member => absurd member List.not_mem_nil
  | cons one _ ih => exact List.forall_mem_cons.mpr ⟨one.1.1, ih⟩

theorem reads_of_declares {declared : List (List Import)} (each : List.Forall₂ Section.Declares parts declared)
    (functions : ∀ imp ∈ declared.flatten, imp.kind = .func) : Reads parts declared.flatten := by
  induction each with
  | nil => exact .nil
  | cons one _ ih =>
    have first_functions := fun imp member => functions imp (List.mem_append_left _ member)
    exact .cons (one.passes first_functions) first_functions
      (ih fun imp member => functions imp (List.mem_append_right _ member))

def IsBoundary (e : PyErr) : Prop := ∃ code text, e = ⟨.pureBoundaryError code, text⟩

theorem fail_refuses (code message : Str) : Raises IsBoundary (fail code message : Py α) :=
  .error ⟨code, message, rfl⟩

theorem check_refuses {p : Prop} [Decidable p] {code message : Str} {f : α → Py β} {rest : Py β}
    (passed : ¬p → Raises IsBoundary rest) : Raises IsBoundary (if p then (fail code message : Py α).bind f else rest) :=
  .check (fun _ => ⟨code, message, rfl⟩) passed

theorem byteAt_ok {data : Bytes} {pos : Nat} (inside : pos < data.length) : ∃ n, byteAt data pos = .ok n := by
  simp [byteAt, List.getElem?_eq_getElem inside, pure, Except.pure]

theorem byteAt_refuses {data : Bytes} {pos : Nat} (inside : pos < data.length) : Raises IsBoundary (byteAt data pos) := by
  obtain ⟨n, read⟩ := byteAt_ok inside
  rw [read]
  exact Raises.ok n

theorem ulebLoop_refuses {data : Bytes} {fuel shift result pos : Nat} (budget : fuel * 7 + shift = 70) (some_left : 0 < fuel) :
    Raises IsBoundary (ulebLoop data fuel result shift pos) := by
  induction fuel generalizing shift result pos with
  | zero => exact absurd some_left (Nat.lt_irrefl _)
  | succ fuel ih =>
    unfold ulebLoop
    refine check_refuses fun outside => ?_
    refine (byteAt_refuses (Nat.lt_of_not_le outside)).bind fun byte _ => ?_
    split
    · exact Raises.ok _
    · refine check_refuses fun narrow => ?_
      exact ih (by omega) (by omega)

theorem uleb_refuses {data : Bytes} {pos : Nat} : Raises IsBoundary (uleb data pos) := ulebLoop_refuses rfl (by decide)

theorem name_refuses {data : Bytes} {pos : Nat} : Raises IsBoundary (name data pos) := by
  unfold name
  refine uleb_refuses.bind fun read _ => check_refuses fun _ => ?_
  split
  · exact Raises.ok _
  · exact fail_refuses _ _

theorem skipLimits_refuses {data : Bytes} {pos : Nat} : Raises IsBoundary (skipLimits data pos) := by
  unfold skipLimits
  refine check_refuses fun outside => ?_
  refine (byteAt_refuses (Nat.lt_of_not_le outside)).bind fun flags _ => uleb_refuses.bind fun ⟨_, next⟩ _ => ?_
  dsimp only
  split
  · exact Raises.ok _
  · exact uleb_refuses.bind fun highest _ => Raises.ok _

theorem skipPayload_refuses {data : Bytes} {kind pos : Nat} : Raises IsBoundary (skipPayload data kind pos) := by
  unfold skipPayload
  split
  · exact uleb_refuses.bind fun index _ => Raises.ok _
  · exact check_refuses fun _ => skipLimits_refuses
  · exact skipLimits_refuses
  · exact check_refuses fun _ => Raises.ok _
  · exact fail_refuses _ _

theorem skipDescriptor_refuses {data : Bytes} {pos stop : Nat} : Raises IsBoundary (skipDescriptor data pos stop) := by
  unfold skipDescriptor
  refine check_refuses fun outside => ?_
  refine (byteAt_refuses (Nat.lt_of_not_le outside)).bind fun kind _ => skipPayload_refuses.bind fun next _ => ?_
  exact check_refuses fun _ => Raises.ok _

theorem entry_refuses {data : Bytes} {stop p : Nat} (within : stop ≤ data.length) : Raises IsBoundary (entry data stop p) := by
  unfold entry
  refine name_refuses.bind fun first _ => name_refuses.bind fun second _ => check_refuses fun inside => ?_
  refine (byteAt_refuses (Nat.lt_of_lt_of_le (Nat.lt_of_not_le inside) within)).bind fun kind _ => ?_
  exact skipDescriptor_refuses.bind fun next _ => Raises.ok _

theorem entries_refuses {data : Bytes} {stop count p : Nat} (within : stop ≤ data.length) :
    Raises IsBoundary (entries data stop count p) := by
  induction count generalizing p with
  | zero => exact Raises.ok _
  | succ count ih => exact (entry_refuses within).bind fun first _ => ih.bind fun others _ => Raises.ok _

theorem sections_refuses {front tail : Bytes} {fuel : Nat} (enough : tail.length < fuel) :
    Raises IsBoundary (sections (front ++ tail) fuel front.length) := by
  induction fuel generalizing front tail with
  | zero => exact absurd enough (Nat.not_lt_zero _)
  | succ fuel ih =>
    unfold sections
    split
    · rename_i inside
      refine (byteAt_refuses inside).bind fun id at_id => ?_
      obtain ⟨byte, after, rfl, rfl⟩ := byteAt_sound at_id
      have whole : front ++ byte :: after = front ++ [byte] ++ after := by simp
      have behind : front.length + 1 = (front ++ [byte]).length := by simp
      rw [whole, behind]
      refine uleb_refuses.bind fun sized read => ?_
      obtain ⟨size, more, rfl, _, same⟩ := uleb_iff.mp read
      refine check_refuses fun fits => ?_
      have bound : sized.1 ≤ more.length := by
        simp only [same, List.length_append] at fits
        omega
      have rest : Raises IsBoundary (sections (front ++ [byte] ++ (size ++ more)) fuel (sized.2 + sized.1)) := by
        have split : front ++ [byte] ++ (size ++ more) =
            front ++ [byte] ++ size ++ more.take sized.1 ++ more.drop sized.1 := by simp
        have stop : sized.2 + sized.1 = (front ++ [byte] ++ size ++ more.take sized.1).length := by
          rw [same, @List.length_append _ _ (more.take _), List.length_take, Nat.min_eq_left bound]
        rw [split, stop]
        apply ih
        simp only [List.length_cons, List.length_append] at enough
        rw [List.length_drop]
        omega
      split
      · refine uleb_refuses.bind fun counted _ => ?_
        exact (entries_refuses (Nat.le_of_not_lt fits)).bind fun imports _ => rest.bind fun others _ => Raises.ok _
      · exact rest
    · exact Raises.ok _

theorem checkEach_ok {imports : List Import} {u : Unit} :
    checkEach imports = .ok u ↔
      ∀ imp ∈ imports, (imp.moduleName, imp.name) ∈ pureImportAllowlist ∧ imp.kind = .func := by
  induction imports with
  | nil => exact ⟨fun _ imp member => absurd member List.not_mem_nil, fun _ => rfl⟩
  | cons imp rest ih =>
    have one : (∃ v, checkImport imp = .ok v) ↔ (imp.moduleName, imp.name) ∈ pureImportAllowlist ∧ imp.kind = .func := by
      unfold checkImport
      by_cases listed : (imp.moduleName, imp.name) ∈ pureImportAllowlist
      · by_cases function : imp.kind = .func <;> simp [listed, function, fail, raise, pure, Except.pure]
      · simp [listed, fail, raise]
    simp only [checkEach, bind, Py.bind_ok, ih, exists_and_right, one, List.forall_mem_cons]

theorem checkEach_refuses {imports : List Import} : Raises IsBoundary (checkEach imports) := by
  induction imports with
  | nil => exact Raises.ok _
  | cons imp rest ih =>
    refine Raises.bind ?_ fun _ _ => ih
    unfold checkImport
    split
    · split
      · exact fail_refuses _ _
      · exact Raises.ok _
    · exact fail_refuses _ _

theorem unpackU32_one {a b c d : UInt8} {rest : Bytes} (one : unpackU32 (wasmMagic ++ a :: b :: c :: d :: rest) 4 = wasmVersion) :
    a = 1 ∧ b = 0 ∧ c = 0 ∧ d = 0 := by
  have sum : a.toNat + 256 * (b.toNat + 256 * (c.toNat + 256 * (d.toNat + 256 * 0))) = 1 := one
  have low := a.toNat_lt
  refine ⟨UInt8.toNat_inj.mp ?_, UInt8.toNat_inj.mp ?_, UInt8.toNat_inj.mp ?_, UInt8.toNat_inj.mp ?_⟩ <;>
    simp <;> omega

theorem parseImports_header (tail : Bytes) :
    parseImports (header ++ tail) = sections (header ++ tail) ((header ++ tail).length + 1) header.length := by
  have long : ¬((header ++ tail).length < 8 ∨ (header ++ tail).take 4 ≠ wasmMagic) := by
    simp [header, wasmMagic]
  have version : ¬unpackU32 (header ++ tail) 4 ≠ wasmVersion := by
    rw [not_not]
    rfl
  simp only [parseImports, if_neg long, if_neg version]
  rfl

theorem parseImports_ok {b : Bytes} {imports : List Import} (read : parseImports b = .ok imports) :
    ∃ tail, b = header ++ tail := by
  unfold parseImports at read
  obtain ⟨long, read⟩ := Py.unless_ok.mp read
  obtain ⟨version, _⟩ := Py.unless_ok.mp read
  rw [not_or, not_not] at long
  obtain ⟨long, magic⟩ := long
  have split := List.take_append_drop 4 b
  rw [magic] at split
  have four : 4 ≤ (b.drop 4).length := by
    rw [List.length_drop]
    omega
  obtain ⟨b0, b1, b2, b3, rest, behind⟩ : ∃ b0 b1 b2 b3 rest, b.drop 4 = b0 :: b1 :: b2 :: b3 :: rest :=
    match b.drop 4, four with
    | b0 :: b1 :: b2 :: b3 :: rest, _ => ⟨b0, b1, b2, b3, rest, rfl⟩
  rw [behind] at split
  rw [← split] at version
  obtain ⟨rfl, rfl, rfl, rfl⟩ := unpackU32_one (not_not.mp version)
  exact ⟨rest, split.symm⟩

theorem parseImports_refuses {b : Bytes} : Raises IsBoundary (parseImports b) := by
  unfold parseImports
  refine check_refuses fun long => check_refuses fun _ => ?_
  have split := List.take_append_drop 8 b
  have front : (b.take 8).length = 8 := by
    rw [List.length_take, Nat.min_eq_left]
    exact Nat.le_of_not_lt (not_or.mp long).1
  have rest := @sections_refuses (b.take 8) (b.drop 8) (b.length + 1) (by
    rw [List.length_drop]
    omega)
  rwa [split, front] at rest

theorem checkPureImports_refuses {b : Bytes} : Raises IsBoundary (checkPureImports b) :=
  parseImports_refuses.bind fun _ _ => checkEach_refuses.bind fun _ _ => Raises.ok _

theorem checkPureImports_iff {b : Bytes} {imports : List Import} :
    checkPureImports b = .ok imports ↔
      (∃ parts : List Section, b = header ++ parts.flatMap Section.bytes ∧ Reads parts imports) ∧
        ∀ imp ∈ imports, (imp.moduleName, imp.name) ∈ pureImportAllowlist ∧ imp.kind = .func := by
  simp only [checkPureImports, bind, Py.bind_ok, checkEach_ok, pure, Except.pure]
  constructor
  · rintro ⟨found, read, _, allowed, same⟩
    obtain rfl := Except.ok.inj same
    obtain ⟨tail, rfl⟩ := parseImports_ok read
    rw [parseImports_header] at read
    obtain ⟨parts, rfl, reads⟩ := sections_sound read fun imp member => (allowed imp member).2
    exact ⟨⟨parts, rfl, reads⟩, allowed⟩
  · rintro ⟨⟨parts, rfl, reads⟩, allowed⟩
    refine ⟨imports, ?_, (), allowed, rfl⟩
    rw [parseImports_header]
    apply sections_front reads
    rw [List.length_append]
    omega

/-- The import check meets its contract on every byte string that the reader does not pass for slack. -/
theorem checkPureImports_exact_iff (b : Bytes) :
    Exact b ↔
      ¬∃ (parts : List Section) (imports : List Import), b = header ++ parts.flatMap Section.bytes ∧ Loose parts imports ∧
        ∀ imp ∈ imports, (imp.moduleName, imp.name) ∈ pureImportAllowlist ∧ imp.kind = .func := by
  constructor
  · rintro contract ⟨parts, imports, rfl, loose, allowed⟩
    have returned := checkPureImports_iff.mpr ⟨⟨parts, rfl, loose.reads⟩, allowed⟩
    obtain ⟨⟨parts', declared, same, each, rfl⟩, _⟩ := contract.sound imports returned
    have tiles := List.append_cancel_left same
    obtain rfl := tile_unique loose.reads.sized (sized_of_declares each) tiles
    exact loose.not_declares each
  · intro tight
    refine ⟨?_, ?_, ?_⟩
    · intro imports returned
      obtain ⟨⟨parts, rfl, reads⟩, allowed⟩ := checkPureImports_iff.mp returned
      rcases reads.declares_or_loose with ⟨declared, each, rfl⟩ | loose
      · exact ⟨⟨parts, declared, rfl, each, rfl⟩, allowed⟩
      · exact absurd ⟨parts, imports, rfl, loose, allowed⟩ tight
    · rintro imports ⟨parts, declared, rfl, each, rfl⟩ allowed
      have reads := reads_of_declares each fun imp member => (allowed imp member).2
      exact checkPureImports_iff.mpr ⟨⟨parts, rfl, reads⟩, allowed⟩
    · exact checkPureImports_refuses

/-- An import section with no entries and one byte behind the count. -/
def strayByte : Section := ⟨0x02, [0x02], [0x00, 0xFF]⟩

/-- The import check passes a section that is more than its counted entries. -/
theorem stray_byte_passed : ¬Exact (header ++ strayByte.bytes) := by
  intro contract
  have returned : checkPureImports (header ++ strayByte.bytes) = .ok [] := by decide +kernel
  obtain ⟨⟨parts, declared, same, each, _⟩, _⟩ := contract.sound [] returned
  have zero : Wide [0x00] 0 := ⟨@Leb.last 0x00 (by decide), by decide⟩
  have two : Leb strayByte.size strayByte.payload.length := @Leb.last 0x02 (by decide)
  have passed : Counted Wide strayByte.payload [] [0xFF] := ⟨[0x00], 0, [], rfl, zero, .nil⟩
  have tiles : [strayByte].flatMap Section.bytes = parts.flatMap Section.bytes := List.append_cancel_left same
  obtain rfl := tile_unique (by simpa using two) (sized_of_declares each) tiles
  cases each with
  | cons one _ =>
    have slack : Slack strayByte [] [] := .trailing rfl passed (by decide)
    exact slack.not_declares (fun imp member => absurd member List.not_mem_nil) one

end JJDai.WasmPure
