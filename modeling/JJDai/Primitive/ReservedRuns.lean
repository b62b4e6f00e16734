import JJDai.Primitive.Ledger

/-! Reserved names inside the compound strings of a record: what the scan lets through. -/

namespace JJDai

open PyText

/-- Some consecutive segments of a text, joined again. -/
def IsRun (text run : Str) : Prop := ∃ front segments back,
  splitAt (ch ':') text = front ++ segments ++ back ∧ segments ≠ [] ∧ run = joinWith [ch ':'] segments

def Reserved (text : Str) : Prop := text ∈ scannedValues ∨ InNamespace text

def Clean (text : Str) : Prop := ∀ run, IsRun text run → ¬Reserved run

/-- A commitment domain among the segments of a text. -/
def Embeds (text : Str) : Prop := ∃ domain ∈ commitmentDomains, splitAt (ch ':') domain <:+: splitAt (ch ':') text

/-- No segment of a compound text lies in a namespace, and no commitment domain is embedded. -/
def Plain (text : Str) : Prop :=
  (ch ':' ∈ text → ∀ segment ∈ splitAt (ch ':') text, ¬InNamespace segment) ∧ ¬Embeds text

theorem inNamespace_first {first : Str} {rest : List Str} (inside : InNamespace (joinWith [ch ':'] (first :: rest))) :
    InNamespace first := by
  cases rest with
  | nil => exact inside
  | cons next rest =>
    obtain ⟨ns, member, either⟩ := inside
    have absent := (namespace_shape member).plain
    rw [joinWith_cons_cons] at either
    refine ⟨ns, member, .inl ?_⟩
    cases either with
    | inr same =>
      refine absurd ?_ absent
      rw [same]
      simp
    | inl below =>
      cases List.prefix_or_prefix_of_prefix below (List.prefix_append first _) with
      | inl inner => exact inner
      | inr longer =>
        obtain ⟨more, rfl⟩ := longer
        have starts := (List.prefix_append_right_inj first).mp below
        cases more with
        | nil => simp
        | cons c more =>
          obtain ⟨rfl, _⟩ := List.cons_prefix_cons.mp starts
          exact absurd (by simp) absent

theorem isRun_segment {text segment : Str} (member : segment ∈ splitAt (ch ':') text) : IsRun text segment := by
  obtain ⟨front, back, shape⟩ := List.append_of_mem member
  exact ⟨front, [segment], back, by simp [shape], List.cons_ne_nil _ _, rfl⟩

theorem clean_iff {text : Str} (passed : reservedHit text = none) : Clean text ↔ Plain text := by
  obtain ⟨outside, _, unscanned⟩ := reservedHit_none.mp passed
  constructor
  · intro clean
    refine ⟨fun _ segment member inside => ?_, fun embeds => ?_⟩
    · exact clean segment (isRun_segment member) (.inr inside)
    · obtain ⟨domain, among, front, back, shape⟩ := embeds
      have run : IsRun text domain :=
        ⟨front, splitAt (ch ':') domain, back, shape.symm, splitAt_ne_nil _, (joinWith_splitAt domain).symm⟩
      exact clean domain run (.inl (commitmentDomains_scanned among))
  · intro plain run isRun reserved
    obtain ⟨behind, apart⟩ := plain
    obtain ⟨front, segments, back, shape, some_left, rfl⟩ := isRun
    have inner : ∀ segment ∈ segments, segment ∈ splitAt (ch ':') text := by
      intro segment member
      rw [shape]
      simp [member]
    have plain : ∀ segment ∈ segments, ch ':' ∉ segment :=
      fun segment member => not_mem_splitAt (inner segment member)
    cases reserved with
    | inl scanned =>
      have kinds := (scanned_shape scanned).parts
      rw [splitAt_joinWith some_left plain] at kinds
      rcases kinds with single | ⟨part, member, named⟩ | domain
      · refine unscanned _ (inner (joinWith [ch ':'] segments) ?_) scanned
        rw [single]
        simp [joinWith]
      · exact unscanned part (inner part member) named
      · refine apart ⟨_, domain, front, back, ?_⟩
        rw [splitAt_joinWith some_left plain]
        exact shape.symm
    | inr inside =>
      cases segments with
      | nil => exact some_left rfl
      | cons first rest =>
        have start := inNamespace_first inside
        have member := inner first List.mem_cons_self
        by_cases colon : ch ':' ∈ text
        · exact behind colon first member start
        · rw [splitAt_absent colon, List.mem_singleton] at member
          rw [member] at start
          exact outside start

/-- The strings that are scanned: values and keys of the three fields. -/
def AppendCall.strings (call : AppendCall) : List Str :=
  texts call.semanticDigest ++ texts call.provenance ++ texts call.entanglement

theorem scanned_of_append {crypto : Crypto} {chain : WitnessChain} {call : AppendCall} {written : Appended}
    (made : chain.append crypto call = .ok written) : ∀ text ∈ call.strings, reservedHit text = none := by
  simp only [WitnessChain.append, bind, Py.bind_ok] at made
  obtain ⟨_, checked, _⟩ := made
  have admitted := WitnessChain.checkAppend_ok.mp checked
  obtain ⟨_, digest⟩ := admitted.digest
  obtain ⟨_, provenance⟩ := admitted.provenance
  obtain ⟨_, entanglement⟩ := admitted.entanglement
  intro text member
  simp only [AppendCall.strings, List.mem_append] at member
  rcases member with (member | member) | member
  · exact free_of_checkNoReservedValues digest text member
  · exact free_of_checkNoReservedValues provenance text member
  · exact free_of_checkNoReservedValues entanglement text member

/-- What is appended holds no reserved run exactly when its compound strings have no segment in
a reserved namespace and embed no commitment domain. -/
theorem append_clean_iff {crypto : Crypto} {chain : WitnessChain} {call : AppendCall} {written : Appended}
    (made : chain.append crypto call = .ok written) :
    (∀ text ∈ call.strings, Clean text) ↔ ∀ text ∈ call.strings, Plain text :=
  forall_congr' (fun text => forall_congr' (fun member => clean_iff (scanned_of_append made text member)))

/-- An inference whose digest is one compound string. -/
def digestCall (text : Str) : AppendCall :=
  { kind := "INFER", semanticDigest := .str text, timestamp := .str "t" }

theorem digestCall_appended {text : Str} (taken : (digestCall text).taken) :
    ∃ written, WitnessChain.append Crypto.sample ⟨SigningKey.sample 1, []⟩ (digestCall text) = .ok written := by
  obtain ⟨written, made, _⟩ := @Ledger.append_taken Crypto.sample
    ⟨⟨SigningKey.sample 1, []⟩, WitnessChain.linked_empty rfl⟩ _ taken
  exact ⟨written, made⟩

/-- A string of the vocabulary, with a commitment domain and a path below a namespace behind colons. -/
def smuggling : Str := "run:JJDAI:PREDICTION:v1:cognitive/self_model/belief"

theorem digestCall_taken : (digestCall smuggling).taken = true ∧
    splitAt (ch ':') smuggling = ["run", "JJDAI", "PREDICTION", "v1", "cognitive/self_model/belief"] ∧
    reservedNamespaces.contains "cognitive/self_model/" = true := by
  decide +kernel

theorem append_clean_sample : (∀ text ∈ (digestCall smuggling).strings, Clean text) ↔
    ∀ text ∈ (digestCall smuggling).strings, Plain text := by
  obtain ⟨written, made⟩ := digestCall_appended digestCall_taken.1
  exact append_clean_iff made

/-- A commitment domain and a path below a namespace are appended behind a colon. -/
theorem compound_smuggles : ∃ written,
    WitnessChain.append Crypto.sample ⟨SigningKey.sample 1, []⟩ (digestCall smuggling) = .ok written ∧
    smuggling ∈ (digestCall smuggling).strings ∧
    IsRun smuggling "JJDAI:PREDICTION:v1" ∧ Str.ofString "JJDAI:PREDICTION:v1" ∈ scannedValues ∧
    IsRun smuggling "cognitive/self_model/belief" ∧ InNamespace "cognitive/self_model/belief" := by
  obtain ⟨taken, parts, reserved⟩ := digestCall_taken
  obtain ⟨written, made⟩ := digestCall_appended taken
  refine ⟨written, made, List.mem_singleton_self _, ?_, commitmentDomains_scanned List.mem_cons_self, ?_, ?_⟩
  · exact ⟨["run"], ["JJDAI", "PREDICTION", "v1"], ["cognitive/self_model/belief"], parts, List.cons_ne_nil _ _, rfl⟩
  · exact ⟨["run", "JJDAI", "PREDICTION", "v1"], ["cognitive/self_model/belief"], [], parts, List.cons_ne_nil _ _, rfl⟩
  · exact ⟨"cognitive/self_model/", List.contains_iff_mem.mp reserved, .inl ⟨"belief", rfl⟩⟩

end JJDai
