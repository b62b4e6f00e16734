import JJDai.Lib.FloatOrder
import JJDai.Lib.LastWrite
import JJDai.Verification.ReAudit

/-! `core.verdict.count_quorum`: the last verdict of each verifier, counted. -/

namespace JJDai

open PyText Canonical

structure QuorumCount where
  distinctVerifiers : Nat
  pass : Nat
  fail : Nat
  minMargin : Json
  passed : Bool

/-- `by_node`: the last envelope of each verifier. -/
def byNode : List Json → Dict Json Json → Py (Dict Json Json)
  | [], nodes => return nodes
  | env :: rest, nodes => do
    let node ← dictKey (← subscript env "verifier_node_id")
    byNode rest (Dict.set nodes node env)

def saysOk (env : Json) : Py Bool := do
  return truthy (← subscript env "ok")

def leastMargin : List Json → Py Json
  | [] => return .float .zero
  | first :: rest => do
    let start ← subscript first "min_margin"
    rest.foldlM (fun least env => do
      let margin ← subscript env "min_margin"
      if ← pyLess margin least then return margin else return least) start

def countQuorum (envelopes : List Json) : Py QuorumCount := do
  let nodes ← byNode envelopes []
  let passes ← filterPy saysOk (nodes.map Prod.snd)
  let fails ← filterPy (fun env => do return !(← saysOk env)) (nodes.map Prod.snd)
  let margin ← leastMargin passes
  return {
    distinctVerifiers := nodes.length, pass := passes.length, fail := fails.length, minMargin := margin,
    passed := decide (0 < passes.length ∧ fails.length = 0) }

structure QuorumCount.Same (first second : QuorumCount) : Prop where
  distinct : first.distinctVerifiers = second.distinctVerifiers
  pass : first.pass = second.pass
  fail : first.fail = second.fail
  margin : Json.pyEq first.minMargin second.minMargin
  passed : first.passed = second.passed

/-- An element that `open_verdict` returned. -/
def Opened (crypto : Crypto) (env : Json) : Prop := ∃ envelope request pub nonces seen,
  openVerdict crypto envelope request pub nonces = .ok (env, seen)

def verifierOf (env : Json) : Json := ((subscript env "verifier_node_id").toOption).getD .null

def isOk (env : Json) : Bool := ((saysOk env).toOption).getD false

def marginOf (env : Json) : PyFloat :=
  match subscript env "min_margin" with
  | .ok (.float margin) => margin
  | _ => .zero

/-- The fields that the count reads, with the types they are read at. -/
structure Countable (env : Json) : Prop where
  verifier : ∃ node, subscript env "verifier_node_id" = .ok (.str node)
  ok : ∃ value, subscript env "ok" = .ok (.bool value)
  margin : ∃ value, subscript env "min_margin" = .ok (.float (.finite value))

section Opening

variable {crypto : Crypto} {env : Json}

theorem Field.validate_is_bool {f : Field} (truth : f.type = .bool) (strict : f.nullable = false) {value result : Json}
    {path : Str} (valid : f.validate value path = .ok result) : ∃ b, result = .bool b := by
  rcases validate_ok.mp valid with ⟨_, nullable, _⟩ | ⟨_, coerced, _, holds, _, checked⟩
  · rw [strict] at nullable
    cases nullable
  · rw [truth] at holds
    cases coerced with
    | bool b =>
      simp only [checkValue, bind, validated_bind] at checked
      obtain ⟨_, _, made⟩ := checked
      exact ⟨b, (Except.ok.inj made).symm⟩
    | _ => cases holds

theorem Field.validate_is_float {f : Field} (number : f.type = .float) (strict : f.nullable = false)
    {value result : Json} {path : Str} (valid : f.validate value path = .ok result) : ∃ x, result = .float x := by
  rcases validate_ok.mp valid with ⟨_, nullable, _⟩ | ⟨_, coerced, _, holds, _, checked⟩
  · rw [strict] at nullable
    cases nullable
  · rw [number] at holds
    cases coerced with
    | float x =>
      simp only [checkValue, bind, validated_bind] at checked
      obtain ⟨_, _, made⟩ := checked
      exact ⟨x, (Except.ok.inj made).symm⟩
    | _ => cases holds

theorem signed_finite {out : Dict Str Json} {signed : Json} {data : Bytes} {x : PyFloat}
    (found : Dict.get? out "min_margin" = some (.float x)) (body : signedBody (.obj out) = .ok signed)
    (bytes : canonical signed = .ok data) : ∃ value, x = .finite value := by
  simp only [signedBody, bind, Py.bind_ok] at body
  obtain ⟨entries, read, made⟩ := body
  obtain rfl := Except.ok.inj made
  have written : writable (.obj entries) := (canonical_isOk _).mp (by rw [bytes]; rfl)
  obtain ⟨entry, member, taken⟩ := (rows_of_mapM read).1 "min_margin" (by decide)
  simp only [subscript_obj.mpr found, Except.bind, pure, Except.pure, Except.ok.injEq] at taken
  subst taken
  have finite := (writable_obj.mp written _ member).2
  cases x with
  | finite value => exact ⟨value, rfl⟩
  | _ => cases finite

theorem Opened.countable (opened : Opened crypto env) : Countable env := by
  obtain ⟨envelope, request, pub, nonces, seen, opened⟩ := opened
  cases validated : verdictEnvelope.validate envelope "VerdictEnvelope" with
  | error e =>
    simp only [openVerdict, validated] at opened
    cases e <;> cases opened
  | ok checked =>
    obtain ⟨entries, out, rfl, rfl, _, collected⟩ := (Schema.validate_ok rfl).mp validated
    have names : (verdictEnvelope.fields.map Prod.fst).Nodup := by decide
    have required {name : Str} {f : Field} (member : (name, f) ∈ verdictEnvelope.fields) (needed : f.required = true) :
        ∃ value path result, f.validate value path = .ok result ∧ Dict.get? out name = some result := by
      rcases Schema.collect_get collected CrossVerifier.envelope_no_defaults names member with
        ⟨_, optional, _⟩ | ⟨value, result, _, valid, became⟩
      · rw [needed] at optional
        cases optional
      · exact ⟨value, _, result, valid, became⟩
    simp only [openVerdict, validated, bind, Py.bind_ok] at opened
    obtain ⟨_, ⟨⟩, _, _, key, _, nodeId, nodeRead, opened⟩ := opened
    rw [Py.unless_ok] at opened
    obtain ⟨pinned, opened⟩ := opened
    simp only [Py.bind_ok] at opened
    obtain ⟨signed, body, data, bytes, sigText, _, sig, _, opened⟩ := opened
    rw [Py.unless_ok] at opened
    obtain ⟨_, opened⟩ := opened
    simp only [Py.bind_ok] at opened
    obtain ⟨contextHash, _, hash, _, opened⟩ := opened
    rw [Py.unless_ok] at opened
    obtain ⟨_, opened⟩ := opened
    simp only [Py.bind_ok] at opened
    obtain ⟨nonce, _, other, _, opened⟩ := opened
    rw [Py.unless_ok] at opened
    obtain ⟨_, opened⟩ := opened
    have same : env = .obj out := by
      cases nonces with
      | none => exact (Prod.mk.inj (Except.ok.inj opened)).1.symm
      | some held =>
        obtain ⟨_, _, opened⟩ := Py.bind_ok.mp opened
        exact (Prod.mk.inj (Except.ok.inj opened)).1.symm
    subst same
    obtain ⟨_, _, answer, answered, okFound⟩ := required
      (show (Str.ofString "ok", ({ type := .bool } : Field)) ∈ verdictEnvelope.fields by simp [verdictEnvelope]) rfl
    obtain ⟨_, _, margin, measured, marginFound⟩ := required
      (show (Str.ofString "min_margin", ({
        type := .float, minVal := some (floatBound 0), maxVal := some (floatBound 1) } : Field)) ∈
          verdictEnvelope.fields by simp [verdictEnvelope]) rfl
    obtain ⟨value, rfl⟩ := Field.validate_is_bool rfl rfl answered
    obtain ⟨x, rfl⟩ := Field.validate_is_float rfl rfl measured
    obtain ⟨finite, rfl⟩ := signed_finite marginFound body bytes
    obtain rfl := not_not.mp pinned
    exact ⟨⟨_, nodeRead⟩, ⟨value, subscript_obj.mpr okFound⟩, finite, subscript_obj.mpr marginFound⟩

theorem Countable.verifier_key (countable : Countable env) :
    ∃ named, subscript env "verifier_node_id" = .ok named ∧ dictKey named = .ok (verifierOf env) := by
  obtain ⟨node, read⟩ := countable.verifier
  refine ⟨_, read, ?_⟩
  simp only [dictKey, verifierOf, read]
  rfl

theorem Countable.saysOk_isOk (countable : Countable env) : saysOk env = .ok (isOk env) := by
  obtain ⟨value, read⟩ := countable.ok
  simp only [isOk, saysOk, read]
  rfl

theorem Countable.subscript_ok (countable : Countable env) : subscript env "ok" = .ok (.bool (isOk env)) := by
  obtain ⟨value, read⟩ := countable.ok
  simp only [isOk, saysOk, read]
  rfl

theorem Countable.marginOf_finite (countable : Countable env) :
    ∃ value, marginOf env = .finite value ∧ subscript env "min_margin" = .ok (.float (.finite value)) := by
  obtain ⟨value, read⟩ := countable.margin
  exact ⟨value, by rw [marginOf, read], read⟩

end Opening

section Count

variable {envelopes others values : List Json}

/-- The envelopes, each under its verifier. -/
def named (envelopes : List Json) : Dict Json Json := envelopes.map (fun env => (verifierOf env, env))

def IsFinal (envelopes : List Json) (env : Json) : Prop :=
  ∃ front back, envelopes = front ++ env :: back ∧ ∀ later ∈ back, verifierOf later ≠ verifierOf env

theorem isFinal_iff {env : Json} : IsFinal envelopes env ↔ Dict.IsLast (named envelopes) (verifierOf env, env) := by
  constructor
  · intro final
    obtain ⟨front, back, rfl, apart⟩ := final
    refine ⟨named front, named back, by simp [named], ?_⟩
    intro member
    obtain ⟨entry, inside, same⟩ := List.mem_map.mp member
    obtain ⟨later, among, rfl⟩ := List.mem_map.mp inside
    exact apart later among same
  · intro last
    obtain ⟨front, back, shape, absent⟩ := last
    obtain ⟨before, after, rfl, _, split⟩ := List.map_eq_append_iff.mp shape
    obtain ⟨env', rest, rfl, same, rfl⟩ := List.map_eq_cons_iff.mp split
    obtain ⟨_, rfl⟩ := Prod.mk.inj same
    refine ⟨before, rest, rfl, ?_⟩
    intro later member equal
    exact absent (List.mem_map.mpr ⟨_, List.mem_map_of_mem member, equal⟩)

def finals (envelopes : List Json) : List Json := (Dict.update [] (named envelopes)).map Prod.snd

theorem mem_finals {env : Json} : env ∈ finals envelopes ↔ IsFinal envelopes env := by
  rw [isFinal_iff, ← Dict.mem_update_nil]
  constructor
  · intro member
    obtain ⟨⟨node, held⟩, inside, rfl⟩ := List.mem_map.mp member
    have written := (Dict.mem_update_nil.mp inside).mem
    obtain ⟨other, _, same⟩ := List.mem_map.mp written
    obtain ⟨rfl, rfl⟩ := Prod.mk.inj same
    exact inside
  · intro inside
    exact List.mem_map_of_mem inside

theorem IsFinal.mem {env : Json} (final : IsFinal envelopes env) : env ∈ envelopes := by
  obtain ⟨front, back, rfl, _⟩ := final
  exact List.mem_append_right front List.mem_cons_self

theorem finals_perm (order : envelopes.Perm others) (keeps : ∀ env, IsFinal envelopes env → IsFinal others env) :
    (finals envelopes).Perm (finals others) := by
  refine List.Perm.map _ (Dict.update_perm (order.map _) (fun entry last => ?_))
  obtain ⟨env, _, rfl⟩ := List.mem_map.mp last.mem
  exact isFinal_iff.mp (keeps env (isFinal_iff.mpr last))

theorem finals_eq_nil : finals envelopes = [] ↔ envelopes = [] := by
  rw [finals, List.map_eq_nil_iff, Dict.update_nil_eq_nil, named, List.map_eq_nil_iff]

def lowest : List Json → PyFloat
  | [] => .zero
  | first :: rest => leastOf (marginOf first) (rest.map marginOf)

def tally (values : List Json) : QuorumCount where
  distinctVerifiers := values.length
  pass := (values.filter isOk).length
  fail := (values.filter (fun env => !isOk env)).length
  minMargin := .float (lowest (values.filter isOk))
  passed := decide (0 < (values.filter isOk).length ∧ (values.filter (fun env => !isOk env)).length = 0)

theorem byNode_ok (countable : ∀ env ∈ envelopes, Countable env) (nodes : Dict Json Json) :
    byNode envelopes nodes = .ok (Dict.update nodes (named envelopes)) := by
  induction envelopes generalizing nodes with
  | nil => rfl
  | cons env rest ih =>
    obtain ⟨node, read, key⟩ := (countable env List.mem_cons_self).verifier_key
    simp only [byNode, read, key, bind, Except.bind]
    exact ih (fun other member => countable other (List.mem_cons_of_mem _ member)) _

theorem leastMargin_ok (countable : ∀ env ∈ values, Countable env) : leastMargin values = .ok (.float (lowest values)) := by
  cases values with
  | nil => rfl
  | cons first rest =>
    obtain ⟨start, measured, read⟩ := (countable first List.mem_cons_self).marginOf_finite
    have others := fun env member => countable env (List.mem_cons_of_mem _ member)
    simp only [leastMargin, lowest, leastOf, read, measured, bind, Except.bind]
    generalize PyFloat.finite start = least
    clear countable read measured start
    induction rest generalizing least with
    | nil => rfl
    | cons env rest ih =>
      obtain ⟨margin, measured, read⟩ := (others env List.mem_cons_self).marginOf_finite
      have inner := ih (fun env member => others env (List.mem_cons_of_mem _ member))
      simp only [List.foldlM_cons, read, List.map_cons, List.foldl_cons, measured, pyLess, bind, Except.bind, pure,
        Except.pure]
      by_cases below : PyFloat.less (.finite margin) least = true
      · rw [if_pos below, if_pos below]
        exact inner _
      · rw [if_neg below, if_neg below]
        exact inner _

theorem countQuorum_ok (countable : ∀ env ∈ envelopes, Countable env) :
    countQuorum envelopes = .ok (tally (finals envelopes)) := by
  have each : ∀ env ∈ finals envelopes, Countable env := fun env member => countable env (mem_finals.mp member).mem
  have passes := filterPy_of_forall (fun env member => (each env member).saysOk_isOk)
  have fails : filterPy (fun env => do return !(← saysOk env)) (finals envelopes) =
      .ok ((finals envelopes).filter (fun env => !isOk env)) := by
    refine filterPy_of_forall (fun env member => ?_)
    rw [(each env member).saysOk_isOk]
    rfl
  have margin := @leastMargin_ok ((finals envelopes).filter isOk)
    (fun env member => each env (List.mem_of_mem_filter member))
  have counted : (tally (finals envelopes)).distinctVerifiers = (Dict.update [] (named envelopes)).length :=
    List.length_map _
  refine Py.bind_ok.mpr ⟨_, byNode_ok countable [], Py.bind_ok.mpr ⟨_, passes, Py.bind_ok.mpr ⟨_, fails,
    Py.bind_ok.mpr ⟨_, margin, ?_⟩⟩⟩⟩
  rw [← counted]
  rfl

theorem zero_pyEq {d : Decimal} (zero : d.digits = 0) : Json.pyEq (.float (.finite d)) (.int 0) := by
  obtain ⟨negative, digits, exponent, reduced⟩ := d
  obtain rfl : digits = 0 := zero
  have level : exponent = 0 := by
    cases reduced with
    | inl last => exact absurd rfl last
    | inr both => exact both.2
  subst level
  simp [Json.pyEq, Json.comparisonKey, PyFloat.toInt?, round53]

theorem tally_perm {others : List Json} (order : values.Perm others) (countable : ∀ env ∈ values, Countable env) :
    (tally values).Same (tally others) := by
  have passes := order.filter isOk
  have fails := order.filter (fun env => !isOk env)
  refine ⟨order.length_eq, passes.length_eq, fails.length_eq, ?_, ?_⟩
  · have finite : ∀ env ∈ values.filter isOk, ∃ value, marginOf env = .finite value := by
      intro env member
      obtain ⟨value, measured, _⟩ := (countable env (List.mem_of_mem_filter member)).marginOf_finite
      exact ⟨value, measured⟩
    simp only [tally]
    generalize values.filter isOk = kept at passes finite
    generalize others.filter isOk = kept' at passes
    cases kept with
    | nil =>
      obtain rfl := passes.nil_eq
      exact Json.pyEq.refl _
    | cons first rest =>
      cases kept' with
      | nil => exact absurd passes.eq_nil (List.cons_ne_nil _ _)
      | cons first' rest' =>
        have numbers : ∀ x ∈ marginOf first :: rest.map marginOf, ∃ value, x = PyFloat.finite value := by
          intro x member
          rw [← List.map_cons] at member
          obtain ⟨env, inside, rfl⟩ := List.mem_map.mp member
          exact finite env inside
        have margins : (marginOf first :: rest.map marginOf).Perm (marginOf first' :: rest'.map marginOf) :=
          passes.map marginOf
        have ranks := leastOf_perm margins (by
          intro x member
          obtain ⟨value, rfl⟩ := numbers x member
          exact nofun)
        obtain ⟨a, left⟩ := numbers _ (leastOf_mem _ _)
        obtain ⟨b, right⟩ := numbers _ (margins.mem_iff.mpr (leastOf_mem _ _))
        simp only [lowest, left, right] at ranks ⊢
        cases PyFloat.eq_of_rank ranks with
        | inl same => rw [same]
        | inr zeros => exact (zero_pyEq zeros.1).trans (zero_pyEq zeros.2).symm
  · simp only [tally, passes.length_eq, fails.length_eq]

theorem passed_tally : (tally values).passed = true ↔ values ≠ [] ∧ ∀ env ∈ values, isOk env = true := by
  have none_fails : (values.filter (fun env => !isOk env)).length = 0 ↔ ∀ env ∈ values, isOk env = true := by
    rw [List.length_eq_zero_iff, List.filter_eq_nil_iff]
    simp
  simp only [tally, decide_eq_true_eq, none_fails]
  constructor
  · intro both
    obtain ⟨some_pass, all⟩ := both
    refine ⟨?_, all⟩
    rintro rfl
    cases some_pass
  · intro both
    obtain ⟨some_left, all⟩ := both
    refine ⟨?_, all⟩
    rw [List.filter_eq_self.mpr all]
    exact List.length_pos_iff.mpr some_left

theorem passed_finals : (tally (finals envelopes)).passed = true ↔
    envelopes ≠ [] ∧ ∀ env, IsFinal envelopes env → isOk env = true := by
  rw [passed_tally, ne_eq, finals_eq_nil]
  simp only [mem_finals]

def Steady (envelopes : List Json) : Prop := ∀ env ∈ envelopes, ∀ other ∈ envelopes,
  verifierOf env = verifierOf other → subscript env "ok" = subscript other "ok"

theorem exists_final {env : Json} (member : env ∈ envelopes) :
    ∃ final, IsFinal envelopes final ∧ verifierOf final = verifierOf env := by
  have entry : (verifierOf env, env) ∈ named envelopes := List.mem_map_of_mem (f := fun env => (verifierOf env, env)) member
  obtain ⟨value, last⟩ := Dict.exists_last entry
  obtain ⟨final, _, same⟩ := List.mem_map.mp last.mem
  obtain ⟨node, rfl⟩ := Prod.mk.inj same
  rw [← node] at last
  exact ⟨final, isFinal_iff.mpr last, node⟩

theorem passed_steady (countable : ∀ env ∈ envelopes, Countable env) (steady : Steady envelopes) :
    (tally (finals envelopes)).passed = true ↔ envelopes ≠ [] ∧ ∀ env ∈ envelopes, isOk env = true := by
  rw [passed_finals]
  refine and_congr_right (fun _ => ⟨fun all env member => ?_, fun all env final => all env final.mem⟩)
  obtain ⟨final, last, node⟩ := exists_final member
  have same := steady final last.mem env member node
  rw [(countable final last.mem).subscript_ok, (countable env member).subscript_ok] at same
  have agree : isOk final = isOk env := by simpa using same
  rw [← agree]
  exact all final last

def ballots (envelopes : List Json) : List (Json × Bool) := (finals envelopes).map (fun env => (verifierOf env, isOk env))

theorem nodup_ballots (envelopes : List Json) : (ballots envelopes).Nodup := by
  have nodes : (ballots envelopes).map Prod.fst = Dict.keys (Dict.update [] (named envelopes)) := by
    simp only [ballots, finals, Dict.keys, List.map_map]
    refine List.map_congr_left (fun entry member => ?_)
    obtain ⟨env, _, rfl⟩ := List.mem_map.mp (Dict.mem_update_nil.mp member).mem
    rfl
  refine List.Nodup.of_map Prod.fst ?_
  rw [nodes]
  exact Dict.nodup_update_nil

theorem mem_ballots (countable : ∀ env ∈ envelopes, Countable env) (steady : Steady envelopes) {ballot : Json × Bool} :
    ballot ∈ ballots envelopes ↔ ∃ env ∈ envelopes, (verifierOf env, isOk env) = ballot := by
  constructor
  · intro member
    obtain ⟨env, final, same⟩ := List.mem_map.mp member
    exact ⟨env, (mem_finals.mp final).mem, same⟩
  · intro given
    obtain ⟨env, member, rfl⟩ := given
    obtain ⟨final, last, node⟩ := exists_final member
    have same := steady final last.mem env member node
    rw [(countable final last.mem).subscript_ok, (countable env member).subscript_ok] at same
    have agree : isOk final = isOk env := by simpa using same
    exact List.mem_map.mpr ⟨final, mem_finals.mpr last, by rw [node, agree]⟩

structure QuorumCount.Agrees (first second : QuorumCount) : Prop where
  distinct : first.distinctVerifiers = second.distinctVerifiers
  pass : first.pass = second.pass
  fail : first.fail = second.fail
  passed : first.passed = second.passed

theorem tally_ballots (envelopes : List Json) : (tally (finals envelopes)).distinctVerifiers = (ballots envelopes).length ∧
    (tally (finals envelopes)).pass = ((ballots envelopes).filter Prod.snd).length ∧
    (tally (finals envelopes)).fail = ((ballots envelopes).filter (fun ballot => !ballot.2)).length := by
  refine ⟨(List.length_map _).symm, ?_, ?_⟩
  · rw [ballots, List.filter_map, List.length_map]
    rfl
  · rw [ballots, List.filter_map, List.length_map]
    rfl

theorem steady_agrees (countable : ∀ env ∈ envelopes, Countable env) (steady : Steady envelopes)
    (order : envelopes.Perm others) : (tally (finals envelopes)).Agrees (tally (finals others)) := by
  have countable' : ∀ env ∈ others, Countable env := fun env member => countable env (order.mem_iff.mpr member)
  have steady' : Steady others := fun env member other member' =>
    steady env (order.mem_iff.mpr member) other (order.mem_iff.mpr member')
  have same : (ballots envelopes).Perm (ballots others) := by
    refine (List.perm_ext_iff_of_nodup (nodup_ballots _) (nodup_ballots _)).mpr (fun ballot => ?_)
    rw [mem_ballots countable steady, mem_ballots countable' steady']
    simp only [order.mem_iff]
  obtain ⟨distinct, pass, fail⟩ := tally_ballots envelopes
  obtain ⟨distinct', pass', fail'⟩ := tally_ballots others
  have passes := pass.trans ((same.filter _).length_eq.trans pass'.symm)
  have fails := fail.trans ((same.filter _).length_eq.trans fail'.symm)
  refine ⟨distinct.trans (same.length_eq.trans distinct'.symm), passes, fails, ?_⟩
  simp only [tally] at passes fails ⊢
  rw [passes, fails]

end Count

/-- The count depends on the last envelope of each verifier only, and passes when there is one
and none of these says no; with verifiers that do not contradict themselves, no envelope does. -/
theorem quorum_counts_last {crypto : Crypto} {envelopes : List Json} (opened : ∀ env ∈ envelopes, Opened crypto env) :
    ∃ count, countQuorum envelopes = .ok count ∧
      (count.passed = true ↔ envelopes ≠ [] ∧
        ∀ env, IsFinal envelopes env → subscript env "ok" = .ok (.bool true)) ∧
      (∀ others, envelopes.Perm others → (∀ env, IsFinal envelopes env → IsFinal others env) →
        ∃ other, countQuorum others = .ok other ∧ count.Same other) ∧
      (Steady envelopes → (count.passed = true → ∀ env ∈ envelopes, subscript env "ok" = .ok (.bool true)) ∧
        ∀ others, envelopes.Perm others → ∃ other, countQuorum others = .ok other ∧ count.Agrees other) := by
  have countable : ∀ env ∈ envelopes, Countable env := fun env member => (opened env member).countable
  have answers {env : Json} (member : env ∈ envelopes) : isOk env = true ↔ subscript env "ok" = .ok (.bool true) := by
    rw [(countable env member).subscript_ok]
    simp
  refine ⟨_, countQuorum_ok countable, ?_, ?_, ?_⟩
  · rw [passed_finals]
    exact and_congr_right (fun _ => forall_congr' (fun env => forall_congr' (fun final => answers final.mem)))
  · intro others order keeps
    have countable' : ∀ env ∈ others, Countable env := fun env member => countable env (order.mem_iff.mpr member)
    exact ⟨_, countQuorum_ok countable', tally_perm (finals_perm order keeps)
      (fun env member => countable env (mem_finals.mp member).mem)⟩
  · intro steady
    constructor
    · intro passes env member
      exact (answers member).mp (((passed_steady countable steady).mp passes).2 env member)
    · intro others order
      have countable' : ∀ env ∈ others, Countable env := fun env member => countable env (order.mem_iff.mpr member)
      exact ⟨_, countQuorum_ok countable', steady_agrees countable steady order⟩

def requestNonced (nonce : Str) : Json :=
  match scoreRequest with
  | .obj fields => .obj (Dict.set fields "nonce" (.str nonce))
  | other => other

/-- What one verifier seals for a request of its own nonce. -/
def sealedAnswer (ok : Bool) (nonce : Str) : Json :=
  ((sealVerdict Crypto.sample {
    ok, reachable := [ok], minMargin := .zero, verifierFp := "fp-1", determinism := "attested" }
    (requestNonced nonce) (.sample 1)).toOption).getD .null

def openedAnswer (ok : Bool) (nonce : Str) (seen : NonceRegistry) : Py (Json × Option NonceRegistry) :=
  openVerdict Crypto.sample (sealedAnswer ok nonce) (requestNonced nonce)
    (.str (toHex ((SigningKey.sample 1).publicKey Crypto.sample))) (some seen)

theorem sealedAnswer_facts :
    (openedAnswer false "hex:aaaa1111" []).map Prod.fst = .ok (sealedAnswer false "hex:aaaa1111") ∧
      (openedAnswer true "hex:bbbb2222" [(verifierOf (sealedAnswer false "hex:aaaa1111"), .str "hex:aaaa1111")]).map
        Prod.fst = .ok (sealedAnswer true "hex:bbbb2222") ∧
      subscript (sealedAnswer false "hex:aaaa1111") "ok" = .ok (.bool false) ∧
      (countQuorum [sealedAnswer false "hex:aaaa1111", sealedAnswer true "hex:bbbb2222"]).map QuorumCount.passed =
        .ok true ∧
      (countQuorum [sealedAnswer true "hex:bbbb2222", sealedAnswer false "hex:aaaa1111"]).map QuorumCount.passed =
        .ok false := by
  decide +kernel

theorem opened_of_map {ok : Bool} {nonce : Str} {seen : NonceRegistry} {env : Json}
    (made : (openedAnswer ok nonce seen).map Prod.fst = .ok env) : Opened Crypto.sample env := by
  cases answer : openedAnswer ok nonce seen with
  | error e =>
    rw [answer] at made
    cases made
  | ok result =>
    rw [answer] at made
    obtain rfl := Except.ok.inj made
    exact ⟨_, _, _, _, result.2, answer⟩

theorem sealedAnswer_opened : Opened Crypto.sample (sealedAnswer false "hex:aaaa1111") ∧
    Opened Crypto.sample (sealedAnswer true "hex:bbbb2222") :=
  ⟨opened_of_map sealedAnswer_facts.1, opened_of_map sealedAnswer_facts.2.1⟩

theorem quorum_counts_last_sample : ∃ count,
    countQuorum [sealedAnswer false "hex:aaaa1111", sealedAnswer true "hex:bbbb2222"] = .ok count ∧
      (count.passed = true ↔ [sealedAnswer false "hex:aaaa1111", sealedAnswer true "hex:bbbb2222"] ≠ [] ∧
        ∀ env, IsFinal [sealedAnswer false "hex:aaaa1111", sealedAnswer true "hex:bbbb2222"] env →
          subscript env "ok" = .ok (.bool true)) := by
  obtain ⟨count, counted, passed, _⟩ := @quorum_counts_last Crypto.sample
    [sealedAnswer false "hex:aaaa1111", sealedAnswer true "hex:bbbb2222"] (by
      intro env member
      simp only [List.mem_cons, List.not_mem_nil, or_false] at member
      cases member with
      | inl first => exact first ▸ sealedAnswer_opened.1
      | inr second => exact second ▸ sealedAnswer_opened.2)
  exact ⟨count, counted, passed⟩

/-- A later yes of the same verifier hides its no, and the other order shows it. -/
theorem later_answer_hides_failure : ∃ no yes, Opened Crypto.sample no ∧ Opened Crypto.sample yes ∧
    subscript no "ok" = .ok (.bool false) ∧
      (countQuorum [no, yes]).map QuorumCount.passed = .ok true ∧
        (countQuorum [yes, no]).map QuorumCount.passed = .ok false := by
  obtain ⟨no, yes⟩ := sealedAnswer_opened
  exact ⟨_, _, no, yes, sealedAnswer_facts.2.2⟩

end JJDai
