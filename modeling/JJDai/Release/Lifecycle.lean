import JJDai.Primitive.VerifiedRecord
import JJDai.Release.Statement

/-! `jjdai.release`: the lifecycle of keys, resolved in the witness chain. -/

namespace JJDai.Release

open PyText Canonical Provenance Replication

def kindKeyActivated : Str := "KEY_ACTIVATED"

def kindKeyRevoked : Str := "KEY_REVOKED"

def kindReleaseRevoked : Str := "RELEASE_REVOKED"

variable (crypto : Crypto)

/-- The digest that a record of a key's transition binds. -/
def keyLifecycleDigest (keyId : Json) (transition : Str) (publicHex : Json) : Py Str := do
  if transition ≠ "activated" ∧ transition ≠ "revoked" then raise .valueError transition
  prefixedHash crypto prefixKeyLifecycle
    (.obj [("key_id", keyId), ("transition", .str transition), ("public", publicHex)])

/-- The word for a kind of lifecycle record. -/
def transitionOf (kind : Json) : Option Str :=
  if kind = .str kindKeyActivated then some "activated"
  else if kind = .str kindKeyRevoked then some "revoked"
  else none

/-- The transition of a key that one record witnesses, and its position. -/
def transitionAt (key : RegisteredKey) (record : Json) : Py (Option (Str × Int)) := do
  let kind ← dotGet record "kind"
  match transitionOf kind with
  | none => return none
  | some transition => do
    let want ← keyLifecycleDigest crypto key.keyId transition key.publicHex
    if (← dotGet record "semantic_digest") ≠ .str want then return none
    let index ← pyInt (← subscript record "index")
    return some (transition, index)

/-- `lifecycle_projection`: the transitions of a key in the order of the chain. -/
def lifecycleProjection (key : RegisteredKey) : List Json → Py (List (Str × Int))
  | [] => return []
  | record :: rest => do
    let found ← transitionAt crypto key record
    let later ← lifecycleProjection key rest
    return found.toList ++ later

def positionsOf (transition : Str) (found : List (Str × Int)) : List Int :=
  (found.filter (fun entry => entry.1 = transition)).map Prod.snd

def recordAt (records : List Json) (position : Json) : Py Json := do
  let i ← pyInt position
  atIndex records i

/-- `except (TypeError, ValueError, IndexError)`. -/
def lookupFails (e : PyErr) : Bool := e.kind = .typeError ∨ e.kind = .indexError ∨ e.isValueError

/-- The record at a declared position names the key and the transition. -/
def checkPosition (records : List Json) (key : RegisteredKey) (position : Json) (kind transition : Str) : Py Unit :=
  if position = .null then return ()
  else
    match recordAt records position with
    | .error e =>
      if lookupFails e then
        raise (.releaseError "REL_LIFECYCLE_UNWITNESSED") ("key " ++ reprJson key.keyId ++ " declares " ++ kind ++
          " at witness position " ++ reprJson position ++ " and no record sits there. A position that resolves to " ++
          "nothing is a number in a file, and a number in a file is an assertion")
      else .error e
    | .ok record => do
      let named ← dotGet record "kind"
      if named ≠ .str kind then
        raise (.releaseError "REL_LIFECYCLE_UNWITNESSED") ("key " ++ reprJson key.keyId ++ " declares " ++ kind ++
          " at " ++ pyStr position ++ ", and the record there is a " ++ reprJson named ++ ". Six INFER records do " ++
          "not witness an activation, whatever index they happen to occupy")
      let want ← keyLifecycleDigest crypto key.keyId transition key.publicHex
      if (← dotGet record "semantic_digest") ≠ .str want then
        raise (.releaseError "REL_LIFECYCLE_UNWITNESSED") ("the " ++ kind ++ " record at " ++ pyStr position ++
          " does not name key " ++ reprJson key.keyId ++ " with this public key and this transition. A lifecycle " ++
          "record witnesses ONE key's ONE transition, and this one witnesses something else")

/-- The first witnessed position of a transition is the declared one. -/
def checkComplete (key : RegisteredKey) (transition : Str) (declared : Json) (positions : List Int) : Py Unit :=
  match positions with
  | [] => return ()
  | first :: _ => do
    if declared = .null then
      raise (.releaseError "REL_LIFECYCLE_HIDDEN") ("the chain witnesses key " ++ reprJson key.keyId ++ " " ++
        transition ++ " at position " ++ intText first ++ " and the registry declares no " ++ transition ++
        " at all. A registry does not get to forget a transition the chain remembers")
    if (← pyInt declared) ≠ first then
      raise (.releaseError "REL_LIFECYCLE_HIDDEN") ("key " ++ reprJson key.keyId ++ " was first " ++ transition ++
        " at position " ++ intText first ++ " and the registry declares " ++ pyStr declared ++ ". The earliest " ++
        "witnessed transition is the one that counts; a later one cannot be presented in its place")

/-- One turn of the loop of `check_lifecycle_witnessed`. -/
def checkKeyWitnessed (records : List Json) (key : RegisteredKey) : Py Unit := do
  checkPosition crypto records key (.int key.activated) kindKeyActivated "activated"
  checkPosition crypto records key key.revoked kindKeyRevoked "revoked"
  let found ← lifecycleProjection crypto key records
  checkComplete key "activated" (.int key.activated) (positionsOf "activated" found)
  checkComplete key "revoked" key.revoked (positionsOf "revoked" found)

def checkLifecycleWitnessed (records : List Json) : Registry → Py Unit
  | [] => return ()
  | (_, key) :: rest => do
    checkKeyWitnessed crypto records key
    checkLifecycleWitnessed records rest

variable {crypto} {records : List Json} {key : RegisteredKey}

theorem checkLifecycleWitnessed_ok {registry : Registry} :
    checkLifecycleWitnessed crypto records registry = .ok () ↔
      ∀ entry ∈ registry, checkKeyWitnessed crypto records entry.2 = .ok () := by
  induction registry with
  | nil => simp [checkLifecycleWitnessed, pure, Except.pure]
  | cons entry rest ih =>
    simp only [checkLifecycleWitnessed, bind, Py.bind_ok, ih, List.mem_cons, forall_eq_or_imp]
    constructor
    · rintro ⟨_, first, later⟩
      exact ⟨first, later⟩
    · rintro ⟨first, later⟩
      exact ⟨(), first, later⟩

theorem mem_lifecycleProjection {found : List (Str × Int)} (made : lifecycleProjection crypto key records = .ok found)
    {entry : Str × Int} : entry ∈ found ↔ ∃ record ∈ records, transitionAt crypto key record = .ok (some entry) := by
  induction records generalizing found with
  | nil =>
    obtain rfl := Except.ok.inj made
    simp
  | cons record rest ih =>
    simp only [lifecycleProjection, bind, Py.bind_ok] at made
    obtain ⟨here, read, later, projected, made⟩ := made
    obtain rfl := Except.ok.inj made
    rw [List.mem_append, ih projected]
    constructor
    · rintro (now | ⟨other, member, witnessed⟩)
      · rw [Option.mem_toList] at now
        exact ⟨record, List.mem_cons_self, by rw [read, Option.mem_def.mp now]⟩
      · exact ⟨other, List.mem_cons_of_mem _ member, witnessed⟩
    · rintro ⟨other, member, witnessed⟩
      rcases List.mem_cons.mp member with rfl | inside
      · rw [witnessed] at read
        obtain rfl := Except.ok.inj read
        exact .inl (by simp)
      · exact .inr ⟨other, inside, witnessed⟩

theorem mem_positionsOf {found : List (Str × Int)} {transition : Str} {position : Int} :
    position ∈ positionsOf transition found ↔ (transition, position) ∈ found := by
  simp only [positionsOf, List.mem_map, List.mem_filter, decide_eq_true_eq]
  constructor
  · rintro ⟨⟨_, _⟩, ⟨member, rfl⟩, rfl⟩
    exact member
  · intro member
    exact ⟨_, ⟨member, rfl⟩, rfl⟩

theorem transitionAt_named {record : Json} {kind transition want : Str} {index : Json} {position : Int}
    (word : transitionOf (.str kind) = some transition) (named : dotGet record "kind" = .ok (.str kind))
    (digest : keyLifecycleDigest crypto key.keyId transition key.publicHex = .ok want)
    (bound : dotGet record "semantic_digest" = .ok (.str want)) (numbered : subscript record "index" = .ok index)
    (counted : pyInt index = .ok position) : transitionAt crypto key record = .ok (some (transition, position)) := by
  simp [transitionAt, named, word, digest, bound, numbered, counted, bind, Except.bind, pure, Except.pure]

theorem transitionAt_ok {record : Json} {transition : Str} {position : Int}
    (witnessed : transitionAt crypto key record = .ok (some (transition, position))) :
    ∃ kind index, dotGet record "kind" = .ok kind ∧ transitionOf kind = some transition ∧
      subscript record "index" = .ok index ∧ pyInt index = .ok position := by
  simp only [transitionAt, bind, Py.bind_ok] at witnessed
  obtain ⟨kind, named, witnessed⟩ := witnessed
  cases word : transitionOf kind with
  | none =>
    simp only [word] at witnessed
    cases witnessed
  | some other =>
    simp only [word, Py.bind_ok] at witnessed
    obtain ⟨want, _, digest, _, witnessed⟩ := witnessed
    split at witnessed
    · cases witnessed
    · simp only [Py.bind_ok] at witnessed
      obtain ⟨index, numbered, counted, read, made⟩ := witnessed
      obtain ⟨rfl, rfl⟩ := Prod.mk.inj (Option.some.inj (Except.ok.inj made))
      exact ⟨kind, index, named, word, numbered, read⟩

theorem checkPosition_ok {position : Json} {kind transition : Str}
    (passed : checkPosition crypto records key position kind transition = .ok ()) (declared : position ≠ .null) :
    ∃ record want, recordAt records position = .ok record ∧ dotGet record "kind" = .ok (.str kind) ∧
      keyLifecycleDigest crypto key.keyId transition key.publicHex = .ok want ∧
      dotGet record "semantic_digest" = .ok (.str want) := by
  rw [checkPosition, if_neg declared] at passed
  cases found : recordAt records position with
  | error e =>
    simp only [found] at passed
    split at passed <;> cases passed
  | ok record =>
    simp only [found, bind, Py.bind_ok, Py.unless_ok, not_not] at passed
    obtain ⟨_, named, rfl, want, digest, _, bound, same⟩ := passed
    split at same
    · cases same
    · rename_i equal
      exact ⟨record, want, rfl, named, digest, bound.trans (congrArg Except.ok (not_not.mp equal))⟩

theorem mem_of_atIndex {items : List α} {i : Int} {item : α} (found : atIndex items i = .ok item) : item ∈ items := by
  simp only [atIndex] at found
  generalize (if i < 0 then i + items.length else i) = position at found
  split at found
  · cases found
  · split at found
    · rename_i here
      obtain rfl := Except.ok.inj found
      exact List.mem_of_getElem? here
    · cases found

theorem mem_of_recordAt {position record : Json} (found : recordAt records position = .ok record) : record ∈ records := by
  simp only [recordAt, bind, Py.bind_ok] at found
  obtain ⟨i, _, here⟩ := found
  exact mem_of_atIndex here

theorem index_of_verified {pub : Bytes} (verified : WitnessChain.verifyLoop crypto pub 0 (.str genesis) records = .ok true)
    {j : Nat} {record : Json} (here : records[j]? = some record) :
    ∃ index, subscript record "index" = .ok index ∧ pyInt index = .ok (j : Int) := by
  obtain ⟨fields, hash, before, rfl, signed⟩ := WitnessChain.signed_at verified here
  obtain ⟨index, found, same⟩ := signed.index
  rw [Nat.zero_add] at same
  exact ⟨index, subscript_obj.mpr found, pyInt_of_pyEq same⟩

/-- A transition of a key: the word, the kind of its record, and what the registry declares. -/
structure Declared (key : RegisteredKey) (transition kind : Str) (declared : Json) : Prop where
  word : transitionOf (.str kind) = some transition
  position : ∀ crypto records, checkKeyWitnessed crypto records key = .ok () →
    checkPosition crypto records key declared kind transition = .ok ()
  complete : ∀ crypto records, checkKeyWitnessed crypto records key = .ok () →
    ∃ found, lifecycleProjection crypto key records = .ok found ∧
      checkComplete key transition declared (positionsOf transition found) = .ok ()

theorem declared_activated (key : RegisteredKey) : Declared key "activated" kindKeyActivated (.int key.activated) where
  word := by decide
  position crypto records passed := by
    simp only [checkKeyWitnessed, bind, Py.bind_ok] at passed
    obtain ⟨_, position, _⟩ := passed
    exact position
  complete crypto records passed := by
    simp only [checkKeyWitnessed, bind, Py.bind_ok] at passed
    obtain ⟨_, _, _, _, found, projected, _, complete, _⟩ := passed
    exact ⟨found, projected, complete⟩

theorem declared_revoked (key : RegisteredKey) : Declared key "revoked" kindKeyRevoked key.revoked where
  word := by decide
  position crypto records passed := by
    simp only [checkKeyWitnessed, bind, Py.bind_ok] at passed
    obtain ⟨_, _, _, position, _⟩ := passed
    exact position
  complete crypto records passed := by
    simp only [checkKeyWitnessed, bind, Py.bind_ok] at passed
    obtain ⟨_, _, _, _, found, projected, _, _, complete⟩ := passed
    exact ⟨found, projected, complete⟩

theorem declared_at {pub : Bytes} {transition kind : Str} {declared : Json} (about : Declared key transition kind declared)
    (verified : WitnessChain.verifyLoop crypto pub 0 (.str genesis) records = .ok true)
    (passed : checkKeyWitnessed crypto records key = .ok ()) (given : declared ≠ .null) :
    ∃ (j : Nat) (record : Json), pyInt declared = .ok (j : Int) ∧ records[j]? = some record ∧
      transitionAt crypto key record = .ok (some (transition, (j : Int))) := by
  obtain ⟨record, want, found, named, digest, bound⟩ := checkPosition_ok (about.position _ _ passed) given
  obtain ⟨place, here⟩ := List.getElem?_of_mem (mem_of_recordAt found)
  obtain ⟨index, numbered, counted⟩ := index_of_verified verified here
  have witnessed := transitionAt_named about.word named digest bound numbered counted
  obtain ⟨all, projected, complete⟩ := about.complete _ _ passed
  have listed : (place : Int) ∈ positionsOf transition all :=
    mem_positionsOf.mpr ((mem_lifecycleProjection projected).mpr ⟨record, List.mem_of_getElem? here, witnessed⟩)
  cases positions : positionsOf transition all with
  | nil =>
    rw [positions] at listed
    cases listed
  | cons first rest =>
    simp only [positions, checkComplete, bind, Py.bind_ok, Py.unless_ok] at complete
    obtain ⟨_, declaredAt, read, same⟩ := complete
    obtain rfl : declaredAt = first := by
      by_contra differ
      simp [differ, raise] at same
    have member : (transition, declaredAt) ∈ all := mem_positionsOf.mp (by rw [positions]; exact List.mem_cons_self)
    obtain ⟨other, inside, witnessed'⟩ := (mem_lifecycleProjection projected).mp member
    obtain ⟨place', here'⟩ := List.getElem?_of_mem inside
    obtain ⟨_, index', _, _, numbered', counted'⟩ := transitionAt_ok witnessed'
    obtain ⟨index'', read'', counted''⟩ := index_of_verified verified here'
    obtain rfl := Except.ok.inj (numbered'.symm.trans read'')
    obtain rfl := Except.ok.inj (counted'.symm.trans counted'')
    exact ⟨place', other, read, here', witnessed'⟩

theorem activated_nonneg {pub : Bytes}
    (verified : WitnessChain.verifyLoop crypto pub 0 (.str genesis) records = .ok true)
    (passed : checkKeyWitnessed crypto records key = .ok ()) : 0 ≤ key.activated := by
  obtain ⟨j, _, read, _⟩ := declared_at (declared_activated key) verified passed (by simp)
  rw [Except.ok.inj read]
  exact Int.natCast_nonneg j

theorem no_revocation (passed : checkKeyWitnessed crypto records key = .ok ()) (absent : key.revoked = .null)
    {record : Json} (member : record ∈ records) {position : Int} :
    transitionAt crypto key record ≠ .ok (some ("revoked", position)) := by
  intro witnessed
  obtain ⟨found, projected, complete⟩ := (declared_revoked key).complete _ _ passed
  have listed : position ∈ positionsOf "revoked" found :=
    mem_positionsOf.mpr ((mem_lifecycleProjection projected).mpr ⟨record, member, witnessed⟩)
  cases positions : positionsOf "revoked" found with
  | nil =>
    rw [positions] at listed
    cases listed
  | cons first rest =>
    simp only [positions, absent, checkComplete, bind] at complete
    cases complete

end JJDai.Release
