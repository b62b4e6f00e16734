import JJDai.Knowledge.Witnessed

/-! What every reached store keeps for its readers: lines of succession, digests in
hex, and cards with bodies that were judged. -/

namespace JJDai.Knowledge

open PyText Canonical Transaction Transaction.Statements

variable {crypto : Crypto} {sqlite : Sqlite}

/-- The body of an envelope that a proposal's checks let through. -/
def Judged (env : Json) : Prop :=
  ∃ fields level confidence, subscript env "body" = .ok (.obj fields) ∧ level ∈ accessLevels ∧
    Dict.get? fields "access_policy" = some (.str level) ∧ Dict.get? fields "confidence" = some confidence

theorem oneOf_iff {names : List Str} {value : Json} : oneOf names value = true ↔ ∃ name ∈ names, value = .str name := by
  simp [oneOf]

theorem judged_of_verified {env : Json} {text : Option Str} {reason : Str}
    (passed : verifyWriteProposal crypto env text = .ok (true, reason)) : Judged env := by
  unfold verifyWriteProposal at passed
  cases parts : envelopeParts env with
  | error e =>
    rw [parts] at passed
    cases passed
  | ok found =>
    obtain ⟨body, pub, sig⟩ := found
    rw [parts] at passed
    simp only [bind, Py.bind_ok, guard_ok] at passed
    obtain ⟨kind, kindRead, _, _, _, _, _, _, _, level, levelRead, known, confidence, confidenceRead, inside, _⟩ := passed
    simp only [envelopeParts, bind, Py.bind_ok, pure, Except.pure, Except.ok.injEq, Prod.mk.injEq] at parts
    obtain ⟨read, bodyRead, _, _, _, _, _, _, _, _, same, _, _⟩ := parts
    subst same
    cases read with
    | obj fields =>
      obtain rfl := Except.ok.inj levelRead
      obtain rfl := Except.ok.inj confidenceRead
      have known : oneOf accessLevels ((Dict.get? fields "access_policy").getD .null) = true := by simpa using known
      obtain ⟨name, listed, same⟩ := oneOf_iff.mp known
      have held : Dict.get? fields "access_policy" = some (.str name) := by
        cases found : Dict.get? fields "access_policy" with
        | none =>
          rw [found] at same
          cases same
        | some value =>
          rw [found] at same
          exact congrArg some same
      cases found : Dict.get? fields "confidence" with
      | none =>
        rw [found] at inside
        exact absurd rfl inside
      | some value => exact ⟨fields, name, value, bodyRead, listed, held, found⟩
    | _ => cases kindRead

theorem judged_of_admitted {policy : WritePolicy} {env : Json} {text : Option Str} {admitted : Admitted}
    (passed : admitWrite crypto policy env text = .ok admitted) : Judged env := by
  simp only [admitWrite, bind, Py.bind_ok, Py.unless_ok] at passed
  obtain ⟨⟨ok, reason⟩, verified, accepted, _⟩ := passed
  obtain rfl : ok = true := by simpa using accepted
  exact judged_of_verified verified

theorem judged_of_applied {W : Type} {chain : Witness W} {plane : PlaneH W} {env : Json} {text : Option Str}
    {faults : List (Option PyErr)} {applied : Applied}
    (done : (plane.apply crypto sqlite chain env text faults).1 = .ok applied) : Judged env := by
  unfold PlaneH.apply at done
  cases passed : admitWrite crypto plane.policy env text with
  | error e =>
    rw [passed] at done
    cases done
  | ok admitted => exact judged_of_admitted passed

theorem envelopes_write {admitted : Admitted} {env : Json} {text : Option Str} {before after : Tables} {applied : Applied}
    (done : Yields (write crypto sqlite admitted env text) before applied after) :
    ∀ row ∈ after.chunkMeta, row.envelope = env ∨ ∃ old ∈ before.chunkMeta, row.envelope = old.envelope := by
  have changed {tables : Tables} {id : Int} {change : Meta → Meta} {row : Meta}
      (member : row ∈ (tables.changed id change).chunkMeta) (keeps : ∀ row, (change row).envelope = row.envelope) :
      ∃ old ∈ tables.chunkMeta, row.envelope = old.envelope := by
    obtain ⟨old, inside, rfl⟩ := List.mem_map.mp member
    refine ⟨old, inside, ?_⟩
    split
    · exact keeps old
    · rfl
  unfold write at done
  by_cases added : admitted.op = .str "add"
  · rw [if_pos added] at done
    obtain ⟨_, _, _, chunk, new, _, _, _, _, _, _, _, signed, _, rfl⟩ := yields_applyAdd done
    intro row member
    rcases List.mem_append.mp member with old | last
    · exact .inr ⟨row, old, rfl⟩
    · rw [List.mem_singleton.mp last]
      exact .inl signed
  · rw [if_neg added] at done
    by_cases superseded : admitted.op = .str "supersede"
    · rw [if_pos superseded] at done
      obtain ⟨_, _, _, _, _, _, chunk, new, _, _, _, _, _, _, _, _, _, signed, _, rfl⟩ := yields_applySupersede done
      intro row member
      obtain ⟨old, inside, same⟩ := changed member (fun _ => rfl)
      rcases List.mem_append.mp inside with there | last
      · exact .inr ⟨old, there, same⟩
      · rw [List.mem_singleton.mp last] at same
        exact .inl (same.trans signed)
    · rw [if_neg superseded] at done
      obtain ⟨_, told, card, _, rfl⟩ := yields_applyRedact done
      intro row member
      exact .inr (changed member (fun _ => rfl))

/-- Lines of succession, digests in hex, ids from 1 on, and bodies that were judged. -/
structure Kept (tables : Tables) : Prop where
  line : Lineage tables
  hashes : ∀ chunk ∈ tables.chunks, ∃ digest : Bytes, chunk.hash = toHex digest
  positive : ∀ chunk ∈ tables.chunks, 0 < chunk.id
  bodies : ∀ row ∈ tables.chunkMeta, Judged row.envelope

theorem kept_empty : Kept {} where
  line := lineage_empty
  hashes := by simp
  positive := by simp
  bodies := by simp

theorem nextId_pos (tables : Tables) : 0 < tables.nextId := by
  have above : ∀ ids : List Int, 0 ≤ ids.foldr max 0 := by
    intro ids
    induction ids with
    | nil => exact le_refl _
    | cons id rest ih => exact ih.trans (le_max_right _ _)
  exact Int.lt_add_one_of_le (above _)

theorem sha256Text_hex {text : Option Str} {hash : Str} (hashed : sha256Text crypto text = .ok hash) :
    ∃ digest : Bytes, hash = toHex digest := by
  cases text with
  | none => cases hashed
  | some text =>
    obtain ⟨encoded, _, made⟩ := Py.bind_ok.mp hashed
    exact ⟨_, (Except.ok.inj made).symm⟩

theorem kept_operate {admitted : Admitted} {env : Json} {text : Option Str} {before after : Tables} {applied : Applied}
    (kept : Kept before) (vetted : Vetted crypto text admitted) (judged : Judged env)
    (done : Yields (operate crypto sqlite admitted env text) before applied after) : Kept after := by
  have effect := effect_operate kept.line vetted done
  obtain ⟨made, middle, written, rest⟩ := yields_bind done
  obtain ⟨root, _, rest⟩ := yields_bind_readOnly (readOnly_merkleRoot _) rest
  obtain ⟨_, rfl⟩ := yields_pure rest
  refine ⟨effect.line, ?_, ?_, ?_⟩
  · rcases effect.chunks with ⟨_, _, hash, new, _, hashed, inserted, _, grown⟩ | ⟨_, id, cleared⟩
    · intro chunk member
      rcases List.mem_append.mp (grown ▸ member) with old | last
      · exact kept.hashes chunk old
      · rw [List.mem_singleton.mp last, inserted.hash]
        exact sha256Text_hex hashed
    · intro chunk member
      obtain ⟨old, inside, rfl⟩ := List.mem_map.mp (cleared ▸ member)
      split <;> exact kept.hashes old inside
  · rcases effect.chunks with ⟨_, _, hash, new, _, hashed, inserted, _, grown⟩ | ⟨_, id, cleared⟩
    · intro chunk member
      rcases List.mem_append.mp (grown ▸ member) with old | last
      · exact kept.positive chunk old
      · rw [List.mem_singleton.mp last, inserted.id]
        exact nextId_pos before
    · intro chunk member
      obtain ⟨old, inside, rfl⟩ := List.mem_map.mp (cleared ▸ member)
      split <;> exact kept.positive old inside
  · intro row member
    rcases envelopes_write written row member with signed | ⟨old, inside, same⟩
    · exact signed ▸ judged
    · exact same ▸ kept.bodies old inside

/-- A plane over a new store, with a witness or without. -/
def PlaneH.created {W : Type} (witness : Option W) (governorNode : Json) : PlaneH W where
  db := { committed := {}, current := {} }
  policy := {}
  witness := witness
  governorNode := governorNode

/-- Every run of grants, revocations and writes leaves such a store, with no transaction open. -/
theorem kept_run {W : Type} {chain : Witness W} (witness : Option W) (governorNode : Json) (moves : List Move) :
    let plane := Run.run (PlaneH.move crypto sqlite chain) (PlaneH.created witness governorNode) moves
    plane.db.current = plane.db.committed ∧ Kept plane.db.committed := by
  have step (plane : PlaneH W) (move : Move) (held : plane.db.current = plane.db.committed ∧ Kept plane.db.committed)
      (_ : True) : (PlaneH.move crypto sqlite chain plane move).db.current =
        (PlaneH.move crypto sqlite chain plane move).db.committed ∧
          Kept (PlaneH.move crypto sqlite chain plane move).db.committed := by
    obtain ⟨open_, kept⟩ := held
    cases move with
    | grant ns author granted => exact ⟨open_, kept⟩
    | revoke ns author revoked => exact ⟨open_, kept⟩
    | apply env text faults =>
      simp only [PlaneH.move]
      generalize answered : plane.apply crypto sqlite chain env text faults = answer
      have ended : Ended crypto sqlite chain plane env text answer := answered ▸ apply_ended plane env text faults
      cases ended with
      | refused e => exact ⟨open_, kept⟩
      | failed committed closed same => exact ⟨closed, committed.symm ▸ kept⟩
      | done body vetted made closed said =>
        have judged : Judged env := judged_of_applied (congrArg Prod.fst answered)
        rw [open_] at made
        exact ⟨closed, kept_operate kept vetted judged made⟩
  exact @Run.invariant_of_forall _ _ _ _ _ (fun _ => True) step moves ⟨rfl, kept_empty⟩ (fun _ _ => trivial)

end JJDai.Knowledge
