import JJDai.Kernel.MemoryTransport
import JJDai.Primitive.CanonicalUnique

/-! Bundles put together from the records of an honest memory: when the only ones
that import are its own beginnings. -/

namespace JJDai.Smriti

open PyText Canonical WitnessChain

variable {crypto : Crypto} {organ : Organ}

/-- Blocks that differ at most in how their limit is spelled. -/
structure SameBlock (a b : CoreBlock) : Prop where
  label : a.label = b.label
  value : a.value = b.value
  text : ∃ s, b.value = .str s
  charLimit : serialize a.charLimit = serialize b.charLimit

structure SameEpisode (a b : Episode) : Prop where
  ts : serialize a.ts = serialize b.ts
  role : a.role = b.role
  text : a.text = b.text

/-- Memories that differ at most in how their numbers are spelled. -/
structure Alike (a b : Memory) : Prop where
  core : List.Forall₂ (fun x y => x.1 = y.1 ∧ SameBlock x.2 y.2) a.core b.core
  unique : (Dict.keys b.core).Nodup
  episodes : List.Forall₂ SameEpisode a.episodes b.episodes

theorem serialize_congr {fields others : Dict Str Json}
    (same : List.Forall₂ (fun x y => x.1 = y.1 ∧ serialize x.2 = serialize y.2) fields others) :
    serialize (.obj fields) = serialize (.obj others) := by
  have texts : serializeFields fields = serializeFields others := by
    rw [serializeFields_eq, serializeFields_eq]
    induction same with
    | nil => rfl
    | cons first _ ih => rw [List.map_cons, List.map_cons, first.1, first.2, ih]
  rw [serialize, serialize, texts]

theorem SameBlock.asDict {a b : CoreBlock} (same : SameBlock a b) : serialize a.asDict = serialize b.asDict := by
  refine serialize_congr ?_
  rw [same.label, same.value]
  exact .cons ⟨rfl, rfl⟩ (.cons ⟨rfl, rfl⟩ (.cons ⟨rfl, same.charLimit⟩ .nil))

theorem SameEpisode.asDict {a b : Episode} (same : SameEpisode a b) : serialize a.asDict = serialize b.asDict := by
  refine serialize_congr ?_
  rw [same.role, same.text]
  exact .cons ⟨rfl, same.ts⟩ (.cons ⟨rfl, rfl⟩ (.cons ⟨rfl, rfl⟩ .nil))

theorem canonical_congr {a b : Json} (same : serialize a = serialize b) : canonical a = canonical b := by
  rw [canonical, canonical, same]

theorem recallHead_alike {a b : List Episode} (same : List.Forall₂ SameEpisode a b) :
    recallHead crypto a = recallHead crypto b := by
  unfold recallHead
  generalize genesis = head
  induction same generalizing head with
  | nil => rfl
  | @cons e f a b first _ ih =>
    have link : canonical (.obj [("prev", .str head), ("ep", e.asDict)]) =
        canonical (.obj [("prev", .str head), ("ep", f.asDict)]) :=
      canonical_congr (serialize_congr (.cons ⟨rfl, rfl⟩ (.cons ⟨rfl, first.asDict⟩ .nil)))
    simp only [List.foldlM_cons, link, ih]

theorem coreDict_alike {a b : Dict Str CoreBlock}
    (same : List.Forall₂ (fun x y => x.1 = y.1 ∧ SameBlock x.2 y.2) a b) (unique : (Dict.keys b).Nodup) :
    serialize (.obj (coreDict a)) = serialize (.obj (coreDict b)) := by
  have keys : Dict.keys a = Dict.keys b := by
    clear unique
    induction same with
    | nil => rfl
    | cons first _ ih => simp only [Dict.keys, List.map_cons, first.1] at ih ⊢; rw [ih]
  have apart (core : Dict Str CoreBlock) (unique : (Dict.keys core).Nodup) :
      (Dict.keys (core.map (fun entry => (entry.1, entry.2.asDict)))).Nodup := by
    rw [Dict.keys, List.map_map]
    exact unique
  rw [coreDict, coreDict, ← serialize_perm (Json.sortEntries_perm _).symm (apart a (keys ▸ unique)),
    ← serialize_perm (Json.sortEntries_perm _).symm (apart b unique)]
  refine serialize_congr ?_
  rw [List.forall₂_map_left_iff, List.forall₂_map_right_iff]
  exact same.imp (fun _ _ pair => ⟨pair.1, pair.2.asDict⟩)

theorem stateHash_alike {a b : Memory} (alike : Alike a b) (being : Str) (root : Option Str) :
    stateHash crypto being root a = stateHash crypto being root b := by
  have state (head : Str) : canonical (.obj [("being_id", .str being), ("core", .obj (coreDict a.core)),
      ("recall_head", .str head), ("archival_root", rootField root)]) =
        canonical (.obj [("being_id", .str being), ("core", .obj (coreDict b.core)), ("recall_head", .str head),
          ("archival_root", rootField root)]) :=
    canonical_congr (serialize_congr (.cons ⟨rfl, rfl⟩ (.cons ⟨rfl, coreDict_alike alike.core alike.unique⟩
      (.cons ⟨rfl, rfl⟩ (.cons ⟨rfl, rfl⟩ .nil)))))
  simp only [stateHash, recallHead_alike alike.episodes, state]

theorem Alike.get {a b : Memory} (alike : Alike a b) (label : Str) :
    (Dict.get? a.core label = none ∧ Dict.get? b.core label = none) ∨
      ∃ x y, Dict.get? a.core label = some x ∧ Dict.get? b.core label = some y ∧ SameBlock x y := by
  have pairs := alike.core
  generalize a.core = front at pairs
  generalize b.core = back at pairs
  induction pairs with
  | nil => exact .inl ⟨rfl, rfl⟩
  | @cons x y _ _ first _ ih =>
    obtain ⟨name, block⟩ := x
    obtain ⟨other, block'⟩ := y
    obtain ⟨rfl, same⟩ := first
    by_cases here : name = label
    · exact .inr ⟨block, block', by simp [Dict.get?, here], by simp [Dict.get?, here], same⟩
    · simpa [Dict.get?, here] using ih

theorem set_alike {front back : Dict Str CoreBlock} {x y : CoreBlock} (label : Str)
    (same : List.Forall₂ (fun x y => x.1 = y.1 ∧ SameBlock x.2 y.2) front back) (block : SameBlock x y) :
    List.Forall₂ (fun x y => x.1 = y.1 ∧ SameBlock x.2 y.2) (Dict.set front label x) (Dict.set back label y) := by
  induction same with
  | nil => exact .cons ⟨rfl, block⟩ .nil
  | @cons u v _ _ first rest ih =>
    obtain ⟨name, held⟩ := u
    obtain ⟨other, held'⟩ := v
    obtain ⟨rfl, same⟩ := first
    by_cases here : name = label
    · simpa [Dict.set, here] using ⟨block, rest⟩
    · simpa [Dict.set, here] using ⟨same, ih⟩

theorem field_of_text {fields others : Dict Str Json} {key : Str} {value : Json}
    (same : (Dict.get? fields key).map serialize = (Dict.get? others key).map serialize)
    (held : Dict.get? others key = some value) :
    ∃ found, Dict.get? fields key = some found ∧ serialize found = serialize value := by
  rw [held] at same
  exact Option.map_eq_some_iff.mp same

theorem text_of_text {fields others : Dict Str Json} {key s : Str}
    (same : (Dict.get? fields key).map serialize = (Dict.get? others key).map serialize)
    (held : Dict.get? others key = some (.str s)) : subscript (.obj fields) key = .ok (.str s) := by
  obtain ⟨found, read, text⟩ := field_of_text same held
  rw [subscript_obj, read, str_of_serialize text]

theorem appendedValue_str {op : Json} {addition : Str} (s : Str) (read : subscript op "addition" = .ok (.str addition)) :
    appendedValue (.str s) op = .ok (.str (if truthy (.str s) then s ++ "\n" ++ addition else addition)) := by
  unfold appendedValue
  split
  · simp only [concat, read, bind, Except.bind]
    rfl
  · exact read

theorem apply_append {memory : Memory} {op : Json} {label addition s : Str}
    (kind : subscript op "op" = .ok (.str "core_append")) (named : subscript op "label" = .ok (.str label))
    (added : subscript op "addition" = .ok (.str addition))
    (held : ((Dict.get? memory.core label).getD { label }).value = .str s) :
    memory.apply op = .ok { memory with
      core := Dict.set memory.core label { (Dict.get? memory.core label).getD { label } with
        value := .str (if truthy (.str s) then s ++ "\n" ++ addition else addition) }
      events := memory.events ++ [op] } := by
  have notSet : Json.str "core_append" ≠ .str "core_set" := by decide +kernel
  simp only [Memory.apply, kind, notSet, if_false, if_true, named, asLabel, held, appendedValue_str s added,
    bind, Except.bind, pure, Except.pure]

theorem apply_alike {a b later memory : Memory} {t : PyFloat} {call : Call} {op o : Json} {text : Str}
    (alike : Alike a b) (asked : memory.request t call = .ok o) (sound : op.valid) (first : serialize op = .ok text)
    (second : serialize o = .ok text) (applied : a.apply op = .ok later) :
    ∃ after, b.apply o = .ok after ∧ Alike later after := by
  cases call with
  | coreSet label value charLimit =>
    simp only [Memory.request, bind, Py.unless_ok] at asked
    obtain ⟨_, asked⟩ := asked
    obtain rfl := Except.ok.inj asked
    obtain ⟨fields, rfl⟩ := obj_of_serialize first second
    have read := fields_unique (Json.valid_obj.mp sound).1 (by simp only [Dict.keys, List.map_cons, List.map_nil]; decide +kernel)
      first second
    have kind := text_of_text (read "op") rfl
    have named := text_of_text (read "label") rfl
    have held := text_of_text (read "value") rfl
    obtain ⟨limit, limitRead, spelled⟩ := field_of_text (read "char_limit") rfl
    simp only [Memory.apply, kind, named, held, subscript_obj.mpr limitRead, asLabel, bind, Except.bind, pure,
      Except.pure, if_true] at applied
    obtain rfl := Except.ok.inj applied
    exact ⟨_, rfl, {
      core := set_alike label alike.core ⟨rfl, rfl, ⟨value, rfl⟩, spelled⟩
      unique := Dict.nodup_set alike.unique _ _
      episodes := alike.episodes }⟩
  | coreAppend label addition =>
    simp only [Memory.request, bind, Py.bind_ok] at asked
    obtain ⟨_, _, _, _, asked⟩ := asked
    simp only [Py.unless_ok] at asked
    obtain ⟨_, asked⟩ := asked
    obtain rfl := Except.ok.inj asked
    obtain ⟨fields, rfl⟩ := obj_of_serialize first second
    have read := fields_unique (Json.valid_obj.mp sound).1 (by simp only [Dict.keys, List.map_cons, List.map_nil]; decide +kernel)
      first second
    have kind := text_of_text (read "op") rfl
    have named := text_of_text (read "label") rfl
    have added := text_of_text (read "addition") rfl
    have blocks : SameBlock ((Dict.get? a.core label).getD { label }) ((Dict.get? b.core label).getD { label }) := by
      rcases alike.get label with ⟨absent, absent'⟩ | ⟨x, y, found, found', same⟩
      · rw [absent, absent']
        exact ⟨rfl, rfl, ⟨[], rfl⟩, rfl⟩
      · rw [found, found']
        exact same
    obtain ⟨s, held⟩ := blocks.text
    obtain rfl := Except.ok.inj ((apply_append kind named added (blocks.value.trans held)).symm.trans applied)
    exact ⟨_, apply_append rfl rfl rfl held, {
      core := set_alike label alike.core ⟨blocks.label, rfl, ⟨_, rfl⟩, blocks.charLimit⟩
      unique := Dict.nodup_set alike.unique _ _
      episodes := alike.episodes }⟩
  | recallAdd role spoken =>
    obtain rfl := Except.ok.inj asked
    obtain ⟨fields, rfl⟩ := obj_of_serialize first second
    have read := fields_unique (Json.valid_obj.mp sound).1 (by simp only [Dict.keys, List.map_cons, List.map_nil]; decide +kernel)
      first second
    have kind := text_of_text (read "op") rfl
    have roleRead := text_of_text (read "role") rfl
    have textRead := text_of_text (read "text") rfl
    obtain ⟨ts, tsRead, spelled⟩ := field_of_text (read "t") rfl
    have notSet : Json.str "recall_add" ≠ .str "core_set" := by decide +kernel
    have notAppend : Json.str "recall_add" ≠ .str "core_append" := by decide +kernel
    simp only [Memory.apply, kind, notSet, notAppend, if_false, if_true, roleRead, textRead, subscript_obj.mpr tsRead,
      bind, Except.bind, pure, Except.pure] at applied
    obtain rfl := Except.ok.inj applied
    exact ⟨_, rfl, {
      core := alike.core
      unique := alike.unique
      episodes := List.rel_append alike.episodes (.cons ⟨spelled, rfl, rfl⟩ .nil) }⟩

variable {key : Bytes} {being : Str} {root : Option Str} {memory : Memory} {own : List Json}

theorem History.front (history : History crypto key being root memory own) {p : Nat} (bound : p ≤ memory.events.length) :
    ∃ before, History crypto key being root before (own.take p) ∧ before.events = memory.events.take p := by
  induction history with
  | fresh => exact ⟨{}, by simpa using .fresh, by simp⟩
  | @record middle later own op record old binds ih =>
    have grown := apply_events binds.applied
    have count := old.length
    by_cases whole : p = later.events.length
    · refine ⟨later, ?_, by rw [whole, List.take_length]⟩
      rw [List.take_of_length_le (by simp [grown] at whole; simp; omega)]
      exact .record old binds
    · have inside : p ≤ middle.events.length := by
        rw [grown] at bound whole
        simp at bound whole
        omega
      obtain ⟨before, kept, events⟩ := ih inside
      refine ⟨before, ?_, ?_⟩
      · rwa [List.take_append_of_le_length (by omega)]
      · rw [events, grown, List.take_append_of_le_length inside]

theorem History.at (history : History crypto key being root memory own) {i : Nat} {record : Json}
    (found : own[i]? = some record) : ∃ op before after, memory.events[i]? = some op ∧
      before.events = memory.events.take i ∧ Binds crypto key being root before after op record ∧
      History crypto key being root after (own.take (i + 1)) ∧ after.events = memory.events.take (i + 1) := by
  induction history with
  | fresh => cases found
  | @record middle later own op record' old binds ih =>
    have grown := apply_events binds.applied
    have count := old.length
    by_cases last : i = own.length
    · subst last
      rw [List.getElem?_append_right (Nat.le_refl _)] at found
      obtain rfl : record' = record := by simpa using found
      refine ⟨op, middle, later, ?_, ?_, binds, ?_, ?_⟩
      · rw [grown, count]
        simp
      · rw [grown, count]
        simp
      · rw [List.take_of_length_le (by simp)]
        exact .record old binds
      · rw [grown, count, List.take_of_length_le (by simp)]
    · have bound : i < (own ++ [record']).length := (List.getElem?_eq_some_iff.mp found).1
      have inside : i < own.length := by
        simp at bound
        omega
      rw [List.getElem?_append_left inside] at found
      obtain ⟨op, before, after, opFound, front, bound, prefixed, events⟩ := ih found
      refine ⟨op, before, after, ?_, ?_, bound, ?_, ?_⟩
      · rw [grown, List.getElem?_append_left (by omega)]
        exact opFound
      · rw [front, grown, List.take_append_of_le_length (by omega)]
      · rwa [List.take_append_of_le_length (by omega)]
      · rw [events, grown, List.take_append_of_le_length (by omega)]

/-- The records of a bundle, as an import reads them. -/
def recordsOf (bundle : Json) : Py (List Json) := do
  let witness ← dotGet bundle "witness"
  pyList (← getDefault (if truthy witness then witness else .obj []) "records" (.arr []))

def journalOf (bundle : Json) : Py (List Json) := do pyList (← getDefault bundle "journal" (.arr []))

/-- Operations of one op hash have one canonical form. -/
def NoCollision (crypto : Crypto) (ops others : List Json) : Prop :=
  ∀ op ∈ ops, ∀ o ∈ others, ∀ a b, canonical op = .ok a → canonical o = .ok b → H_hex crypto a = H_hex crypto b → a = b

/-- A bundle put together from memory records of a chain, with a journal of any
operations whose hashes do not collide with the origin's. -/
structure Assembled (crypto : Crypto) (records events : List Json) (bundle : Json) : Prop where
  taken : ∀ found, recordsOf bundle = .ok found → ∀ record ∈ found,
    record ∈ records ∧ dotGet record "kind" = .ok (.str "MEMORY")
  journal : ∀ ops, journalOf bundle = .ok ops → (∀ op ∈ ops, op.valid) ∧ NoCollision crypto ops events

/-- Every such bundle of a being that imports under the origin's key holds a
beginning of the origin's operations. -/
def OnlyBeginnings (crypto : Crypto) (key : Bytes) (being : Str) (records events : List Json) : Prop :=
  ∀ bundle imported, Assembled crypto records events bundle →
    importPortable crypto bundle true (some (toHex key)) none = .ok imported → imported.identity.beingId = being →
      imported.memory.events.map canonical <+: events.map canonical

def replay (ops : List Json) : Py Memory := ops.foldlM Memory.apply {}

/-- An operation that leads from the memory after the first `p` operations to the
state that it left when it was recorded is the next operation there. -/
def NoSplice (crypto : Crypto) (being : Str) (events : List Json) : Prop :=
  ∀ p ≤ events.length, ∀ i op before after spliced hash, events[i]? = some op → replay (events.take p) = .ok before →
    replay (events.take (i + 1)) = .ok after → before.apply op = .ok spliced →
    stateHash crypto being none spliced = .ok hash → stateHash crypto being none after = .ok hash →
      (events.map canonical)[p]? = some (canonical op)

/-- What a step of an honest origin meets: no archival tier, operations that can be
recorded, and other records on the chain that are not of this being's memory. -/
def Honest (crypto : Crypto) (organ : Organ) (host : Host) : Move → Prop
  | .call call moment => Steady crypto organ none host (.call call moment)
  | .chained call => call.kind = "MEMORY" → ∀ operation state,
      call.semanticDigest ≠ .str (memDigest organ.identity.beingId (toHex operation) (toHex state))

structure Origin (crypto : Crypto) (organ : Organ) (key : Bytes) (host : Host) (log : SaltedChain) (own : List Json) :
    Prop where
  chained : host.log = some log
  linked : Linked log.chain
  writer : log.chain.sk.publicKey crypto = key
  history : History crypto key organ.identity.beingId none host.memory own
  ours : ∀ record ∈ own, record ∈ log.chain.records
  foreign : ∀ record ∈ log.chain.records, dotGet record "kind" = .ok (.str "MEMORY") → record ∈ own ∨
    ∀ operation state, dotGet record "semantic_digest" ≠
      .ok (.str (memDigest organ.identity.beingId (toHex operation) (toHex state)))

theorem move_origin (lawful : crypto.Lawful) {host : Host} {move : Move} {log : SaltedChain}
    (origin : Origin crypto organ key host log own) (honest : Honest crypto organ host move) :
    ∃ log own, Origin crypto organ key (host.move crypto organ move) log own := by
  cases move with
  | call call moment =>
    rcases call_cases lawful origin.chained origin.linked honest with same |
      ⟨op, later, record, salts, memory, chained, linked, binds⟩
    · rw [Host.move, same]
      exact ⟨log, own, origin⟩
    · rw [origin.writer] at binds
      refine ⟨_, own ++ [record], {
        chained, linked, writer := origin.writer, history := memory ▸ .record origin.history binds
        ours := ?_, foreign := ?_ }⟩
      · intro found member
        rcases List.mem_append.mp member with old | new
        · exact List.mem_append_left _ (origin.ours found old)
        · exact List.mem_append_right _ new
      · intro found member kind
        rcases List.mem_append.mp member with old | new
        · exact (origin.foreign found old kind).imp_left (List.mem_append_left _)
        · exact .inl (List.mem_append_right _ new)
  | chained call =>
    have later : (host.chained crypto call).log = some (log.append crypto call true).1 := by
      simp [Host.chained, origin.chained]
    rcases chained_cases crypto log call with same | ⟨record, built, added⟩
    · exact ⟨_, own, {
        chained := later, linked := same ▸ origin.linked, writer := same ▸ origin.writer, history := origin.history
        ours := same ▸ origin.ours, foreign := same ▸ origin.foreign }⟩
    · obtain ⟨kindRead, digestRead⟩ := buildRecord_fields built
      refine ⟨_, own, {
        chained := later, linked := added ▸ linked_built built, writer := by rw [added]; exact origin.writer
        history := origin.history, ours := ?_, foreign := ?_ }⟩
      · intro found member
        rw [added]
        exact List.mem_append_left _ (origin.ours found member)
      · intro found member kind
        rw [added] at member
        rcases List.mem_append.mp member with old | new
        · exact origin.foreign found old kind
        · obtain rfl := List.mem_singleton.mp new
          right
          intro operation state digest
          rw [dotGet_of_subscript kindRead] at kind
          rw [dotGet_of_subscript digestRead] at digest
          exact honest (Json.str.inj (Except.ok.inj kind)) operation state (Except.ok.inj digest)

theorem memDigest_inj {a b c d : Bytes}
    (same : memDigest being (H_hex crypto a) (H_hex crypto b) = memDigest being (H_hex crypto c) (H_hex crypto d)) :
    H_hex crypto a = H_hex crypto c ∧ H_hex crypto b = H_hex crypto d := by
  have length (data : Bytes) : (H_hex crypto data).length = 2 * (crypto.H data).length := by
    simp [H_hex, toHex, Nat.mul_comm]
  simp only [memDigest, List.append_assoc] at same
  have tails := List.append_cancel_left (List.append_cancel_left (List.append_cancel_left same))
  obtain ⟨first, rest⟩ := List.append_inj tails (by rw [length, length, crypto.length_H, crypto.length_H])
  exact ⟨first, List.append_cancel_left rest⟩

/-- What an import's check of an operation found. -/
structure Checked (crypto : Crypto) (being : Str) (probe next : Memory) (op record : Json) : Prop where
  applied : probe.apply op = .ok next
  digest : ∃ operation state, canonical op = .ok operation ∧ stateHash crypto being none next = .ok (H_hex crypto state) ∧
    dotGet record "semantic_digest" = .ok (.str (memDigest being (H_hex crypto operation) (H_hex crypto state)))

theorem checkOp_ok {pub : Option Bytes} {i : Nat} {probe next : Memory} {op record : Json}
    (checked : checkOp crypto pub being none i probe op record = .ok next) : Checked crypto being probe next op record := by
  simp only [checkOp, opHash, bind, Py.bind_ok] at checked
  obtain ⟨_, _, later, applied, _, ⟨operation, text, hashed⟩, state, stated, digest, read, checked⟩ := checked
  obtain rfl := Except.ok.inj hashed
  obtain ⟨state, rfl⟩ := stateHash_hex stated
  simp only [Py.unless_ok] at checked
  obtain ⟨same, made⟩ := checked
  obtain rfl := Except.ok.inj made
  exact ⟨applied, operation, state, text, stated, by rw [read, not_not.mp same]⟩

theorem eachOp_replays {pub : Option Bytes} {pairs : List (Json × Json)} {i : Nat} {probe final : Memory}
    (checked : eachOp (checkOp crypto pub being none) i probe pairs = .ok final) :
    (pairs.map Prod.fst).foldlM Memory.apply probe = .ok final := by
  induction pairs generalizing i probe with
  | nil => exact checked
  | cons pair pairs ih =>
    obtain ⟨op, record⟩ := pair
    simp only [eachOp, bind, Py.bind_ok] at checked
    obtain ⟨next, first, later⟩ := checked
    simp only [List.map_cons, List.foldlM_cons, (checkOp_ok first).applied, bind, Except.bind]
    exact ih later

theorem replay_next {events : List Json} {p : Nat} {op : Json} {before next : Memory}
    (replays : replay (events.take p) = .ok before) (found : events[p]? = some op) (applied : before.apply op = .ok next) :
    replay (events.take (p + 1)) = .ok next := by
  unfold replay at replays ⊢
  rw [List.take_add_one, found, List.foldlM_append, replays]
  simp only [Option.toList_some, List.foldlM_cons, List.foldlM_nil, bind, Except.bind, applied]
  rfl

theorem stays_on_beginning {host : Host} {log : SaltedChain} (origin : Origin crypto organ key host log own)
    (apart : NoSplice crypto organ.identity.beingId host.memory.events) {pub : Option Bytes} {pairs : List (Json × Json)}
    {i p : Nat} {probe before final : Memory} (alike : Alike probe before)
    (replays : replay (host.memory.events.take p) = .ok before) (bound : p ≤ host.memory.events.length)
    (same : probe.events.map canonical = (host.memory.events.take p).map canonical)
    (taken : ∀ pair ∈ pairs, pair.2 ∈ log.chain.records ∧ dotGet pair.2 "kind" = .ok (.str "MEMORY"))
    (sound : ∀ pair ∈ pairs, pair.1.valid) (hashes : NoCollision crypto (pairs.map Prod.fst) host.memory.events)
    (checked : eachOp (checkOp crypto pub organ.identity.beingId none) i probe pairs = .ok final) :
    final.events.map canonical <+: host.memory.events.map canonical := by
  induction pairs generalizing i p probe before with
  | nil =>
    obtain rfl := Except.ok.inj checked
    rw [same, List.map_take]
    exact List.take_prefix _ _
  | cons pair pairs ih =>
    obtain ⟨op, record⟩ := pair
    simp only [eachOp, bind, Py.bind_ok] at checked
    obtain ⟨next, first, later⟩ := checked
    obtain ⟨applied, operation, state, text, stated, digest⟩ := checkOp_ok first
    obtain ⟨present, kind⟩ := taken (op, record) List.mem_cons_self
    have mine : record ∈ own := (origin.foreign record present kind).resolve_right (fun other => other _ _ digest)
    obtain ⟨j, found⟩ := List.mem_iff_getElem?.mp mine
    obtain ⟨o, _, after, opFound, _, binds, rebuilt, events⟩ := origin.history.at found
    obtain ⟨operation', state', text', stated', digest'⟩ := binds.digest
    obtain ⟨operations, states⟩ := memDigest_inj (Json.str.inj (Except.ok.inj (digest.symm.trans digest')))
    have opMember : o ∈ host.memory.events := List.mem_of_getElem? opFound
    obtain rfl := hashes op (by simp) o opMember operation operation' text text' operations
    -- The operation does here what the origin's operation of its hash would do.
    obtain ⟨written, firstText, secondText⟩ := serialize_of_canonical text text'
    obtain ⟨t, call, asked⟩ := binds.asked
    obtain ⟨spliced, splices, splicedAlike⟩ :=
      apply_alike alike asked (sound _ List.mem_cons_self) firstText secondText applied
    have reached : replay (host.memory.events.take (j + 1)) = .ok after := by
      rw [← events]
      exact rebuilt.replays
    have place := apart p bound j o before after spliced (H_hex crypto state) opFound replays reached splices
      (by rw [← stateHash_alike splicedAlike]; exact stated) (by rw [states]; exact stated')
    -- So it is the next one, in its canonical form.
    rw [List.getElem?_map, Option.map_eq_some_iff] at place
    obtain ⟨o', nextFound, nextText⟩ := place
    have room : p < own.length := by
      rw [origin.history.length]
      exact (List.getElem?_eq_some_iff.mp nextFound).1
    obtain ⟨_, _, _, opFound', _, binds', _⟩ := origin.history.at (List.getElem?_eq_getElem room)
    obtain rfl := Option.some.inj (nextFound.symm.trans opFound')
    obtain ⟨t', call', asked'⟩ := binds'.asked
    obtain ⟨written', firstText', secondText'⟩ := serialize_of_canonical text (nextText.trans text')
    obtain ⟨following, follows, followingAlike⟩ :=
      apply_alike alike asked' (sound _ List.mem_cons_self) firstText' secondText' applied
    refine ih followingAlike (replay_next replays nextFound follows) (List.getElem?_eq_some_iff.mp nextFound).1 ?_
      (fun pair member => taken pair (List.mem_cons_of_mem _ member))
      (fun pair member => sound pair (List.mem_cons_of_mem _ member))
      (fun op member => hashes op (List.mem_cons_of_mem _ member)) later
    rw [apply_events applied, List.map_append, same, List.take_add_one, nextFound, List.map_append]
    simp [nextText, text, text']

structure Accepted (crypto : Crypto) (bundle : Json) (key : Bytes) (imported : Imported) : Prop where
  parts : ∃ journal records pub probe, journalOf bundle = .ok journal ∧ recordsOf bundle = .ok records ∧
    records.length = journal.length ∧
    eachOp (checkOp crypto pub imported.identity.beingId none) 0 {} (journal.zip records) = .ok probe ∧
    journal.foldlM Memory.apply {} = .ok imported.memory

theorem importPortable_ok {bundle : Json} {imported : Imported}
    (accepted : importPortable crypto bundle true (some (toHex key)) none = .ok imported) :
    Accepted crypto bundle key imported := by
  simp only [importPortable, bind, Py.bind_ok, if_true] at accepted
  obtain ⟨_, _, identity, _, listed, journalRead, journal, journalList, _, verified, memory, replays, _, _, _, _,
    accepted⟩ := accepted
  simp only [Py.unless_ok] at accepted
  obtain ⟨_, made⟩ := accepted
  obtain rfl := Except.ok.inj made
  simp only [verifyBundle, bind, Py.bind_ok, Py.unless_ok] at verified
  obtain ⟨witness, witnessRead, found, foundRead, _, _, records, recordList, count, pub, _, probe, checked, _⟩ := verified
  exact {
    parts := ⟨journal, records, pub, probe, by simp [journalOf, journalRead, journalList, bind, Except.bind],
      by simp [recordsOf, witnessRead, foundRead, recordList, bind, Except.bind], not_not.mp count, checked, replays⟩ }

theorem onlyBeginnings_of_noSplice {host : Host} {log : SaltedChain} (origin : Origin crypto organ key host log own)
    (apart : NoSplice crypto organ.identity.beingId host.memory.events) :
    OnlyBeginnings crypto key organ.identity.beingId log.chain.records host.memory.events := by
  intro bundle imported assembled accepted same
  obtain ⟨journal, records, pub, probe, journalRead, recordsRead, count, checked, replays⟩ :=
    (importPortable_ok accepted).parts
  rw [same] at checked
  obtain ⟨sound, hashes⟩ := assembled.journal journal journalRead
  have taken := assembled.taken records recordsRead
  have fronts : (journal.zip records).map Prod.fst = journal := List.map_fst_zip (by omega)
  have replayed := eachOp_replays checked
  rw [fronts] at replayed
  obtain rfl := Except.ok.inj (replays.symm.trans replayed)
  have fresh : Alike {} {} := ⟨.nil, List.nodup_nil, .nil⟩
  refine stays_on_beginning origin apart (p := 0) fresh rfl (Nat.zero_le _) (by simp)
    (fun pair member => taken _ (List.of_mem_zip member).2) (fun pair member => sound _ (List.of_mem_zip member).1)
    (fronts.symm ▸ hashes) checked

theorem request_valid {t : PyFloat} {call : Call} {op : Json} (asked : memory.request t call = .ok op) : op.valid := by
  cases call with
  | coreSet label value charLimit =>
    simp only [Memory.request, bind, Py.unless_ok] at asked
    obtain ⟨_, asked⟩ := asked
    obtain rfl := Except.ok.inj asked
    rw [Json.valid_obj]
    exact ⟨by simp only [Dict.keys, List.map_cons, List.map_nil]; decide +kernel, by simp [Json.valid]⟩
  | coreAppend label addition =>
    simp only [Memory.request, bind, Py.bind_ok] at asked
    obtain ⟨_, _, _, _, asked⟩ := asked
    simp only [Py.unless_ok] at asked
    obtain ⟨_, asked⟩ := asked
    obtain rfl := Except.ok.inj asked
    rw [Json.valid_obj]
    exact ⟨by simp only [Dict.keys, List.map_cons, List.map_nil]; decide +kernel, by simp [Json.valid]⟩
  | recallAdd role spoken =>
    obtain rfl := Except.ok.inj asked
    rw [Json.valid_obj]
    exact ⟨by simp only [Dict.keys, List.map_cons, List.map_nil]; decide +kernel, by simp [Json.valid]⟩

theorem noSplice_of_onlyBeginnings {host : Host} {log : SaltedChain} (origin : Origin crypto organ key host log own)
    (distinct : NoCollision crypto host.memory.events host.memory.events)
    (only : OnlyBeginnings crypto key organ.identity.beingId log.chain.records host.memory.events) :
    NoSplice crypto organ.identity.beingId host.memory.events := by
  intro p bound i op before after spliced hash opFound replays rebuilt applied splicedHash afterHash
  obtain ⟨begun, kept, events⟩ := origin.history.front bound
  have same := kept.replays
  rw [events] at same
  obtain rfl := Except.ok.inj (replays.symm.trans same)
  have room : i < own.length := by
    rw [origin.history.length]
    exact (List.getElem?_eq_some_iff.mp opFound).1
  have recordFound := List.getElem?_eq_getElem room
  obtain ⟨o, _, left, opFound', _, binds, later, laterEvents⟩ := origin.history.at recordFound
  obtain rfl := Option.some.inj (opFound.symm.trans opFound')
  have reached := later.replays
  rw [laterEvents] at reached
  obtain rfl := Except.ok.inj (rebuilt.symm.trans reached)
  generalize own[i] = record at recordFound binds
  obtain ⟨operation, state, text, stated, digest⟩ := binds.digest
  obtain rfl := Except.ok.inj (afterHash.symm.trans stated)
  -- The beginning of the log with the operation after it makes a bundle that imports.
  have count : (own.take p ++ [record]).length = (before.events ++ [op]).length := by
    rw [List.length_append, List.length_append, kept.length]
    rfl
  have pairs : (before.events ++ [op]).zip (own.take p ++ [record]) = before.events.zip (own.take p) ++ [(op, record)] := by
    rw [List.zip_append kept.length.symm]
    rfl
  have checked (pub : Option Bytes) (writer : ∀ found ∈ pub, found = key) :
      eachOp (checkOp crypto pub organ.identity.beingId none) 0 {} ((before.events ++ [op]).zip (own.take p ++ [record])) =
        .ok spliced := by
    rw [pairs, eachOp_append (kept.accepted (checkOp_binds writer))]
    simp only [eachOp, checkOp, binds.authentic _ pub writer, applied, opHash, text, splicedHash, digest, bind, Except.bind,
      pure, Except.pure, ne_eq, not_true_eq_false, if_false]
  have splices : (before.events ++ [op]).foldlM Memory.apply {} = .ok spliced := by
    rw [List.foldlM_append, kept.replays]
    simp only [List.foldlM_cons, List.foldlM_nil, applied, bind, Except.bind]
    rfl
  have accepted : importPortable crypto (bundleOf organ.identity {} none (H_hex crypto state) [] (toHex key)
      (before.events ++ [op]) (own.take p ++ [record])) true (some (toHex key)) none = .ok ⟨organ.identity, spliced⟩ :=
    import_bundle {} count checked splices splicedHash
  have members : ∀ o ∈ before.events ++ [op], o ∈ host.memory.events := by
    intro o member
    rcases List.mem_append.mp member with old | new
    · rw [events] at old
      exact List.mem_of_mem_take old
    · rw [List.mem_singleton.mp new]
      exact List.mem_of_getElem? opFound
  have assembled : Assembled crypto log.chain.records host.memory.events (bundleOf organ.identity {} none
      (H_hex crypto state) [] (toHex key) (before.events ++ [op]) (own.take p ++ [record])) := {
    taken := by
      rintro _ ⟨⟩ found member
      have mine : found ∈ own := by
        rcases List.mem_append.mp member with old | new
        · exact List.mem_of_mem_take old
        · rw [List.mem_singleton.mp new]
          exact List.mem_of_getElem? recordFound
      exact ⟨origin.ours found mine, (origin.history.members found mine).1⟩
    journal := by
      rintro _ ⟨⟩
      refine ⟨fun o member => ?_, fun o member => distinct o (members o member)⟩
      obtain ⟨j, found⟩ := List.mem_iff_getElem?.mp (members o member)
      have room : j < own.length := by
        rw [origin.history.length]
        exact (List.getElem?_eq_some_iff.mp found).1
      obtain ⟨_, _, _, found', _, binds', _⟩ := origin.history.at (List.getElem?_eq_getElem room)
      obtain rfl := Option.some.inj (found.symm.trans found')
      obtain ⟨_, _, asked⟩ := binds'.asked
      exact request_valid asked }
  have prefixed := only _ _ assembled accepted rfl
  rw [apply_events applied, List.map_append] at prefixed
  obtain ⟨rest, whole⟩ := prefixed
  have length : before.events.length = p := by
    rw [events, List.length_take]
    omega
  rw [← whole, List.append_assoc, List.getElem?_append_right (by simp [length])]
  simp [length]

variable (crypto organ) in
/-- What can be put together from an honest memory's records imports as a beginning
of it, and only that, exactly when no operation leads from an earlier state to the
one it left when it was recorded. -/
theorem only_beginnings_iff (lawful : crypto.Lawful) {host : Host} {log : SaltedChain} (fresh : host.memory = {})
    (chained : host.log = some log) (empty : log.chain.records = []) {moves : List Move}
    (honest : Run.Along (Host.move crypto organ) (Honest crypto organ) host moves)
    (distinct : NoCollision crypto (Run.run (Host.move crypto organ) host moves).memory.events
      (Run.run (Host.move crypto organ) host moves).memory.events) :
    ∃ later, (Run.run (Host.move crypto organ) host moves).log = some later ∧
      (OnlyBeginnings crypto (log.chain.sk.publicKey crypto) organ.identity.beingId later.chain.records
          (Run.run (Host.move crypto organ) host moves).memory.events ↔
        NoSplice crypto organ.identity.beingId (Run.run (Host.move crypto organ) host moves).memory.events) := by
  have begun : Origin crypto organ (log.chain.sk.publicKey crypto) host log [] := {
    chained, linked := linked_empty empty, writer := rfl, history := fresh ▸ .fresh
    ours := by simp, foreign := by simp [empty] }
  obtain ⟨later, records, origin⟩ := Run.invariant
    (fun host _ (good : ∃ later own, Origin crypto organ (log.chain.sk.publicKey crypto) host later own) honest => by
      obtain ⟨_, _, good⟩ := good
      exact move_origin lawful good honest) ⟨log, [], begun⟩ honest
  exact ⟨later, origin.chained, noSplice_of_onlyBeginnings origin distinct, onlyBeginnings_of_noSplice origin⟩

variable (crypto organ) in
theorem call_events (host : Host) (call : Call) (moment : Moment) :
    (host.call crypto organ call moment).1.memory.events = host.memory.events ∨
      ∃ op, (host.call crypto organ call moment).1.memory.events = host.memory.events ++ [op] := by
  unfold Host.call
  cases host.memory.request moment.t call with
  | error e => exact .inl rfl
  | ok op =>
    right
    refine ⟨op, ?_⟩
    simp only [Host.emit]
    cases applied : host.memory.apply op with
    | error e => rfl
    | ok later =>
      have grown := apply_events applied
      simp only
      split
      · exact grown
      · unfold Host.witness
        split
        · exact grown
        · split <;> exact grown

theorem noCollision_single {host : Host} (fresh : host.memory = {}) (call : Call) (moment : Moment) :
    NoCollision crypto (Run.run (Host.move crypto organ) host [.call call moment]).memory.events
      (Run.run (Host.move crypto organ) host [.call call moment]).memory.events := by
  intro op member o member' a b first second _
  rcases call_events crypto organ host call moment with same | ⟨event, added⟩
  · rw [Run.run_cons, Run.run_nil, Host.move, same, fresh] at member
    cases member
  · rw [Run.run_cons, Run.run_nil, Host.move, added, fresh] at member member'
    obtain rfl := (List.mem_singleton.mp member).trans (List.mem_singleton.mp member').symm
    exact Except.ok.inj (first.symm.trans second)

theorem only_beginnings_iff_sample : ∃ later,
    (Run.run (Host.move Crypto.sample sampleOrgan) sampleHost [.call sampleCall (sampleMoment none)]).log = some later ∧
      (OnlyBeginnings Crypto.sample (sampleLog.chain.sk.publicKey Crypto.sample) sampleOrgan.identity.beingId
          later.chain.records
          (Run.run (Host.move Crypto.sample sampleOrgan) sampleHost [.call sampleCall (sampleMoment none)]).memory.events ↔
        NoSplice Crypto.sample sampleOrgan.identity.beingId (Run.run (Host.move Crypto.sample sampleOrgan) sampleHost
          [.call sampleCall (sampleMoment none)]).memory.events) := by
  have fresh : sampleHost.memory = {} := rfl
  have distinct := @noCollision_single Crypto.sample sampleOrgan sampleHost fresh sampleCall (sampleMoment none)
  have honest : Run.Along (Host.move Crypto.sample sampleOrgan) (Honest Crypto.sample sampleOrgan) sampleHost
      [.call sampleCall (sampleMoment none)] := ⟨sampleSet_steady, trivial⟩
  exact only_beginnings_iff Crypto.sample sampleOrgan Crypto.sample_lawful fresh rfl rfl honest distinct

def twiceHost : Host := Run.run (Host.move Crypto.sample sampleOrgan) sampleHost
  [sampleSet none, .call (.coreSet "focus" "keen" 10) { t := .finite ⟨false, 6, -1, by decide⟩ }]

/-- A bundle of the second operation and its record, imported. -/
def spliced : Py (List Json) := do
  let hash ← stateHash Crypto.sample sampleOrgan.identity.beingId none twiceHost.memory
  let records := (twiceHost.log.map (fun log => log.chain.records)).getD []
  let imported ← importPortable Crypto.sample (bundleOf sampleOrgan.identity twiceHost.memory none hash []
    (toHex (sampleLog.chain.sk.publicKey Crypto.sample)) (twiceHost.memory.events.drop 1) (records.drop 1)) true
    (some (toHex (sampleLog.chain.sk.publicKey Crypto.sample))) none
  return imported.memory.events

theorem later_operation_imports : (match spliced with
    | .ok events => decide (events = twiceHost.memory.events.drop 1 ∧
        ¬events.map canonical <+: twiceHost.memory.events.map canonical)
    | .error _ => false) = true := by decide +kernel

end JJDai.Smriti
