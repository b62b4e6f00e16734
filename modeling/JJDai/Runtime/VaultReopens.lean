import JJDai.Runtime.SaltVault
import Mathlib.Data.List.Induction

/-! The map of a salt vault after some calls, and the file that it is sealed in, whole or cut. -/

namespace JJDai.Identity

open PyText Durable SaltVault

theorem isNumberChar_colon : isNumberChar (ch ':') = false := by decide

theorem takeWhile_vaultKey (index : Int) (field : Str) :
    (vaultKey index field).takeWhile isNumberChar = intText index := by
  rw [vaultKey, List.takeWhile_append_of_pos (isNumberChar_intText index), List.takeWhile_cons, isNumberChar_colon]
  simp

theorem vaultKey_inj {index other : Int} {field name : Str} :
    vaultKey index field = vaultKey other name ↔ index = other ∧ field = name := by
  constructor
  · intro same
    have indices : intText index = intText other := by
      rw [← takeWhile_vaultKey index field, same, takeWhile_vaultKey]
    have numbers := congrArg parseNumber indices
    rw [parseNumber_intText, parseNumber_intText] at numbers
    obtain rfl : index = other := Json.int.inj (Option.some.inj numbers)
    exact ⟨rfl, (List.cons.inj (List.append_cancel_left same)).2⟩
  · rintro ⟨rfl, rfl⟩
    rfl

theorem unsplit_vaultKey {field : Str} (unsplit : Unsplit field) (index : Int) : Unsplit (vaultKey index field) := by
  have low {c : CodePoint} (small : c.val < 0x80) : isHigh c = false := by
    simp only [isHigh, Bool.and_eq_false_iff, decide_eq_false_iff_not]
    omega
  have ascii : ∀ c ∈ intText index, c.val < 0x80 := by
    intro c member
    have number := isNumberChar_intText index c member
    simp only [isNumberChar, isDigit, Bool.or_eq_true, Bool.and_eq_true, decide_eq_true_eq, beq_iff_eq] at number
    rcases number with ((((⟨_, digit⟩ | rfl) | rfl) | rfl) | rfl) | rfl
    · omega
    all_goals decide
  have colon : Unsplit (ch ':' :: field) :=
    @Unsplit.prepend [ch ':'] field (by
      intro c member
      rw [List.mem_singleton.mp member]
      exact low (by decide)) unsplit
  exact colon.prepend fun c member => low (ascii c member)

def saltsAfter (calls : List Put) : Dict Str Json :=
  calls.foldl (fun salts call => Dict.set salts (vaultKey call.index call.field) (.str call.saltHex)) []

/-- The last salt put for an index and a field, `null` if there is none. -/
def lastSalt (calls : List Put) (index : Int) (field : Str) : Json :=
  let own := calls.filter (fun call => call.index = index ∧ call.field = field)
  (own.getLast?.map (fun call => .str call.saltHex)).getD .null

theorem saltsAfter_concat (calls : List Put) (call : Put) :
    saltsAfter (calls ++ [call]) = Dict.set (saltsAfter calls) (vaultKey call.index call.field) (.str call.saltHex) :=
  List.foldl_append

theorem saltsAfter_get (calls : List Put) (index : Int) (field : Str) :
    (Dict.get? (saltsAfter calls) (vaultKey index field)).getD .null = lastSalt calls index field := by
  induction calls using List.reverseRecOn with
  | nil => rfl
  | append_singleton calls call ih =>
    rw [saltsAfter_concat, Dict.get?_set]
    unfold lastSalt
    rw [List.filter_append]
    by_cases own : call.index = index ∧ call.field = field
    · have kept : [call].filter (fun call => call.index = index ∧ call.field = field) = [call] := by simp [own]
      rw [if_pos (vaultKey_inj.mpr own), kept]
      simp
    · have dropped : [call].filter (fun call => call.index = index ∧ call.field = field) = [] := by simpa using own
      rw [if_neg (fun same => own (vaultKey_inj.mp same)), dropped, List.append_nil]
      exact ih

/-- Strings in which nothing is joined when they are read. -/
def PlainText (call : Put) : Prop := Unsplit call.field ∧ Unsplit call.saltHex

theorem saltsAfter_textual {calls : List Put} (plain : ∀ call ∈ calls, PlainText call) :
    ∀ entry ∈ saltsAfter calls, Textual entry := by
  induction calls using List.reverseRecOn with
  | nil => simp [saltsAfter]
  | append_singleton calls call ih =>
    rw [List.forall_mem_append] at plain
    rw [saltsAfter_concat]
    intro entry member
    have own := plain.2 call (List.mem_singleton_self call)
    rcases Dict.mem_set member with rfl | old
    · exact ⟨unsplit_vaultKey own.1 call.index, _, rfl, own.2⟩
    · exact ih plain.1 entry old

theorem saltsAfter_unique (calls : List Put) : (Dict.keys (saltsAfter calls)).Nodup := by
  induction calls using List.reverseRecOn with
  | nil => exact List.nodup_nil
  | append_singleton calls call ih =>
    rw [saltsAfter_concat]
    exact Dict.nodup_set ih _ _

/-- A map with the entries that the calls leave, in any order. -/
def Same (calls : List Put) (fields : Dict Str Json) : Prop :=
  (Dict.keys fields).Nodup ∧ ∀ key, Dict.get? fields key = Dict.get? (saltsAfter calls) key

namespace Same

variable {calls : List Put} {fields : Dict Str Json}

theorem set (same : Same calls fields) (call : Put) :
    Same (calls ++ [call]) (Dict.set fields (vaultKey call.index call.field) (.str call.saltHex)) := by
  refine ⟨Dict.nodup_set same.1 _ _, fun key => ?_⟩
  rw [saltsAfter_concat, Dict.get?_set, Dict.get?_set, same.2 key]

theorem sorted (same : Same calls fields) : Same calls (Json.sortEntries fields) := by
  have unique := (Json.keys_sortEntries fields).nodup_iff.mpr same.1
  refine ⟨unique, fun key => ?_⟩
  rw [Dict.get?_perm (Json.sortEntries_perm fields) unique, same.2 key]

theorem textual (same : Same calls fields) (plain : ∀ call ∈ calls, PlainText call) :
    ∀ entry ∈ fields, Textual entry := by
  intro entry member
  have found := Dict.get?_of_mem same.1 member
  rw [same.2] at found
  exact saltsAfter_textual plain entry (Dict.mem_of_get? found)

theorem dumpsAscii (same : Same calls fields) (plain : ∀ call ∈ calls, PlainText call) :
    (Json.obj fields).dumpsAscii = (Json.obj (saltsAfter calls)).dumpsAscii := by
  rw [Json.dumpsAscii, Json.dumpsAscii, Json.dumps, Json.dumps, textual_sorted (same.textual plain),
    textual_sorted (saltsAfter_textual plain), Json.sortEntries_ext same.1 (saltsAfter_unique calls) same.2]

theorem get (same : Same calls fields) (passphrase : Str) (index : Int) (field : Str) :
    SaltVault.get ⟨passphrase, .obj fields⟩ index field = .ok (lastSalt calls index field) := by
  rw [← saltsAfter_get, ← same.2]
  rfl

end Same

variable (crypto : VaultCrypto)

theorem keystream_eq {length : Nat} (small : length ≤ 32 * 2 ^ 32) (key salt : Bytes) :
    keystream crypto key salt length =
      .ok (CounterStream.stream (fun i => crypto.hmac key (salt ++ counterBytes i)) 32 length) := by
  have made : (List.range ((length + 31) / 32)).mapM (fun i => do
        let counter ← toBytes4 i
        return crypto.hmac key (salt ++ counter)) =
      .ok ((List.range ((length + 31) / 32)).map fun i => crypto.hmac key (salt ++ counterBytes i)) := by
    refine mapM_ok_map fun i member => ?_
    have bound : i < 2 ^ 32 := by
      have inside := List.mem_range.mp member
      omega
    simp only [toBytes4, if_pos bound]
    rfl
  unfold keystream
  rw [made]
  rfl

def sealed (secret blob : Bytes) (random : Draw) : Bytes :=
  let key := crypto.scrypt secret random.bytes
  let ct := CounterStream.xor blob
    (CounterStream.stream (fun i => crypto.hmac key (random.bytes ++ counterBytes i)) 32 blob.length)
  magic ++ (random.bytes ++ (crypto.hmac key ct ++ ct))

def opened (passphrase : Str) (blob : Bytes) : Py SaltVault :=
  match decodeUtf8 blob with
  | none => raise .unicodeDecodeError
  | some text =>
    match Json.loads text with
    | none => raise .valueError
    | some salts => return { passphrase, salts }

theorem load_long {passphrase : Str} {file : Bytes} {vault : SaltVault}
    (loaded : load crypto passphrase file = .ok vault) : 52 ≤ file.length := by
  by_contra short
  have tagless : ∀ key message, (file.drop 20).take 32 ≠ crypto.hmac key message := by
    intro key message same
    have length := crypto.hmac_length key message
    rw [← same, List.length_take, List.length_drop] at length
    omega
  unfold load at loaded
  split at loaded
  · cases loaded
  · cases secret : encode passphrase with
    | error failure =>
      rw [secret] at loaded
      cases loaded
    | ok secret =>
      simp only [secret, bind, Except.bind, if_pos (tagless _ _)] at loaded
      cases loaded

theorem sealed_take {salt tag ct : Bytes} (salted : salt.length = 16) (tagged : tag.length = 32) (k : Nat) :
    (magic ++ (salt ++ (tag ++ ct))).take (52 + k) = magic ++ (salt ++ (tag ++ ct.take k)) := by
  have magical : magic.length = 4 := rfl
  rw [show 52 + k = magic.length + (salt.length + (tag.length + k)) by omega]
  simp only [List.take_length_add_append]

section
variable {passphrase : Str} {secret : Bytes} (known : encodeUtf8 passphrase = some secret)

include known

theorem encode_known : encode passphrase = .ok secret := by
  rw [encode, known]

theorem saved_eq {salts : Json} {blob : Bytes} (text : encodeUtf8 salts.dumpsAscii = some blob)
    (small : blob.length ≤ 32 * 2 ^ 32) (random : Draw) :
    saved crypto ⟨passphrase, salts⟩ random = .ok (sealed crypto secret blob random) := by
  have written : encode salts.dumpsAscii = .ok blob := by rw [encode, text]
  unfold saved
  rw [written, encode_known known]
  simp only [bind, Except.bind]
  rw [keystream_eq crypto small]
  rfl

theorem load_parts {salt tag ct : Bytes} (salted : salt.length = 16) (tagged : tag.length = 32)
    (small : ct.length ≤ 32 * 2 ^ 32) :
    load crypto passphrase (magic ++ (salt ++ (tag ++ ct))) =
      if tag ≠ crypto.hmac (crypto.scrypt secret salt) ct then
        raise .identityError "salt-vault auth failed (wrong passphrase/tamper)"
      else opened passphrase (CounterStream.xor ct (CounterStream.stream
        (fun i => crypto.hmac (crypto.scrypt secret salt) (salt ++ counterBytes i)) 32 ct.length)) := by
  have lead : (magic ++ (salt ++ (tag ++ ct))).take 4 = magic := rfl
  have first : ((magic ++ (salt ++ (tag ++ ct))).drop 4).take 16 = salt := List.take_left' salted
  have body : (magic ++ (salt ++ (tag ++ ct))).drop 20 = tag ++ ct :=
    @List.drop_left' _ salt (tag ++ ct) 16 salted
  have third : (magic ++ (salt ++ (tag ++ ct))).drop 52 = ct := by
    rw [show 52 = 20 + 32 from rfl, ← List.drop_drop, body, List.drop_left' tagged]
  have second : ((magic ++ (salt ++ (tag ++ ct))).drop 20).take 32 = tag := by
    rw [body, List.take_left' tagged]
  unfold load
  rw [lead, first, second, third, encode_known known]
  simp only [bind, Except.bind]
  rw [keystream_eq crypto small, if_neg (not_not_intro rfl)]
  split <;> rfl

theorem load_sealed {blob : Bytes} (small : blob.length ≤ 32 * 2 ^ 32) (random : Draw) :
    load crypto passphrase (sealed crypto secret blob random) = opened passphrase blob := by
  have long := CounterStream.length_stream
    (fun i => crypto.hmac_length (crypto.scrypt secret random.bytes) (random.bytes ++ counterBytes i))
    (by decide) blob.length
  have length := CounterStream.length_xor (le_of_eq long.symm)
  rw [sealed, load_parts crypto known random.length_eq (crypto.hmac_length _ _) (by rwa [length]),
    if_neg (not_not_intro rfl), length, CounterStream.xor_xor (le_of_eq long.symm)]

theorem load_cut {blob : Bytes} (small : blob.length ≤ 32 * 2 ^ 32) (random : Draw) {n : Nat}
    (cut : n < 52 + blob.length) {vault : SaltVault}
    (loaded : load crypto passphrase ((sealed crypto secret blob random).take n) = .ok vault) :
    ∃ k < blob.length, opened passphrase (blob.take k) = .ok vault := by
  have long := load_long crypto loaded
  have room : 52 ≤ n := by
    rw [List.length_take] at long
    omega
  obtain ⟨k, rfl⟩ := Nat.exists_eq_add_of_le room
  have inside : k < blob.length := by omega
  refine ⟨k, inside, ?_⟩
  have sized := fun i =>
    crypto.hmac_length (crypto.scrypt secret random.bytes) (random.bytes ++ counterBytes i)
  have streamed := CounterStream.length_stream sized (by decide) k
  have short : (blob.take k).length = k := List.length_take_of_le inside.le
  have length := CounterStream.length_xor (le_of_eq (short.trans streamed.symm))
  rw [sealed, sealed_take random.length_eq (crypto.hmac_length _ _), CounterStream.take_xor,
    CounterStream.take_stream sized (by decide) inside.le,
    load_parts crypto known random.length_eq (crypto.hmac_length _ _) (by omega)] at loaded
  split at loaded
  · cases loaded
  · rwa [length, short, CounterStream.xor_xor (le_of_eq (short.trans streamed.symm))] at loaded

end

theorem length_sealed (secret blob : Bytes) (random : Draw) :
    (sealed crypto secret blob random).length = 52 + blob.length := by
  have long := CounterStream.length_stream
    (fun i => crypto.hmac_length (crypto.scrypt secret random.bytes) (random.bytes ++ counterBytes i))
    (by decide) blob.length
  have magical : magic.length = 4 := rfl
  rw [sealed, List.length_append, List.length_append, List.length_append, crypto.hmac_length, random.length_eq, magical,
    CounterStream.length_xor (le_of_eq long.symm)]
  omega

section
variable {calls : List Put} (plain : ∀ call ∈ calls, PlainText call) {blob : Bytes}
  (text : encodeUtf8 (Json.obj (saltsAfter calls)).dumpsAscii = some blob)

include plain text

theorem opened_text (passphrase : Str) :
    opened passphrase blob = .ok ⟨passphrase, .obj (Json.sortEntries (saltsAfter calls))⟩ := by
  have back := loads_dumpsAscii (saltsAfter_textual plain) (saltsAfter_unique calls)
  simp only [opened, decodeUtf8_encodeUtf8 text, back]
  rfl

theorem opened_front {k : Nat} (inside : k < blob.length) (passphrase : Str) (vault : SaltVault) :
    opened passphrase (blob.take k) ≠ .ok vault := by
  unfold opened
  cases front : decodeUtf8 (blob.take k) with
  | none => simp [raise]
  | some read =>
    have whole := decodeUtf8_encodeUtf8 text
    rw [← List.take_append_drop k blob] at whole
    obtain ⟨back, split, rest⟩ := decodeUtf8_front whole front
    have proper : back ≠ [] := by
      rintro rfl
      have none : [] = blob.drop k := Option.some.inj (encodeUtf8_decodeUtf8 rest)
      have length := congrArg List.length none
      rw [List.length_drop, List.length_nil] at length
      omega
    have unread := loads_dumpsAscii_front (saltsAfter_textual plain) (saltsAfter_unique calls) split proper
    simp [unread, raise]

end

end JJDai.Identity

/-! Reopening a salt vault, after whole puts and after one that was cut short. -/

namespace JJDai.Identity

open PyText Durable SaltVault

variable (crypto : VaultCrypto)

def puts (acts : List Act) : List Put :=
  acts.filterMap fun
    | .put call => some call
    | .reopen => none

/-- The length of what is encrypted after some calls. -/
def textLength (calls : List Put) : Nat := (Json.obj (saltsAfter calls)).dumpsAscii.length

/-- A passphrase that has a UTF-8 form, strings that are read back as they were, and maps that the counter of the
keystream covers. -/
structure Meets (passphrase : Str) (calls : List Put) : Prop where
  encodes : ∃ secret, encodeUtf8 passphrase = some secret
  plain : ∀ call ∈ calls, PlainText call
  small : ∀ front, front <+: calls → textLength front ≤ 32 * 2 ^ 32

theorem Meets.front {passphrase : Str} {calls later : List Put} (meets : Meets passphrase (calls ++ later)) :
    Meets passphrase calls where
  encodes := meets.encodes
  plain := (List.forall_mem_append.mp meets.plain).1
  small := fun front lead => meets.small front (lead.trans (List.prefix_append calls later))

/-- A vault opened on the file returns the last salt of every index and field. -/
def Returns (passphrase : Str) (file : Option Bytes) (calls : List Put) : Prop :=
  ∃ vault, reopen crypto passphrase file = .ok vault ∧
    ∀ index field, vault.get index field = .ok (lastSalt calls index field)

/-- The process stopped before the file was opened for writing, or after its last byte. -/
def Survives (calls : List Put) : Stop → Prop
  | .before => True
  | .written n => 52 + textLength calls ≤ n

/-- A vault that holds what the calls left. -/
def Carries (passphrase : Str) (calls : List Put) (vault : SaltVault) : Prop :=
  ∃ fields, vault = ⟨passphrase, .obj fields⟩ ∧ Same calls fields

/-- The file that the calls left, if there were any. -/
def OnDisk (secret : Bytes) (calls : List Put) (file : Option Bytes) : Prop :=
  (file = none ∧ calls = []) ∨
    ∃ blob random, encodeUtf8 (Json.obj (saltsAfter calls)).dumpsAscii = some blob ∧
      file = some (sealed crypto secret blob random)

theorem Carries.returns {passphrase : Str} {calls : List Put} {vault : SaltVault} {file : Option Bytes}
    (carries : Carries passphrase calls vault) (made : reopen crypto passphrase file = .ok vault) :
    Returns crypto passphrase file calls := by
  obtain ⟨fields, rfl, same⟩ := carries
  exact ⟨_, made, same.get passphrase⟩

theorem text_length {calls : List Put} {blob : Bytes}
    (text : encodeUtf8 (Json.obj (saltsAfter calls)).dumpsAscii = some blob) : blob.length = textLength calls := by
  obtain ⟨bytes, encoded, length⟩ := encode_dumpsAscii (Json.obj (saltsAfter calls))
  obtain rfl : blob = bytes := Option.some.inj (text.symm.trans encoded)
  exact length

section
variable {passphrase : Str} {calls : List Put} (meets : Meets passphrase calls) {secret : Bytes}
  (known : encodeUtf8 passphrase = some secret)

include meets known

theorem OnDisk.opens {file : Option Bytes} (disk : OnDisk crypto secret calls file) :
    ∃ vault, reopen crypto passphrase file = .ok vault ∧ Carries passphrase calls vault := by
  rcases disk with ⟨rfl, rfl⟩ | ⟨blob, random, text, rfl⟩
  · exact ⟨⟨passphrase, .obj []⟩, rfl, [], rfl, List.nodup_nil, fun _ => rfl⟩
  · have small := meets.small calls List.prefix_rfl
    rw [← text_length text] at small
    refine ⟨_, (load_sealed crypto known small random).trans (opened_text meets.plain text passphrase), _, rfl, ?_⟩
    exact Same.sorted ⟨saltsAfter_unique calls, fun _ => rfl⟩

theorem Carries.saves {vault : SaltVault} (carries : Carries passphrase calls vault) (random : Draw) :
    ∃ blob, encodeUtf8 (Json.obj (saltsAfter calls)).dumpsAscii = some blob ∧
      vault.saved crypto random = .ok (sealed crypto secret blob random) := by
  obtain ⟨fields, rfl, same⟩ := carries
  obtain ⟨blob, text, _⟩ := encode_dumpsAscii (Json.obj (saltsAfter calls))
  have small := meets.small calls List.prefix_rfl
  rw [← text_length text] at small
  refine ⟨blob, text, saved_eq crypto known ?_ small random⟩
  rw [same.dumpsAscii meets.plain, text]

end

/-- What a run keeps of its vault and its file. -/
structure Kept (passphrase : Str) (secret : Bytes) (calls : List Put) (state : Vaulted) : Prop where
  vault : Carries passphrase calls state.vault
  file : OnDisk crypto secret calls state.file

section
variable {passphrase : Str} {secret : Bytes} (known : encodeUtf8 passphrase = some secret)

include known

theorem put_kept {calls : List Put} {state : Vaulted} (kept : Kept crypto passphrase secret calls state) {call : Put}
    (meets : Meets passphrase (calls ++ [call])) :
    ∃ vault blob, Carries passphrase (calls ++ [call]) vault ∧
      encodeUtf8 (Json.obj (saltsAfter (calls ++ [call]))).dumpsAscii = some blob ∧
        state.put crypto call = (⟨vault, some (sealed crypto secret blob call.random)⟩, .ok ()) := by
  obtain ⟨fields, holds, same⟩ := kept.vault
  have carries : Carries passphrase (calls ++ [call])
      ⟨passphrase, .obj (Dict.set fields (vaultKey call.index call.field) (.str call.saltHex))⟩ :=
    ⟨_, rfl, same.set call⟩
  obtain ⟨blob, text, saves⟩ := carries.saves crypto meets known call.random
  refine ⟨_, blob, carries, text, ?_⟩
  obtain ⟨vault, file⟩ := state
  obtain rfl : vault = ⟨passphrase, .obj fields⟩ := holds
  simp only [Vaulted.put, setItem, pure, Except.pure, saves]

theorem next_kept {acts : List Act} {state : Vaulted} (kept : Kept crypto passphrase secret (puts acts) state)
    (act : Act) (meets : Meets passphrase (puts (acts ++ [act]))) :
    Kept crypto passphrase secret (puts (acts ++ [act])) (state.next crypto act) := by
  cases act with
  | put call =>
    have grown : puts (acts ++ [.put call]) = puts acts ++ [call] := List.filterMap_append
    rw [grown] at meets ⊢
    obtain ⟨vault, blob, carries, text, put⟩ := put_kept crypto known kept meets
    rw [Vaulted.next, put]
    exact ⟨carries, .inr ⟨blob, call.random, text, rfl⟩⟩
  | reopen =>
    have unchanged : puts (acts ++ [.reopen]) = puts acts := List.filterMap_append.trans (List.append_nil _)
    rw [unchanged] at meets ⊢
    obtain ⟨vault, opens, carries⟩ := kept.file.opens crypto meets known
    obtain ⟨fields, holds, _⟩ := kept.vault
    have again : state.reopened crypto = ⟨vault, state.file⟩ := by
      unfold Vaulted.reopened
      rw [holds, opens]
    rw [Vaulted.next, again]
    exact ⟨carries, kept.file⟩

theorem run_kept {acts : List Act} (meets : Meets passphrase (puts acts)) :
    Kept crypto passphrase secret (puts acts) (Vaulted.run crypto ⟨{ passphrase }, none⟩ acts) := by
  induction acts using List.reverseRecOn with
  | nil => exact ⟨⟨[], rfl, List.nodup_nil, fun _ => rfl⟩, .inl ⟨rfl, rfl⟩⟩
  | append_singleton acts act ih =>
    have earlier : Meets passphrase (puts acts) := by
      rw [puts, List.filterMap_append] at meets
      exact meets.front
    rw [Vaulted.run, List.foldl_append]
    exact next_kept crypto known (ih earlier) act meets

theorem cut_unopened {calls : List Put} (meets : Meets passphrase calls) {blob : Bytes}
    (text : encodeUtf8 (Json.obj (saltsAfter calls)).dumpsAscii = some blob) (random : Draw) {n : Nat}
    (cut : n < 52 + textLength calls) (claimed : List Put) :
    ¬Returns crypto passphrase (some ((sealed crypto secret blob random).take n)) claimed := by
  rintro ⟨vault, opens, _⟩
  have small := meets.small calls List.prefix_rfl
  rw [← text_length text] at small cut
  obtain ⟨k, inside, front⟩ := load_cut crypto known small random cut opens
  exact opened_front meets.plain text inside passphrase vault front

end

theorem put_stops {passphrase : Str} {calls : List Put} {state : Vaulted} {secret : Bytes}
    (kept : Kept crypto passphrase secret calls state) (known : encodeUtf8 passphrase = some secret) {last : Put}
    (earlier : Meets passphrase calls) (meets : Meets passphrase (calls ++ [last])) (stop : Stop) :
    (Returns crypto passphrase (state.stopped crypto last stop) calls ∨
        Returns crypto passphrase (state.stopped crypto last stop) (calls ++ [last])) ↔
      Survives (calls ++ [last]) stop := by
  obtain ⟨after, blob, _, text, put⟩ := put_kept crypto known kept meets
  cases stop with
  | before =>
    obtain ⟨vault, opens, carries⟩ := kept.file.opens crypto earlier known
    exact iff_of_true (.inl (carries.returns crypto opens)) trivial
  | written n =>
    have left : state.stopped crypto last (.written n) = some ((sealed crypto secret blob last.random).take n) := by
      unfold Vaulted.stopped
      rw [put]
      rfl
    rw [left]
    by_cases whole : 52 + textLength (calls ++ [last]) ≤ n
    · have disk : OnDisk crypto secret (calls ++ [last]) (some ((sealed crypto secret blob last.random).take n)) := by
        refine .inr ⟨blob, last.random, text, congrArg some (List.take_of_length_le ?_)⟩
        rwa [length_sealed, text_length text]
      obtain ⟨vault, opens, carries⟩ := disk.opens crypto meets known
      exact iff_of_true (.inr (carries.returns crypto opens)) whole
    · have unopened := cut_unopened crypto known meets text last.random (not_le.mp whole)
      refine iff_of_false ?_ whole
      rintro (old | new)
      · exact unopened calls old
      · exact unopened (calls ++ [last]) new

def digest32 (n : Nat) : Bytes := (List.range 32).map fun i => UInt8.ofNat (n / 256 ^ (31 - i))

def sampleDraw (start : Nat) : Draw := ⟨(List.range 16).map fun i => UInt8.ofNat (start + i), by simp⟩

def hexBytes (text : Str) : Bytes := (fromHex text).getD []

def firstKey : Nat := 0x5f8744b57e6622f2a86d20675a1a93c9042a143b4232911dddedb74f0e57b5e8

def secondKey : Nat := 0xaa650ffb4191e10b7bf86d5fb486afebbaf995d4e28b6dfe5733be2a25f4294a

/-- HMAC-SHA256 of the messages of the two calls. -/
def sampleDigests : Dict (Bytes × Bytes) Nat :=
  [((digest32 firstKey, (sampleDraw 0).bytes ++ counterBytes 0),
      0xdfa342cfbe01b7750117f7b0995050f6da997817f9928c8e6997c24c672e5d67),
    ((digest32 firstKey, hexBytes "a48172f5d060da10232dd792f86132c4f8e4"),
      0xc92e50361b71d4320067d65f484b403f4bd6339c137dd71d18679b02099129e4),
    ((digest32 secondKey, (sampleDraw 16).bytes ++ counterBytes 0),
      0xd00b1d160c094a770f2f3e8e4bd499272ceb04f8a72be87450ea555c6ac672cb),
    ((digest32 secondKey, (sampleDraw 16).bytes ++ counterBytes 1),
      0xa7438a2e53b90ad14eb1e7bcfdc1adffe49833f5c816370d760ceaa8378c00fd),
    ((digest32 secondKey, hexBytes "ab292d2c626827122d151eac2ae5fb150ec724da961186153d8f77664ae411f8c377a853"),
      0xcf1a8977f7ff2990c6b824c75bd123329dd7691342628b129b190d60b447a7d5)]

def VaultCrypto.sample : VaultCrypto where
  scrypt := fun _ salt => digest32 (if salt = (sampleDraw 0).bytes then firstKey else secondKey)
  hmac := fun key message => digest32 ((Dict.get? sampleDigests (key, message)).getD 0)
  hmac_length := by simp [digest32]

def firstPut : Put := ⟨0, "name", "a1b2", sampleDraw 0⟩

def secondPut : Put := ⟨1, "name", "c3d4", sampleDraw 16⟩

theorem meets_sample : Meets "pass" [firstPut, secondPut] where
  encodes := ⟨ascii "pass", by decide⟩
  plain := by
    unfold PlainText
    decide
  small := by
    intro front lead
    have texts : ∀ calls ∈ [firstPut, secondPut].inits, textLength calls ≤ 36 := by decide
    exact (texts front ((List.mem_inits _ _).mpr lead)).trans (by decide)

/-- The vault of the sample after some acts. -/
def sampleVault (acts : List Act) : Vaulted := Vaulted.run .sample ⟨{ passphrase := "pass" }, none⟩ acts

/-- In every run of `put` and of opening the vault again, the file gives back the last salt of every index and field.
A `put` that is cut short leaves a file that gives back the salts before it or after it exactly when the process stopped
before the file was opened for writing or after its last byte. -/
theorem vault_reopens {passphrase : Str} {acts : List Act} (meets : Meets passphrase (puts acts)) :
    let state := Vaulted.run crypto ⟨{ passphrase }, none⟩ acts
    Returns crypto passphrase state.file (puts acts) ∧
      ∀ last, Meets passphrase (puts acts ++ [last]) →
        (state.put crypto last).2 = .ok () ∧
          ∀ stop, (Returns crypto passphrase (state.stopped crypto last stop) (puts acts) ∨
              Returns crypto passphrase (state.stopped crypto last stop) (puts acts ++ [last])) ↔
            Survives (puts acts ++ [last]) stop := by
  intro state
  obtain ⟨secret, known⟩ := meets.encodes
  have kept : Kept crypto passphrase secret (puts acts) state := run_kept crypto known meets
  obtain ⟨vault, opens, carries⟩ := kept.file.opens crypto meets known
  refine ⟨carries.returns crypto opens, fun last longer => ⟨?_, put_stops crypto kept known meets longer⟩⟩
  obtain ⟨after, blob, _, _, put⟩ := put_kept crypto known kept longer
  rw [put]

/-- A salt, the vault opened again, and a second salt that is written to its last byte. -/
theorem vault_reopens_sample :
    Returns .sample "pass" (sampleVault [.put firstPut, .reopen]).file [firstPut] ∧
      (Returns .sample "pass" ((sampleVault [.put firstPut, .reopen]).stopped .sample secondPut (.written 88))
          [firstPut] ∨
        Returns .sample "pass" ((sampleVault [.put firstPut, .reopen]).stopped .sample secondPut (.written 88))
          [firstPut, secondPut]) := by
  have first : Meets "pass" [firstPut] := @Meets.front "pass" [firstPut] [secondPut] meets_sample
  obtain ⟨returns, stops⟩ := @vault_reopens .sample "pass" [.put firstPut, .reopen] first
  have whole : Survives [firstPut, secondPut] (.written 88) := by
    unfold Survives
    decide
  exact ⟨returns, ((stops secondPut meets_sample).2 (.written 88)).mpr whole⟩

/-- A second `put` that stops right after the file was opened for writing loses the first salt too. -/
theorem put_loses_salts :
    Returns .sample "pass" (sampleVault [.put firstPut]).file [firstPut] ∧
      ¬(Returns .sample "pass" ((sampleVault [.put firstPut]).stopped .sample secondPut (.written 0)) [firstPut] ∨
        Returns .sample "pass" ((sampleVault [.put firstPut]).stopped .sample secondPut (.written 0))
          [firstPut, secondPut]) := by
  have first : Meets "pass" [firstPut] := @Meets.front "pass" [firstPut] [secondPut] meets_sample
  obtain ⟨secret, known⟩ := first.encodes
  have kept : Kept .sample "pass" secret [firstPut] (sampleVault [.put firstPut]) :=
    @run_kept .sample "pass" secret known [.put firstPut] first
  obtain ⟨vault, opens, carries⟩ := kept.file.opens .sample first known
  refine ⟨carries.returns .sample opens, fun recovered => ?_⟩
  have survives := (put_stops .sample kept known first meets_sample (.written 0)).mp recovered
  unfold Survives at survives
  omega

end JJDai.Identity
