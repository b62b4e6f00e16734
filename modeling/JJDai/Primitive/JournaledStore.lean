import JJDai.Lib.Run
import JJDai.Primitive.CrashSafety

/-! A store that writes one journal line for a change, and is rebuilt from the
lines when its path is opened again: runs of operations, stops and reopenings. -/

namespace JJDai.Durable

open PyText

/-- What a store does: an operation up to its journal write, and one round of the
loop that rebuilds the store. An operation that raises changes nothing. -/
structure JournaledStore (Store Op : Type) where
  empty : Store
  apply : Store → Op → Py (Store × Option Json)
  loadEntry : Store → Json → Py Store

variable {Store Op : Type}

def JournaledStore.load (store : JournaledStore Store Op) (entries : List Json) : Py Store :=
  entries.foldlM store.loadEntry store.empty

/-- `cut` characters of the line of an interrupted write, its closing brace excluded. -/
def torn (line : Json) (cut : Nat) : Str := line.dumps.dropLast.take cut

/-- The file after a write that a stop interrupts. -/
def tornAppend (file : Bytes) (line : Json) (cut : Nat) : Py Bytes := do
  let _ ← encode (journalLine line)
  let part ← encode (torn line cut)
  return file ++ part

inductive Action (Op : Type) where
  | perform (op : Op)
  | stop
  | stopDuring (op : Op) (cut : Nat)
  | reopen

/-- The journal and the running store, if any; the entries whose writes completed;
and for each reopening the entries completed before it and what it gave. -/
structure Process (Store : Type) where
  file : Bytes
  live : Option Store
  completed : List Json
  reopenings : List (List Json × Py Store)

namespace JournaledStore

variable (store : JournaledStore Store Op) (path : Str)

def start : Process Store where
  file := []
  live := some store.empty
  completed := []
  reopenings := []

/-- An operation of the running store; a line that is not UTF-8 is not written. -/
def perform (process : Process Store) (op : Op) : Process Store :=
  match process.live with
  | none => process
  | some live =>
    match store.apply live op with
    | .error _ => process
    | .ok (live, none) => { process with live := some live }
    | .ok (live, some line) =>
      match durableAppend process.file line with
      | .error _ => { process with live := some live }
      | .ok file =>
        { process with file, live := some live, completed := process.completed ++ [line] }

/-- The process stops inside the operation, after `cut` characters of its write. -/
def stopDuring (process : Process Store) (op : Op) (cut : Nat) : Process Store :=
  let file :=
    match process.live with
    | none => process.file
    | some live =>
      match store.apply live op with
      | .error _ => process.file
      | .ok (_, none) => process.file
      | .ok (_, some line) =>
        match tornAppend process.file line cut with
        | .error _ => process.file
        | .ok file => file
  { process with file, live := none }

/-- The constructor on an existing path; a missing file reads as an empty one. -/
def reopen (file : Bytes) : Py Store := do
  let (entries, _) ← readJournal path file
  store.load entries

def step (process : Process Store) : Action Op → Process Store
  | .perform op => store.perform process op
  | .stop => { process with live := none }
  | .stopDuring op cut => store.stopDuring process op cut
  | .reopen =>
    let reopened := store.reopen path process.file
    { process with
      live := reopened.toOption
      reopenings := process.reopenings ++ [(process.completed, reopened)] }

/-- Every reopening gave the store of the entries completed before it. -/
def Survives (process : Process Store) : Prop :=
  ∀ reopening ∈ process.reopenings, ∃ reopened, reopening.2 = .ok reopened ∧
    store.load (reopening.1.map Json.sortKeys) = .ok reopened

/-- Nothing, or a line with its newline, stands at the end of the file. -/
def EndsClean (file : Bytes) : Prop :=
  ∀ raw, decodeUtf8 file = some raw → raw.getLast? = none ∨ raw.getLast? = some newline

/-- A write starts at the start of a line, and a completed one can be read back. -/
def Careful (readable : Json → Prop) (process : Process Store) (action : Action Op) : Prop :=
  ∀ live after line, process.live = some live →
    match action with
    | .perform op => store.apply live op = .ok (after, some line) →
        EndsClean process.file ∧ readable line
    | .stopDuring op cut => store.apply live op = .ok (after, some line) → 0 < cut →
        EndsClean process.file
    | _ => True

/-- What a store has to satisfy: `sound` is kept, and the lines a sound store
writes are entries that load. -/
structure Lawful (sound : Store → Prop) (readable : Json → Prop) : Prop where
  empty : sound store.empty
  apply : ∀ live op after line, sound live → store.apply live op = .ok (after, line) → sound after
  line : ∀ live op after line, sound live → store.apply live op = .ok (after, some line) →
    ∃ e : Event, e.json = line
  loads : ∀ live op after line, sound live → store.apply live op = .ok (after, some line) →
    readable line → ∀ loading, ∃ loaded, store.loadEntry loading line.sortKeys = .ok loaded
  load : ∀ loading entry loaded, sound loading → entry.valid → store.loadEntry loading entry =
    .ok loaded → sound loaded

def Fragment (tail : Str) : Prop :=
  tail = [] ∨ ∃ (e : Event) (back : Str), e.json.dumps = tail ++ back ∧ back ≠ [] ∧ tail ≠ []

variable {store path} {sound : Store → Prop} {readable : Json → Prop}

theorem Fragment.printable {tail : Str} (fragment : Fragment tail) : ∀ c ∈ tail, 0x20 ≤ c.val := by
  rcases fragment with rfl | ⟨e, back, split, _, _⟩
  · intro c member
    cases member
  · intro c member
    exact printable_dumps e c (by rw [split]; exact List.mem_append_left _ member)

theorem readJournal_fragment (path : Str) {file : Bytes} {events : List Event} {tail : Str}
    (fragment : Fragment tail) (encoded : encodeUtf8 (journalText events ++ tail) = some file) :
    ∃ report, readJournal path file = .ok (stored events, report) := by
  have decoded := decodeUtf8_encodeUtf8 encoded
  have printable := fragment.printable
  rcases fragment with rfl | ⟨e, back, split, proper, some_left⟩
  · rw [List.append_nil] at encoded
    exact ⟨_, readJournal_holds path encoded true⟩
  · obtain ⟨rest, brace⟩ := dumps_brace e
    obtain ⟨c, tail, rfl⟩ := List.exists_cons_of_ne_nil some_left
    obtain ⟨rfl, _⟩ := List.cons.inj (brace.symm.trans split)
    exact ⟨_, readJournal_torn path decoded printable (hasText_brace tail)
      (loads_dumps_front e.valid split proper)⟩

theorem EndsClean.no_fragment {file : Bytes} {events : List Event} {tail : Str}
    (clean : EndsClean file) (fragment : Fragment tail)
    (encoded : encodeUtf8 (journalText events ++ tail) = some file) : tail = [] := by
  by_contra some_left
  have last := clean _ (decodeUtf8_encodeUtf8 encoded)
  rcases last with empty | ended
  · rw [List.getLast?_eq_none_iff, List.append_eq_nil_iff] at empty
    exact some_left empty.2
  · exact ended_tail _ fragment.printable some_left ended

variable (store sound) in
/-- Whole lines of entries that load, and at most one fragment behind them. -/
structure Settled (process : Process Store) (events : List Event) (tail : Str) : Prop where
  fragment : Fragment tail
  file : encodeUtf8 (journalText events ++ tail) = some process.file
  completed : process.completed = events.map Event.json
  live : ∀ live, process.live = some live → sound live
  loads : ∀ e ∈ events, ∀ loading, ∃ loaded, store.loadEntry loading e.json.sortKeys = .ok loaded
  survives : store.Survives process

theorem load_events (lawful : store.Lawful sound readable) {events : List Event} {loading : Store}
    (good : sound loading)
    (loads : ∀ e ∈ events, ∀ loading, ∃ loaded, store.loadEntry loading e.json.sortKeys = .ok loaded) :
    ∃ loaded, (stored events).foldlM store.loadEntry loading = .ok loaded ∧ sound loaded := by
  induction events generalizing loading with
  | nil => exact ⟨loading, rfl, good⟩
  | cons e events ih =>
    obtain ⟨middle, first⟩ := loads e List.mem_cons_self loading
    have next := lawful.load loading _ middle good (Json.valid_sortKeys e.valid) first
    obtain ⟨loaded, rest, final⟩ := ih next (fun e member => loads e (List.mem_cons_of_mem _ member))
    refine ⟨loaded, ?_, final⟩
    simp only [stored, List.map_cons, List.foldlM_cons, first, bind, Except.bind]
    exact rest

section Steps

variable {process : Process Store} {events : List Event} {tail : Str}

theorem Settled.stopped (good : Settled store sound process events tail) {file : Bytes} {tail' : Str}
    (fragment : Fragment tail') (encoded : encodeUtf8 (journalText events ++ tail') = some file) :
    Settled store sound { process with file, live := none } events tail' where
  fragment := fragment
  file := encoded
  completed := good.completed
  live := by intro live running; cases running
  loads := good.loads
  survives := good.survives

theorem Settled.moved (good : Settled store sound process events tail) {live : Store}
    (next : sound live) : Settled store sound { process with live := some live } events tail where
  fragment := good.fragment
  file := good.file
  completed := good.completed
  live := by intro now running; obtain rfl := Option.some.inj running; exact next
  loads := good.loads
  survives := good.survives

theorem Settled.written (good : Settled store sound process events []) {live : Store}
    (next : sound live) {e : Event} {file : Bytes}
    (appended : durableAppend process.file e.json = .ok file)
    (loads : ∀ loading, ∃ loaded, store.loadEntry loading e.json.sortKeys = .ok loaded) :
    Settled store sound { process with
      file, live := some live, completed := process.completed ++ [e.json] } (events ++ [e]) [] where
  fragment := .inl rfl
  file := by
    have whole : Holds process.file events := by simpa [Holds] using good.file
    simpa [Holds] using whole.append appended
  completed := by simp [good.completed]
  live := by intro now running; obtain rfl := Option.some.inj running; exact next
  loads := by
    intro entry member
    rcases List.mem_append.mp member with old | new
    · exact good.loads entry old
    · obtain rfl := List.mem_singleton.mp new
      exact loads
  survives := good.survives

theorem settled_perform (lawful : store.Lawful sound readable)
    (good : Settled store sound process events tail) (op : Op)
    (careful : store.Careful readable process (.perform op)) :
    ∃ events tail, Settled store sound (store.perform process op) events tail := by
  unfold perform
  cases running : process.live with
  | none => exact ⟨events, tail, good⟩
  | some live =>
    have start := good.live live running
    cases applied : store.apply live op with
    | error e => simpa only [applied] using ⟨events, tail, good⟩
    | ok result =>
      obtain ⟨after, line⟩ := result
      have next := lawful.apply live op after line start applied
      simp only [applied]
      cases line with
      | none => exact ⟨events, tail, good.moved next⟩
      | some line =>
        obtain ⟨e, rfl⟩ := lawful.line live op after line start applied
        obtain ⟨clean, read⟩ := careful live after e.json running applied
        obtain rfl := clean.no_fragment good.fragment good.file
        cases appended : durableAppend process.file e.json with
        | error err => exact ⟨events, [], by simpa only [appended] using good.moved next⟩
        | ok file =>
          have loads := lawful.loads live op after e.json start applied read
          simp only [appended]
          exact ⟨events ++ [e], [], good.written next appended loads⟩

theorem fragment_torn (e : Event) (cut : Nat) : Fragment (torn e.json cut) := by
  by_cases some_left : torn e.json cut = []
  · exact .inl some_left
  · obtain ⟨rest, brace⟩ := dumps_brace e
    have last := List.dropLast_append_getLast (l := e.json.dumps) (by simp [brace])
    refine .inr ⟨e, e.json.dumps.dropLast.drop cut ++ [e.json.dumps.getLast (by simp [brace])], ?_,
      by simp, some_left⟩
    rw [torn, ← List.append_assoc, List.take_append_drop, last]

theorem settled_stopDuring (lawful : store.Lawful sound readable)
    (good : Settled store sound process events tail) (op : Op) (cut : Nat)
    (careful : store.Careful readable process (.stopDuring op cut)) :
    ∃ events tail, Settled store sound (store.stopDuring process op cut) events tail := by
  have still := good.stopped good.fragment good.file
  unfold stopDuring
  cases running : process.live with
  | none => exact ⟨events, tail, still⟩
  | some live =>
    cases applied : store.apply live op with
    | error e => simpa only [applied] using ⟨events, tail, still⟩
    | ok result =>
      obtain ⟨after, line⟩ := result
      simp only [applied]
      cases line with
      | none => exact ⟨events, tail, still⟩
      | some line =>
        obtain ⟨e, rfl⟩ := lawful.line live op after line (good.live live running) applied
        cases appended : tornAppend process.file e.json cut with
        | error err => exact ⟨events, tail, by simpa only [appended] using still⟩
        | ok file =>
          simp only [appended]
          simp only [tornAppend, bind, Py.bind_ok, encode_ok] at appended
          obtain ⟨_, _, part, encoded, made⟩ := appended
          obtain rfl := Except.ok.inj made
          cases cut with
          | zero =>
            obtain rfl : [] = part := Option.some.inj encoded
            exact ⟨events, tail, by simpa using still⟩
          | succ cut =>
            have clean := careful live after e.json running applied (Nat.succ_pos cut)
            obtain rfl := clean.no_fragment good.fragment good.file
            have whole : Holds process.file events := by simpa [Holds] using good.file
            exact ⟨events, _, good.stopped (fragment_torn e (cut + 1))
              (encodeUtf8_append whole encoded)⟩

theorem settled_reopen (lawful : store.Lawful sound readable)
    (good : Settled store sound process events tail) :
    Settled store sound (store.step path process .reopen) events tail := by
  obtain ⟨report, read⟩ := readJournal_fragment path good.fragment good.file
  obtain ⟨loaded, made, next⟩ := load_events lawful lawful.empty good.loads
  have reopened : store.reopen path process.file = .ok loaded := by
    simp only [reopen, read, bind, Except.bind]
    exact made
  refine ⟨good.fragment, good.file, good.completed, ?_, good.loads, ?_⟩
  · intro live running
    simp only [step, reopened] at running
    obtain rfl := Option.some.inj running
    exact next
  · intro reopening member
    simp only [step, reopened] at member
    rcases List.mem_append.mp member with old | new
    · exact good.survives reopening old
    · obtain rfl := List.mem_singleton.mp new
      refine ⟨loaded, rfl, ?_⟩
      rw [good.completed, List.map_map]
      exact made

end Steps

theorem settled_step (lawful : store.Lawful sound readable) (process : Process Store)
    (action : Action Op) (good : ∃ events tail, Settled store sound process events tail)
    (careful : store.Careful readable process action) :
    ∃ events tail, Settled store sound (store.step path process action) events tail := by
  obtain ⟨events, tail, good⟩ := good
  cases action with
  | perform op => exact settled_perform lawful good op careful
  | stop => exact ⟨events, tail, good.stopped good.fragment good.file⟩
  | stopDuring op cut => exact settled_stopDuring lawful good op cut careful
  | reopen => exact ⟨events, tail, settled_reopen lawful good⟩

theorem survives_run (lawful : store.Lawful sound readable) {actions : List (Action Op)}
    (careful : Run.Along (store.step path) (store.Careful readable) store.start actions) :
    store.Survives (Run.run (store.step path) store.start actions) := by
  have settled : ∃ events tail, Settled store sound store.start events tail := by
    refine ⟨[], [], ⟨.inl rfl, rfl, rfl, ?_, by simp, by simp [Survives, start]⟩⟩
    intro live running
    obtain rfl := Option.some.inj running
    exact lawful.empty
  obtain ⟨_, _, final⟩ := Run.invariant (settled_step lawful) settled careful
  exact final.survives

theorem loads_brace_dumps (e : Event) : Json.loads (ch '{' :: e.json.dumps) = none := by
  obtain ⟨rest, brace⟩ := dumps_brace e
  have solid : isJsonSpace (ch '{') = false := by decide
  have mark : ch '{' ≠ codePoint 0xFEFF := by decide
  have quote : ch '{' ≠ ch '"' := by decide
  have close : ch '{' ≠ ch '}' := by decide
  rw [brace]
  simp [Json.loads, mark, skipSpace_cons solid, scanValue, scanBody, scanList, scanEntry, quote, close]

theorem torn_one (e : Event) : torn e.json 1 = [ch '{'] := by
  obtain ⟨fields, valid⟩ := e
  rw [torn, Event.json, Json.dumps, Json.sortKeys_obj, Json.render_obj,
    List.dropLast_cons_of_ne_nil (by simp)]
  rfl

theorem not_survives_glued (path : Str) {op : Op} {after : Store} {e : Event} {line : Bytes}
    (applied : store.apply store.empty op = .ok (after, some e.json))
    (encoded : encode (journalLine e.json) = .ok line) :
    ¬store.Survives (Run.run (store.step path) store.start
      [.stopDuring op 1, .reopen, .perform op, .reopen]) := by
  have part : encode (torn e.json 1) = .ok [123] := by rw [torn_one]; decide
  have glue : tornAppend [] e.json 1 = .ok [123] := by
    simp [tornAppend, encoded, part, bind, Except.bind, pure, Except.pure]
  have append : durableAppend [123] e.json = .ok (123 :: line) := by
    simp [durableAppend, encoded, bind, Except.bind, pure, Except.pure]
  obtain ⟨report, read⟩ := @readJournal_fragment path [123] [] _ (fragment_torn e 1)
    (encode_ok.mp part)
  have first : store.reopen path [123] = .ok store.empty := by
    simp [reopen, read, load, stored, bind, Except.bind, pure, Except.pure]
  have second : ∃ err, store.reopen path (123 :: line) = .error err := by
    have decoded := decodeUtf8_encodeUtf8
      (encodeUtf8_append (encode_ok.mp part) (encode_ok.mp encoded))
    rw [torn_one] at decoded
    have printable : ∀ c ∈ ch '{' :: e.json.dumps, 0x20 ≤ c.val := by
      intro c member
      rcases List.mem_cons.mp member with rfl | inside
      · decide
      · exact printable_dumps e c inside
    have glued := @readJournal_glued path (123 :: line) [] [] (ch '{' :: e.json.dumps)
      (by simpa [journalText, journalLine] using decoded) printable (hasText_brace _)
      (loads_brace_dumps e) true
    exact ⟨_, by simp only [reopen, glued, bind, Except.bind]; rfl⟩
  obtain ⟨err, second⟩ := second
  intro survives
  have last := survives ([e.json], .error err) (by
    simp [step, start, stopDuring, perform, applied, glue, first, append, second, Except.toOption])
  obtain ⟨_, bad, _⟩ := last
  cases bad

end JournaledStore

end JJDai.Durable
