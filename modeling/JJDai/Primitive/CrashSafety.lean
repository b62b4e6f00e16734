import JJDai.Lib.JsonRoundTrip
import JJDai.Primitive.Durable

/-! What a journal file reads as: whole lines, whole lines with a torn tail,
and a torn tail that a later line was glued to. -/

namespace JJDai.Durable

open PyText

def journalText (events : List Event) : Str := events.flatMap (fun e => journalLine e.json)

/-- The file holds exactly the lines of these events. -/
def Holds (file : Bytes) (events : List Event) : Prop :=
  encodeUtf8 (journalText events) = some file

def stored (events : List Event) : List Json := events.map (fun e => e.json.sortKeys)

theorem printable_dumps (e : Event) : ∀ c ∈ e.json.dumps, 0x20 ≤ c.val :=
  printable_render _

theorem dumps_brace (e : Event) : ∃ rest, e.json.dumps = ch '{' :: rest := by
  simp [Event.json, Json.dumps]

private theorem universalNewlines_eq {raw : Str} (plain : ∀ c ∈ raw, c ≠ ch '\r') :
    universalNewlines raw = raw := by
  induction raw using universalNewlines.induct with
  | case1 => rfl
  | case2 => exact absurd rfl (plain _ (by simp))
  | case3 c other => exact if_neg other
  | case4 rest ih => exact absurd rfl (plain _ (by simp))
  | case5 d rest other ih => exact absurd rfl (plain _ (by simp))
  | case6 c d rest other ih =>
    refine (if_neg other).trans ?_
    rw [ih (fun c member => plain c (List.mem_cons_of_mem _ member))]

private theorem splitNewline_plain {line : Str} (plain : newline ∉ line) :
    splitNewline line = [line] := by
  induction line with
  | nil => rfl
  | cons c rest ih =>
    simp only [List.mem_cons, not_or] at plain
    rw [splitNewline, splitAt_cons, if_neg (Ne.symm plain.1), ← splitNewline, ih plain.2]

private theorem splitNewline_line {line : Str} (plain : newline ∉ line) (rest : Str) :
    splitNewline (line ++ newline :: rest) = line :: splitNewline rest := by
  induction line with
  | nil =>
    rw [List.nil_append, splitNewline, splitAt_cons, if_pos rfl]
    rfl
  | cons c line ih =>
    simp only [List.mem_cons, not_or] at plain
    rw [List.cons_append, splitNewline, splitAt_cons, if_neg (Ne.symm plain.1), ← splitNewline,
      ih plain.2]

private theorem newline_not_mem {text : Str} (printable : ∀ c ∈ text, 0x20 ≤ c.val) :
    newline ∉ text :=
  fun member => absurd (printable _ member) (by decide)

theorem hasText_brace (rest : Str) : hasText (ch '{' :: rest) = true := by
  have solid : isSpace (ch '{') = false := by decide
  simp [hasText, solid]

theorem lines_journalText (events : List Event) (tail : Str) :
    (splitNewline (journalText events ++ tail)).filter hasText =
      events.map (fun e => e.json.dumps) ++ (splitNewline tail).filter hasText := by
  induction events with
  | nil => simp [journalText]
  | cons e events ih =>
    have shape : journalText (e :: events) ++ tail =
        e.json.dumps ++ newline :: (journalText events ++ tail) := by
      simp [journalText, journalLine]
    obtain ⟨rest, brace⟩ := dumps_brace e
    have text : hasText e.json.dumps := by rw [brace]; exact hasText_brace rest
    rw [shape, splitNewline_line (newline_not_mem (printable_dumps e)), List.filter_cons, if_pos text,
      ih]
    rfl

@[simp] theorem readLines_nil (path : Str) (repairTail ended : Bool) (total i : Nat) :
    readLines path repairTail ended total i [] = .ok ([], false) := rfl

theorem readLines_cons (path : Str) (repairTail ended : Bool) (total i : Nat) (line : Str) (rest : List Str) :
    readLines path repairTail ended total i (line :: rest) = match Json.loads line with
      | some event => do
        let (events, torn) ← readLines path repairTail ended total (i + 1) rest
        return (event :: events, torn)
      | none =>
        if i + 1 = total ∧ ¬ended ∧ repairTail then return ([], true)
        else .error (corruption path i total) := rfl

theorem readLines_events (path : Str) (repairTail ended : Bool) (total i : Nat)
    (events : List Event) (rest : List Str) :
    readLines path repairTail ended total i (events.map (fun e => e.json.dumps) ++ rest) = (do
      let (later, torn) ← readLines path repairTail ended total (i + events.length) rest
      return (stored events ++ later, torn)) := by
  induction events generalizing i with
  | nil => simp [stored]
  | cons e events ih =>
    have read : Json.loads e.json.dumps = some e.json.sortKeys := loads_dumps e.valid
    rw [List.map_cons, List.cons_append, readLines_cons, read]
    simp only [ih]
    rw [List.length_cons, show i + 1 + events.length = i + (events.length + 1) by omega]
    cases readLines path repairTail ended total (i + (events.length + 1)) rest with
    | error err => rfl
    | ok result => rfl

private theorem journalText_plain (events : List Event) :
    ∀ c ∈ journalText events, c = newline ∨ 0x20 ≤ c.val := by
  intro c member
  obtain ⟨e, _, inside⟩ := List.mem_flatMap.mp member
  rcases List.mem_append.mp inside with text | last
  · exact .inr (printable_dumps e c text)
  · exact .inl (List.mem_singleton.mp last)

private theorem ne_return {c : CodePoint} (plain : c = newline ∨ 0x20 ≤ c.val) : c ≠ ch '\r' := by
  rintro rfl
  revert plain
  decide

theorem readText_plain {file : Bytes} {raw : Str} (decoded : decodeUtf8 file = some raw)
    (plain : ∀ c ∈ raw, c = newline ∨ 0x20 ≤ c.val) : readText file = .ok raw := by
  simp only [readText, decoded, universalNewlines_eq (fun c member => ne_return (plain c member))]

theorem readText_holds {file : Bytes} {events : List Event} (holds : Holds file events) :
    readText file = .ok (journalText events) :=
  readText_plain (decodeUtf8_encodeUtf8 holds) (journalText_plain events)

theorem ended_tail (text : Str) {tail : Str} (printable : ∀ c ∈ tail, 0x20 ≤ c.val)
    (some_left : tail ≠ []) : (text ++ tail).getLast? ≠ some newline := by
  rw [List.getLast?_append_of_ne_nil _ some_left]
  intro last
  exact newline_not_mem printable (List.mem_of_getLast? last)

theorem readJournal_holds (path : Str) {file : Bytes} {events : List Event}
    (holds : Holds file events) (repairTail : Bool) :
    readJournal path file repairTail =
      .ok (stored events, .ofTail false events.length) := by
  have raw := readText_holds holds
  have lines := lines_journalText events []
  have blank : (splitNewline []).filter hasText = [] := by decide
  rw [List.append_nil, blank, List.append_nil] at lines
  have read := readLines_events path repairTail
    (decide ((journalText events).getLast? = some newline)) events.length 0 events []
  rw [List.append_nil] at read
  simp only [readJournal, raw, lines, bind, Except.bind, List.length_map]
  rw [read]
  simp [bind, Except.bind, pure, Except.pure]

section Tail

variable {file : Bytes} {events : List Event} {tail : Str}

private theorem readJournal_tail (path : Str)
    (decoded : decodeUtf8 file = some (journalText events ++ tail))
    (printable : ∀ c ∈ tail, 0x20 ≤ c.val) (visible : hasText tail) (repairTail : Bool) :
    readJournal path file repairTail = (do
      let (later, torn) ← readLines path repairTail false (events.length + 1) events.length [tail]
      return (stored events ++ later, .ofTail torn (events.length + 1))) := by
  have plain : ∀ c ∈ journalText events ++ tail, c = newline ∨ 0x20 ≤ c.val := by
    intro c member
    rcases List.mem_append.mp member with text | last
    · exact journalText_plain events c text
    · exact .inr (printable c last)
  have raw := readText_plain decoded plain
  have lines := lines_journalText events tail
  have some_left : tail ≠ [] := by rintro rfl; revert visible; decide
  have ended : decide ((journalText events ++ tail).getLast? = some newline) = false :=
    decide_eq_false (ended_tail _ printable some_left)
  rw [splitNewline_plain (newline_not_mem printable), List.filter_cons, if_pos visible,
    List.filter_nil] at lines
  have read := readLines_events path repairTail false (events.length + 1) 0 events [tail]
  rw [Nat.zero_add] at read
  simp only [readJournal, raw, lines, ended, bind, Except.bind, List.length_append, List.length_map,
    List.length_singleton] at read ⊢
  rw [read]
  cases readLines path repairTail false (events.length + 1) events.length [tail] with
  | error err => rfl
  | ok result => rfl

theorem readJournal_torn (path : Str)
    (decoded : decodeUtf8 file = some (journalText events ++ tail))
    (printable : ∀ c ∈ tail, 0x20 ≤ c.val) (visible : hasText tail)
    (unreadable : Json.loads tail = none) :
    readJournal path file =
      .ok (stored events, .ofTail true (events.length + 1)) := by
  rw [readJournal_tail path decoded printable visible]
  simp [readLines_cons, unreadable, bind, Except.bind, pure, Except.pure]

theorem readJournal_unended (path : Str) {e : Event}
    (decoded : decodeUtf8 file = some (journalText events ++ e.json.dumps)) (repairTail : Bool) :
    readJournal path file repairTail = .ok (stored (events ++ [e]),
      .ofTail false (events.length + 1)) := by
  have visible : hasText e.json.dumps := by
    obtain ⟨rest, brace⟩ := dumps_brace e
    rw [brace]; exact hasText_brace rest
  have read : Json.loads e.json.dumps = some e.json.sortKeys := loads_dumps e.valid
  rw [readJournal_tail path decoded (printable_dumps e) visible]
  simp [readLines_cons, read, stored, bind, Except.bind, pure, Except.pure]

end Tail

theorem readJournal_glued (path : Str) {file : Bytes} {events later : List Event} {line : Str}
    (decoded : decodeUtf8 file =
      some (journalText events ++ (line ++ newline :: journalText later)))
    (printable : ∀ c ∈ line, 0x20 ≤ c.val) (visible : hasText line)
    (unreadable : Json.loads line = none) (repairTail : Bool) :
    readJournal path file repairTail =
      .error (corruption path events.length (events.length + 1 + later.length)) := by
  have plain : ∀ c ∈ journalText events ++ (line ++ newline :: journalText later),
      c = newline ∨ 0x20 ≤ c.val := by
    intro c member
    simp only [List.mem_append, List.mem_cons] at member
    rcases member with text | inside | rfl | text
    · exact journalText_plain events c text
    · exact .inr (printable c inside)
    · exact .inl rfl
    · exact journalText_plain later c text
  have raw := readText_plain decoded plain
  have lines := lines_journalText events (line ++ newline :: journalText later)
  have after := lines_journalText later []
  have blank : (splitNewline []).filter hasText = [] := by decide
  rw [List.append_nil, blank, List.append_nil] at after
  rw [splitNewline_line (newline_not_mem printable), List.filter_cons, if_pos visible, after]
    at lines
  have ended : decide ((journalText events ++ (line ++ newline :: journalText later)).getLast? =
      some newline) = true := by
    have closed : ∃ front, newline :: journalText later = front ++ [newline] := by
      cases later using List.reverseRecOn with
      | nil => exact ⟨[], rfl⟩
      | append_singleton front last _ =>
        exact ⟨newline :: (journalText front ++ last.json.dumps), by simp [journalText, journalLine]⟩
    obtain ⟨front, closed⟩ := closed
    rw [closed, ← List.append_assoc, ← List.append_assoc]
    exact decide_eq_true List.getLast?_concat
  have read := readLines_events path repairTail true (events.length + 1 + later.length) 0 events
    (line :: later.map (fun e => e.json.dumps))
  rw [Nat.zero_add] at read
  simp only [readJournal, raw, lines, ended, bind, Except.bind, List.length_append, List.length_map,
    List.length_cons] at read ⊢
  rw [show events.length + (later.length + 1) = events.length + 1 + later.length by omega, read]
  simp [readLines_cons, unreadable]

theorem encode_ok {s : Str} {bytes : Bytes} : encode s = .ok bytes ↔ encodeUtf8 s = some bytes := by
  unfold encode
  cases encodeUtf8 s <;> simp [raise]

theorem durableAppend_ok {file file' : Bytes} {obj : Json} :
    durableAppend file obj = .ok file' ↔
      ∃ line, encodeUtf8 (journalLine obj) = some line ∧ file' = file ++ line := by
  simp only [durableAppend, bind, pure, Except.pure, Py.bind_ok, encode_ok, Except.ok.injEq]
  simp only [@eq_comm _ file']

theorem Holds.nil : Holds [] [] := rfl

theorem Holds.append {file file' : Bytes} {events : List Event} (holds : Holds file events)
    {e : Event} (written : durableAppend file e.json = .ok file') : Holds file' (events ++ [e]) := by
  obtain ⟨line, encoded, rfl⟩ := durableAppend_ok.mp written
  have whole : journalText (events ++ [e]) = journalText events ++ journalLine e.json := by
    simp [journalText]
  rw [Holds, whole]
  exact encodeUtf8_append holds encoded

theorem Holds.appendAll {file file' : Bytes} {events later : List Event} (holds : Holds file events)
    (written : appendAll file (later.map Event.json) = .ok file') :
    Holds file' (events ++ later) := by
  induction later generalizing file events with
  | nil =>
    obtain rfl : file = file' := Except.ok.inj written
    simpa using holds
  | cons e later ih =>
    obtain ⟨middle, first, rest⟩ := Py.bind_ok.mp written
    have whole := ih (holds.append first) rest
    simpa using whole

theorem appendAll_of_holds {file : Bytes} {events : List Event} (holds : Holds file events)
    (front : Bytes) : Durable.appendAll front (events.map Event.json) = .ok (front ++ file) := by
  induction events generalizing file front with
  | nil =>
    obtain rfl : [] = file := Option.some.inj holds
    simp [Durable.appendAll, pure, Except.pure]
  | cons e events ih =>
    obtain ⟨line, rest, first, later, rfl⟩ :=
      encodeUtf8_append_inv (s := journalLine e.json) (t := journalText events) holds
    have written : durableAppend front e.json = .ok (front ++ line) :=
      durableAppend_ok.mpr ⟨line, first, rfl⟩
    simp only [List.map_cons, Durable.appendAll, written, bind, Except.bind, ih later]
    rw [List.append_assoc]

/-- An event as it is after a reload; it is written back as the same line. -/
def Event.reloaded (e : Event) : Event where
  fields := Json.sortEntries (e.fields.map (fun entry => (entry.1, entry.2.sortKeys)))
  valid := by
    have sound := Json.valid_sortKeys e.valid
    rwa [Json.sortKeys_obj] at sound

theorem Event.json_reloaded (e : Event) : e.reloaded.json = e.json.sortKeys := by
  rw [Event.json, Event.json, Json.sortKeys_obj]
  rfl

theorem journalText_reloaded (events : List Event) :
    journalText (events.map Event.reloaded) = journalText events := by
  simp [journalText, journalLine, List.flatMap_map, Event.json_reloaded, Json.dumps,
    Json.sortKeys_sortKeys]

theorem stored_eq (events : List Event) : stored events = (events.map Event.reloaded).map Event.json := by
  simp [stored, Event.json_reloaded]

@[simp] theorem stored_append (events later : List Event) :
    stored (events ++ later) = stored events ++ stored later := by
  simp [stored]

/-- Booting finds `recovered` and leaves a file that appends extend. -/
def Recovers (path : Str) (file : Bytes) (recovered : List Json) : Prop :=
  ∃ file', boot path file = .ok (recovered, file') ∧
    ∀ (later : List Event) (file'' : Bytes), appendAll file' (later.map Event.json) = .ok file'' →
      ∃ report, readJournal path file'' = .ok (recovered ++ stored later, report)

theorem Recovers.of_holds (path : Str) {file : Bytes} {events : List Event}
    (holds : Holds file events) : Recovers path file (stored events) := by
  refine ⟨file, ?_, ?_⟩
  · simp [boot, readJournal_holds path holds, Report.ofTail, bind, Except.bind, pure, Except.pure]
  · intro later file'' written
    have read := readJournal_holds path (holds.appendAll written) true
    exact ⟨_, read.trans (by rw [stored_append])⟩

theorem boot_torn (path : Str) {file clean : Bytes} {events : List Event} {tail : Str}
    (holds : Holds clean events)
    (decoded : decodeUtf8 file = some (journalText events ++ tail))
    (printable : ∀ c ∈ tail, 0x20 ≤ c.val) (visible : hasText tail)
    (unreadable : Json.loads tail = none) : boot path file = .ok (stored events, clean) := by
  have read := readJournal_torn path decoded printable visible unreadable
  have rewritten : appendAll [] (stored events) = .ok clean := by
    rw [stored_eq]
    refine appendAll_of_holds ?_ []
    rwa [Holds, journalText_reloaded]
  simp [boot, truncateTornTail, read, rewritten, Report.ofTail, bind, Except.bind, pure,
    Except.pure]

theorem Recovers.of_torn (path : Str) {file clean : Bytes} {events : List Event} {tail : Str}
    (holds : Holds clean events)
    (decoded : decodeUtf8 file = some (journalText events ++ tail))
    (printable : ∀ c ∈ tail, 0x20 ≤ c.val) (visible : hasText tail)
    (unreadable : Json.loads tail = none) : Recovers path file (stored events) := by
  refine ⟨clean, boot_torn path holds decoded printable visible unreadable, ?_⟩
  intro later file'' written
  have read := readJournal_holds path (holds.appendAll written) true
  exact ⟨_, read.trans (by rw [stored_append])⟩

theorem not_recovers_undecodable (path : Str) {file : Bytes} (broken : decodeUtf8 file = none)
    (recovered : List Json) : ¬Recovers path file recovered := by
  rintro ⟨file', boots, _⟩
  simp [boot, readJournal, readText, broken, raise, bind, Except.bind] at boots

private def emptyEvent : Event where
  fields := []
  valid := by decide

/-- A line that lost only its newline is not repaired, and the next append is glued to it. -/
theorem not_recovers_unended (path : Str) {file : Bytes} {events : List Event} {e : Event}
    (holds : encodeUtf8 (journalText events ++ e.json.dumps) = some file)
    (recovered : List Json) : ¬Recovers path file recovered := by
  rintro ⟨file', boots, extends_⟩
  have read := readJournal_unended path (decodeUtf8_encodeUtf8 holds) true
  have same : file' = file := by
    simp only [boot, read, Report.ofTail, bind, Except.bind, pure, Except.pure, Bool.false_eq_true,
      if_false, Except.ok.injEq, Prod.mk.injEq] at boots
    exact boots.2.symm
  subst same
  have extra : encodeUtf8 (journalText [emptyEvent]) = some [123, 125, 10] := by decide
  obtain ⟨report, later⟩ := extends_ [emptyEvent] _ (appendAll_of_holds extra _)
  have glued : journalText events ++ e.json.dumps ++ journalText [emptyEvent] =
      journalText events ++ ((e.json.dumps ++ emptyEvent.json.dumps) ++ newline :: journalText []) := by
    simp [journalText, journalLine]
  have decoded := decodeUtf8_encodeUtf8 (encodeUtf8_append holds extra)
  rw [glued] at decoded
  have unreadable : Json.loads (e.json.dumps ++ emptyEvent.json.dumps) = none :=
    loads_dumps_append e.valid (by decide)
  have visible : hasText (e.json.dumps ++ emptyEvent.json.dumps) := by
    obtain ⟨rest, brace⟩ := dumps_brace e
    rw [brace, List.cons_append]
    exact hasText_brace _
  have printable : ∀ c ∈ e.json.dumps ++ emptyEvent.json.dumps, 0x20 ≤ c.val := by
    intro c member
    rcases List.mem_append.mp member with front | back
    · exact printable_dumps e c front
    · exact printable_dumps emptyEvent c back
  rw [readJournal_glued path decoded printable visible unreadable true] at later
  cases later

theorem recovers_fragment (path : Str) {file part : Bytes} {events : List Event} {e : Event}
    {front back : Str} (holds : Holds file events) (split : e.json.dumps = front ++ back)
    (proper : back ≠ []) (encoded : encodeUtf8 front = some part) :
    Recovers path (file ++ part) (stored events) := by
  cases front with
  | nil =>
    obtain rfl : [] = part := Option.some.inj encoded
    rw [List.append_nil]
    exact .of_holds path holds
  | cons c front =>
    have decoded := decodeUtf8_encodeUtf8 (encodeUtf8_append holds encoded)
    have printable : ∀ d ∈ c :: front, 0x20 ≤ d.val := fun d member =>
      printable_dumps e d (by rw [split]; exact List.mem_append_left _ member)
    have visible : hasText (c :: front) := by
      obtain ⟨rest, brace⟩ := dumps_brace e
      rw [split, List.cons_append] at brace
      rw [(List.cons.inj brace).1]
      exact hasText_brace _
    exact .of_torn path holds decoded printable visible (loads_dumps_front e.valid split proper)

theorem front_of_cut {e : Event} {line : Bytes} (encoded : encode (journalLine e.json) = .ok line)
    {k : Nat} {front : Str} (decoded : decodeUtf8 (line.take k) = some front)
    (short : k + 1 < line.length) :
    ∃ back, e.json.dumps = front ++ back ∧ back ≠ [] ∧ encodeUtf8 front = some (line.take k) := by
  have last : encodeUtf8 [newline] = some [10] := by decide
  have split := decodeUtf8_encodeUtf8 (encode_ok.mp encoded)
  rw [← List.take_append_drop k line] at split
  obtain ⟨back, parts, rest⟩ := decodeUtf8_front split decoded
  have restBytes := encodeUtf8_decodeUtf8 rest
  have long : 2 ≤ (line.drop k).length := by rw [List.length_drop]; omega
  rcases List.eq_nil_or_concat back with rfl | ⟨back, c, rfl⟩
  · obtain empty : [] = line.drop k := Option.some.inj restBytes
    rw [← empty] at long
    cases long
  · rw [List.concat_eq_append] at restBytes
    rw [journalLine, List.concat_eq_append, ← List.append_assoc] at parts
    obtain ⟨text', ended⟩ := List.append_inj' parts rfl
    obtain rfl : newline = c := by simpa using ended
    refine ⟨back, text', ?_, encodeUtf8_decodeUtf8 decoded⟩
    rintro rfl
    obtain single : [10] = line.drop k := Option.some.inj (last.symm.trans restBytes)
    rw [← single] at long
    simp at long

/-- Crash safety, exactly: the boot recovers the events, and later appends extend
them, unless the cut falls inside a character or takes the newline alone. -/
theorem recovers_cut_iff (path : Str) (events : List Event) (e : Event) {file line : Bytes}
    (written : appendAll [] (events.map Event.json) = .ok file)
    (encoded : encode (journalLine e.json) = .ok line) {k : Nat} (inside : k ≤ line.length) :
    (Recovers path (file ++ line.take k) (stored events) ∨
      Recovers path (file ++ line.take k) (stored (events ++ [e]))) ↔
    (decodeUtf8 (line.take k)).isSome ∧ k + 1 ≠ line.length := by
  have holds : Holds file events := by simpa using Holds.nil.appendAll written
  have last : encodeUtf8 [newline] = some [10] := by decide
  have whole := encode_ok.mp encoded
  obtain ⟨text, ending, textBytes, endingBytes, shape⟩ := encodeUtf8_append_inv whole
  obtain rfl : [10] = ending := Option.some.inj (last.symm.trans endingBytes)
  constructor
  · intro recovers
    constructor
    · rw [Option.isSome_iff_ne_none]
      intro broken
      have unreadable : decodeUtf8 (file ++ line.take k) = none := by
        cases read : decodeUtf8 (file ++ line.take k) with
        | none => rfl
        | some raw =>
          obtain ⟨tail, _, decoded⟩ := decodeUtf8_front read (decodeUtf8_encodeUtf8 holds)
          rw [broken] at decoded
          cases decoded
      rcases recovers with old | new
      · exact not_recovers_undecodable path unreadable _ old
      · exact not_recovers_undecodable path unreadable _ new
    · intro short
      have cut : line.take k = text := by
        rw [shape, List.length_append, List.length_singleton] at short
        rw [shape, List.take_left' (by omega)]
      rw [cut] at recovers
      have unended := encodeUtf8_append holds textBytes
      rcases recovers with old | new
      · exact not_recovers_unended path unended _ old
      · exact not_recovers_unended path unended _ new
  · rintro ⟨boundary, complete⟩
    obtain ⟨front, decoded⟩ := Option.isSome_iff_exists.mp boundary
    rcases Nat.lt_or_eq_of_le inside with proper | all
    · left
      obtain ⟨back, split, some_left, part⟩ := front_of_cut encoded decoded (by omega)
      exact recovers_fragment path holds split some_left part
    · right
      rw [all, List.take_length]
      exact .of_holds path (holds.append (durableAppend_ok.mpr ⟨line, whole, rfl⟩))

def accentEvent : Event where
  fields := [("k", .str "é")]
  valid := by decide

def accentLine : Bytes := [123, 34, 107, 34, 58, 32, 34, 195, 169, 34, 125, 10]

theorem recovers_cut_iff_accent :
    (Recovers "j" (accentLine ++ accentLine.take 7) (stored [accentEvent]) ∨
      Recovers "j" (accentLine ++ accentLine.take 7) (stored ([accentEvent] ++ [accentEvent]))) ↔
    (decodeUtf8 (accentLine.take 7)).isSome ∧ 7 + 1 ≠ accentLine.length :=
  recovers_cut_iff "j" [accentEvent] accentEvent (by decide) (by decide) (by decide)

/-- The line without its newline, and the line cut inside its `é`. -/
theorem not_recovers_accent :
    (encode (journalLine accentEvent.json) = .ok accentLine) ∧
    ¬(Recovers "j" ([] ++ accentLine.take 11) (stored []) ∨
      Recovers "j" ([] ++ accentLine.take 11) (stored ([] ++ [accentEvent]))) ∧
    ¬(Recovers "j" ([] ++ accentLine.take 8) (stored []) ∨
      Recovers "j" ([] ++ accentLine.take 8) (stored ([] ++ [accentEvent]))) := by
  have unended : encodeUtf8 (journalText [] ++ accentEvent.json.dumps) =
      some ([] ++ accentLine.take 11) := by decide
  have broken : decodeUtf8 ([] ++ accentLine.take 8) = none := by decide
  refine ⟨by decide, ?_, ?_⟩
  · rintro (old | new)
    · exact not_recovers_unended "j" unended _ old
    · exact not_recovers_unended "j" unended _ new
  · rintro (old | new)
    · exact not_recovers_undecodable "j" broken _ old
    · exact not_recovers_undecodable "j" broken _ new

end JJDai.Durable
