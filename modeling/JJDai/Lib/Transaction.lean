import Mathlib.Logic.Basic

/-! Transactions on a store whose statements can fail: what is committed changes
at the end, and only when nothing failed. -/

namespace Transaction

universe u

variable {Tables Fault Outer α β : Type u}

/-- A store over its connection: what is committed, what the open transaction has
made of it, and which of the next statements fail. -/
structure Connection (Tables Fault : Type u) where
  committed : Tables
  current : Tables
  faults : List (Option Fault) := []

def Connection.rollback (connection : Connection Tables Fault) : Connection Tables Fault :=
  { connection with current := connection.committed }

def Connection.commit (connection : Connection Tables Fault) : Connection Tables Fault :=
  { connection with committed := connection.current }

/-- Programs that run one statement after the other and stop at the first failure. -/
def Statements (Tables Fault α : Type u) : Type u :=
  Connection Tables Fault → Except Fault α × Connection Tables Fault

namespace Statements

/-- A computation that does not touch the store. -/
def attempt (answer : Except Fault α) : Statements Tables Fault α := fun connection => (answer, connection)

def andThen (program : Statements Tables Fault α) (next : α → Statements Tables Fault β) :
    Statements Tables Fault β := fun connection =>
  match program connection with
  | (.error e, connection) => (.error e, connection)
  | (.ok a, connection) => next a connection

instance : Monad (Statements Tables Fault) where
  pure a := attempt (.ok a)
  bind := andThen

/-- One statement; a failing one leaves the tables as they were. -/
def execute (statement : Tables → Except Fault (α × Tables)) : Statements Tables Fault α := fun connection =>
  let later := { connection with faults := connection.faults.tail }
  match connection.faults.head? with
  | some (some e) => (.error e, later)
  | _ =>
    match statement connection.current with
    | .error e => (.error e, later)
    | .ok (a, current) => (.ok a, { later with current })

def query (read : Tables → Except Fault α) : Statements Tables Fault α :=
  execute (fun tables => (read tables).map (fun a => (a, tables)))

def commit : Statements Tables Fault PUnit := fun connection => (.ok ⟨⟩, connection.commit)

theorem run_bind_ok {program : Statements Tables Fault α} {next : α → Statements Tables Fault β}
    {connection later : Connection Tables Fault} {a : α} (ran : program connection = (.ok a, later)) :
    (program >>= next) connection = next a later := by
  change andThen program next connection = _
  rw [andThen, ran]

theorem run_bind_error {program : Statements Tables Fault α} {next : α → Statements Tables Fault β}
    {connection later : Connection Tables Fault} {e : Fault} (ran : program connection = (.error e, later)) :
    (program >>= next) connection = (.error e, later) := by
  change andThen program next connection = _
  rw [andThen, ran]

theorem current_execute_error {statement : Tables → Except Fault (α × Tables)}
    {connection later : Connection Tables Fault} {e : Fault} (ran : execute statement connection = (.error e, later)) :
    later.current = connection.current := by
  unfold execute at ran
  split at ran
  · rw [← (Prod.mk.inj ran).2]
  · split at ran
    · rw [← (Prod.mk.inj ran).2]
    · cases (Prod.mk.inj ran).1

def Uncommitted (program : Statements Tables Fault α) : Prop :=
  ∀ connection, (program connection).2.committed = connection.committed

theorem uncommitted_attempt (answer : Except Fault α) :
    Uncommitted (attempt answer : Statements Tables Fault α) := fun _ => rfl

theorem uncommitted_pure (a : α) : Uncommitted (pure a : Statements Tables Fault α) := fun _ => rfl

theorem uncommitted_execute (statement : Tables → Except Fault (α × Tables)) :
    Uncommitted (execute statement) := by
  intro connection
  unfold execute
  split
  · rfl
  · split <;> rfl

theorem Uncommitted.bind {program : Statements Tables Fault α} {next : α → Statements Tables Fault β}
    (first : Uncommitted program) (later : ∀ a, Uncommitted (next a)) : Uncommitted (program >>= next) := by
  intro connection
  have kept := first connection
  change (andThen program next connection).2.committed = _
  unfold andThen
  cases ran : program connection with
  | mk answer middle =>
    rw [ran] at kept
    cases answer with
    | error e => exact kept
    | ok a => exact (later a middle).trans kept

/-- Started on these tables the program can end with this answer and those tables. -/
def Yields (program : Statements Tables Fault α) (before : Tables) (a : α) (after : Tables) : Prop :=
  ∃ connection later, connection.current = before ∧ later.current = after ∧ program connection = (.ok a, later)

variable {before after : Tables} {a : α} {b : β}

theorem yields_attempt {answer : Except Fault α}
    (ends : Yields (attempt answer : Statements Tables Fault α) before a after) :
    answer = .ok a ∧ after = before := by
  obtain ⟨connection, later, rfl, rfl, ran⟩ := ends
  obtain ⟨answered, same⟩ := Prod.mk.inj ran
  exact ⟨answered, congrArg Connection.current same.symm⟩

theorem yields_pure {value : α} (ends : Yields (pure value : Statements Tables Fault α) before a after) :
    a = value ∧ after = before := by
  obtain ⟨answered, same⟩ := yields_attempt ends
  exact ⟨(Except.ok.inj answered).symm, same⟩

theorem yields_bind {program : Statements Tables Fault α} {next : α → Statements Tables Fault β}
    (ends : Yields (program >>= next) before b after) :
    ∃ a middle, Yields program before a middle ∧ Yields (next a) middle b after := by
  obtain ⟨connection, later, rfl, rfl, ran⟩ := ends
  change andThen program next connection = _ at ran
  unfold andThen at ran
  cases first : program connection with
  | mk answer middle =>
    rw [first] at ran
    cases answer with
    | error e => cases (Prod.mk.inj ran).1
    | ok a => exact ⟨a, middle.current, ⟨connection, middle, rfl, rfl, first⟩, ⟨middle, later, rfl, rfl, ran⟩⟩

theorem yields_execute {statement : Tables → Except Fault (α × Tables)}
    (ends : Yields (execute statement) before a after) : statement before = .ok (a, after) := by
  obtain ⟨connection, later, rfl, rfl, ran⟩ := ends
  unfold execute at ran
  split at ran
  · cases (Prod.mk.inj ran).1
  · cases stated : statement connection.current with
    | error e =>
      rw [stated] at ran
      cases (Prod.mk.inj ran).1
    | ok result =>
      obtain ⟨value, current⟩ := result
      rw [stated] at ran
      obtain ⟨answered, same⟩ := Prod.mk.inj ran
      obtain rfl := Except.ok.inj answered
      rw [← congrArg Connection.current same]

theorem yields_query {read : Tables → Except Fault α} (ends : Yields (query read) before a after) :
    read before = .ok a ∧ after = before := by
  have stated := yields_execute ends
  cases answered : read before with
  | error e =>
    rw [answered] at stated
    cases stated
  | ok value =>
    rw [answered] at stated
    obtain ⟨rfl, rfl⟩ := Prod.mk.inj (Except.ok.inj stated)
    exact ⟨rfl, rfl⟩

/-- A program that leaves the tables as they are. -/
def ReadOnly (program : Statements Tables Fault α) : Prop :=
  ∀ before a after, Yields program before a after → after = before

theorem readOnly_attempt (answer : Except Fault α) : ReadOnly (attempt answer : Statements Tables Fault α) :=
  fun _ _ _ ends => (yields_attempt ends).2

theorem readOnly_pure (a : α) : ReadOnly (pure a : Statements Tables Fault α) := readOnly_attempt _

theorem readOnly_query (read : Tables → Except Fault α) : ReadOnly (query read) :=
  fun _ _ _ ends => (yields_query ends).2

theorem ReadOnly.bind {program : Statements Tables Fault α} {next : α → Statements Tables Fault β}
    (first : ReadOnly program) (later : ∀ a, ReadOnly (next a)) : ReadOnly (program >>= next) := by
  intro before b after ends
  obtain ⟨a, middle, begun, ended⟩ := yields_bind ends
  exact (later a middle b after ended).trans (first before a middle begun)

section
variable {next : α → Statements Tables Fault β}

theorem yields_bind_attempt {answer : Except Fault α} (ends : Yields (attempt answer >>= next) before b after) :
    ∃ a, answer = .ok a ∧ Yields (next a) before b after := by
  obtain ⟨a, middle, begun, ended⟩ := yields_bind ends
  obtain ⟨answered, rfl⟩ := yields_attempt begun
  exact ⟨a, answered, ended⟩

theorem yields_bind_query {read : Tables → Except Fault α} (ends : Yields (query read >>= next) before b after) :
    ∃ a, read before = .ok a ∧ Yields (next a) before b after := by
  obtain ⟨a, middle, begun, ended⟩ := yields_bind ends
  obtain ⟨answered, rfl⟩ := yields_query begun
  exact ⟨a, answered, ended⟩

theorem yields_bind_execute {statement : Tables → Except Fault (α × Tables)}
    (ends : Yields (execute statement >>= next) before b after) :
    ∃ a middle, statement before = .ok (a, middle) ∧ Yields (next a) middle b after := by
  obtain ⟨a, middle, begun, ended⟩ := yields_bind ends
  exact ⟨a, middle, yields_execute begun, ended⟩

theorem yields_bind_readOnly {program : Statements Tables Fault α} (reads : ReadOnly program)
    (ends : Yields (program >>= next) before b after) :
    ∃ a, Yields program before a before ∧ Yields (next a) before b after := by
  obtain ⟨a, middle, begun, ended⟩ := yields_bind ends
  obtain rfl := reads _ _ _ begun
  exact ⟨a, begun, ended⟩

end

/-- While no statement fails the program answers this from these tables, and changes nothing. -/
def Reads (program : Statements Tables Fault α) (tables : Tables) (answer : Except Fault α) : Prop :=
  ∀ connection : Connection Tables Fault, connection.current = tables → connection.faults = [] →
    program connection = (answer, connection)

theorem reads_attempt {given answer : Except Fault α} {tables : Tables} (made : given = answer) :
    Reads (attempt given : Statements Tables Fault α) tables answer := fun _ _ _ => made ▸ rfl

theorem reads_query {read : Tables → Except Fault α} {tables : Tables} {answer : Except Fault α}
    (made : read tables = answer) : Reads (query read) tables answer := by
  intro connection held quiet
  subst held made
  have same : { connection with faults := connection.faults.tail } = connection := by
    cases connection
    simp only at quiet
    subst quiet
    rfl
  unfold query execute
  rw [same, quiet]
  simp only [List.head?_nil]
  cases read connection.current <;> rfl

theorem Reads.yields {program : Statements Tables Fault α} {tables : Tables} {a : α} (reads : Reads program tables (.ok a)) :
    Yields program tables a tables :=
  ⟨{ committed := tables, current := tables }, _, rfl, rfl, reads _ rfl rfl⟩

theorem Reads.bind {program : Statements Tables Fault α} {next : α → Statements Tables Fault β} {tables : Tables}
    {a : α} {answer : Except Fault β} (first : Reads program tables (.ok a)) (later : Reads (next a) tables answer) :
    Reads (program >>= next) tables answer := by
  intro connection held quiet
  change andThen program next connection = _
  unfold andThen
  rw [first connection held quiet]
  exact later connection held quiet

theorem Reads.bind_error {program : Statements Tables Fault α} {next : α → Statements Tables Fault β}
    {tables : Tables} {e : Fault} (failed : Reads program tables (.error e)) :
    Reads (program >>= next) tables (.error e) := by
  intro connection held quiet
  change andThen program next connection = _
  unfold andThen
  rw [failed connection held quiet]

end Statements

open Statements

/-- A program whose changes are committed once something outside the store has
confirmed them, and rolled back when the program or the confirmation fails. -/
def confirmed (program : Statements Tables Fault α) (confirm : α → Outer → Except Fault β × Outer)
    (connection : Connection Tables Fault) (outer : Outer) :
    Except Fault α × Connection Tables Fault × Outer :=
  match program connection with
  | (.error e, connection) => (.error e, connection.rollback, outer)
  | (.ok a, connection) =>
    match confirm a outer with
    | (.error e, outer) => (.error e, connection.rollback, outer)
    | (.ok _, outer) => (.ok a, connection.commit, outer)

variable {program : Statements Tables Fault α} {confirm : α → Outer → Except Fault β × Outer}
  {connection later : Connection Tables Fault} {outer outerLater : Outer} {a : α}

theorem confirmed_ok (done : confirmed program confirm connection outer = (.ok a, later, outerLater)) :
    Yields program connection.current a later.committed ∧ later.current = later.committed ∧
      ∃ b, confirm a outer = (.ok b, outerLater) := by
  unfold confirmed at done
  cases ran : program connection with
  | mk answer middle =>
    rw [ran] at done
    cases answer with
    | error e => cases (Prod.mk.inj done).1
    | ok value =>
      cases said : confirm value outer with
      | mk reply rest =>
        simp only [said] at done
        cases reply with
        | error e => cases (Prod.mk.inj done).1
        | ok b =>
          obtain ⟨answered, kept⟩ := Prod.mk.inj done
          obtain ⟨rfl, rfl⟩ := Prod.mk.inj kept
          obtain rfl := Except.ok.inj answered
          exact ⟨⟨connection, middle, rfl, rfl, ran⟩, rfl, b, said⟩

theorem confirmed_error {e : Fault} (quiet : Uncommitted program)
    (failed : confirmed program confirm connection outer = (.error e, later, outerLater)) :
    later.committed = connection.committed ∧ later.current = later.committed ∧
      (outerLater = outer ∨ ∃ a, confirm a outer = (.error e, outerLater)) := by
  have kept := quiet connection
  unfold confirmed at failed
  cases ran : program connection with
  | mk answer middle =>
    rw [ran] at failed kept
    cases answer with
    | error fault =>
      obtain ⟨_, rest⟩ := Prod.mk.inj failed
      obtain ⟨rfl, rfl⟩ := Prod.mk.inj rest
      exact ⟨kept, rfl, .inl rfl⟩
    | ok value =>
      cases said : confirm value outer with
      | mk reply rest =>
        simp only [said] at failed
        cases reply with
        | ok b => cases (Prod.mk.inj failed).1
        | error fault =>
          obtain ⟨answered, others⟩ := Prod.mk.inj failed
          obtain ⟨rfl, rfl⟩ := Prod.mk.inj others
          obtain rfl := Except.error.inj answered
          exact ⟨kept, rfl, .inr ⟨value, said⟩⟩

end Transaction
