import JJDai.Lib.Run
import Mathlib.Data.List.Basic

/-! `BoundedThreadingHTTPServer`: one admission slot for each connection that has a worker. -/

namespace JJDai.Daemon

structure BoundedSemaphore where
  bound : Nat
  value : Nat
  within : value ≤ bound
  deriving DecidableEq

namespace BoundedSemaphore

def fresh (bound : Nat) : BoundedSemaphore := ⟨bound, bound, Nat.le_refl _⟩

def acquire (sem : BoundedSemaphore) : Option BoundedSemaphore :=
  if sem.value = 0 then none
  else some { sem with value := sem.value - 1, within := Nat.le_trans (Nat.sub_le _ _) sem.within }

/-- `release()`; `none` stands for the `ValueError` over the bound. -/
def release (sem : BoundedSemaphore) : Option BoundedSemaphore :=
  if room : sem.value < sem.bound then some { sem with value := sem.value + 1, within := room } else none

/-- A release whose `ValueError` is swallowed. -/
def giveBack (sem : BoundedSemaphore) : BoundedSemaphore := sem.release.getD sem

theorem acquire_some {sem taken : BoundedSemaphore} (made : sem.acquire = some taken) :
    taken.bound = sem.bound ∧ taken.value + 1 = sem.value := by
  unfold acquire at made
  split at made
  · cases made
  · rename_i free
    obtain rfl := Option.some.inj made
    exact ⟨rfl, Nat.succ_pred_eq_of_ne_zero free⟩

@[simp] theorem giveBack_bound (sem : BoundedSemaphore) : sem.giveBack.bound = sem.bound := by
  unfold giveBack release
  split <;> rfl

theorem giveBack_value (sem : BoundedSemaphore) :
    sem.giveBack.value = if sem.value < sem.bound then sem.value + 1 else sem.value := by
  unfold giveBack release
  split <;> rfl

theorem giveBack_acquire {sem taken : BoundedSemaphore} (made : sem.acquire = some taken) :
    taken.giveBack = sem := by
  obtain ⟨bound, value⟩ := acquire_some made
  have within := sem.within
  obtain ⟨b, v, _⟩ := sem
  obtain ⟨b', v', _⟩ := taken
  obtain rfl : b' = b := bound
  obtain rfl : v' + 1 = v := value
  have room : v' < b' := within
  simp [giveBack, release, room]

end BoundedSemaphore

variable {Request : Type}

/-- The server with its connections: those with a worker, those that wait for a refusal, those whose
`process_request` has raised, and those that are closed. -/
structure Server (Request : Type) where
  ingressSem : BoundedSemaphore
  dispatched : List Request := []
  refuseQueue : List Request := []
  raised : Option Request := none
  closed : List Request := []
  requestsTotal : Nat := 0
  overloadedTotal : Nat := 0
  refusalDroppedTotal : Nat := 0
  deriving DecidableEq

namespace Server

def refuseQueueSize : Nat := 64

def close (server : Server Request) (request : Request) : Server Request :=
  { server with closed := server.closed ++ [request] }

def shutdownRequest (server : Server Request) (request : Request) : Server Request :=
  let server := server.close request
  { server with ingressSem := server.ingressSem.giveBack }

def overload (server : Server Request) (request : Request) : Server Request :=
  let server := { server with
    overloadedTotal := server.overloadedTotal + 1
    requestsTotal := server.requestsTotal + 1 }
  if server.refuseQueue.length < refuseQueueSize then
    { server with refuseQueue := server.refuseQueue ++ [request] }
  else { server with refusalDroppedTotal := server.refusalDroppedTotal + 1 }.close request

/-- `process_request`; `starts` tells whether the worker's thread does. -/
def processRequest (server : Server Request) (request : Request) (starts : Bool) : Server Request :=
  match server.ingressSem.acquire with
  | none => server.overload request
  | some taken =>
    if starts then { server with ingressSem := taken, dispatched := server.dispatched ++ [request] }
    else { server with ingressSem := taken.giveBack, raised := some request }

inductive Event (Request : Type) where
  | arrive (request : Request) (starts : Bool)
  /-- The base server's answer to a `process_request` that has raised. -/
  | handleError
  | finish (request : Request)
  | refuse

variable [DecidableEq Request]

/-- The accept loop takes no connection while it handles an error. -/
def step (server : Server Request) : Event Request → Server Request
  | .arrive request starts =>
    match server.raised with
    | none => server.processRequest request starts
    | some _ => server
  | .handleError =>
    match server.raised with
    | none => server
    | some request => { server with raised := none }.shutdownRequest request
  | .finish request =>
    if request ∈ server.dispatched then
      { server with dispatched := server.dispatched.erase request }.shutdownRequest request
    else server
  | .refuse =>
    match server.refuseQueue with
    | [] => server
    | request :: rest => { server with refuseQueue := rest }.close request

def start (maxConcurrency : Nat) : Server Request := { ingressSem := .fresh maxConcurrency }

/-- Every slot is free or belongs to a connection with a worker. -/
def Conserved (server : Server Request) : Prop :=
  server.ingressSem.value + server.dispatched.length = server.ingressSem.bound

/-- An error of `process_request` is handled only while no connection has a worker. -/
def Calm (server : Server Request) : Event Request → Prop
  | .handleError => server.raised.isSome = true → server.dispatched = []
  | _ => True

omit [DecidableEq Request] in
theorem overload_keeps (server : Server Request) (request : Request) :
    (server.overload request).ingressSem = server.ingressSem ∧
      (server.overload request).dispatched = server.dispatched := by
  simp only [overload]
  split <;> exact ⟨rfl, rfl⟩

omit [DecidableEq Request] in
theorem processRequest_conserved {server : Server Request} (conserved : Conserved server) (request : Request)
    (starts : Bool) : Conserved (server.processRequest request starts) := by
  unfold processRequest
  cases taken : server.ingressSem.acquire with
  | none =>
    obtain ⟨sem, dispatched⟩ := server.overload_keeps request
    simp only [Conserved, sem, dispatched]
    exact conserved
  | some rest =>
    cases starts with
    | true =>
      obtain ⟨bound, value⟩ := BoundedSemaphore.acquire_some taken
      simp only [Conserved, if_true, List.length_append, List.length_singleton, bound]
      unfold Conserved at conserved
      omega
    | false =>
      simp only [Bool.false_eq_true, if_false, Conserved, BoundedSemaphore.giveBack_acquire taken]
      exact conserved

theorem finish_conserved {server : Server Request} (conserved : Conserved server) {request : Request}
    (member : request ∈ server.dispatched) :
    Conserved ({ server with dispatched := server.dispatched.erase request }.shutdownRequest request) := by
  have positive := List.length_pos_of_mem member
  have fewer := List.length_erase_of_mem member
  unfold Conserved at conserved
  simp only [Conserved, shutdownRequest, close, BoundedSemaphore.giveBack_value, BoundedSemaphore.giveBack_bound,
    fewer]
  split <;> omega

omit [DecidableEq Request] in
theorem handleError_conserved {server : Server Request} (conserved : Conserved server) (request : Request) :
    Conserved ({ server with raised := none }.shutdownRequest request) ↔ server.dispatched = [] := by
  unfold Conserved at conserved
  simp only [Conserved, shutdownRequest, close, BoundedSemaphore.giveBack_value, BoundedSemaphore.giveBack_bound]
  rw [← List.length_eq_zero_iff]
  split <;> omega

theorem step_conserved {server : Server Request} (conserved : Conserved server) (event : Event Request) :
    Conserved (server.step event) ↔ Calm server event := by
  cases event with
  | arrive request starts =>
    simp only [step, Calm, iff_true]
    cases server.raised with
    | none => exact processRequest_conserved conserved request starts
    | some _ => exact conserved
  | handleError =>
    simp only [step, Calm]
    cases raised : server.raised with
    | none => simpa using conserved
    | some request => simpa using handleError_conserved conserved request
  | finish request =>
    simp only [step, Calm, iff_true]
    by_cases member : request ∈ server.dispatched
    · rw [if_pos member]
      exact finish_conserved conserved member
    · rw [if_neg member]
      exact conserved
  | refuse =>
    simp only [step, Calm, iff_true]
    cases server.refuseQueue with
    | nil => exact conserved
    | cons request rest => exact conserved

/-- The slots are conserved in every state of a run if and only if every step is calm. -/
theorem conserved_iff (maxConcurrency : Nat) (events : List (Event Request)) :
    (∀ front, front <+: events → Conserved (Run.run step (start maxConcurrency) front)) ↔
      Run.Along step Calm (start maxConcurrency) events := by
  have begins : Conserved (start maxConcurrency : Server Request) := Nat.add_zero _
  generalize (start maxConcurrency : Server Request) = server at begins
  induction events generalizing server with
  | nil =>
    constructor
    · exact fun _ => trivial
    · intro _ front before
      rw [List.prefix_nil.mp before]
      exact begins
  | cons event rest ih =>
    constructor
    · intro all
      have first : Conserved (server.step event) := all [event] ⟨rest, rfl⟩
      refine ⟨(step_conserved begins event).mp first, (ih _ first).mp (fun front before => ?_)⟩
      exact all (event :: front) (List.prefix_cons_inj event |>.mpr before)
    · rintro ⟨calm, later⟩ front before
      have first := (step_conserved begins event).mpr calm
      cases front with
      | nil => exact begins
      | cons other front =>
        obtain ⟨rfl, inner⟩ := List.cons_prefix_cons.mp before
        exact (ih _ first).mpr later front inner

/-- A worker that cannot be started, while another works, makes one slot too many. -/
theorem slot_too_many : ¬Conserved (Run.run step (start 2 : Server Nat)
    [.arrive 1 true, .arrive 2 false, .handleError]) := by
  unfold Conserved
  decide

end Server

end JJDai.Daemon
