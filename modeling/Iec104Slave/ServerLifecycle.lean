import Iec104Slave.Lib.Traced
import Mathlib.Logic.Function.Basic

/-!
# The threads of the server (`main.c`, `iec104_server.c`, `history_store.c`)

`main` builds the server, starts it, waits for a signal, stops it and releases what it has. Every
allocation and every creation of a thread may fail; then the function that is at work undoes a part
of what it has done, and `main` stops and releases the rest.

`Thread_destroy` waits for the end of a thread that was started, so it may only be called when the
flag that the thread looks at is cleared. The pointer to a thread is `none` for `NULL`, or tells
whether the thread was started. The threads of the connections belong to the slave.

The worker of the history store is started with the store, in `iec104_server_init`, and
`iec104_server_destroy` ends it only after the slave, the clients and the shared memory are
released. It looks at nothing but the store, so what counts for a release is that no thread is there
that uses the part (`Uses`).

Two answers are not looked at by the code, and are inputs here: `CS104_Slave_start` does not test
whether its thread was created, and `iec104_server_destroy` visits all slots of the clients even if
there are none.
-/

namespace Iec104Slave

open Traced

/-! ## State and calls -/

inductive ThreadId
  | listening
  | worker (i : Nat)
  | diag
  | shm
  | report
  | history
deriving DecidableEq

/-- The parts of the server that are released one by one. -/
inductive ServerPart
  | slave
  | clients
  | lock
  | activeUpload
  | soeHistory
  | historyStore
  | shm
  | server
  | table
deriving DecidableEq

/-- The pointers of the server that are not `NULL`, and the parts that were released. -/
structure ServerParts where
  server : Bool
  clients : Bool
  lock : Bool
  slave : Bool
  released : List ServerPart

namespace ServerParts

def none : ServerParts := ⟨false, false, false, false, []⟩

def all : ServerParts := ⟨true, true, true, true, []⟩

def free (part : ServerPart) (parts : ServerParts) : ServerParts :=
  { parts with released := part :: parts.released }

end ServerParts

structure LifecycleState where
  threads : ThreadId → Option Bool
  slaveRunning : Bool
  workerRunning : Bool
  clientRunning : Nat → Bool
  diagRunning : Bool
  historyRunning : Bool
  parts : ServerParts

/-- The calls whose order matters. `client i` is a function that gets slot `i` of the clients. -/
inductive ServerCall
  | allocate (part : ServerPart)
  | client (i : Nat)
  | create (id : ThreadId)
  | start (id : ThreadId)
  | isRunning
  | destroy (id : ThreadId)
  | free (part : ServerPart)
deriving DecidableEq

structure ServerInput where
  enabled : Bool
  diagEnabled : Bool
  scanEnabled : Bool
  activeUploadEnabled : Bool
  historyEnabled : Bool
  maxOpenConnections : Int
  clientsAllocated : Bool
  listeningCreated : Bool

/-- `client_count`. -/
def ServerInput.clientCount (p : ServerInput) : Nat :=
  if p.maxOpenConnections < 1 then 1 else p.maxOpenConnections.toNat

namespace ServerLifecycle

abbrev ServerProg := Prog LifecycleState ServerCall Bool

def setThread (id : ThreadId) (thread : Option Bool) (s : LifecycleState) : LifecycleState :=
  { s with threads := Function.update s.threads id thread }

@[simp] theorem setThread_self (id : ThreadId) (thread : Option Bool) (s : LifecycleState) :
    (setThread id thread s).threads id = thread :=
  Function.update_self _ _ _

@[simp] theorem setThread_of_ne {id other : ThreadId} (h : other ≠ id) (thread : Option Bool)
    (s : LifecycleState) : (setThread id thread s).threads other = s.threads other :=
  Function.update_of_ne h _ _

def setParts (f : ServerParts → ServerParts) : ServerProg Unit :=
  update fun s => { s with parts := f s.parts }

/-- `Thread_create`, for a pointer that is tested. -/
def createThread (id : ThreadId) : ServerProg Bool := do
  let created ← call (.create id)
  update (setThread id (if created then some false else none))
  pure created

def startThread (id : ThreadId) : ServerProg Unit := do
  let _ ← call (.start id)
  update (setThread id (some true))

/-- `Thread_destroy`, and the pointer is `NULL` after that. -/
def destroyThread (id : ThreadId) : ServerProg Unit := do
  let _ ← call (.destroy id)
  update (setThread id none)

/-- The creation of a thread that the configuration may leave out: `false` if the thread is wanted
and not there. -/
def createIf (wanted : Bool) (id : ThreadId) : ServerProg Bool :=
  if wanted then createThread id else pure true

def startIf (wanted : Bool) (id : ThreadId) : ServerProg Unit :=
  if wanted then startThread id else pure ()

/-- `if (thread) Thread_destroy(thread)`. -/
def destroyIfAny (id : ThreadId) : ServerProg Unit := do
  let s ← read
  if s.threads id = none then pure () else destroyThread id

/-- A thread with a flag of its own, which is set before the thread is created. -/
def launch (setFlag : Bool → LifecycleState → LifecycleState) (id : ThreadId) :
    ServerProg Bool := do
  update (setFlag true)
  let created ← createThread id
  if created then do
    startThread id
    pure true
  else do
    update (setFlag false)
    pure false

/-- The end of such a thread, if it is there. -/
def quit (setFlag : Bool → LifecycleState → LifecycleState) (id : ThreadId) :
    ServerProg Unit := do
  let s ← read
  if s.threads id = none then pure ()
  else do
    update (setFlag false)
    destroyThread id

/-! ## The slave -/

section

variable (p : ServerInput)

/-- `CS104_Slave_start`. -/
def slaveStart : ServerProg Unit := do
  let s ← read
  if s.slaveRunning then pure ()
  else do
    let _ ← call (.create .listening)
    update (setThread .listening (if p.listeningCreated then some false else none))
    startThread .listening
    let running ← call .isRunning
    update fun s => { s with slaveRunning := running }

/-- `CS104_Slave_stop`. It waits until the thread has seen `stopRunning`. -/
def slaveStop : ServerProg Unit := do
  update fun s => { s with slaveRunning := false }
  destroyIfAny .listening

/-! ## Clients and diagnosis -/

def setClientRunning (i : Nat) (running : Bool) (s : LifecycleState) : LifecycleState :=
  { s with clientRunning := Function.update s.clientRunning i running }

def clientContextStart (i : Nat) : ServerProg Bool := launch (setClientRunning i) (.worker i)

def clientContextStop (i : Nat) : ServerProg Unit := quit (setClientRunning i) (.worker i)

def setDiagRunning (running : Bool) (s : LifecycleState) : LifecycleState :=
  { s with diagRunning := running }

def diagServerStart : ServerProg Bool := do
  let s ← read
  if p.diagEnabled = false then pure true
  else if s.threads .diag ≠ none then pure true
  else launch setDiagRunning .diag

def diagServerStop : ServerProg Unit := quit setDiagRunning .diag

def stopClients (count : Nat) : ServerProg Unit := each clientContextStop (List.range count)

/-- The loop over the clients up to the first one that fails, which is the result. -/
def startClients : List Nat → ServerProg (Option Nat)
  | [] => pure none
  | i :: rest => do
    let started ← clientContextStart i
    if started then startClients rest else pure (some i)

/-! ## The server -/

def setWorkerRunning (running : Bool) (s : LifecycleState) : LifecycleState :=
  { s with workerRunning := running }

/-- The end of `iec104_server_start`: the threads for the shared memory and the reports. Both are
created before the results are looked at. -/
def startThreads : ServerProg Bool := do
  let shm ← createIf p.scanEnabled .shm
  let report ← createIf p.activeUploadEnabled .report
  if !shm || !report then do
    update (setWorkerRunning false)
    stopClients p.clientCount
    destroyIfAny .shm
    destroyIfAny .report
    slaveStop
    pure false
  else do
    startIf p.scanEnabled .shm
    startIf p.activeUploadEnabled .report
    pure true

def iec104ServerStart : ServerProg Bool := do
  if p.enabled = false then pure false
  else do
    slaveStart p
    let s ← read
    if s.slaveRunning = false then pure false
    else do
      update (setWorkerRunning true)
      let failed ← startClients (List.range p.clientCount)
      match failed with
      | some i => do
        update (setWorkerRunning false)
        stopClients i
        slaveStop
        pure false
      | none => do
        let started ← diagServerStart p
        if started then startThreads p
        else do
          update (setWorkerRunning false)
          stopClients p.clientCount
          slaveStop
          pure false

def iec104ServerStop : ServerProg Unit := do
  let s ← read
  if s.parts.slave = false then pure ()
  else do
    update (setWorkerRunning false)
    diagServerStop
    stopClients p.clientCount
    destroyIfAny .shm
    destroyIfAny .report
    slaveStop

def release (part : ServerPart) : ServerProg Unit := do
  let _ ← call (.free part)
  setParts (.free part)

/-- `client_context_destroy(&server->clients[i])`. The first slot of no array is `NULL`. -/
def clientContextDestroy (i : Nat) : ServerProg Unit := do
  let s ← read
  if s.parts.clients = false ∧ i = 0 then pure ()
  else do
    let _ ← call (.client i)
    clientContextStop i

/-- `CS104_Slave_destroy`, which stops the slave, if there is one. -/
def slaveDestroy : ServerProg Unit := do
  let s ← read
  if s.parts.slave then do
    slaveStop
    release .slave
    setParts fun parts => { parts with slave := false }
  else pure ()

def lockDestroy : ServerProg Unit := do
  let s ← read
  if s.parts.lock then do
    release .lock
    setParts fun parts => { parts with lock := false }
  else pure ()

def setHistoryRunning (running : Bool) (s : LifecycleState) : LifecycleState :=
  { s with historyRunning := running }

/-- `history_store_destroy`. The worker waits for an entry of the queue, so one token is posted. -/
def historyStoreDestroy : ServerProg Unit := do
  quit setHistoryRunning .history
  release .historyStore

def iec104ServerDestroy : ServerProg Unit := do
  slaveDestroy
  each clientContextDestroy (List.range p.clientCount)
  release .clients
  setParts fun parts => { parts with clients := false }
  diagServerStop
  release .shm
  historyStoreDestroy
  release .soeHistory
  release .activeUpload
  lockDestroy
  release .server
  setParts fun parts => { parts with server := false }

/-- `history_store_init`. A store that is not enabled has no worker. One that misses a lock or its
queue takes back what it has before it fails. -/
def historyStoreInit : ServerProg Bool := do
  if p.historyEnabled = false then pure true
  else do
    let allocated ← call (.allocate .historyStore)
    if allocated then launch setHistoryRunning .history else pure false

/-- The second part is initialised only if the first one was. -/
def andThen (first second : ServerProg Bool) : ServerProg Bool := do
  let done ← first
  if done then second else pure false

def initClients : List Nat → ServerProg Bool
  | [] => pure true
  | i :: rest => andThen (call (.client i)) (initClients rest)

def initParts : ServerProg Bool :=
  andThen (call (.allocate .activeUpload)) <|
  andThen (call (.allocate .soeHistory)) <|
  andThen (historyStoreInit p) <|
  andThen (call (.allocate .shm)) <|
  initClients (List.range p.clientCount)

def iec104ServerInit : ServerProg Bool := do
  let server ← call (.allocate .server)
  if server = false then pure false
  else do
    setParts fun parts => { parts with server := true }
    let _ ← call (.allocate .clients)
    setParts fun parts => { parts with clients := p.clientsAllocated }
    let lock ← call (.allocate .lock)
    setParts fun parts => { parts with lock := lock }
    let slave ← call (.allocate .slave)
    setParts fun parts => { parts with slave := slave }
    if !p.clientsAllocated || !lock || !slave then do
      iec104ServerDestroy p
      pure false
    else do
      let done ← initParts p
      if done then pure true
      else do
        iec104ServerDestroy p
        pure false

def main : ServerProg Unit := do
  let done ← iec104ServerInit p
  if done then do
    let _ ← iec104ServerStart p
    iec104ServerStop p
    iec104ServerDestroy p
    release .table
  else release .table

end

def initial : LifecycleState where
  threads := fun _ => none
  slaveRunning := false
  workerRunning := false
  clientRunning := fun _ => false
  diagRunning := false
  historyRunning := false
  parts := .none

/-! ## What the calls need -/

/-- The flag that the thread looks at is cleared. -/
def Told (s : LifecycleState) : ThreadId → Prop
  | .listening => s.slaveRunning = false
  | .worker i => s.clientRunning i = false
  | .diag => s.diagRunning = false
  | .shm | .report => s.workerRunning = false
  | .history => s.historyRunning = false

/-- The worker of the history store gets the store, which lies in the memory of the server. The
other threads get the server and all that it points to. -/
def Uses : ThreadId → ServerPart → Prop
  | .history, part => part = .historyStore ∨ part = .server
  | _, _ => True

/-- All calls but the first and the last one are about the server. -/
def OfServer : ServerCall → Prop
  | .allocate part => part ≠ .server
  | .free part => part ≠ .table
  | _ => True

/-- No thread is lost or started twice, a thread that runs is waited for only when it was told to
end, nothing is released twice or while a thread that uses it is there, and the server and the slots
of its clients are there when they are used. -/
def Allowed (c : ServerCall) (s : LifecycleState) : Prop :=
  (OfServer c → s.parts.server = true) ∧
    match c with
    | .allocate _ | .isRunning => True
    | .client _ => s.parts.clients = true
    | .create id => s.threads id = none
    | .start id => s.threads id = some false
    | .destroy id => s.threads id ≠ none ∧ (s.threads id = some true → Told s id)
    | .free part => part ∉ s.parts.released ∧ ∀ id, Uses id part → s.threads id = none

/-- A triple of the program: all calls are allowed, whatever the answers. -/
def ServerSpec {α : Type} (P : LifecycleState → Prop) (m : ServerProg α)
    (Q : α → LifecycleState → Prop) : Prop :=
  Spec (fun _ _ => True) Allowed P m Q

/-- The threads in `idle` are not there, these are the parts, and if `halted`, the flag of the two
threads of the server is cleared. -/
structure Stage (idle : ThreadId → Prop) (halted : Prop) (parts : ServerParts)
    (s : LifecycleState) : Prop where
  idle : ∀ id, idle id → s.threads id = none
  parts : s.parts = parts
  halted : halted → s.workerRunning = false

/-- The whole server is there. -/
abbrev Whole (idle : ThreadId → Prop) (halted : Prop) : LifecycleState → Prop :=
  Stage idle halted .all

/-- Nothing is known of the flag any more. -/
abbrev Settled (idle : ThreadId → Prop) : ServerParts → LifecycleState → Prop :=
  Stage idle False

/-- No thread is there at all. -/
abbrev AllSettled : ServerParts → LifecycleState → Prop := Settled fun _ => True

variable {idle idle' : ThreadId → Prop} {halted : Prop} {parts : ServerParts} {id : ThreadId}
  {i : Nat} {s : LifecycleState}

theorem Stage.mono (h : Stage idle halted parts s) (hidle : ∀ id, idle' id → idle id) :
    Stage idle' halted parts s :=
  ⟨fun id hid => h.idle id (hidle id hid), h.parts, h.halted⟩

theorem Stage.relax (h : Stage idle halted parts s) (hidle : ∀ id, idle' id → idle id) :
    Settled idle' parts s :=
  ⟨fun id hid => h.idle id (hidle id hid), h.parts, False.elim⟩

theorem Stage.server (h : Stage idle halted parts s) (hserver : parts.server = true) :
    s.parts.server = true := by
  rw [h.parts, hserver]

/-- The threads in `idle` and one more. -/
def Also (idle : ThreadId → Prop) (id : ThreadId) (x : ThreadId) : Prop := idle x ∨ x = id

/-- The threads in `idle` but for one. -/
def Without (idle : ThreadId → Prop) (id : ThreadId) (x : ThreadId) : Prop := idle x ∧ x ≠ id

/-- The worker of the history store may be there from `iec104_server_init` on. -/
def NotHistory (id : ThreadId) : Prop := id ≠ .history

@[simp] theorem notHistory_iff : NotHistory id ↔ id ≠ .history := Iff.rfl

/-! ### Threads -/

theorem Stage.also (h : Stage idle halted parts s) (hnone : s.threads id = none) :
    Stage (Also idle id) halted parts s := by
  refine ⟨fun x hx => ?_, h.parts, h.halted⟩
  rcases hx with hx | rfl
  · exact h.idle x hx
  · exact hnone

theorem Stage.set_none (h : Stage idle halted parts s) (id : ThreadId) :
    Stage (Also idle id) halted parts (setThread id none s) := by
  refine ⟨fun x hx => ?_, h.parts, h.halted⟩
  by_cases hid : x = id
  · rw [hid, setThread_self]
  · rw [setThread_of_ne hid]
    exact h.idle x (hx.resolve_right hid)

theorem Stage.set (h : Stage idle halted parts s) (id : ThreadId) (thread : Option Bool) :
    Stage (Without idle id) halted parts (setThread id thread s) := by
  refine ⟨fun x hx => ?_, h.parts, h.halted⟩
  rw [setThread_of_ne hx.2]
  exact h.idle x hx.1

theorem createThread_spec (hserver : parts.server = true) (hid : idle id) :
    ServerSpec (Stage idle halted parts) (createThread id) fun created s =>
      Stage (Without idle id) halted parts s ∧
        s.threads id = if created then some false else none := by
  refine Spec.bind (Spec.call (fun s h => ⟨fun _ => h.server hserver, h.idle id hid⟩)
    fun _ s h => h) fun created => ?_
  refine Spec.bind (Spec.update (Q := fun _ s => Stage (Without idle id) halted parts s ∧
    s.threads id = if created then some false else none) fun s h => ?_)
    fun _ => Spec.pure fun _ h => h
  exact ⟨h.set id _, setThread_self ..⟩

theorem startThread_spec (hserver : parts.server = true) (hid : ¬ idle id) :
    ServerSpec (fun s => Stage idle halted parts s ∧ s.threads id = some false) (startThread id)
      fun _ => Stage idle halted parts := by
  refine Spec.bind (Spec.call (fun s h => ⟨fun _ => h.1.server hserver, h.2⟩) fun _ s h => h.1)
    fun _ => ?_
  exact Spec.update fun s h => (h.set id _).mono fun x hx => ⟨hx, fun h => hid (h ▸ hx)⟩

theorem destroyThread_spec (hserver : parts.server = true) (id : ThreadId) :
    ServerSpec (fun s => Stage idle halted parts s ∧ s.threads id ≠ none ∧ Told s id)
      (destroyThread id) fun _ => Stage (Also idle id) halted parts := by
  refine Spec.bind (Spec.call (fun s h => ⟨fun _ => h.1.server hserver, h.2.1, fun _ => h.2.2⟩)
    fun _ s h => h.1) fun _ => ?_
  exact Spec.update fun s h => h.set_none id

theorem destroyIfAny_spec (hserver : parts.server = true) (id : ThreadId) :
    ServerSpec (fun s => Stage idle halted parts s ∧ Told s id) (destroyIfAny id)
      fun _ => Stage (Also idle id) halted parts := by
  refine Spec.read fun s h => ?_
  split
  · next hnone => exact Spec.pure (holds_at (h.1.also hnone))
  · next hsome =>
    exact (destroyThread_spec hserver id).weaken (holds_at ⟨h.1, hsome, h.2⟩) fun _ _ h => h

/-! ### Slave, clients and diagnosis -/

theorem slaveStop_spec (hserver : parts.server = true) :
    ServerSpec (Stage idle halted parts) slaveStop
      fun _ => Stage (Also idle .listening) halted parts := by
  refine Spec.bind (Spec.update (Q := fun _ s => Stage idle halted parts s ∧ Told s .listening)
    fun s h => ?_) fun _ => destroyIfAny_spec hserver .listening
  exact ⟨⟨h.idle, h.parts, h.halted⟩, rfl⟩

/-- `setFlag` changes the flag of the thread and nothing that a `Stage` looks at. -/
structure IsFlagOf (id : ThreadId) (setFlag : Bool → LifecycleState → LifecycleState) : Prop where
  stage : ∀ {idle halted parts s}, Stage idle halted parts s → ∀ running,
    Stage idle halted parts (setFlag running s)
  threads : ∀ running s, (setFlag running s).threads = s.threads
  told : ∀ s, Told (setFlag false s) id

theorem isFlagOf_worker (i : Nat) : IsFlagOf (.worker i) (setClientRunning i) where
  stage h _ := ⟨h.idle, h.parts, h.halted⟩
  threads _ _ := rfl
  told _ := Function.update_self _ _ _

theorem isFlagOf_diag : IsFlagOf .diag setDiagRunning where
  stage h _ := ⟨h.idle, h.parts, h.halted⟩
  threads _ _ := rfl
  told _ := rfl

theorem isFlagOf_history : IsFlagOf .history setHistoryRunning where
  stage h _ := ⟨h.idle, h.parts, h.halted⟩
  threads _ _ := rfl
  told _ := rfl

section Flag

variable {setFlag : Bool → LifecycleState → LifecycleState} (hflag : IsFlagOf id setFlag)

include hflag

theorem launch_spec (hserver : parts.server = true) (hid : idle id) :
    ServerSpec (Stage idle halted parts) (launch setFlag id)
      fun _ => Stage (Without idle id) halted parts := by
  refine Spec.bind (Spec.update (Q := fun _ => Stage idle halted parts)
    fun s h => hflag.stage h true) fun _ => ?_
  refine Spec.bind (createThread_spec hserver hid) fun created => ?_
  split
  · next hcreated =>
    subst hcreated
    exact Spec.bind (startThread_spec hserver fun h => h.2 rfl) fun _ => Spec.pure fun _ h => h
  · exact Spec.bind (Spec.update (Q := fun _ => Stage (Without idle id) halted parts)
      fun s h => hflag.stage h.1 false) fun _ => Spec.pure fun _ h => h

theorem quit_spec (hserver : parts.server = true) :
    ServerSpec (Stage idle halted parts) (quit setFlag id)
      fun _ => Stage (Also idle id) halted parts := by
  refine Spec.read fun s h => ?_
  split
  · next hnone => exact Spec.pure (holds_at (h.also hnone))
  · next hsome =>
    refine Spec.bind (Spec.update (Q := fun _ s => Stage idle halted parts s ∧
      s.threads id ≠ none ∧ Told s id) (holds_at ?_)) fun _ => destroyThread_spec hserver id
    exact ⟨hflag.stage h false, by rwa [hflag.threads], hflag.told s⟩

end Flag

/-- The workers of the first `count` clients. -/
def FirstWorkers (count : Nat) (id : ThreadId) : Prop := ∃ i < count, id = .worker i

theorem stopClients_spec (count : Nat) : ServerSpec (Whole idle halted) (stopClients count)
    fun _ => Whole (fun x => idle x ∨ FirstWorkers count x) halted := by
  refine (Spec.each_past (I := fun past =>
    Whole (fun x => idle x ∨ ∃ i ∈ past, x = .worker i) halted) (fun past i => ?_)
    (List.range count)).weaken (fun s h => ?_) fun _ s h => ?_
  · refine (quit_spec (isFlagOf_worker i) rfl).weaken (fun s h => h)
      fun _ s h => h.mono fun x hx => ?_
    rcases hx with hx | ⟨j, hj, rfl⟩
    · exact .inl (.inl hx)
    · rcases List.mem_append.mp hj with hj | hj
      · exact .inl (.inr ⟨j, hj, rfl⟩)
      · exact .inr (by rw [List.mem_singleton.mp hj])
  · exact h.mono fun x hx => hx.resolve_right fun ⟨_, hj, _⟩ => by cases hj
  · refine h.mono fun x hx => hx.imp_right ?_
    rintro ⟨j, hj, rfl⟩
    exact ⟨j, List.mem_range.mpr hj, rfl⟩

theorem diagServerStart_spec (p : ServerInput) (hdiag : idle .diag) :
    ServerSpec (Whole idle halted) (diagServerStart p)
      fun _ => Whole (Without idle .diag) halted := by
  have hkeep : ∀ s, Whole idle halted s → Whole (Without idle .diag) halted s :=
    fun s h => h.mono fun x hx => hx.1
  refine Spec.read fun s h => ?_
  split
  · exact Spec.pure (holds_at (hkeep s h))
  split
  · exact Spec.pure (holds_at (hkeep s h))
  · exact (launch_spec isFlagOf_diag rfl hdiag).weaken (holds_at h) fun _ _ h => h

/-! ### Start and stop -/

variable {p : ServerInput}

theorem slaveStart_spec (hcreated : p.listeningCreated = true) (hid : idle .listening) :
    ServerSpec (Whole idle halted) (slaveStart p)
      fun _ => Whole (Without idle .listening) halted := by
  refine Spec.read fun s h => ?_
  split
  · exact Spec.pure (holds_at (h.mono fun x hx => hx.1))
  refine Spec.bind (Spec.call (Q := fun _ => Whole idle halted)
    (holds_at ⟨fun _ => h.server rfl, h.idle _ hid⟩) fun _ => holds_at h) fun _ => ?_
  refine Spec.bind (Spec.update (Q := fun _ s => Whole (Without idle .listening) halted s ∧
    s.threads .listening = some false) fun s h => ⟨h.set _ _, setThread_self ..⟩) fun _ => ?_
  refine Spec.bind (startThread_spec rfl fun h => h.2 rfl) fun _ => ?_
  refine Spec.bind (Spec.call (fun s h => ⟨fun _ => h.server rfl, trivial⟩) fun _ s h => h)
    fun running => ?_
  exact Spec.update fun s h => ⟨h.idle, h.parts, h.halted⟩

/-- The loop ends at the first client that fails; a worker may be there for every client of the
list. -/
theorem startClients_spec (l : List Nat) (hnodup : l.Nodup) (hidle : ∀ i ∈ l, idle (.worker i)) :
    ServerSpec (Whole idle halted) (startClients l)
      fun _ => Whole (fun x => idle x ∧ ∀ i ∈ l, x ≠ .worker i) halted := by
  induction l generalizing idle with
  | nil => exact Spec.pure fun s h => h.mono fun x hx => hx.1
  | cons i rest ih =>
    obtain ⟨hnew, hrest⟩ := List.nodup_cons.mp hnodup
    refine Spec.bind (launch_spec (isFlagOf_worker i) rfl (hidle i (.head _))) fun started => ?_
    have hafter : ∀ x, (idle x ∧ ∀ j ∈ i :: rest, x ≠ .worker j) →
        Without idle (.worker i) x ∧ ∀ j ∈ rest, x ≠ .worker j :=
      fun x hx => ⟨⟨hx.1, hx.2 i (.head _)⟩, fun j hj => hx.2 j (.tail _ hj)⟩
    split
    · refine (ih hrest fun j hj => ⟨hidle j (.tail _ hj), ?_⟩).weaken (fun s h => h)
        fun _ s h => h.mono hafter
      rintro ⟨⟩
      exact hnew hj
    · exact Spec.pure fun s h => h.mono fun x hx => (hafter x hx).1

theorem halt_spec : ServerSpec (Whole idle halted)
    (update (setWorkerRunning false) : ServerProg Unit) fun _ => Whole idle True :=
  Spec.update fun _ h => ⟨h.idle, h.parts, fun _ => rfl⟩

/-- If the thread is wanted, it is created and not started. -/
def Ready (wanted : Bool) (id : ThreadId) (s : LifecycleState) : Prop :=
  wanted = true → s.threads id = some false

theorem createIf_spec (wanted : Bool) (hid : idle id) :
    ServerSpec (Whole idle halted) (createIf wanted id)
      fun created s => Whole (Without idle id) halted s ∧ (created = true → Ready wanted id s) := by
  rw [createIf]
  split
  · refine (createThread_spec rfl hid).weaken (fun _ h => h) fun created s h => ⟨h.1, ?_⟩
    rintro rfl -
    exact h.2
  · next hnot => exact Spec.pure fun s h => ⟨h.mono fun x hx => hx.1, fun _ h => absurd h hnot⟩

theorem startIf_spec (wanted : Bool) (hid : ¬ idle id) :
    ServerSpec (fun s => Whole idle halted s ∧ Ready wanted id s) (startIf wanted id)
      fun _ => Whole idle halted := by
  rw [startIf]
  split
  · next hwanted =>
    exact (startThread_spec rfl hid).weaken (fun s h => ⟨h.1, h.2 hwanted⟩) fun _ _ h => h
  · exact Spec.pure fun s h => h.1

section

variable {other : ThreadId} {wanted : Bool}

theorem Ready.setThread {s : LifecycleState} (h : Ready wanted other s) (hne : other ≠ id)
    (thread : Option Bool) : Ready wanted other (setThread id thread s) :=
  fun hwanted => (setThread_of_ne hne thread s).trans (h hwanted)

theorem createIf_keeps (needed : Bool) (hne : other ≠ id) :
    Spec (fun _ _ => True) (fun _ _ => True) (Ready wanted other) (createIf needed id)
      fun _ => Ready wanted other := by
  rw [createIf]
  split
  · refine Spec.bind (Spec.call (fun _ _ => trivial) fun _ _ h => h) fun created => ?_
    exact Spec.bind (Spec.update fun s h => h.setThread hne _) fun _ => Spec.pure fun _ h => h
  · exact Spec.pure fun _ h => h

theorem startIf_keeps (needed : Bool) (hne : other ≠ id) :
    Spec (fun _ _ => True) (fun _ _ => True) (Ready wanted other) (startIf needed id)
      fun _ => Ready wanted other := by
  rw [startIf]
  split
  · refine Spec.bind (Spec.call (fun _ _ => trivial) fun _ _ h => h) fun _ => ?_
    exact Spec.update fun s h => h.setThread hne _
  · exact Spec.pure fun _ h => h

end

theorem startThreads_spec (hshm : idle .shm) (hreport : idle .report) :
    ServerSpec (Whole idle halted) (startThreads p)
      fun _ => Whole (Without (Without idle .shm) .report) False := by
  refine Spec.bind (createIf_spec p.scanEnabled hshm) fun shm => ?_
  -- the second creation leaves the first thread as it is
  have hsecond : ServerSpec
      (fun s => Whole (Without idle .shm) halted s ∧ Ready (p.scanEnabled && shm) .shm s)
      (createIf p.activeUploadEnabled .report) _ :=
    (createIf_spec p.activeUploadEnabled ⟨hreport, by decide⟩).and
      (createIf_keeps p.activeUploadEnabled (by decide))
  refine Spec.bind (hsecond.weaken (fun s h => ⟨h.1, fun hw => ?_⟩) fun _ _ h => h)
    fun report => ?_
  · simp only [Bool.and_eq_true] at hw
    exact h.2 hw.2 hw.1
  split
  · refine Spec.bind (halt_spec.weaken (fun s h => h.1.1) fun _ _ h => h) fun _ => ?_
    refine Spec.bind (stopClients_spec p.clientCount) fun _ => ?_
    refine Spec.bind ((destroyIfAny_spec rfl .shm).weaken (fun s h => ⟨h, h.halted trivial⟩)
      fun _ _ h => h) fun _ => ?_
    refine Spec.bind ((destroyIfAny_spec rfl .report).weaken (fun s h => ⟨h, h.halted trivial⟩)
      fun _ _ h => h) fun _ => ?_
    refine Spec.bind (slaveStop_spec rfl) fun _ => Spec.pure fun s h => h.relax fun x hx => ?_
    exact .inl (.inl (.inl (.inl hx)))
  · next hboth =>
    obtain ⟨rfl, rfl⟩ : shm = true ∧ report = true := by simpa using hboth
    have hstart : ServerSpec (fun s =>
        (Whole (Without (Without idle .shm) .report) halted s ∧ Ready p.scanEnabled .shm s) ∧
          Ready p.activeUploadEnabled .report s) (startIf p.scanEnabled .shm) _ :=
      (startIf_spec p.scanEnabled fun h => h.1.2 rfl).and
        (startIf_keeps p.scanEnabled (by decide))
    refine Spec.bind (hstart.weaken (fun s h => ⟨⟨h.1.1, ?_⟩, h.1.2 rfl⟩) fun _ _ h => h)
      fun _ => ?_
    · exact fun hw => h.2 (by simpa using hw)
    exact Spec.bind (startIf_spec p.activeUploadEnabled fun h => h.2 rfl) fun _ =>
      Spec.pure fun s h => h.relax fun _ hx => hx

/-- What `iec104_server_start` does when it fails before it has created the threads of the
server. -/
theorem undo_spec (count : Nat) : ServerSpec (Whole idle halted)
    (do update (setWorkerRunning false); stopClients count; slaveStop; pure false : ServerProg Bool)
    fun _ => Whole idle False := by
  refine Spec.bind halt_spec fun _ => Spec.bind (stopClients_spec count) fun _ => ?_
  refine Spec.bind (slaveStop_spec rfl) fun _ => Spec.pure fun s h => ?_
  exact h.relax fun x hx => .inl (.inl hx)

/-- A worker that no client has. -/
def Beyond (count : Nat) (id : ThreadId) : Prop := ∃ i, count ≤ i ∧ id = .worker i

theorem iec104ServerStart_spec (hcreated : p.enabled = true → p.listeningCreated = true) :
    ServerSpec (Whole NotHistory halted) (iec104ServerStart p)
      fun _ => Whole (Beyond p.clientCount) False := by
  rw [iec104ServerStart]
  split
  · refine Spec.pure fun s h => h.relax ?_
    rintro _ ⟨i, _, rfl⟩
    simp
  next henabled =>
  refine Spec.bind (slaveStart_spec (hcreated (by simpa using henabled)) (by simp)) fun _ => ?_
  refine Spec.read fun s h => ?_
  split
  · refine Spec.pure (holds_at (h.relax ?_))
    rintro _ ⟨i, _, rfl⟩
    exact ⟨by simp, by simp⟩
  refine Spec.bind (Spec.update (Q := fun _ => Whole (Without NotHistory .listening) False)
    (holds_at ⟨h.idle, h.parts, False.elim⟩)) fun _ => ?_
  refine Spec.bind (startClients_spec (List.range p.clientCount) List.nodup_range
    fun i _ => ⟨by simp, by simp⟩) fun failed => ?_
  have hbeyond : ∀ x, Beyond p.clientCount x → ((Without NotHistory .listening x ∧
      ∀ i ∈ List.range p.clientCount, x ≠ .worker i) ∧ x ≠ .diag ∧ x ≠ .shm ∧ x ≠ .report) := by
    rintro _ ⟨i, hi, rfl⟩
    refine ⟨⟨⟨by simp, by simp⟩, ?_⟩, by simp⟩
    rintro j hj ⟨⟩
    exact absurd (List.mem_range.mp hj) (by omega)
  cases failed with
  | some i =>
    exact (undo_spec i).weaken (fun _ h => h) fun _ s h => h.relax fun x hx => (hbeyond x hx).1
  | none =>
    refine Spec.bind (diagServerStart_spec p ⟨⟨by simp, by simp⟩, by simp⟩) fun started => ?_
    split
    · refine (startThreads_spec ⟨⟨⟨by simp, by simp⟩, by simp⟩, by simp⟩
        ⟨⟨⟨by simp, by simp⟩, by simp⟩, by simp⟩).weaken (fun _ h => h) fun _ s h => ?_
      refine h.relax fun x hx => ?_
      obtain ⟨hidle, hdiag, hshm, hreport⟩ := hbeyond x hx
      exact ⟨⟨⟨hidle, hdiag⟩, hshm⟩, hreport⟩
    · refine (undo_spec p.clientCount).weaken (fun _ h => h) fun _ s h => h.relax fun x hx => ?_
      exact ⟨(hbeyond x hx).1, (hbeyond x hx).2.1⟩

theorem iec104ServerStop_spec : ServerSpec (Whole (Beyond p.clientCount) halted)
    (iec104ServerStop p) fun _ => Whole NotHistory True := by
  refine Spec.read fun s h => ?_
  split
  · next hslave => exact absurd hslave (by simp [h.parts, ServerParts.all])
  refine Spec.bind (halt_spec.weaken (holds_at h) fun _ _ h => h) fun _ => ?_
  refine Spec.bind (quit_spec isFlagOf_diag rfl) fun _ => ?_
  refine Spec.bind (stopClients_spec p.clientCount) fun _ => ?_
  refine Spec.bind ((destroyIfAny_spec rfl .shm).weaken (fun s h => ⟨h, h.halted trivial⟩)
    fun _ _ h => h) fun _ => ?_
  refine Spec.bind ((destroyIfAny_spec rfl .report).weaken (fun s h => ⟨h, h.halted trivial⟩)
    fun _ _ h => h) fun _ => ?_
  refine (slaveStop_spec rfl).weaken (fun _ h => h) fun _ s h => h.mono fun x hx => ?_
  cases x with
  | history => exact absurd rfl hx
  | listening => exact .inr rfl
  | report => exact .inl (.inr rfl)
  | shm => exact .inl (.inl (.inr rfl))
  | diag => exact .inl (.inl (.inl (.inl (.inr rfl))))
  | worker i =>
    by_cases hi : i < p.clientCount
    · exact .inl (.inl (.inl (.inr ⟨i, hi, rfl⟩)))
    · exact .inl (.inl (.inl (.inl (.inl ⟨i, by omega, rfl⟩))))

/-! ### Release -/

theorem setParts_spec (f : ServerParts → ServerParts) :
    ServerSpec (Settled idle parts) (setParts f) fun _ => Settled idle (f parts) :=
  Spec.update fun _ h => ⟨h.idle, congrArg f h.parts, False.elim⟩

theorem release_spec (part : ServerPart) (huses : ∀ id, Uses id part → idle id)
    (hserver : part ≠ .table → parts.server = true) (hnew : part ∉ parts.released) :
    ServerSpec (Settled idle parts) (release part) fun _ => Settled idle (parts.free part) := by
  refine Spec.bind (Spec.call (fun s h => ⟨?_, ?_, fun id hid => h.idle id (huses id hid)⟩)
    fun _ _ h => h) fun _ => setParts_spec _
  · rw [h.parts]
    exact hserver
  · rwa [h.parts]

/-- A part that the worker of the history store does not use. -/
theorem notHistory_of_uses {part : ServerPart} (hstore : part ≠ .historyStore)
    (hserver : part ≠ .server) : ∀ id, Uses id part → NotHistory id := by
  rintro id huses rfl
  exact huses.elim hstore hserver

/-- The worker is the last thread that is left. -/
theorem historyStoreDestroy_spec (hserver : parts.server = true)
    (hnew : ServerPart.historyStore ∉ parts.released) :
    ServerSpec (Settled NotHistory parts) historyStoreDestroy
      fun _ => AllSettled (parts.free .historyStore) := by
  refine Spec.bind (quit_spec isFlagOf_history hserver) fun _ => ?_
  refine (release_spec .historyStore (fun _ _ => trivial) (fun _ => hserver) hnew).weaken
    (fun s h => h.mono fun x _ => ?_) fun _ _ h => h
  exact ne_or_eq x .history

theorem clientContextDestroy_spec (i : Nat) (hserver : parts.server = true)
    (hclients : parts.clients = true ∨ i = 0) :
    ServerSpec (Settled NotHistory parts) (clientContextDestroy i)
      fun _ => Settled NotHistory parts := by
  refine Spec.read fun s h => ?_
  split
  · exact Spec.pure (holds_at h)
  · next hslot =>
    have hs : s.parts.clients = true := by
      rcases hclients with hclients | rfl
      · rw [h.parts, hclients]
      · simpa using hslot
    have hthere : s.parts.server = true := by rw [h.parts, hserver]
    exact Spec.bind (Spec.call (Q := fun _ => Settled NotHistory parts)
      (holds_at ⟨fun _ => hthere, hs⟩) fun _ => holds_at h)
      fun _ => (quit_spec (isFlagOf_worker i) hserver).weaken (fun _ h => h)
        fun _ _ h => h.mono fun _ hx => .inl hx

theorem eachClient_spec (hserver : parts.server = true)
    (hclients : parts.clients = true ∨ p.clientCount = 1) :
    ServerSpec (Settled NotHistory parts) (each clientContextDestroy (List.range p.clientCount))
      fun _ => Settled NotHistory parts := by
  rcases hclients with hclients | hone
  · exact Spec.each (fun i => clientContextDestroy_spec i hserver (.inl hclients)) _
  · rw [hone]
    exact Spec.bind (clientContextDestroy_spec 0 hserver (.inr rfl)) fun _ =>
      Spec.pure fun _ h => h

section Destroy

variable {clients lock slave : Bool} {released : List ServerPart}

/-- The parts after the release of one of them, if it is there. -/
def freed (part : ServerPart) (there : Bool) (released : List ServerPart) : List ServerPart :=
  if there then part :: released else released

@[simp] theorem mem_freed {part part' : ServerPart} {there : Bool} :
    part' ∈ freed part there released ↔ there = true ∧ part' = part ∨ part' ∈ released := by
  cases there <;> simp [freed]

theorem slaveDestroy_spec (hnew : ServerPart.slave ∉ released) :
    ServerSpec (Settled NotHistory ⟨true, clients, lock, slave, released⟩) slaveDestroy
      fun _ => Settled NotHistory ⟨true, clients, lock, false, freed .slave slave released⟩ := by
  refine Spec.read fun s h => ?_
  rw [h.parts]
  cases slave with
  | false => exact Spec.pure (holds_at h)
  | true =>
    refine Spec.bind ((slaveStop_spec rfl).weaken (holds_at h)
      fun _ _ h => h.mono fun _ hx => .inl hx) fun _ => ?_
    exact Spec.bind (release_spec .slave (notHistory_of_uses (by decide) (by decide))
      (fun _ => rfl) hnew) fun _ => setParts_spec _

theorem lockDestroy_spec (hnew : ServerPart.lock ∉ released) :
    ServerSpec (AllSettled ⟨true, clients, lock, slave, released⟩) lockDestroy
      fun _ => AllSettled ⟨true, clients, false, slave, freed .lock lock released⟩ := by
  refine Spec.read fun s h => ?_
  rw [h.parts]
  cases lock with
  | false => exact Spec.pure (holds_at h)
  | true =>
    refine Spec.bind ((release_spec .lock (fun _ _ => trivial) (fun _ => rfl) hnew).weaken
      (holds_at h) fun _ _ h => h) fun _ => ?_
    exact setParts_spec _

/-- What `iec104_server_destroy` releases. -/
def allFreed (lock slave : Bool) : List ServerPart :=
  .server :: freed .lock lock
    ([.activeUpload, .soeHistory, .historyStore, .shm, .clients] ++ freed .slave slave [])

theorem iec104ServerDestroy_spec (hclients : clients = true ∨ p.clientCount = 1) :
    ServerSpec (Settled NotHistory ⟨true, clients, lock, slave, []⟩) (iec104ServerDestroy p)
      fun _ => AllSettled ⟨false, false, false, false, allFreed lock slave⟩ := by
  refine Spec.bind (slaveDestroy_spec (by simp)) fun _ => ?_
  refine Spec.bind (eachClient_spec rfl hclients) fun _ => ?_
  refine Spec.bind (release_spec .clients (notHistory_of_uses (by decide) (by decide))
    (fun _ => rfl) (by simp)) fun _ => ?_
  refine Spec.bind (setParts_spec _) fun _ => ?_
  refine Spec.bind ((quit_spec isFlagOf_diag rfl).weaken (fun _ h => h)
    fun _ _ h => h.mono fun _ hx => .inl hx) fun _ => ?_
  refine Spec.bind (release_spec .shm (notHistory_of_uses (by decide) (by decide))
    (fun _ => rfl) ?_) fun _ => ?_
  · simp [ServerParts.free]
  -- from here on no thread is there
  refine Spec.bind (historyStoreDestroy_spec rfl ?_) fun _ => ?_
  · simp [ServerParts.free]
  refine Spec.bind (release_spec .soeHistory (fun _ _ => trivial) (fun _ => rfl) ?_) fun _ => ?_
  · simp [ServerParts.free]
  refine Spec.bind (release_spec .activeUpload (fun _ _ => trivial) (fun _ => rfl) ?_) fun _ => ?_
  · simp [ServerParts.free]
  refine Spec.bind (lockDestroy_spec ?_) fun _ => ?_
  · simp [ServerParts.free]
  refine Spec.bind (release_spec .server (fun _ _ => trivial) (fun _ => rfl) ?_)
    fun _ => setParts_spec _
  simp [ServerParts.free]

end Destroy

/-! ### The whole program -/

theorem andThen_spec {first second : ServerProg Bool} {P Q R : LifecycleState → Prop}
    (hfirst : ServerSpec P first fun _ => Q) (hsecond : ServerSpec Q second fun _ => R)
    (hQ : ∀ s, Q s → R s) : ServerSpec P (andThen first second) fun _ => R := by
  refine Spec.bind hfirst fun done => ?_
  split
  · exact hsecond
  · exact Spec.pure hQ

theorem allocate_spec (part : ServerPart) (hserver : parts.server = true) :
    ServerSpec (Stage idle halted parts) (call (.allocate part) : ServerProg Bool)
      fun _ => Stage idle halted parts :=
  Spec.call (fun _ h => ⟨fun _ => h.server hserver, trivial⟩) fun _ _ h => h

theorem historyStoreInit_spec :
    ServerSpec (Whole (fun _ => True) halted) (historyStoreInit p)
      fun _ => Whole NotHistory halted := by
  have hkeep : ∀ s, Whole (fun _ => True) halted s → Whole NotHistory halted s :=
    fun s h => h.mono fun _ _ => trivial
  rw [historyStoreInit]
  split
  · exact Spec.pure hkeep
  refine Spec.bind (allocate_spec .historyStore rfl) fun allocated => ?_
  split
  · exact (launch_spec isFlagOf_history rfl trivial).weaken (fun _ h => h)
      fun _ s h => h.mono fun _ hx => ⟨trivial, hx⟩
  · exact Spec.pure hkeep

theorem initClients_spec (l : List Nat) :
    ServerSpec (Whole idle halted) (initClients l) fun _ => Whole idle halted := by
  induction l with
  | nil => exact Spec.pure fun _ h => h
  | cons i rest ih =>
    refine andThen_spec (Spec.call (fun s h => ⟨fun _ => h.server rfl, ?_⟩) fun _ _ h => h) ih
      fun _ h => h
    exact congrArg ServerParts.clients h.parts

theorem initParts_spec :
    ServerSpec (Whole (fun _ => True) halted) (initParts p)
      fun _ => Whole NotHistory halted := by
  have hkeep : ∀ s, Whole (fun _ => True) halted s → Whole NotHistory halted s :=
    fun s h => h.mono fun _ _ => trivial
  refine andThen_spec (allocate_spec .activeUpload rfl) ?_ hkeep
  refine andThen_spec (allocate_spec .soeHistory rfl) ?_ hkeep
  refine andThen_spec historyStoreInit_spec ?_ fun _ h => h
  exact andThen_spec (allocate_spec .shm rfl) (initClients_spec _) fun _ h => h

/-- The server is released, and so is all that it had. -/
def Freed (parts : ServerParts) : Prop :=
  parts = .none ∨ ∃ lock slave, parts = ⟨false, false, false, false, allFreed lock slave⟩

/-- What is there after `iec104_server_init`. -/
def Initialised (p : ServerInput) (done : Bool) (s : LifecycleState) : Prop :=
  if done then Whole NotHistory False s ∧ p.clientsAllocated = true
  else ∃ parts, Freed parts ∧ AllSettled parts s

theorem iec104ServerInit_spec (hclients : p.clientsAllocated = true ∨ p.clientCount = 1) :
    ServerSpec (AllSettled .none) (iec104ServerInit p) (Initialised p) := by
  refine Spec.bind (Spec.call (fun _ _ => ⟨fun h => absurd rfl h, trivial⟩) fun _ _ h => h)
    fun server => ?_
  split
  · exact Spec.pure fun _ h => ⟨_, .inl rfl, h⟩
  refine Spec.bind (setParts_spec _) fun _ => ?_
  refine Spec.bind (allocate_spec .clients rfl) fun _ => Spec.bind (setParts_spec _) fun _ => ?_
  refine Spec.bind (allocate_spec .lock rfl) fun lock => Spec.bind (setParts_spec _) fun _ => ?_
  refine Spec.bind (allocate_spec .slave rfl) fun slave => Spec.bind (setParts_spec _) fun _ => ?_
  split
  · refine Spec.bind ((iec104ServerDestroy_spec hclients).weaken
      (fun s h => h.mono fun _ _ => trivial) fun _ _ h => h) fun _ => ?_
    exact Spec.pure fun _ h => ⟨_, .inr ⟨lock, slave, rfl⟩, h⟩
  next hparts =>
  obtain ⟨⟨hallocated, rfl⟩, rfl⟩ : (p.clientsAllocated = true ∧ lock = true) ∧ slave = true := by
    simpa using hparts
  refine Spec.bind (initParts_spec.weaken (fun s h => ⟨h.idle, ?_, False.elim⟩) fun _ _ h => h)
    fun done => ?_
  · rw [h.parts, hallocated]
    rfl
  split
  · exact Spec.pure fun s h => ⟨h, hallocated⟩
  · refine Spec.bind ((iec104ServerDestroy_spec (.inl rfl)).weaken
      (fun s h => h.relax fun _ hx => hx) fun _ _ h => h) fun _ => ?_
    exact Spec.pure fun _ h => ⟨_, .inr ⟨true, true, rfl⟩, h⟩

/-- The listening thread is created if the program gets to that point, and the slots of the clients
are there unless there is only one. -/
def Safe (p : ServerInput) : Prop :=
  (p.clientsAllocated = true → p.enabled = true → p.listeningCreated = true) ∧
    (p.clientsAllocated = true ∨ p.clientCount = 1)

/-- The end of `main`: no thread is there, the pointers are cleared, and if there was a server, all
parts are released. -/
def Ended (s : LifecycleState) : Prop :=
  (∀ id, s.threads id = none) ∧
    ∃ released, s.parts = ⟨false, false, false, false, .table :: released⟩ ∧
      (released = [] ∨ ∃ lock slave, released = allFreed lock slave)

theorem releaseTable_spec {P : LifecycleState → Prop}
    (hP : ∀ s, P s → ∃ parts, Freed parts ∧ AllSettled parts s) :
    ServerSpec P (release .table) fun _ => Ended := by
  intro answers w hmay hfine h
  obtain ⟨parts, hfreed, hs⟩ := hP _ h
  have hnew : ServerPart.table ∉ parts.released := by
    rcases hfreed with rfl | ⟨lock, slave, rfl⟩
    · simp [ServerParts.none]
    · simp [allFreed]
  obtain ⟨hfine', hend⟩ := release_spec .table (fun _ _ => trivial) (fun h => absurd rfl h) hnew
    answers w hmay hfine hs
  refine ⟨hfine', fun id => hend.idle id trivial, ?_⟩
  rcases hfreed with rfl | ⟨lock, slave, rfl⟩
  · exact ⟨[], hend.parts, .inl rfl⟩
  · exact ⟨_, hend.parts, .inr ⟨lock, slave, rfl⟩⟩

theorem main_spec (hsafe : Safe p) :
    ServerSpec (AllSettled .none) (main p) fun _ => Ended := by
  refine Spec.bind (iec104ServerInit_spec hsafe.2) fun done => ?_
  cases done with
  | false => exact releaseTable_spec fun s h => h
  | true =>
    by_cases hclients : p.clientsAllocated = true
    · refine Spec.bind ((iec104ServerStart_spec (hsafe.1 hclients)).weaken
        (fun s h => h.1) fun _ _ h => h) fun _ => ?_
      refine Spec.bind iec104ServerStop_spec fun _ => ?_
      refine Spec.bind ((iec104ServerDestroy_spec (.inl rfl)).weaken
        (fun s h => h.relax fun _ hx => hx) fun _ _ h => h) fun _ => ?_
      exact releaseTable_spec fun s h => ⟨_, .inr ⟨true, true, rfl⟩, h⟩
    · exact fun _ _ _ _ h => absurd h.2 hclients

end ServerLifecycle

open ServerLifecycle

example : ∃ s, (.free .slave, s) ∈ (main ⟨false, false, false, false, true, 1, true, true⟩
    (fun _ _ => true) ⟨initial, []⟩).2.trace ∧ s.threads .history = some true :=
  ⟨_, List.mem_of_getElem? (i := 11) rfl, rfl⟩

/-! Both conditions are needed: a listening thread that was not created is started all the same, and
`iec104_server_destroy` visits the second of two clients that are not there. -/

example : ¬ Fine Allowed (main ⟨true, false, false, false, false, 1, true, false⟩ (fun _ _ => true)
    ⟨initial, []⟩).2 := by
  intro h
  have hstart : (none : Option Bool) = some false := (h _ (List.mem_of_getElem? (i := 9) rfl)).2
  simp at hstart

example : ¬ Fine Allowed (main ⟨true, false, false, false, false, 2, false, true⟩ (fun _ _ => true)
    ⟨initial, []⟩).2 := by
  intro h
  have hslots : false = true := (h _ (List.mem_of_getElem? (i := 5) rfl)).2
  simp at hslots

end Iec104Slave
