import Iec104Slave.ClientContext
import Iec104Slave.RwLock

/-!
# The semaphores of the work queue (`client_context.c`)

The queue of a client is guarded by the semaphore `queue_lock`, and `queue_items` wakes the
worker. The number of queued messages and the tokens of `queue_items` are written in separate
steps: a post pushes under the lock and wakes the worker afterwards, the worker takes a token
and pops afterwards. A bind or a close drops messages and takes no token, a close and a stop
add a token for no message, and so does a post that replaces a queued message.

The threads that call into the context are any finite type, beside the one worker. One step
is one semaphore operation, the work done between two of them, or one access outside the
lock. A handler that posts from inside the worker is one more calling thread here.

Results:
1. `callerOp_move`, `workerOp_move`: what one operation does to the lock and to the tokens.
2. `queue_access_exclusive`: the parts under the lock exclude each other, so each of them is
   one step.
3. `no_lost_wake_up`: no queued message is left without a token for it, in every state of
   every interleaving.
-/

namespace Iec104Slave

open Tally

/-! ## The code -/

/-- A call into the context. -/
inductive ClientCall (μ : Type)
  | post (msg : μ) (highPriority : Bool)
  | bind (connection : Nat)
  | close
  /-- `client_context_start`; `Thread_create` may fail. -/
  | start (created : Bool)
  | stop
  /-- The connection event handler writes `started` outside the lock. -/
  | setStarted (started : Bool)

/-- Where a calling thread is: the next operation it executes. -/
inductive CallerPc (μ : Type)
  | idle
  | postLock (msg : μ) (highPriority : Bool)
  | postPush (msg : μ) (highPriority : Bool)
  | postUnlock (ok : Bool)
  | postItems
  | bindLock (connection : Nat)
  | bindAssign (connection : Nat)
  | bindUnlock
  | closeLock
  | closeAssign
  | closeUnlock
  | closeItems
  | stopItems
  | stopJoin
deriving DecidableEq

/-- Where the worker is. -/
inductive WorkerPc (μ : Type)
  /-- There is no worker thread, or it has returned. -/
  | stopped
  /-- At the condition of its loop. -/
  | test
  | waitItems
  | waitLock
  | pop
  | unlock (popped : Option μ)
  /-- `queue_pop` has returned a message. -/
  | dispatch (msg : μ)
  /-- Inside `handler`. -/
  | handling
deriving DecidableEq

def WorkerPc.isStopped {μ : Type} : WorkerPc μ → Bool
  | .stopped => true
  | _ => false

/-- What the threads share: the context, its semaphores, and the worker thread. -/
structure ClientShared (μ : Type) where
  ctx : ClientContext μ
  workerRunning : Bool
  queueLock : Nat
  queueItems : Nat
  worker : WorkerPc μ
deriving DecidableEq

/-- After `client_context_init`. -/
def ClientShared.init {μ : Type} [Inhabited μ] (queueCapacity : Nat) : ClientShared μ where
  ctx := clientContextInit queueCapacity
  workerRunning := false
  queueLock := 1
  queueItems := 0
  worker := .stopped

section code

variable {μ : Type} (msgType : μ → Iec104MsgType)

/-- The first operation of a call. -/
def callOp (s : ClientShared μ) : ClientCall μ → CallerPc μ × ClientShared μ
  | .post msg highPriority =>
    if s.ctx.workerThread then (.postLock msg highPriority, s) else (.idle, s)
  | .bind connection => (.bindLock connection, s)
  | .close => (.closeLock, s)
  | .start created =>
    -- the server starts a context only while it has no worker
    if s.worker.isStopped then
      if created then
        (.idle, { s with
          ctx := clientContextStart s.ctx, workerRunning := true, worker := .test })
      else
        (.idle, { s with
          ctx := { s.ctx with workerThread := false }, workerRunning := false })
    else (.idle, s)
  | .stop =>
    if s.ctx.workerThread then (.stopItems, { s with workerRunning := false }) else (.idle, s)
  | .setStarted started => (.idle, { s with ctx := { s.ctx with started := started } })

/-- The next operation of a calling thread: where it is after it, and what the threads
share. `call` is the call it makes when it is idle. A blocked thread has none. -/
def callerOp (call : ClientCall μ) (s : ClientShared μ) :
    CallerPc μ → Option (CallerPc μ × ClientShared μ)
  | .idle => some (callOp s call)
  -- client_context_post
  | .postLock msg highPriority => (semaphoreWait s.queueLock).map fun sem =>
      (.postPush msg highPriority, { s with queueLock := sem })
  | .postPush msg highPriority =>
    let pushed := queuePushLocked msgType s.ctx msg highPriority
    some (.postUnlock pushed.2, { s with ctx := pushed.1 })
  | .postUnlock ok =>
    some (if ok then .postItems else .idle, { s with queueLock := semaphorePost s.queueLock })
  | .postItems => some (.idle, { s with queueItems := semaphorePost s.queueItems })
  -- client_context_bind_connection
  | .bindLock connection => (semaphoreWait s.queueLock).map fun sem =>
      (.bindAssign connection, { s with queueLock := sem })
  | .bindAssign connection =>
    some (.bindUnlock, { s with ctx := clientContextBindConnection s.ctx connection })
  | .bindUnlock => some (.idle, { s with queueLock := semaphorePost s.queueLock })
  -- client_context_close_connection
  | .closeLock => (semaphoreWait s.queueLock).map fun sem =>
      (.closeAssign, { s with queueLock := sem })
  | .closeAssign => some (.closeUnlock, { s with ctx := clientContextCloseConnection s.ctx })
  | .closeUnlock => some (.closeItems, { s with queueLock := semaphorePost s.queueLock })
  | .closeItems => some (.idle, { s with queueItems := semaphorePost s.queueItems })
  -- client_context_stop
  | .stopItems => some (.stopJoin, { s with queueItems := semaphorePost s.queueItems })
  | .stopJoin =>
    -- Thread_destroy joins the worker
    if s.worker.isStopped then
      some (.idle, { s with ctx := { s.ctx with workerThread := false } })
    else none

/-- The next operation of `client_worker_thread`. Inside the handler, `sent` is what it
writes to the context next, and `none` is its return. -/
def workerOp (sent : Option (UInt64 × Nat)) (s : ClientShared μ) : Option (ClientShared μ) :=
  match s.worker with
  | .stopped => none
  | .test => some { s with worker := if s.workerRunning then .waitItems else .stopped }
  -- queue_pop
  | .waitItems => (semaphoreWait s.queueItems).map fun sem =>
      { s with queueItems := sem, worker := .waitLock }
  | .waitLock => (semaphoreWait s.queueLock).map fun sem =>
      { s with queueLock := sem, worker := .pop }
  | .pop =>
    let popped := queuePop s.ctx
    some { s with ctx := popped.1, worker := .unlock popped.2 }
  | .unlock popped =>
    some { s with
      queueLock := semaphorePost s.queueLock
      worker := match popped with
        | none => .test
        | some msg => .dispatch msg }
  | .dispatch msg =>
    if msgType msg = .connectionClosed then
      some { s with ctx := { s.ctx with connected := false }, worker := .test }
    else some { s with worker := .handling }
  | .handling =>
    match sent with
    | none => some { s with worker := .test }
    | some (time, version) =>
      some { s with ctx := { s.ctx with lastSendTimeMs := time, lastUploadedVersion := version } }

/-! ## The threads -/

variable {T : Type}

/-- The shared state, and of each calling thread where it is. -/
structure ClientThreads (T μ : Type) where
  shared : ClientShared μ
  caller : T → CallerPc μ

/-- The context is initialised, no thread is in a call. -/
def ClientThreads.start [Inhabited μ] (queueCapacity : Nat) : ClientThreads T μ where
  shared := .init queueCapacity
  caller := fun _ => .idle

/-- Who moves next. -/
inductive ClientTurn (T μ : Type)
  | caller (t : T) (call : ClientCall μ)
  | worker (sent : Option (UInt64 × Nat))

/-- One turn of the schedule: a thread that cannot step leaves the state as it is. -/
def clientTurn [DecidableEq T] (s : ClientThreads T μ) : ClientTurn T μ → ClientThreads T μ
  | .caller t call =>
    match callerOp msgType call s.shared (s.caller t) with
    | none => s
    | some (pc, shared) => { shared := shared, caller := Function.update s.caller t pc }
  | .worker sent =>
    match workerOp msgType sent s.shared with
    | none => s
    | some shared => { s with shared := shared }

end code

/-! ## Positions -/

variable {μ T : Type}

/-- Between the wait and the post on `queue_lock`. -/
def CallerPc.inLock : CallerPc μ → Bool
  | .postPush _ _ | .postUnlock _ | .bindAssign _ | .bindUnlock | .closeAssign
  | .closeUnlock => true
  | _ => false

/-- Between a successful push and its post on `queue_items`. -/
def CallerPc.pending : CallerPc μ → Bool
  | .postUnlock true | .postItems => true
  | _ => false

/-- Between the wait and the post on `queue_lock`. -/
def WorkerPc.inLock : WorkerPc μ → Bool
  | .pop | .unlock _ => true
  | _ => false

/-- Between the wait on `queue_items` and the pop. -/
def WorkerPc.awake : WorkerPc μ → Bool
  | .waitLock | .pop => true
  | _ => false

/-- Waiting on `queue_items` while it has no token. -/
def ClientShared.Asleep (s : ClientShared μ) : Prop :=
  s.worker = .waitItems ∧ s.queueItems = 0

/-- What the semaphores promise: every queued message has a token, a post on its way or the
worker on its way, and so a sleeping worker has no message to miss. -/
structure NoLostWakeUp [Fintype T] (s : ClientThreads T μ) : Prop where
  covered : s.shared.ctx.queueCount ≤
    s.shared.queueItems + count CallerPc.pending s.caller + s.shared.worker.awake.toNat
  no_sleep : s.shared.Asleep → (∀ t, (s.caller t).pending = false) →
    s.shared.ctx.queueCount = 0

/-! ## What one operation does -/

/-- The effect of an operation of one thread, of which `held` says whether it has the lock
and `owed` whether it accounts for a message, each before and after. -/
structure WakeMove (s s' : ClientShared μ) (held held' owed owed' : Bool) : Prop where
  lock : s'.queueLock + held'.toNat = s.queueLock + held.toNat
  -- a queue that is empty afterwards needs no token
  tokens : s'.ctx.queueCount = 0 ∨
    s'.ctx.queueCount + (s.queueItems + owed.toNat) ≤
      s.ctx.queueCount + (s'.queueItems + owed'.toNat)

/-- An operation of a calling thread leaves a worker that runs where it is. -/
def SameWorker (s s' : ClientShared μ) : Prop :=
  s'.worker.inLock = s.worker.inLock ∧ s'.worker.awake = s.worker.awake

namespace WakeUpLemmas

open RwLockLemmas

variable {msgType : μ → Iec104MsgType} {s s' : ClientShared μ}

theorem sameWorker_start (h : s.worker.isStopped = true) (hs' : s'.worker = .test) :
    SameWorker s s' := by
  cases hpc : s.worker with
  | stopped => exact ⟨by rw [hpc, hs']; rfl, by rw [hpc, hs']; rfl⟩
  | _ => rw [hpc] at h; cases h

/-- An operation that leaves the queue and `queue_items` alone. -/
theorem tokens_same {owed owed' : Bool} (hcount : s'.ctx.queueCount = s.ctx.queueCount)
    (hitems : s'.queueItems = s.queueItems) (howed : owed' = owed) :
    s'.ctx.queueCount = 0 ∨
      s'.ctx.queueCount + (s.queueItems + owed.toNat) ≤
        s.ctx.queueCount + (s'.queueItems + owed'.toNat) := by
  rw [hcount, hitems, howed]
  exact .inr le_rfl

theorem push_count (ctx : ClientContext μ) (msg : μ) (highPriority : Bool) :
    (queuePushLocked msgType ctx msg highPriority).1.queueCount ≤
      ctx.queueCount + (queuePushLocked msgType ctx msg highPriority).2.toNat := by
  unfold queuePushLocked
  split
  · split
    · exact Nat.le_add_right _ _
    · exact le_rfl
  · split
    · exact le_rfl
    · exact le_rfl

theorem pop_count (ctx : ClientContext μ) :
    (queuePop ctx).1.queueCount = 0 ∨ (queuePop ctx).1.queueCount + 1 = ctx.queueCount := by
  unfold queuePop
  split
  · next hzero => exact .inl hzero
  · next hne => exact .inr (Nat.succ_pred hne)

/-- A call starts no message, takes no lock, and does not move a worker that runs. -/
theorem callOp_move {call : ClientCall μ} {q : CallerPc μ} (h : callOp s call = (q, s')) :
    WakeMove s s' false q.inLock false q.pending ∧ SameWorker s s' := by
  cases call with
  | post msg highPriority =>
    simp only [callOp] at h
    split at h
    · cases h; exact ⟨⟨rfl, tokens_same rfl rfl rfl⟩, rfl, rfl⟩
    · cases h; exact ⟨⟨rfl, tokens_same rfl rfl rfl⟩, rfl, rfl⟩
  | bind connection => cases h; exact ⟨⟨rfl, tokens_same rfl rfl rfl⟩, rfl, rfl⟩
  | close => cases h; exact ⟨⟨rfl, tokens_same rfl rfl rfl⟩, rfl, rfl⟩
  | start created =>
    simp only [callOp] at h
    split at h
    · next hstopped =>
      split at h
      · cases h; exact ⟨⟨rfl, tokens_same rfl rfl rfl⟩, sameWorker_start hstopped rfl⟩
      · cases h; exact ⟨⟨rfl, tokens_same rfl rfl rfl⟩, rfl, rfl⟩
    · cases h; exact ⟨⟨rfl, tokens_same rfl rfl rfl⟩, rfl, rfl⟩
  | stop =>
    simp only [callOp] at h
    split at h
    · cases h; exact ⟨⟨rfl, tokens_same rfl rfl rfl⟩, rfl, rfl⟩
    · cases h; exact ⟨⟨rfl, tokens_same rfl rfl rfl⟩, rfl, rfl⟩
  | setStarted started => cases h; exact ⟨⟨rfl, tokens_same rfl rfl rfl⟩, rfl, rfl⟩

/-- The wait on the lock, of any call. -/
theorem wait_move {p q target : CallerPc μ}
    (h : ((semaphoreWait s.queueLock).map fun sem =>
      (target, { s with queueLock := sem })) = some (q, s'))
    (hp : p.inLock = false) (hq : target.inLock = true) (howed : target.pending = p.pending) :
    WakeMove s s' p.inLock q.inLock p.pending q.pending ∧ SameWorker s s' := by
  obtain ⟨sem, hsem, heq⟩ := Option.map_eq_some_iff.mp h
  cases heq
  refine ⟨⟨?_, tokens_same rfl rfl howed⟩, rfl, rfl⟩
  rw [hp, hq]
  exact (semaphoreWait_some hsem).symm

theorem callerOp_move {call : ClientCall μ} {p q : CallerPc μ}
    (h : callerOp msgType call s p = some (q, s')) :
    WakeMove s s' p.inLock q.inLock p.pending q.pending ∧ SameWorker s s' := by
  cases p with
  | idle => exact callOp_move (Option.some.inj h)
  | postLock msg highPriority => exact wait_move h rfl rfl rfl
  | postPush msg highPriority =>
    cases h
    refine ⟨⟨rfl, .inr ?_⟩, rfl, rfl⟩
    -- the message pushed is the one that the thread owes a token for
    have hpush : (queuePushLocked msgType s.ctx msg highPriority).1.queueCount ≤ _ :=
      push_count s.ctx msg highPriority
    cases hok : (queuePushLocked msgType s.ctx msg highPriority).2 with
    | false =>
      rw [hok] at hpush
      exact Nat.add_le_add_right hpush _
    | true =>
      rw [hok] at hpush
      exact (Nat.add_le_add_right hpush _).trans_eq (by ac_rfl)
  | postUnlock ok =>
    cases h
    cases ok with
    | false => exact ⟨⟨rfl, tokens_same rfl rfl rfl⟩, rfl, rfl⟩
    | true => exact ⟨⟨rfl, tokens_same rfl rfl rfl⟩, rfl, rfl⟩
  | postItems =>
    cases h
    exact ⟨⟨rfl, .inr le_rfl⟩, rfl, rfl⟩
  | bindLock connection => exact wait_move h rfl rfl rfl
  | bindAssign connection =>
    cases h
    exact ⟨⟨rfl, .inl rfl⟩, rfl, rfl⟩
  | bindUnlock =>
    cases h
    exact ⟨⟨rfl, tokens_same rfl rfl rfl⟩, rfl, rfl⟩
  | closeLock => exact wait_move h rfl rfl rfl
  | closeAssign =>
    cases h
    exact ⟨⟨rfl, .inl rfl⟩, rfl, rfl⟩
  | closeUnlock =>
    cases h
    exact ⟨⟨rfl, tokens_same rfl rfl rfl⟩, rfl, rfl⟩
  | closeItems =>
    cases h
    exact ⟨⟨rfl, .inr (Nat.add_le_add_left (Nat.le_succ _) _)⟩, rfl, rfl⟩
  | stopItems =>
    cases h
    exact ⟨⟨rfl, .inr (Nat.add_le_add_left (Nat.le_succ _) _)⟩, rfl, rfl⟩
  | stopJoin =>
    simp only [callerOp] at h
    split at h
    · cases h; exact ⟨⟨rfl, tokens_same rfl rfl rfl⟩, rfl, rfl⟩
    · cases h

theorem workerOp_move {sent : Option (UInt64 × Nat)} (h : workerOp msgType sent s = some s') :
    WakeMove s s' s.worker.inLock s'.worker.inLock s.worker.awake s'.worker.awake := by
  unfold workerOp at h
  cases hpc : s.worker with
  | stopped => rw [hpc] at h; cases h
  | test =>
    rw [hpc] at h
    cases h
    cases hrun : s.workerRunning with
    | false => exact ⟨rfl, tokens_same rfl rfl rfl⟩
    | true => exact ⟨rfl, tokens_same rfl rfl rfl⟩
  | waitItems =>
    rw [hpc] at h
    obtain ⟨sem, hsem, heq⟩ := Option.map_eq_some_iff.mp h
    cases heq
    refine ⟨rfl, .inr ?_⟩
    exact (congrArg (s.ctx.queueCount + ·) (semaphoreWait_some hsem)).le
  | waitLock =>
    rw [hpc] at h
    obtain ⟨sem, hsem, heq⟩ := Option.map_eq_some_iff.mp h
    cases heq
    exact ⟨(semaphoreWait_some hsem).symm, tokens_same rfl rfl rfl⟩
  | pop =>
    rw [hpc] at h
    cases h
    refine ⟨rfl, ?_⟩
    rcases pop_count s.ctx with hzero | hone
    · exact .inl hzero
    · refine .inr (Eq.le ?_)
      rw [← hone]
      exact (Nat.add_right_comm _ 1 _).symm
  | unlock popped =>
    rw [hpc] at h
    cases h
    cases popped with
    | none => exact ⟨rfl, tokens_same rfl rfl rfl⟩
    | some msg => exact ⟨rfl, tokens_same rfl rfl rfl⟩
  | dispatch msg =>
    rw [hpc] at h
    simp only at h
    split at h
    · cases h; exact ⟨rfl, tokens_same rfl rfl rfl⟩
    · cases h; exact ⟨rfl, tokens_same rfl rfl rfl⟩
  | handling =>
    rw [hpc] at h
    cases sent with
    | none => cases h; exact ⟨rfl, tokens_same rfl rfl rfl⟩
    | some written =>
      cases h
      exact ⟨rfl, tokens_same rfl rfl rfl⟩

/-! ## The invariant -/

variable [Fintype T]

/-- The semaphores, in terms of where the threads are. -/
structure WakeInv (s : ClientThreads T μ) : Prop where
  lock : s.shared.queueLock + count CallerPc.inLock s.caller + s.shared.worker.inLock.toNat = 1
  covered : s.shared.ctx.queueCount ≤
    s.shared.queueItems + count CallerPc.pending s.caller + s.shared.worker.awake.toNat

theorem wakeInv_start [Inhabited μ] (queueCapacity : Nat) :
    WakeInv (ClientThreads.start queueCapacity : ClientThreads T μ) where
  lock := by
    rw [count_eq_zero (f := (ClientThreads.start queueCapacity : ClientThreads T μ).caller)
      fun _ => rfl]
    rfl
  covered := Nat.zero_le _

theorem noLostWakeUp_of_inv {s : ClientThreads T μ} (hs : WakeInv s) : NoLostWakeUp s where
  covered := hs.covered
  no_sleep := by
    rintro ⟨hworker, hitems⟩ hnone
    have hcovered := hs.covered
    rw [hitems, count_eq_zero hnone, hworker] at hcovered
    exact Nat.le_zero.mp hcovered

theorem wakeInv_worker {s : ClientThreads T μ} (hs : WakeInv s)
    (hmove : WakeMove s.shared s' s.shared.worker.inLock s'.worker.inLock s.shared.worker.awake
      s'.worker.awake) :
    WakeInv { s with shared := s' } := by
  have hlock := hs.lock
  have hcovered := hs.covered
  constructor
  · have hmoved := hmove.lock
    simp only
    omega
  · rcases hmove.tokens with hempty | htokens
    · exact hempty.trans_le (Nat.zero_le _)
    · simp only
      omega

variable [DecidableEq T]

theorem wakeInv_caller {s : ClientThreads T μ} (hs : WakeInv s) {t : T} {q : CallerPc μ}
    (hmove : WakeMove s.shared s' (s.caller t).inLock q.inLock (s.caller t).pending q.pending)
    (hworker : SameWorker s.shared s') :
    WakeInv { shared := s', caller := Function.update s.caller t q } := by
  have hlock := hs.lock
  have hcovered := hs.covered
  constructor
  · have hin := count_update (P := CallerPc.inLock) (f := s.caller) t q
    have hmoved := hmove.lock
    simp only [hworker.1]
    omega
  · have hpending := count_update (P := CallerPc.pending) (f := s.caller) t q
    rcases hmove.tokens with hempty | htokens
    · exact hempty.trans_le (Nat.zero_le _)
    · simp only [hworker.2]
      omega

theorem wakeInv_turn {s : ClientThreads T μ} (hs : WakeInv s) (turn : ClientTurn T μ) :
    WakeInv (clientTurn msgType s turn) := by
  cases turn with
  | caller t call =>
    simp only [clientTurn]
    split
    · exact hs
    · next hop =>
      obtain ⟨hmove, hworker⟩ := callerOp_move hop
      exact wakeInv_caller hs hmove hworker
  | worker sent =>
    simp only [clientTurn]
    split
    · exact hs
    · next hop => exact wakeInv_worker hs (workerOp_move hop)

theorem wakeInv_run [Inhabited μ] (msgType : μ → Iec104MsgType) (queueCapacity : Nat)
    (turns : List (ClientTurn T μ)) :
    WakeInv (Run.exec (clientTurn msgType) (.start queueCapacity) turns) :=
  Run.exec_induction (I := fun _ => WakeInv) (wakeInv_start queueCapacity)
    (fun _ _ turn hs => wakeInv_turn hs turn) turns

end WakeUpLemmas

open WakeUpLemmas

variable [Fintype T] [DecidableEq T] [Inhabited μ]

/-- While a calling thread is between its wait and its post on `queue_lock`, no other one is,
and neither is the worker. -/
theorem queue_access_exclusive (msgType : μ → Iec104MsgType) (queueCapacity : Nat)
    (turns : List (ClientTurn T μ)) (t : T)
    (h : ((Run.exec (clientTurn msgType) (.start queueCapacity) turns).caller t).inLock = true) :
    (∀ u, ((Run.exec (clientTurn msgType) (.start queueCapacity) turns).caller u).inLock = true →
      u = t) ∧
    (Run.exec (clientTurn msgType) (.start queueCapacity) turns).shared.worker.inLock = false := by
  have hlock := (wakeInv_run msgType queueCapacity turns).lock
  have hpos := count_pos t h
  constructor
  · intro u hu
    refine eq_of_count_le_one ?_ hu h
    omega
  · refine Bool.toNat_eq_zero.mp ?_
    omega

/-- In every state of every interleaving of posts, binds, closes, starts and stops by any
number of threads with the worker, the queued messages are covered by the tokens of
`queue_items`, the posts between push and token, and the worker between token and pop. -/
theorem no_lost_wake_up (msgType : μ → Iec104MsgType) (queueCapacity : Nat)
    (turns : List (ClientTurn T μ)) :
    NoLostWakeUp (Run.exec (clientTurn msgType) (.start queueCapacity) turns) :=
  noLostWakeUp_of_inv (wakeInv_run msgType queueCapacity turns)

end Iec104Slave
