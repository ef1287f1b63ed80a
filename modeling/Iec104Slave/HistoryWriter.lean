import Iec104Slave.HistoryStore
import Iec104Slave.Lib.Ring
import Mathlib.Data.List.Perm.Basic

/-!
# The queue and the worker of the history store

`history_store_append_soe` puts a record into a ring; when the ring is full it drops the oldest
one. The worker takes the records out one by one and tries up to four times to write each of
them, until it is told to stop. Appends, the stop and the steps of the worker are interleaved in
any order. The database and its write are parameters.

Results:
1. `soe_writer_accounts`: the rows are written in the order of the appends, each at most once,
   and every record that is not written is accounted for.
2. `worker_keeps_newest`: with the SOE table as database, the worker keeps the newest rows.
-/

namespace Iec104Slave

variable {ι δ ω : Type}

/-! ## The store -/

/-- `HistoryStore`. The array `queue` has length `queue_capacity`, `queueItems` is the count of the
semaphore, and `db` stands for the database. -/
structure HistoryStore (ι δ : Type) where
  config : HistoryStoreConfig
  queue : List ι
  queueHead : Nat
  queueTail : Nat
  queueCount : Nat
  queueItems : Nat
  workerRunning : Bool
  db : δ

/-- `history_store_init`, when the semaphores, the array and the thread can be created. A store
that is not enabled has no queue and no worker. -/
def historyStoreInit [Inhabited ι] (config : HistoryStoreConfig) (db : δ) : HistoryStore ι δ where
  config := config.withDefaults
  queue :=
    if config.enabled then List.replicate config.withDefaults.queueCapacity.toNat default else []
  queueHead := 0
  queueTail := 0
  queueCount := 0
  queueItems := 0
  workerRunning := config.enabled
  db := db

/-- The oldest record goes when the queue is full. -/
def HistoryStore.makeRoom (store : HistoryStore ι δ) : HistoryStore ι δ :=
  if store.queueCount ≥ store.queue.length then
    { store with
      queueHead := (store.queueHead + 1) % store.queue.length
      queueCount := store.queueCount - 1 }
  else store

def historyStoreAppendSoe (store : HistoryStore ι δ) (item : ι) : HistoryStore ι δ × Bool :=
  if !store.config.enabled || !store.config.soeEnabled then (store, false)
  else
    let room := store.makeRoom
    ({ room with
       queue := room.queue.set room.queueTail item
       queueTail := (room.queueTail + 1) % room.queue.length
       queueCount := room.queueCount + 1
       queueItems := room.queueItems + 1 }, true)

def historyStoreTakeSoe (store : HistoryStore ι δ) : HistoryStore ι δ × Option ι :=
  if store.queueCount > 0 then
    ({ store with
       queueHead := (store.queueHead + 1) % store.queue.length
       queueCount := store.queueCount - 1 }, store.queue[store.queueHead]?)
  else (store, none)

/-! ## The worker -/

/-- `SOE_DB_WRITE_MAX_RETRIES`. -/
def soeDbWriteMaxRetries : Nat := 3

/-- Where the worker thread is: at the outer loop, at the semaphore, behind it, at a take, at the
condition of the `for` loop, at a write, or at its end. -/
inductive DbWorkerPc (ι : Type)
  | outer
  | waiting
  | woken
  | taking
  | trying (item : ι) (retry : Nat)
  | writing (item : ι) (retry : Nat)
  | stopped

structure DbWorkerState (ι δ : Type) where
  store : HistoryStore ι δ
  pc : DbWorkerPc ι

section Steps

variable (write : δ → ι → ω → δ × Bool)

/-- One step of `history_store_worker_thread`. -/
def dbWorkerStep (s : DbWorkerState ι δ) (x : ω) : DbWorkerState ι δ :=
  match s.pc with
  | .outer => { s with pc := if s.store.workerRunning then .waiting else .stopped }
  | .waiting =>
    if s.store.queueItems > 0 then
      { store := { s.store with queueItems := s.store.queueItems - 1 }, pc := .woken }
    else s
  | .woken => { s with pc := if s.store.workerRunning then .taking else .stopped }
  | .taking =>
    { store := (historyStoreTakeSoe s.store).1
      pc := match (historyStoreTakeSoe s.store).2 with
        | some item => .trying item 0
        | none => .outer }
  | .trying item retry =>
    { s with
      pc := if retry ≤ soeDbWriteMaxRetries ∧ s.store.workerRunning = true
        then .writing item retry else .taking }
  | .writing item retry =>
    { store := { s.store with db := (write s.store.db item x).1 }
      pc := if (write s.store.db item x).2 then .taking else .trying item (retry + 1) }
  | .stopped => s

/-- The steps of the system: an append, the stop of `history_store_destroy`, and a step of the
worker with the outcome of its write. -/
inductive StoreOp (ι ω : Type)
  | append (item : ι)
  | stop
  | worker (x : ω)

def storeStep (s : DbWorkerState ι δ) : StoreOp ι ω → DbWorkerState ι δ
  | .append item => { s with store := (historyStoreAppendSoe s.store item).1 }
  | .stop =>
    { s with
      store := { s.store with workerRunning := false, queueItems := s.store.queueItems + 1 } }
  | .worker x => dbWorkerStep write s x

/-! ## What becomes of a record -/

/-- The queued records, the oldest one first. -/
def HistoryStore.queued (store : HistoryStore ι δ) : List ι :=
  (List.range store.queueCount).filterMap fun i =>
    store.queue[(store.queueHead + i) % store.queue.length]?

def appendedItem (s : DbWorkerState ι δ) : StoreOp ι ω → List ι
  | .append item => if (historyStoreAppendSoe s.store item).2 then [item] else []
  | _ => []

/-- The oldest queued record, when an append finds the queue full. -/
def evictedItem (s : DbWorkerState ι δ) : StoreOp ι ω → List ι
  | .append item =>
    if (historyStoreAppendSoe s.store item).2 ∧ s.store.queueCount ≥ s.store.queue.length then
      s.store.queued.head?.toList
    else []
  | _ => []

/-- The calls of the write, with their results. -/
def writeAttempt (s : DbWorkerState ι δ) : StoreOp ι ω → List (ι × Bool)
  | .worker x =>
    match s.pc with
    | .writing item _ => [(item, (write s.store.db item x).2)]
    | _ => []
  | _ => []

/-- A record that has left the hand of the worker: how many of its attempts failed, whether the
next one succeeded, and whether the worker was being stopped. -/
structure SoeFate (ι : Type) where
  item : ι
  failures : Nat
  inserted : Bool
  stopping : Bool

def finishedItem (s : DbWorkerState ι δ) : StoreOp ι ω → List (SoeFate ι)
  | .worker x =>
    match s.pc with
    | .writing item retry =>
      if (write s.store.db item x).2 then [⟨item, retry, true, !s.store.workerRunning⟩] else []
    | .trying item retry =>
      if retry ≤ soeDbWriteMaxRetries ∧ s.store.workerRunning = true then []
      else [⟨item, retry, false, !s.store.workerRunning⟩]
    | _ => []
  | _ => []

end Steps

def SoeFate.attempts (fate : SoeFate ι) : List (ι × Bool) :=
  List.replicate fate.failures (fate.item, false) ++
    if fate.inserted then [(fate.item, true)] else []

def DbWorkerPc.inHand : DbWorkerPc ι → List ι
  | .trying item _ => [item]
  | .writing item _ => [item]
  | _ => []

/-- The attempts for the record in hand. -/
def DbWorkerPc.attempts : DbWorkerPc ι → List (ι × Bool)
  | .trying item retry => List.replicate retry (item, false)
  | .writing item retry => List.replicate retry (item, false)
  | _ => []

def insertedItems (attempts : List (ι × Bool)) : List ι :=
  attempts.filterMap fun attempt => if attempt.2 then some attempt.1 else none

def droppedItems (finished : List (SoeFate ι)) : List ι :=
  (finished.filter fun fate => !fate.inserted).map SoeFate.item

/-- The rows are inserted in the order of the appends, each at most once. What is not inserted was
the oldest in a full queue, was given up, is in the hand of the worker or is queued. The attempts
are those of one record after the other, and a record is given up after four failures, or
earlier when the worker is being stopped. -/
structure DbWriterAccount (appended evicted : List ι) (attempts : List (ι × Bool))
    (finished : List (SoeFate ι)) (s : DbWorkerState ι δ) : Prop where
  order : (insertedItems attempts).Sublist appended
  account : appended.Perm (insertedItems attempts ++ evicted ++ droppedItems finished ++
    s.pc.inHand ++ s.store.queued)
  attempts : attempts = finished.flatMap SoeFate.attempts ++ s.pc.attempts
  dropped : ∀ fate ∈ finished, fate.inserted = false →
    fate.failures = soeDbWriteMaxRetries + 1 ∨
      fate.failures ≤ soeDbWriteMaxRetries ∧ fate.stopping = true

/-- The ring of the store holds the records `l`, the oldest one first. -/
structure HistoryStore.Represents (store : HistoryStore ι δ) (l : List ι) : Prop where
  holds : Ring.Holds store.queue store.queueHead l
  count : store.queueCount = l.length
  tail : store.queueTail = Ring.slot store.queue.length store.queueHead l.length

namespace HistoryWriterLemmas

variable {store : HistoryStore ι δ} {l : List ι} {item : ι}

/-! ### The ring -/

theorem queued_of_represents (h : store.Represents l) : store.queued = l := by
  unfold HistoryStore.queued
  rw [h.count]
  exact h.holds.read

theorem represents_drop (h : store.Represents (item :: l)) :
    ({ store with
       queueHead := (store.queueHead + 1) % store.queue.length
       queueCount := store.queueCount - 1 } : HistoryStore ι δ).Represents l where
  holds := h.holds.drop 1
  count := by
    rw [h.count]
    rfl
  tail := by
    show store.queueTail = Ring.slot store.queue.length (Ring.slot store.queue.length _ 1) l.length
    rw [h.tail, Ring.slot_slot, List.length_cons, Nat.add_comm]

/-- A full queue loses its oldest record. -/
theorem represents_makeRoom (h : store.Represents l) :
    store.makeRoom.Represents (if store.queueCount ≥ store.queue.length then l.tail else l) ∧
      (if store.queueCount ≥ store.queue.length then l.tail else l).length <
        store.queue.length := by
  have hpos := Nat.zero_lt_of_lt h.holds.head_lt
  unfold HistoryStore.makeRoom
  by_cases hfull : store.queueCount ≥ store.queue.length
  · rw [if_pos hfull, if_pos hfull]
    cases l with
    | nil =>
      rw [h.count] at hfull
      exact absurd hfull (Nat.not_le.mpr hpos)
    | cons item l => exact ⟨represents_drop h, h.holds.length_le⟩
  · rw [if_neg hfull, if_neg hfull]
    exact ⟨h, h.count ▸ Nat.not_le.mp hfull⟩

theorem makeRoom_queue (store : HistoryStore ι δ) : store.makeRoom.queue = store.queue := by
  unfold HistoryStore.makeRoom
  split
  · rfl
  · rfl

theorem represents_append (h : store.Represents l)
    (haccepted : (historyStoreAppendSoe store item).2 = true) :
    (historyStoreAppendSoe store item).1.Represents
      ((if store.queueCount ≥ store.queue.length then l.tail else l) ++ [item]) := by
  obtain ⟨hroom, hlen⟩ := represents_makeRoom h
  have hlen := hlen.trans_eq (congrArg List.length (makeRoom_queue store).symm)
  unfold historyStoreAppendSoe at haccepted ⊢
  split at haccepted
  · cases haccepted
  · next henabled =>
    rw [if_neg henabled]
    refine ⟨?_, ?_, ?_⟩
    · show Ring.Holds (store.makeRoom.queue.set store.makeRoom.queueTail item)
        store.makeRoom.queueHead _
      rw [hroom.tail]
      exact hroom.holds.pushBack hlen item
    · simpa using hroom.count
    · show (store.makeRoom.queueTail + 1) % store.makeRoom.queue.length =
        Ring.slot (store.makeRoom.queue.set store.makeRoom.queueTail item).length
          store.makeRoom.queueHead _
      rw [hroom.tail, List.length_set, List.length_append, List.length_singleton]
      exact Ring.slot_slot _

theorem append_refused (h : ¬(historyStoreAppendSoe store item).2 = true) :
    (historyStoreAppendSoe store item).1 = store := by
  unfold historyStoreAppendSoe at h ⊢
  split
  · rfl
  · next henabled =>
    rw [if_neg henabled] at h
    exact absurd rfl h

theorem take_represents (h : store.Represents l) :
    (historyStoreTakeSoe store).2 = l.head? ∧
      (historyStoreTakeSoe store).1.Represents l.tail := by
  unfold historyStoreTakeSoe
  cases l with
  | nil =>
    have hcount : ¬store.queueCount > 0 := by simp [h.count]
    rw [if_neg hcount]
    exact ⟨rfl, h⟩
  | cons item l =>
    have hcount : store.queueCount > 0 := by simp [h.count]
    rw [if_pos hcount]
    exact ⟨h.holds.front, represents_drop h⟩

/-! ### One step -/

def insertedOf (finished : List (SoeFate ι)) : List ι :=
  (finished.filter SoeFate.inserted).map SoeFate.item

/-- The records that the worker has in hand and those that are queued. -/
def held (s : DbWorkerState ι δ) : List ι := s.pc.inHand ++ s.store.queued

/-- At most four attempts. -/
def Bounded : DbWorkerPc ι → Prop
  | .trying _ retry => retry ≤ soeDbWriteMaxRetries + 1
  | .writing _ retry => retry ≤ soeDbWriteMaxRetries
  | _ => True

structure WriterInv (s : DbWorkerState ι δ) : Prop where
  represents : s.store.Represents s.store.queued
  bounded : Bounded s.pc

/-- What a step takes in and gives out. -/
structure StepAccount (s t : DbWorkerState ι δ) (appended evicted : List ι)
    (attempts : List (ι × Bool)) (finished : List (SoeFate ι)) : Prop where
  order : (insertedOf finished ++ held t).Sublist (held s ++ appended)
  account : (held s ++ appended).Perm (insertedOf finished ++ evicted ++ droppedItems finished ++
    held t)
  attempts : s.pc.attempts ++ attempts = finished.flatMap SoeFate.attempts ++ t.pc.attempts
  dropped : ∀ fate ∈ finished, fate.inserted = false →
    fate.failures = soeDbWriteMaxRetries + 1 ∨
      fate.failures ≤ soeDbWriteMaxRetries ∧ fate.stopping = true

variable {write : δ → ι → ω → δ × Bool} {s t : DbWorkerState ι δ}

/-- A step that moves no record. -/
theorem stepAccount_same (hheld : held t = held s) (hattempts : t.pc.attempts = s.pc.attempts) :
    StepAccount s t [] [] [] [] where
  order := by simp [insertedOf, hheld]
  account := by simp [insertedOf, droppedItems, hheld]
  attempts := by simp [hattempts]
  dropped := fun _ h => by cases h

/-- A step of the queue: some of the oldest records go, others come in at the end. -/
theorem stepAccount_queue {rest appended evicted : List ι} (hpc : t.pc = s.pc)
    (hbefore : s.store.queued = evicted ++ rest) (hafter : t.store.queued = rest ++ appended) :
    StepAccount s t appended evicted [] [] where
  order := by
    simp only [insertedOf, held, hpc, hbefore, hafter, List.filter_nil, List.map_nil,
      List.nil_append, List.append_assoc]
    exact (List.sublist_append_right evicted _).append_left _
  account := by
    simp only [insertedOf, droppedItems, held, hpc, hbefore, hafter, List.filter_nil,
      List.map_nil, List.nil_append, List.append_nil, List.append_assoc]
    exact List.perm_append_comm_assoc _ _ _
  attempts := by simp [hpc]
  dropped := fun _ h => by cases h

/-- The record in hand is written, or given up. -/
theorem stepAccount_finish {fate : SoeFate ι} {attempts : List (ι × Bool)}
    (hhand : s.pc.inHand = [fate.item]) (hempty : t.pc.inHand = [])
    (hqueued : t.store.queued = s.store.queued)
    (hattempts : s.pc.attempts ++ attempts = fate.attempts) (hnone : t.pc.attempts = [])
    (hdropped : fate.inserted = false → fate.failures = soeDbWriteMaxRetries + 1 ∨
      fate.failures ≤ soeDbWriteMaxRetries ∧ fate.stopping = true) :
    StepAccount s t [] [] attempts [fate] where
  order := by
    cases hinserted : fate.inserted with
    | true => simp [insertedOf, held, hhand, hempty, hqueued, hinserted]
    | false => simp [insertedOf, held, hhand, hempty, hqueued, hinserted]
  account := by
    cases hinserted : fate.inserted with
    | true => simp [insertedOf, droppedItems, held, hhand, hempty, hqueued, hinserted]
    | false => simp [insertedOf, droppedItems, held, hhand, hempty, hqueued, hinserted]
  attempts := by simpa [hnone] using hattempts
  dropped := fun f hf => by
    rw [List.mem_singleton.mp hf]
    exact hdropped

theorem head_append_tail (l : List ι) : l = l.head?.toList ++ l.tail := by
  cases l with
  | nil => rfl
  | cons item l => rfl

theorem account_append (h : WriterInv s) (item : ι) :
    WriterInv (storeStep write s (.append item)) ∧
      StepAccount s (storeStep write s (.append item))
        (appendedItem s (.append item : StoreOp ι ω)) (evictedItem s (.append item : StoreOp ι ω))
        [] [] := by
  unfold storeStep appendedItem evictedItem
  by_cases haccepted : (historyStoreAppendSoe s.store item).2 = true
  · have hrep := represents_append h.represents haccepted
    have hqueued := queued_of_represents hrep
    refine ⟨⟨hqueued.symm ▸ hrep, h.bounded⟩, ?_⟩
    simp only [haccepted, if_true, true_and]
    split
    · next hfull =>
      rw [if_pos hfull] at hqueued
      exact stepAccount_queue rfl (head_append_tail _) hqueued
    · next hroom =>
      rw [if_neg hroom] at hqueued
      exact stepAccount_queue rfl rfl hqueued
  · have hsame : (historyStoreAppendSoe s.store item).1 = s.store := append_refused haccepted
    simp only [haccepted, hsame]
    exact ⟨h, stepAccount_same rfl rfl⟩

theorem account_stop (h : WriterInv s) :
    WriterInv (storeStep write s .stop) ∧ StepAccount s (storeStep write s .stop) [] [] [] [] :=
  ⟨⟨⟨h.represents.holds, h.represents.count, h.represents.tail⟩, h.bounded⟩,
    stepAccount_same rfl rfl⟩

/-- A step of the worker that neither takes a record nor tries to write one. -/
theorem account_pc (h : WriterInv s) {pc : DbWorkerPc ι} (hbounded : Bounded pc)
    (hhand : pc.inHand = s.pc.inHand) (hattempts : pc.attempts = s.pc.attempts) :
    WriterInv { s with pc := pc } ∧ StepAccount s { s with pc := pc } [] [] [] [] := by
  refine ⟨⟨h.represents, hbounded⟩, stepAccount_same ?_ hattempts⟩
  show pc.inHand ++ s.store.queued = s.pc.inHand ++ s.store.queued
  rw [hhand]

theorem account_take (h : WriterInv s) (hpc : s.pc = .taking) (x : ω) :
    WriterInv (dbWorkerStep write s x) ∧ StepAccount s (dbWorkerStep write s x) [] [] [] [] := by
  obtain ⟨hitem, hrep⟩ := take_represents h.represents
  have hqueued := queued_of_represents hrep
  simp only [dbWorkerStep, hpc, hitem]
  cases hl : s.store.queued with
  | nil =>
    rw [hl] at hqueued hrep
    refine ⟨⟨hqueued.symm ▸ hrep, trivial⟩, stepAccount_same ?_ ?_⟩
    · simp [held, hpc, hl, hqueued, DbWorkerPc.inHand]
    · simp [hpc, DbWorkerPc.attempts]
  | cons item l =>
    rw [hl] at hqueued hrep
    refine ⟨⟨hqueued.symm ▸ hrep, Nat.zero_le _⟩, stepAccount_same ?_ ?_⟩
    · simp [held, hpc, hl, hqueued, DbWorkerPc.inHand]
    · simp [hpc, DbWorkerPc.attempts]

theorem account_trying (h : WriterInv s) {item : ι} {retry : Nat} (hpc : s.pc = .trying item retry)
    (x : ω) : WriterInv (dbWorkerStep write s x) ∧
      StepAccount s (dbWorkerStep write s x) [] [] (writeAttempt write s (.worker x))
        (finishedItem write s (.worker x)) := by
  have hbounded : retry ≤ soeDbWriteMaxRetries + 1 := by simpa [hpc, Bounded] using h.bounded
  simp only [dbWorkerStep, writeAttempt, finishedItem, hpc]
  by_cases hagain : retry ≤ soeDbWriteMaxRetries ∧ s.store.workerRunning = true
  · simp only [if_pos hagain]
    refine account_pc h hagain.1 ?_ ?_
    · rw [hpc]
      rfl
    · rw [hpc]
      rfl
  · simp only [if_neg hagain]
    refine ⟨⟨h.represents, trivial⟩, stepAccount_finish ?_ rfl rfl ?_ rfl fun _ => ?_⟩
    · rw [hpc]
      rfl
    · simp [hpc, DbWorkerPc.attempts, SoeFate.attempts]
    · -- four failures, or the loop was left because of the stop
      rcases Nat.lt_or_ge soeDbWriteMaxRetries retry with hlt | hle
      · exact .inl (Nat.le_antisymm hbounded hlt)
      · refine .inr ⟨hle, ?_⟩
        simpa [hle] using hagain

theorem account_writing (h : WriterInv s) {item : ι} {retry : Nat}
    (hpc : s.pc = .writing item retry) (x : ω) :
    WriterInv (dbWorkerStep write s x) ∧
      StepAccount s (dbWorkerStep write s x) [] [] (writeAttempt write s (.worker x))
        (finishedItem write s (.worker x)) := by
  have hbounded : retry ≤ soeDbWriteMaxRetries := by simpa [hpc, Bounded] using h.bounded
  have hrep := h.represents
  simp only [dbWorkerStep, writeAttempt, finishedItem, hpc]
  cases hok : (write s.store.db item x).2 with
  | true =>
    refine ⟨⟨⟨hrep.holds, hrep.count, hrep.tail⟩, trivial⟩,
      stepAccount_finish ?_ rfl rfl ?_ rfl fun hinserted => by cases hinserted⟩
    · rw [hpc]
      rfl
    · simp [hpc, DbWorkerPc.attempts, SoeFate.attempts]
  | false =>
    refine ⟨⟨⟨hrep.holds, hrep.count, hrep.tail⟩, Nat.succ_le_succ hbounded⟩, ?_, ?_, ?_, ?_⟩
    · simp [insertedOf, held, hpc, DbWorkerPc.inHand, HistoryStore.queued]
    · simp [insertedOf, droppedItems, held, hpc, DbWorkerPc.inHand, HistoryStore.queued]
    · simp [hpc, DbWorkerPc.attempts, List.replicate_succ']
    · exact fun _ hfate => by cases hfate

theorem account_worker (h : WriterInv s) (x : ω) :
    WriterInv (dbWorkerStep write s x) ∧
      StepAccount s (dbWorkerStep write s x) [] [] (writeAttempt write s (.worker x))
        (finishedItem write s (.worker x)) := by
  cases hpc : s.pc with
  | trying item retry => exact account_trying h hpc x
  | writing item retry => exact account_writing h hpc x
  | taking =>
    have hstep : WriterInv (dbWorkerStep write s x) ∧
        StepAccount s (dbWorkerStep write s x) [] [] [] [] := account_take h hpc x
    simpa only [writeAttempt, finishedItem, hpc] using hstep
  | outer =>
    simp only [dbWorkerStep, writeAttempt, finishedItem, hpc]
    split
    · exact account_pc h trivial (by rw [hpc]; rfl) (by rw [hpc]; rfl)
    · exact account_pc h trivial (by rw [hpc]; rfl) (by rw [hpc]; rfl)
  | waiting =>
    simp only [dbWorkerStep, writeAttempt, finishedItem, hpc]
    have hrep := h.represents
    split
    · refine ⟨⟨⟨hrep.holds, hrep.count, hrep.tail⟩, trivial⟩, stepAccount_same ?_ ?_⟩
      · simp [held, hpc, DbWorkerPc.inHand, HistoryStore.queued]
      · simp [hpc, DbWorkerPc.attempts]
    · exact ⟨h, stepAccount_same rfl rfl⟩
  | woken =>
    simp only [dbWorkerStep, writeAttempt, finishedItem, hpc]
    split
    · exact account_pc h trivial (by rw [hpc]; rfl) (by rw [hpc]; rfl)
    · exact account_pc h trivial (by rw [hpc]; rfl) (by rw [hpc]; rfl)
  | stopped =>
    simp only [dbWorkerStep, writeAttempt, finishedItem, hpc]
    exact ⟨h, stepAccount_same rfl rfl⟩

theorem account_step (h : WriterInv s) (op : StoreOp ι ω) :
    WriterInv (storeStep write s op) ∧
      StepAccount s (storeStep write s op) (appendedItem s op) (evictedItem s op)
        (writeAttempt write s op) (finishedItem write s op) := by
  cases op with
  | append item => exact account_append h item
  | stop => exact account_stop h
  | worker x => exact account_worker h x

/-! ### Whole runs -/

/-- The account of a run, with the inserted records read off the finished ones. -/
structure RunAccount (appended evicted : List ι) (attempts : List (ι × Bool))
    (finished : List (SoeFate ι)) (s : DbWorkerState ι δ) : Prop where
  order : (insertedOf finished ++ held s).Sublist appended
  account : appended.Perm (insertedOf finished ++ evicted ++ droppedItems finished ++ held s)
  attempts : attempts = finished.flatMap SoeFate.attempts ++ s.pc.attempts
  dropped : ∀ fate ∈ finished, fate.inserted = false →
    fate.failures = soeDbWriteMaxRetries + 1 ∨
      fate.failures ≤ soeDbWriteMaxRetries ∧ fate.stopping = true

theorem RunAccount.step {appended evicted appended' evicted' : List ι}
    {attempts attempts' : List (ι × Bool)} {finished finished' : List (SoeFate ι)}
    (h : RunAccount appended evicted attempts finished s)
    (hstep : StepAccount s t appended' evicted' attempts' finished') :
    RunAccount (appended ++ appended') (evicted ++ evicted') (attempts ++ attempts')
      (finished ++ finished') t where
  order := by
    have hinserted : insertedOf (finished ++ finished') =
        insertedOf finished ++ insertedOf finished' := by simp [insertedOf]
    rw [hinserted, List.append_assoc]
    calc insertedOf finished ++ (insertedOf finished' ++ held t)
      _ |>.Sublist (insertedOf finished ++ (held s ++ appended')) := hstep.order.append_left _
      _ |>.Sublist (appended ++ appended') := by
        rw [← List.append_assoc]
        exact h.order.append_right _
  account := by
    classical
    have hbefore := List.perm_iff_count.mp h.account
    have hnow := List.perm_iff_count.mp hstep.account
    rw [List.perm_iff_count]
    intro item
    have hbefore := hbefore item
    have hnow := hnow item
    simp only [insertedOf, droppedItems, List.filter_append, List.map_append,
      List.count_append] at hbefore hnow ⊢
    omega
  attempts := by
    rw [h.attempts, List.append_assoc, hstep.attempts, List.flatMap_append, List.append_assoc]
  dropped := fun fate hfate => by
    rcases List.mem_append.mp hfate with hfate | hfate
    · exact h.dropped fate hfate
    · exact hstep.dropped fate hfate

theorem insertedItems_fate (fate : SoeFate ι) :
    insertedItems fate.attempts = insertedOf [fate] := by
  cases hinserted : fate.inserted with
  | true => simp [insertedItems, SoeFate.attempts, insertedOf, hinserted]
  | false => simp [insertedItems, SoeFate.attempts, insertedOf, hinserted]

theorem insertedItems_pc (pc : DbWorkerPc ι) : insertedItems pc.attempts = [] := by
  cases pc with
  | trying item retry => simp [insertedItems, DbWorkerPc.attempts]
  | writing item retry => simp [insertedItems, DbWorkerPc.attempts]
  | outer => rfl
  | waiting => rfl
  | woken => rfl
  | taking => rfl
  | stopped => rfl

/-- The attempts that succeeded are those of the records that were finished by one. -/
theorem insertedItems_attempts (finished : List (SoeFate ι)) (pc : DbWorkerPc ι) :
    insertedItems (finished.flatMap SoeFate.attempts ++ pc.attempts) = insertedOf finished := by
  induction finished with
  | nil => exact insertedItems_pc pc
  | cons fate finished ih =>
    have hsplit : ∀ xs ys : List (ι × Bool),
        insertedItems (xs ++ ys) = insertedItems xs ++ insertedItems ys := fun _ _ => by
      simp [insertedItems]
    rw [List.flatMap_cons, List.append_assoc, hsplit, ih, insertedItems_fate]
    simp [insertedOf, ← List.map_append, ← List.filter_append]

theorem queueCapacity_pos (config : HistoryStoreConfig) :
    0 < config.withDefaults.queueCapacity.toNat := by
  show 0 < (if config.queueCapacity ≤ 0 then (4096 : Int) else config.queueCapacity).toNat
  split
  · decide
  · next h => exact Int.pos_iff_toNat_pos.mp (Int.not_le.mp h)

theorem writerInv_init [Inhabited ι] {config : HistoryStoreConfig}
    (henabled : config.enabled = true) (db : δ) :
    WriterInv (⟨historyStoreInit config db, .outer⟩ : DbWorkerState ι δ) where
  represents := by
    have hqueue : (historyStoreInit config db : HistoryStore ι δ).queue =
        List.replicate config.withDefaults.queueCapacity.toNat default := if_pos henabled
    refine ⟨Ring.holds_nil ?_, rfl, (Nat.zero_mod _).symm⟩
    show 0 < (historyStoreInit config db : HistoryStore ι δ).queue.length
    rw [hqueue, List.length_replicate]
    exact queueCapacity_pos config
  bounded := trivial

theorem account_run (write : δ → ι → ω → δ × Bool) (h : WriterInv s) (hempty : held s = [])
    (hpc : s.pc.attempts = []) (ops : List (StoreOp ι ω)) :
    WriterInv (Run.exec (storeStep write) s ops) ∧
      RunAccount (Run.outputs (storeStep write) appendedItem s ops)
        (Run.outputs (storeStep write) evictedItem s ops)
        (Run.outputs (storeStep write) (writeAttempt write) s ops)
        (Run.outputs (storeStep write) (finishedItem write) s ops)
        (Run.exec (storeStep write) s ops) := by
  induction ops using List.reverseRecOn with
  | nil =>
    refine ⟨h, ?_, ?_, ?_, fun fate hfate => by cases hfate⟩
    · simp [insertedOf, hempty, Run.outputs]
    · simp [insertedOf, droppedItems, hempty, Run.outputs]
    · simp [hpc, Run.outputs]
  | append_singleton ops op ih =>
    obtain ⟨hinv, hrun⟩ := ih
    obtain ⟨hnext, hstep⟩ := account_step hinv op
    have hrun := hrun.step hstep
    simp only [Run.outputs_append, Run.exec_append]
    simp only [Run.outputs, List.append_nil]
    exact ⟨hnext, hrun⟩

/-! ### The table behind the worker -/

/-- The calls of `history_store_write_soe_locked` that the worker makes. -/
def writeCall (s : DbWorkerState HistorySoeQueueItem SoeTable) :
    StoreOp HistorySoeQueueItem WriteOutcome → List SoeWrite
  | .worker x =>
    match s.pc with
    | .writing item _ => [⟨item, x⟩]
    | _ => []
  | _ => []

theorem append_db (store : HistoryStore ι δ) (item : ι) :
    (historyStoreAppendSoe store item).1.db = store.db := by
  unfold historyStoreAppendSoe HistoryStore.makeRoom
  split
  · rfl
  · split
    · rfl
    · rfl

theorem take_db (store : HistoryStore ι δ) : (historyStoreTakeSoe store).1.db = store.db := by
  unfold historyStoreTakeSoe
  split
  · rfl
  · rfl

theorem db_step (config : HistoryStoreConfig) (s : DbWorkerState HistorySoeQueueItem SoeTable)
    (op : StoreOp HistorySoeQueueItem WriteOutcome) :
    (storeStep (historyStoreWriteSoeLocked config) s op).store.db =
      Run.exec (soeWriteStep config) s.store.db (writeCall s op) := by
  cases op with
  | append item => exact append_db s.store item
  | stop => rfl
  | worker x =>
    cases hpc : s.pc with
    | writing item retry => simp [storeStep, dbWorkerStep, writeCall, hpc, soeWriteStep]
    | taking => simp [storeStep, dbWorkerStep, writeCall, hpc, take_db]
    | waiting =>
      simp only [storeStep, dbWorkerStep, writeCall, hpc]
      split
      · rfl
      · rfl
    | outer => simp [storeStep, dbWorkerStep, writeCall, hpc]
    | woken => simp [storeStep, dbWorkerStep, writeCall, hpc]
    | trying item retry => simp [storeStep, dbWorkerStep, writeCall, hpc]
    | stopped => simp [storeStep, dbWorkerStep, writeCall, hpc]

/-- The table is what the calls of the worker have made of it. -/
theorem db_run (config : HistoryStoreConfig) (s : DbWorkerState HistorySoeQueueItem SoeTable)
    (ops : List (StoreOp HistorySoeQueueItem WriteOutcome)) :
    (Run.exec (storeStep (historyStoreWriteSoeLocked config)) s ops).store.db =
      Run.exec (soeWriteStep config) s.store.db
        (Run.outputs (storeStep (historyStoreWriteSoeLocked config)) writeCall s ops) := by
  induction ops using List.reverseRecOn with
  | nil => rfl
  | append_singleton ops op ih =>
    rw [Run.exec_append, Run.outputs_append, Run.exec_append, ← ih]
    simpa [Run.outputs] using db_step config _ op

end HistoryWriterLemmas

open HistoryWriterLemmas HistoryStoreLemmas Ordered

/-- The worker keeps the newest rows: when it has written a record and the `DELETE` succeeded, the
table has the newest of all rows that it has inserted since the store was created. -/
theorem worker_keeps_newest (config : HistoryStoreConfig)
    (ops : List (StoreOp HistorySoeQueueItem WriteOutcome)) {item : HistorySoeQueueItem}
    {retry : Nat} {x : WriteOutcome} {s : DbWorkerState HistorySoeQueueItem SoeTable}
    (hs : s = Run.exec (storeStep (historyStoreWriteSoeLocked config.withDefaults))
      ⟨historyStoreInit config ⟨[], 0⟩, .outer⟩ ops) (hpc : s.pc = .writing item retry)
    (hwrite : (historyStoreWriteSoeLocked config.withDefaults s.store.db item x).2 = true)
    (htrim : x.trimmed = true) :
    Greatest SoeRow.key config.withDefaults.soeMaxRecords.toNat
      (allInserted config.withDefaults (Run.outputs
        (storeStep (historyStoreWriteSoeLocked config.withDefaults)) writeCall
        ⟨historyStoreInit config ⟨[], 0⟩, .outer⟩ (ops ++ [.worker x])))
      (storeStep (historyStoreWriteSoeLocked config.withDefaults) s (.worker x)).store.db.rows := by
  have hdb := db_run config.withDefaults ⟨historyStoreInit config ⟨[], 0⟩, .outer⟩ ops
  rw [← hs] at hdb
  have hcall : writeCall s (.worker x) = [⟨item, x⟩] := by simp [writeCall, hpc]
  have hcalls : Run.outputs (storeStep (historyStoreWriteSoeLocked config.withDefaults)) writeCall
      ⟨historyStoreInit config ⟨[], 0⟩, .outer⟩ (ops ++ [.worker x]) =
      Run.outputs (storeStep (historyStoreWriteSoeLocked config.withDefaults)) writeCall
        ⟨historyStoreInit config ⟨[], 0⟩, .outer⟩ ops ++ [⟨item, x⟩] := by
    rw [Run.outputs_append, ← hs]
    simp [Run.outputs, hcall]
  rw [hcalls, db_step, hcall, hdb, ← Run.exec_append]
  rw [hdb] at hwrite
  exact newest_after_write (soeMaxRecords_pos config) _ ⟨item, x⟩ hwrite htrim

/-- In every interleaving of appends, the stop and the worker, with any pattern of successes and
failures of the write, every record that was appended is accounted for. -/
theorem soe_writer_accounts [Inhabited ι] (write : δ → ι → ω → δ × Bool)
    (config : HistoryStoreConfig) (henabled : config.enabled = true) (db : δ)
    (ops : List (StoreOp ι ω)) :
    DbWriterAccount
      (Run.outputs (storeStep write) appendedItem ⟨historyStoreInit config db, .outer⟩ ops)
      (Run.outputs (storeStep write) evictedItem ⟨historyStoreInit config db, .outer⟩ ops)
      (Run.outputs (storeStep write) (writeAttempt write) ⟨historyStoreInit config db, .outer⟩ ops)
      (Run.outputs (storeStep write) (finishedItem write) ⟨historyStoreInit config db, .outer⟩ ops)
      (Run.exec (storeStep write) ⟨historyStoreInit config db, .outer⟩ ops) := by
  obtain ⟨_, hrun⟩ := account_run write (writerInv_init henabled db) rfl rfl ops
  have hinserted := congrArg insertedItems hrun.attempts
  rw [insertedItems_attempts] at hinserted
  refine ⟨?_, ?_, hrun.attempts, hrun.dropped⟩
  · rw [hinserted]
    exact (List.sublist_append_left _ _).trans hrun.order
  · rw [hinserted, List.append_assoc]
    exact hrun.account

/-- A queue of one record: the second append drops the first record, and the first attempt to
write the second one fails. -/
def retriedWrite : List (StoreOp HistorySoeQueueItem WriteOutcome) :=
  let failed : WriteOutcome := ⟨true, false, 0, true⟩
  let written : WriteOutcome := ⟨true, true, 0, true⟩
  [.append (writeAt 10 true).item, .append (writeAt 20 true).item, .worker failed,
    .worker failed, .worker failed, .worker failed, .worker failed, .worker failed,
    .worker failed, .worker written]

def oneItemConfig : HistoryStoreConfig := { twoSoeConfig with queueCapacity := 1 }

theorem retried_record_accounted :
    DbWriterAccount
      (Run.outputs (storeStep (historyStoreWriteSoeLocked oneItemConfig)) appendedItem
        ⟨historyStoreInit oneItemConfig ⟨[], 0⟩, .outer⟩ retriedWrite)
      (Run.outputs (storeStep (historyStoreWriteSoeLocked oneItemConfig)) evictedItem
        ⟨historyStoreInit oneItemConfig ⟨[], 0⟩, .outer⟩ retriedWrite)
      (Run.outputs (storeStep (historyStoreWriteSoeLocked oneItemConfig))
        (writeAttempt (historyStoreWriteSoeLocked oneItemConfig))
        ⟨historyStoreInit oneItemConfig ⟨[], 0⟩, .outer⟩ retriedWrite)
      (Run.outputs (storeStep (historyStoreWriteSoeLocked oneItemConfig))
        (finishedItem (historyStoreWriteSoeLocked oneItemConfig))
        ⟨historyStoreInit oneItemConfig ⟨[], 0⟩, .outer⟩ retriedWrite)
      (Run.exec (storeStep (historyStoreWriteSoeLocked oneItemConfig))
        ⟨historyStoreInit oneItemConfig ⟨[], 0⟩, .outer⟩ retriedWrite) ∧
    Run.outputs (storeStep (historyStoreWriteSoeLocked oneItemConfig))
      (writeAttempt (historyStoreWriteSoeLocked oneItemConfig))
      ⟨historyStoreInit oneItemConfig ⟨[], 0⟩, .outer⟩ retriedWrite =
        [((writeAt 20 true).item, false), ((writeAt 20 true).item, true)] :=
  ⟨soe_writer_accounts _ oneItemConfig rfl _ _, by decide⟩

end Iec104Slave
