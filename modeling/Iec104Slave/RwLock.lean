import Iec104Slave.Lib.Run
import Iec104Slave.Lib.Tally

/-!
# The lock of the point table (`point_table_read_lock` and its three siblings)

A readers-writer lock from two semaphores and a counter. The first reader takes the
resource semaphore for all readers, the last one gives it back, and both do so inside the
mutex that guards the counter.

The threads are any finite type. Each runs its own sequence of sections, finite or not:
read lock and unlock, or write lock and unlock. One step is one semaphore operation or one
access to `readers`: `readers++` is a load and a store, and the comparison after it is a
load again.

The invariant counts threads by their position. Those between the two operations on the
mutex are at most one; those counted in `readers` differ from those that share the
resource only by the thread inside the mutex (`counted_balance`).

Results:
1. `lockInv_step`: one step of any thread keeps the invariant.
2. `exists_step`: while a thread is not finished, some thread can take a step.
3. `point_table_lock_safe`: exclusion and progress in every state of every interleaving.
-/

namespace Iec104Slave

open Tally

/-! ## The code -/

/-- `PointTableRwLock`. A semaphore is its count. -/
structure PointTableRwLock where
  mutex : Nat
  resource : Nat
  readers : Int
deriving DecidableEq

/-- `rwlock_init`. -/
def rwlockInit : PointTableRwLock where
  mutex := 1
  resource := 1
  readers := 0

/-- `Semaphore_wait`: blocks while the count is 0. -/
def semaphoreWait (sem : Nat) : Option Nat :=
  if sem = 0 then none else some (sem - 1)

/-- `Semaphore_post`. -/
def semaphorePost (sem : Nat) : Nat :=
  sem + 1

/-- What a section of a thread does with the table. -/
inductive Access
  | read
  | write
deriving DecidableEq

/-- Where a thread is: the next operation it executes. -/
inductive LockPc
  /-- Outside the lock, before its next section. -/
  | idle
  | readLockLoad
  | readLockStore (loaded : Int)
  | readLockTest
  | readLockWaitResource
  | readLockPostMutex
  /-- `point_table_read_lock` has returned. -/
  | reading
  | readUnlockLoad
  | readUnlockStore (loaded : Int)
  | readUnlockTest
  | readUnlockPostResource
  | readUnlockPostMutex
  /-- `point_table_write_lock` has returned. -/
  | writing
deriving DecidableEq

/-- The next operation of a thread whose next section is `access`: where the thread is
after it, and the lock. A thread that is blocked or finished has none. -/
def lockOp (access : Option Access) (lock : PointTableRwLock) :
    LockPc → Option (LockPc × PointTableRwLock)
  | .idle =>
    match access with
    | none => none
    -- point_table_read_lock
    | some .read => (semaphoreWait lock.mutex).map fun sem =>
        (.readLockLoad, { lock with mutex := sem })
    -- point_table_write_lock
    | some .write => (semaphoreWait lock.resource).map fun sem =>
        (.writing, { lock with resource := sem })
  | .readLockLoad => some (.readLockStore lock.readers, lock)
  | .readLockStore loaded => some (.readLockTest, { lock with readers := loaded + 1 })
  | .readLockTest =>
    some (if lock.readers = 1 then .readLockWaitResource else .readLockPostMutex, lock)
  | .readLockWaitResource => (semaphoreWait lock.resource).map fun sem =>
      (.readLockPostMutex, { lock with resource := sem })
  | .readLockPostMutex => some (.reading, { lock with mutex := semaphorePost lock.mutex })
  -- point_table_read_unlock
  | .reading => (semaphoreWait lock.mutex).map fun sem =>
      (.readUnlockLoad, { lock with mutex := sem })
  | .readUnlockLoad => some (.readUnlockStore lock.readers, lock)
  | .readUnlockStore loaded => some (.readUnlockTest, { lock with readers := loaded - 1 })
  | .readUnlockTest =>
    some (if lock.readers = 0 then .readUnlockPostResource else .readUnlockPostMutex, lock)
  | .readUnlockPostResource =>
    some (.readUnlockPostMutex, { lock with resource := semaphorePost lock.resource })
  | .readUnlockPostMutex => some (.idle, { lock with mutex := semaphorePost lock.mutex })
  -- point_table_write_unlock
  | .writing => some (.idle, { lock with resource := semaphorePost lock.resource })

/-! ## The threads -/

section threads

variable {T : Type} [DecidableEq T]

/-- The lock, and of each thread where it is and how many sections it has completed. -/
structure LockState (T : Type) where
  lock : PointTableRwLock
  pc : T → LockPc
  completed : T → Nat

/-- No thread has started. -/
def LockState.start : LockState T where
  lock := rwlockInit
  pc := fun _ => .idle
  completed := fun _ => 0

/-- The step of thread `t`. `program t k` is the section number `k` of the thread, if it
has that many. -/
def threadStep (program : T → Nat → Option Access) (s : LockState T) (t : T) :
    Option (LockState T) :=
  (lockOp (program t (s.completed t)) s.lock (s.pc t)).map fun r =>
    { lock := r.2
      pc := Function.update s.pc t r.1
      completed := if r.1 = .idle then Function.update s.completed t (s.completed t + 1)
        else s.completed }

/-- One turn of the schedule: a thread that cannot step leaves the state as it is. -/
def lockTurn (program : T → Nat → Option Access) (s : LockState T) (t : T) : LockState T :=
  (threadStep program s t).getD s

/-- The thread has completed all its sections. -/
def LockState.Finished (program : T → Nat → Option Access) (s : LockState T) (t : T) : Prop :=
  s.pc t = .idle ∧ program t (s.completed t) = none

/-- What the lock promises in a state. -/
structure LockSafe (program : T → Nat → Option Access) (s : LockState T) : Prop where
  one_writer : ∀ t u, s.pc t = .writing → s.pc u = .writing → t = u
  no_reader_beside_writer : ∀ t u, s.pc t = .writing → s.pc u ≠ .reading
  no_deadlock : (∃ t, ¬ s.Finished program t) → ∃ t, (threadStep program s t).isSome

end threads

/-! ## Positions -/

namespace LockPc

/-- Between the wait and the post on the mutex. -/
def inMutex : LockPc → Bool
  | .readLockLoad | .readLockStore _ | .readLockTest | .readLockWaitResource
  | .readLockPostMutex | .readUnlockLoad | .readUnlockStore _ | .readUnlockTest
  | .readUnlockPostResource | .readUnlockPostMutex => true
  | _ => false

/-- Counted in `readers`. -/
def counted : LockPc → Bool
  | .readLockTest | .readLockWaitResource | .readLockPostMutex | .reading | .readUnlockLoad
  | .readUnlockStore _ => true
  | _ => false

/-- Among the readers for whom the resource is held. -/
def sharing : LockPc → Bool
  | .readLockPostMutex | .reading | .readUnlockLoad | .readUnlockStore _ | .readUnlockTest
  | .readUnlockPostResource => true
  | _ => false

/-- Counted, and not yet sure of the resource. -/
def entering : LockPc → Bool
  | .readLockTest | .readLockWaitResource => true
  | _ => false

/-- No longer counted, and still sharing the resource. -/
def leaving : LockPc → Bool
  | .readUnlockTest | .readUnlockPostResource => true
  | _ => false

def isWriting : LockPc → Bool
  | .writing => true
  | _ => false

/-- What a thread inside the mutex knows of `readers`. -/
def Knows (readers : Int) : LockPc → Prop
  | .readLockStore loaded | .readUnlockStore loaded => readers = loaded
  | .readLockWaitResource => readers = 1
  | .readUnlockPostResource => readers = 0
  | _ => True

end LockPc

open LockPc

/-! ## What one operation does -/

/-- The effect of an operation on the resource: the thread goes from `p` to `q`. -/
inductive ResourceMove (lock lock' : PointTableRwLock) (p q : LockPc) : Prop
  | none : lock'.resource = lock.resource → p.isWriting = q.isWriting → p.sharing = q.sharing →
      ResourceMove lock lock' p q
  | write : lock.resource = lock'.resource + 1 → p.isWriting = false → q.isWriting = true →
      p.sharing = q.sharing → ResourceMove lock lock' p q
  | endWrite : lock'.resource = lock.resource + 1 → p.isWriting = true → q.isWriting = false →
      p.sharing = q.sharing → ResourceMove lock lock' p q
  | firstReader : lock.resource = lock'.resource + 1 → p.sharing = false → q.sharing = true →
      p.isWriting = q.isWriting → ResourceMove lock lock' p q
  | join : p = .readLockTest → lock.readers ≠ 1 → lock'.resource = lock.resource →
      p.sharing = false → q.sharing = true → p.isWriting = q.isWriting →
      ResourceMove lock lock' p q
  | leave : p = .readUnlockTest → lock.readers ≠ 0 → lock'.resource = lock.resource →
      p.sharing = true → q.sharing = false → p.isWriting = q.isWriting →
      ResourceMove lock lock' p q
  | lastReader : p = .readUnlockPostResource → lock'.resource = lock.resource + 1 →
      p.sharing = true → q.sharing = false → p.isWriting = q.isWriting →
      ResourceMove lock lock' p q

/-- The effect of an operation. -/
structure LockMove (lock lock' : PointTableRwLock) (p q : LockPc) : Prop where
  mutex : lock'.mutex + q.inMutex.toNat = lock.mutex + p.inMutex.toNat
  readers : lock'.readers + p.counted.toNat = lock.readers + q.counted.toNat
  -- only a thread inside the mutex writes the counter
  writes : lock'.readers ≠ lock.readers → p.inMutex = true
  knows : q.Knows lock'.readers
  resource : ResourceMove lock lock' p q

namespace RwLockLemmas

theorem semaphoreWait_some {sem sem' : Nat} (h : semaphoreWait sem = some sem') :
    sem = sem' + 1 := by
  unfold semaphoreWait at h
  split at h
  · cases h
  · next hne =>
    cases h
    exact (Nat.succ_pred hne).symm

theorem semaphoreWait_isSome {sem : Nat} (h : sem ≠ 0) : (semaphoreWait sem).isSome := by
  unfold semaphoreWait
  rw [if_neg h]
  rfl

theorem lockOp_move {access : Option Access} {lock lock' : PointTableRwLock} {p q : LockPc}
    (hknows : p.Knows lock.readers) (h : lockOp access lock p = some (q, lock')) :
    LockMove lock lock' p q := by
  cases p with
  | idle =>
    cases access with
    | none => cases h
    | some access =>
      cases access with
      | read =>
        obtain ⟨sem, hsem, hq⟩ := Option.map_eq_some_iff.mp h
        cases hq
        exact ⟨(semaphoreWait_some hsem).symm, rfl, fun hne => absurd rfl hne, trivial,
          .none rfl rfl rfl⟩
      | write =>
        obtain ⟨sem, hsem, hq⟩ := Option.map_eq_some_iff.mp h
        cases hq
        exact ⟨rfl, rfl, fun hne => absurd rfl hne, trivial,
          .write (semaphoreWait_some hsem) rfl rfl rfl⟩
  | readLockLoad =>
    cases h
    exact ⟨rfl, rfl, fun _ => rfl, rfl, .none rfl rfl rfl⟩
  | readLockStore loaded =>
    cases h
    cases hknows
    exact ⟨rfl, Int.add_zero _, fun _ => rfl, trivial, .none rfl rfl rfl⟩
  | readLockTest =>
    cases h
    by_cases hone : lock.readers = 1
    · rw [if_pos hone]
      exact ⟨rfl, rfl, fun _ => rfl, hone, .none rfl rfl rfl⟩
    · rw [if_neg hone]
      exact ⟨rfl, rfl, fun _ => rfl, trivial, .join rfl hone rfl rfl rfl rfl⟩
  | readLockWaitResource =>
    obtain ⟨sem, hsem, hq⟩ := Option.map_eq_some_iff.mp h
    cases hq
    exact ⟨rfl, rfl, fun _ => rfl, trivial, .firstReader (semaphoreWait_some hsem) rfl rfl rfl⟩
  | readLockPostMutex =>
    cases h
    exact ⟨rfl, rfl, fun _ => rfl, trivial, .none rfl rfl rfl⟩
  | reading =>
    obtain ⟨sem, hsem, hq⟩ := Option.map_eq_some_iff.mp h
    cases hq
    exact ⟨(semaphoreWait_some hsem).symm, rfl, fun hne => absurd rfl hne, trivial,
      .none rfl rfl rfl⟩
  | readUnlockLoad =>
    cases h
    exact ⟨rfl, rfl, fun _ => rfl, rfl, .none rfl rfl rfl⟩
  | readUnlockStore loaded =>
    cases h
    cases hknows
    exact ⟨rfl, (Int.sub_add_cancel _ 1).trans (Int.add_zero _).symm, fun _ => rfl, trivial,
      .none rfl rfl rfl⟩
  | readUnlockTest =>
    cases h
    by_cases hzero : lock.readers = 0
    · rw [if_pos hzero]
      exact ⟨rfl, rfl, fun _ => rfl, hzero, .none rfl rfl rfl⟩
    · rw [if_neg hzero]
      exact ⟨rfl, rfl, fun _ => rfl, trivial, .leave rfl hzero rfl rfl rfl rfl⟩
  | readUnlockPostResource =>
    cases h
    exact ⟨rfl, rfl, fun _ => rfl, trivial, .lastReader rfl rfl rfl rfl rfl⟩
  | readUnlockPostMutex =>
    cases h
    exact ⟨rfl, rfl, fun _ => rfl, trivial, .none rfl rfl rfl⟩
  | writing =>
    cases h
    exact ⟨rfl, rfl, fun hne => absurd rfl hne, trivial, .endWrite rfl rfl rfl rfl⟩

/-! ## The invariant -/

section invariant

variable {T : Type} [Fintype T] {lock lock' : PointTableRwLock} {pc : T → LockPc}

/-- The semaphores and the counter, in terms of where the threads are. -/
structure LockInv (lock : PointTableRwLock) (pc : T → LockPc) : Prop where
  mutex : lock.mutex + count inMutex pc = 1
  readers : lock.readers = count counted pc
  knows : ∀ t, (pc t).Knows lock.readers
  -- one thread writes, or the readers share the resource, or it is free
  resource : lock.resource + count isWriting pc + min 1 (count sharing pc) = 1

theorem lockInv_start : LockInv rwlockInit fun _ : T => .idle := by
  have hzero : ∀ P : LockPc → Bool, P .idle = false → count P (fun _ : T => .idle) = 0 :=
    fun P hP => count_eq_zero fun _ => hP
  refine ⟨?_, ?_, fun _ => trivial, ?_⟩
  · rw [hzero inMutex rfl]
    rfl
  · rw [hzero counted rfl]
    rfl
  · rw [hzero isWriting rfl, hzero sharing rfl]
    rfl

theorem counted_balance (pc : T → LockPc) :
    count counted pc + count leaving pc = count sharing pc + count entering pc :=
  count_balance fun p => by cases p <;> rfl

/-- The threads on the way in or out are inside the mutex. -/
theorem entering_leaving_le (pc : T → LockPc) :
    count entering pc + count leaving pc ≤ count inMutex pc :=
  count_add_le fun p => by cases p <;> simp [entering, leaving, inMutex]

/-- The thread that has just entered the count is the only one that does not share. -/
theorem counted_of_entering (h : LockInv lock pc) {t : T} (ht : (pc t).entering = true) :
    count counted pc = count sharing pc + 1 := by
  have hin : 0 < count entering pc := count_pos t ht
  have hle := (entering_leaving_le pc).trans (Nat.le_of_add_left_le h.mutex.le)
  have hbal := counted_balance pc
  omega

theorem sharing_of_leaving (h : LockInv lock pc) {t : T} (ht : (pc t).leaving = true) :
    count sharing pc = count counted pc + 1 := by
  have hout : 0 < count leaving pc := count_pos t ht
  have hle := (entering_leaving_le pc).trans (Nat.le_of_add_left_le h.mutex.le)
  have hbal := counted_balance pc
  omega

variable [DecidableEq T] {t : T} {q : LockPc}

theorem knows_step (h : LockInv lock pc) (hmove : LockMove lock lock' (pc t) q) (u : T) :
    (Function.update pc t q u).Knows lock'.readers := by
  by_cases hu : u = t
  · rw [hu, Function.update_self]
    exact hmove.knows
  rw [Function.update_of_ne hu]
  by_cases hsame : lock'.readers = lock.readers
  · rw [hsame]
    exact h.knows u
  -- `t` writes the counter, so `u` is outside the mutex and knows nothing
  · have hout : (pc u).inMutex = false := by
      refine Bool.eq_false_of_not_eq_true fun hin => hu ?_
      exact eq_of_count_le_one (Nat.le_of_add_left_le h.mutex.le) hin (hmove.writes hsame)
    revert hout
    cases pc u <;> simp [inMutex, Knows]

/-- The resource stays with the writer, with the readers or free. -/
theorem resource_step (h : LockInv lock pc) (hmove : ResourceMove lock lock' (pc t) q) :
    lock'.resource + count isWriting (Function.update pc t q) +
      min 1 (count sharing (Function.update pc t q)) = 1 := by
  have hres := h.resource
  cases hmove with
  | none hr hpw hps =>
    rw [hr, count_stay hpw, count_stay hps]
    exact hres
  | write hr hpw hqw hps =>
    have hw := count_enter hpw hqw
    rw [count_stay hps]
    omega
  | endWrite hr hpw hqw hps =>
    have hw := count_exit hpw hqw
    rw [count_stay hps]
    omega
  | firstReader hr hps hqs hpw =>
    have hs := count_enter hps hqs
    rw [count_stay hpw]
    omega
  | join hp hne hr hps hqs hpw =>
    -- the counter is at least 2, so another reader shares the resource already
    have hcount := counted_of_entering h (t := t) (by rw [hp]; rfl)
    have hreaders := h.readers
    have hs := count_enter hps hqs
    rw [hr, count_stay hpw]
    omega
  | leave hp hne hr hps hqs hpw =>
    -- the counter is not 0, so another reader keeps the resource
    have hcount := sharing_of_leaving h (t := t) (by rw [hp]; rfl)
    have hreaders := h.readers
    have hs := count_exit hps hqs
    rw [hr, count_stay hpw]
    omega
  | lastReader hp hr hps hqs hpw =>
    have hcount := sharing_of_leaving h (t := t) (by rw [hp]; rfl)
    have hreaders := h.readers
    have hknows := h.knows t
    rw [hp] at hknows
    replace hknows : lock.readers = 0 := hknows
    have hs := count_exit hps hqs
    rw [hr, count_stay hpw]
    omega

theorem lockInv_step (h : LockInv lock pc) (hmove : LockMove lock lock' (pc t) q) :
    LockInv lock' (Function.update pc t q) where
  mutex := by
    have hcount := count_update (P := inMutex) (f := pc) t q
    have hmutex := hmove.mutex
    have hold := h.mutex
    omega
  readers := by
    have hcount := count_update (P := counted) (f := pc) t q
    have hreaders := hmove.readers
    have hold := h.readers
    omega
  knows := knows_step h hmove
  resource := resource_step h hmove.resource

end invariant

/-! ## Runs -/

section runs

variable {T : Type} [Fintype T] [DecidableEq T] {program : T → Nat → Option Access}
  {s : LockState T}

theorem lockInv_turn (h : LockInv s.lock s.pc) (t : T) :
    LockInv (lockTurn program s t).lock (lockTurn program s t).pc := by
  unfold lockTurn threadStep
  cases hop : lockOp (program t (s.completed t)) s.lock (s.pc t) with
  | none => exact h
  | some r => exact lockInv_step h (lockOp_move (h.knows t) hop)

theorem lockInv_exec (program : T → Nat → Option Access) (schedule : List T) :
    LockInv (Run.exec (lockTurn program) LockState.start schedule).lock
      (Run.exec (lockTurn program) LockState.start schedule).pc :=
  Run.exec_induction (I := fun _ (s : LockState T) => LockInv s.lock s.pc) lockInv_start
    (fun _ _ t h => lockInv_turn h t) schedule

/-! ## Progress -/

omit [Fintype T] in
theorem threadStep_isSome {t : T}
    (h : (lockOp (program t (s.completed t)) s.lock (s.pc t)).isSome) :
    (threadStep program s t).isSome := by
  unfold threadStep
  rwa [Option.isSome_map]

/-- A thread inside the mutex waits for nothing but the resource. -/
theorem op_of_inMutex {access : Option Access} {lock : PointTableRwLock} {p : LockPc}
    (hin : p.inMutex = true) (hp : p ≠ .readLockWaitResource) : (lockOp access lock p).isSome := by
  cases p with
  | readLockWaitResource => exact absurd rfl hp
  | idle => cases hin
  | reading => cases hin
  | writing => cases hin
  | _ => rfl

omit [DecidableEq T] in
/-- While the first reader waits for the resource, a writer has it. -/
theorem writer_of_blocked (h : LockInv s.lock s.pc) {t : T}
    (ht : s.pc t = .readLockWaitResource) (hres : s.lock.resource = 0) :
    ∃ u, s.pc u = .writing := by
  have hent : (s.pc t).entering = true := by rw [ht]; rfl
  have hcount := counted_of_entering h hent
  have hone := h.knows t
  rw [ht] at hone
  replace hone : s.lock.readers = 1 := hone
  have hreaders := h.readers
  have hresource := h.resource
  have hpos : 0 < count isWriting s.pc := by omega
  obtain ⟨u, hu⟩ := exists_of_count_pos hpos
  refine ⟨u, ?_⟩
  revert hu
  cases s.pc u <;> simp [isWriting]

omit [DecidableEq T] in
/-- With all threads outside the lock, both semaphores are free. -/
theorem free_of_idle (h : LockInv s.lock s.pc) (hidle : ∀ t, s.pc t = .idle) :
    s.lock.mutex = 1 ∧ s.lock.resource = 1 := by
  have hzero : ∀ P : LockPc → Bool, P .idle = false → count P s.pc = 0 :=
    fun P hP => count_eq_zero fun t => by rw [hidle t, hP]
  have hmutex := h.mutex
  have hresource := h.resource
  rw [hzero inMutex rfl] at hmutex
  rw [hzero isWriting rfl, hzero sharing rfl] at hresource
  exact ⟨hmutex, hresource⟩

theorem exists_step (h : LockInv s.lock s.pc) (hleft : ∃ t, ¬ s.Finished program t) :
    ∃ t, (threadStep program s t).isSome := by
  by_cases hwriter : ∃ t, s.pc t = .writing
  · obtain ⟨t, ht⟩ := hwriter
    refine ⟨t, threadStep_isSome ?_⟩
    rw [ht]
    rfl
  by_cases hin : ∃ t, (s.pc t).inMutex = true
  · obtain ⟨t, ht⟩ := hin
    refine ⟨t, threadStep_isSome ?_⟩
    by_cases hwait : s.pc t = .readLockWaitResource
    · have hres : s.lock.resource ≠ 0 := fun hres => hwriter (writer_of_blocked h hwait hres)
      rw [hwait]
      simpa [lockOp] using semaphoreWait_isSome hres
    · exact op_of_inMutex ht hwait
  -- nobody is inside the mutex, so it is free
  have hmutex : s.lock.mutex ≠ 0 := by
    have hzero : count inMutex s.pc = 0 :=
      count_eq_zero fun t => Bool.eq_false_of_not_eq_true fun ht => hin ⟨t, ht⟩
    have hsum := h.mutex
    rw [hzero, Nat.add_zero] at hsum
    exact hsum ▸ Nat.one_ne_zero
  by_cases hreader : ∃ t, s.pc t = .reading
  · obtain ⟨t, ht⟩ := hreader
    refine ⟨t, threadStep_isSome ?_⟩
    rw [ht]
    simpa [lockOp] using semaphoreWait_isSome hmutex
  have hidle : ∀ t, s.pc t = .idle := by
    intro t
    cases hp : s.pc t with
    | idle => rfl
    | reading => exact absurd ⟨t, hp⟩ hreader
    | writing => exact absurd ⟨t, hp⟩ hwriter
    | _ => exact absurd ⟨t, by rw [hp]; rfl⟩ hin
  obtain ⟨t, ht⟩ := hleft
  obtain ⟨hmutex, hresource⟩ := free_of_idle h hidle
  refine ⟨t, threadStep_isSome ?_⟩
  rw [hidle t]
  cases hacc : program t (s.completed t) with
  | none => exact absurd ⟨hidle t, hacc⟩ ht
  | some access =>
    cases access with
    | read => simp [lockOp, semaphoreWait, hmutex]
    | write => simp [lockOp, semaphoreWait, hresource]

/-! ## Exclusion -/

theorem one_writer (h : LockInv s.lock s.pc) {t u : T} (ht : s.pc t = .writing)
    (hu : s.pc u = .writing) : t = u := by
  have hle : count isWriting s.pc ≤ 1 := by
    have hres := h.resource
    omega
  exact eq_of_count_le_one hle (by rw [ht]; rfl) (by rw [hu]; rfl)

omit [DecidableEq T] in
theorem no_reader_beside_writer (h : LockInv s.lock s.pc) {t u : T} (ht : s.pc t = .writing) :
    s.pc u ≠ .reading := by
  intro hu
  have hwriting : 0 < count isWriting s.pc := count_pos t (by rw [ht]; rfl)
  have hsharing : 0 < count sharing s.pc := count_pos u (by rw [hu]; rfl)
  have hres := h.resource
  omega

end runs

end RwLockLemmas

open RwLockLemmas

/-! ## Every interleaving -/

/-- For any number of threads with any programs of read and write sections, in every state
of every interleaving: at most one thread holds the write lock, none holds the read lock
beside it, and some thread can take a step unless all are finished. The counter stays
within the number of threads. -/
theorem point_table_lock_safe {T : Type} [Fintype T] [DecidableEq T]
    (program : T → Nat → Option Access) (schedule : List T) :
    LockSafe program (Run.exec (lockTurn program) LockState.start schedule) ∧
      0 ≤ (Run.exec (lockTurn program) LockState.start schedule).lock.readers ∧
      (Run.exec (lockTurn program) LockState.start schedule).lock.readers ≤ Fintype.card T := by
  have hinv := lockInv_exec program schedule
  refine ⟨⟨fun t u => one_writer hinv, fun t u => no_reader_beside_writer hinv,
    exists_step hinv⟩, ?_, ?_⟩
  · rw [hinv.readers]
    exact Int.natCast_nonneg _
  · rw [hinv.readers]
    exact Int.ofNat_le.mpr count_le_card

end Iec104Slave
