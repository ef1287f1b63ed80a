import Iec104Slave.Basic
import Iec104Slave.Lib.Ring
import Iec104Slave.Lib.Run

/-!
# The work queue of a client (`client_context.c`)

Connection threads post work messages to a client, its worker pops them. The queue
is an array used as a ring from both ends: a high-priority message goes in at the
front, where the worker takes messages out.

Results:
1. `push_refines`, `pop_refines`: the ring is a bounded deque of messages.
2. `high_priority_order_iff`: high-priority messages leave in the order in which
   they were posted exactly as long as none of them is posted in front of
   another one.
3. `popped_erase`: the order is stated over messages that carry the number of their
   post; without these numbers, the worker gets the messages of the queue itself.
-/

namespace Iec104Slave

/-! ## The context -/

/-- `ClientContext`. The array `queue` has length `queue_capacity`, `connection` is
`none` for `NULL`, and `workerThread` says whether `worker_thread` is set. The type
of messages is a parameter: the queue reads nothing of a message but its type. -/
structure ClientContext (μ : Type) where
  connection : Option Nat
  workerThread : Bool
  queue : List μ
  queueHead : Nat
  queueTail : Nat
  queueCount : Nat
  connected : Bool
  started : Bool
  lastSendTimeMs : UInt64
  lastUploadedVersion : Nat
deriving DecidableEq

variable {μ : Type}

def ClientContext.queueCapacity (ctx : ClientContext μ) : Nat := ctx.queue.length

/-- `client_context_init`. -/
def clientContextInit [Inhabited μ] (queueCapacity : Nat) : ClientContext μ :=
  { connection := none, workerThread := false
    queue := List.replicate queueCapacity default
    queueHead := 0, queueTail := 0, queueCount := 0
    connected := false, started := false, lastSendTimeMs := 0, lastUploadedVersion := 0 }

/-- `client_context_start`, when the thread can be created. -/
def clientContextStart (ctx : ClientContext μ) : ClientContext μ :=
  { ctx with workerThread := true }

/-- The assignments that `client_context_bind_connection` and
`client_context_close_connection` share. -/
def ClientContext.reset (ctx : ClientContext μ) (connection : Option Nat) (connected : Bool) :
    ClientContext μ :=
  { ctx with
    connection := connection, connected := connected, started := false
    queueHead := 0, queueTail := 0, queueCount := 0
    lastSendTimeMs := 0, lastUploadedVersion := 0 }

def clientContextBindConnection (ctx : ClientContext μ) (connection : Nat) : ClientContext μ :=
  ctx.reset (some connection) true

def clientContextCloseConnection (ctx : ClientContext μ) : ClientContext μ :=
  ctx.reset none false

def clientContextIsActive (ctx : ClientContext μ) : Bool :=
  ctx.connected && ctx.connection.isSome

/-! ## The queue -/

section Queue

variable (msgType : μ → Iec104MsgType)

/-- The search of `queue_push_locked` in a full queue: the offset from the head of
the first queued `MSG_ACTIVE_UPLOAD`. -/
def queuedUpload (ctx : ClientContext μ) : Option Nat :=
  (List.range ctx.queueCount).find? fun i =>
    ctx.queue[(ctx.queueHead + i) % ctx.queueCapacity]?.any fun m => msgType m == .activeUpload

def queuePushLocked (ctx : ClientContext μ) (msg : μ) (highPriority : Bool) :
    ClientContext μ × Bool :=
  if ctx.queueCount ≥ ctx.queueCapacity then
    match if msgType msg = .activeUpload then queuedUpload msgType ctx else none with
    | some i =>
      ({ ctx with queue := ctx.queue.set ((ctx.queueHead + i) % ctx.queueCapacity) msg }, true)
    | none => (ctx, false)
  else if highPriority then
    -- in C the sum is `queue_head - 1 + queue_capacity`, which is not negative
    let head := (ctx.queueHead + (ctx.queueCapacity - 1)) % ctx.queueCapacity
    ({ ctx with
       queueHead := head, queue := ctx.queue.set head msg
       queueCount := ctx.queueCount + 1 }, true)
  else
    ({ ctx with
       queue := ctx.queue.set ctx.queueTail msg
       queueTail := (ctx.queueTail + 1) % ctx.queueCapacity
       queueCount := ctx.queueCount + 1 }, true)

/-- `queue_pop`, after its waits. -/
def queuePop (ctx : ClientContext μ) : ClientContext μ × Option μ :=
  if ctx.queueCount = 0 then (ctx, none)
  else
    ({ ctx with
       queueHead := (ctx.queueHead + 1) % ctx.queueCapacity
       queueCount := ctx.queueCount - 1 }, ctx.queue[ctx.queueHead]?)

def clientContextPost (ctx : ClientContext μ) (msg : μ) (highPriority : Bool) :
    ClientContext μ × Bool :=
  if !ctx.workerThread then (ctx, false) else queuePushLocked msgType ctx msg highPriority

/-! ## The queue as a deque -/

/-- Where a message goes in: `some (p, q)` when it is put between the first `p`
messages and those from `q` on. `q = p` adds a message, `q = p + 1` replaces one. -/
def dequeCut (capacity : Nat) (l : List μ) (msg : μ) (highPriority : Bool) : Option (Nat × Nat) :=
  if l.length < capacity then
    some (if highPriority then (0, 0) else (l.length, l.length))
  else if msgType msg = .activeUpload then
    (l.findIdx? fun m => msgType m == .activeUpload).map fun i => (i, i + 1)
  else none

/-- A post to the deque: the new list, and whether the message is in it. -/
def dequePush (capacity : Nat) (l : List μ) (msg : μ) (highPriority : Bool) : List μ × Bool :=
  match dequeCut msgType capacity l msg highPriority with
  | some (p, q) => (l.take p ++ msg :: l.drop q, true)
  | none => (l, false)

end Queue

/-- The ring of the context holds the messages `l`, front first. -/
structure ClientContext.Represents (ctx : ClientContext μ) (l : List μ) : Prop where
  holds : Ring.Holds ctx.queue ctx.queueHead l
  count : ctx.queueCount = l.length
  tail : ctx.queueTail = Ring.slot ctx.queueCapacity ctx.queueHead l.length

/-- The queued messages, front first. -/
def ClientContext.queued (ctx : ClientContext μ) : List μ :=
  (List.range ctx.queueCount).filterMap fun i =>
    ctx.queue[(ctx.queueHead + i) % ctx.queueCapacity]?

namespace ClientContextLemmas

variable {msgType : μ → Iec104MsgType} {ctx : ClientContext μ} {l : List μ} {msg : μ}
  {highPriority : Bool}

theorem represents_reset (h : 0 < ctx.queueCapacity) (connection : Option Nat)
    (connected : Bool) : (ctx.reset connection connected).Represents [] where
  holds := Ring.holds_nil h
  count := rfl
  tail := (Nat.zero_mod _).symm

theorem queued_eq (h : ctx.Represents l) : ctx.queued = l := by
  unfold ClientContext.queued
  rw [h.count]
  exact h.holds.read

theorem queuedUpload_eq (h : ctx.Represents l) :
    queuedUpload msgType ctx = l.findIdx? fun m => msgType m == .activeUpload := by
  unfold queuedUpload
  rw [h.count]
  exact h.holds.find _

theorem represents_pushFront (h : ctx.Represents l) (hroom : l.length < ctx.queueCapacity) :
    (queuePushLocked msgType ctx msg true).1.Represents (msg :: l) := by
  have hnot : ¬ ctx.queueCount ≥ ctx.queueCapacity := by rw [h.count]; omega
  rw [queuePushLocked, if_neg hnot, if_pos rfl]
  refine ⟨h.holds.pushFront hroom msg, ?_, ?_⟩
  · exact congrArg (· + 1) h.count
  · show ctx.queueTail = Ring.slot (ctx.queue.set _ msg).length _ (l.length + 1)
    unfold ClientContext.queueCapacity at hroom
    rw [h.tail, List.length_set]
    -- the new head is one slot before the old one, and the list is one longer
    exact (Ring.slot_pred (by omega)).symm

theorem represents_pushBack (h : ctx.Represents l) (hroom : l.length < ctx.queueCapacity) :
    (queuePushLocked msgType ctx msg false).1.Represents (l ++ [msg]) := by
  have hnot : ¬ ctx.queueCount ≥ ctx.queueCapacity := by rw [h.count]; omega
  rw [queuePushLocked, if_neg hnot, if_neg Bool.false_ne_true]
  refine ⟨?_, ?_, ?_⟩
  · show Ring.Holds (ctx.queue.set ctx.queueTail msg) ctx.queueHead (l ++ [msg])
    rw [h.tail]
    exact h.holds.pushBack hroom msg
  · show ctx.queueCount + 1 = (l ++ [msg]).length
    rw [h.count, List.length_append, List.length_singleton]
  · show (ctx.queueTail + 1) % ctx.queueCapacity =
      Ring.slot (ctx.queue.set ctx.queueTail msg).length ctx.queueHead (l ++ [msg]).length
    rw [h.tail, List.length_set, List.length_append, List.length_singleton]
    exact Ring.slot_slot l.length

theorem represents_replace (h : ctx.Represents l) {i : Nat} (hi : i < l.length) :
    ({ ctx with
       queue := ctx.queue.set ((ctx.queueHead + i) % ctx.queueCapacity) msg } :
      ClientContext μ).Represents (l.take i ++ msg :: l.drop (i + 1)) := by
  have hset : l.set i msg = l.take i ++ msg :: l.drop (i + 1) := by
    rw [List.set_eq_take_append_cons_drop, if_pos hi]
  rw [← hset]
  refine ⟨h.holds.set hi msg, ?_, ?_⟩
  · rw [List.length_set]
    exact h.count
  · rw [List.length_set]
    exact h.tail.trans (congrArg (Ring.slot · _ _) List.length_set.symm)

/-- The ring does to its list what a post does to the deque. -/
theorem push_refines (msgType : μ → Iec104MsgType) (h : ctx.Represents l) (msg : μ)
    (highPriority : Bool) :
    (queuePushLocked msgType ctx msg highPriority).2 =
        (dequePush msgType ctx.queueCapacity l msg highPriority).2 ∧
      (queuePushLocked msgType ctx msg highPriority).1.Represents
        (dequePush msgType ctx.queueCapacity l msg highPriority).1 := by
  by_cases hroom : l.length < ctx.queueCapacity
  · have hnot : ¬ ctx.queueCount ≥ ctx.queueCapacity := by rw [h.count]; omega
    rw [dequePush, dequeCut, if_pos hroom]
    cases highPriority with
    | true =>
      refine ⟨?_, represents_pushFront h hroom⟩
      rw [queuePushLocked, if_neg hnot, if_pos rfl]
    | false =>
      refine ⟨?_, ?_⟩
      · rw [queuePushLocked, if_neg hnot, if_neg Bool.false_ne_true]
      · show ClientContext.Represents _ (l.take l.length ++ msg :: l.drop l.length)
        rw [List.take_length, List.drop_length]
        exact represents_pushBack h hroom
  · have hfull : ctx.queueCount ≥ ctx.queueCapacity := by rw [h.count]; omega
    rw [queuePushLocked, if_pos hfull, queuedUpload_eq h, dequePush, dequeCut, if_neg hroom]
    by_cases hup : msgType msg = .activeUpload
    · rw [if_pos hup, if_pos hup]
      cases hfind : l.findIdx? fun m => msgType m == .activeUpload with
      | none => exact ⟨rfl, h⟩
      | some i =>
        exact ⟨rfl, represents_replace h (List.findIdx?_eq_some_iff_getElem.mp hfind).1⟩
    · rw [if_neg hup, if_neg hup]
      exact ⟨rfl, h⟩

/-- A pop takes the front of the list. -/
theorem pop_refines (h : ctx.Represents l) :
    (queuePop ctx).2 = l.head? ∧ (queuePop ctx).1.Represents l.tail := by
  unfold queuePop
  cases l with
  | nil =>
    have hcount : ctx.queueCount = 0 := h.count
    rw [if_pos hcount]
    exact ⟨rfl, h⟩
  | cons m l =>
    have hcount : ctx.queueCount = l.length + 1 := h.count
    rw [if_neg (by omega)]
    refine ⟨h.holds.front, h.holds.drop 1, ?_, ?_⟩
    · show ctx.queueCount - 1 = l.length
      omega
    · show ctx.queueTail = Ring.slot ctx.queueCapacity (Ring.slot ctx.queueCapacity _ 1) l.length
      rw [h.tail, Ring.slot_slot, List.length_cons, Nat.add_comm]

theorem mem_dequePush {capacity : Nat} {m : μ}
    (h : m ∈ (dequePush msgType capacity l msg highPriority).1) : m ∈ l ∨ m = msg := by
  unfold dequePush at h
  split at h
  · simp only [List.mem_append, List.mem_cons] at h
    rcases h with h | rfl | h
    · exact .inl (List.mem_of_mem_take h)
    · exact .inr rfl
    · exact .inl (List.mem_of_mem_drop h)
  · exact .inl h

/-- A post changes the queue fields only. -/
theorem push_frame (msgType : μ → Iec104MsgType) (ctx : ClientContext μ) (msg : μ)
    (highPriority : Bool) : ∃ queue head tail count,
    (queuePushLocked msgType ctx msg highPriority).1 =
      { ctx with queue := queue, queueHead := head, queueTail := tail, queueCount := count } := by
  unfold queuePushLocked
  split
  · split
    · exact ⟨_, _, _, _, rfl⟩
    · exact ⟨_, _, _, _, rfl⟩
  · split
    · exact ⟨_, _, _, _, rfl⟩
    · exact ⟨_, _, _, _, rfl⟩

/-- A pop changes the queue fields only. -/
theorem pop_frame (ctx : ClientContext μ) : ∃ head count,
    (queuePop ctx).1 = { ctx with queueHead := head, queueCount := count } := by
  unfold queuePop
  split
  · exact ⟨_, _, rfl⟩
  · exact ⟨_, _, rfl⟩

theorem post_eq_push (h : ctx.workerThread = true) (msg : μ) (highPriority : Bool) :
    clientContextPost msgType ctx msg highPriority =
      queuePushLocked msgType ctx msg highPriority := by
  rw [clientContextPost, h]
  rfl

end ClientContextLemmas

/-! ## Posts and pops of one binding -/

inductive QueueOp
  | post (msg : Iec104WorkMsg) (highPriority : Bool)
  | pop

def queueStep (ctx : ClientContext Iec104WorkMsg) : QueueOp → ClientContext Iec104WorkMsg
  | .post msg highPriority => (clientContextPost Iec104WorkMsg.type ctx msg highPriority).1
  | .pop => (queuePop ctx).1

/-- The message that the worker gets from an operation. -/
def queuePopped (ctx : ClientContext Iec104WorkMsg) : QueueOp → List Iec104WorkMsg
  | .post _ _ => []
  | .pop => (queuePop ctx).2.toList

/-- A message, the argument it was posted with and the number of posts before it. -/
structure PostedMsg where
  msg : Iec104WorkMsg
  highPriority : Bool
  serial : Nat
deriving DecidableEq, Inhabited

/-- A run in which the queue holds the messages with their posts: what was popped, in
order, is kept beside the context. -/
structure QueueRun where
  ctx : ClientContext PostedMsg
  posts : Nat
  popped : List PostedMsg

def QueueRun.start (ctx : ClientContext PostedMsg) : QueueRun := ⟨ctx, 0, []⟩

def postedStep (s : QueueRun) : QueueOp → QueueRun
  | .post msg highPriority =>
    { s with
      ctx := (clientContextPost (·.msg.type) s.ctx ⟨msg, highPriority, s.posts⟩ highPriority).1
      posts := s.posts + 1 }
  | .pop =>
    { s with ctx := (queuePop s.ctx).1, popped := s.popped ++ (queuePop s.ctx).2.toList }

/-- What the worker has popped, and then what it would pop next. -/
def QueueRun.handled (s : QueueRun) : List PostedMsg := s.popped ++ s.ctx.queued

/-- Of two high-priority messages the one that was posted first comes first. -/
def InPostOrder (l : List PostedMsg) : Prop :=
  l.Pairwise fun a b => a.highPriority = true → b.highPriority = true → a.serial < b.serial

/-- A high-priority message that is accepted has no high-priority message behind it. In
a queue with room it goes to the front, so none may be queued at all. -/
def NoneBehind (s : QueueRun) : QueueOp → Prop
  | .post msg true =>
    ∀ p q, dequeCut (·.msg.type) s.ctx.queueCapacity s.ctx.queued ⟨msg, true, s.posts⟩ true =
        some (p, q) →
      ∀ m ∈ s.ctx.queued.drop q, m.highPriority = false
  | _ => True

/-- The same context with other messages. -/
def ClientContext.map {ν : Type} (f : μ → ν) (ctx : ClientContext μ) : ClientContext ν :=
  { ctx with queue := ctx.queue.map f }

structure QueueInv (s : QueueRun) : Prop where
  represents : s.ctx.Represents s.ctx.queued
  worker : s.ctx.workerThread = true
  serial : ∀ m ∈ s.handled, m.serial < s.posts

namespace ClientContextLemmas

variable {s : QueueRun}

theorem queued_post (h : QueueInv s) (msg : Iec104WorkMsg) (highPriority : Bool) :
    (postedStep s (.post msg highPriority)).ctx.Represents
      (dequePush (·.msg.type) s.ctx.queueCapacity s.ctx.queued ⟨msg, highPriority, s.posts⟩
        highPriority).1 := by
  show (clientContextPost _ s.ctx _ _).1.Represents _
  rw [post_eq_push h.worker]
  exact (push_refines _ h.represents _ _).2

/-- A post puts its message at the cut, or is refused. -/
theorem handled_post (h : QueueInv s) (msg : Iec104WorkMsg) (highPriority : Bool) :
    (postedStep s (.post msg highPriority)).handled =
      match dequeCut (·.msg.type) s.ctx.queueCapacity s.ctx.queued ⟨msg, highPriority, s.posts⟩
        highPriority with
      | some (p, q) =>
        s.popped ++ (s.ctx.queued.take p ++ ⟨msg, highPriority, s.posts⟩ :: s.ctx.queued.drop q)
      | none => s.handled := by
  rw [QueueRun.handled, queued_eq (queued_post h msg highPriority), dequePush]
  split
  · rfl
  · rfl

theorem handled_pop (h : QueueInv s) : (postedStep s .pop).handled = s.handled := by
  obtain ⟨hmsg, hrest⟩ := pop_refines h.represents
  show (s.popped ++ (queuePop s.ctx).2.toList) ++ (queuePop s.ctx).1.queued = s.popped ++ _
  rw [queued_eq hrest, hmsg, List.append_assoc]
  congr 1
  cases s.ctx.queued with
  | nil => rfl
  | cons m l => rfl

theorem mem_handled_post (h : QueueInv s) {msg : Iec104WorkMsg} {highPriority : Bool}
    {m : PostedMsg} (hm : m ∈ (postedStep s (.post msg highPriority)).handled) :
    m ∈ s.handled ∨ m = ⟨msg, highPriority, s.posts⟩ := by
  rw [QueueRun.handled, queued_eq (queued_post h msg highPriority)] at hm
  rcases List.mem_append.mp hm with hm | hm
  · exact .inl (List.mem_append_left _ hm)
  · exact (mem_dequePush hm).imp_left (List.mem_append_right _)

theorem queueInv_step (h : QueueInv s) (op : QueueOp) : QueueInv (postedStep s op) := by
  cases op with
  | post msg highPriority =>
    have hrep := queued_post h msg highPriority
    refine ⟨by rwa [queued_eq hrep], ?_, fun m hm => ?_⟩
    · show (clientContextPost _ s.ctx _ _).1.workerThread = true
      rw [post_eq_push h.worker]
      obtain ⟨_, _, _, _, hframe⟩ :=
        push_frame (·.msg.type) s.ctx ⟨msg, highPriority, s.posts⟩ highPriority
      rw [hframe]
      exact h.worker
    · show m.serial < s.posts + 1
      rcases mem_handled_post h hm with hm | rfl
      · exact Nat.lt_succ_of_lt (h.serial m hm)
      · exact Nat.lt_succ_self _
  | pop =>
    have hrep := (pop_refines h.represents).2
    refine ⟨?_, ?_, fun m hm => ?_⟩
    · show (queuePop s.ctx).1.Represents (queuePop s.ctx).1.queued
      rwa [queued_eq hrep]
    · obtain ⟨_, _, hframe⟩ := pop_frame s.ctx
      show (queuePop s.ctx).1.workerThread = true
      rw [hframe]
      exact h.worker
    · rw [handled_pop h] at hm
      exact h.serial m hm

theorem queueInv_exec (h : QueueInv s) (ops : List QueueOp) :
    QueueInv (Run.exec postedStep s ops) :=
  Run.exec_induction (I := fun _ => QueueInv) h (fun _ _ op ht => queueInv_step ht op) ops

theorem queueInv_start {ctx : ClientContext PostedMsg} (hempty : ctx.Represents [])
    (hworker : ctx.workerThread = true) : QueueInv (QueueRun.start ctx) := by
  have hq := queued_eq hempty
  refine ⟨?_, hworker, fun m hm => ?_⟩
  · show ctx.Represents ctx.queued
    rwa [hq]
  · rw [QueueRun.handled, QueueRun.start, hq] at hm
    cases hm

/-- Popping on and on hands the queue out from the front. -/
theorem popped_drain (h : QueueInv s) (k : Nat) :
    (Run.exec postedStep s (List.replicate k .pop)).popped =
      s.popped ++ s.ctx.queued.take k := by
  induction k generalizing s with
  | zero => simp
  | succ k ih =>
    obtain ⟨hmsg, hrest⟩ := pop_refines h.represents
    rw [List.replicate_succ, Run.exec_cons, ih (queueInv_step h .pop)]
    show (s.popped ++ (queuePop s.ctx).2.toList) ++ (queuePop s.ctx).1.queued.take k = _
    rw [queued_eq hrest, hmsg, List.append_assoc]
    congr 1
    cases s.ctx.queued with
    | nil => simp
    | cons m l => rfl

/-- Every way to stop draining is in order when draining to the end is. -/
theorem inPostOrder_drain (h : QueueInv s) :
    (∀ k, InPostOrder (Run.exec postedStep s (List.replicate k .pop)).popped) ↔
      InPostOrder s.handled := by
  constructor
  · intro hall
    have hend := hall s.ctx.queued.length
    rwa [popped_drain h, List.take_length] at hend
  · intro horder k
    rw [popped_drain h]
    exact horder.sublist ((List.Sublist.refl _).append (List.take_sublist _ _))

theorem dequeCut_le {msgType : μ → Iec104MsgType} {capacity p q : Nat} {l : List μ} {msg : μ}
    {highPriority : Bool} (h : dequeCut msgType capacity l msg highPriority = some (p, q)) :
    p ≤ q := by
  unfold dequeCut at h
  split at h
  · cases highPriority with
    | true => cases h; exact Nat.le_refl _
    | false => cases h; exact Nat.le_refl _
  · split at h
    · obtain ⟨i, _, hi⟩ := Option.map_eq_some_iff.mp h
      cases hi
      exact Nat.le_succ _
    · cases h

theorem take_append_drop_sublist {α : Type} {l : List α} {p q : Nat} (h : p ≤ q) :
    (l.take p ++ l.drop q).Sublist l := by
  have hsub := (List.Sublist.refl (l.take p)).append (List.drop_sublist_drop_left l h)
  rwa [List.take_append_drop] at hsub

theorem noneBehind_iff {msg : Iec104WorkMsg} {highPriority : Bool} {cut : Option (Nat × Nat)}
    (hcut : dequeCut (·.msg.type) s.ctx.queueCapacity s.ctx.queued
      ⟨msg, highPriority, s.posts⟩ highPriority = cut) :
    NoneBehind s (.post msg highPriority) ↔
      ∀ p q, cut = some (p, q) → highPriority = true →
        ∀ m ∈ s.ctx.queued.drop q, m.highPriority = false := by
  subst hcut
  cases highPriority with
  | true => exact ⟨fun h p q hpq _ => h p q hpq, fun h p q hpq => h p q hpq rfl⟩
  | false => exact ⟨fun _ _ _ _ h => (nomatch h), fun _ => trivial⟩

/-- A post keeps the order exactly when it puts nothing in front of a
high-priority message. -/
theorem inPostOrder_post (h : QueueInv s) (horder : InPostOrder s.handled) (msg : Iec104WorkMsg)
    (highPriority : Bool) :
    InPostOrder (postedStep s (.post msg highPriority)).handled ↔
      NoneBehind s (.post msg highPriority) := by
  rw [handled_post h]
  cases hcut : dequeCut (·.msg.type) s.ctx.queueCapacity s.ctx.queued
      ⟨msg, highPriority, s.posts⟩ highPriority with
  | none =>
    rw [noneBehind_iff hcut]
    exact ⟨fun _ p q hpq => (nomatch hpq), fun _ => horder⟩
  | some cut =>
    obtain ⟨p, q⟩ := cut
    rw [noneBehind_iff hcut]
    have hserial : ∀ m ∈ s.popped ++ s.ctx.queued, m.serial < s.posts := h.serial
    constructor
    · intro hnew p' q' hpq hhigh m hm
      cases hpq
      by_contra hmhigh
      -- the new message is in front of `m`, which was posted before it
      have htail := (List.pairwise_append.mp (List.pairwise_append.mp hnew).2.1).2.1
      have hlt := (List.pairwise_cons.mp htail).1 m hm hhigh (by simpa using hmhigh)
      have hgt := hserial m (List.mem_append_right _ (List.mem_of_mem_drop hm))
      exact absurd hlt (Nat.lt_asymm hgt)
    · intro hbehind
      have hkept : InPostOrder (s.popped ++ (s.ctx.queued.take p ++ s.ctx.queued.drop q)) := by
        refine horder.sublist ((List.Sublist.refl _).append ?_)
        exact take_append_drop_sublist (dequeCut_le hcut)
      show InPostOrder (s.popped ++ (s.ctx.queued.take p ++ _ :: s.ctx.queued.drop q))
      rw [InPostOrder, ← List.append_assoc, List.pairwise_append] at hkept ⊢
      refine ⟨hkept.1, List.pairwise_cons.mpr ⟨fun b hb hhigh hbhigh => ?_, hkept.2.1⟩, ?_⟩
      · rw [hbehind p q rfl hhigh b hb] at hbhigh
        cases hbhigh
      · intro a ha b hb
        rcases List.mem_cons.mp hb with rfl | hb
        · intro _ _
          refine hserial a (List.mem_append.mpr ?_)
          exact (List.mem_append.mp ha).imp_right List.mem_of_mem_take
        · exact hkept.2.2 a ha b hb

theorem inPostOrder_step (h : QueueInv s) (horder : InPostOrder s.handled) (op : QueueOp) :
    InPostOrder (postedStep s op).handled ↔ NoneBehind s op := by
  cases op with
  | post msg highPriority => exact inPostOrder_post h horder msg highPriority
  | pop =>
    rw [handled_pop h]
    exact ⟨fun _ => trivial, fun _ => horder⟩

section Erase

variable {ν : Type} {f : μ → ν} {msgType : ν → Iec104MsgType} {ctx : ClientContext μ}

theorem queuedUpload_map :
    queuedUpload msgType (ctx.map f) = queuedUpload (fun m => msgType (f m)) ctx := by
  simp [queuedUpload, ClientContext.map, ClientContext.queueCapacity, Option.any_map]

/-- The queue does not look into a message beyond its type. -/
theorem queuePushLocked_map (msg : μ) (highPriority : Bool) :
    queuePushLocked msgType (ctx.map f) (f msg) highPriority =
      ((queuePushLocked (fun m => msgType (f m)) ctx msg highPriority).1.map f,
        (queuePushLocked (fun m => msgType (f m)) ctx msg highPriority).2) := by
  have hcap : (ctx.map f).queueCapacity = ctx.queueCapacity := List.length_map f
  unfold queuePushLocked
  rw [queuedUpload_map, hcap]
  show (if ctx.queueCount ≥ ctx.queueCapacity then _ else _) = _
  by_cases hfull : ctx.queueCount ≥ ctx.queueCapacity
  · rw [if_pos hfull, if_pos hfull]
    cases if msgType (f msg) = .activeUpload then queuedUpload (fun m => msgType (f m)) ctx
      else none with
    | none => rfl
    | some i => simp [ClientContext.map, List.map_set]
  · rw [if_neg hfull, if_neg hfull]
    cases highPriority with
    | true => simp [ClientContext.map, List.map_set]
    | false => simp [ClientContext.map, List.map_set]

theorem queuePop_map :
    queuePop (ctx.map f) = ((queuePop ctx).1.map f, (queuePop ctx).2.map f) := by
  have hcap : (ctx.map f).queueCapacity = ctx.queueCapacity := List.length_map f
  unfold queuePop
  rw [hcap]
  show (if ctx.queueCount = 0 then _ else _) = _
  split
  · rfl
  · simp [ClientContext.map]

end Erase

/-- Forgetting how the messages were posted gives the run of the client itself. -/
theorem popped_erase (s : QueueRun) (ops : List QueueOp) :
    (Run.exec postedStep s ops).popped.map PostedMsg.msg =
      s.popped.map PostedMsg.msg ++
        Run.outputs queueStep queuePopped (s.ctx.map PostedMsg.msg) ops := by
  induction ops generalizing s with
  | nil => simp [Run.outputs]
  | cons op ops ih =>
    rw [Run.exec_cons, ih, Run.outputs, ← List.append_assoc]
    cases op with
    | post msg highPriority =>
      have hctx : (postedStep s (.post msg highPriority)).ctx.map PostedMsg.msg =
          queueStep (s.ctx.map PostedMsg.msg) (.post msg highPriority) := by
        show (clientContextPost _ s.ctx _ _).1.map _ = (clientContextPost _ _ _ _).1
        unfold clientContextPost
        show _ = (if (!s.ctx.workerThread) = true then _ else _ : ClientContext _ × Bool).1
        split
        · rfl
        · exact (congrArg Prod.fst
            (queuePushLocked_map (f := PostedMsg.msg) ⟨msg, highPriority, s.posts⟩ _)).symm
      rw [hctx]
      simp [queuePopped, postedStep]
    | pop =>
      have hpop : queuePop (s.ctx.map PostedMsg.msg) = _ := queuePop_map
      show (s.popped ++ (queuePop s.ctx).2.toList).map _ ++
        Run.outputs queueStep queuePopped ((queuePop s.ctx).1.map _) ops = _
      rw [queueStep, queuePopped, hpop, List.map_append, Option.toList_map]

end ClientContextLemmas

open ClientContextLemmas

/-- From an empty queue of a running worker: at no point of a run can the worker, by
popping on, get two high-priority messages in the wrong order, exactly when no
accepted high-priority message of the run is put in front of another one. The
messages are those of the client, with their numbers (`popped_erase`). -/
theorem high_priority_order_iff {ctx : ClientContext PostedMsg} (hempty : ctx.Represents [])
    (hworker : ctx.workerThread = true) (ops : List QueueOp) :
    (∀ past rest, ops = past ++ rest → ∀ k,
      InPostOrder
        (Run.exec postedStep (QueueRun.start ctx) (past ++ List.replicate k .pop)).popped) ↔
      Run.Guarded NoneBehind postedStep (QueueRun.start ctx) ops := by
  have hstart := queueInv_start hempty hworker
  have hdrain : ∀ past, (∀ k, InPostOrder (Run.exec postedStep (QueueRun.start ctx)
      (past ++ List.replicate k .pop)).popped) ↔
      InPostOrder (Run.exec postedStep (QueueRun.start ctx) past).handled := by
    intro past
    simp only [Run.exec_append]
    exact inPostOrder_drain (queueInv_exec hstart past)
  simp only [hdrain]
  constructor
  · rintro hall past op rest rfl
    have hbefore := hall past (op :: rest) rfl
    have hafter := hall (past ++ [op]) rest (by simp)
    rw [Run.exec_append] at hafter
    exact (inPostOrder_step (queueInv_exec hstart past) hbefore op).mp hafter
  · rintro hguard past rest rfl
    refine (Run.guarded_induction (I := fun _ s => QueueInv s ∧ InPostOrder s.handled)
      ⟨hstart, ?_⟩ ?_ hguard.left).2
    · rw [QueueRun.handled, QueueRun.start, queued_eq hempty]
      exact List.Pairwise.nil
    · rintro _ s op hok ⟨hinv, horder⟩
      exact ⟨queueInv_step hinv op, (inPostOrder_step hinv horder op).mpr hok⟩

/-- A started client with a fresh connection. -/
def boundClient [Inhabited μ] (queueCapacity : Nat) : ClientContext μ :=
  clientContextBindConnection (clientContextStart (clientContextInit queueCapacity)) 0

/-- A single command for the first YK point, as `asdu_handler` posts it. -/
def demoCommand (select : UInt8) : Iec104WorkMsg :=
  { type := .remoteControl, ioa := 0x6001, typeId := C_SC_NA_1, cot := .activation,
    commandSelect := select, commandState := 1 }

/-- A worker that takes the select before the execute arrives handles them in order. -/
theorem select_execute_in_order :
    InPostOrder (Run.exec postedStep (QueueRun.start (boundClient 4))
      [.post (demoCommand 1) true, .pop, .post (demoCommand 0) true, .pop]).popped := by
  have hempty : (boundClient 4 : ClientContext PostedMsg).Represents [] :=
    represents_reset (by decide) _ _
  refine (high_priority_order_iff hempty rfl [.post (demoCommand 1) true, .pop,
    .post (demoCommand 0) true]).mpr ?_ _ [] (List.append_nil _).symm 1
  simp only [Run.guarded_cons, NoneBehind, Run.Guarded.nil, and_true, true_and]
  exact ⟨fun p q _ m hm => absurd (List.mem_of_mem_drop hm) List.not_mem_nil,
    fun p q _ m hm => absurd (List.mem_of_mem_drop hm) List.not_mem_nil⟩

/-- A select and its execute that are both queued while the worker is busy leave the
queue in the wrong order. -/
theorem queued_select_execute_swapped :
    (Run.exec postedStep (QueueRun.start (boundClient 4))
        [.post (demoCommand 1) true, .post (demoCommand 0) true, .pop, .pop]).popped =
      [⟨demoCommand 0, true, 1⟩, ⟨demoCommand 1, true, 0⟩] ∧
    ¬ InPostOrder (Run.exec postedStep (QueueRun.start (boundClient 4))
        [.post (demoCommand 1) true, .post (demoCommand 0) true, .pop, .pop]).popped := by
  have hpopped : (Run.exec postedStep (QueueRun.start (boundClient 4))
        [.post (demoCommand 1) true, .post (demoCommand 0) true, .pop, .pop]).popped =
      [⟨demoCommand 0, true, 1⟩, ⟨demoCommand 1, true, 0⟩] := by decide
  refine ⟨hpopped, ?_⟩
  rw [hpopped, InPostOrder]
  decide

end Iec104Slave
