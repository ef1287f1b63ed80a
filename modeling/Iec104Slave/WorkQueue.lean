import Iec104Slave.ClientContext
import Mathlib.Data.List.Perm.Basic

/-!
# The work queue as a bounded deque

`DequeStep` and `DequeRun` say what the queue of a client is for: a list of at most
`queue_capacity` messages with two ends, in which a full queue can only have its first
`MSG_ACTIVE_UPLOAD` renewed. What a run takes out without giving it to the worker is kept apart.

Results:
1. `DequeRun.conserves`: the messages that the deque accepts are those that were popped, those
   that are queued, and those that were taken out.
2. `work_queue_refines_deque`: every run of the ring, from `client_context_start` on, is a run
   of the deque with the same results.
-/

namespace Iec104Slave

variable {μ : Type}

/-! ## Operations on a context -/

inductive ContextOp (μ : Type)
  | post (msg : μ) (highPriority : Bool)
  | pop
  | bind (connection : Nat)
  | close

inductive ContextResult (μ : Type)
  | posted (ok : Bool)
  | popped (msg : Option μ)
  | done

section Context

variable (msgType : μ → Iec104MsgType)

def contextStep (ctx : ClientContext μ) : ContextOp μ → ClientContext μ
  | .post msg highPriority => (clientContextPost msgType ctx msg highPriority).1
  | .pop => (queuePop ctx).1
  | .bind connection => clientContextBindConnection ctx connection
  | .close => clientContextCloseConnection ctx

def contextResult (ctx : ClientContext μ) : ContextOp μ → ContextResult μ
  | .post msg highPriority => .posted (clientContextPost msgType ctx msg highPriority).2
  | .pop => .popped (queuePop ctx).2
  | .bind _ => .done
  | .close => .done

/-- The operations of a run, each with its result. -/
def contextHistory (ctx : ClientContext μ) (ops : List (ContextOp μ)) :
    List (ContextOp μ × ContextResult μ) :=
  Run.outputs (contextStep msgType) (fun ctx op => [(op, contextResult msgType ctx op)]) ctx ops

/-! ## The deque -/

/-- One operation: the list before and after it, its result, and the messages that it takes out
without giving them to the worker. -/
inductive DequeStep (capacity : Nat) :
    List μ → ContextOp μ → List μ → ContextResult μ → List μ → Prop
  | front {l : List μ} {msg : μ} (hroom : l.length < capacity) :
      DequeStep capacity l (.post msg true) (msg :: l) (.posted true) []
  | back {l : List μ} {msg : μ} (hroom : l.length < capacity) :
      DequeStep capacity l (.post msg false) (l ++ [msg]) (.posted true) []
  | renew {xs ys : List μ} {old msg : μ} {highPriority : Bool}
      (hfull : capacity ≤ (xs ++ old :: ys).length) (hmsg : msgType msg = .activeUpload)
      (hold : msgType old = .activeUpload) (hfirst : ∀ m ∈ xs, msgType m ≠ .activeUpload) :
      DequeStep capacity (xs ++ old :: ys) (.post msg highPriority) (xs ++ msg :: ys)
        (.posted true) [old]
  | refuse {l : List μ} {msg : μ} {highPriority : Bool} (hfull : capacity ≤ l.length)
      (hnone : msgType msg = .activeUpload → ∀ m ∈ l, msgType m ≠ .activeUpload) :
      DequeStep capacity l (.post msg highPriority) l (.posted false) []
  | pop {l : List μ} {msg : μ} : DequeStep capacity (msg :: l) .pop l (.popped (some msg)) []
  | empty : DequeStep capacity [] .pop [] (.popped none) []
  | bind {l : List μ} {connection : Nat} : DequeStep capacity l (.bind connection) [] .done l
  | close {l : List μ} : DequeStep capacity l .close [] .done l

/-- A run from the empty deque: its operations with their results, the list at its end, and all
messages that were taken out. -/
inductive DequeRun (capacity : Nat) :
    List (ContextOp μ × ContextResult μ) → List μ → List μ → Prop
  | start : DequeRun capacity [] [] []
  | step {history : List (ContextOp μ × ContextResult μ)} {l l' lost gone : List μ}
      {op : ContextOp μ} {result : ContextResult μ} (run : DequeRun capacity history l lost)
      (move : DequeStep msgType capacity l op l' result gone) :
      DequeRun capacity (history ++ [(op, result)]) l' (lost ++ gone)

end Context

def acceptedMsg : ContextOp μ × ContextResult μ → List μ
  | (.post msg _, .posted true) => [msg]
  | _ => []

def poppedMsg : ContextOp μ × ContextResult μ → List μ
  | (_, .popped (some msg)) => [msg]
  | _ => []

/-- The ring after the operations is a deque at the end of a run with the same results. -/
structure RefinesDeque (msgType : μ → Iec104MsgType) (capacity : Nat)
    (history : List (ContextOp μ × ContextResult μ)) (ctx : ClientContext μ) : Prop where
  represents : ctx.Represents ctx.queued
  bounded : ctx.queued.length ≤ capacity
  tail : ctx.queueTail = (ctx.queueHead + ctx.queueCount) % capacity
  run : ∃ lost, DequeRun msgType capacity history ctx.queued lost ∧
    (history.flatMap acceptedMsg).Perm
      (history.flatMap poppedMsg ++ ctx.queued ++ lost)

section Deque

variable {msgType : μ → Iec104MsgType} {capacity : Nat}

theorem DequeStep.conserves {l l' gone : List μ} {op : ContextOp μ} {result : ContextResult μ}
    (h : DequeStep msgType capacity l op l' result gone) :
    (l ++ acceptedMsg (op, result)).Perm (poppedMsg (op, result) ++ l' ++ gone) := by
  cases h with
  | front =>
    rw [List.append_nil]
    exact List.perm_append_singleton _ _
  | back =>
    rw [List.append_nil]
    exact .refl _
  | @renew xs ys old msg =>
    show (xs ++ old :: ys ++ [msg]).Perm (xs ++ msg :: ys ++ [old])
    rw [List.append_assoc, List.append_assoc]
    refine .append_left xs ?_
    calc (old :: ys ++ [msg]).Perm (msg :: old :: ys) := List.perm_append_singleton _ _
      _ |>.Perm (old :: msg :: ys) := .swap _ _ _
      _ |>.Perm (msg :: ys ++ [old]) := (List.perm_append_singleton _ _).symm
  | refuse => exact .refl _
  | pop => exact .refl _
  | empty => exact .refl _
  | bind => exact .of_eq (List.append_nil _)
  | close => exact .of_eq (List.append_nil _)

/-- What the deque accepts is popped, queued or taken out. -/
theorem DequeRun.conserves {history : List (ContextOp μ × ContextResult μ)} {l lost : List μ}
    (h : DequeRun msgType capacity history l lost) :
    (history.flatMap acceptedMsg).Perm (history.flatMap poppedMsg ++ l ++ lost) := by
  classical
  induction h with
  | start => exact .refl _
  | step run move ih =>
    have hmove := move.conserves
    rw [List.perm_iff_count] at ih hmove ⊢
    intro m
    have hbefore := ih m
    have hstep := hmove m
    simp only [List.flatMap_append, List.flatMap_singleton, List.count_append] at *
    omega

end Deque

namespace WorkQueueLemmas

open ClientContextLemmas

variable {msgType : μ → Iec104MsgType} {capacity : Nat} {ctx : ClientContext μ} {l : List μ}

theorem dequePush_step (msgType : μ → Iec104MsgType) (capacity : Nat) (l : List μ) (msg : μ)
    (highPriority : Bool) : ∃ gone,
    DequeStep msgType capacity l (.post msg highPriority)
      (dequePush msgType capacity l msg highPriority).1
      (.posted (dequePush msgType capacity l msg highPriority).2) gone := by
  unfold dequePush dequeCut
  by_cases hroom : l.length < capacity
  · rw [if_pos hroom]
    cases highPriority with
    | true => exact ⟨[], .front hroom⟩
    | false =>
      simp only [Bool.false_eq_true, if_false, List.take_length, List.drop_length]
      exact ⟨[], .back hroom⟩
  · rw [if_neg hroom]
    have hfull := Nat.not_lt.mp hroom
    by_cases hmsg : msgType msg = .activeUpload
    · rw [if_pos hmsg]
      cases hfind : l.findIdx? fun m => msgType m == .activeUpload with
      | none =>
        refine ⟨[], .refuse hfull fun _ m hm => ?_⟩
        simpa using List.findIdx?_eq_none_iff.mp hfind m hm
      | some i =>
        obtain ⟨hi, hold, hfirst⟩ := List.findIdx?_eq_some_iff_getElem.mp hfind
        -- the queue around its first upload
        have hsplit : l.take i ++ l[i] :: l.drop (i + 1) = l := by
          rw [← List.drop_eq_getElem_cons hi, List.take_append_drop]
        have hbefore : ∀ m ∈ l.take i, msgType m ≠ .activeUpload := by
          intro m hm
          obtain ⟨j, hj, rfl⟩ := List.mem_take_iff_getElem.mp hm
          simpa using hfirst j (Nat.lt_of_lt_of_le hj (Nat.min_le_left _ _))
        have hstep : DequeStep msgType capacity (l.take i ++ l[i] :: l.drop (i + 1))
            (.post msg highPriority) (l.take i ++ msg :: l.drop (i + 1)) (.posted true) [l[i]] :=
          .renew (hsplit.symm ▸ hfull) hmsg (beq_iff_eq.mp hold) hbefore
        rw [hsplit] at hstep
        exact ⟨[l[i]], hstep⟩
    · rw [if_neg hmsg]
      exact ⟨[], .refuse hfull fun h => absurd h hmsg⟩

theorem queueCapacity_push (msgType : μ → Iec104MsgType) (ctx : ClientContext μ) (msg : μ)
    (highPriority : Bool) :
    (queuePushLocked msgType ctx msg highPriority).1.queueCapacity = ctx.queueCapacity := by
  unfold queuePushLocked
  split
  · split
    · exact List.length_set
    · rfl
  · split
    · exact List.length_set
    · exact List.length_set

/-- What holds of a started context: its thread and the length of its array stay. -/
structure Started (capacity : Nat) (ctx : ClientContext μ) : Prop where
  represents : ctx.Represents ctx.queued
  worker : ctx.workerThread = true
  capacity : ctx.queueCapacity = capacity

theorem started_reset (hpos : 0 < capacity) (hworker : ctx.workerThread = true)
    (hcapacity : ctx.queueCapacity = capacity) (connection : Option Nat) (connected : Bool) :
    Started capacity (ctx.reset connection connected) where
  represents := represents_reset (hcapacity ▸ hpos) connection connected
  worker := hworker
  capacity := hcapacity

theorem started_init [Inhabited μ] (hpos : 0 < capacity) :
    Started capacity (clientContextStart (clientContextInit capacity : ClientContext μ)) := by
  have hcapacity :
      (clientContextStart (clientContextInit capacity : ClientContext μ)).queueCapacity =
        capacity := List.length_replicate
  exact started_reset hpos rfl hcapacity none false

theorem started_post (h : Started capacity ctx) (msg : μ) (highPriority : Bool) :
    Started capacity (contextStep msgType ctx (.post msg highPriority)) ∧ ∃ gone,
      DequeStep msgType capacity ctx.queued (.post msg highPriority)
        (contextStep msgType ctx (.post msg highPriority)).queued
        (contextResult msgType ctx (.post msg highPriority)) gone := by
  obtain ⟨hresult, hrep⟩ := push_refines msgType h.represents msg highPriority
  obtain ⟨_, _, _, _, hframe⟩ := push_frame msgType ctx msg highPriority
  rw [contextStep, contextResult, post_eq_push h.worker, queued_eq hrep, hresult, h.capacity]
  refine ⟨⟨?_, ?_, ?_⟩, dequePush_step msgType capacity ctx.queued msg highPriority⟩
  · rwa [queued_eq hrep]
  · rw [hframe]
    exact h.worker
  · exact (queueCapacity_push msgType ctx msg highPriority).trans h.capacity

theorem started_pop (h : Started capacity ctx) :
    Started capacity (contextStep msgType ctx .pop) ∧ ∃ gone,
      DequeStep msgType capacity ctx.queued .pop (contextStep msgType ctx .pop).queued
        (contextResult msgType ctx .pop) gone := by
  obtain ⟨hresult, hrep⟩ := pop_refines h.represents
  obtain ⟨_, _, hframe⟩ := pop_frame ctx
  rw [contextStep, contextResult, queued_eq hrep, hresult]
  refine ⟨⟨?_, ?_, ?_⟩, ?_⟩
  · rwa [queued_eq hrep]
  · rw [hframe]
    exact h.worker
  · rw [hframe]
    exact h.capacity
  · cases ctx.queued with
    | nil => exact ⟨[], .empty⟩
    | cons msg l => exact ⟨[], .pop⟩

/-- Every operation on the ring is a step of the deque. -/
theorem started_step (h : Started capacity ctx) (op : ContextOp μ) :
    Started capacity (contextStep msgType ctx op) ∧ ∃ gone,
      DequeStep msgType capacity ctx.queued op (contextStep msgType ctx op).queued
        (contextResult msgType ctx op) gone := by
  have hpos : 0 < capacity := h.capacity ▸ Nat.zero_lt_of_lt h.represents.holds.head_lt
  cases op with
  | post msg highPriority => exact started_post h msg highPriority
  | pop => exact started_pop h
  | bind connection =>
    exact ⟨started_reset hpos h.worker h.capacity (some connection) true, _, .bind⟩
  | close => exact ⟨started_reset hpos h.worker h.capacity none false, _, .close⟩

theorem started_run [Inhabited μ] (msgType : μ → Iec104MsgType) (hpos : 0 < capacity)
    (ops : List (ContextOp μ)) :
    Started capacity (Run.exec (contextStep msgType)
      (clientContextStart (clientContextInit capacity)) ops) ∧ ∃ lost,
      DequeRun msgType capacity
        (contextHistory msgType (clientContextStart (clientContextInit capacity)) ops)
        (Run.exec (contextStep msgType)
          (clientContextStart (clientContextInit capacity)) ops).queued lost := by
  induction ops using List.reverseRecOn with
  | nil => exact ⟨started_init hpos, [], .start⟩
  | append_singleton ops op ih =>
    obtain ⟨hstarted, lost, hrun⟩ := ih
    obtain ⟨hnext, gone, hstep⟩ := started_step hstarted op
    rw [Run.exec_append, contextHistory, Run.outputs_append]
    exact ⟨hnext, lost ++ gone, hrun.step hstep⟩

end WorkQueueLemmas

open WorkQueueLemmas

/-- The ring of a started client is a bounded deque: every run of posts, pops, binds and closes
is a run of the deque with the same results, and no message is lost but those that the deque
takes out. -/
theorem work_queue_refines_deque [Inhabited μ] (msgType : μ → Iec104MsgType) (capacity : Nat)
    (hpos : 0 < capacity) (ops : List (ContextOp μ)) :
    RefinesDeque msgType capacity
      (contextHistory msgType (clientContextStart (clientContextInit capacity)) ops)
      (Run.exec (contextStep msgType) (clientContextStart (clientContextInit capacity)) ops) := by
  obtain ⟨hstarted, lost, hrun⟩ := started_run msgType hpos ops
  have hrep := hstarted.represents
  refine ⟨hrep, ?_, ?_, lost, hrun, hrun.conserves⟩
  · exact hrep.holds.length_le.trans_eq hstarted.capacity
  · rw [hrep.tail, ← hrep.count, hstarted.capacity]
    rfl

/-- A run through a full ring: an upload is put in front, renewed, and popped. -/
def renewedUpload : List (ContextOp Iec104WorkMsg) :=
  [.bind 1, .post { type := .totalCall } false, .post { type := .activeUpload } true,
    .post { type := .activeUpload, uploadVersion := 7 } false, .post { type := .historyCall } true,
    .pop]

theorem upload_renewed_in_place :
    RefinesDeque Iec104WorkMsg.type 2
      (contextHistory Iec104WorkMsg.type (clientContextStart (clientContextInit 2)) renewedUpload)
      (Run.exec (contextStep Iec104WorkMsg.type) (clientContextStart (clientContextInit 2))
        renewedUpload) ∧
    (contextHistory Iec104WorkMsg.type (clientContextStart (clientContextInit 2))
      renewedUpload).flatMap poppedMsg = [{ type := .activeUpload, uploadVersion := 7 }] :=
  ⟨work_queue_refines_deque Iec104WorkMsg.type 2 (by decide) renewedUpload, rfl⟩

end Iec104Slave
