import Iec104Slave.ClientSlots
import Iec104Slave.CustomAsdu

/-!
# The request handlers of a connection

lib60870 passes an interrogation, a counter interrogation or any other request to a handler of
its own. Each handler looks for the slot of the connection and then answers the request,
posts a work message to the slot, or returns `false`; then lib60870 answers.

Results:
1. `disposed_asdu`: `asdu_handler` gives every request exactly one disposition.
2. `request_disposed_iff`: an interrogation or counter interrogation that gets as far as the
   queue is handled as specified exactly if the queue takes it and it is no deactivation.
-/

namespace Iec104Slave

/-! ## Requests and results -/

/-- What the getters of lib60870 return for an element of a command. -/
structure ReceivedElement where
  ioa : UInt32
  select : Bool
  state : UInt8
  value : ℚ
  qualifier : Int32
deriving DecidableEq

/-- A `CS101_ASDU` from the master. `element i` is `none` where `CS101_ASDU_getElement` returns
`NULL`. -/
structure ReceivedAsdu where
  typeId : UInt8
  cot : CauseOfTransmission
  ca : Int
  oa : UInt8
  numberOfElements : Nat
  element : Nat → Option ReceivedElement
  payload : List UInt8

/-- A request with its surroundings: the slots, whose rings are deques, and the number that
`next_request_id` gives. -/
structure Received (n : Nat) where
  commonAddress : Int
  connection : Nat
  clients : Fin n → ClientContext Iec104WorkMsg
  rings : ∀ i, (clients i).Represents (clients i).queued
  requestId : UInt64
  asdu : ReceivedAsdu

/-- The request sent back, with another cause and the negative bit. -/
structure Reply where
  cot : CauseOfTransmission
  negative : Bool
deriving DecidableEq

/-- The slots after a handler, its replies, and its return value. -/
structure HandlerResult (n : Nat) where
  clients : Fin n → ClientContext Iec104WorkMsg
  replies : List Reply
  handled : Bool

variable {n : Nat}

/-- `CS101_ASDU_setCOT`, `CS101_ASDU_setNegative` and `IMasterConnection_sendASDU`. -/
def Received.refuse (x : Received n) (cot : CauseOfTransmission) : HandlerResult n :=
  ⟨x.clients, [⟨cot, true⟩], true⟩

/-- `IMasterConnection_sendACT_CON` with the negative bit. -/
def Received.actConNegative (x : Received n) : HandlerResult n :=
  ⟨x.clients, [⟨.activationCon, true⟩], true⟩

/-! ## Interrogations -/

/-- `IEC60870_QOI_STATION`. -/
def qoiStation : UInt8 := 20

/-- The end of both interrogation handlers: the confirmation goes out before the post. -/
def Received.call (x : Received n) (slot : Fin n) (msg : Iec104WorkMsg) : HandlerResult n :=
  let posted := clientContextPost Iec104WorkMsg.type (x.clients slot) msg true
  { clients := Function.update x.clients slot posted.1
    replies := ⟨.activationCon, false⟩ :: if posted.2 then [] else [⟨.activationCon, true⟩]
    handled := true }

def interrogationHandler (x : Received n) (qoi : UInt8) : HandlerResult n :=
  if x.asdu.ca ≠ x.commonAddress then x.refuse .unknownCa
  else
    match getClientForConnection x.clients x.connection with
    | none => x.actConNegative
    | some slot =>
      if qoi ≠ qoiStation then x.actConNegative
      else
        x.call slot
          { type := .totalCall, qoi := qoi, oa := x.asdu.oa, requestId := x.requestId }

def counterInterrogationHandler (x : Received n) (qcc : UInt8) : HandlerResult n :=
  if x.asdu.ca ≠ x.commonAddress then x.refuse .unknownCa
  else
    match getClientForConnection x.clients x.connection with
    | none => x.actConNegative
    | some slot =>
      x.call slot
        { type := .counterCall, oa := x.asdu.oa, qcc := qcc, requestId := x.requestId }

/-! ## Commands and private calls -/

/-- The end of both branches of `asdu_handler`. -/
def Received.post (x : Received n) (slot : Fin n) (msg : Iec104WorkMsg) : HandlerResult n :=
  let posted := clientContextPost Iec104WorkMsg.type (x.clients slot) msg true
  { clients := Function.update x.clients slot posted.1, replies := [], handled := posted.2 }

def ReceivedElement.setpoint (e : ReceivedElement) : Iec104SetpointItem :=
  ⟨e.ioa, e.value, if e.select then 1 else 0, e.qualifier⟩

/-- The message of a single or double command. -/
def Received.controlMsg (x : Received n) : Except CauseOfTransmission Iec104WorkMsg :=
  match x.asdu.element 0 with
  | none => .error .unknownIoa
  | some e => .ok
      { type := .remoteControl
        typeId := x.asdu.typeId
        cot := x.asdu.cot
        oa := x.asdu.oa
        requestId := x.requestId
        ioa := e.ioa
        commandSelect := if e.select then 1 else 0
        commandState :=
          if x.asdu.typeId = C_SC_NA_1 then (if e.state ≠ 0 then 1 else 0) else e.state
        commandQualifier := e.qualifier }

/-- The message of a setpoint command: all elements select, or all execute. -/
def Received.adjustMsg (x : Received n) : Except CauseOfTransmission Iec104WorkMsg :=
  match (List.range x.asdu.numberOfElements).mapM x.asdu.element with
  | some (first :: rest) =>
    if rest.any fun e => e.setpoint.select != first.setpoint.select then .error .unknownCot
    else .ok
      { type := .remoteAdjust
        typeId := x.asdu.typeId
        cot := x.asdu.cot
        oa := x.asdu.oa
        requestId := x.requestId
        ioa := first.ioa
        commandSelect := first.setpoint.select
        commandQualifier := first.qualifier
        setpointValue := first.value
        setpoints := (first :: rest).map ReceivedElement.setpoint }
  | _ => .error .unknownIoa

def Received.command (x : Received n) (slot : Fin n) : HandlerResult n :=
  if x.asdu.cot ≠ .activation ∧ x.asdu.cot ≠ .deactivation then x.refuse .unknownCot
  else if x.asdu.numberOfElements = 0 ∨
      iec104MaxSetpointsPerAsdu < x.asdu.numberOfElements then x.refuse .unknownIoa
  else
    match if x.asdu.typeId = C_SC_NA_1 ∨ x.asdu.typeId = C_DC_NA_1 then x.controlMsg
      else x.adjustMsg with
    | .error cot => x.refuse cot
    | .ok msg => x.post slot msg

/-- The little-endian address at the start of a payload; a shorter payload has none. -/
def payloadIoa : List UInt8 → UInt32
  | a :: b :: c :: _ => a.toUInt32 ||| (b.toUInt32 <<< 8) ||| (c.toUInt32 <<< 16)
  | _ => 0

def Received.customMsg (x : Received n) : Iec104WorkMsg :=
  let isHistory := customAsduIsHistoryCallType x.asdu.typeId
  let withTimes := isHistory && decide (17 ≤ x.asdu.payload.length)
  { type := if isHistory then .historyCall else .customCall
    typeId := x.asdu.typeId
    cot := x.asdu.cot
    oa := x.asdu.oa
    requestId := x.requestId
    ioa := payloadIoa x.asdu.payload
    beginTime := if withTimes then (x.asdu.payload.drop 3).take 7 else []
    endTime := if withTimes then (x.asdu.payload.drop 10).take 7 else [] }

def Received.customCall (x : Received n) (slot : Fin n) : HandlerResult n :=
  if x.asdu.cot ≠ .activation then x.refuse .unknownCot else x.post slot x.customMsg

def asduHandler (x : Received n) : HandlerResult n :=
  if x.asdu.ca ≠ x.commonAddress then x.refuse .unknownCa
  else
    match getClientForConnection x.clients x.connection with
    | none => ⟨x.clients, [], false⟩
    | some slot =>
      if x.asdu.typeId ∈ [C_SC_NA_1, C_DC_NA_1, C_SE_NA_1, C_SE_NB_1, C_SE_NC_1] then
        x.command slot
      else if customAsduIsCallType x.asdu.typeId then x.customCall slot
      else if customAsduIsHistoryReturnType x.asdu.typeId then x.refuse .unknownTypeId
      else x.refuse .unknownTypeId

/-! ## Dispositions -/

/-- The handlers, with the qualifiers that lib60870 reads from the request. -/
inductive RequestHandler
  | interrogation (qoi : UInt8)
  | counterInterrogation (qcc : UInt8)
  | asdu

def RequestHandler.handle (x : Received n) : RequestHandler → HandlerResult n
  | .interrogation qoi => interrogationHandler x qoi
  | .counterInterrogation qcc => counterInterrogationHandler x qcc
  | .asdu => asduHandler x

/-- The negative replies, with that of lib60870 when the handler returns `false`. -/
def HandlerResult.negatives (result : HandlerResult n) : Nat :=
  (result.replies.filter Reply.negative).length + if result.handled then 0 else 1

def HandlerResult.actCons (result : HandlerResult n) : List Reply :=
  result.replies.filter fun reply => reply.cot == .activationCon

/-- A slot has one message more, at the front, and the other slots are as before. -/
def QueuesOne (before after : Fin n → ClientContext Iec104WorkMsg) : Prop :=
  ∃ i msg, (after i).queued = msg :: (before i).queued ∧ ∀ j, j ≠ i → after j = before j

/-- One message is queued, or there is one negative reply. -/
def DisposedOnce (x : Received n) (result : HandlerResult n) : Prop :=
  QueuesOne x.clients result.clients ∧ result.negatives = 0 ∨
    result.clients = x.clients ∧ result.negatives = 1

/-- What is expected of a handler. An interrogation of this station gets one confirmation, which
is positive iff the request is queued, and a deactivation is never queued. -/
structure Disposed (x : Received n) (handler : RequestHandler) : Prop where
  once : DisposedOnce x (handler.handle x)
  confirmed : handler ≠ .asdu → x.asdu.ca = x.commonAddress →
    ∃ negative, (handler.handle x).actCons = [⟨.activationCon, negative⟩] ∧
      (negative = false ↔ QueuesOne x.clients (handler.handle x).clients)
  deactivation : handler ≠ .asdu → x.asdu.cot = .deactivation →
    (handler.handle x).clients = x.clients

/-- The interrogation gets as far as the queue of the slot. -/
def RequestHandler.Calls (x : Received n) (slot : Fin n) : RequestHandler → Prop
  | .interrogation qoi => x.asdu.ca = x.commonAddress ∧
      getClientForConnection x.clients x.connection = some slot ∧ qoi = qoiStation
  | .counterInterrogation _ => x.asdu.ca = x.commonAddress ∧
      getClientForConnection x.clients x.connection = some slot
  | .asdu => False

/-- The worker of the slot runs, and its queue has room. -/
def HasRoom (ctx : ClientContext Iec104WorkMsg) : Prop :=
  ctx.workerThread = true ∧ ctx.queueCount < ctx.queueCapacity

namespace RequestHandlersLemmas

open ClientContextLemmas

variable {x : Received n}

theorem dequePush_front {μ : Type} {msgType : μ → Iec104MsgType} {capacity : Nat} {l : List μ}
    (hroom : l.length < capacity) (msg : μ) :
    dequePush msgType capacity l msg true = (msg :: l, true) := by
  simp [dequePush, dequeCut, hroom]

theorem post_room {ctx : ClientContext Iec104WorkMsg} (hring : ctx.Represents ctx.queued)
    (hroom : HasRoom ctx) (msg : Iec104WorkMsg) :
    (clientContextPost Iec104WorkMsg.type ctx msg true).2 = true ∧
      (clientContextPost Iec104WorkMsg.type ctx msg true).1.queued = msg :: ctx.queued := by
  obtain ⟨hworker, hcount⟩ := hroom
  obtain ⟨hresult, hrep⟩ := push_refines Iec104WorkMsg.type hring msg true
  rw [dequePush_front (hring.count ▸ hcount)] at hresult hrep
  rw [post_eq_push hworker]
  exact ⟨hresult, queued_eq hrep⟩

/-- Without room a request is refused: only an upload can take the place of another one. -/
theorem post_full {ctx : ClientContext Iec104WorkMsg} (hfull : ¬HasRoom ctx)
    {msg : Iec104WorkMsg} (htype : msg.type ≠ .activeUpload) :
    clientContextPost Iec104WorkMsg.type ctx msg true = (ctx, false) := by
  cases hworker : ctx.workerThread with
  | false =>
    rw [clientContextPost, hworker]
    rfl
  | true =>
    have hcount : ctx.queueCount ≥ ctx.queueCapacity := Nat.not_lt.mp fun h => hfull ⟨hworker, h⟩
    rw [post_eq_push hworker, queuePushLocked, if_pos hcount, if_neg htype]

theorem queuesOne_update (x : Received n) {slot : Fin n} {msg : Iec104WorkMsg}
    {ctx : ClientContext Iec104WorkMsg} (h : ctx.queued = msg :: (x.clients slot).queued) :
    QueuesOne x.clients (Function.update x.clients slot ctx) := by
  refine ⟨slot, msg, ?_, fun j hj => Function.update_of_ne hj _ _⟩
  rw [Function.update_self]
  exact h

theorem not_queuesOne_self (clients : Fin n → ClientContext Iec104WorkMsg) :
    ¬QueuesOne clients clients := by
  intro h
  obtain ⟨i, msg, hqueue, _⟩ := h
  simpa using congrArg List.length hqueue

theorem disposed_refuse (x : Received n) (cot : CauseOfTransmission) :
    DisposedOnce x (x.refuse cot) := .inr ⟨rfl, rfl⟩

theorem disposed_post (x : Received n) (slot : Fin n) {msg : Iec104WorkMsg}
    (htype : msg.type ≠ .activeUpload) : DisposedOnce x (x.post slot msg) := by
  unfold Received.post
  by_cases hroom : HasRoom (x.clients slot)
  · obtain ⟨hresult, hqueued⟩ := post_room (x.rings slot) hroom msg
    refine .inl ⟨queuesOne_update x hqueued, ?_⟩
    simp [HandlerResult.negatives, hresult]
  · rw [post_full hroom htype]
    exact .inr ⟨Function.update_eq_self _ _, rfl⟩

/-! ### Commands and private calls -/

theorem controlMsg_type {msg : Iec104WorkMsg} (h : x.controlMsg = .ok msg) :
    msg.type = .remoteControl := by
  unfold Received.controlMsg at h
  split at h
  · cases h
  · cases h
    rfl

theorem adjustMsg_type {msg : Iec104WorkMsg} (h : x.adjustMsg = .ok msg) :
    msg.type = .remoteAdjust := by
  unfold Received.adjustMsg at h
  split at h
  · split at h
    · cases h
    · cases h
      rfl
  · cases h

theorem disposed_command (x : Received n) (slot : Fin n) : DisposedOnce x (x.command slot) := by
  unfold Received.command
  split
  · exact disposed_refuse x _
  · split
    · exact disposed_refuse x _
    · split
      · exact disposed_refuse x _
      · next msg hmsg =>
        refine disposed_post x slot ?_
        split at hmsg
        · rw [controlMsg_type hmsg]
          decide
        · rw [adjustMsg_type hmsg]
          decide

theorem customMsg_type (x : Received n) : x.customMsg.type ≠ .activeUpload := by
  unfold Received.customMsg
  dsimp only
  split
  · decide
  · decide

theorem disposed_customCall (x : Received n) (slot : Fin n) :
    DisposedOnce x (x.customCall slot) := by
  unfold Received.customCall
  split
  · exact disposed_refuse x _
  · exact disposed_post x slot (customMsg_type x)

/-- Every exit of `asdu_handler` queues the request, answers it, or leaves it to lib60870. -/
theorem disposed_asdu (x : Received n) : DisposedOnce x (asduHandler x) := by
  unfold asduHandler
  split
  · exact disposed_refuse x _
  · split
    · exact .inr ⟨rfl, rfl⟩
    · split
      · exact disposed_command x _
      · split
        · exact disposed_customCall x _
        · split
          · exact disposed_refuse x _
          · exact disposed_refuse x _

/-! ### Interrogations -/

theorem call_room (x : Received n) (slot : Fin n) (hroom : HasRoom (x.clients slot))
    (msg : Iec104WorkMsg) : QueuesOne x.clients (x.call slot msg).clients ∧
      (x.call slot msg).replies = [⟨.activationCon, false⟩] := by
  obtain ⟨hresult, hqueued⟩ := post_room (x.rings slot) hroom msg
  refine ⟨queuesOne_update x hqueued, ?_⟩
  simp [Received.call, hresult]

theorem call_full (x : Received n) (slot : Fin n) (hfull : ¬HasRoom (x.clients slot))
    {msg : Iec104WorkMsg} (htype : msg.type ≠ .activeUpload) : x.call slot msg =
      ⟨x.clients, [⟨.activationCon, false⟩, ⟨.activationCon, true⟩], true⟩ := by
  unfold Received.call
  rw [post_full hfull htype]
  simp

/-- The results of both interrogation handlers. `calls` says for which slot the request gets as
far as the queue. -/
inductive CallOutcome (x : Received n) (calls : Fin n → Prop) : HandlerResult n → Prop
  | otherStation (hca : x.asdu.ca ≠ x.commonAddress) (hnot : ∀ slot, ¬calls slot) :
      CallOutcome x calls (x.refuse .unknownCa)
  | negative (hnot : ∀ slot, ¬calls slot) : CallOutcome x calls x.actConNegative
  | call {slot : Fin n} {msg : Iec104WorkMsg} (hcalls : ∀ other, calls other ↔ other = slot)
      (htype : msg.type ≠ .activeUpload) : CallOutcome x calls (x.call slot msg)

theorem interrogation_outcome (x : Received n) (qoi : UInt8) :
    CallOutcome x (fun slot => x.asdu.ca = x.commonAddress ∧
      getClientForConnection x.clients x.connection = some slot ∧ qoi = qoiStation)
      (interrogationHandler x qoi) := by
  unfold interrogationHandler
  split
  · next hca => exact .otherStation hca fun slot h => hca h.1
  · next hca =>
    split
    · next hnone =>
      refine .negative fun slot h => ?_
      rw [hnone] at h
      cases h.2.1
    · next slot hslot =>
      split
      · next hqoi => exact .negative fun slot h => hqoi h.2.2
      · next hqoi =>
        refine .call (fun other => ?_) Iec104MsgType.noConfusion
        rw [hslot, Option.some_inj]
        exact ⟨fun h => h.2.1.symm, fun h => ⟨not_not.mp hca, h.symm, not_not.mp hqoi⟩⟩

theorem counterInterrogation_outcome (x : Received n) (qcc : UInt8) :
    CallOutcome x (fun slot => x.asdu.ca = x.commonAddress ∧
      getClientForConnection x.clients x.connection = some slot)
      (counterInterrogationHandler x qcc) := by
  unfold counterInterrogationHandler
  split
  · next hca => exact .otherStation hca fun slot h => hca h.1
  · next hca =>
    split
    · next hnone =>
      refine .negative fun slot h => ?_
      rw [hnone] at h
      cases h.2
    · next slot hslot =>
      refine .call (fun other => ?_) Iec104MsgType.noConfusion
      rw [hslot, Option.some_inj]
      exact ⟨fun h => h.2.symm, fun h => ⟨not_not.mp hca, h.symm⟩⟩

/-- A request that does not get as far as the queue is answered once. -/
theorem disposed_of_reply {handler : RequestHandler} {cot : CauseOfTransmission}
    (hresult : handler.handle x = ⟨x.clients, [⟨cot, true⟩], true⟩)
    (hcot : x.asdu.ca = x.commonAddress → cot = .activationCon) : Disposed x handler where
  once := by
    rw [hresult]
    exact .inr ⟨rfl, rfl⟩
  confirmed := fun _ hca => by
    rw [hresult, hcot hca]
    exact ⟨true, rfl, iff_of_false (by decide) (not_queuesOne_self x.clients)⟩
  deactivation := fun _ _ => by rw [hresult]

theorem disposed_call_room {handler : RequestHandler} {slot : Fin n} {msg : Iec104WorkMsg}
    (hresult : handler.handle x = x.call slot msg) (hroom : HasRoom (x.clients slot))
    (hcot : x.asdu.cot ≠ .deactivation) : Disposed x handler := by
  obtain ⟨hqueues, hreplies⟩ := call_room x slot hroom msg
  rw [← hresult] at hqueues hreplies
  refine ⟨.inl ⟨hqueues, ?_⟩, fun _ _ => ⟨false, ?_, iff_of_true rfl hqueues⟩, fun _ h =>
    absurd h hcot⟩
  · rw [HandlerResult.negatives, hreplies, hresult]
    rfl
  · rw [HandlerResult.actCons, hreplies]
    rfl

theorem room_of_disposed {handler : RequestHandler} {slot : Fin n} {msg : Iec104WorkMsg}
    (h : Disposed x handler) (hresult : handler.handle x = x.call slot msg)
    (hhandler : handler ≠ .asdu) (hca : x.asdu.ca = x.commonAddress)
    (htype : msg.type ≠ .activeUpload) :
    HasRoom (x.clients slot) ∧ x.asdu.cot ≠ .deactivation := by
  have hroom : HasRoom (x.clients slot) := by
    by_contra hfull
    obtain ⟨negative, hactCons, _⟩ := h.confirmed hhandler hca
    rw [hresult, call_full x slot hfull htype] at hactCons
    simp [HandlerResult.actCons] at hactCons
  refine ⟨hroom, fun hcot => ?_⟩
  have hqueues := (call_room x slot hroom msg).1
  rw [← hresult, h.deactivation hhandler hcot] at hqueues
  exact not_queuesOne_self x.clients hqueues

theorem disposed_outcome_iff {handler : RequestHandler} {result : HandlerResult n}
    (hhandler : handler ≠ .asdu) (hresult : handler.handle x = result)
    (h : CallOutcome x (fun slot => handler.Calls x slot) result)
    (hstation : ∀ slot, handler.Calls x slot → x.asdu.ca = x.commonAddress) :
    Disposed x handler ↔ ∀ slot, handler.Calls x slot →
      HasRoom (x.clients slot) ∧ x.asdu.cot ≠ .deactivation := by
  cases h with
  | otherStation hca hnot =>
    refine iff_of_true (disposed_of_reply hresult fun h => absurd h hca) fun slot hslot => ?_
    exact absurd hslot (hnot slot)
  | negative hnot =>
    refine iff_of_true (disposed_of_reply hresult fun _ => rfl) fun slot hslot => ?_
    exact absurd hslot (hnot slot)
  | call hcalls htype =>
    constructor
    · intro h slot hslot
      cases (hcalls slot).mp hslot
      exact room_of_disposed h hresult hhandler (hstation _ hslot) htype
    · intro h
      obtain ⟨hroom, hcot⟩ := h _ ((hcalls _).mpr rfl)
      exact disposed_call_room hresult hroom hcot

end RequestHandlersLemmas

open RequestHandlersLemmas

/-- Every request gets its one disposition, unless it is an interrogation that gets as far as a
queue without room (it is confirmed twice), or a deactivation (it is queued). -/
theorem request_disposed_iff (x : Received n) (handler : RequestHandler) :
    Disposed x handler ↔ ∀ slot, handler.Calls x slot →
      HasRoom (x.clients slot) ∧ x.asdu.cot ≠ .deactivation := by
  cases handler with
  | interrogation qoi =>
    exact disposed_outcome_iff (by simp) rfl (interrogation_outcome x qoi) fun _ h => h.1
  | counterInterrogation qcc =>
    exact disposed_outcome_iff (by simp) rfl (counterInterrogation_outcome x qcc) fun _ h => h.1
  | asdu =>
    exact iff_of_true ⟨disposed_asdu x, fun h => absurd rfl h, fun h => absurd rfl h⟩
      fun _ h => h.elim

/-- A slot that is bound to connection 1 and has `count` general interrogations queued. -/
def callingSlot (count : Nat) : ClientContext Iec104WorkMsg where
  connection := some 1
  workerThread := true
  queue := List.replicate clientQueueCapacity {}
  queueHead := 0
  queueTail := count % clientQueueCapacity
  queueCount := count
  connected := true
  started := true
  lastSendTimeMs := 0
  lastUploadedVersion := 0

theorem callingSlot_represents {count : Nat} (h : count ≤ clientQueueCapacity) :
    (callingSlot count).Represents (List.replicate count {}) where
  holds :=
    { head_lt := by simp [callingSlot, clientQueueCapacity]
      length_le := by simpa [callingSlot] using h
      get := fun i msg hmsg => by
        obtain ⟨hi, rfl⟩ : i < count ∧ {} = msg := by simpa [List.getElem?_replicate] using hmsg
        have hslot : Ring.slot clientQueueCapacity 0 i < clientQueueCapacity :=
          Ring.slot_lt (by decide)
        simpa [callingSlot, List.getElem?_replicate] using hslot }
  count := by simp [callingSlot]
  tail := by simp [callingSlot, Ring.slot, ClientContext.queueCapacity]

/-- A general interrogation of this station, on connection 1. -/
def stationCall (cot : CauseOfTransmission) (count : Nat) (h : count ≤ clientQueueCapacity) :
    Received 1 where
  commonAddress := 1
  connection := 1
  clients := fun _ => callingSlot count
  rings := fun _ => by
    have hrep := callingSlot_represents h
    rwa [← ClientContextLemmas.queued_eq hrep] at hrep
  requestId := 1
  asdu :=
    { typeId := C_IC_NA_1, cot := cot, ca := 1, oa := 0, numberOfElements := 1
      element := fun _ => none, payload := [0, 0, 0, 20] }

/-- No room behind a full queue. -/
theorem callingSlot_full : ¬HasRoom (callingSlot clientQueueCapacity) := by
  simp [HasRoom, callingSlot, ClientContext.queueCapacity]

/-- A deactivation starts an interrogation, and with a full queue an interrogation is confirmed
positively and then negatively. -/
theorem deactivation_queued_and_confirmed_twice :
    (QueuesOne (stationCall .deactivation 0 (by decide)).clients
        (interrogationHandler (stationCall .deactivation 0 (by decide)) qoiStation).clients ∧
      ¬Disposed (stationCall .deactivation 0 (by decide)) (.interrogation qoiStation)) ∧
    (interrogationHandler (stationCall .activation clientQueueCapacity (Nat.le_refl _))
        qoiStation).replies = [⟨.activationCon, false⟩, ⟨.activationCon, true⟩] ∧
      ¬Disposed (stationCall .activation clientQueueCapacity (Nat.le_refl _))
        (.interrogation qoiStation) := by
  refine ⟨⟨?_, fun h => ?_⟩, ?_, fun h => ?_⟩
  · have hroom : HasRoom (callingSlot 0) := by
      simp [HasRoom, callingSlot, ClientContext.queueCapacity, clientQueueCapacity]
    exact (call_room (stationCall .deactivation 0 (by decide)) 0 hroom _).1
  · exact (room_of_disposed h rfl (by simp) rfl (by simp)).2 rfl
  · exact congrArg HandlerResult.replies
      (call_full (stationCall .activation clientQueueCapacity (Nat.le_refl _)) 0
        callingSlot_full (by simp))
  · exact callingSlot_full (room_of_disposed h rfl (by simp) rfl (by simp)).1

end Iec104Slave
