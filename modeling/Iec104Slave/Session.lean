import Iec104Slave.ClientContext

/-!
# Sessions of a client slot

A handler of the worker runs for many seconds and sends its answer frame by frame.
Meanwhile the connection threads may close the connection of the slot and bind
another one to it. The handlers are modelled as programs of three instructions:
read `client->connection` into a local variable, test `client_context_is_active`,
send a frame. Open and close events fall between any two of them.

lib60870 reuses connection objects, so what a frame reaches is the session that its
connection object serves at the time.

Results:
1. `supplied_code`: every handler fills its local `connection` before it uses it.
2. `answers_in_session_iff`: answers stay in the session of their request exactly
   when no connection is closed or opened at a point where the handler that is
   running would still send.
-/

namespace Iec104Slave

/-! ## Handlers as programs -/

/-- Where a frame goes: the local variable `connection` of a function (the functions
that call others are at depth 0), or `client->connection` when it is sent. -/
inductive SendTarget
  | captured (depth : Nat)
  | current
deriving DecidableEq

inductive Instr
  | capture (depth : Nat)
  | guard (skip : Nat)
  | send (target : SendTarget)
deriving DecidableEq

abbrev Code := List Instr

/-- `body` under `client_context_is_active(client)`. An early return has the rest of
its function as body, a loop condition the rest of its loop. -/
def ifActive (body : Code) : Code := .guard body.length :: body

/-- A loop that ends when the client is not active. An iteration sends a frame, or
passes over a point that is not in the requested range. -/
def sendLoop (target : SendTarget) : List Bool → Code
  | [] => []
  | frame :: rest =>
    ifActive ((if frame then [.send target] else []) ++ sendLoop target rest)

def sendFrames (target : SendTarget) (count : Nat) : Code :=
  sendLoop target (List.replicate count true)

/-- `send_custom_dynagram_ranges`. Here and below a snapshot that cannot be created is
`none`; otherwise the numbers of frames of the loops are given. -/
def sendCustomDynagramRanges : Option (List (List Bool)) → Code
  | none => []
  | some ranges => ranges.foldr (fun range rest =>
      ifActive (.capture 1 :: sendLoop (.captured 1) range ++ rest)) []

/-- `send_custom_yc_custom_word_range` and `send_custom_reserved_sensor`. -/
def sendCustomYcWordPoints : Option (List Bool) → Code
  | none => []
  | some points => .capture 1 :: sendLoop (.captured 1) points

/-- `send_custom_rtu_param` and `send_custom_sensor_param`. -/
def sendCustomParam (points : Option (List Bool)) : Code :=
  .capture 1 :: sendLoop (.captured 1) (points.getD [])

/-- The YX frames and the YC frames of every partition. -/
structure PointFrames where
  yx : Nat
  yc : List Nat

def sendPointFrames (depth : Nat) (frames : PointFrames) : Code :=
  sendFrames (.captured depth) frames.yx ++ frames.yc.flatMap (sendFrames (.captured depth))

structure TotalCallFrames where
  snapshot : Option PointFrames
  dynagram : Option (List Bool)
  elecDynagram : Option (List Bool)
  harmonic : Option (List Bool)
  dd : Option Nat

def sendTotalCall (frames : TotalCallFrames) : Code :=
  .capture 0 :: ifActive (match frames.snapshot with
    | none => []
    | some points =>
      sendPointFrames 0 points ++
      sendCustomDynagramRanges (frames.dynagram.map fun range => [range]) ++
      sendCustomDynagramRanges (frames.elecDynagram.map fun range => [range]) ++
      sendCustomYcWordPoints frames.harmonic ++
      sendFrames (.captured 0) (frames.dd.getD 0) ++
      ifActive [.send (.captured 0)])

def sendCounterCall : Option Nat → Code
  | none => .capture 0 :: ifActive []
  | some dd => .capture 0 :: ifActive (sendFrames (.captured 0) dd ++
      ifActive [.send (.captured 0)])

/-- `send_active_upload`: the YX, SOE and YC frames, or `none` when there is nothing newer
or no snapshot. -/
def sendActiveUpload : Option (Nat × Nat × Nat) → Code
  | none => .capture 0 :: ifActive []
  | some (yx, soe, yc) => .capture 0 :: ifActive (sendFrames (.captured 0) yx ++
      sendFrames (.captured 0) soe ++ sendFrames (.captured 0) yc)

/-- One class of `send_history_data_records`: the numbers of records of its pages. -/
def sendHistoryPages (pages : List Nat) : Code :=
  pages.foldr (fun count rest => ifActive (sendFrames .current count ++ rest)) []

/-- The branches of `handle_custom_call_work`. -/
inductive CustomService
  | historyEmpty
  | measureTotal (snapshot : Option PointFrames)
  | dynagramRanges (ranges : Option (List (List Bool)))
  | param (points : Option (List Bool))
  | wordPoints (points : Option (List Bool))
  | allDynagram (dynagram elecDynagram wellhead : Option (List Bool))
  | historyData (yx yc dd : List Nat)
  | historySoe (frames : Nat)
  | placeholder

def CustomService.code : CustomService → Code
  | .historyEmpty => []
  | .measureTotal snapshot =>
    .capture 1 :: (match snapshot with
      | none => []
      | some points => sendPointFrames 1 points)
  | .dynagramRanges ranges => sendCustomDynagramRanges ranges
  | .param points => sendCustomParam points
  | .wordPoints points => sendCustomYcWordPoints points
  | .allDynagram dynagram elecDynagram wellhead =>
    sendCustomDynagramRanges (dynagram.map fun range => [range]) ++
    sendCustomDynagramRanges (elecDynagram.map fun range => [range]) ++
    sendCustomYcWordPoints wellhead
  | .historyData yx yc dd => sendHistoryPages yx ++ sendHistoryPages yc ++ sendHistoryPages dd
  | .historySoe frames => sendFrames .current frames
  | .placeholder => [.send .current]

/-- `handle_custom_call_work`: acknowledge, data, finish; a history call that finds no
data only finishes. -/
def handleCustomCallWork : CustomService → Code
  | .historyEmpty => ifActive (ifActive [.send .current])
  | service => ifActive (.send .current :: service.code ++ ifActive [.send .current])

/-- What `client_work_handler` calls. The control and setpoint handlers send one
response, without a test. -/
inductive Work
  | totalCall (frames : TotalCallFrames)
  | counterCall (dd : Option Nat)
  | activeUpload (frames : Option (Nat × Nat × Nat))
  | remoteControl
  | remoteAdjust
  | customCall (service : CustomService)
  | historyCall (service : CustomService)

def Work.code : Work → Code
  | .totalCall frames => sendTotalCall frames
  | .counterCall dd => sendCounterCall dd
  | .activeUpload frames => sendActiveUpload frames
  | .remoteControl => [.send .current]
  | .remoteAdjust => [.send .current]
  | .customCall service => handleCustomCallWork service
  | .historyCall service => handleCustomCallWork service

/-- The message type that leads to the call. -/
def Work.msgType : Work → Iec104MsgType
  | .totalCall _ => .totalCall
  | .counterCall _ => .counterCall
  | .activeUpload _ => .activeUpload
  | .remoteControl => .remoteControl
  | .remoteAdjust => .remoteAdjust
  | .customCall _ => .customCall
  | .historyCall _ => .historyCall

/-! ## The slot -/

/-- A work message and the session on which its request was received. -/
structure Request where
  type : Iec104MsgType
  session : Nat
deriving DecidableEq, Inhabited

/-- A frame that was sent: the connection object, the session that object served at the
time, the session bound to the slot, and the session of the request. -/
structure SentFrame where
  connection : Option Nat
  served : Option Nat
  bound : Option Nat
  request : Nat
deriving DecidableEq

/-- The frame went to a connection, to the session of its request, and that session was
bound to the slot. -/
def SentFrame.InSession (frame : SentFrame) : Prop :=
  frame.connection.isSome = true ∧ frame.served = some frame.request ∧
    frame.bound = some frame.request

instance (frame : SentFrame) : Decidable frame.InSession :=
  inferInstanceAs (Decidable (_ ∧ _ ∧ _))

/-- A client slot, its worker (the request in hand, the local variables and the rest of
the handler) and the connection objects with the sessions they serve. -/
structure SlotState where
  ctx : ClientContext Request
  served : Nat → Option Nat
  nextSession : Nat
  request : Request
  locals : Nat → Option Nat
  code : Code
  sent : List SentFrame

/-- `CLIENT_QUEUE_CAPACITY`. -/
def clientQueueCapacity : Nat := 128

def SlotState.start : SlotState :=
  { ctx := clientContextStart (clientContextInit clientQueueCapacity)
    served := fun _ => none, nextSession := 0, request := default
    locals := fun _ => none, code := [], sent := [] }

/-- The session bound to the slot. -/
def SlotState.bound (s : SlotState) : Option Nat := s.ctx.connection.bind s.served

def SlotState.resolve (s : SlotState) : SendTarget → Option Nat
  | .captured depth => s.locals depth
  | .current => s.ctx.connection

inductive SlotEvent
  | opened (connection : Nat)
  | closed
  | posted (type : Iec104MsgType)
  | taken (work : Work)
  | stepped

/-- One instruction of the handler in hand. -/
def workerStep (s : SlotState) : SlotState :=
  match s.code with
  | [] => s
  | .capture depth :: rest =>
    { s with locals := Function.update s.locals depth s.ctx.connection, code := rest }
  | .guard skip :: rest =>
    { s with code := if clientContextIsActive s.ctx then rest else rest.drop skip }
  | .send target :: rest =>
    { s with
      code := rest
      sent := s.sent ++ [⟨s.resolve target, (s.resolve target).bind s.served, s.bound,
        s.request.session⟩] }

/-- The worker takes the front message, when the handler call fits its type. -/
def workerTake (s : SlotState) (work : Work) : SlotState :=
  match s.code, (queuePop s.ctx).2 with
  | [], some request =>
    if work.msgType = request.type then
      { s with
        ctx := (queuePop s.ctx).1, request := request, locals := fun _ => none
        code := work.code }
    else s
  | _, _ => s

/-- Only an active client gets posts: a request comes in on its connection, and
`post_active_upload_to_clients` tests it. Uploads are not of high priority. -/
def slotStep (s : SlotState) : SlotEvent → SlotState
  | .opened connection =>
    -- `get_free_client` takes a slot that is not connected
    if s.ctx.connected then s
    else
      { s with
        ctx := clientContextBindConnection s.ctx connection
        served := Function.update s.served connection (some s.nextSession)
        nextSession := s.nextSession + 1 }
  | .closed =>
    match s.ctx.connection with
    | none => s
    | some connection =>
      { s with
        ctx := clientContextCloseConnection s.ctx
        served := Function.update s.served connection none }
  | .posted type =>
    match s.bound with
    | none => s
    | some session =>
      { s with
        ctx := (clientContextPost Request.type s.ctx ⟨type, session⟩
          (type != .activeUpload)).1 }
  | .taken work => workerTake s work
  | .stepped => workerStep s

/-! ## When a handler still sends -/

/-- Whether the code sends a frame when the client stays active, or stays inactive,
from here on. The first `skip` instructions are passed over. -/
def sendsFrom (active : Bool) : Nat → Code → Bool
  | _, [] => false
  | skip + 1, _ :: rest => sendsFrom active skip rest
  | 0, .capture _ :: rest => sendsFrom active 0 rest
  | 0, .guard skip :: rest => sendsFrom active (if active then 0 else skip) rest
  | 0, .send _ :: _ => true

/-- A connection is closed only where the handler in hand would send nothing without
one, and opened only where it would send nothing with one. -/
def Undisturbed (s : SlotState) : SlotEvent → Prop
  | .opened _ => s.ctx.connected = false → sendsFrom true 0 s.code = false
  | .closed => s.ctx.connection.isSome = true → sendsFrom false 0 s.code = false
  | _ => True

/-- The local variables that the code reads before it fills them, when the client is
active, are all in `filled`. -/
def Supplied : (Nat → Prop) → Code → Prop
  | _, [] => True
  | filled, .capture depth :: rest => Supplied (fun d => d = depth ∨ filled d) rest
  | filled, .guard _ :: rest => Supplied filled rest
  | filled, .send (.captured depth) :: rest => filled depth ∧ Supplied filled rest
  | filled, .send .current :: rest => Supplied filled rest

namespace SessionLemmas

open ClientContextLemmas

section Supplied

variable {filled filled' : Nat → Prop} {c c' : Code}

theorem supplied_mono (h : ∀ d, filled d → filled' d) (hc : Supplied filled c) :
    Supplied filled' c := by
  induction c generalizing filled filled' with
  | nil => trivial
  | cons instr rest ih =>
    cases instr with
    | capture depth => exact ih (fun d hd => hd.imp_right (h d)) hc
    | guard skip => exact ih h hc
    | send target =>
      cases target with
      | captured depth => exact ⟨h depth hc.1, ih h hc.2⟩
      | current => exact ih h hc

theorem supplied_append (hc : Supplied filled c) (hc' : Supplied filled c') :
    Supplied filled (c ++ c') := by
  induction c generalizing filled with
  | nil => exact hc'
  | cons instr rest ih =>
    cases instr with
    | capture depth => exact ih hc (supplied_mono (fun d hd => .inr hd) hc')
    | guard skip => exact ih hc hc'
    | send target =>
      cases target with
      | captured depth => exact ⟨hc.1, ih hc.2 hc'⟩
      | current => exact ih hc hc'

theorem supplied_captured {depth : Nat} (h : filled depth) :
    Supplied filled [.send (.captured depth)] := ⟨h, trivial⟩

theorem supplied_current : Supplied filled [.send .current] := trivial

theorem supplied_sendLoop {target : SendTarget} (h : Supplied filled [.send target])
    (frames : List Bool) : Supplied filled (sendLoop target frames) := by
  induction frames with
  | nil => trivial
  | cons frame rest ih =>
    cases frame with
    | true => exact supplied_append h ih
    | false => exact ih

theorem supplied_sendFrames {target : SendTarget} (h : Supplied filled [.send target])
    (count : Nat) : Supplied filled (sendFrames target count) :=
  supplied_sendLoop h _

theorem supplied_dynagramRanges (ranges : Option (List (List Bool))) :
    Supplied filled (sendCustomDynagramRanges ranges) := by
  cases ranges with
  | none => trivial
  | some ranges =>
    induction ranges with
    | nil => trivial
    | cons range ranges ih =>
      exact supplied_append (c := .capture 1 :: sendLoop (.captured 1) range)
        (supplied_sendLoop (supplied_captured (.inl rfl)) range) ih

theorem supplied_ycWordPoints (points : Option (List Bool)) :
    Supplied filled (sendCustomYcWordPoints points) := by
  cases points with
  | none => trivial
  | some points => exact supplied_sendLoop (supplied_captured (.inl rfl)) points

theorem supplied_pointFrames {depth : Nat} (h : filled depth) (frames : PointFrames) :
    Supplied filled (sendPointFrames depth frames) := by
  refine supplied_append (supplied_sendFrames (supplied_captured h) _) ?_
  induction frames.yc with
  | nil => trivial
  | cons count counts ih =>
    exact supplied_append (supplied_sendFrames (supplied_captured h) count) ih

theorem supplied_historyPages (pages : List Nat) : Supplied filled (sendHistoryPages pages) := by
  induction pages with
  | nil => trivial
  | cons count pages ih =>
    exact supplied_append (c := sendFrames .current count)
      (supplied_sendFrames supplied_current count) ih

theorem supplied_customService (service : CustomService) : Supplied filled service.code := by
  cases service with
  | historyEmpty => trivial
  | measureTotal snapshot =>
    cases snapshot with
    | none => trivial
    | some points => exact supplied_pointFrames (.inl rfl) points
  | dynagramRanges ranges => exact supplied_dynagramRanges ranges
  | param points => exact supplied_sendLoop (supplied_captured (.inl rfl)) _
  | wordPoints points => exact supplied_ycWordPoints points
  | allDynagram dynagram elecDynagram wellhead =>
    exact supplied_append (supplied_append (supplied_dynagramRanges _)
      (supplied_dynagramRanges _)) (supplied_ycWordPoints _)
  | historyData yx yc dd =>
    exact supplied_append (supplied_append (supplied_historyPages yx) (supplied_historyPages yc))
      (supplied_historyPages dd)
  | historySoe frames => exact supplied_sendFrames supplied_current frames
  | placeholder => trivial

theorem supplied_customCall (service : CustomService) :
    Supplied filled (handleCustomCallWork service) := by
  have hdata : Supplied filled (service.code ++ ifActive [.send .current]) :=
    supplied_append (supplied_customService service) trivial
  cases service with
  | historyEmpty => trivial
  | _ => exact hdata

theorem supplied_totalCall (frames : TotalCallFrames) :
    Supplied filled (sendTotalCall frames) := by
  unfold sendTotalCall
  show Supplied (fun d => d = 0 ∨ filled d) _
  cases frames.snapshot with
  | none => trivial
  | some points =>
    refine supplied_append ?_ ⟨.inl rfl, trivial⟩
    refine supplied_append ?_ (supplied_sendFrames (supplied_captured (.inl rfl)) _)
    refine supplied_append ?_ (supplied_ycWordPoints _)
    refine supplied_append ?_ (supplied_dynagramRanges _)
    exact supplied_append (supplied_pointFrames (.inl rfl) points) (supplied_dynagramRanges _)

/-- Every handler fills the local variables that it sends to. -/
theorem supplied_code (work : Work) : Supplied filled work.code := by
  cases work with
  | totalCall frames => exact supplied_totalCall frames
  | counterCall dd =>
    cases dd with
    | none => trivial
    | some dd =>
      exact supplied_append (c := sendFrames (.captured 0) dd)
        (supplied_sendFrames (supplied_captured (.inl rfl)) dd) ⟨.inl rfl, trivial⟩
  | activeUpload frames =>
    cases frames with
    | none => trivial
    | some frames =>
      have hsend : Supplied (fun d => d = 0 ∨ filled d) [.send (.captured 0)] :=
        supplied_captured (.inl rfl)
      exact supplied_append (supplied_append (supplied_sendFrames hsend frames.1)
        (supplied_sendFrames hsend frames.2.1)) (supplied_sendFrames hsend frames.2.2)
  | remoteControl => trivial
  | remoteAdjust => trivial
  | customCall service => exact supplied_customCall service
  | historyCall service => exact supplied_customCall service

end Supplied

section Sends

variable {active : Bool} {c : Code}

theorem sendsFrom_drop (skip : Nat) (c : Code) :
    sendsFrom active skip c = sendsFrom active 0 (c.drop skip) := by
  induction c generalizing skip with
  | nil =>
    rw [List.drop_nil]
    rfl
  | cons instr rest ih =>
    cases skip with
    | zero => rfl
    | succ skip => exact ih skip

/-- Code that sends nothing to an active client has no send in it. -/
theorem sendsFrom_skip (h : sendsFrom true 0 c = false) (skip : Nat) :
    sendsFrom active skip c = false := by
  induction c generalizing skip with
  | nil => rfl
  | cons instr rest ih =>
    have hrest : sendsFrom true 0 rest = false := by
      cases instr with
      | capture depth => exact h
      | guard n => exact h
      | send target => cases h
    cases skip with
    | succ skip => exact ih hrest skip
    | zero =>
      cases instr with
      | capture depth => exact ih hrest 0
      | guard n => exact ih hrest _
      | send target => cases h

end Sends

section Worker

variable {s : SlotState}

@[simp] theorem workerStep_ctx (s : SlotState) : (workerStep s).ctx = s.ctx := by
  unfold workerStep
  split <;> rfl

@[simp] theorem workerStep_served (s : SlotState) : (workerStep s).served = s.served := by
  unfold workerStep
  split <;> rfl

@[simp] theorem workerStep_nextSession (s : SlotState) :
    (workerStep s).nextSession = s.nextSession := by
  unfold workerStep
  split <;> rfl

@[simp] theorem workerStep_request (s : SlotState) : (workerStep s).request = s.request := by
  unfold workerStep
  split <;> rfl

theorem workerStep_nil (h : s.code = []) : workerStep s = s := by
  unfold workerStep
  rw [h]

theorem workerStep_capture {depth : Nat} {rest : Code} (h : s.code = .capture depth :: rest) :
    workerStep s =
      { s with locals := Function.update s.locals depth s.ctx.connection, code := rest } := by
  unfold workerStep
  rw [h]

theorem workerStep_send {target : SendTarget} {rest : Code} (h : s.code = .send target :: rest) :
    workerStep s =
      { s with
        code := rest
        sent := s.sent ++ [⟨s.resolve target, (s.resolve target).bind s.served, s.bound,
          s.request.session⟩] } := by
  unfold workerStep
  rw [h]

theorem workerStep_guard {skip : Nat} {rest : Code} (h : s.code = .guard skip :: rest) :
    workerStep s =
      { s with code := rest.drop (if clientContextIsActive s.ctx then 0 else skip) } := by
  unfold workerStep
  rw [h]
  cases clientContextIsActive s.ctx with
  | true => rfl
  | false => rfl

theorem workerStep_code (s : SlotState) : ∃ n, (workerStep s).code = s.code.drop n := by
  cases hc : s.code with
  | nil => exact ⟨0, by rw [workerStep_nil hc, hc]; rfl⟩
  | cons instr rest =>
    cases instr with
    | capture depth => exact ⟨1, by rw [workerStep_capture hc]; rfl⟩
    | guard skip => exact ⟨_ + 1, by rw [workerStep_guard hc, List.drop_succ_cons]⟩
    | send target => exact ⟨1, by rw [workerStep_send hc]; rfl⟩

/-- A handler that still sends, in the state of the connection as it is, sends when it
runs on. -/
theorem exists_sent (h : sendsFrom (clientContextIsActive s.ctx) 0 s.code = true) :
    ∃ k, ∃ frame ∈ (Run.exec slotStep s (List.replicate k .stepped)).sent,
      frame.bound = s.bound ∧ frame.request = s.request.session := by
  -- the code may lose several instructions in a step, so the induction is on its length
  induction hn : s.code.length using Nat.strong_induction_on generalizing s with
  | _ n ih =>
    have hnext : (workerStep s).code.length < n →
        sendsFrom (clientContextIsActive s.ctx) 0 (workerStep s).code = true →
        ∃ k, ∃ frame ∈ (Run.exec slotStep s (List.replicate k .stepped)).sent,
          frame.bound = s.bound ∧ frame.request = s.request.session := by
      intro hlt hsends
      obtain ⟨k, frame, hframe, hbound, hreq⟩ :=
        ih _ hlt (s := workerStep s) (by rwa [workerStep_ctx]) rfl
      refine ⟨k + 1, frame, hframe, ?_, ?_⟩
      · rw [hbound, SlotState.bound, SlotState.bound, workerStep_ctx, workerStep_served]
      · rw [hreq, workerStep_request]
    cases hc : s.code with
    | nil => rw [hc] at h; cases h
    | cons instr rest =>
      rw [hc] at h hn
      have hlt : rest.length < n := hn ▸ Nat.lt_succ_self _
      cases instr with
      | capture depth =>
        rw [workerStep_capture hc] at hnext
        exact hnext hlt h
      | guard skip =>
        rw [workerStep_guard hc] at hnext
        refine hnext ?_ ?_
        · rw [List.length_drop]
          exact Nat.lt_of_le_of_lt (Nat.sub_le _ _) hlt
        · rw [← sendsFrom_drop]
          exact h
      | send target =>
        refine ⟨1, ⟨s.resolve target, (s.resolve target).bind s.served, s.bound,
          s.request.session⟩, ?_, rfl, rfl⟩
        show _ ∈ (workerStep s).sent
        rw [workerStep_send hc]
        exact List.mem_append_right _ (List.mem_singleton.mpr rfl)

end Worker

end SessionLemmas

/-! ## Invariants -/

/-- What holds in every run: the queue has requests of the bound session only, and
session numbers are fresh. -/
structure SlotInv (s : SlotState) : Prop where
  represents : s.ctx.Represents s.ctx.queued
  worker : s.ctx.workerThread = true
  connected : s.ctx.connected = s.ctx.connection.isSome
  queued : ∀ m ∈ s.ctx.queued, s.bound = some m.session
  bound_lt : ∀ session, s.bound = some session → session < s.nextSession
  bound_some : s.ctx.connection.isSome = true → s.bound.isSome = true
  request_lt : s.code ≠ [] → s.request.session < s.nextSession

/-- The rest of the handler can do no harm: it sends nothing, or there is no connection
and it sends nothing without one, or the session of the request is bound and the
local variables that it uses hold its connection. -/
def Contained (s : SlotState) : Prop :=
  sendsFrom true 0 s.code = false ∨
  (s.ctx.connection = none ∧ sendsFrom false 0 s.code = false) ∨
  ∃ connection, s.ctx.connection = some connection ∧
    s.served connection = some s.request.session ∧
    Supplied (fun depth => s.locals depth = some connection) s.code

namespace SessionLemmas

open ClientContextLemmas

variable {s : SlotState}

theorem slotStep_opened (h : s.ctx.connected = false) (connection : Nat) :
    slotStep s (.opened connection) = { s with
      ctx := clientContextBindConnection s.ctx connection
      served := Function.update s.served connection (some s.nextSession)
      nextSession := s.nextSession + 1 } := by
  show (if s.ctx.connected = true then s else _) = _
  rw [h]
  rfl

theorem slotStep_opened_busy (h : s.ctx.connected = true) (connection : Nat) :
    slotStep s (.opened connection) = s := by
  show (if s.ctx.connected = true then s else _) = _
  rw [if_pos h]

theorem slotStep_closed {connection : Nat} (h : s.ctx.connection = some connection) :
    slotStep s .closed = { s with
      ctx := clientContextCloseConnection s.ctx
      served := Function.update s.served connection none } := by
  unfold slotStep
  rw [h]

theorem slotStep_closed_free (h : s.ctx.connection = none) : slotStep s .closed = s := by
  unfold slotStep
  rw [h]

theorem slotStep_posted {session : Nat} (hworker : s.ctx.workerThread = true)
    (h : s.bound = some session) (type : Iec104MsgType) :
    slotStep s (.posted type) = { s with
      ctx := (queuePushLocked Request.type s.ctx ⟨type, session⟩ (type != .activeUpload)).1 } := by
  unfold slotStep
  rw [h, ← post_eq_push hworker]

theorem slotStep_posted_free (h : s.bound = none) (type : Iec104MsgType) :
    slotStep s (.posted type) = s := by
  unfold slotStep
  rw [h]

theorem queued_reset (h : SlotInv s) (connection : Option Nat) (connected : Bool) :
    (s.ctx.reset connection connected).Represents [] :=
  represents_reset (Nat.lt_of_le_of_lt (Nat.zero_le _) h.represents.holds.head_lt) _ _

theorem slotInv_opened (h : SlotInv s) (connection : Nat) :
    SlotInv (slotStep s (.opened connection)) := by
  cases hfree : s.ctx.connected with
  | true =>
    rw [slotStep_opened_busy hfree]
    exact h
  | false =>
    rw [slotStep_opened hfree]
    have hempty := queued_reset h (some connection) true
    have hbound : ((some connection).bind
        (Function.update s.served connection (some s.nextSession))) = some s.nextSession :=
      Function.update_self ..
    refine ⟨?_, h.worker, rfl, ?_, ?_, ?_, fun hc => Nat.lt_succ_of_lt (h.request_lt hc)⟩
    · show (s.ctx.reset _ _).Represents (s.ctx.reset _ _).queued
      rwa [queued_eq hempty]
    · intro m hm
      have hm' : m ∈ (s.ctx.reset (some connection) true).queued := hm
      rw [queued_eq hempty] at hm'
      cases hm'
    · intro session hs
      cases hbound.symm.trans hs
      exact Nat.lt_succ_self _
    · intro _
      exact congrArg Option.isSome hbound

theorem slotInv_closed (h : SlotInv s) : SlotInv (slotStep s .closed) := by
  cases hconn : s.ctx.connection with
  | none =>
    rw [slotStep_closed_free hconn]
    exact h
  | some connection =>
    rw [slotStep_closed hconn]
    have hempty := queued_reset h none false
    refine ⟨?_, h.worker, rfl, ?_, fun _ hs => (nomatch hs), fun hc => (nomatch hc), h.request_lt⟩
    · show (s.ctx.reset _ _).Represents (s.ctx.reset _ _).queued
      rwa [queued_eq hempty]
    · intro m hm
      have hm' : m ∈ (s.ctx.reset none false).queued := hm
      rw [queued_eq hempty] at hm'
      cases hm'

theorem slotInv_posted (h : SlotInv s) (type : Iec104MsgType) :
    SlotInv (slotStep s (.posted type)) := by
  cases hb : s.bound with
  | none =>
    rw [slotStep_posted_free hb]
    exact h
  | some session =>
    rw [slotStep_posted h.worker hb]
    have hrep := (push_refines Request.type h.represents ⟨type, session⟩
      (type != .activeUpload)).2
    have hmem : ∀ m ∈ (queuePushLocked Request.type s.ctx ⟨type, session⟩
        (type != .activeUpload)).1.queued, s.bound = some m.session := by
      intro m hm
      rw [queued_eq hrep] at hm
      rcases mem_dequePush hm with hm | rfl
      · exact h.queued m hm
      · exact hb
    rw [← queued_eq hrep] at hrep
    obtain ⟨queue, head, tail, count, hframe⟩ :=
      push_frame Request.type s.ctx ⟨type, session⟩ (type != .activeUpload)
    rw [hframe] at hrep hmem ⊢
    exact ⟨hrep, h.worker, h.connected, hmem, h.bound_lt, h.bound_some, h.request_lt⟩

theorem workerTake_cases (s : SlotState) (work : Work) :
    workerTake s work = s ∨
      s.code = [] ∧ ∃ request, (queuePop s.ctx).2 = some request ∧
        workerTake s work =
          { s with
            ctx := (queuePop s.ctx).1, request := request, locals := fun _ => none
            code := work.code } := by
  unfold workerTake
  split
  · next request hcode hpop =>
    split
    · exact .inr ⟨hcode, request, hpop, rfl⟩
    · exact .inl rfl
  · exact .inl rfl

/-- The message that the worker takes was received on the bound session. -/
theorem popped_bound (h : SlotInv s) {request : Request}
    (hpop : (queuePop s.ctx).2 = some request) : s.bound = some request.session := by
  rw [(pop_refines h.represents).1] at hpop
  exact h.queued request (List.mem_of_mem_head? hpop)

theorem slotInv_taken (h : SlotInv s) (work : Work) : SlotInv (slotStep s (.taken work)) := by
  show SlotInv (workerTake s work)
  rcases workerTake_cases s work with heq | ⟨_, request, hpop, heq⟩
  · rw [heq]
    exact h
  · rw [heq]
    have hrep := (pop_refines h.represents).2
    have hmem : ∀ m ∈ (queuePop s.ctx).1.queued, s.bound = some m.session := by
      intro m hm
      rw [queued_eq hrep] at hm
      exact h.queued m (List.mem_of_mem_tail hm)
    rw [← queued_eq hrep] at hrep
    have hlt := h.bound_lt _ (popped_bound h hpop)
    obtain ⟨head, count, hframe⟩ := pop_frame s.ctx
    rw [hframe] at hrep hmem ⊢
    exact ⟨hrep, h.worker, h.connected, hmem, h.bound_lt, h.bound_some, fun _ => hlt⟩

theorem slotInv_stepped (h : SlotInv s) : SlotInv (slotStep s .stepped) := by
  have hbound : (workerStep s).bound = s.bound := by
    rw [SlotState.bound, SlotState.bound, workerStep_ctx, workerStep_served]
  show SlotInv (workerStep s)
  refine ⟨?_, ?_, ?_, ?_, ?_, ?_, ?_⟩
  · rw [workerStep_ctx]; exact h.represents
  · rw [workerStep_ctx]; exact h.worker
  · rw [workerStep_ctx]; exact h.connected
  · rw [workerStep_ctx, hbound]; exact h.queued
  · rw [workerStep_nextSession, hbound]; exact h.bound_lt
  · rw [workerStep_ctx, hbound]; exact h.bound_some
  · intro hcode
    rw [workerStep_request, workerStep_nextSession]
    refine h.request_lt fun hnil => hcode ?_
    rwa [workerStep_nil hnil]

theorem slotInv_step (h : SlotInv s) (event : SlotEvent) : SlotInv (slotStep s event) := by
  cases event with
  | opened connection => exact slotInv_opened h connection
  | closed => exact slotInv_closed h
  | posted type => exact slotInv_posted h type
  | taken work => exact slotInv_taken h work
  | stepped => exact slotInv_stepped h

theorem slotInv_start : SlotInv SlotState.start := by
  have hlen : SlotState.start.ctx.queueCapacity = clientQueueCapacity := List.length_replicate
  have hpos : 0 < SlotState.start.ctx.queueCapacity := hlen ▸ Nat.succ_pos _
  have hempty : SlotState.start.ctx.Represents [] := represents_reset hpos none false
  have hqueued := queued_eq hempty
  refine ⟨?_, rfl, rfl, ?_, fun _ hs => (nomatch hs), fun hc => (nomatch hc), fun hc => ?_⟩
  · rwa [hqueued]
  · intro m hm
    rw [hqueued] at hm
    cases hm
  · exact absurd rfl hc

theorem slotInv_exec (events : List SlotEvent) :
    SlotInv (Run.exec slotStep SlotState.start events) :=
  Run.exec_induction (I := fun _ => SlotInv) slotInv_start
    (fun _ _ event h => slotInv_step h event) events

theorem isActive_eq (h : SlotInv s) :
    clientContextIsActive s.ctx = s.ctx.connection.isSome := by
  rw [clientContextIsActive, h.connected, Bool.and_self]

/-- Code that cannot send in the present state of the connection does not send. -/
theorem workerStep_silent (h : sendsFrom (clientContextIsActive s.ctx) 0 s.code = false) :
    (workerStep s).sent = s.sent ∧
      sendsFrom (clientContextIsActive s.ctx) 0 (workerStep s).code = false := by
  cases hc : s.code with
  | nil =>
    rw [workerStep_nil hc]
    exact ⟨rfl, h⟩
  | cons instr rest =>
    rw [hc] at h
    cases instr with
    | capture depth =>
      rw [workerStep_capture hc]
      exact ⟨rfl, h⟩
    | guard skip =>
      rw [workerStep_guard hc]
      refine ⟨rfl, ?_⟩
      rw [← sendsFrom_drop]
      exact h
    | send target => cases h

/-- While the session of the request is bound, its handler sends to it. -/
theorem workerStep_bound (hinv : SlotInv s) {connection : Nat}
    (hconn : s.ctx.connection = some connection)
    (hserved : s.served connection = some s.request.session)
    (hsup : Supplied (fun depth => s.locals depth = some connection) s.code)
    (hsent : ∀ frame ∈ s.sent, frame.InSession) :
    Supplied (fun depth => (workerStep s).locals depth = some connection) (workerStep s).code ∧
      ∀ frame ∈ (workerStep s).sent, frame.InSession := by
  have hbound : s.bound = some s.request.session := by
    rw [SlotState.bound, hconn]
    exact hserved
  cases hc : s.code with
  | nil =>
    rw [workerStep_nil hc]
    exact ⟨hsup, hsent⟩
  | cons instr rest =>
    rw [hc] at hsup
    cases instr with
    | capture depth =>
      rw [workerStep_capture hc]
      refine ⟨supplied_mono (fun d hd => ?_) hsup, hsent⟩
      show Function.update s.locals depth s.ctx.connection d = some connection
      rw [hconn]
      by_cases hd' : d = depth
      · rw [hd', Function.update_self]
      · rw [Function.update_of_ne hd']
        exact hd.resolve_left hd'
    | guard skip =>
      have hactive : clientContextIsActive s.ctx = true := by rw [isActive_eq hinv, hconn]; rfl
      rw [workerStep_guard hc, hactive]
      exact ⟨hsup, hsent⟩
    | send target =>
      rw [workerStep_send hc]
      have hresolve : s.resolve target = some connection := by
        cases target with
        | captured depth => exact hsup.1
        | current => exact hconn
      refine ⟨?_, fun frame hframe => ?_⟩
      · cases target with
        | captured depth => exact hsup.2
        | current => exact hsup
      · rcases List.mem_append.mp hframe with hframe | hframe
        · exact hsent frame hframe
        · rw [List.mem_singleton.mp hframe, hresolve]
          exact ⟨rfl, hserved, hbound⟩

theorem contained_stepped (hinv : SlotInv s) (h : Contained s)
    (hsent : ∀ frame ∈ s.sent, frame.InSession) :
    Contained (workerStep s) ∧ ∀ frame ∈ (workerStep s).sent, frame.InSession := by
  -- the handler sends no more, or sends nothing without a connection, or has its session
  rcases h with hnone | ⟨hconn, hquiet⟩ | ⟨connection, hconn, hserved, hsup⟩
  · obtain ⟨n, hcode⟩ := workerStep_code s
    rw [(workerStep_silent (sendsFrom_skip hnone 0)).1]
    refine ⟨.inl ?_, hsent⟩
    rw [hcode, ← sendsFrom_drop]
    exact sendsFrom_skip hnone n
  · have hactive : clientContextIsActive s.ctx = false := by rw [isActive_eq hinv, hconn]; rfl
    obtain ⟨hs, hc⟩ := workerStep_silent (by rwa [hactive])
    rw [hs]
    refine ⟨.inr (.inl ⟨by rwa [workerStep_ctx], ?_⟩), hsent⟩
    rwa [hactive] at hc
  · obtain ⟨hsup', hsent'⟩ := workerStep_bound hinv hconn hserved hsup hsent
    refine ⟨.inr (.inr ⟨connection, ?_, ?_, hsup'⟩), hsent'⟩
    · rwa [workerStep_ctx]
    · rwa [workerStep_served, workerStep_request]

theorem contained_taken (hinv : SlotInv s) (h : Contained s) (work : Work) :
    Contained (workerTake s work) ∧ (workerTake s work).sent = s.sent := by
  rcases workerTake_cases s work with heq | ⟨_, request, hpop, heq⟩
  · rw [heq]
    exact ⟨h, rfl⟩
  · rw [heq]
    refine ⟨.inr (.inr ?_), rfl⟩
    obtain ⟨connection, hconn, hserved⟩ := Option.bind_eq_some_iff.mp (popped_bound hinv hpop)
    obtain ⟨head, count, hframe⟩ := pop_frame s.ctx
    refine ⟨connection, ?_, hserved, supplied_code work⟩
    rw [hframe]
    exact hconn

/-- One event keeps the handler contained and the frames in their sessions. -/
theorem contained_step (hinv : SlotInv s) {event : SlotEvent} (hok : Undisturbed s event)
    (h : Contained s) (hsent : ∀ frame ∈ s.sent, frame.InSession) :
    Contained (slotStep s event) ∧ ∀ frame ∈ (slotStep s event).sent, frame.InSession := by
  cases event with
  | opened connection =>
    cases hfree : s.ctx.connected with
    | true =>
      rw [slotStep_opened_busy hfree]
      exact ⟨h, hsent⟩
    | false =>
      rw [slotStep_opened hfree]
      exact ⟨.inl (hok hfree), hsent⟩
  | closed =>
    cases hconn : s.ctx.connection with
    | none =>
      rw [slotStep_closed_free hconn]
      exact ⟨h, hsent⟩
    | some connection =>
      have hquiet := hok (by rw [hconn]; rfl)
      rw [slotStep_closed hconn]
      exact ⟨.inr (.inl ⟨rfl, hquiet⟩), hsent⟩
  | posted type =>
    cases hb : s.bound with
    | none =>
      rw [slotStep_posted_free hb]
      exact ⟨h, hsent⟩
    | some session =>
      obtain ⟨queue, head, tail, count, hframe⟩ :=
        push_frame Request.type s.ctx ⟨type, session⟩ (type != .activeUpload)
      rw [slotStep_posted hinv.worker hb, hframe]
      exact ⟨h, hsent⟩
  | taken work =>
    obtain ⟨hcont, hs⟩ := contained_taken hinv h work
    refine ⟨hcont, ?_⟩
    show ∀ frame ∈ (workerTake s work).sent, _
    rwa [hs]
  | stepped => exact contained_stepped hinv h hsent

/-- Where an event disturbs the handler, the handler goes on to send a frame that is not
in its session. -/
theorem leak_of_disturbed (hinv : SlotInv s) {event : SlotEvent}
    (hbad : ¬ Undisturbed s event) :
    ∃ k, ∃ frame ∈ (Run.exec slotStep (slotStep s event) (List.replicate k .stepped)).sent,
      ¬ frame.InSession := by
  cases event with
  | opened connection =>
    simp only [Undisturbed, Classical.not_imp, Bool.not_eq_false] at hbad
    obtain ⟨hfree, hsends⟩ := hbad
    have hcode : s.code ≠ [] := fun hnil => by rw [hnil] at hsends; cases hsends
    have hlt := hinv.request_lt hcode
    have hstep := slotStep_opened hfree connection
    obtain ⟨k, frame, hframe, hbound, hreq⟩ :=
      exists_sent (s := slotStep s (.opened connection)) (by rwa [hstep])
    refine ⟨k, frame, hframe, fun hin => ?_⟩
    -- the session that was opened is later than the one of the request
    have hnew : frame.bound = some s.nextSession := by
      rw [hbound, hstep]
      exact Function.update_self ..
    rw [hin.2.2, hreq, hstep] at hnew
    exact absurd (Option.some.inj hnew) (Nat.ne_of_lt hlt)
  | closed =>
    simp only [Undisturbed, Classical.not_imp, Bool.not_eq_false] at hbad
    obtain ⟨hsome, hsends⟩ := hbad
    obtain ⟨connection, hconn⟩ := Option.isSome_iff_exists.mp hsome
    have hstep := slotStep_closed hconn
    obtain ⟨k, frame, hframe, hbound, hreq⟩ :=
      exists_sent (s := slotStep s .closed) (by rwa [hstep])
    refine ⟨k, frame, hframe, fun hin => ?_⟩
    have hnone : frame.bound = none := by rw [hbound, hstep]; rfl
    rw [hin.2.2] at hnone
    cases hnone
  | posted type => exact absurd trivial hbad
  | taken work => exact absurd trivial hbad
  | stepped => exact absurd trivial hbad

end SessionLemmas

open SessionLemmas

/-! ## Answers stay in their session -/

/-- At no point of a run can the handler in hand, by running on, send a frame that misses
the session of its request, exactly when no connection of the run is closed or opened
where the handler in hand would still send. -/
theorem answers_in_session_iff (events : List SlotEvent) :
    (∀ past rest, events = past ++ rest → ∀ k,
      ∀ frame ∈ (Run.exec slotStep SlotState.start (past ++ List.replicate k .stepped)).sent,
        frame.InSession) ↔
      Run.Guarded Undisturbed slotStep SlotState.start events := by
  constructor
  · rintro hall past event rest rfl
    by_contra hbad
    obtain ⟨k, frame, hframe, hleak⟩ := leak_of_disturbed (slotInv_exec past) hbad
    refine hleak (hall (past ++ [event]) rest (by simp) k frame ?_)
    rwa [Run.exec_append, Run.exec_append]
  · rintro hguard past rest rfl k
    have hsteps : Run.Guarded Undisturbed slotStep SlotState.start
        (past ++ List.replicate k .stepped) := by
      induction k with
      | zero => simpa using hguard.left
      | succ k ih =>
        rw [List.replicate_succ', ← List.append_assoc]
        exact Run.guarded_snoc.mpr ⟨ih, trivial⟩
    refine (Run.guarded_induction (I := fun _ s => SlotInv s ∧ Contained s ∧
      ∀ frame ∈ s.sent, frame.InSession) ?_ ?_ hsteps).2.2
    · exact ⟨slotInv_start, .inl rfl, fun frame hframe => nomatch hframe⟩
    · rintro _ s event hok ⟨hinv, hcont, hsent⟩
      exact ⟨slotInv_step hinv event, contained_step hinv hok hcont hsent⟩

/-- A total call with two YX frames and nothing else. -/
def twoFrameCall : Work :=
  .totalCall ⟨some ⟨2, []⟩, none, none, none, none⟩

/-- The master reconnects, on the same connection object, between the two frames of a
total call. -/
def reconnectRun : List SlotEvent :=
  [.opened 0, .posted .totalCall, .taken twoFrameCall, .stepped, .stepped, .stepped, .stepped,
    .closed, .opened 0, .stepped, .stepped]

/-- The second frame goes to the new session. And a command whose connection is closed
before its response is answered to no connection at all. -/
theorem reconnect_leaks_answer :
    (Run.exec slotStep SlotState.start reconnectRun).sent =
      [⟨some 0, some 0, some 0, 0⟩, ⟨some 0, some 1, some 1, 0⟩] ∧
    (¬ ∀ frame ∈ (Run.exec slotStep SlotState.start reconnectRun).sent, frame.InSession) ∧
    (Run.exec slotStep SlotState.start
      [.opened 0, .posted .remoteControl, .taken .remoteControl, .closed, .stepped]).sent =
      [⟨none, none, none, 0⟩] := by
  decide +kernel

end Iec104Slave
