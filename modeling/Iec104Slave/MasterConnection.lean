import Iec104Slave.Apci
import Iec104Slave.PriorityQueue

/-!
# A connection to a master (`MasterConnection` in `cs104_slave.c`)

The thread of a connection goes round a loop: it receives a frame, handles it, confirms received
frames, looks after its timeouts, and sends one waiting ASDU. Between two points at which it reads
what other threads write (`state`, `isRunning`, the queue) the thread works on data of its own, so
the loop is cut at these points, and `ConnectionPc` says where the thread is. What the thread cannot
know in advance is the `Environment` of a step: the clock, the received frame, the answer of the
application, and the results of writing to the socket.

The connection keeps a log of the protocol events since it was opened. The log is not in the source:
`Station.run` says whether the events follow the protocol.

Results:
1. `Conforms.threadStep`: every step of the thread follows the protocol of a station with window
   `k`, and its counters are those of the station modulo 32768.
2. `handleIFrame_spec`, `handleSFrame_spec`: a received frame or acknowledgement is taken exactly
   if the station takes it.
3. `finishing_threadStep`: after a failed write of an I frame the thread goes to its end and reads
   no sequence number any more.
-/

namespace Iec104Slave

open SlidingWindow

/-- `CS104_APCIParameters`, without `t0`, which is for masters. The program takes them from the
configuration without a check. Within the bounds the ring of unconfirmed frames has a slot and
`int16_t` indices, its sequence numbers are distinct, and the timeouts in milliseconds fit an
`int`. -/
structure ApciParameters where
  k : Nat
  w : Nat
  t1 : Nat
  t2 : Nat
  t3 : Nat
  k_pos : 0 < k
  k_lt : k < seqModulus
  t1_le : t1 ≤ 2147483
  t2_le : t2 ≤ 2147483
  t3_le : t3 ≤ 2147483
deriving DecidableEq

/-- `MasterConnectionState`. -/
inductive ConnectionState
  | stopped
  | started
  | unconfirmedStopped
deriving DecidableEq

/-- Where the thread of a connection is. `since` is the time at which `handleMessage` was called. -/
inductive ConnectionPc
  /-- The condition of the loop. -/
  | loop
  /-- `receiveMessage`, and `handleMessage` up to the next read of `state`. -/
  | receive
  /-- STARTDT: `CS104_Slave_activate` waits for `openConnectionsLock`. -/
  | lockOthers (since : Nat)
  /-- STARTDT: the loop of `CS104_Slave_activate` over the other connections, which comes to
  connection `next`. -/
  | deactivateOthers (since next : Nat)
  /-- STARTDT: `MasterConnection_activate`. -/
  | activate (since : Nat)
  /-- STARTDT: the queue is emptied and STARTDT_CON is written. -/
  | startdtCon (since : Nat)
  /-- An I frame is received, before `MasterConnection_isActive`. -/
  | deliver (asdu : List UInt8) (since : Nat)
  /-- In `handleASDU`. -/
  | handling (since : Nat)
  /-- In `sendASDUInternal`, after `MasterConnection_isActive`. -/
  | reply (asdu : List UInt8) (since : Nat)
  /-- The test for `w` after a message. -/
  | confirm
  /-- `handleTimeouts`. -/
  | timeouts
  /-- `MasterConnection_isRunning` and `MasterConnection_isActive` before `sendWaitingASDUs`. -/
  | sendCheck
  /-- `sendWaitingASDUs`. -/
  | send
  /-- The thread has ended, or the connection has none. -/
  | ended
deriving DecidableEq

/-- The ASDU of an I frame. `queued` says that the slave took it from the queue. -/
structure Payload where
  queued : Bool
  asdu : List UInt8
deriving DecidableEq

/-- `sMasterConnection`. The pointers to the socket, the slave and the queues are left out, and so
are the buffers for one frame. `pc` is the place of the thread, and `log` are the events since the
connection was opened. -/
structure MasterConnection where
  isUsed : Bool
  state : ConnectionState
  isRunning : Bool
  timeoutT2Triggered : Bool
  waitingForTestFRcon : Bool
  window : KBuffer
  sendCount : Nat
  receiveCount : Nat
  unconfirmedReceivedIMessages : Nat
  lastConfirmationTime : Nat
  nextT3Timeout : Nat
  nextTestFRConTimeout : Nat
  pc : ConnectionPc
  log : List (Event Payload)
deriving DecidableEq

/-- The result of `receiveMessage`. -/
inductive Arrival
  | nothing
  | failure
  | frame (buffer : List UInt8) (msgSize : Nat)
deriving DecidableEq

/-- What a step of the thread meets. The clock is read once in a step. `reply` is the ASDU that
`handleASDU` sends itself, `valid` its result, and a write to the socket fails below 0, has no room
at 0, and succeeds above. -/
structure Environment where
  now : Nat
  arrival : Arrival
  reply : Option (List UInt8)
  valid : Bool
  write : Int
  secondWrite : Int
deriving DecidableEq

namespace MasterConnection

def record (c : MasterConnection) (e : Event Payload) : MasterConnection :=
  { c with log := c.log ++ [e] }

/-- `MasterConnection_create`. -/
def create : MasterConnection where
  isUsed := false
  state := .stopped
  isRunning := false
  timeoutT2Triggered := false
  waitingForTestFRcon := false
  window := ⟨[], none, 0⟩
  sendCount := 0
  receiveCount := 0
  unconfirmedReceivedIMessages := 0
  lastConfirmationTime := 0
  nextT3Timeout := 0
  nextTestFRConTimeout := 0
  pc := .ended
  log := []

/-- `MasterConnection_init` and `MasterConnection_start`, for a slot that `getFreeConnection` has
claimed. -/
def openFor (p : ApciParameters) (now : Nat) (c : MasterConnection) : MasterConnection :=
  { c with
    isUsed := true
    state := .stopped
    isRunning := true
    timeoutT2Triggered := false
    waitingForTestFRcon := false
    window := c.window.init p.k
    sendCount := 0
    receiveCount := 0
    unconfirmedReceivedIMessages := 0
    lastConfirmationTime := UInt64.size - 1
    nextT3Timeout := now + p.t3 * 1000
    pc := .loop
    log := [] }

/-- `MasterConnection_deactivate`, called for another connection. -/
def deactivate (c : MasterConnection) : MasterConnection :=
  { c with state := .unconfirmedStopped }.record .withdrawn

/-- `MasterConnection_close`. -/
def close (c : MasterConnection) : MasterConnection :=
  { c with isRunning := false, state := .stopped }.record .withdrawn

/-- The end of `connectionHandlingThread`. -/
def finish (c : MasterConnection) : MasterConnection := { c with isRunning := false, pc := .ended }

/-! ## Writing -/

/-- `sendIMessage` and the entry that `sendASDU` makes for it. -/
def sendAsdu (c : MasterConnection) (payload : Payload) (env : Environment) : MasterConnection :=
  if env.write > 0 then
    let sendCount := (c.sendCount + 1) % seqModulus
    { c with
      sendCount := sendCount
      unconfirmedReceivedIMessages := 0
      timeoutT2Triggered := false
      window := c.window.recordSent ⟨sendCount, env.now⟩ }.record
        (.sendFrame c.sendCount c.receiveCount payload)
  else
    { c with
      isRunning := false
      unconfirmedReceivedIMessages := 0
      window := c.window.recordSent ⟨c.sendCount, env.now⟩ }

/-- `_sendSMessage`. A result of 0 is taken for a success. -/
def sendSMessage (c : MasterConnection) (write : Int) : MasterConnection :=
  if write < 0 then { c with isRunning := false }
  else c.record (if write = 0 then .lostAck else .sendAck c.receiveCount)

/-- The confirmation of all received frames: by count, by T2, or before STOPDT_CON. -/
def confirmReceived (c : MasterConnection) (now : Nat) (write : Int) : MasterConnection :=
  { c with
    lastConfirmationTime := now
    unconfirmedReceivedIMessages := 0
    timeoutT2Triggered := false }.sendSMessage write

/-! ## `handleMessage` -/

/-- `handleMessage` returns false. -/
def refuse (c : MasterConnection) : MasterConnection :=
  { c with isRunning := false, pc := .confirm }

/-- `handleMessage` returns true after a frame that restarts T3. -/
def accept (p : ApciParameters) (since : Nat) (c : MasterConnection) : MasterConnection :=
  { c with nextT3Timeout := since + p.t3 * 1000, pc := .confirm }

/-- STOPDT_CON is written when no frame is unconfirmed. -/
def stopConfirm (p : ApciParameters) (since : Nat) (write : Int) (c : MasterConnection) :
    MasterConnection :=
  if c.window.oldestSentAsdu.isSome then c.accept p since
  else
    let stopped := { c with state := .stopped }
    if write < 0 then stopped.refuse
    else (if write = 0 then stopped else stopped.record .stopConfirmed).accept p since

theorem pc_stopConfirm (p : ApciParameters) (c : MasterConnection) (since : Nat) (write : Int) :
    (c.stopConfirm p since write).pc = .confirm := by
  rw [stopConfirm]
  split_ifs <;> rfl

/-- The start of T2 with the first I frame that is not confirmed. -/
def startT2 (c : MasterConnection) (now : Nat) : MasterConnection :=
  if c.timeoutT2Triggered then c
  else { c with timeoutT2Triggered := true, lastConfirmationTime := now }

theorem pc_startT2 (c : MasterConnection) (now : Nat) : (c.startT2 now).pc = c.pc := by
  rw [startT2]
  split <;> rfl

/-- An I frame, up to the call of `handleASDU`. -/
def handleIFrame (c : MasterConnection) (now ns nr : Nat) (asdu : List UInt8) : MasterConnection :=
  if c.state ≠ .started then (c.record (.refuseFrame ns nr)).refuse
  else
    let timed := c.startT2 now
    if ns ≠ timed.receiveCount then (timed.record (.refuseFrame ns nr)).refuse
    else
      match timed.window.checkSequenceNumber timed.sendCount nr with
      | none => timed
      | some (_, false) => (timed.record (.refuseFrame ns nr)).refuse
      | some (window, true) =>
        { timed with
          window := window
          receiveCount := (timed.receiveCount + 1) % seqModulus
          unconfirmedReceivedIMessages := timed.unconfirmedReceivedIMessages + 1
          pc := .deliver asdu now }.record (.receiveFrame ns nr ⟨false, asdu⟩)

def handleSFrame (p : ApciParameters) (c : MasterConnection) (env : Environment) (nr : Nat) :
    MasterConnection :=
  match c.window.checkSequenceNumber c.sendCount nr with
  | none => c
  | some (_, false) => (c.record (.refuseAck nr)).refuse
  | some (window, true) =>
    let confirmed := { c with window := window }.record (.receiveAck nr)
    match c.state with
    | .unconfirmedStopped => confirmed.stopConfirm p env.now env.write
    | .stopped => confirmed.refuse
    | .started => confirmed.accept p env.now

/-- STOPDT_ACT: the connection is deactivated, the received frames are confirmed, and STOPDT_CON is
written unless a sent frame is unconfirmed. -/
def handleStopdt (p : ApciParameters) (c : MasterConnection) (env : Environment) :
    MasterConnection :=
  let inactive := { c with state := .unconfirmedStopped }.record .stop
  (if inactive.unconfirmedReceivedIMessages > 0 then inactive.confirmReceived env.now env.write
    else inactive).stopConfirm p env.now env.secondWrite

/-- `handleMessage`, up to the next read of what other threads write. -/
def handleMessage (p : ApciParameters) (c : MasterConnection) (env : Environment) :
    Message → MasterConnection
  | .malformed => c.refuse
  | .iFrame ns nr asdu => c.handleIFrame env.now ns nr asdu
  | .testfrAct => if env.write < 0 then c.refuse else c.accept p env.now
  | .startdtAct => { c with pc := .lockOthers env.now }
  | .stopdtAct => c.handleStopdt p env
  | .testfrCon => { c with waitingForTestFRcon := false }.accept p env.now
  | .sFrame nr => c.handleSFrame p env nr
  | .unknown => { c with pc := .confirm }

/-- Where the thread is after a message. It stays where it is only when the check of a sequence
number finds no entry, which does not happen. -/
theorem pc_handleMessage (p : ApciParameters) (c : MasterConnection) (env : Environment)
    (message : Message) :
    (c.handleMessage p env message).pc = .confirm ∨
      (c.handleMessage p env message).pc = .lockOthers env.now ∨
      (∃ asdu, (c.handleMessage p env message).pc = .deliver asdu env.now) ∨
      (c.handleMessage p env message).pc = c.pc := by
  cases message with
  | malformed | testfrCon | unknown => exact .inl rfl
  | startdtAct => exact .inr (.inl rfl)
  | iFrame ns nr asdu =>
    rw [handleMessage, handleIFrame]
    split
    · exact .inl rfl
    dsimp only
    split
    · exact .inl rfl
    split
    · exact .inr (.inr (.inr (pc_startT2 c env.now)))
    · exact .inl rfl
    · exact .inr (.inr (.inl ⟨asdu, rfl⟩))
  | testfrAct =>
    rw [handleMessage]
    split <;> exact .inl rfl
  | stopdtAct =>
    rw [handleMessage, handleStopdt]
    exact .inl (pc_stopConfirm p _ _ _)
  | sFrame nr =>
    rw [handleMessage, handleSFrame]
    split
    · exact .inr (.inr (.inr rfl))
    · exact .inl rfl
    · dsimp only
      split
      · exact .inl (pc_stopConfirm p _ _ _)
      · exact .inl rfl
      · exact .inl rfl

/-! ## `handleTimeouts` -/

/-- Times that lie too far ahead after a change of the clock are brought back. -/
def plausibleT3 (p : ApciParameters) (c : MasterConnection) (now : Nat) : MasterConnection :=
  if c.nextT3Timeout > now + p.t3 * 1000 then { c with nextT3Timeout := now + p.t3 * 1000 } else c

def plausibleTestFRcon (p : ApciParameters) (c : MasterConnection) (now : Nat) : MasterConnection :=
  if c.nextTestFRConTimeout > now + p.t1 * 1000
  then { c with nextTestFRConTimeout := now + p.t1 * 1000 } else c

def plausibleT2 (c : MasterConnection) (now : Nat) : MasterConnection :=
  if c.lastConfirmationTime ≠ UInt64.size - 1 ∧ c.lastConfirmationTime > now
  then { c with lastConfirmationTime := now } else c

/-- TESTFR_ACT is written when T3 is over, and its answer is awaited for T1. -/
def sendTestFR (p : ApciParameters) (c : MasterConnection) (now : Nat) (write : Int) :
    MasterConnection :=
  if now > c.nextT3Timeout then
    if write < 0 then { c with isRunning := false }
    else if write > 0 then
      { c with waitingForTestFRcon := true, nextTestFRConTimeout := now + p.t1 * 1000 }
    else c
  else c

/-- The T3 timeout. -/
def checkT3 (p : ApciParameters) (c : MasterConnection) (now : Nat) (write : Int) :
    MasterConnection :=
  if c.waitingForTestFRcon then c else (c.plausibleT3 p now).sendTestFR p now write

/-- The T1 timeout of TESTFR_ACT: the new state, and whether the timeout is over. -/
def checkTestFRcon (p : ApciParameters) (c : MasterConnection) (now : Nat) :
    MasterConnection × Bool :=
  if c.waitingForTestFRcon then
    let c := c.plausibleTestFRcon p now
    (c, decide (now > c.nextTestFRConTimeout))
  else (c, false)

/-- Received frames are confirmed when T2 is over. -/
def confirmT2 (p : ApciParameters) (c : MasterConnection) (now : Nat) (write : Int) :
    MasterConnection :=
  if now > c.lastConfirmationTime ∧ now - c.lastConfirmationTime ≥ p.t2 * 1000
  then c.confirmReceived now write else c

/-- The T2 timeout. -/
def checkT2 (p : ApciParameters) (c : MasterConnection) (now : Nat) (write : Int) :
    MasterConnection :=
  if c.unconfirmedReceivedIMessages > 0 then (c.plausibleT2 now).confirmT2 p now write else c

/-- The T1 timeout of the oldest unconfirmed I frame. -/
def checkT1 (p : ApciParameters) (c : MasterConnection) (now : Nat) : MasterConnection × Bool :=
  match c.window.oldestSentAsdu with
  | none => (c, false)
  | some oldest =>
    match c.window.sentAsdus[oldest]? with
    | none => (c, false)
    | some entry =>
      if entry.sentTime > now then
        ({ c with window := { c.window with
            sentAsdus := c.window.sentAsdus.set oldest { entry with sentTime := now } } }, false)
      else (c, decide (now > entry.sentTime ∧ now - entry.sentTime ≥ p.t1 * 1000))

/-- `handleTimeouts`: if a timeout is over the connection ends. -/
def handleTimeouts (p : ApciParameters) (c : MasterConnection) (env : Environment) :
    MasterConnection :=
  let (tested, testOver) := (c.checkT3 p env.now env.write).checkTestFRcon p env.now
  let (checked, sentOver) := (tested.checkT2 p env.now env.secondWrite).checkT1 p env.now
  { checked with
    isRunning := checked.isRunning && !testOver && !sentOver
    pc := .sendCheck }

/-! ## The thread -/

/-- `sendNextHighPriorityASDU`, with its call of the queue. The queue is `none` after an access
outside of its buffer. -/
def sendNext (c : MasterConnection) (queue : Option HighPriorityAsduQueue) (env : Environment) :
    MasterConnection × Option AsduQueueOp :=
  if c.window.isSentBufferFull then ({ c with pc := .loop }, none)
  else
    (match queue.bind (·.getNextAsdu) with
      | none => c
      | some (_, none) => { c with pc := .loop }
      | some (_, some asdu) => { c.sendAsdu ⟨true, asdu⟩ env with pc := .loop }, some .getNext)

/-- `sendWaitingASDUs`. Nothing waits in the low-priority queue. -/
def sendWaitingAsdus (c : MasterConnection) (queue : Option HighPriorityAsduQueue)
    (env : Environment) : MasterConnection × Option AsduQueueOp :=
  if queue.any (·.isAsduAvailable) then c.sendNext queue env else ({ c with pc := .loop }, none)

/-- `sendASDUInternal` after the test that the connection is active: with a full window the ASDU is
put into the queue. -/
def sendReply (p : ApciParameters) (c : MasterConnection) (env : Environment) (asdu : List UInt8)
    (since : Nat) : MasterConnection × Option AsduQueueOp :=
  if c.window.isSentBufferFull then (c.accept p since, some (.enqueue asdu))
  else ((c.sendAsdu ⟨false, asdu⟩ env).accept p since, none)

/-- One step of `connectionHandlingThread`, with its call of the queue. The steps that deactivate
the other connections are steps of the slave. -/
def threadStep (p : ApciParameters) (c : MasterConnection) (queue : Option HighPriorityAsduQueue)
    (env : Environment) : MasterConnection × Option AsduQueueOp :=
  match c.pc with
  | .loop => (if c.isRunning then { c with pc := .receive } else c.finish, none)
  | .receive =>
    (match env.arrival with
      | .nothing => { c with pc := .timeouts }
      | .failure => c.finish
      | .frame buffer msgSize => c.handleMessage p env (readMessage buffer msgSize), none)
  | .lockOthers _ | .deactivateOthers _ _ => (c, none)
  | .activate since =>
    ({ c with state := .started, pc := .startdtCon since }.record .start, none)
  | .startdtCon since =>
    (if env.write < 0 then c.refuse else c.accept p since, some .reset)
  | .deliver _ since =>
    (if c.state = .started ∧ env.valid = true then { c with pc := .handling since } else c.refuse,
      none)
  | .handling since =>
    (match env.reply with
      | some asdu =>
        if c.state = .started then { c with pc := .reply asdu since } else c.accept p since
      | none => c.accept p since, none)
  | .reply asdu since => c.sendReply p env asdu since
  | .confirm =>
    ({ (if c.unconfirmedReceivedIMessages ≥ p.w then c.confirmReceived env.now env.write else c)
        with pc := .timeouts }, none)
  | .timeouts => (c.handleTimeouts p env, none)
  | .sendCheck =>
    ({ c with pc := if c.isRunning = true ∧ c.state = .started then .send else .loop }, none)
  | .send => c.sendWaitingAsdus queue env
  | .ended => (c, none)

/-! ## The protocol -/

/-- What is known of the times of the unconfirmed frames is kept by what a step at `now` can do to
them. -/
structure KeptAt (now : Nat) (P : List Nat → Prop) : Prop where
  drop : ∀ times j, P times → P (times.drop j)
  push : ∀ times, P times → P (times ++ [now])
  retime : ∀ time times, now < time → P (time :: times) → P (now :: times)

/-- The window holds the frames of the station that are not confirmed, and `P` holds of their
times. -/
def Tracks (P : List Nat → Prop) (b : KBuffer) (confirmed sent : Nat) : Prop :=
  ∃ times, b.Unconfirmed confirmed times ∧ confirmed + times.length = sent ∧ P times

/-- The log follows the protocol and leads to the station `s`, whose counts the connection keeps
modulo 32768. Frames that are received and not acknowledged are counted as long as no S frame was
lost. -/
structure Synced (k : Nat) (c : MasterConnection) (s : Station) : Prop where
  run : Station.run seqModulus k Station.init c.log = some s
  sendCount : c.sendCount = s.sent % seqModulus
  receiveCount : c.receiveCount = s.received % seqModulus
  opened : c.state = .started ↔ s.opening = .opened
  size : c.window.maxSentAsdus = k
  unacked : .lostAck ∈ c.log ∨ c.isRunning = false ∨
    c.unconfirmedReceivedIMessages = s.received - s.acked

/-- The thread has passed the test that the connection is active, and is about to send. -/
def Sending : ConnectionPc → Prop
  | .send | .reply _ _ => True
  | _ => False

/-- The connection is over, and the thread is on its way to its end. -/
def Finishing (c : MasterConnection) : Prop :=
  c.isRunning = false ∧ (c.pc = .confirm ∨ c.pc = .timeouts ∨ c.pc = .sendCheck ∨ c.pc = .loop ∨
    c.pc = .ended)

/-- What the thread makes of an I frame, from `c` to `c'`: if the station takes the frame its ASDU
is handed on, and otherwise the connection ends. -/
def TakesFrame (s : Station) (c c' : MasterConnection) (now ns nr : Nat) (asdu : List UInt8) :
    Prop :=
  if (s.takes seqModulus ns nr).isSome then
    c'.log = c.log ++ [.receiveFrame ns nr ⟨false, asdu⟩] ∧ c'.pc = .deliver asdu now
  else c'.log = c.log ++ [.refuseFrame ns nr] ∧ c'.isRunning = false

/-- What the thread makes of an S frame. STOPDT_CON can follow the last confirmation. -/
def TakesAck (s : Station) (c c' : MasterConnection) (nr : Nat) : Prop :=
  if (s.confirmedBy seqModulus nr).isSome then
    c'.log = c.log ++ [.receiveAck nr] ∨ c'.log = c.log ++ [.receiveAck nr, .stopConfirmed]
  else c'.log = c.log ++ [.refuseAck nr] ∧ c'.isRunning = false

/-- The invariant of a connection. -/
def Conforms (k : Nat) (P : List Nat → Prop) (c : MasterConnection) : Prop :=
  ∃ s, c.Synced k s ∧ (Sending c.pc → s.opening ≠ .closed) ∧
    (Tracks P c.window s.confirmed s.sent ∨ c.Finishing)

variable {k : Nat} {P : List Nat → Prop} {c : MasterConnection} {s s' : Station}
  {p : ApciParameters}
  {env : Environment} {queue : Option HighPriorityAsduQueue}

theorem Synced.wellFormed (h : c.Synced k s) : s.WellFormed k :=
  (Station.run_summary h.run).wellFormed

theorem Synced.log (h : c.Synced k s) {e : Event Payload}
    (hnext : s.next seqModulus k e = some s') :
    Station.run seqModulus k Station.init (c.log ++ [e]) = some s' :=
  (Station.run_concat h.run).trans hnext

/-! ### Sequence numbers -/

/-- `checkSequenceNumber` finds out what the station confirms. -/
theorem Tracks.check {b : KBuffer} {now nr : Nat} (hP : KeptAt now P)
    (h : Tracks P b s.confirmed s.sent) (hnr : nr < seqModulus) :
    ∃ b' valid, b.checkSequenceNumber (s.sent % seqModulus) nr = some (b', valid) ∧
      b'.maxSentAsdus = b.maxSentAsdus ∧
      (valid = true → ∃ j, s.confirmedBy seqModulus nr = some j ∧
        Tracks P b' (s.confirmed + j) s.sent) ∧
      (valid = false → s.confirmedBy seqModulus nr = none) := by
  obtain ⟨times, htimes, hsent, htimesP⟩ := h
  obtain ⟨b', valid, hcheck, hsize, hvalid, -, hconfirm⟩ :=
    KBuffer.checkSequenceNumber_spec htimes hnr
  have hpending : s.pending = times.length := by
    rw [Station.pending, ← hsent, Nat.add_sub_cancel_left]
  have hlt : times.length < seqModulus := Nat.lt_of_le_of_lt htimes.le htimes.window
  rw [hsent] at hcheck
  refine ⟨b', valid, hcheck, hsize, fun htrue => ?_, fun hfalse => ?_⟩
  · obtain ⟨j, hj, hjnr⟩ := hvalid.mp htrue
    refine ⟨j, ?_, times.drop j, hconfirm j hj hjnr, ?_, hP.drop times j htimesP⟩
    · rw [Station.confirmedBy, hpending]
      exact confirms_eq_some hlt hj hjnr
    · rw [List.length_drop]
      omega
  · rw [Station.confirmedBy, hpending]
    refine confirms_eq_none fun hwindow => ?_
    rw [hvalid.mpr hwindow] at hfalse
    cases hfalse

/-- With nothing in the window everything is confirmed. -/
theorem Tracks.all_confirmed {b : KBuffer} (h : Tracks P b s.confirmed s.sent)
    (hnone : b.oldestSentAsdu = none) : s.sent = s.confirmed := by
  obtain ⟨times, htimes, hsent, -⟩ := h
  by_cases hnil : times = []
  · rw [← hsent, hnil]
    rfl
  · obtain ⟨oldest, hspans⟩ := htimes.spans hnil
    rw [hspans.oldest_eq] at hnone
    cases hnone

/-! ### Writing -/

/-- A confirmation is an S frame with the number of received frames, if it is written at all. -/
theorem Synced.confirmReceived (h : c.Synced k s) (now : Nat) (write : Int) :
    ∃ acked, (c.confirmReceived now write).Synced k { s with acked := acked } := by
  rw [MasterConnection.confirmReceived, sendSMessage]
  split
  · exact ⟨s.acked, h.run, h.sendCount, h.receiveCount, h.opened, h.size, .inr (.inl rfl)⟩
  split
  · refine ⟨s.acked, h.log rfl, h.sendCount, h.receiveCount, h.opened, h.size, .inl ?_⟩
    exact List.mem_append_right _ (List.mem_singleton_self _)
  · refine ⟨s.received, h.log (if_pos h.receiveCount), h.sendCount, h.receiveCount, h.opened,
      h.size, .inr (.inr ?_)⟩
    exact (Nat.sub_self _).symm

/-- What `confirmReceived` leaves alone. -/
theorem confirmReceived_frame (c : MasterConnection) (now : Nat) (write : Int) :
    (c.confirmReceived now write).window = c.window ∧ (c.confirmReceived now write).pc = c.pc ∧
      (c.confirmReceived now write).state = c.state ∧
      ((c.confirmReceived now write).isRunning = true → c.isRunning = true) := by
  rw [MasterConnection.confirmReceived, sendSMessage]
  split
  · exact ⟨rfl, rfl, rfl, Bool.noConfusion⟩
  · exact ⟨rfl, rfl, rfl, id⟩

/-- A written I frame is the next one of the station, which has room for it. -/
theorem Synced.sendAsdu (hP : KeptAt env.now P) (h : c.Synced k s)
    (htracks : Tracks P c.window s.confirmed s.sent) (hopen : s.opening ≠ .closed)
    (hroom : c.window.isSentBufferFull = false) (payload : Payload) :
    ∃ s', (c.sendAsdu payload env).Synced k s' ∧
      (Tracks P (c.sendAsdu payload env).window s'.confirmed s'.sent ∨
        (c.sendAsdu payload env).isRunning = false) := by
  obtain ⟨times, htimes, hsent, htimesP⟩ := htracks
  rw [MasterConnection.sendAsdu]
  split
  · have hpending : s.pending < k := by
      have hlt : times.length < c.window.maxSentAsdus := by
        refine Nat.lt_of_le_of_ne htimes.le fun heq => ?_
        rw [htimes.isFull_iff.mpr heq] at hroom
        cases hroom
      rw [Station.pending, ← hsent, Nat.add_sub_cancel_left, ← h.size]
      exact hlt
    have hnumber : (c.sendCount + 1) % seqModulus = (s.sent + 1) % seqModulus := by
      rw [h.sendCount, Nat.mod_add_mod]
    have hkeep : s.opening = .opened ↔
        (if s.opening = .opened then Opening.opened else .closed) = .opened := by
      split <;> simp_all
    refine ⟨_, ⟨h.log (if_pos ⟨hopen, h.sendCount, h.receiveCount, hpending⟩), hnumber,
      h.receiveCount, h.opened.trans hkeep, (KBuffer.maxSentAsdus_recordSent _ _).trans h.size,
      .inr (.inr (Nat.sub_self _).symm)⟩, .inl ?_⟩
    refine ⟨times ++ [env.now], ?_, ?_, hP.push times htimesP⟩
    · have hentry := htimes.sent hroom env.now
      rw [hsent, ← hnumber] at hentry
      exact hentry
    · rw [List.length_append, List.length_singleton, ← Nat.add_assoc, hsent]
  · exact ⟨s, ⟨h.run, h.sendCount, h.receiveCount, h.opened,
      (KBuffer.maxSentAsdus_recordSent _ _).trans h.size, .inr (.inl rfl)⟩, .inr rfl⟩

/-! ### Messages -/

theorem Synced.refuse (h : c.Synced k s) : c.refuse.Synced k s :=
  ⟨h.run, h.sendCount, h.receiveCount, h.opened, h.size, .inr (.inl rfl)⟩

theorem Synced.accept (h : c.Synced k s) (since : Nat) : (c.accept p since).Synced k s :=
  ⟨h.run, h.sendCount, h.receiveCount, h.opened, h.size, h.unacked⟩

theorem Synced.startT2 (h : c.Synced k s) (now : Nat) : (c.startT2 now).Synced k s := by
  rw [MasterConnection.startT2]
  split
  · exact h
  · exact ⟨h.run, h.sendCount, h.receiveCount, h.opened, h.size, h.unacked⟩

theorem startT2_window (c : MasterConnection) (now : Nat) : (c.startT2 now).window = c.window := by
  rw [MasterConnection.startT2]
  split <;> rfl

/-- A refused frame changes nothing but the log. -/
theorem Synced.record_same (h : c.Synced k s) {e : Event Payload}
    (hnext : s.next seqModulus k e = some s) : (c.record e).Synced k s :=
  ⟨h.log hnext, h.sendCount, h.receiveCount, h.opened, h.size,
    h.unacked.imp_left (List.mem_append_left _)⟩

theorem conforms_refuse (h : c.Synced k s) : c.refuse.Conforms k P :=
  ⟨s, h.refuse, False.elim, .inr ⟨rfl, .inl rfl⟩⟩

theorem conforms_accept (h : c.Synced k s) (htracks : Tracks P c.window s.confirmed s.sent)
    (since : Nat) : (c.accept p since).Conforms k P :=
  ⟨s, h.accept since, False.elim, .inl htracks⟩

/-- STOPDT_CON is written only if the connection is not active and everything is confirmed. -/
theorem conforms_stopConfirm (h : c.Synced k s) (htracks : Tracks P c.window s.confirmed s.sent)
    (hstate : c.state ≠ .started) (since : Nat) (write : Int) :
    (c.stopConfirm p since write).Conforms k P := by
  have hopen : s.opening ≠ .opened := fun heq => hstate (h.opened.mpr heq)
  have hstopped : { c with state := .stopped }.Synced k s :=
    ⟨h.run, h.sendCount, h.receiveCount, by simp [hopen], h.size, h.unacked⟩
  rw [stopConfirm]
  split
  · exact conforms_accept h htracks since
  next hnone =>
  split
  · exact conforms_refuse hstopped
  split
  · exact conforms_accept (c := { c with state := .stopped }) hstopped htracks since
  · have hall := htracks.all_confirmed (by simpa using hnone)
    refine conforms_accept (c := { c with state := .stopped }.record .stopConfirmed)
      (s := { s with opening := .closed }) ?_ htracks since
    exact ⟨hstopped.log (if_pos ⟨hopen, hall⟩), h.sendCount, h.receiveCount, by simp [record],
      h.size, h.unacked.imp_left (List.mem_append_left _)⟩

theorem startT2_log (c : MasterConnection) (now : Nat) : (c.startT2 now).log = c.log := by
  rw [MasterConnection.startT2]
  split <;> rfl

theorem log_stopConfirm (c : MasterConnection) (since : Nat) (write : Int) :
    (c.stopConfirm p since write).log = c.log ∨
      (c.stopConfirm p since write).log = c.log ++ [.stopConfirmed] := by
  rw [stopConfirm]
  split_ifs
  · exact .inl rfl
  · exact .inl rfl
  · exact .inl rfl
  · exact .inr rfl

/-- A frame that the station does not take is refused. -/
theorem refuse_spec {d : MasterConnection} {ns nr : Nat} (hd : d.Synced k s)
    (hlog : d.log = c.log) (hnone : s.takes seqModulus ns nr = none) (now : Nat)
    (asdu : List UInt8) :
    (d.record (.refuseFrame ns nr)).refuse.Conforms k P ∧
      TakesFrame s c (d.record (.refuseFrame ns nr)).refuse now ns nr asdu := by
  refine ⟨conforms_refuse (hd.record_same (if_pos hnone)), ?_⟩
  rw [TakesFrame, hnone, if_neg (by decide), ← hlog]
  exact ⟨rfl, rfl⟩

/-- An I frame is taken exactly if the station takes it. -/
theorem handleIFrame_spec {now ns nr : Nat} (hP : KeptAt now P) (h : c.Synced k s)
    (htracks : Tracks P c.window s.confirmed s.sent) (hnr : nr < seqModulus) (asdu : List UInt8) :
    (c.handleIFrame now ns nr asdu).Conforms k P ∧
      TakesFrame s c (c.handleIFrame now ns nr asdu) now ns nr asdu := by
  rw [handleIFrame]
  split
  · next hstate =>
    refine refuse_spec h rfl (if_neg fun htakes => ?_) now asdu
    exact hstate (h.opened.mpr htakes.1)
  next hstate =>
  have hopen : s.opening = .opened := h.opened.mp (not_not.mp hstate)
  have hwindow : (c.startT2 now).window = c.window := startT2_window c now
  have hlog : (c.startT2 now).log = c.log := startT2_log c now
  have hsynced := h.startT2 now
  rw [← hwindow] at htracks
  generalize c.startT2 now = timed at hsynced htracks hlog
  dsimp only
  split
  · next hns =>
    refine refuse_spec hsynced hlog (if_neg fun htakes => ?_) now asdu
    exact hns (htakes.2.trans hsynced.receiveCount.symm)
  next hns =>
  have htakes : s.takes seqModulus ns nr = s.confirmedBy seqModulus nr :=
    if_pos ⟨hopen, (not_not.mp hns).trans hsynced.receiveCount⟩
  obtain ⟨b, valid, hcheck, hsize, hvalid, hinvalid⟩ := htracks.check hP hnr
  rw [← hsynced.sendCount] at hcheck
  rw [hcheck]
  cases valid with
  | false => exact refuse_spec hsynced hlog (htakes.trans (hinvalid rfl)) now asdu
  | true =>
    obtain ⟨j, hj, hb⟩ := hvalid rfl
    have hcount : (timed.receiveCount + 1) % seqModulus = (s.received + 1) % seqModulus := by
      rw [hsynced.receiveCount, Nat.mod_add_mod]
    have hunacked : timed.unconfirmedReceivedIMessages = s.received - s.acked →
        timed.unconfirmedReceivedIMessages + 1 = s.received + 1 - s.acked := fun heq => by
      rw [heq, Nat.succ_sub h.wellFormed.acked_le]
    refine ⟨⟨_, ⟨hsynced.log (Option.map_eq_some_iff.mpr ⟨j, htakes.trans hj, rfl⟩),
      hsynced.sendCount, hcount, hsynced.opened, hsize.trans hsynced.size, ?_⟩, False.elim,
      .inl hb⟩, ?_⟩
    · exact hsynced.unacked.imp (List.mem_append_left _) (.imp_right hunacked)
    · rw [TakesFrame, htakes, hj, if_pos Option.isSome_some, ← hlog]
      exact ⟨rfl, rfl⟩

/-- An S frame is taken exactly if its number confirms frames of the station. -/
theorem handleSFrame_spec {nr : Nat} (hP : KeptAt env.now P) (h : c.Synced k s)
    (htracks : Tracks P c.window s.confirmed s.sent) (hnr : nr < seqModulus) :
    (c.handleSFrame p env nr).Conforms k P ∧ TakesAck s c (c.handleSFrame p env nr) nr := by
  obtain ⟨b, valid, hcheck, hsize, hvalid, hinvalid⟩ := htracks.check hP hnr
  rw [← h.sendCount] at hcheck
  rw [handleSFrame, hcheck]
  cases valid with
  | false =>
    refine ⟨conforms_refuse (h.record_same (if_pos (hinvalid rfl))), ?_⟩
    rw [TakesAck, hinvalid rfl, if_neg (by decide)]
    exact ⟨rfl, rfl⟩
  | true =>
    obtain ⟨j, hj, hb⟩ := hvalid rfl
    have hconfirmed : ({ c with window := b }.record (.receiveAck nr)).Synced k
        { s with confirmed := s.confirmed + j } :=
      ⟨h.log (Option.map_eq_some_iff.mpr ⟨j, hj, rfl⟩), h.sendCount, h.receiveCount, h.opened,
        hsize.trans h.size, h.unacked.imp_left (List.mem_append_left _)⟩
    rw [TakesAck, hj, if_pos Option.isSome_some]
    dsimp only
    split
    · next hstate =>
      refine ⟨conforms_stopConfirm hconfirmed hb (fun hstarted => ?_) _ _, ?_⟩
      · cases hstate.symm.trans hstarted
      · refine (log_stopConfirm _ _ _).imp id fun hlog => hlog.trans ?_
        rw [record, List.append_assoc, List.singleton_append]
    · exact ⟨conforms_refuse hconfirmed, .inl rfl⟩
    · exact ⟨conforms_accept hconfirmed hb _, .inl rfl⟩

theorem conforms_handleStopdt (h : c.Synced k s) (htracks : Tracks P c.window s.confirmed s.sent) :
    (c.handleStopdt p env).Conforms k P := by
  have hinactive : ({ c with state := .unconfirmedStopped }.record .stop).Synced k
      { s with opening := .closed } :=
    ⟨h.log rfl, h.sendCount, h.receiveCount, by simp [record], h.size,
      h.unacked.imp_left (List.mem_append_left _)⟩
  rw [handleStopdt]
  split
  · obtain ⟨acked, hacked⟩ := hinactive.confirmReceived env.now env.write
    obtain ⟨hwindow, -, hstate, -⟩ := confirmReceived_frame
      ({ c with state := .unconfirmedStopped }.record .stop) env.now env.write
    refine conforms_stopConfirm hacked ?_ ?_ _ _
    · rw [hwindow]
      exact htracks
    · rw [hstate]
      exact ConnectionState.noConfusion
  · exact conforms_stopConfirm hinactive htracks ConnectionState.noConfusion _ _

/-- Every message is handled as the protocol says. -/
theorem conforms_handleMessage (hP : KeptAt env.now P) (h : c.Synced k s)
    (htracks : Tracks P c.window s.confirmed s.sent) (buffer : List UInt8) (msgSize : Nat) :
    (c.handleMessage p env (readMessage buffer msgSize)).Conforms k P := by
  cases hmessage : readMessage buffer msgSize with
  | malformed => exact conforms_refuse h
  | iFrame ns nr asdu =>
    exact (handleIFrame_spec hP h htracks (readMessage_numbers_lt.1 _ _ _ hmessage) asdu).1
  | testfrAct =>
    rw [handleMessage]
    split
    · exact conforms_refuse h
    · exact conforms_accept h htracks _
  | startdtAct =>
    exact ⟨s, ⟨h.run, h.sendCount, h.receiveCount, h.opened, h.size, h.unacked⟩, False.elim,
      .inl htracks⟩
  | stopdtAct => exact conforms_handleStopdt h htracks
  | testfrCon =>
    refine conforms_accept (c := { c with waitingForTestFRcon := false }) ?_ htracks _
    exact ⟨h.run, h.sendCount, h.receiveCount, h.opened, h.size, h.unacked⟩
  | sFrame nr => exact (handleSFrame_spec hP h htracks (readMessage_numbers_lt.2 _ hmessage)).1
  | unknown =>
    exact ⟨s, ⟨h.run, h.sendCount, h.receiveCount, h.opened, h.size, h.unacked⟩, False.elim,
      .inl htracks⟩

/-! ### Timeouts -/

/-- From `c` to `c'` only times, the place of the thread and flags change. -/
structure Quiet (c c' : MasterConnection) : Prop where
  isUsed : c'.isUsed = c.isUsed
  log : c'.log = c.log
  sendCount : c'.sendCount = c.sendCount
  receiveCount : c'.receiveCount = c.receiveCount
  state : c'.state = c.state
  window : c'.window = c.window
  unconfirmed : c'.unconfirmedReceivedIMessages = c.unconfirmedReceivedIMessages
  running : c'.isRunning = true → c.isRunning = true

variable {c' : MasterConnection}

theorem Quiet.refl (c : MasterConnection) : Quiet c c := ⟨rfl, rfl, rfl, rfl, rfl, rfl, rfl, id⟩

theorem Quiet.trans {d : MasterConnection} (h : Quiet c c') (h' : Quiet c' d) : Quiet c d :=
  ⟨h'.isUsed.trans h.isUsed, h'.log.trans h.log, h'.sendCount.trans h.sendCount,
    h'.receiveCount.trans h.receiveCount, h'.state.trans h.state, h'.window.trans h.window,
    h'.unconfirmed.trans h.unconfirmed, h.running ∘ h'.running⟩

theorem quiet_checkT3 (c : MasterConnection) (now : Nat) (write : Int) :
    Quiet c (c.checkT3 p now write) := by
  have hplausible : Quiet c (c.plausibleT3 p now) := by
    rw [plausibleT3]
    split <;> exact ⟨rfl, rfl, rfl, rfl, rfl, rfl, rfl, id⟩
  have hsend (d : MasterConnection) : Quiet d (d.sendTestFR p now write) := by
    rw [sendTestFR]
    split_ifs
    · exact ⟨rfl, rfl, rfl, rfl, rfl, rfl, rfl, Bool.noConfusion⟩
    all_goals exact ⟨rfl, rfl, rfl, rfl, rfl, rfl, rfl, id⟩
  rw [checkT3]
  split
  · exact .refl c
  · exact hplausible.trans (hsend _)

theorem quiet_checkTestFRcon (c : MasterConnection) (now : Nat) :
    Quiet c (c.checkTestFRcon p now).1 := by
  rw [checkTestFRcon]
  split
  · rw [plausibleTestFRcon]
    split <;> exact ⟨rfl, rfl, rfl, rfl, rfl, rfl, rfl, id⟩
  · exact .refl c

theorem quiet_plausibleT2 (c : MasterConnection) (now : Nat) : Quiet c (c.plausibleT2 now) := by
  rw [plausibleT2]
  split <;> exact ⟨rfl, rfl, rfl, rfl, rfl, rfl, rfl, id⟩

/-- What `handleTimeouts` can do: confirm received frames, and give the oldest sent frame another
time. A relation that allows this holds between the states before and after it. -/
theorem handleTimeouts_rule {R : MasterConnection → MasterConnection → Prop}
    (trans : ∀ {c d e}, R c d → R d e → R c e) (quiet : ∀ {c d}, Quiet c d → R c d)
    (confirm : ∀ c now write, R c (c.confirmReceived now write))
    (retime : ∀ (c : MasterConnection) (oldest : Nat) (entry : SentAsdu),
      c.window.oldestSentAsdu = some oldest → c.window.sentAsdus[oldest]? = some entry →
      entry.sentTime > env.now →
      R c { c with window := { c.window with
        sentAsdus := c.window.sentAsdus.set oldest { entry with sentTime := env.now } } })
    (c : MasterConnection) : R c (c.handleTimeouts p env) := by
  have hT2 (d : MasterConnection) : R d (d.checkT2 p env.now env.secondWrite) := by
    rw [checkT2]
    split
    · refine trans (quiet (quiet_plausibleT2 d env.now)) ?_
      rw [confirmT2]
      split
      · exact confirm _ _ _
      · exact quiet (.refl _)
    · exact quiet (.refl d)
  have hT1 (d : MasterConnection) : R d (d.checkT1 p env.now).1 := by
    rw [checkT1]
    split
    · exact quiet (.refl d)
    next oldest hold =>
    split
    · exact quiet (.refl d)
    next entry hentry =>
    split
    · next hahead => exact retime d oldest entry hold hentry hahead
    · exact quiet (.refl d)
  have hT3 : R c ((c.checkT3 p env.now env.write).checkTestFRcon p env.now).1 :=
    quiet ((quiet_checkT3 c env.now env.write).trans (quiet_checkTestFRcon _ env.now))
  refine trans (trans hT3 (trans (hT2 _) (hT1 _))) (quiet ?_)
  refine ⟨rfl, rfl, rfl, rfl, rfl, rfl, rfl, fun hrunning => ?_⟩
  rw [handleTimeouts] at hrunning
  simp only [Bool.and_eq_true] at hrunning
  exact hrunning.1.1

/-- From `c` to `c'` no frame with a number of its own is sent or received. -/
structure Keeps (k : Nat) (P : List Nat → Prop) (c c' : MasterConnection) : Prop where
  synced : ∀ s, c.Synced k s → ∃ acked, c'.Synced k { s with acked := acked }
  tracks : ∀ confirmed sent, Tracks P c.window confirmed sent → Tracks P c'.window confirmed sent
  running : c'.isRunning = true → c.isRunning = true

theorem Keeps.stays (h : Keeps k P c c') (hstopped : c.isRunning = false) :
    c'.isRunning = false := by
  refine Bool.eq_false_of_not_eq_true fun hrunning => ?_
  rw [h.running hrunning] at hstopped
  cases hstopped

theorem Keeps.trans {d : MasterConnection} (h : Keeps k P c c') (h' : Keeps k P c' d) :
    Keeps k P c d := by
  refine ⟨fun s hs => ?_, fun _ _ ht => h'.tracks _ _ (h.tracks _ _ ht), h.running ∘ h'.running⟩
  obtain ⟨acked, hc'⟩ := h.synced s hs
  obtain ⟨acked', hd⟩ := h'.synced _ hc'
  exact ⟨acked', hd⟩

theorem Quiet.keeps (h : Quiet c c') : Keeps k P c c' := by
  refine ⟨fun s hs => ⟨s.acked, ?_, ?_, ?_, ?_, ?_, ?_⟩, fun _ _ ht => ?_, h.running⟩
  · rw [h.log]
    exact hs.run
  · rw [h.sendCount]
    exact hs.sendCount
  · rw [h.receiveCount]
    exact hs.receiveCount
  · rw [h.state]
    exact hs.opened
  · rw [h.window]
    exact hs.size
  · rw [h.log, h.unconfirmed]
    refine hs.unacked.imp_right (.imp_left fun hstopped => ?_)
    refine Bool.eq_false_of_not_eq_true fun hrunning => ?_
    rw [h.running hrunning] at hstopped
    cases hstopped
  · rw [h.window]
    exact ht

theorem keeps_confirmReceived (c : MasterConnection) (now : Nat) (write : Int) :
    Keeps k P c (c.confirmReceived now write) := by
  obtain ⟨hwindow, -, -, hrunning⟩ := confirmReceived_frame c now write
  refine ⟨fun s h => h.confirmReceived now write, fun _ _ ht => ?_, hrunning⟩
  rw [hwindow]
  exact ht

theorem keeps_retime (hP : KeptAt env.now P) (c : MasterConnection) (oldest : Nat)
    (entry : SentAsdu) (hold : c.window.oldestSentAsdu = some oldest)
    (hentry : c.window.sentAsdus[oldest]? = some entry) (hahead : entry.sentTime > env.now) :
    Keeps k P c { c with window := { c.window with
      sentAsdus := c.window.sentAsdus.set oldest { entry with sentTime := env.now } } } := by
  refine ⟨fun s h => ⟨s.acked, h.run, h.sendCount, h.receiveCount, h.opened, ?_, h.unacked⟩, ?_, id⟩
  · exact List.length_set.trans h.size
  · rintro confirmed sent ⟨times, htimes, hsent, htimesP⟩
    obtain ⟨rest, rfl⟩ := htimes.oldest_entry hold hentry
    exact ⟨env.now :: rest, htimes.retime hold hentry env.now, hsent,
      hP.retime _ _ hahead htimesP⟩

theorem keeps_handleTimeouts (hP : KeptAt env.now P) (c : MasterConnection) :
    Keeps k P c (c.handleTimeouts p env) :=
  handleTimeouts_rule .trans Quiet.keeps keeps_confirmReceived (keeps_retime hP) c

/-! ### Steps of the thread -/

/-- The thread moves to another place. -/
theorem keeps_goto (c : MasterConnection) (pc : ConnectionPc) : Keeps k P c { c with pc := pc } :=
  Quiet.keeps ⟨rfl, rfl, rfl, rfl, rfl, rfl, rfl, id⟩

theorem keeps_finish (c : MasterConnection) : Keeps k P c c.finish :=
  Quiet.keeps ⟨rfl, rfl, rfl, rfl, rfl, rfl, rfl, Bool.noConfusion⟩

/-- A step that keeps counts and log, to a place where nothing is about to be sent. -/
theorem Conforms.of_keeps (h : c.Synced k s) (hkeeps : Keeps k P c c') (hpc : ¬ Sending c'.pc)
    (htracks : Tracks P c.window s.confirmed s.sent ∨ c'.Finishing) : c'.Conforms k P := by
  obtain ⟨acked, hsynced⟩ := hkeeps.synced s h
  exact ⟨_, hsynced, fun hsending => absurd hsending hpc,
    htracks.imp_left (hkeeps.tracks _ _)⟩

/-- After a failed write of an I frame the thread goes to its end. -/
theorem finishing_threadStep (hP : KeptAt env.now P) (h : c.Finishing) (p : ApciParameters)
    (queue : Option HighPriorityAsduQueue) :
    Keeps k P c (c.threadStep p queue env).1 ∧ (c.threadStep p queue env).1.Finishing := by
  obtain ⟨hstopped, hpc⟩ := h
  rcases hpc with hpc | hpc | hpc | hpc | hpc <;> rw [threadStep, hpc] <;> dsimp only
  · split
    · have hkeeps : Keeps k P c (c.confirmReceived env.now env.write) := keeps_confirmReceived c _ _
      exact ⟨hkeeps.trans (keeps_goto _ _), hkeeps.stays hstopped, .inr (.inl rfl)⟩
    · exact ⟨keeps_goto c _, hstopped, .inr (.inl rfl)⟩
  · have hkeeps : Keeps k P c (c.handleTimeouts p env) := keeps_handleTimeouts hP c
    exact ⟨hkeeps, hkeeps.stays hstopped, .inr (.inr (.inl rfl))⟩
  · rw [if_neg (by simp [hstopped])]
    exact ⟨keeps_goto c _, hstopped, .inr (.inr (.inr (.inl rfl)))⟩
  · rw [if_neg (by simp [hstopped])]
    exact ⟨keeps_finish c, rfl, .inr (.inr (.inr (.inr rfl)))⟩
  · exact ⟨(Quiet.refl c).keeps, hstopped, .inr (.inr (.inr (.inr hpc)))⟩

theorem conforms_sendNext (hP : KeptAt env.now P) (h : c.Synced k s)
    (htracks : Tracks P c.window s.confirmed s.sent) (hopen : s.opening ≠ .closed) :
    (c.sendNext queue env).1.Conforms k P := by
  rw [sendNext]
  split
  · exact .of_keeps h (keeps_goto c _) id (.inl htracks)
  next hroom =>
  dsimp only
  split
  · exact ⟨s, h, fun _ => hopen, .inl htracks⟩
  · exact .of_keeps h (keeps_goto c _) id (.inl htracks)
  · obtain ⟨s', hs', hsent⟩ :=
      h.sendAsdu hP htracks hopen (Bool.eq_false_of_not_eq_true hroom) ⟨true, _⟩
    refine ⟨s', ⟨hs'.run, hs'.sendCount, hs'.receiveCount, hs'.opened, hs'.size, hs'.unacked⟩,
      False.elim, hsent.imp_right fun hstopped => ⟨hstopped, ?_⟩⟩
    exact .inr (.inr (.inr (.inl rfl)))

theorem conforms_sendReply (hP : KeptAt env.now P) (h : c.Synced k s)
    (htracks : Tracks P c.window s.confirmed s.sent) (hopen : s.opening ≠ .closed)
    (asdu : List UInt8) (since : Nat) :
    (c.sendReply p env asdu since).1.Conforms k P := by
  rw [sendReply]
  split
  · exact conforms_accept h htracks since
  next hroom =>
  obtain ⟨s', hs', hsent⟩ :=
    h.sendAsdu hP htracks hopen (Bool.eq_false_of_not_eq_true hroom) ⟨false, asdu⟩
  exact ⟨s', hs'.accept since, False.elim, hsent.imp_right fun hstopped => ⟨hstopped, .inl rfl⟩⟩

/-- Every step of the thread follows the protocol. -/
theorem Conforms.threadStep (hP : KeptAt env.now P) (h : c.Conforms k P) :
    (c.threadStep p queue env).1.Conforms k P := by
  obtain ⟨s, hsynced, hsending, htracks | hfinishing⟩ := h
  swap
  · obtain ⟨hkeeps, hfinishing'⟩ := finishing_threadStep (k := k) hP hfinishing p queue
    refine .of_keeps hsynced hkeeps ?_ (.inr hfinishing')
    rcases hfinishing'.2 with hpc | hpc | hpc | hpc | hpc <;> rw [hpc] <;> exact id
  rw [MasterConnection.threadStep]
  split
  next hpc =>
    dsimp only
    split
    · exact .of_keeps hsynced (keeps_goto c _) id (.inl htracks)
    · exact .of_keeps hsynced (keeps_finish c) id (.inl htracks)
  next hpc =>
    dsimp only
    split
    · exact .of_keeps hsynced (keeps_goto c _) id (.inl htracks)
    · exact .of_keeps hsynced (keeps_finish c) id (.inl htracks)
    · exact conforms_handleMessage hP hsynced htracks _ _
  next hpc => exact ⟨s, hsynced, hsending, .inl htracks⟩
  next hpc => exact ⟨s, hsynced, hsending, .inl htracks⟩
  next since hpc =>
    refine ⟨{ s with opening := .opened }, ⟨hsynced.log rfl, hsynced.sendCount,
      hsynced.receiveCount, iff_of_true rfl rfl, hsynced.size, ?_⟩, False.elim, .inl htracks⟩
    exact hsynced.unacked.imp_left (List.mem_append_left _)
  next since hpc =>
    dsimp only
    split
    · exact conforms_refuse hsynced
    · exact conforms_accept hsynced htracks since
  next since hpc =>
    dsimp only
    split
    · exact .of_keeps hsynced (keeps_goto c _) id (.inl htracks)
    · exact conforms_refuse hsynced
  next since hpc =>
    dsimp only
    split
    · split
      · next hstate =>
        refine ⟨s, ⟨hsynced.run, hsynced.sendCount, hsynced.receiveCount, hsynced.opened,
          hsynced.size, hsynced.unacked⟩, fun _ => ?_, .inl htracks⟩
        rw [hsynced.opened.mp hstate]
        exact Opening.noConfusion
      · exact conforms_accept hsynced htracks since
    · exact conforms_accept hsynced htracks since
  next asdu since hpc =>
    exact conforms_sendReply hP hsynced htracks (hsending (by rw [hpc]; trivial)) asdu since
  next hpc =>
    dsimp only
    split
    · exact .of_keeps hsynced ((keeps_confirmReceived c _ _).trans (keeps_goto _ _)) id
        (.inl htracks)
    · exact .of_keeps hsynced (keeps_goto c _) id (.inl htracks)
  next hpc => exact .of_keeps hsynced (keeps_handleTimeouts hP c) id (.inl htracks)
  next hpc =>
    dsimp only
    split
    · next hactive =>
      refine ⟨s, ⟨hsynced.run, hsynced.sendCount, hsynced.receiveCount, hsynced.opened,
        hsynced.size, hsynced.unacked⟩, fun _ => ?_, .inl htracks⟩
      rw [hsynced.opened.mp hactive.2]
      exact Opening.noConfusion
    · exact .of_keeps hsynced (keeps_goto c _) id (.inl htracks)
  next hpc =>
    rw [sendWaitingAsdus]
    split
    · exact conforms_sendNext hP hsynced htracks (hsending (by rw [hpc]; trivial))
    · exact .of_keeps hsynced (keeps_goto c _) id (.inl htracks)
  next hpc => exact ⟨s, hsynced, hsending, .inl htracks⟩

/-! ### What other threads do -/

/-- A connection that another thread takes the active role from. -/
theorem Conforms.withdraw (h : c.Conforms k P) {state : ConnectionState} {isRunning : Bool}
    (hstate : state ≠ .started) (hstays : c.isRunning = false → isRunning = false) :
    ({ c with state := state, isRunning := isRunning }.record .withdrawn).Conforms k P := by
  obtain ⟨s, hsynced, hsending, htracks⟩ := h
  have hnot : (if s.opening = .opened then Opening.closing else s.opening) ≠ .opened := by
    split
    · exact Opening.noConfusion
    · assumption
  refine ⟨_, ⟨hsynced.log rfl, hsynced.sendCount, hsynced.receiveCount, iff_of_false hstate hnot,
    hsynced.size, ?_⟩, fun hpc => ?_, htracks.imp_right fun hfinishing => ?_⟩
  · exact hsynced.unacked.imp (List.mem_append_left _) (.imp_left hstays)
  · dsimp only
    split
    · exact Opening.noConfusion
    · exact hsending hpc
  · exact ⟨hstays hfinishing.1, hfinishing.2⟩

theorem Conforms.deactivate (h : c.Conforms k P) : c.deactivate.Conforms k P :=
  h.withdraw ConnectionState.noConfusion id

theorem Conforms.close (h : c.Conforms k P) : c.close.Conforms k P :=
  h.withdraw ConnectionState.noConfusion fun _ => rfl

/-- A connection that is opened. -/
theorem conforms_openFor (hP : P []) (c : MasterConnection) (now : Nat) :
    (c.openFor p now).Conforms p.k P := by
  have hwindow : (c.window.init p.k).Unconfirmed 0 [] :=
    KBuffer.unconfirmed_init p.k_pos p.k_lt _ 0
  exact ⟨Station.init, ⟨rfl, rfl, rfl, iff_of_false ConnectionState.noConfusion
    Opening.noConfusion, KBuffer.maxSentAsdus_init _ _, .inr (.inr rfl)⟩, False.elim,
    .inl ⟨[], hwindow, rfl, hP⟩⟩

end MasterConnection

end Iec104Slave
