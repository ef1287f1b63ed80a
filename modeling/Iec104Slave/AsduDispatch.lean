import Iec104Slave.CommandCoverage
import Iec104Slave.Cp56Time

/-!
# What becomes of a received ASDU (`handleASDU` in `cs104_slave.c`)

The bytes of a received ASDU, and what the library and the handlers of the program make of them. The
library answers some requests by itself, with `sendASDUInternal`. For the others it calls the
handler of the program, and if the handler does not take the request, it answers that the type is
not known. The handlers of the program answer with `IMasterConnection_sendASDU`, which offers the
answer to the queue.

This is about the answers as they are handed to the connection. What becomes of them there is not
modelled here: `sendASDUInternal` drops an answer when the connection is no longer active, or when
its window and the queue are full, and the queue refuses an answer when it is full. Nothing in
`handleASDU` and in the handlers depends on it.

The program has no handler for read, reset and delay commands, and sets no filter for addresses.
An answer is the request with other causes; only the confirmation of a clock synchronisation has
other contents.

Result: `asdu_disposed_once_iff`: which ASDUs close the connection, and that every other one is
disposed of once, by a message for a worker or by one answer to the connection, unless it is an
interrogation that finds the queue of its worker full.
-/

namespace Iec104Slave

def C_RD_NA_1 : UInt8 := 102
def C_CS_NA_1 : UInt8 := 103
def C_RP_NA_1 : UInt8 := 105
def C_CD_NA_1 : UInt8 := 106
def C_TS_TA_1 : UInt8 := 107

namespace CauseOfTransmission

/-- The number of a cause. -/
def code : CauseOfTransmission → UInt8
  | periodic => 1
  | spontaneous => 3
  | request => 5
  | activation => 6
  | activationCon => 7
  | deactivation => 8
  | activationTermination => 10
  | interrogatedByStation => 20
  | unknownTypeId => 44
  | unknownCot => 45
  | unknownCa => 46
  | unknownIoa => 47
  | other code => code

def ofCode (code : UInt8) : CauseOfTransmission :=
  (([periodic, spontaneous, request, activation, activationCon, deactivation,
    activationTermination, interrogatedByStation, unknownTypeId, unknownCot, unknownCa,
    unknownIoa].find? fun cot => cot.code == code).getD (other code))

end CauseOfTransmission

/-! ## The bytes of an ASDU (`cs101_asdu.c`) -/

/-- A `CS101_ASDU`: the bytes of its header, and the payload. -/
structure AsduBytes where
  typeId : UInt8
  vsq : UInt8
  cause : UInt8
  oa : UInt8
  caLow : UInt8
  caHigh : UInt8
  payload : List UInt8
deriving DecidableEq

namespace AsduBytes

/-- `CS101_ASDU_createFromBufferEx`. -/
def createFromBuffer : List UInt8 → Option AsduBytes
  | typeId :: vsq :: cause :: oa :: caLow :: caHigh :: payload =>
    some ⟨typeId, vsq, cause, oa, caLow, caHigh, payload⟩
  | _ => none

def encode (asdu : AsduBytes) : List UInt8 :=
  [asdu.typeId, asdu.vsq, asdu.cause, asdu.oa, asdu.caLow, asdu.caHigh] ++ asdu.payload

def getCot (asdu : AsduBytes) : CauseOfTransmission := .ofCode (asdu.cause &&& 0x3f)

def isNegative (asdu : AsduBytes) : Bool := asdu.cause &&& 0x40 == 0x40

def getCa (asdu : AsduBytes) : Nat := asdu.caLow.toNat + asdu.caHigh.toNat * 0x100

def setCot (asdu : AsduBytes) (cot : CauseOfTransmission) : AsduBytes :=
  { asdu with cause := (asdu.cause &&& 0xc0) + (cot.code &&& 0x3f) }

def setNegative (asdu : AsduBytes) (value : Bool) : AsduBytes :=
  { asdu with cause := if value then asdu.cause ||| 0x40 else asdu.cause &&& 0xbf }

/-- `isBroadcastCA`. -/
def isBroadcast (asdu : AsduBytes) : Bool := asdu.getCa == 65535

/-- The request sent back. -/
def answer (asdu : AsduBytes) (reply : Reply) : AsduBytes :=
  (asdu.setCot reply.cot).setNegative reply.negative

/-! ### Elements -/

/-- The bytes of a command behind its address. `short` is the `float` of four bytes. -/
def commandBody (short : List UInt8 → ℚ) (typeId : UInt8) : List UInt8 → Option CommandBody
  | [qualifier] =>
    if typeId = C_SC_NA_1 then some (.single qualifier)
    else if typeId = C_DC_NA_1 then some (.double qualifier)
    else none
  | [low, high, qos] =>
    if typeId = C_SE_NA_1 then some (.normalized ⟨[low, high], rfl⟩ qos)
    else if typeId = C_SE_NB_1 then some (.scaled ⟨[low, high], rfl⟩ qos)
    else none
  | [a, b, c, d, qos] =>
    if typeId = C_SE_NC_1 then some (.short (short [a, b, c, d]) qos) else none
  | _ => none

/-- `CS101_ASDU_getElement` for a command. -/
def getCommand (short : List UInt8 → ℚ) (asdu : AsduBytes) (index : Nat) : Option CommandObject :=
  let size := commandSize asdu.typeId
  let element := asdu.payload.drop (index * (sizeOfIoa + size))
  if element.length < sizeOfIoa + size then none
  else (commandBody short asdu.typeId ((element.drop sizeOfIoa).take size)).map
    (⟨payloadIoa element, ·⟩)

/-- The address and the qualifier of an interrogation. -/
def getInterrogation (asdu : AsduBytes) : Option (UInt32 × UInt8) :=
  match asdu.payload with
  | _ :: _ :: _ :: qualifier :: _ => some (payloadIoa asdu.payload, qualifier)
  | _ => none

/-- The address and the time of a clock synchronisation. -/
def getClock (asdu : AsduBytes) : Option (UInt32 × Cp56Time2a) :=
  match asdu.payload with
  | _ :: _ :: _ :: t₀ :: t₁ :: t₂ :: t₃ :: t₄ :: t₅ :: t₆ :: _ =>
    some (payloadIoa asdu.payload, #v[t₀, t₁, t₂, t₃, t₄, t₅, t₆])
  | _ => none

/-- The address of a test command. The size that is tested is less than that with the time, which is
not used. -/
def getTest (asdu : AsduBytes) : Option UInt32 :=
  if asdu.payload.length < 9 then none else some (payloadIoa asdu.payload)

/-- The confirmation of a clock synchronisation: its only element is replaced. -/
def withClock (asdu : AsduBytes) (time : Cp56Time2a) : AsduBytes :=
  { asdu with vsq := (asdu.vsq &&& 0x80) + 1, payload := [0, 0, 0] ++ time.toList }

/-- The ASDU through the getters that the handlers of the program call. -/
def received (short : List UInt8 → ℚ) (asdu : AsduBytes) : ReceivedAsdu where
  typeId := asdu.typeId
  cot := asdu.getCot
  ca := asdu.getCa
  oa := asdu.oa
  numberOfElements := (asdu.vsq &&& 0x7f).toNat
  element := fun i => (asdu.getCommand short i).map CommandObject.element
  payload := asdu.payload

end AsduBytes

/-! ## The dispatch -/

/-- What `handleASDU` does: `queued` are the answers that the handlers hand to the queue, `direct`
is the answer that the library hands to `sendASDUInternal`, `clock` is the time that was set, and
`valid` is the result. -/
structure Dispatch (n : Nat) where
  clients : Fin n → ClientContext Iec104WorkMsg
  queued : List AsduBytes
  direct : Option AsduBytes
  clock : Option UInt64
  valid : Bool

section

variable {n : Nat}

/-- `responseNegative`. -/
def Received.respond (x : Received n) (asdu : AsduBytes) (cot : CauseOfTransmission) : Dispatch n :=
  ⟨x.clients, [], some (asdu.answer ⟨cot, true⟩), none, true⟩

/-- The ASDU is corrupted, and the connection is closed. -/
def Received.corrupted (x : Received n) : Dispatch n := ⟨x.clients, [], none, none, false⟩

/-- The end of `handleASDU` after a handler: what no handler takes is of an unknown type. -/
def HandlerResult.finish (result : HandlerResult n) (asdu : AsduBytes) : Dispatch n where
  clients := result.clients
  queued := result.replies.map asdu.answer
  direct := if result.handled then none else some (asdu.answer ⟨.unknownTypeId, true⟩)
  clock := none
  valid := true

/-- `clock_sync_handler`. `settable` tells whether `clock_settime` succeeds. -/
def clockSyncHandler (settable : UInt64 → Bool) (newTime : Cp56Time2a) :
    Option (UInt64 × Cp56Time2a) :=
  let timestamp := cp56Time2aToMsTimestamp newTime
  if settable timestamp then some (timestamp, .setFromMsTimestamp timestamp) else none

def Received.clockSync (x : Received n) (asdu : AsduBytes) (settable : UInt64 → Bool)
    (newTime : Cp56Time2a) : Dispatch n :=
  match clockSyncHandler settable newTime with
  | none => x.respond asdu .activationCon
  | some (timestamp, time) =>
    ⟨x.clients, [], some ((asdu.withClock time).setCot .activationCon), some timestamp, true⟩

/-- An interrogation, whose address has to be 0. -/
def Received.interrogate (x : Received n) (asdu : AsduBytes)
    (handler : Received n → UInt8 → HandlerResult n) : Dispatch n :=
  if asdu.getCot = .activation ∨ asdu.getCot = .deactivation then
    match asdu.getInterrogation with
    | none => x.corrupted
    | some (ioa, qualifier) =>
      if ioa ≠ 0 then x.respond asdu .unknownIoa else (handler x qualifier).finish asdu
  else x.respond asdu .unknownCot

def Received.readCommand (x : Received n) (asdu : AsduBytes) : Dispatch n :=
  if asdu.isBroadcast then x.respond asdu .unknownCa
  else if asdu.getCot = .request then (asduHandler x).finish asdu
  else x.respond asdu .unknownCot

def Received.clockCommand (x : Received n) (asdu : AsduBytes) (settable : UInt64 → Bool) :
    Dispatch n :=
  if asdu.getCot = .activation then
    match asdu.getClock with
    | none => x.corrupted
    | some (ioa, newTime) =>
      if ioa ≠ 0 then x.respond asdu .unknownIoa else x.clockSync asdu settable newTime
  else x.respond asdu .unknownCot

def Received.resetCommand (x : Received n) (asdu : AsduBytes) : Dispatch n :=
  if asdu.getCot = .activation then (asduHandler x).finish asdu else x.respond asdu .unknownCot

def Received.delayCommand (x : Received n) (asdu : AsduBytes) : Dispatch n :=
  if asdu.isBroadcast then x.respond asdu .unknownCa
  else if asdu.getCot = .activation ∨ asdu.getCot = .spontaneous then (asduHandler x).finish asdu
  else x.respond asdu .unknownCot

def Received.testCommand (x : Received n) (asdu : AsduBytes) : Dispatch n :=
  if asdu.isBroadcast then x.respond asdu .unknownCa
  else
    match asdu.getTest with
    | none => x.corrupted
    | some ioa =>
      if ioa ≠ 0 then x.respond asdu .unknownIoa
      else if asdu.getCot ≠ .activation then x.respond asdu .unknownCot
      else ⟨x.clients, [], some (asdu.setCot .activationCon), none, true⟩

/-- The cases of `handleASDU` in their order. The cause of a test command is looked at twice. -/
def Received.dispatch (x : Received n) (asdu : AsduBytes) (settable : UInt64 → Bool) : Dispatch n :=
  if asdu.typeId = C_TS_TA_1 ∧ asdu.getCot ≠ .activation then x.respond asdu .unknownCot
  else if asdu.typeId = C_IC_NA_1 then x.interrogate asdu interrogationHandler
  else if asdu.typeId = C_CI_NA_1 then x.interrogate asdu counterInterrogationHandler
  else if asdu.typeId = C_RD_NA_1 then x.readCommand asdu
  else if asdu.typeId = C_CS_NA_1 then x.clockCommand asdu settable
  else if asdu.typeId = C_RP_NA_1 then x.resetCommand asdu
  else if asdu.typeId = C_CD_NA_1 then x.delayCommand asdu
  else if asdu.typeId = C_TS_TA_1 then x.testCommand asdu
  else (asduHandler x).finish asdu

/-- `handleASDU` for an ASDU on the connection of `x`. -/
def handleAsdu (short : List UInt8 → ℚ) (settable : UInt64 → Bool) (x : Received n)
    (asdu : AsduBytes) : Dispatch n :=
  Received.dispatch { x with asdu := asdu.received short } asdu settable

/-- The bytes of an I frame behind its numbers, in `handleMessage`. -/
def handleBytes (short : List UInt8 → ℚ) (settable : UInt64 → Bool) (x : Received n)
    (bytes : List UInt8) : Dispatch n :=
  match AsduBytes.createFromBuffer bytes with
  | none => x.corrupted
  | some asdu => handleAsdu short settable x asdu

/-! ## Dispositions -/

/-- The answers that are handed to the connection. -/
def Dispatch.answers (r : Dispatch n) : List AsduBytes := r.queued ++ r.direct.toList

/-- The confirmation of a test command, or of a clock synchronisation with the time that was set. It
has the negative bit of the request. -/
def Dispatch.Confirms (r : Dispatch n) (asdu answer : AsduBytes) : Prop :=
  answer = asdu.setCot .activationCon ∨
    ∃ timestamp ∈ r.clock,
      answer = (asdu.withClock (.setFromMsTimestamp timestamp)).setCot .activationCon

/-- A message is queued for a worker, with at most a positive confirmation, or one answer is handed
to the connection, which is negative or confirms what was done. -/
def DispatchedOnce (before : Fin n → ClientContext Iec104WorkMsg) (asdu : AsduBytes)
    (r : Dispatch n) : Prop :=
  QueuesOne before r.clients ∧
      (r.answers = [] ∨ r.answers = [asdu.answer ⟨.activationCon, false⟩]) ∨
    r.clients = before ∧
      ∃ answer, r.answers = [answer] ∧ (answer.isNegative = true ∨ r.Confirms asdu answer)

/-- The element that is looked at is not complete. -/
def AsduBytes.Truncated (asdu : AsduBytes) : Prop :=
  (asdu.typeId = C_IC_NA_1 ∨ asdu.typeId = C_CI_NA_1) ∧
      (asdu.getCot = .activation ∨ asdu.getCot = .deactivation) ∧ asdu.payload.length < 4 ∨
    asdu.typeId = C_CS_NA_1 ∧ asdu.getCot = .activation ∧ asdu.payload.length < 10 ∨
    asdu.typeId = C_TS_TA_1 ∧ asdu.getCot = .activation ∧ asdu.isBroadcast = false ∧
      asdu.payload.length < 9

/-- The handler that an interrogation is for. -/
def AsduBytes.interrogation (asdu : AsduBytes) : Option RequestHandler :=
  if asdu.getCot ≠ .activation ∧ asdu.getCot ≠ .deactivation then none
  else asdu.getInterrogation.bind fun (ioa, qualifier) =>
    if ioa ≠ 0 then none
    else if asdu.typeId = C_IC_NA_1 then some (.interrogation qualifier)
    else if asdu.typeId = C_CI_NA_1 then some (.counterInterrogation qualifier)
    else none

/-- The ASDU is an interrogation for a slot without room. -/
def Crowded (x : Received n) (asdu : AsduBytes) : Prop :=
  ∃ handler ∈ asdu.interrogation, ∃ slot, handler.Calls x slot ∧ ¬ HasRoom (x.clients slot)

/-- An answer is of the type of the request and has its addresses, and it is not longer, or as long
as the confirmation of a clock synchronisation. -/
structure AsduBytes.Echoes (asdu answer : AsduBytes) : Prop where
  typeId : answer.typeId = asdu.typeId
  oa : answer.oa = asdu.oa
  ca : answer.getCa = asdu.getCa
  payload : answer.payload.length ≤ max asdu.payload.length 10

/-- All there is to say about a dispatch. -/
structure Outcome (x : Received n) (asdu : AsduBytes) (truncated crowded : Prop)
    (r : Dispatch n) : Prop where
  corrupted : r.valid = false ↔ truncated
  silent : r.valid = false → r.clients = x.clients ∧ r.answers = []
  once : r.valid = true → (DispatchedOnce x.clients asdu r ↔ ¬ crowded)
  echoes : ∀ answer ∈ r.answers, asdu.Echoes answer

variable {x : Received n} {asdu : AsduBytes} {truncated crowded : Prop} {r : Dispatch n}

namespace AsduDispatchLemmas

open RequestHandlersLemmas

theorem isNegative_answer (asdu : AsduBytes) (cot : CauseOfTransmission) :
    (asdu.answer ⟨cot, true⟩).isNegative = true := by
  have hall : ∀ b : UInt8, (b ||| 0x40) &&& 0x40 = 0x40 :=
    CommandCoverageLemmas.forall_byte (P := fun b => (b ||| 0x40) &&& 0x40 = 0x40)
      (by decide +kernel)
  exact beq_iff_eq.mpr (hall _)

theorem outcome_of_once (hvalid : r.valid = true) (honce : DispatchedOnce x.clients asdu r)
    (hechoes : ∀ answer ∈ r.answers, asdu.Echoes answer) :
    Outcome x asdu False False r where
  corrupted := iff_of_false (by simp [hvalid]) id
  silent := fun h => by
    rw [hvalid] at h
    cases h
  once := fun _ => iff_of_true honce id
  echoes := hechoes

theorem echoes_answer (asdu : AsduBytes) (reply : Reply) : asdu.Echoes (asdu.answer reply) :=
  ⟨rfl, rfl, rfl, Nat.le_max_left _ _⟩

theorem echoes_setCot {answer : AsduBytes} (h : asdu.Echoes answer) (cot : CauseOfTransmission) :
    asdu.Echoes (answer.setCot cot) :=
  ⟨h.typeId, h.oa, h.ca, h.payload⟩

theorem echoes_withClock (asdu : AsduBytes) (time : Cp56Time2a) :
    asdu.Echoes (asdu.withClock time) := by
  refine ⟨rfl, rfl, rfl, ?_⟩
  have hlength : (asdu.withClock time).payload.length = 10 := by simp [AsduBytes.withClock]
  rw [hlength]
  exact Nat.le_max_right _ _

theorem echoes_direct {clients : Fin n → ClientContext Iec104WorkMsg} {clock : Option UInt64}
    {answer : AsduBytes} (h : asdu.Echoes answer) :
    ∀ a ∈ (Dispatch.mk clients [] (some answer) clock true).answers, asdu.Echoes a := by
  intro a ha
  rwa [List.mem_singleton.mp ha]

theorem echoes_finish (result : HandlerResult n) (asdu : AsduBytes) :
    ∀ a ∈ (result.finish asdu).answers, asdu.Echoes a := by
  intro a ha
  rcases List.mem_append.mp ha with hqueued | hdirect
  · obtain ⟨reply, -, rfl⟩ := List.mem_map.mp hqueued
    exact echoes_answer asdu reply
  · simp only [HandlerResult.finish] at hdirect
    split at hdirect
    · simp at hdirect
    · rw [List.mem_singleton.mp hdirect]
      exact echoes_answer asdu _

theorem outcome_respond (x : Received n) (asdu : AsduBytes) (cot : CauseOfTransmission) :
    Outcome x asdu False False (x.respond asdu cot) :=
  outcome_of_once rfl (.inr ⟨rfl, _, rfl, .inl (isNegative_answer asdu cot)⟩)
    (echoes_direct (echoes_answer asdu _))

theorem outcome_corrupted (x : Received n) (asdu : AsduBytes) :
    Outcome x asdu True False x.corrupted where
  corrupted := iff_of_true rfl trivial
  silent := fun _ => ⟨rfl, rfl⟩
  once := fun h => by cases h
  echoes := fun _ h => by cases h

/-! ### The handler of commands -/

theorem replies_post (x : Received n) (slot : Fin n) (msg : Iec104WorkMsg) :
    (x.post slot msg).replies = [] := rfl

/-- All answers of `asdu_handler` are negative. -/
theorem asduHandler_replies (x : Received n) :
    ∀ reply ∈ (asduHandler x).replies, reply.negative = true := by
  have hrefuse (cot : CauseOfTransmission) : ∀ reply ∈ (x.refuse cot).replies,
      reply.negative = true := by simp [Received.refuse]
  unfold asduHandler
  split
  · exact hrefuse _
  · split
    · simp
    · split
      · unfold Received.command
        split
        · exact hrefuse _
        · split
          · exact hrefuse _
          · split
            · exact hrefuse _
            · simp [replies_post]
      · split
        · unfold Received.customCall
          split
          · exact hrefuse _
          · simp [replies_post]
        · split <;> exact hrefuse _

/-- The answers after `asdu_handler` are the negative ones of the handler and that of the
library. -/
theorem length_answers_asdu (x : Received n) (asdu : AsduBytes) :
    ((asduHandler x).finish asdu).answers.length = (asduHandler x).negatives := by
  have hall : (asduHandler x).replies.filter Reply.negative = (asduHandler x).replies :=
    List.filter_eq_self.mpr (asduHandler_replies x)
  simp only [Dispatch.answers, HandlerResult.finish, HandlerResult.negatives, hall,
    List.length_append, List.length_map]
  split <;> rfl

theorem isNegative_answers_asdu (x : Received n) (asdu : AsduBytes) :
    ∀ a ∈ ((asduHandler x).finish asdu).answers, a.isNegative = true := by
  intro a ha
  rcases List.mem_append.mp ha with hqueued | hdirect
  · obtain ⟨⟨cot, negative⟩, hreply, rfl⟩ := List.mem_map.mp hqueued
    obtain rfl : negative = true := asduHandler_replies x _ hreply
    exact isNegative_answer asdu cot
  · simp only [HandlerResult.finish] at hdirect
    split at hdirect
    · simp at hdirect
    · simp only [Option.toList_some, List.mem_singleton] at hdirect
      rw [hdirect]
      exact isNegative_answer asdu _

theorem outcome_asdu (x : Received n) (asdu : AsduBytes) :
    Outcome x asdu False False ((asduHandler x).finish asdu) := by
  have hlength := length_answers_asdu x asdu
  refine outcome_of_once rfl ?_ (echoes_finish _ asdu)
  rcases disposed_asdu x with ⟨hqueues, hnone⟩ | ⟨hsame, hone⟩
  · rw [hnone] at hlength
    exact .inl ⟨hqueues, .inl (List.length_eq_zero_iff.mp hlength)⟩
  · rw [hone] at hlength
    obtain ⟨a, ha⟩ := List.length_eq_one_iff.mp hlength
    refine .inr ⟨hsame, a, ha, .inl ?_⟩
    exact isNegative_answers_asdu x asdu a (by rw [ha]; exact List.mem_singleton_self a)

/-! ### The handler of the clock -/

theorem outcome_clockSync (x : Received n) (asdu : AsduBytes) (settable : UInt64 → Bool)
    (newTime : Cp56Time2a) : Outcome x asdu False False (x.clockSync asdu settable newTime) := by
  rw [Received.clockSync]
  split
  · exact outcome_respond x asdu _
  · next timestamp time hclock =>
    have htime : time = .setFromMsTimestamp timestamp := by
      rw [clockSyncHandler] at hclock
      split at hclock
      · cases hclock
        rfl
      · cases hclock
    refine outcome_of_once rfl (.inr ⟨rfl, _, rfl, .inr (.inr ⟨timestamp, rfl, ?_⟩)⟩)
      (echoes_direct (echoes_setCot (echoes_withClock asdu time) _))
    rw [htime]

/-! ### The handlers of interrogations -/

/-- An interrogation that gets as far as a queue is disposed of once exactly if there is room. -/
theorem outcome_finish_call {result : HandlerResult n} {calls : Fin n → Prop}
    (h : CallOutcome x calls result) (asdu : AsduBytes) :
    Outcome x asdu False (∃ slot, calls slot ∧ ¬ HasRoom (x.clients slot))
      (result.finish asdu) := by
  refine ⟨iff_of_false (by simp [HandlerResult.finish]) id, Bool.noConfusion, fun _ => ?_,
    echoes_finish _ asdu⟩
  cases h with
  | otherStation _ hnot =>
    exact iff_of_true (.inr ⟨rfl, _, rfl, .inl (isNegative_answer asdu _)⟩)
      fun ⟨slot, hslot, _⟩ => hnot slot hslot
  | negative hnot =>
    exact iff_of_true (.inr ⟨rfl, _, rfl, .inl (isNegative_answer asdu _)⟩)
      fun ⟨slot, hslot, _⟩ => hnot slot hslot
  | @call slot msg hcalls htype =>
    by_cases hroom : HasRoom (x.clients slot)
    · obtain ⟨hqueues, hreplies⟩ := call_room x slot hroom msg
      refine iff_of_true (.inl ⟨hqueues, .inr ?_⟩) ?_
      · simp only [Dispatch.answers, HandlerResult.finish, hreplies]
        rfl
      · rintro ⟨other, hother, hfull⟩
        exact hfull ((hcalls other).mp hother ▸ hroom)
    · rw [call_full x slot hroom htype]
      refine iff_of_false ?_ fun hnot => hnot ⟨slot, (hcalls slot).mpr rfl, hroom⟩
      rintro (⟨hqueues, -⟩ | ⟨-, a, ha, -⟩)
      · exact not_queuesOne_self _ hqueues
      · cases ha

theorem getInterrogation_eq_none : asdu.getInterrogation = none ↔ asdu.payload.length < 4 := by
  rw [AsduBytes.getInterrogation]
  split
  · next h => simp [h]
  · next h =>
    refine iff_of_true rfl ?_
    match hp : asdu.payload with
    | [] | [_] | [_, _] | [_, _, _] => simp
    | a :: b :: c :: d :: rest => exact absurd hp (h a b c d rest)

theorem outcome_interrogate {handler : Received n → UInt8 → HandlerResult n}
    {calls : UInt8 → Fin n → Prop} (h : ∀ qualifier, CallOutcome x (calls qualifier)
      (handler x qualifier)) (asdu : AsduBytes) :
    Outcome x asdu
      ((asdu.getCot = .activation ∨ asdu.getCot = .deactivation) ∧ asdu.payload.length < 4)
      ((asdu.getCot = .activation ∨ asdu.getCot = .deactivation) ∧
        ∃ qualifier, asdu.getInterrogation = some (0, qualifier) ∧
          ∃ slot, calls qualifier slot ∧ ¬ HasRoom (x.clients slot))
      (x.interrogate asdu handler) := by
  rw [Received.interrogate]
  split
  · next hcot =>
    rw [← getInterrogation_eq_none]
    split
    · next hnone => simpa [hcot, hnone] using outcome_corrupted x asdu
    · next ioa qualifier hsome =>
      split
      · next hioa => simpa [hcot, hsome, hioa] using outcome_respond x asdu .unknownIoa
      · next hioa =>
        obtain rfl := not_not.mp hioa
        simpa [hcot, hsome] using outcome_finish_call (h qualifier) asdu
  · next hcot => simpa [hcot] using outcome_respond x asdu .unknownCot

/-! ### All types -/

theorem Outcome.congr {truncated' crowded' : Prop} (h : Outcome x asdu truncated crowded r)
    (htruncated : truncated ↔ truncated') (hcrowded : crowded ↔ crowded') :
    Outcome x asdu truncated' crowded' r :=
  ⟨h.corrupted.trans htruncated, h.silent, fun hvalid => (h.once hvalid).trans hcrowded.not,
    h.echoes⟩

theorem interrogation_eq_some {handler : RequestHandler} :
    asdu.interrogation = some handler ↔
      (asdu.getCot = .activation ∨ asdu.getCot = .deactivation) ∧
        ∃ qualifier, asdu.getInterrogation = some (0, qualifier) ∧
          (asdu.typeId = C_IC_NA_1 ∧ handler = .interrogation qualifier ∨
            asdu.typeId = C_CI_NA_1 ∧ handler = .counterInterrogation qualifier) := by
  have hne : C_IC_NA_1 ≠ C_CI_NA_1 := by decide
  rw [AsduBytes.interrogation]
  split
  · next hcot => simp [hcot]
  · next hcot =>
    have hcause : asdu.getCot = .activation ∨ asdu.getCot = .deactivation := by tauto
    cases hsome : asdu.getInterrogation with
    | none => simp
    | some element =>
      obtain ⟨ioa, qualifier⟩ := element
      simp only [hcause, true_and, Option.bind_some, Option.some.injEq, Prod.mk.injEq]
      split_ifs with hioa hic hci
      · simp [hioa]
      · simp [hic, hne, not_not.mp hioa, eq_comm]
      · simp [hci, hne.symm, not_not.mp hioa, eq_comm]
      · simp [hic, hci]

/-- Only interrogations can find a queue full. -/
theorem not_crowded (hic : asdu.typeId ≠ C_IC_NA_1) (hci : asdu.typeId ≠ C_CI_NA_1) :
    ¬ Crowded x asdu := by
  rintro ⟨handler, hhandler, -⟩
  obtain ⟨-, _, -, h | h⟩ := interrogation_eq_some.mp hhandler
  · exact hic h.1
  · exact hci h.1

theorem getClock_eq_none : asdu.getClock = none ↔ asdu.payload.length < 10 := by
  rw [AsduBytes.getClock]
  split
  · next h => simp [h]
  · next h =>
    refine iff_of_true rfl ?_
    match hp : asdu.payload with
    | [] | [_] | [_, _] | [_, _, _] | [_, _, _, _] | [_, _, _, _, _] | [_, _, _, _, _, _]
    | [_, _, _, _, _, _, _] | [_, _, _, _, _, _, _, _] | [_, _, _, _, _, _, _, _, _] => simp
    | _ :: _ :: _ :: _ :: _ :: _ :: _ :: _ :: _ :: _ :: _ =>
      exact (h _ _ _ _ _ _ _ _ _ _ _ hp).elim

theorem getTest_eq_none : asdu.getTest = none ↔ asdu.payload.length < 9 := by
  rw [AsduBytes.getTest]
  split
  · next h => simp [h]
  · next h => simp [h]

/-- An interrogation of either type, by the requests `request` that it stands for. -/
theorem outcome_request {handler : Received n → UInt8 → HandlerResult n}
    (request : UInt8 → RequestHandler) (htype : asdu.typeId = C_IC_NA_1 ∨ asdu.typeId = C_CI_NA_1)
    (hrequest : ∀ r qualifier, asdu.typeId = C_IC_NA_1 ∧ r = .interrogation qualifier ∨
      asdu.typeId = C_CI_NA_1 ∧ r = .counterInterrogation qualifier ↔ r = request qualifier)
    (h : ∀ qualifier, CallOutcome x ((request qualifier).Calls x) (handler x qualifier)) :
    Outcome x asdu asdu.Truncated (Crowded x asdu) (x.interrogate asdu handler) := by
  refine Outcome.congr (outcome_interrogate h asdu) ?_ ?_
  · have hcs : asdu.typeId ≠ C_CS_NA_1 := by rcases htype with h | h <;> rw [h] <;> decide
    have hts : asdu.typeId ≠ C_TS_TA_1 := by rcases htype with h | h <;> rw [h] <;> decide
    simp [AsduBytes.Truncated, htype, hcs, hts]
  · simp only [Crowded, Option.mem_def, interrogation_eq_some, hrequest]
    constructor
    · rintro ⟨hcot, qualifier, hsome, slot, hslot, hfull⟩
      exact ⟨_, ⟨hcot, qualifier, hsome, rfl⟩, slot, hslot, hfull⟩
    · rintro ⟨_, ⟨hcot, qualifier, hsome, rfl⟩, slot, hslot, hfull⟩
      exact ⟨hcot, qualifier, hsome, slot, hslot, hfull⟩

theorem outcome_readCommand (x : Received n) (asdu : AsduBytes) :
    Outcome x asdu False False (x.readCommand asdu) := by
  rw [Received.readCommand]
  split_ifs
  · exact outcome_respond x asdu _
  · exact outcome_asdu x asdu
  · exact outcome_respond x asdu _

theorem outcome_clockCommand (x : Received n) (asdu : AsduBytes) (settable : UInt64 → Bool) :
    Outcome x asdu (asdu.getCot = .activation ∧ asdu.payload.length < 10) False
      (x.clockCommand asdu settable) := by
  rw [Received.clockCommand, ← getClock_eq_none]
  split
  · next hcot =>
    split
    · next hnone => simpa [hcot, hnone] using outcome_corrupted x asdu
    · next hsome =>
      split
      · simpa [hsome] using outcome_respond x asdu .unknownIoa
      · simpa [hsome] using outcome_clockSync x asdu settable _
  · next hcot => simpa [hcot] using outcome_respond x asdu .unknownCot

theorem outcome_resetCommand (x : Received n) (asdu : AsduBytes) :
    Outcome x asdu False False (x.resetCommand asdu) := by
  rw [Received.resetCommand]
  split_ifs
  · exact outcome_asdu x asdu
  · exact outcome_respond x asdu _

theorem outcome_delayCommand (x : Received n) (asdu : AsduBytes) :
    Outcome x asdu False False (x.delayCommand asdu) := by
  rw [Received.delayCommand]
  split_ifs
  · exact outcome_respond x asdu _
  · exact outcome_asdu x asdu
  · exact outcome_respond x asdu _

theorem outcome_testCommand (x : Received n) (asdu : AsduBytes) :
    Outcome x asdu (asdu.isBroadcast = false ∧ asdu.payload.length < 9) False
      (x.testCommand asdu) := by
  rw [Received.testCommand, ← getTest_eq_none]
  split
  · next hbroadcast => simpa [hbroadcast] using outcome_respond x asdu .unknownCa
  · next hbroadcast =>
    split
    · next hnone => simpa [hbroadcast, hnone] using outcome_corrupted x asdu
    · next hsome =>
      simp only [hsome, reduceCtorEq, and_false]
      split_ifs
      · exact outcome_respond x asdu _
      · exact outcome_respond x asdu _
      · exact outcome_of_once rfl (.inr ⟨rfl, _, rfl, .inr (.inl rfl)⟩)
          (echoes_direct (echoes_setCot ⟨rfl, rfl, rfl, Nat.le_max_left _ _⟩ _))

theorem outcome_dispatch (x : Received n) (asdu : AsduBytes) (settable : UInt64 → Bool) :
    Outcome x asdu asdu.Truncated (Crowded x asdu) (x.dispatch asdu settable) := by
  rw [Received.dispatch]
  by_cases hic : asdu.typeId = C_IC_NA_1
  · rw [if_neg fun h => absurd (hic.symm.trans h.1) (by decide), if_pos hic]
    have hne : C_IC_NA_1 ≠ C_CI_NA_1 := by decide
    exact outcome_request .interrogation (.inl hic) (fun _ _ => by simp [hic, hne])
      (interrogation_outcome x)
  by_cases hci : asdu.typeId = C_CI_NA_1
  · rw [if_neg fun h => absurd (hci.symm.trans h.1) (by decide), if_neg hic, if_pos hci]
    have hne : C_CI_NA_1 ≠ C_IC_NA_1 := by decide
    exact outcome_request .counterInterrogation (.inr hci) (fun _ _ => by simp [hci, hne])
      (counterInterrogation_outcome x)
  have hcrowded : False ↔ Crowded x asdu := iff_of_false id (not_crowded hic hci)
  rw [if_neg hic, if_neg hci]
  by_cases hts : asdu.typeId = C_TS_TA_1
  · have hne : asdu.typeId ≠ C_RD_NA_1 ∧ asdu.typeId ≠ C_CS_NA_1 ∧ asdu.typeId ≠ C_RP_NA_1 ∧
        asdu.typeId ≠ C_CD_NA_1 := by
      rw [hts]
      decide
    rw [if_neg hne.1, if_neg hne.2.1, if_neg hne.2.2.1, if_neg hne.2.2.2, if_pos hts]
    by_cases hcot : asdu.getCot = .activation
    · rw [if_neg fun h => h.2 hcot]
      refine Outcome.congr (outcome_testCommand x asdu) ?_ hcrowded
      simp [AsduBytes.Truncated, hts, hcot, C_IC_NA_1, C_CI_NA_1, C_CS_NA_1, C_TS_TA_1]
    · rw [if_pos ⟨hts, hcot⟩]
      refine Outcome.congr (outcome_respond x asdu _) ?_ hcrowded
      simp [AsduBytes.Truncated, hic, hci, hne.2.1, hcot]
  rw [if_neg fun h => hts h.1]
  by_cases hcs : asdu.typeId = C_CS_NA_1
  · rw [if_neg (by rw [hcs]; decide), if_pos hcs]
    refine Outcome.congr (outcome_clockCommand x asdu settable) ?_ hcrowded
    simp [AsduBytes.Truncated, hcs, C_IC_NA_1, C_CI_NA_1, C_CS_NA_1, C_TS_TA_1]
  have htruncated : False ↔ asdu.Truncated := by simp [AsduBytes.Truncated, hic, hci, hcs, hts]
  rw [if_neg hcs, if_neg hts]
  split_ifs
  · exact Outcome.congr (outcome_readCommand x asdu) htruncated hcrowded
  · exact Outcome.congr (outcome_resetCommand x asdu) htruncated hcrowded
  · exact Outcome.congr (outcome_delayCommand x asdu) htruncated hcrowded
  · exact Outcome.congr (outcome_asdu x asdu) htruncated hcrowded

end AsduDispatchLemmas

open AsduDispatchLemmas

theorem encode_createFromBuffer {bytes : List UInt8} {asdu : AsduBytes}
    (h : AsduBytes.createFromBuffer bytes = some asdu) : asdu.encode = bytes := by
  rw [AsduBytes.createFromBuffer.eq_def] at h
  split at h
  · cases h
    rfl
  · cases h

/-- Whatever bytes a master sends as an ASDU: if they are corrupted, nothing is done or answered,
and the connection is closed. Otherwise the ASDU is disposed of once: a worker gets a message, or
the connection gets one answer. The exception is an interrogation for a queue without room: this one
is confirmed and then refused. Answers have the type and the addresses of the request, and they fit
into a frame if the request did. -/
theorem asdu_disposed_once_iff (short : List UInt8 → ℚ) (settable : UInt64 → Bool) (x : Received n)
    (bytes : List UInt8) :
    ((handleBytes short settable x bytes).valid = false ↔
      ∀ asdu ∈ AsduBytes.createFromBuffer bytes, asdu.Truncated) ∧
    ((handleBytes short settable x bytes).valid = false →
      (handleBytes short settable x bytes).clients = x.clients ∧
        (handleBytes short settable x bytes).answers = []) ∧
    ∀ asdu ∈ AsduBytes.createFromBuffer bytes,
      ((handleBytes short settable x bytes).valid = true →
        (DispatchedOnce x.clients asdu (handleBytes short settable x bytes) ↔
          ¬ Crowded { x with asdu := asdu.received short } asdu)) ∧
      ∀ answer ∈ (handleBytes short settable x bytes).answers,
        asdu.Echoes answer ∧ answer.encode.length ≤ max bytes.length 16 := by
  rw [handleBytes]
  cases hasdu : AsduBytes.createFromBuffer bytes with
  | none =>
    refine ⟨iff_of_true rfl fun _ h => ?_, fun _ => ⟨rfl, rfl⟩, fun _ h => ?_⟩
    · cases h
    · cases h
  | some asdu =>
    have h := outcome_dispatch { x with asdu := asdu.received short } asdu settable
    simp only [Option.mem_some_iff, forall_eq']
    refine ⟨h.corrupted, h.silent, h.once, fun answer hanswer => ?_⟩
    have hechoes := h.echoes answer hanswer
    refine ⟨hechoes, ?_⟩
    rw [← encode_createFromBuffer hasdu]
    simp only [AsduBytes.encode, List.length_append, List.length_cons, List.length_nil]
    have := hechoes.payload
    omega

end

end Iec104Slave
