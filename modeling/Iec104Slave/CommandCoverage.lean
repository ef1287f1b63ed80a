import Mathlib.Data.Rat.Floor
import Mathlib.Tactic.Linarith
import Iec104Slave.RemoteAdjust
import Iec104Slave.RequestHandlers
import Iec104Slave.ScaledValue

/-!
# From a command ASDU to its response

A command ASDU carries up to 40 objects. `asdu_handler` copies what it reads from them into one
work message, the worker handles that message, and the response is built from it again. The
setpoint branch reads every object of the ASDU. The branch of the single and double commands
reads the first one, and the message has no place for more.

The objects are those of the library: the byte with the select flag and the qualifier and the
encoded value. A master reads the response with the getters that the slave reads the request
with.

Results:
1. `element_singleCommandCreate` and its companions: what is put into an object is read back.
2. `objects_sendSetpointResponse`: the response to a setpoint command has all its objects.
3. `command_elements_covered_iff`: when a command ASDU is covered as a whole or refused.
-/

namespace Iec104Slave

open LittleEndian

/-! ## Command objects of the library (`cs101_information_objects.c`) -/

/-- A `uint8_t encodedValue[2]`. -/
abbrev EncodedValue := { bytes : List UInt8 // bytes.length = 2 }

/-- What an object has besides its address. -/
inductive CommandBody
  | single (sco : UInt8)
  | double (dcq : UInt8)
  | normalized (encodedValue : EncodedValue) (qos : UInt8)
  | scaled (encodedValue : EncodedValue) (qos : UInt8)
  | short (value : ℚ) (qos : UInt8)

structure CommandObject where
  objectAddress : UInt32
  body : CommandBody

def CommandObject.typeId (io : CommandObject) : UInt8 :=
  match io.body with
  | .single _ => C_SC_NA_1
  | .double _ => C_DC_NA_1
  | .normalized .. => C_SE_NA_1
  | .scaled .. => C_SE_NB_1
  | .short .. => C_SE_NC_1

/-- The encoded size of an object of a type, without the address. -/
def commandSize (typeId : UInt8) : Nat :=
  if typeId = C_SC_NA_1 ∨ typeId = C_DC_NA_1 then 1
  else if typeId = C_SE_NC_1 then 5
  else 3

def encodeScaled (value : ℤ) : EncodedValue :=
  ⟨setScaledValue value, rfl⟩

def getScaledValue (encodedValue : EncodedValue) : ℤ :=
  let value : ℤ := decode encodedValue.1
  if value > 32767 then value - 65536 else value

/-- `NormalizedValue_toScaled`. The products and sums are exact in a `float`. -/
def normalizedToScaled (value : ℚ) : ℤ :=
  let value := if value > 32767 / 32768 then 32767 / 32768 else if value < -1 then -1 else value
  let scaledValue := value * 32768
  truncate (if scaledValue < 0 then scaledValue - 1 / 2 else scaledValue + 1 / 2)

/-- `NormalizedValue_fromScaled`. -/
def scaledToNormalized (value : ℤ) : ℚ :=
  let value := if value > 32767 then 32767 else if value < -32768 then -32768 else value
  value / 32768

/-- `SingleCommand_isSelect`, and the same for the other types. -/
def isSelect (qualifier : UInt8) : Bool :=
  qualifier &&& 0x80 == 0x80

/-- `SingleCommand_getQU` and `DoubleCommand_getQU`. -/
def commandGetQU (qualifier : UInt8) : Int32 :=
  Int32.ofNat ((qualifier &&& 0x7c) / 4).toNat

/-- `SetpointCommandNormalized_getQL`, and the same for the other setpoints. -/
def setpointGetQL (qos : UInt8) : Int32 :=
  Int32.ofNat (qos &&& 0x7f).toNat

/-- An object as its getters show it. -/
def CommandObject.element (io : CommandObject) : ReceivedElement :=
  match io.body with
  | .single sco =>
    ⟨io.objectAddress, isSelect sco, if sco &&& 0x01 == 0x01 then 1 else 0, 0, commandGetQU sco⟩
  | .double dcq => ⟨io.objectAddress, isSelect dcq, dcq &&& 0x03, 0, commandGetQU dcq⟩
  | .normalized encodedValue qos =>
    ⟨io.objectAddress, isSelect qos, 0, scaledToNormalized (getScaledValue encodedValue),
      setpointGetQL qos⟩
  | .scaled encodedValue qos =>
    ⟨io.objectAddress, isSelect qos, 0, getScaledValue encodedValue, setpointGetQL qos⟩
  | .short value qos => ⟨io.objectAddress, isSelect qos, 0, value, setpointGetQL qos⟩

/-- The select flag in the byte of the qualifier. -/
def withSelect (select : Bool) (qualifier : UInt8) : UInt8 :=
  if select then qualifier ||| 0x80 else qualifier

def singleCommandCreate (ioa : UInt32) (command select : Bool) (qu : Int32) : CommandObject :=
  let sco := ((qu &&& 0x1f) * 4).toUInt32.toUInt8
  ⟨ioa, .single (withSelect select (if command then sco ||| 0x01 else sco))⟩

def doubleCommandCreate (ioa : UInt32) (command : UInt8) (select : Bool) (qu : Int32) :
    CommandObject :=
  let dcq := ((qu &&& 0x1f) * 4).toUInt32.toUInt8
  ⟨ioa, .double (withSelect select (dcq + (command &&& 0x03)))⟩

def setpointCommandNormalizedCreate (ioa : UInt32) (value : ℚ) (select : Bool) (ql : Int32) :
    CommandObject :=
  ⟨ioa, .normalized (encodeScaled (normalizedToScaled value))
    (withSelect select ql.toUInt32.toUInt8)⟩

def setpointCommandScaledCreate (ioa : UInt32) (value : ℤ) (select : Bool) (ql : Int32) :
    CommandObject :=
  ⟨ioa, .scaled (encodeScaled value) (withSelect select ql.toUInt32.toUInt8)⟩

/-- Only this constructor masks the qualifier. -/
def setpointCommandShortCreate (ioa : UInt32) (value : ℚ) (select : Bool) (ql : Int32) :
    CommandObject :=
  ⟨ioa, .short value (withSelect select (ql &&& 0x7f).toUInt32.toUInt8)⟩

/-! ## Requests -/

/-- A command ASDU as it arrives. `objects` are those that are complete in the payload, however
many the qualifier announces. -/
structure CommandAsdu where
  typeId : UInt8
  cot : CauseOfTransmission
  ca : Int
  oa : UInt8
  numberOfElements : Nat
  objects : List CommandObject
  command : typeId ∈ [C_SC_NA_1, C_DC_NA_1, C_SE_NA_1, C_SE_NB_1, C_SE_NC_1]
  typed : ∀ io ∈ objects, io.typeId = typeId
  address : ∀ io ∈ objects, io.objectAddress.toNat < 2 ^ 24
  room : objects.length * (sizeOfIoa + commandSize typeId) ≤ maxSizeOfAsdu - asduHeaderLength

/-- The ASDU through `CS101_ASDU_getElement` and the getters. -/
def CommandAsdu.received (asdu : CommandAsdu) : ReceivedAsdu where
  typeId := asdu.typeId
  cot := asdu.cot
  ca := asdu.ca
  oa := asdu.oa
  numberOfElements := asdu.numberOfElements
  element := fun i => asdu.objects[i]?.map CommandObject.element
  payload := []

/-- The ASDU arrives on the connection of `x`. -/
def Received.receive {n : Nat} (x : Received n) (asdu : CommandAsdu) : Received n :=
  { x with asdu := asdu.received }

/-! ## Responses -/

/-- The `CS101_ASDU` of a response. -/
structure CommandResponse where
  cot : CauseOfTransmission
  oa : UInt8
  ca : Int
  negative : Bool
  typeId : UInt8
  objects : List CommandObject
  payloadSize : Nat

def CommandResponse.create (cot : CauseOfTransmission) (oa : UInt8) (ca : Int) (negative : Bool) :
    CommandResponse :=
  ⟨cot, oa, ca, negative, 0, [], 0⟩

/-- `InformationObject_encode`: three bytes of the address go out. Without room nothing does. -/
def CommandResponse.encode (response : CommandResponse) (io : CommandObject) : CommandResponse :=
  let size := sizeOfIoa + commandSize io.typeId
  if maxSizeOfAsdu - response.payloadSize - asduHeaderLength < size then response
  else
    { response with
      objects := response.objects ++ [{ io with objectAddress := io.objectAddress % 0x1000000 }]
      payloadSize := response.payloadSize + size }

/-- `CS101_ASDU_addInformationObject`, without its result, which both senders ignore. -/
def CommandResponse.addInformationObject (response : CommandResponse) (io : CommandObject) :
    CommandResponse :=
  match response.objects with
  | [] => { response with typeId := io.typeId }.encode io
  | _ :: _ =>
    if response.objects.length < 0x7f && response.typeId == io.typeId then response.encode io
    else response

def sendRemoteControlResponse (commonAddress : Int) (msg : Iec104WorkMsg)
    (cot : CauseOfTransmission) (negative : Bool) : CommandResponse :=
  (CommandResponse.create cot msg.oa commonAddress negative).addInformationObject
    (if msg.typeId = C_DC_NA_1 then
      doubleCommandCreate msg.ioa msg.commandState (msg.commandSelect != 0) msg.commandQualifier
    else
      singleCommandCreate msg.ioa (msg.commandState != 0) (msg.commandSelect != 0)
        msg.commandQualifier)

/-- The items of a setpoint message: without any, its own fields are the only one. -/
def Iec104WorkMsg.setpointItems (msg : Iec104WorkMsg) : List Iec104SetpointItem :=
  if msg.setpoints.length > 0 then msg.setpoints
  else [⟨msg.ioa, msg.setpointValue, msg.commandSelect, msg.commandQualifier⟩]

def setpointObject (typeId : UInt8) (item : Iec104SetpointItem) : CommandObject :=
  if typeId = C_SE_NA_1 then
    setpointCommandNormalizedCreate item.ioa item.value (item.select != 0) item.qualifier
  else if typeId = C_SE_NB_1 then
    setpointCommandScaledCreate item.ioa (truncate item.value) (item.select != 0) item.qualifier
  else setpointCommandShortCreate item.ioa item.value (item.select != 0) item.qualifier

def sendSetpointResponse (commonAddress : Int) (msg : Iec104WorkMsg)
    (cot : CauseOfTransmission) (negative : Bool) : CommandResponse :=
  msg.setpointItems.foldl
    (fun response item => response.addInformationObject (setpointObject msg.typeId item))
    (.create cot msg.oa commonAddress negative)

/-- The response that the handler of a message sends. -/
def commandResponse (commonAddress : Int) (msg : Iec104WorkMsg) (cot : CauseOfTransmission)
    (negative : Bool) : CommandResponse :=
  if msg.type = .remoteControl then sendRemoteControlResponse commonAddress msg cot negative
  else sendSetpointResponse commonAddress msg cot negative

/-! ## Coverage -/

/-- The elements that a work message carries. -/
def Iec104WorkMsg.commandElements (msg : Iec104WorkMsg) : List ReceivedElement :=
  if msg.type = .remoteControl then
    [⟨msg.ioa, msg.commandSelect != 0, msg.commandState, 0, msg.commandQualifier⟩]
  else
    msg.setpoints.map fun item => ⟨item.ioa, item.select != 0, 0, item.value, item.qualifier⟩

/-- What the handlers work with: the address, the state or value, and the select flag. -/
def Iec104WorkMsg.handledElements (msg : Iec104WorkMsg) : List (UInt32 × UInt8 × ℚ × Bool) :=
  if msg.type = .remoteControl then [(msg.ioa, msg.commandState, 0, msg.commandSelect != 0)]
  else
    (RemoteAdjustInput.items ⟨msg, 0, fun _ => true⟩).map fun item =>
      (item.1, 0, item.2, msg.commandSelect != 0)

/-- The message, its handling and its response cover the elements, in their order. -/
structure Covered (commonAddress : Int) (msg : Iec104WorkMsg) (elements : List ReceivedElement) :
    Prop where
  message : msg.commandElements = elements
  handling : msg.handledElements = elements.map fun e => (e.ioa, e.state, e.value, e.select)
  response : ∀ cot negative,
    (commandResponse commonAddress msg cot negative).objects.map CommandObject.element = elements

/-- The ASDU is queued as one message that covers all its elements, or there is one negative
reply. -/
def CoveredOrRefused {n : Nat} (x : Received n) : Prop :=
  (∃ slot msg elements,
    (List.range x.asdu.numberOfElements).mapM x.asdu.element = some elements ∧
    ((asduHandler x).clients slot).queued = msg :: (x.clients slot).queued ∧
    (∀ j, j ≠ slot → (asduHandler x).clients j = x.clients j) ∧
    (asduHandler x).negatives = 0 ∧ Covered x.commonAddress msg elements) ∨
  (asduHandler x).clients = x.clients ∧ (asduHandler x).negatives = 1

/-- A single or double command that gets as far as the queue of a slot and finds room there. -/
structure ControlQueued {n : Nat} (x : Received n) (asdu : CommandAsdu) (slot : Fin n) : Prop where
  control : asdu.typeId = C_SC_NA_1 ∨ asdu.typeId = C_DC_NA_1
  ca : asdu.ca = x.commonAddress
  found : getClientForConnection x.clients x.connection = some slot
  room : HasRoom (x.clients slot)
  cot : asdu.cot = .activation ∨ asdu.cot = .deactivation
  count : 0 < asdu.numberOfElements ∧ asdu.numberOfElements ≤ iec104MaxSetpointsPerAsdu
  readable : asdu.objects ≠ []

namespace CommandCoverageLemmas

open CustomWordsLemmas RequestHandlersLemmas ScaledValueLemmas

/-! ## What is put into an object is read back -/

/-- A property of all bytes, one by one. -/
theorem forall_byte {P : UInt8 → Prop} (h : ∀ b < 256, P (UInt8.ofNat b)) (b : UInt8) : P b := by
  have hb := h b.toNat b.toNat_lt
  rwa [UInt8.ofNat_toNat] at hb

theorem flag_ne_zero (b : Bool) : ((if b then 1 else 0 : UInt8) != 0) = b := by
  cases b <;> rfl

theorem element_singleCommandCreate (ioa : UInt32) (sco : UInt8) :
    (singleCommandCreate ioa (sco &&& 0x01 == 0x01) (isSelect sco) (commandGetQU sco)).element =
      (⟨ioa, .single sco⟩ : CommandObject).element := by
  have hread : ∀ sco, (singleCommandCreate 0 (sco &&& 0x01 == 0x01) (isSelect sco)
      (commandGetQU sco)).element = (⟨0, .single sco⟩ : CommandObject).element :=
    forall_byte (by decide +kernel)
  have h := hread sco
  simp only [CommandObject.element, singleCommandCreate, ReceivedElement.mk.injEq] at h ⊢
  exact h

theorem element_doubleCommandCreate (ioa : UInt32) (dcq : UInt8) :
    (doubleCommandCreate ioa (dcq &&& 0x03) (isSelect dcq) (commandGetQU dcq)).element =
      (⟨ioa, .double dcq⟩ : CommandObject).element := by
  have hread : ∀ dcq, (doubleCommandCreate 0 (dcq &&& 0x03) (isSelect dcq)
      (commandGetQU dcq)).element = (⟨0, .double dcq⟩ : CommandObject).element :=
    forall_byte (by decide +kernel)
  have h := hread dcq
  simp only [CommandObject.element, doubleCommandCreate, ReceivedElement.mk.injEq] at h ⊢
  exact h

theorem setpoint_qualifier (qos : UInt8) :
    withSelect (isSelect qos) (setpointGetQL qos).toUInt32.toUInt8 = qos ∧
      setpointGetQL qos &&& 0x7f = setpointGetQL qos :=
  forall_byte (P := fun qos =>
    withSelect (isSelect qos) (setpointGetQL qos).toUInt32.toUInt8 = qos ∧
      setpointGetQL qos &&& 0x7f = setpointGetQL qos) (by decide +kernel) qos

theorem decode_lt (encodedValue : EncodedValue) : decode encodedValue.1 < 65536 := by
  obtain ⟨bytes, hlength⟩ := encodedValue
  obtain ⟨low, high, rfl⟩ := List.length_eq_two.mp hlength
  have hlow := low.toNat_lt
  have hhigh := high.toNat_lt
  show low.toNat + 256 * (high.toNat + 256 * 0) < 65536
  omega

theorem getScaledValue_range (encodedValue : EncodedValue) :
    -32768 ≤ getScaledValue encodedValue ∧ getScaledValue encodedValue ≤ 32767 := by
  have hlt := decode_lt encodedValue
  unfold getScaledValue
  dsimp only
  split <;> omega

theorem getScaledValue_encodeScaled {value : ℤ} (h : -32768 ≤ value ∧ value ≤ 32767) :
    getScaledValue (encodeScaled value) = value := by
  have hencode : setScaledValue value = encode 2 (value % 2 ^ 16).toNat :=
    (setScaledValue_eq_iff value).mpr (.inl (by omega))
  have hdecode : decode (setScaledValue value) = (value % 2 ^ 16).toNat := by
    rw [hencode, decode_encode]
    omega
  unfold getScaledValue encodeScaled
  simp only [hdecode]
  split <;> omega

theorem truncate_of_nonneg {value : ℚ} (h : 0 ≤ value) : truncate value = ⌊value⌋ := by
  rw [Rat.floor_def', truncate, Int.tdiv_eq_ediv_of_nonneg (Rat.num_nonneg.mpr h)]

theorem truncate_neg (value : ℚ) : truncate (-value) = -truncate value := by
  rw [truncate, truncate, Rat.neg_num, Rat.neg_den, Int.neg_tdiv]

/-- Adding one half before the conversion rounds to the number itself. -/
theorem truncate_add_half {value : ℤ} (h : 0 ≤ value) : truncate (value + 1 / 2) = value := by
  have hnonneg : (0 : ℚ) ≤ value := by exact_mod_cast h
  rw [truncate_of_nonneg (by linarith), Int.floor_eq_iff]
  constructor <;> linarith

theorem normalizedToScaled_scaledToNormalized {value : ℤ} (h : -32768 ≤ value ∧ value ≤ 32767) :
    normalizedToScaled (scaledToNormalized value) = value := by
  have hlow : (-32768 : ℚ) ≤ value := by exact_mod_cast h.1
  have hhigh : (value : ℚ) ≤ 32767 := by exact_mod_cast h.2
  have hnormalized : scaledToNormalized value = value / 32768 := by
    unfold scaledToNormalized
    rw [if_neg (by omega), if_neg (by omega)]
  unfold normalizedToScaled
  rw [hnormalized, if_neg (by linarith), if_neg (by linarith)]
  have hscaled : (value : ℚ) / 32768 * 32768 = value := div_mul_cancel₀ _ (by norm_num)
  simp only [hscaled]
  split
  · next hneg =>
    have hnonneg : 0 ≤ -value := by
      have hlt : value < 0 := by exact_mod_cast hneg
      omega
    have hhalf : (value : ℚ) - 1 / 2 = -(((-value : ℤ) : ℚ) + 1 / 2) := by
      push_cast
      ring
    rw [hhalf, truncate_neg, truncate_add_half hnonneg, neg_neg]
  · next hnonneg => exact truncate_add_half (by exact_mod_cast not_lt.mp hnonneg)

/-- The object of the response to a setpoint reads as the object of the request. -/
theorem element_setpointObject (io : CommandObject)
    (hset : io.typeId ≠ C_SC_NA_1 ∧ io.typeId ≠ C_DC_NA_1) :
    (setpointObject io.typeId io.element.setpoint).element = io.element ∧
      (setpointObject io.typeId io.element.setpoint).typeId = io.typeId := by
  obtain ⟨ioa, body⟩ := io
  cases body with
  | single => exact absurd rfl hset.1
  | double => exact absurd rfl hset.2
  | normalized encodedValue qos =>
    have hrange := getScaledValue_range encodedValue
    refine ⟨?_, rfl⟩
    show (setpointCommandNormalizedCreate ioa (scaledToNormalized (getScaledValue encodedValue))
      ((if isSelect qos then 1 else 0 : UInt8) != 0) (setpointGetQL qos)).element = _
    simp only [flag_ne_zero, setpointCommandNormalizedCreate, CommandObject.element,
      (setpoint_qualifier qos).1, normalizedToScaled_scaledToNormalized hrange,
      getScaledValue_encodeScaled hrange]
  | scaled encodedValue qos =>
    refine ⟨?_, rfl⟩
    show (setpointCommandScaledCreate ioa (truncate (getScaledValue encodedValue))
      ((if isSelect qos then 1 else 0 : UInt8) != 0) (setpointGetQL qos)).element = _
    simp only [flag_ne_zero, setpointCommandScaledCreate, CommandObject.element,
      (setpoint_qualifier qos).1, truncate_intCast,
      getScaledValue_encodeScaled (getScaledValue_range encodedValue)]
  | short value qos =>
    refine ⟨?_, rfl⟩
    show (setpointCommandShortCreate ioa value ((if isSelect qos then 1 else 0 : UInt8) != 0)
      (setpointGetQL qos)).element = _
    simp only [flag_ne_zero, setpointCommandShortCreate, CommandObject.element,
      (setpoint_qualifier qos).1, (setpoint_qualifier qos).2]

theorem state_element (io : CommandObject)
    (hset : io.typeId ≠ C_SC_NA_1 ∧ io.typeId ≠ C_DC_NA_1) : io.element.state = 0 := by
  obtain ⟨ioa, body⟩ := io
  cases body with
  | single => exact absurd rfl hset.1
  | double => exact absurd rfl hset.2
  | normalized | scaled | short => rfl

theorem ioa_element (io : CommandObject) : io.element.ioa = io.objectAddress := by
  obtain ⟨ioa, body⟩ := io
  cases body <;> rfl

/-- The bodies of single and double commands. -/
theorem control_cases {io : CommandObject}
    (hcontrol : io.typeId = C_SC_NA_1 ∨ io.typeId = C_DC_NA_1) :
    (∃ ioa sco, io = ⟨ioa, .single sco⟩) ∨ ∃ ioa dcq, io = ⟨ioa, .double dcq⟩ := by
  obtain ⟨ioa, body⟩ := io
  cases body with
  | single sco => exact .inl ⟨ioa, sco, rfl⟩
  | double dcq => exact .inr ⟨ioa, dcq, rfl⟩
  | normalized =>
    exact absurd hcontrol (show ¬(C_SE_NA_1 = C_SC_NA_1 ∨ C_SE_NA_1 = C_DC_NA_1) by decide)
  | scaled =>
    exact absurd hcontrol (show ¬(C_SE_NB_1 = C_SC_NA_1 ∨ C_SE_NB_1 = C_DC_NA_1) by decide)
  | short =>
    exact absurd hcontrol (show ¬(C_SE_NC_1 = C_SC_NA_1 ∨ C_SE_NC_1 = C_DC_NA_1) by decide)

theorem value_element {io : CommandObject}
    (hcontrol : io.typeId = C_SC_NA_1 ∨ io.typeId = C_DC_NA_1) : io.element.value = 0 := by
  obtain ⟨ioa, sco, rfl⟩ | ⟨ioa, dcq, rfl⟩ := control_cases hcontrol
  · rfl
  · rfl

/-- The state of a single command is 0 or 1 already. -/
theorem state_message (io : CommandObject) :
    (if io.typeId = C_SC_NA_1 then (if io.element.state ≠ 0 then 1 else 0)
      else io.element.state) = io.element.state := by
  obtain ⟨ioa, body⟩ := io
  cases body with
  | single sco =>
    have hbit : ∀ b : Bool, (if (if b then 1 else 0 : UInt8) ≠ 0 then 1 else 0 : UInt8) =
        if b then 1 else 0 := by decide
    exact hbit (sco &&& 0x01 == 0x01)
  | double | normalized | scaled | short => rfl

/-- The object of the response to a control command reads as the object of the request. -/
theorem element_controlObject {io : CommandObject}
    (hcontrol : io.typeId = C_SC_NA_1 ∨ io.typeId = C_DC_NA_1) :
    (if io.typeId = C_DC_NA_1 then
      doubleCommandCreate io.element.ioa io.element.state io.element.select io.element.qualifier
    else
      singleCommandCreate io.element.ioa (io.element.state != 0) io.element.select
        io.element.qualifier).element = io.element := by
  obtain ⟨ioa, sco, rfl⟩ | ⟨ioa, dcq, rfl⟩ := control_cases hcontrol
  · show (singleCommandCreate ioa ((if sco &&& 0x01 == 0x01 then 1 else 0 : UInt8) != 0)
      (isSelect sco) (commandGetQU sco)).element = _
    rw [flag_ne_zero]
    exact element_singleCommandCreate ioa sco
  · exact element_doubleCommandCreate ioa dcq

/-! ## Building a response -/

theorem commandSize_range (typeId : UInt8) : 1 ≤ commandSize typeId ∧ commandSize typeId ≤ 5 := by
  unfold commandSize
  split
  · decide
  · split <;> decide

/-- An object with an address of three bytes goes out as it is. -/
theorem encode_fits (response : CommandResponse) {io : CommandObject}
    (haddress : io.objectAddress.toNat < 2 ^ 24)
    (hroom : response.payloadSize + (sizeOfIoa + commandSize io.typeId) ≤
      maxSizeOfAsdu - asduHeaderLength) :
    response.encode io = { response with
      objects := response.objects ++ [io]
      payloadSize := response.payloadSize + (sizeOfIoa + commandSize io.typeId) } := by
  have hline : io.objectAddress % 0x1000000 = io.objectAddress := by
    apply UInt32.toNat_inj.mp
    rw [UInt32.toNat_mod]
    exact Nat.mod_eq_of_lt haddress
  unfold CommandResponse.encode
  rw [if_neg (by omega), hline]

/-- Objects of one type are taken one after the other, while there is room. -/
theorem objects_foldl {t : UInt8} {ios : List CommandObject} (response : CommandResponse)
    (htype : response.objects = [] ∨ response.typeId = t)
    (hios : ∀ io ∈ ios, io.typeId = t ∧ io.objectAddress.toNat < 2 ^ 24)
    (hcount : response.objects.length + ios.length ≤ 127)
    (hroom : response.payloadSize + ios.length * (sizeOfIoa + commandSize t) ≤
      maxSizeOfAsdu - asduHeaderLength) :
    (ios.foldl CommandResponse.addInformationObject response).objects =
      response.objects ++ ios := by
  induction ios generalizing response with
  | nil => exact (List.append_nil _).symm
  | cons io ios ih =>
    obtain ⟨ht, haddress⟩ := hios io List.mem_cons_self
    rw [List.length_cons] at hcount
    rw [List.length_cons, Nat.add_one_mul] at hroom
    have hsize : response.payloadSize + (sizeOfIoa + commandSize io.typeId) ≤
        maxSizeOfAsdu - asduHeaderLength := by
      rw [ht]
      omega
    have hadd : response.addInformationObject io = { response with
        typeId := t
        objects := response.objects ++ [io]
        payloadSize := response.payloadSize + (sizeOfIoa + commandSize t) } := by
      unfold CommandResponse.addInformationObject
      split
      · have hfits := encode_fits { response with typeId := io.typeId } haddress hsize
        rw [hfits, ht]
      · next hcons =>
        have htype' : response.typeId = t := htype.resolve_left (by simp [hcons])
        rw [if_pos (by simp [htype', ht]; omega), encode_fits response haddress hsize, ht, ← htype']
    rw [List.foldl_cons, hadd, ih _ (.inr rfl) fun io hio => hios io (List.mem_cons_of_mem _ hio)]
    · exact List.append_assoc ..
    · rw [List.length_append, List.length_singleton]
      omega
    · show response.payloadSize + (sizeOfIoa + commandSize t) + _ ≤ _
      omega

/-! ## Reading the elements -/

theorem mapM_some {α β : Type} {f : α → Option β} {l : List α} {r : List β}
    (h : l.mapM f = some r) : l.map f = r.map some := by
  induction l generalizing r with
  | nil =>
    rw [List.mapM_nil] at h
    cases h
    rfl
  | cons a l ih =>
    rw [List.mapM_cons] at h
    cases ha : f a with
    | none =>
      rw [ha] at h
      cases h
    | some b =>
      cases hl : l.mapM f with
      | none =>
        rw [ha, hl] at h
        cases h
      | some bs =>
        rw [ha, hl] at h
        cases h
        rw [List.map_cons, ha, ih hl, List.map_cons]

/-- The elements of an ASDU are its first objects. -/
theorem elements_eq {asdu : CommandAsdu} {elements : List ReceivedElement}
    (h : (List.range asdu.numberOfElements).mapM asdu.received.element = some elements) :
    elements = (asdu.objects.take asdu.numberOfElements).map CommandObject.element ∧
      elements.length = asdu.numberOfElements := by
  have hmap := mapM_some h
  have hlength : elements.length = asdu.numberOfElements := by
    have hlengths := congrArg List.length hmap
    rw [List.length_map, List.length_map, List.length_range] at hlengths
    exact hlengths.symm
  refine ⟨List.ext_getElem? fun i => ?_, hlength⟩
  have hi := congrArg (fun l => l[i]?) hmap
  simp only [List.getElem?_map] at hi
  rcases Nat.lt_or_ge i asdu.numberOfElements with hlt | hge
  · rw [List.getElem?_range hlt, List.getElem?_eq_getElem (hlength ▸ hlt)] at hi
    rw [List.getElem?_eq_getElem (hlength ▸ hlt), List.getElem?_map, List.getElem?_take_of_lt hlt]
    exact (Option.some.inj hi).symm
  · rw [List.getElem?_eq_none (hlength ▸ hge), List.getElem?_map,
      List.getElem?_eq_none ((List.length_take_le _ _).trans hge), Option.map_none]

/-! ## The two branches -/

variable {n : Nat} {x : Received n} {asdu : CommandAsdu} {msg : Iec104WorkMsg}

/-- The message of a single or double command: the first object and nothing else. -/
theorem controlMsg_ok (hmsg : (x.receive asdu).controlMsg = .ok msg) :
    ∃ io, asdu.objects[0]? = some io ∧ msg.type = .remoteControl ∧ msg.typeId = asdu.typeId ∧
      msg.ioa = io.element.ioa ∧ msg.commandSelect = (if io.element.select then 1 else 0) ∧
      msg.commandState = (if asdu.typeId = C_SC_NA_1 then (if io.element.state ≠ 0 then 1 else 0)
        else io.element.state) ∧
      msg.commandQualifier = io.element.qualifier := by
  unfold Received.controlMsg at hmsg
  split at hmsg
  · cases hmsg
  · next e he =>
    obtain ⟨io, hio, rfl⟩ := Option.map_eq_some_iff.mp he
    cases hmsg
    exact ⟨io, hio, rfl, rfl, rfl, rfl, rfl, rfl⟩

/-- The object of the response to a control command. -/
theorem objects_sendRemoteControlResponse {io : CommandObject}
    (haddress : msg.ioa.toNat < 2 ^ 24) (commonAddress : Int) (cot : CauseOfTransmission)
    (negative : Bool)
    (hio : io = if msg.typeId = C_DC_NA_1 then
      doubleCommandCreate msg.ioa msg.commandState (msg.commandSelect != 0) msg.commandQualifier
    else
      singleCommandCreate msg.ioa (msg.commandState != 0) (msg.commandSelect != 0)
        msg.commandQualifier) :
    (sendRemoteControlResponse commonAddress msg cot negative).objects = [io] := by
  have hioa : io.objectAddress = msg.ioa := by
    rw [hio]
    split <;> rfl
  have hsize : 0 + 1 * (sizeOfIoa + commandSize io.typeId) ≤ maxSizeOfAsdu - asduHeaderLength := by
    rw [Nat.zero_add, Nat.one_mul]
    exact (Nat.add_le_add_left (commandSize_range io.typeId).2 sizeOfIoa).trans (by decide)
  unfold sendRemoteControlResponse
  rw [← hio]
  have hone : ∀ io' ∈ [io], io'.typeId = io.typeId ∧ io'.objectAddress.toNat < 2 ^ 24 := by
    intro io' hio'
    rw [List.mem_singleton.mp hio', hioa]
    exact ⟨rfl, haddress⟩
  exact objects_foldl (.create cot msg.oa commonAddress negative) (.inl rfl) hone
    (Nat.le_of_ble_eq_true rfl) hsize

/-- The message of a control command with one object covers the ASDU. -/
theorem covered_control (hcontrol : asdu.typeId = C_SC_NA_1 ∨ asdu.typeId = C_DC_NA_1)
    (hone : asdu.numberOfElements = 1)
    (hmsg : (x.receive asdu).controlMsg = .ok msg) :
    ∃ elements, (List.range asdu.numberOfElements).mapM asdu.received.element = some elements ∧
      Covered x.commonAddress msg elements := by
  obtain ⟨io, hio, hkind, htypeId, hioa, hselect, hstate, hqualifier⟩ := controlMsg_ok hmsg
  have htype : io.typeId = asdu.typeId := asdu.typed io (List.mem_of_getElem? hio)
  have haddress := asdu.address io (List.mem_of_getElem? hio)
  have hread : (List.range asdu.numberOfElements).mapM asdu.received.element =
      some [io.element] := by
    rw [hone]
    show (do let e ← asdu.objects[0]?.map CommandObject.element; pure [e]) = _
    rw [hio]
    rfl
  have hflag : (msg.commandSelect != 0) = io.element.select := by rw [hselect, flag_ne_zero]
  have hstate' : msg.commandState = io.element.state := by
    rw [hstate, ← htype, state_message]
  have hvalue := value_element (htype ▸ hcontrol)
  refine ⟨[io.element], hread, ?_, ?_, fun cot negative => ?_⟩
  · unfold Iec104WorkMsg.commandElements
    rw [if_pos hkind, hflag, hioa, hstate', hqualifier, ← hvalue]
  · unfold Iec104WorkMsg.handledElements
    rw [if_pos hkind, hflag, hioa, hstate', ← hvalue]
    rfl
  · unfold commandResponse
    have hbound : msg.ioa.toNat < 2 ^ 24 := by
      rw [hioa, ioa_element]
      exact haddress
    rw [if_pos hkind, objects_sendRemoteControlResponse hbound _ _ _ rfl, hflag, hioa, hstate',
      hqualifier, htypeId, ← htype, List.map_singleton, element_controlObject (htype ▸ hcontrol)]

theorem objectAddress_setpointObject (typeId : UInt8) (item : Iec104SetpointItem) :
    (setpointObject typeId item).objectAddress = item.ioa := by
  unfold setpointObject
  split
  · rfl
  · split <;> rfl

/-- An ASDU has room for at most 60 objects. -/
theorem length_objects_le (asdu : CommandAsdu) : asdu.objects.length ≤ 60 := by
  have hsize : sizeOfIoa + 1 ≤ sizeOfIoa + commandSize asdu.typeId :=
    Nat.add_le_add_left (commandSize_range asdu.typeId).1 sizeOfIoa
  have hroom : asdu.objects.length * 4 ≤ maxSizeOfAsdu - asduHeaderLength :=
    (Nat.mul_le_mul_left _ hsize).trans asdu.room
  rw [show maxSizeOfAsdu - asduHeaderLength = 243 from rfl] at hroom
  omega

/-- The response to all setpoints of an ASDU has them all. -/
theorem objects_sendSetpointResponse {ios : List CommandObject}
    (hset : asdu.typeId ≠ C_SC_NA_1 ∧ asdu.typeId ≠ C_DC_NA_1) (hios : ios.Sublist asdu.objects)
    (hne : ios ≠ []) (htype : msg.typeId = asdu.typeId)
    (hmsg : msg.setpoints = ios.map fun io => io.element.setpoint) (commonAddress : Int)
    (cot : CauseOfTransmission) (negative : Bool) :
    (sendSetpointResponse commonAddress msg cot negative).objects.map CommandObject.element =
      ios.map CommandObject.element := by
  have hpositive : msg.setpoints.length > 0 := by
    rw [hmsg, List.length_map]
    exact List.length_pos_iff.mpr hne
  have hobject : ∀ io ∈ ios,
      (setpointObject asdu.typeId io.element.setpoint).element = io.element ∧
        (setpointObject asdu.typeId io.element.setpoint).typeId = asdu.typeId := by
    intro io hio
    have ht := asdu.typed io (hios.subset hio)
    rw [← ht]
    exact element_setpointObject io (ht ▸ hset)
  have hlength := hios.length_le
  have hroom := (Nat.mul_le_mul_right (sizeOfIoa + commandSize asdu.typeId) hlength).trans asdu.room
  have hsixty := length_objects_le asdu
  have hfold : sendSetpointResponse commonAddress msg cot negative =
      (ios.map fun io => setpointObject asdu.typeId io.element.setpoint).foldl
        CommandResponse.addInformationObject (.create cot msg.oa commonAddress negative) := by
    unfold sendSetpointResponse Iec104WorkMsg.setpointItems
    rw [if_pos hpositive, htype, hmsg, List.foldl_map, List.foldl_map]
  have hobjects : (sendSetpointResponse commonAddress msg cot negative).objects =
      ios.map fun io => setpointObject asdu.typeId io.element.setpoint := by
    rw [hfold]
    refine (objects_foldl (t := asdu.typeId) _ (.inl rfl) ?_ ?_ ?_).trans (List.nil_append _)
    · intro io' hio'
      obtain ⟨io, hio, rfl⟩ := List.mem_map.mp hio'
      refine ⟨(hobject io hio).2, ?_⟩
      rw [objectAddress_setpointObject, show io.element.setpoint.ioa = _ from ioa_element io]
      exact asdu.address io (hios.subset hio)
    · rw [List.length_map, show (CommandResponse.create cot msg.oa commonAddress
        negative).objects.length = 0 from rfl]
      omega
    · rw [List.length_map, show (CommandResponse.create cot msg.oa commonAddress
        negative).payloadSize = 0 from rfl, Nat.zero_add]
      exact hroom
  rw [hobjects, List.map_map]
  exact List.map_congr_left fun io hio => (hobject io hio).1

/-- The message of a setpoint command: all elements, with one select flag. -/
theorem adjustMsg_ok (hmsg : (x.receive asdu).adjustMsg = .ok msg) :
    ∃ elements, (List.range asdu.numberOfElements).mapM asdu.received.element = some elements ∧
      elements ≠ [] ∧ msg.type = .remoteAdjust ∧ msg.typeId = asdu.typeId ∧
      msg.setpoints = elements.map ReceivedElement.setpoint ∧
      ∀ e ∈ elements, (msg.commandSelect != 0) = e.select := by
  unfold Received.adjustMsg at hmsg
  split at hmsg
  · next first rest hread =>
    split at hmsg
    · cases hmsg
    · next hsame =>
      cases hmsg
      refine ⟨first :: rest, hread, List.cons_ne_nil _ _, rfl, rfl, rfl, fun e he => ?_⟩
      have hselect : e.setpoint.select = first.setpoint.select := by
        rcases List.mem_cons.mp he with rfl | hrest
        · rfl
        · have hall := List.any_eq_false.mp (Bool.eq_false_iff.mpr hsame) e hrest
          simpa using hall
      show (first.setpoint.select != 0) = e.select
      rw [← hselect]
      exact flag_ne_zero e.select
  · cases hmsg

/-- The message of a setpoint command covers the ASDU. -/
theorem covered_adjust (hset : asdu.typeId ≠ C_SC_NA_1 ∧ asdu.typeId ≠ C_DC_NA_1)
    (hmsg : (x.receive asdu).adjustMsg = .ok msg) :
    ∃ elements, (List.range asdu.numberOfElements).mapM asdu.received.element = some elements ∧
      Covered x.commonAddress msg elements := by
  obtain ⟨elements, hread, hne, hkind, htypeId, hsetpoints, hselect⟩ := adjustMsg_ok hmsg
  have hcontrol : msg.type ≠ .remoteControl := by
    rw [hkind]
    decide
  have hstate : ∀ e ∈ elements, e.state = 0 := by
    rw [(elements_eq hread).1]
    intro e he
    obtain ⟨io, hio, rfl⟩ := List.mem_map.mp he
    exact state_element io (asdu.typed io (List.mem_of_mem_take hio) ▸ hset)
  refine ⟨elements, hread, ?_, ?_, fun cot negative => ?_⟩
  · unfold Iec104WorkMsg.commandElements
    rw [if_neg hcontrol, hsetpoints, List.map_map]
    refine (List.map_congr_left fun e he => ?_).trans (List.map_id _)
    show (⟨e.ioa, (if e.select then 1 else 0 : UInt8) != 0, 0, e.value, e.qualifier⟩ :
      ReceivedElement) = e
    rw [flag_ne_zero, ← hstate e he]
  · have hpositive : msg.setpoints.length > 0 := by
      rw [hsetpoints, List.length_map]
      exact List.length_pos_iff.mpr hne
    unfold Iec104WorkMsg.handledElements RemoteAdjustInput.items
    rw [if_neg hcontrol, if_pos hpositive, hsetpoints, List.map_map, List.map_map]
    refine List.map_congr_left fun e he => ?_
    show (e.ioa, (0 : UInt8), e.value, msg.commandSelect != 0) = _
    rw [hselect e he, hstate e he]
  · have helements := (elements_eq hread).1
    have hobjects : asdu.objects.take asdu.numberOfElements ≠ [] := fun hnil => hne (by
      rw [helements, hnil]
      rfl)
    unfold commandResponse
    rw [if_neg hcontrol, objects_sendSetpointResponse hset (List.take_sublist _ _) hobjects htypeId
      (by rw [hsetpoints, helements, List.map_map]; rfl), ← helements]

/-! ## The handler -/

/-- The message of a command, by its type. -/
def commandMsg (x : Received n) : Except CauseOfTransmission Iec104WorkMsg :=
  if x.asdu.typeId = C_SC_NA_1 ∨ x.asdu.typeId = C_DC_NA_1 then x.controlMsg else x.adjustMsg

/-- Refused with one negative reply. -/
def RefusedOnce (x : Received n) (result : HandlerResult n) : Prop :=
  result.clients = x.clients ∧ result.negatives = 1

/-- What it takes for a command to be queued. -/
structure Accepted (x : Received n) (slot : Fin n) (msg : Iec104WorkMsg) : Prop where
  room : HasRoom (x.clients slot)
  cot : x.asdu.cot = .activation ∨ x.asdu.cot = .deactivation
  count : 0 < x.asdu.numberOfElements ∧ x.asdu.numberOfElements ≤ iec104MaxSetpointsPerAsdu
  message : commandMsg x = .ok msg

theorem commandMsg_type (h : commandMsg x = .ok msg) : msg.type ≠ .activeUpload := by
  unfold commandMsg at h
  split at h
  · rw [controlMsg_type h]
    decide
  · rw [adjustMsg_type h]
    decide

theorem refused_post {slot : Fin n} (hfull : ¬HasRoom (x.clients slot))
    (h : commandMsg x = .ok msg) : RefusedOnce x (x.post slot msg) := by
  unfold Received.post
  rw [post_full hfull (commandMsg_type h)]
  exact ⟨Function.update_eq_self _ _, rfl⟩

theorem command_accepted {slot : Fin n} (h : Accepted x slot msg) :
    x.command slot = x.post slot msg := by
  have hcot : ¬(x.asdu.cot ≠ .activation ∧ x.asdu.cot ≠ .deactivation) :=
    fun hne => h.cot.elim hne.1 hne.2
  have hcount : ¬(x.asdu.numberOfElements = 0 ∨
      iec104MaxSetpointsPerAsdu < x.asdu.numberOfElements) :=
    fun hor => hor.elim (Nat.ne_of_gt h.count.1) (Nat.not_lt.mpr h.count.2)
  have hmsg : (if x.asdu.typeId = C_SC_NA_1 ∨ x.asdu.typeId = C_DC_NA_1 then x.controlMsg
      else x.adjustMsg) = .ok msg := h.message
  unfold Received.command
  rw [if_neg hcot, if_neg hcount, hmsg]

/-- A command is refused with one negative reply, or it is accepted. -/
theorem command_outcome (x : Received n) (slot : Fin n) :
    RefusedOnce x (x.command slot) ∨ ∃ msg, Accepted x slot msg := by
  unfold Received.command
  split
  · exact .inl ⟨rfl, rfl⟩
  · next hcot =>
    split
    · exact .inl ⟨rfl, rfl⟩
    · next hcount =>
      split
      · exact .inl ⟨rfl, rfl⟩
      · next msg hmsg =>
        rcases Classical.em (HasRoom (x.clients slot)) with hroom | hfull
        · refine .inr ⟨msg, hroom, ?_, ?_, hmsg⟩
          · rcases Classical.em (x.asdu.cot = .activation) with h | h
            · exact .inl h
            · exact .inr (not_not.mp fun h' => hcot ⟨h, h'⟩)
          · omega
        · exact .inl (refused_post hfull hmsg)

theorem asduHandler_command {slot : Fin n} (hca : asdu.ca = x.commonAddress)
    (hfound : getClientForConnection x.clients x.connection = some slot) :
    asduHandler (x.receive asdu) = (x.receive asdu).command slot := by
  have hca' : ¬(x.receive asdu).asdu.ca ≠ (x.receive asdu).commonAddress := not_not.mpr hca
  have hslot : getClientForConnection (x.receive asdu).clients (x.receive asdu).connection =
      some slot := hfound
  unfold asduHandler
  rw [if_neg hca', hslot]
  exact if_pos asdu.command

/-- A command ASDU is refused, or it is for a slot. -/
theorem asduHandler_outcome (x : Received n) (asdu : CommandAsdu) :
    RefusedOnce x (asduHandler (x.receive asdu)) ∨
      ∃ slot, asdu.ca = x.commonAddress ∧
        getClientForConnection x.clients x.connection = some slot := by
  unfold asduHandler
  split
  · exact .inl ⟨rfl, rfl⟩
  · next hca =>
    split
    · exact .inl ⟨rfl, rfl⟩
    · next slot hslot => exact .inr ⟨slot, not_not.mp hca, hslot⟩

/-- What an accepted message does to the slots. -/
theorem post_accepted {slot : Fin n} (h : Accepted x slot msg) :
    ((x.post slot msg).clients slot).queued = msg :: (x.clients slot).queued ∧
      (∀ j, j ≠ slot → (x.post slot msg).clients j = x.clients j) ∧
      (x.post slot msg).negatives = 0 := by
  obtain ⟨hresult, hqueued⟩ := post_room (x.rings slot) h.room msg
  refine ⟨?_, fun j hj => Function.update_of_ne hj _ _, ?_⟩
  · show (Function.update x.clients slot _ slot).queued = _
    rw [Function.update_self]
    exact hqueued
  · simp [Received.post, HandlerResult.negatives, hresult]

/-- An accepted control command is one that `ControlQueued` describes. -/
theorem controlQueued_of_accepted {slot : Fin n}
    (h : Accepted (x.receive asdu) slot msg) (hca : asdu.ca = x.commonAddress)
    (hfound : getClientForConnection x.clients x.connection = some slot)
    (hcontrol : asdu.typeId = C_SC_NA_1 ∨ asdu.typeId = C_DC_NA_1) :
    ControlQueued x asdu slot := by
  have hmsg : (x.receive asdu).controlMsg = .ok msg :=
    (if_pos hcontrol).symm.trans h.message
  obtain ⟨io, hio, _⟩ := controlMsg_ok hmsg
  refine ⟨hcontrol, hca, hfound, h.room, h.cot, h.count, fun hnil => ?_⟩
  rw [hnil] at hio
  cases hio

theorem accepted_of_controlQueued {slot : Fin n} (h : ControlQueued x asdu slot) :
    ∃ msg, Accepted (x.receive asdu) slot msg ∧ msg.type = .remoteControl := by
  obtain ⟨io, ios, hobjects⟩ := List.exists_cons_of_ne_nil h.readable
  obtain ⟨msg, hmsg⟩ : ∃ msg, (x.receive asdu).controlMsg = .ok msg := by
    have hfirst : (x.receive asdu).asdu.element 0 = some io.element := by
      show asdu.objects[0]?.map CommandObject.element = _
      rw [hobjects]
      rfl
    unfold Received.controlMsg
    rw [hfirst]
    exact ⟨_, rfl⟩
  exact ⟨msg, ⟨h.room, h.cot, h.count, (if_pos h.control).trans hmsg⟩, controlMsg_type hmsg⟩

/-- An accepted message covers the ASDU, if a control command has one object. -/
theorem covered_of_accepted {slot : Fin n}
    (h : Accepted (x.receive asdu) slot msg)
    (hone : asdu.typeId = C_SC_NA_1 ∨ asdu.typeId = C_DC_NA_1 → asdu.numberOfElements = 1) :
    ∃ elements, (List.range asdu.numberOfElements).mapM asdu.received.element = some elements ∧
      Covered x.commonAddress msg elements := by
  rcases Classical.em (asdu.typeId = C_SC_NA_1 ∨ asdu.typeId = C_DC_NA_1) with hcontrol | hset
  · exact covered_control hcontrol (hone hcontrol) ((if_pos hcontrol).symm.trans h.message)
  · exact covered_adjust (not_or.mp hset) ((if_neg hset).symm.trans h.message)

/-- A control message that covers an ASDU covers one element. -/
theorem count_of_covered {commonAddress : Int} {elements : List ReceivedElement}
    (hcovered : Covered commonAddress msg elements) (hkind : msg.type = .remoteControl)
    (hread : (List.range asdu.numberOfElements).mapM asdu.received.element = some elements) :
    asdu.numberOfElements = 1 := by
  have hmessage := hcovered.message
  unfold Iec104WorkMsg.commandElements at hmessage
  rw [if_pos hkind] at hmessage
  rw [← (elements_eq hread).2, ← hmessage, List.length_singleton]

/-- A control command that is covered or refused has one object. -/
theorem count_of_coveredOrRefused {slot : Fin n} (h : CoveredOrRefused (x.receive asdu))
    (hqueued : ControlQueued x asdu slot) : asdu.numberOfElements = 1 := by
  obtain ⟨msg, haccepted, hkind⟩ := accepted_of_controlQueued hqueued
  have hhandler : asduHandler (x.receive asdu) = (x.receive asdu).post slot msg :=
    (asduHandler_command hqueued.ca hqueued.found).trans (command_accepted haccepted)
  obtain ⟨hqueue, hothers, hnegatives⟩ := post_accepted haccepted
  rw [← hhandler] at hqueue hothers hnegatives
  rcases h with ⟨slot', msg', elements, hread, hqueue', _, _, hcovered⟩ | ⟨_, hone⟩
  · have hslot : slot' = slot := by
      refine not_not.mp fun hne => ?_
      rw [hothers slot' hne] at hqueue'
      exact List.cons_ne_self _ _ hqueue'.symm
    subst hslot
    have hmsg : msg' = msg := List.head_eq_of_cons_eq (hqueue'.symm.trans hqueue)
    exact count_of_covered hcovered (hmsg ▸ hkind) hread
  · rw [hnegatives] at hone
    exact absurd hone Nat.zero_ne_one

end CommandCoverageLemmas

open CommandCoverageLemmas

/-- A command ASDU is covered as a whole or refused, unless it is a single or double command
with several objects that reaches a queue with room: then all but the first are lost. -/
theorem command_elements_covered_iff {n : Nat} (x : Received n) (asdu : CommandAsdu) :
    CoveredOrRefused (x.receive asdu) ↔
      ∀ slot, ControlQueued x asdu slot → asdu.numberOfElements = 1 := by
  constructor
  · intro h slot hqueued
    exact count_of_coveredOrRefused h hqueued
  · intro hone
    rcases asduHandler_outcome x asdu with hrefused | ⟨slot, hca, hfound⟩
    · exact .inr hrefused
    have hcommand : asduHandler (x.receive asdu) = (x.receive asdu).command slot :=
      asduHandler_command hca hfound
    rcases command_outcome (x.receive asdu) slot with hrefused | ⟨msg, haccepted⟩
    · exact .inr (hcommand ▸ hrefused)
    · obtain ⟨hqueue, hothers, hnegatives⟩ := post_accepted haccepted
      rw [← command_accepted haccepted, ← hcommand] at hqueue hothers hnegatives
      obtain ⟨elements, hread, hcovered⟩ := covered_of_accepted haccepted fun hcontrol =>
        hone slot (controlQueued_of_accepted haccepted hca hfound hcontrol)
      exact .inl ⟨slot, msg, elements, hread, hqueue, hothers, hnegatives, hcovered⟩

/-- Two single commands in one ASDU: point 0x6001 on, point 0x6002 on. -/
def twoCommands : CommandAsdu where
  typeId := C_SC_NA_1
  cot := .activation
  ca := 1
  oa := 0
  numberOfElements := 2
  objects := [singleCommandCreate 0x6001 true false 0, singleCommandCreate 0x6002 true false 0]
  command := by decide
  typed := by
    intro io hio
    rcases List.mem_cons.mp hio with rfl | hrest
    · rfl
    · rw [List.mem_singleton.mp hrest]
      rfl
  address := by
    intro io hio
    rcases List.mem_cons.mp hio with rfl | hrest
    · decide
    · rw [List.mem_singleton.mp hrest]
      decide
  room := by decide

/-- A slave whose only slot has an empty queue. -/
def idleSlave : Received 1 := stationCall .activation 0 (Nat.zero_le _)

theorem twoCommands_queued : ControlQueued idleSlave twoCommands 0 where
  control := .inl rfl
  ca := rfl
  found := rfl
  room := by simp [HasRoom, idleSlave, stationCall, callingSlot, ClientContext.queueCapacity,
    clientQueueCapacity]
  cot := .inl rfl
  count := by decide
  readable := List.cons_ne_nil _ _

/-- The second command is dropped: the queue gets one message with the first one, and there is
no negative reply. -/
theorem second_command_dropped :
    (∃ msg, ((asduHandler (idleSlave.receive twoCommands)).clients 0).queued = [msg] ∧
      msg.commandElements = [⟨0x6001, false, 1, 0, 0⟩]) ∧
    (asduHandler (idleSlave.receive twoCommands)).negatives = 0 ∧
    ¬CoveredOrRefused (idleSlave.receive twoCommands) := by
  obtain ⟨msg, haccepted, _⟩ := accepted_of_controlQueued twoCommands_queued
  have hhandler : asduHandler (idleSlave.receive twoCommands) =
      (idleSlave.receive twoCommands).post 0 msg :=
    (asduHandler_command rfl rfl).trans (command_accepted haccepted)
  obtain ⟨hqueue, _, hnegatives⟩ := post_accepted haccepted
  rw [hhandler]
  refine ⟨⟨msg, hqueue, ?_⟩, hnegatives, fun h => ?_⟩
  · obtain rfl := Except.ok.inj haccepted.message
    decide
  · exact absurd (count_of_coveredOrRefused h twoCommands_queued) (by decide)

end Iec104Slave
