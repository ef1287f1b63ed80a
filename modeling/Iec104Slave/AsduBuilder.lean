import Iec104Slave.PointTable
import Iec104Slave.Lib.Batch

/-!
# Building ASDUs (`asdu_builder.c`)

The slave adds information objects to an ASDU one by one. The library refuses an object
of another type, one that does not follow in a sequence, the 128th and one that does not
fit into the 249 bytes; the builder then throws the ASDU away, so a frame carries
all objects of its batch or is not sent.

Results:
* `sendObjects_fits`: objects of one type that fit are never refused.
* `addSequence_fits`: in a sequence the same holds of objects with consecutive addresses.
* `addObjects_wellFormed`: whatever is added, the ASDU keeps to the limits of the protocol.
-/

namespace Iec104Slave

/-! ## Information objects -/

/-- What an object of the monitor direction says about its point. The scaled value is the C
conversion of the value to `int`. -/
inductive InformationElement
  | singlePoint (value : Bool) (quality : UInt8)
  | normalized (value : ℚ) (quality : UInt8)
  | scaled (value : ℤ) (quality : UInt8)
  | short (value : ℚ) (quality : UInt8)
  | integratedTotals (value : Int32) (seq : UInt8) (invalid : Bool)
deriving DecidableEq

/-- An object, with the time stamp of its point if the type carries one. `set_timestamp`
encodes the stamp 0 as the time of sending. -/
structure InformationObject where
  ioa : Int32
  element : InformationElement
  timestampMs : Option UInt64
deriving DecidableEq

def InformationObject.typeId (io : InformationObject) : UInt8 :=
  match io.element, io.timestampMs with
  | .singlePoint .., none => M_SP_NA_1
  | .singlePoint .., some _ => M_SP_TB_1
  | .normalized .., none => M_ME_NA_1
  | .normalized .., some _ => M_ME_TD_1
  | .scaled .., none => M_ME_NB_1
  | .scaled .., some _ => M_ME_TE_1
  | .short .., none => M_ME_NC_1
  | .short .., some _ => M_ME_TF_1
  | .integratedTotals .., none => M_IT_NA_1
  | .integratedTotals .., some _ => M_IT_TB_1

/-- The encoded size without the address. A CP56 time stamp takes seven bytes. -/
def InformationObject.size (io : InformationObject) : Nat :=
  (match io.element with
    | .singlePoint .. => 1
    | .normalized .. => 3
    | .scaled .. => 3
    | .short .. => 5
    | .integratedTotals .. => 5) +
  match io.timestampMs with
    | none => 0
    | some _ => 7

/-! ## ASDUs of the library (`cs101_asdu.c`) -/

/-- `CS101_ASDU`: the element count of the qualifier is the length of `elements`. -/
structure Asdu where
  isSequence : Bool
  cot : CauseOfTransmission
  typeId : UInt8
  elements : List InformationObject
  payloadSize : Nat
deriving DecidableEq

/-- `maxSizeOfASDU`. -/
def maxSizeOfAsdu : Nat := 249

/-- The type, the qualifier, two bytes of cause and two of common address. -/
def asduHeaderLength : Nat := 6

def sizeOfIoa : Nat := 3

/-- `CS101_ASDU_create`. -/
def Asdu.create (isSequence : Bool) (cot : CauseOfTransmission) : Asdu :=
  { isSequence := isSequence, cot := cot, typeId := 0, elements := [], payloadSize := 0 }

/-- `InformationObject_encode`; in a sequence only the first object carries its address. -/
def Asdu.encode (asdu : Asdu) (io : InformationObject) (isSequence : Bool) : Option Asdu :=
  let size := if isSequence then io.size else sizeOfIoa + io.size
  if maxSizeOfAsdu - asdu.payloadSize - asduHeaderLength < size then none
  else some { asdu with elements := asdu.elements ++ [io], payloadSize := asdu.payloadSize + size }

/-- `CS101_ASDU_addInformationObject`. `getFirstIOA` reads the three bytes of the first
address back. -/
def Asdu.addInformationObject (asdu : Asdu) (io : InformationObject) : Option Asdu :=
  match asdu.elements with
  | [] => { asdu with typeId := io.typeId }.encode io false
  | first :: _ =>
    if asdu.elements.length < 0x7f && asdu.typeId == io.typeId then
      if asdu.isSequence then
        if io.ioa.toInt = first.ioa.toInt % 2 ^ 24 + asdu.elements.length then asdu.encode io true
        else none
      else asdu.encode io false
    else none

/-- The loop of the builders: the first refused object ends it. -/
def Asdu.addObjects : Asdu → List InformationObject → Option Asdu
  | asdu, [] => some asdu
  | asdu, io :: ios =>
    match asdu.addInformationObject io with
    | some asdu => asdu.addObjects ios
    | none => none

/-! ## The senders -/

/-- The frame that the connection takes, if it takes one: `accepts` is the result of
`IMasterConnection_sendASDU`. Nothing is sent for an empty batch. -/
def sendObjects (accepts isSequence : Bool) (cot : CauseOfTransmission)
    (objects : List InformationObject) : Option Asdu :=
  if objects.isEmpty then none
  else
    match (Asdu.create isSequence cot).addObjects objects with
    | some asdu => if accepts then some asdu else none
    | none => none

def yxObject (point : YxPoint) : InformationObject :=
  ⟨point.ioa.toInt32, .singlePoint (point.value != 0) point.quality, none⟩

def yxTimeObject (point : YxPoint) : InformationObject :=
  ⟨point.ioa.toInt32, .singlePoint (point.value != 0) point.quality, some point.timestampMs⟩

/-- The C conversion of a float to `int`: towards zero. -/
def truncate (value : ℚ) : ℤ :=
  value.num.tdiv value.den

def ycElement (point : YcPoint) : InformationElement :=
  match point.iecType with
  | .normalized => .normalized point.value point.quality
  | .scaled => .scaled (truncate point.value) point.quality
  | .float => .short point.value point.quality

def ycTimeObject (point : YcPoint) : InformationObject :=
  ⟨point.ioa.toInt32, ycElement point, some point.timestampMs⟩

def ycObject (point : YcPoint) : InformationObject :=
  ⟨point.ioa.toInt32, ycElement point, none⟩

/-- `BinaryCounterReading_create` and `IntegratedTotals_create`, or the object with CP56
time. -/
def ddObject (withTimestamp : Bool) (point : DdPoint) : InformationObject :=
  ⟨point.ioa.toInt32,
    .integratedTotals point.value point.seq (point.quality &&& qualityInvalid != 0),
    if withTimestamp then some point.timestampMs else none⟩

def asduSendYxBatch (accepts : Bool) (cot : CauseOfTransmission) (points : List YxPoint) :
    Option Asdu :=
  sendObjects accepts true cot (points.map yxObject)

def asduSendYcBatch (accepts : Bool) (cot : CauseOfTransmission) (points : List YcPoint) :
    Option Asdu :=
  sendObjects accepts true cot (points.map ycObject)

def asduSendDdBatch (accepts : Bool) (cot : CauseOfTransmission) (points : List DdPoint)
    (withTimestamp : Bool) : Option Asdu :=
  sendObjects accepts true cot (points.map (ddObject withTimestamp))

def asduSendYxBatchNonSequence (accepts : Bool) (cot : CauseOfTransmission)
    (points : List YxPoint) : Option Asdu :=
  sendObjects accepts false cot (points.map yxObject)

def asduSendYxTimeBatch (accepts : Bool) (cot : CauseOfTransmission)
    (points : List YxPoint) : Option Asdu :=
  sendObjects accepts false cot (points.map yxTimeObject)

def asduSendYcTimeBatchNonSequence (accepts : Bool) (cot : CauseOfTransmission)
    (points : List YcPoint) : Option Asdu :=
  sendObjects accepts false cot (points.map ycTimeObject)

/-- What an ASDU on the line keeps to: the seven bits of the element count, the 249 bytes,
and one type for all elements. -/
structure Asdu.WellFormed (asdu : Asdu) : Prop where
  count : asdu.elements.length ≤ 127
  room : asduHeaderLength + asdu.payloadSize ≤ maxSizeOfAsdu
  type : ∀ io ∈ asdu.elements, io.typeId = asdu.typeId

/-- The encoder takes all the objects, one after the other, into the ASDU, which keeps to the
limits. -/
structure Asdu.Carries (asdu : Asdu) (isSequence : Bool) (cot : CauseOfTransmission)
    (objects : List InformationObject) : Prop where
  added : (Asdu.create isSequence cot).addObjects objects = some asdu
  elements : asdu.elements = objects
  wellFormed : asdu.WellFormed

def Encoded (isSequence : Bool) (cot : CauseOfTransmission) (objects : List InformationObject) :
    Prop :=
  ∃ asdu : Asdu, asdu.Carries isSequence cot objects

/-- The addresses count up from the first one. -/
def Consecutive (ioas : List UInt32) : Prop :=
  ∀ first (k : Nat) ioa, ioas[0]? = some first → ioas[k]? = some ioa →
    ioa.toNat = first.toNat + k

namespace AsduBuilderLemmas

variable {a : Asdu} {io : InformationObject} {ios : List InformationObject}

theorem encode_fits {isSequence : Bool} {n : Nat}
    (hn : (if isSequence then io.size else sizeOfIoa + io.size) = n)
    (hroom : a.payloadSize + n ≤ maxSizeOfAsdu - asduHeaderLength) :
    a.encode io isSequence = some { a with
      elements := a.elements ++ [io]
      payloadSize := a.payloadSize + n } := by
  subst hn
  refine if_neg (Nat.not_lt.mpr ?_)
  rw [Nat.sub_right_comm]
  exact Nat.le_sub_of_add_le' hroom

/-- An object of the type of the others is taken, while there is room. -/
theorem add_fits {t : UInt8} (hseq : a.isSequence = false)
    (htype : a.elements = [] ∨ a.typeId = t) (ht : io.typeId = t)
    (hcount : a.elements.length < 127)
    (hroom : a.payloadSize + (sizeOfIoa + io.size) ≤ maxSizeOfAsdu - asduHeaderLength) :
    a.addInformationObject io = some { a with
      typeId := t
      elements := a.elements ++ [io]
      payloadSize := a.payloadSize + (sizeOfIoa + io.size) } := by
  unfold Asdu.addInformationObject
  split
  · next hnil =>
    have hfits : { a with typeId := io.typeId }.encode io false = _ :=
      encode_fits (n := sizeOfIoa + io.size) rfl hroom
    rw [hfits, ht]
  · next first rest hcons =>
    have htype' : a.typeId = t := htype.resolve_left (by simp [hcons])
    rw [if_pos (by simp [hcount, htype', ht]), if_neg (by simp [hseq]),
      encode_fits (n := sizeOfIoa + io.size) rfl hroom, ← htype']

theorem addObjects_fits {t : UInt8} {n : Nat} (hseq : a.isSequence = false)
    (htype : a.elements = [] ∨ a.typeId = t)
    (hios : ∀ io ∈ ios, io.typeId = t ∧ io.size = n)
    (hcount : a.elements.length + ios.length ≤ 127)
    (hroom : a.payloadSize + ios.length * (sizeOfIoa + n) ≤ maxSizeOfAsdu - asduHeaderLength) :
    ∃ asdu', a.addObjects ios = some asdu' ∧ asdu'.elements = a.elements ++ ios := by
  induction ios generalizing a with
  | nil => exact ⟨a, rfl, (List.append_nil _).symm⟩
  | cons io ios ih =>
    obtain ⟨ht, hn⟩ := hios io (List.mem_cons_self ..)
    rw [List.length_cons, Nat.add_one_mul] at hroom
    rw [List.length_cons] at hcount
    have hadd := add_fits hseq htype ht (by omega) (by rw [hn]; omega)
    obtain ⟨asdu', hall, helem⟩ := ih
      (a := { a with
        typeId := t
        elements := a.elements ++ [io]
        payloadSize := a.payloadSize + (sizeOfIoa + io.size) })
      hseq (.inr rfl) (fun x hx => hios x (List.mem_cons_of_mem _ hx))
      (by rw [List.length_append, List.length_singleton]; omega)
      (by show a.payloadSize + (sizeOfIoa + io.size) + _ ≤ _; rw [hn]; omega)
    refine ⟨asdu', ?_, by rw [helem, List.append_assoc, List.singleton_append]⟩
    rw [Asdu.addObjects, hadd]
    exact hall

/-- A batch of objects of one type that fits goes out with all its objects, if the connection
takes it. -/
theorem sendObjects_fits {t : UInt8} {n : Nat} {cot : CauseOfTransmission} (hne : ios ≠ [])
    (hios : ∀ io ∈ ios, io.typeId = t ∧ io.size = n) (hcount : ios.length ≤ 127)
    (hroom : ios.length * (sizeOfIoa + n) ≤ maxSizeOfAsdu - asduHeaderLength) :
    ∃ asdu, asdu.elements = ios ∧
      ∀ accepts, sendObjects accepts false cot ios = if accepts then some asdu else none := by
  obtain ⟨asdu, hadd, helem⟩ := addObjects_fits (a := Asdu.create false cot) rfl (.inl rfl) hios
    (by simpa [Asdu.create] using hcount) (by simpa [Asdu.create] using hroom)
  refine ⟨asdu, helem, fun accepts => ?_⟩
  rw [sendObjects, if_neg (by simpa using hne), hadd]

/-! ### Sequences -/

/-- In a sequence the next address is taken, while there is room. -/
theorem addNext_fits {first : InformationObject} {rest : List InformationObject}
    (hseq : a.isSequence = true) (hfirst : a.elements = first :: rest)
    (hstart : 0 ≤ first.ioa.toInt ∧ first.ioa.toInt < 2 ^ 24)
    (hnext : io.ioa.toInt = first.ioa.toInt + a.elements.length)
    (ht : a.typeId = io.typeId) (hcount : a.elements.length < 127)
    (hroom : a.payloadSize + io.size ≤ maxSizeOfAsdu - asduHeaderLength) :
    a.addInformationObject io = some { a with
      elements := a.elements ++ [io]
      payloadSize := a.payloadSize + io.size } := by
  unfold Asdu.addInformationObject
  rw [hfirst]
  dsimp only
  rw [← hfirst, if_pos (by simp [hcount, ht]), if_pos hseq,
    if_pos (by rw [hnext, Int.emod_eq_of_lt hstart.1 hstart.2]),
    encode_fits (n := io.size) rfl hroom]

theorem addRest_fits {t : UInt8} {n : Nat} {f : InformationObject}
    {r : List InformationObject} (hseq : a.isSequence = true)
    (hfirst : a.elements = f :: r)
    (hstart : 0 ≤ f.ioa.toInt ∧ f.ioa.toInt < 2 ^ 24)
    (hnext : ∀ k io, ios[k]? = some io →
      io.ioa.toInt = f.ioa.toInt + (a.elements.length + k : Nat))
    (ht : a.typeId = t) (hios : ∀ io ∈ ios, io.typeId = t ∧ io.size = n)
    (hcount : a.elements.length + ios.length ≤ 127)
    (hroom : a.payloadSize + ios.length * n ≤ maxSizeOfAsdu - asduHeaderLength) :
    ∃ asdu', a.addObjects ios = some asdu' ∧ asdu'.elements = a.elements ++ ios := by
  induction ios generalizing a r with
  | nil => exact ⟨a, rfl, (List.append_nil _).symm⟩
  | cons io ios ih =>
    obtain ⟨hio, hn⟩ := hios io (List.mem_cons_self ..)
    rw [List.length_cons, Nat.add_one_mul] at hroom
    rw [List.length_cons] at hcount
    have hadd := addNext_fits hseq hfirst hstart (hnext 0 io rfl) (ht.trans hio.symm)
      (by omega) (by rw [hn]; omega)
    obtain ⟨asdu', hall, helem⟩ := ih (r := r ++ [io])
      (a := { a with
        elements := a.elements ++ [io]
        payloadSize := a.payloadSize + io.size })
      hseq (by rw [hfirst]; rfl)
      (fun k x hx => by
        rw [hnext (k + 1) x hx, List.length_append, List.length_singleton, Nat.add_assoc,
          Nat.add_comm 1 k])
      ht (fun x hx => hios x (List.mem_cons_of_mem _ hx))
      (by rw [List.length_append, List.length_singleton]; omega)
      (by show a.payloadSize + io.size + _ ≤ _; rw [hn]; omega)
    refine ⟨asdu', ?_, by rw [helem, List.append_assoc, List.singleton_append]⟩
    rw [Asdu.addObjects, hadd]
    exact hall

/-- Objects of one type with consecutive addresses that fit are all taken into a sequence. -/
theorem addSequence_fits {t : UInt8} {n : Nat} (cot : CauseOfTransmission)
    (hstart : ∀ io, ios[0]? = some io → 0 ≤ io.ioa.toInt ∧ io.ioa.toInt < 2 ^ 24)
    (hnext : ∀ first (k : Nat) io, ios[0]? = some first → ios[k]? = some io →
      io.ioa.toInt = first.ioa.toInt + k)
    (hios : ∀ io ∈ ios, io.typeId = t ∧ io.size = n) (hcount : ios.length ≤ 127)
    (hroom : sizeOfIoa + ios.length * n ≤ maxSizeOfAsdu - asduHeaderLength) :
    ∃ asdu, (Asdu.create true cot).addObjects ios = some asdu ∧ asdu.elements = ios := by
  cases ios with
  | nil => exact ⟨_, rfl, rfl⟩
  | cons first ios =>
    obtain ⟨ht, hn⟩ := hios first (List.mem_cons_self ..)
    rw [List.length_cons, Nat.add_one_mul] at hroom
    rw [List.length_cons] at hcount
    -- the first object carries its address
    have hadd : (Asdu.create true cot).addInformationObject first = some
        { Asdu.create true cot with
          typeId := t
          elements := [first]
          payloadSize := sizeOfIoa + n } := by
      have hfits : { Asdu.create true cot with typeId := first.typeId }.encode first false = _ :=
        encode_fits (n := sizeOfIoa + n) (by rw [hn]; rfl)
          (by show 0 + (sizeOfIoa + n) ≤ _; omega)
      rw [ht] at hfits
      show { Asdu.create true cot with typeId := first.typeId }.encode first false = _
      rw [ht, hfits]
      simp [Asdu.create]
    obtain ⟨asdu, hall, helem⟩ := addRest_fits (r := []) (f := first) (n := n)
      (a := { Asdu.create true cot with
        typeId := t
        elements := [first]
        payloadSize := sizeOfIoa + n })
      rfl rfl (hstart first rfl)
      (fun k x hx => by
        rw [hnext first (k + 1) x rfl hx, List.length_singleton, Nat.add_comm 1 k])
      rfl (fun x hx => hios x (List.mem_cons_of_mem _ hx))
      (by rw [List.length_singleton]; omega)
      (by show sizeOfIoa + n + _ ≤ _; omega)
    refine ⟨asdu, ?_, helem⟩
    rw [Asdu.addObjects, hadd]
    exact hall

/-! ### Limits -/

theorem wellFormed_create (isSequence : Bool) (cot : CauseOfTransmission) :
    (Asdu.create isSequence cot).WellFormed where
  count := Nat.zero_le _
  room := by simp [Asdu.create, asduHeaderLength, maxSizeOfAsdu]
  type := by simp [Asdu.create]

theorem encode_wellFormed {a' : Asdu} {isSequence : Bool} (h : a.WellFormed)
    (hcount : a.elements.length < 127) (ht : a.typeId = io.typeId)
    (hadd : a.encode io isSequence = some a') :
    a'.WellFormed ∧ a'.elements = a.elements ++ [io] := by
  unfold Asdu.encode at hadd
  generalize (if isSequence then io.size else sizeOfIoa + io.size) = size at hadd
  dsimp only at hadd
  split at hadd
  · cases hadd
  · next hroom =>
    cases hadd
    refine ⟨⟨?_, ?_, ?_⟩, rfl⟩
    · rw [List.length_append, List.length_singleton]
      exact hcount
    · have := h.room
      show asduHeaderLength + (a.payloadSize + _) ≤ maxSizeOfAsdu
      omega
    · intro x hx
      rcases List.mem_append.mp hx with hx | hx
      · exact h.type x hx
      · rw [List.mem_singleton.mp hx]
        exact ht.symm

theorem add_wellFormed {a' : Asdu} (h : a.WellFormed)
    (hadd : a.addInformationObject io = some a') :
    a'.WellFormed ∧ a'.elements = a.elements ++ [io] := by
  unfold Asdu.addInformationObject at hadd
  split at hadd
  · next hnil =>
    have h' : { a with typeId := io.typeId }.WellFormed := ⟨h.count, h.room, by simp [hnil]⟩
    exact encode_wellFormed (a := { a with typeId := io.typeId }) h' (by simp [hnil]) rfl hadd
  · split at hadd
    · next hfits =>
      simp only [Bool.and_eq_true, decide_eq_true_eq, beq_iff_eq] at hfits
      split at hadd
      · split at hadd
        · exact encode_wellFormed h hfits.1 hfits.2 hadd
        · cases hadd
      · exact encode_wellFormed h hfits.1 hfits.2 hadd
    · cases hadd

/-- An ASDU that took objects has taken all of them and keeps to the limits. -/
theorem addObjects_wellFormed {a' : Asdu} (h : a.WellFormed)
    (hadd : a.addObjects ios = some a') :
    a'.WellFormed ∧ a'.elements = a.elements ++ ios := by
  induction ios generalizing a with
  | nil =>
    cases hadd
    exact ⟨h, (List.append_nil _).symm⟩
  | cons io ios ih =>
    rw [Asdu.addObjects] at hadd
    split at hadd
    · next a₁ hfirst =>
      obtain ⟨h₁, helem₁⟩ := add_wellFormed h hfirst
      obtain ⟨h', helem⟩ := ih h₁ hadd
      rw [helem₁, List.append_assoc, List.singleton_append] at helem
      exact ⟨h', helem⟩
    · cases hadd

theorem encoded_of_addObjects {isSequence : Bool} {cot : CauseOfTransmission} {asdu : Asdu}
    (h : (Asdu.create isSequence cot).addObjects ios = some asdu) :
    Encoded isSequence cot ios := by
  obtain ⟨hwf, helem⟩ := addObjects_wellFormed (wellFormed_create isSequence cot) h
  exact ⟨asdu, h, helem, hwf⟩

/-- A frame was sent, so the encoder took its objects. -/
theorem encoded_of_sendObjects {accepts isSequence : Bool} {cot : CauseOfTransmission}
    {asdu : Asdu} (h : sendObjects accepts isSequence cot ios = some asdu) :
    Encoded isSequence cot ios := by
  unfold sendObjects at h
  split at h
  · cases h
  · split at h
    · next hadd => exact encoded_of_addObjects hadd
    · cases h

theorem sendObjects_of_encoded {isSequence : Bool} {cot : CauseOfTransmission} (hne : ios ≠ [])
    (h : Encoded isSequence cot ios) : ∃ asdu : Asdu, asdu.Carries isSequence cot ios ∧
      ∀ accepts, sendObjects accepts isSequence cot ios = if accepts then some asdu else none := by
  obtain ⟨asdu, hcarries⟩ := h
  refine ⟨asdu, hcarries, fun accepts => ?_⟩
  rw [sendObjects, if_neg (by simpa using hne), hcarries.added]

theorem elements_of_sendObjects {accepts isSequence : Bool} {cot : CauseOfTransmission}
    {asdu : Asdu} (h : sendObjects accepts isSequence cot ios = some asdu) :
    asdu.elements = ios := by
  unfold sendObjects at h
  split at h
  · cases h
  · split at h
    · next hadd =>
      split at h
      · cases h
        exact (addObjects_wellFormed (wellFormed_create isSequence cot) hadd).2
      · cases h
    · cases h

/-! ### Sizes -/

/-- The size of an object follows from its type. -/
theorem size_of_typeId : ∃ f : UInt8 → Nat, ∀ io : InformationObject,
    io.size = f io.typeId ∧ 0 < io.size := by
  refine ⟨fun t => if t = M_SP_NA_1 then 1 else if t = M_SP_TB_1 then 8
    else if t = M_ME_NC_1 ∨ t = M_IT_NA_1 then 5 else if t = M_ME_TF_1 ∨ t = M_IT_TB_1 then 12
    else if t = M_ME_NA_1 ∨ t = M_ME_NB_1 then 3 else 10, fun io => ?_⟩
  obtain ⟨ioa, element, timestampMs⟩ := io
  cases element <;> cases timestampMs <;> exact ⟨rfl, Nat.zero_lt_succ _⟩

theorem encode_payloadSize {a' : Asdu} {isSequence : Bool}
    (h : a.encode io isSequence = some a') : a'.isSequence = a.isSequence ∧
      a'.payloadSize = a.payloadSize + if isSequence then io.size else sizeOfIoa + io.size := by
  unfold Asdu.encode at h
  generalize (if isSequence then io.size else sizeOfIoa + io.size) = size at h ⊢
  dsimp only at h
  split at h
  · cases h
  · cases h
    exact ⟨rfl, rfl⟩

theorem add_payloadSize {a' : Asdu} (hseq : a.isSequence = true)
    (hadd : a.addInformationObject io = some a') : a'.isSequence = true ∧
      a'.payloadSize =
        a.payloadSize + if a.elements = [] then sizeOfIoa + io.size else io.size := by
  unfold Asdu.addInformationObject at hadd
  split at hadd
  · next hnil =>
    obtain ⟨hkeeps, hsize⟩ := encode_payloadSize hadd
    exact ⟨hkeeps.trans hseq, by rw [hsize, if_pos hnil]; rfl⟩
  · next hcons =>
    simp only [hseq, if_true] at hadd
    split at hadd
    · split at hadd
      · obtain ⟨hkeeps, hsize⟩ := encode_payloadSize hadd
        exact ⟨hkeeps.trans hseq, by rw [hsize, if_pos rfl, if_neg (by simp [hcons])]⟩
      · cases hadd
    · cases hadd

/-- In a sequence one address is followed by elements of one size. -/
theorem addObjects_payloadSize {a' : Asdu} {n : Nat} (hseq : a.isSequence = true)
    (h : a.WellFormed)
    (hsize : ∀ io ∈ ios, io.size = n) (hadd : a.addObjects ios = some a')
    (hinv : a.payloadSize = if a.elements = [] then 0 else sizeOfIoa + a.elements.length * n) :
    a'.payloadSize = if a'.elements = [] then 0 else sizeOfIoa + a'.elements.length * n := by
  induction ios generalizing a with
  | nil =>
    cases hadd
    exact hinv
  | cons io ios ih =>
    rw [Asdu.addObjects] at hadd
    split at hadd
    · next a₁ hfirst =>
      obtain ⟨h₁, helem⟩ := add_wellFormed h hfirst
      obtain ⟨hseq₁, hpayload⟩ := add_payloadSize hseq hfirst
      refine ih hseq₁ h₁ (fun x hx => hsize x (List.mem_cons_of_mem _ hx)) hadd ?_
      have hne : a₁.elements ≠ [] := by simp [helem]
      rw [hpayload, hinv, hsize io (List.mem_cons_self ..), if_neg hne, helem,
        List.length_append, List.length_singleton, Nat.add_one_mul]
      by_cases hnil : a.elements = []
      · rw [if_pos hnil, if_pos hnil, hnil, List.length_nil]
        omega
      · rw [if_neg hnil, if_neg hnil]
        omega
    · cases hadd

/-- Behind the address of a sequence there are as many elements as it counts. -/
theorem sequence_elements {accepts : Bool} {cot : CauseOfTransmission} {asdu : Asdu}
    (h : sendObjects accepts true cot ios = some asdu) :
    ∃ size, 0 < size ∧ (∀ io ∈ asdu.elements, io.size = size) ∧
      asdu.payloadSize = sizeOfIoa + asdu.elements.length * size := by
  obtain ⟨f, hf⟩ := size_of_typeId
  obtain ⟨asdu', hcarries⟩ := encoded_of_sendObjects h
  unfold sendObjects at h
  split at h
  · cases h
  · next hne =>
    rw [hcarries.added] at h
    dsimp only at h
    split at h
    · cases h
      have hsize : ∀ io ∈ ios, io.size = f asdu.typeId := by
        intro io hio
        rw [← hcarries.elements] at hio
        rw [(hf io).1, hcarries.wellFormed.type io hio]
      have hlen := addObjects_payloadSize (a := Asdu.create true cot) rfl
        (wellFormed_create true cot) hsize hcarries.added rfl
      rw [hcarries.elements, if_neg (by simpa using hne), ← hcarries.elements] at hlen
      obtain ⟨first, hfirst⟩ := List.exists_mem_of_ne_nil ios (by simpa using hne)
      refine ⟨f asdu.typeId, ?_, ?_, hlen⟩
      · rw [← hsize first hfirst]
        exact (hf first).2
      · rw [hcarries.elements]
        exact hsize
    · cases h

/-! ### What a refusal depends on -/

/-- The objects have the same addresses, types and sizes. -/
def SameFormat (io io' : InformationObject) : Prop :=
  io.ioa = io'.ioa ∧ io.typeId = io'.typeId ∧ io.size = io'.size

structure SameShape (a b : Asdu) : Prop where
  is_sequence : a.isSequence = b.isSequence
  type_id : a.typeId = b.typeId
  elements : List.Forall₂ SameFormat a.elements b.elements
  payload_size : a.payloadSize = b.payloadSize

theorem encode_sameShape {b : Asdu} {io io' : InformationObject} (h : SameShape a b)
    (hio : SameFormat io io') (isSequence : Bool) :
    Option.Rel SameShape (a.encode io isSequence) (b.encode io' isSequence) := by
  unfold Asdu.encode
  rw [h.payload_size, hio.2.2]
  generalize (if isSequence then io'.size else sizeOfIoa + io'.size) = size
  dsimp only
  split
  · exact .none
  · exact .some ⟨h.is_sequence, h.type_id,
      List.rel_append h.elements (.cons hio .nil), rfl⟩

theorem add_sameShape {b : Asdu} {io io' : InformationObject} (h : SameShape a b)
    (hio : SameFormat io io') :
    Option.Rel SameShape (a.addInformationObject io) (b.addInformationObject io') := by
  have hlength := h.elements.length_eq
  have helements := h.elements
  unfold Asdu.addInformationObject
  rw [hlength, h.type_id, h.is_sequence, hio.1, hio.2.1]
  cases ha : a.elements with
  | nil =>
    rw [ha] at helements
    rw [List.forall₂_nil_left_iff.mp helements]
    refine encode_sameShape (SameShape.mk ?_ ?_ ?_ ?_) hio false
    · rfl
    · rfl
    · exact .nil
    · exact h.payload_size
  | cons first rest =>
    rw [ha] at helements
    obtain ⟨first', rest', hfirst, -, hb⟩ := List.forall₂_cons_left_iff.mp helements
    rw [hb]
    dsimp only
    rw [hfirst.1]
    split
    · split
      · split
        · exact encode_sameShape h hio true
        · exact .none
      · exact encode_sameShape h hio false
    · exact .none

theorem addObjects_sameShape {b : Asdu} {ios' : List InformationObject} (h : SameShape a b)
    (hios : List.Forall₂ SameFormat ios ios') :
    Option.Rel SameShape (a.addObjects ios) (b.addObjects ios') := by
  induction hios generalizing a b with
  | nil => exact .some h
  | cons hio _ ih =>
    rw [Asdu.addObjects, Asdu.addObjects]
    have hadd := add_sameShape h hio
    generalize a.addInformationObject _ = next at hadd
    generalize b.addInformationObject _ = next' at hadd
    cases hadd with
    | none => exact .none
    | some hnext => exact ih hnext

/-- Whether a frame is sent depends only on the format of its objects. -/
theorem sendObjects_isSome {ios' : List InformationObject}
    (hios : List.Forall₂ SameFormat ios ios') (accepts isSequence : Bool)
    (cot : CauseOfTransmission) :
    (sendObjects accepts isSequence cot ios).isSome =
      (sendObjects accepts isSequence cot ios').isSome := by
  have hshape : SameShape (Asdu.create isSequence cot) (Asdu.create isSequence cot) :=
    ⟨rfl, rfl, .nil, rfl⟩
  unfold sendObjects
  cases hios with
  | nil => rfl
  | cons hio hrest =>
    have hrel := addObjects_sameShape hshape (.cons hio hrest)
    rw [List.isEmpty_cons, List.isEmpty_cons, if_neg Bool.false_ne_true,
      if_neg Bool.false_ne_true]
    generalize (Asdu.create isSequence cot).addObjects _ = built at hrel
    generalize (Asdu.create isSequence cot).addObjects _ = built' at hrel
    cases hrel with
    | none => rfl
    | some _ =>
      cases accepts with
      | true => rfl
      | false => rfl

/-! ### Batches of consecutive addresses -/

theorem toNat_add_ofNat {ioa : UInt32} {k : Nat} (h : ioa.toNat < 2 ^ 24) (hk : k ≤ 127) :
    (ioa + UInt32.ofNat k).toNat = ioa.toNat + k := by
  have hk' : k % 2 ^ 32 = k := Nat.mod_eq_of_lt (by omega)
  rw [UInt32.toNat_add, UInt32.toNat_ofNat', hk']
  exact Nat.mod_eq_of_lt (by omega)

theorem toInt_toInt32 {ioa : UInt32} (h : ioa.toNat < 2 ^ 24) :
    ioa.toInt32.toInt = ioa.toNat := by
  have hsmall : 2 * ioa.toBitVec.toNat < 2 ^ 32 := by
    rw [UInt32.toNat_toBitVec]
    omega
  exact BitVec.toInt_eq_toNat_of_lt hsmall

/-- The batches of the senders count up: each further address is compared with the sum of the
first one and the index. -/
theorem consecutive_of_isBatch {ε : Type} {fits : ε → Nat → ε → Bool} {ioa : ε → UInt32}
    {first : ε} {batch : List ε} (hbatch : Batch.IsBatch fits first batch)
    (hfirst : (ioa first).toNat < 2 ^ 24)
    (hfits : ∀ k e, fits first k e = true → k ≤ 127 ∧ ioa e = ioa first + UInt32.ofNat k) :
    Consecutive (batch.map ioa) := by
  intro start k x hstart hx
  obtain ⟨e, he, rfl⟩ := Option.map_eq_some_iff.mp (List.getElem?_map .. ▸ hx)
  rw [List.getElem?_map, hbatch.head] at hstart
  cases hstart
  cases k with
  | zero =>
    rw [hbatch.head] at he
    cases he
    rfl
  | succ k =>
    obtain ⟨hk, heq⟩ := hfits _ e (hbatch.rest k e he)
    rw [heq, toNat_add_ofNat hfirst hk]

/-- Objects of one type with consecutive addresses that fit make up a sequence. -/
theorem encoded_of_consecutive {ε : Type} {ioa : ε → UInt32} {object : ε → InformationObject}
    {batch : List ε} {t : UInt8} {n limit : Nat} (cot : CauseOfTransmission)
    (hconsecutive : Consecutive (batch.map ioa))
    (hsmall : ∀ e ∈ batch, (ioa e).toNat < 2 ^ 24)
    (hobject : ∀ e ∈ batch, (object e).ioa = (ioa e).toInt32 ∧ (object e).typeId = t ∧
      (object e).size = n)
    (hlen : batch.length ≤ limit) (hcount : limit ≤ 127)
    (hroom : sizeOfIoa + limit * n ≤ maxSizeOfAsdu - asduHeaderLength) :
    Encoded true cot (batch.map object) := by
  -- the address of an object is that of its entry, since that has only three bytes
  have haddress : ∀ (k : Nat) (io : InformationObject), (batch.map object)[k]? = some io →
      ∃ e, batch[k]? = some e ∧ io.ioa.toInt = (ioa e).toNat ∧ (ioa e).toNat < 2 ^ 24 := by
    intro k io hio
    obtain ⟨e, he, rfl⟩ := Option.map_eq_some_iff.mp (List.getElem?_map .. ▸ hio)
    have hmem := List.mem_of_getElem? he
    exact ⟨e, he, by rw [(hobject e hmem).1, toInt_toInt32 (hsmall e hmem)], hsmall e hmem⟩
  obtain ⟨asdu, hadd, _⟩ := addSequence_fits (t := t) (n := n) cot
    (fun io hio => by
      obtain ⟨e, _, heq, hlt⟩ := haddress 0 io hio
      rw [heq]
      exact ⟨Int.natCast_nonneg _, Int.ofNat_lt.mpr hlt⟩)
    (fun first k io hfirst hio => by
      obtain ⟨e, he, heq, _⟩ := haddress 0 first hfirst
      obtain ⟨e', he', heq', _⟩ := haddress k io hio
      have hnext := hconsecutive (ioa e) k (ioa e') (by rw [List.getElem?_map, he]; rfl)
        (by rw [List.getElem?_map, he']; rfl)
      rw [heq, heq', hnext]
      exact Int.natCast_add _ _)
    (fun io hio => by
      obtain ⟨e, he, rfl⟩ := List.mem_map.mp hio
      exact (hobject e he).2)
    (by rw [List.length_map]; exact Nat.le_trans hlen hcount)
    (by
      rw [List.length_map]
      exact Nat.le_trans (Nat.add_le_add_left (Nat.mul_le_mul_right n hlen) _) hroom)
  exact encoded_of_addObjects hadd

end AsduBuilderLemmas

end Iec104Slave
