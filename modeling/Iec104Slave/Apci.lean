import Iec104Slave.SendWindow
import Mathlib.Data.UInt

/-!
# Frames of the link layer (`cs104_slave.c`)

The bytes that a connection writes, and the tests by which `handleMessage` tells received frames
apart. An S frame is read at fixed offsets of the receive buffer, whatever its length is.

Results:
1. `readMessage_iFrame`, `readMessage_sFrame`: the numbers and the ASDU of a written frame are read
   back, also when other bytes of an older frame are left behind it in the buffer.
2. `MasterFrame.readMessage_bytes`: every frame of a master is taken for what it is.
3. `readMessage_numbers_lt`: the numbers of a received frame are sequence numbers.
-/

namespace Iec104Slave

/-- The frames that the slave writes. -/
inductive ApciFrame
  | iFrame (sendCount receiveCount : Nat) (asdu : List UInt8)
  | sFrame (receiveCount : Nat)
  | startdtCon
  | stopdtCon
  | testfrCon
  | testfrAct
deriving DecidableEq

/-- A sequence number in two bytes, as `sendIMessage` and `_sendSMessage` store it. -/
def numberBytes (count : Nat) : List UInt8 :=
  [UInt8.ofNat (count % 128 * 2), UInt8.ofNat (count / 128)]

def uFrame (control : UInt8) : List UInt8 := [0x68, 0x04, control, 0x00, 0x00, 0x00]

def ApciFrame.bytes : ApciFrame → List UInt8
  | .iFrame sendCount receiveCount asdu =>
    [0x68, UInt8.ofNat (asdu.length + 6 - 2)] ++ numberBytes sendCount ++
      numberBytes receiveCount ++ asdu
  | .sFrame receiveCount => [0x68, 0x04, 0x01, 0x00] ++ numberBytes receiveCount
  | .startdtCon => uFrame 0x0b
  | .stopdtCon => uFrame 0x23
  | .testfrCon => uFrame 0x83
  | .testfrAct => uFrame 0x43

/-- What `handleMessage` takes a received frame for. `malformed` are the frames for which it gives
up before it looks at the state of the connection. -/
inductive Message
  | malformed
  | iFrame (sendNumber recvNumber : Nat) (asdu : List UInt8)
  | testfrAct
  | startdtAct
  | stopdtAct
  | testfrCon
  | sFrame (seqNo : Nat)
  | unknown
deriving DecidableEq

/-- `frameSendSequenceNumber` and `frameRecvSequenceNumber` of an I frame. -/
def iFrameNumber (low high : UInt8) : Nat := (high.toNat * 0x100 + (low &&& 0xfe).toNat) / 2

/-- `seqNo` of an S frame. -/
def sFrameNumber (low high : UInt8) : Nat := (low.toNat + high.toNat * 0x100) / 2

/-- The tests of `handleMessage` on the receive buffer, of which the first `msgSize` bytes are the
frame. -/
def readMessage (buffer : List UInt8) (msgSize : Nat) : Message :=
  let byte (i : Nat) := buffer.getD i 0
  if msgSize < 3 then .malformed
  else if byte 0 ≠ 0x68 then .malformed
  else if (byte 1).toNat ≠ msgSize - 2 then .malformed
  else if byte 2 &&& 1 = 0 then
    if msgSize < 7 then .malformed
    else .iFrame (iFrameNumber (byte 2) (byte 3)) (iFrameNumber (byte 4) (byte 5))
      ((buffer.drop 6).take (msgSize - 6))
  else if byte 2 &&& 0x43 = 0x43 then .testfrAct
  else if byte 2 &&& 0x07 = 0x07 then .startdtAct
  else if byte 2 &&& 0x13 = 0x13 then .stopdtAct
  else if byte 2 &&& 0x83 = 0x83 then .testfrCon
  else if byte 2 = 0x01 then .sFrame (sFrameNumber (byte 4) (byte 5))
  else .unknown

/-! ## Numbers -/

theorem iFrameNumber_lt (low high : UInt8) : iFrameNumber low high < seqModulus := by
  have hhigh := high.toNat_lt
  have hlow : (low &&& 0xfe).toNat ≤ 254 := by
    rw [UInt8.toNat_and]
    exact Nat.and_le_right
  rw [iFrameNumber, seqModulus]
  omega

theorem sFrameNumber_lt (low high : UInt8) : sFrameNumber low high < seqModulus := by
  have hhigh := high.toNat_lt
  have hlow := low.toNat_lt
  rw [sFrameNumber, seqModulus]
  omega

/-- The numbers of a received frame are sequence numbers. -/
theorem readMessage_numbers_lt {buffer : List UInt8} {msgSize : Nat} :
    (∀ ns nr asdu, readMessage buffer msgSize = .iFrame ns nr asdu → nr < seqModulus) ∧
    (∀ nr, readMessage buffer msgSize = .sFrame nr → nr < seqModulus) := by
  constructor
  · intro ns nr asdu h
    rw [readMessage] at h
    split_ifs at h
    cases h
    exact iFrameNumber_lt _ _
  · intro nr h
    rw [readMessage] at h
    split_ifs at h
    cases h
    exact sFrameNumber_lt _ _

/-! ## Reading what was written -/

variable {n ns nr : Nat} {asdu : List UInt8}

/-- The last bit of the low byte of a number is not used. -/
theorem lowByte_and (n : Nat) :
    UInt8.ofNat (n % 128 * 2) &&& 0xfe = UInt8.ofNat (n % 128 * 2) ∧
      UInt8.ofNat (n % 128 * 2) &&& 1 = 0 := by
  have hall : ∀ low < 128, UInt8.ofNat (low * 2) &&& 0xfe = UInt8.ofNat (low * 2) ∧
      UInt8.ofNat (low * 2) &&& 1 = 0 := by decide
  exact hall _ (Nat.mod_lt _ (by decide))

theorem toNat_numberBytes (h : n < seqModulus) :
    (UInt8.ofNat (n % 128 * 2)).toNat = n % 128 * 2 ∧ (UInt8.ofNat (n / 128)).toNat = n / 128 := by
  rw [seqModulus] at h
  refine ⟨UInt8.toNat_ofNat_of_lt' ?_, UInt8.toNat_ofNat_of_lt' ?_⟩ <;>
    rw [UInt8.size] <;> omega

theorem iFrameNumber_numberBytes (h : n < seqModulus) :
    iFrameNumber (UInt8.ofNat (n % 128 * 2)) (UInt8.ofNat (n / 128)) = n := by
  obtain ⟨hlow, hhigh⟩ := toNat_numberBytes h
  rw [iFrameNumber, (lowByte_and n).1, hlow, hhigh]
  omega

theorem sFrameNumber_numberBytes (h : n < seqModulus) :
    sFrameNumber (UInt8.ofNat (n % 128 * 2)) (UInt8.ofNat (n / 128)) = n := by
  obtain ⟨hlow, hhigh⟩ := toNat_numberBytes h
  rw [sFrameNumber, hlow, hhigh]
  omega

/-- An I frame is read back, whatever stands behind it in the buffer. -/
theorem readMessage_iFrame (hns : ns < seqModulus) (hnr : nr < seqModulus) (hne : asdu ≠ [])
    (hasdu : asdu.length ≤ 250) (rest : List UInt8) :
    readMessage ((ApciFrame.iFrame ns nr asdu).bytes ++ rest) (asdu.length + 6) =
      .iFrame ns nr asdu := by
  have hpos := List.length_pos_iff.mpr hne
  have hlength : (UInt8.ofNat (asdu.length + 6 - 2)).toNat = asdu.length + 6 - 2 := by
    refine UInt8.toNat_ofNat_of_lt' ?_
    rw [UInt8.size]
    omega
  have hsmall : ¬ asdu.length + 6 < 3 := by omega
  have hseven : ¬ asdu.length + 6 < 7 := by omega
  simp only [readMessage, ApciFrame.bytes, numberBytes, List.cons_append, List.nil_append,
    List.getD_cons_zero, List.getD_cons_succ, List.drop_succ_cons, List.drop_zero,
    Nat.add_sub_cancel, if_neg hsmall, if_neg hseven, hlength, (lowByte_and ns).2,
    iFrameNumber_numberBytes hns, iFrameNumber_numberBytes hnr, List.take_left, ne_eq,
    not_true_eq_false, if_false, if_true]

/-- An S frame is read back. -/
theorem readMessage_sFrame (hnr : nr < seqModulus) (rest : List UInt8) :
    readMessage ((ApciFrame.sFrame nr).bytes ++ rest) 6 = .sFrame nr := by
  have hcontrol : ¬ ((0x01 : UInt8) &&& 1 = 0) ∧ ¬ ((0x01 : UInt8) &&& 0x43 = 0x43) ∧
      ¬ ((0x01 : UInt8) &&& 0x07 = 0x07) ∧ ¬ ((0x01 : UInt8) &&& 0x13 = 0x13) ∧
      ¬ ((0x01 : UInt8) &&& 0x83 = 0x83) := by decide
  have hlength : ¬ ((0x04 : UInt8).toNat ≠ 6 - 2) := by decide
  simp only [readMessage, ApciFrame.bytes, numberBytes, List.cons_append, List.nil_append,
    List.getD_cons_zero, List.getD_cons_succ, hcontrol, hlength, sFrameNumber_numberBytes hnr,
    ne_eq, not_true_eq_false, if_false, if_true]
  rfl

/-- A U frame is told by its control byte. -/
theorem readMessage_uFrame {control : UInt8} (hodd : ¬ control &&& 1 = 0) (rest : List UInt8) :
    readMessage (uFrame control ++ rest) 6 =
      if control &&& 0x43 = 0x43 then .testfrAct
      else if control &&& 0x07 = 0x07 then .startdtAct
      else if control &&& 0x13 = 0x13 then .stopdtAct
      else if control &&& 0x83 = 0x83 then .testfrCon
      else if control = 0x01 then .sFrame 0
      else .unknown := by
  have hlength : ¬ ((0x04 : UInt8).toNat ≠ 6 - 2) := by decide
  simp only [readMessage, uFrame, List.cons_append, List.getD_cons_zero, List.getD_cons_succ,
    hodd, hlength, ne_eq, not_true_eq_false, if_false]
  rfl

/-! ## Frames of a master -/

/-- The frames that a master writes, as in `cs104_connection.c`. -/
inductive MasterFrame
  | iFrame (sendCount receiveCount : Nat) (asdu : List UInt8)
  | sFrame (receiveCount : Nat)
  | startdtAct
  | stopdtAct
  | testfrAct
  | testfrCon
deriving DecidableEq

namespace MasterFrame

def bytes : MasterFrame → List UInt8
  | .iFrame sendCount receiveCount asdu => (ApciFrame.iFrame sendCount receiveCount asdu).bytes
  | .sFrame receiveCount => (ApciFrame.sFrame receiveCount).bytes
  | .startdtAct => uFrame 0x07
  | .stopdtAct => uFrame 0x13
  | .testfrAct => uFrame 0x43
  | .testfrCon => uFrame 0x83

/-- What the slave is to take a frame for. -/
def message : MasterFrame → Message
  | .iFrame sendCount receiveCount asdu => .iFrame sendCount receiveCount asdu
  | .sFrame receiveCount => .sFrame receiveCount
  | .startdtAct => .startdtAct
  | .stopdtAct => .stopdtAct
  | .testfrAct => .testfrAct
  | .testfrCon => .testfrCon

/-- The numbers are sequence numbers, and an ASDU fits in a frame. -/
def Valid : MasterFrame → Prop
  | .iFrame sendCount receiveCount asdu =>
    sendCount < seqModulus ∧ receiveCount < seqModulus ∧ asdu ≠ [] ∧ asdu.length ≤ 250
  | .sFrame receiveCount => receiveCount < seqModulus
  | _ => True

instance : (m : MasterFrame) → Decidable m.Valid
  | .iFrame .. => inferInstanceAs (Decidable (_ ∧ _ ∧ _ ∧ _))
  | .sFrame _ => inferInstanceAs (Decidable (_ < _))
  | .startdtAct | .stopdtAct | .testfrAct | .testfrCon => .isTrue trivial

/-- Every frame of a master is taken for what it is. -/
theorem readMessage_bytes {m : MasterFrame} (h : m.Valid) (rest : List UInt8) :
    readMessage (m.bytes ++ rest) m.bytes.length = m.message := by
  cases m with
  | iFrame ns nr asdu =>
    obtain ⟨hns, hnr, hne, hasdu⟩ := h
    have hlength : (ApciFrame.iFrame ns nr asdu).bytes.length = asdu.length + 6 := by
      simp [ApciFrame.bytes, numberBytes]
    rw [bytes, hlength]
    exact readMessage_iFrame hns hnr hne hasdu rest
  | sFrame nr => exact readMessage_sFrame h rest
  | startdtAct | stopdtAct | testfrAct | testfrCon =>
    exact (readMessage_uFrame (by decide) rest).trans (by decide)

end MasterFrame

end Iec104Slave
