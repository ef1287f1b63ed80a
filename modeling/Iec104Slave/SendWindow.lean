import Iec104Slave.Lib.Ring
import Iec104Slave.Lib.SlidingWindow

/-!
# The send window of a connection (`sentASDUs` in `cs104_slave.c`)

A connection remembers the I frames that the master has not confirmed yet in a ring of `k` slots,
the k-buffer: for each of them the number that confirms it and the time at which it was sent. A
received number `N(R)` is checked against the ring; if it is valid, all frames before it are
confirmed and leave the ring.

Frames are counted from 0 on, and the numbers of the code are these counts modulo 32768. The ring
is `Unconfirmed confirmed times` when the frames before `confirmed` are confirmed and the frames
from there on, sent at `times`, are not.

Results:
1. `Unconfirmed.sent`: sending adds a frame to the ring unless it is full.
2. `checkSequenceNumber_spec`: a number is valid exactly if it lies between the confirmed and the
   sent frames, and then it confirms just the frames before it, across the wrap of the numbers too.
-/

namespace Iec104Slave

open SlidingWindow

/-- Sequence numbers have 15 bits. -/
def seqModulus : Nat := 32768

/-- `SentASDUSlave`. `entryId` and `queueEntry` refer to the low-priority queue, which the program
never fills. -/
structure SentAsdu where
  seqNo : Int
  sentTime : Nat
deriving DecidableEq

/-- The k-buffer. `oldestSentASDU` is `none` for -1, and then `newestSentASDU` is not read. -/
structure KBuffer where
  sentAsdus : List SentAsdu
  oldestSentAsdu : Option Nat
  newestSentAsdu : Nat
deriving DecidableEq

namespace KBuffer

/-- `maxSentASDUs`. -/
def maxSentAsdus (b : KBuffer) : Nat := b.sentAsdus.length

/-- The k-buffer of `MasterConnection_init`: the slots of the last connection if their number is
still `k`. -/
def init (k : Nat) (b : KBuffer) : KBuffer :=
  ⟨if b.maxSentAsdus = k then b.sentAsdus else List.replicate k ⟨0, 0⟩, none, 0⟩

def isSentBufferFull (b : KBuffer) : Bool :=
  match b.oldestSentAsdu with
  | none => false
  | some oldest => (b.newestSentAsdu + 1) % b.maxSentAsdus == oldest

/-- The entry that `sendASDU` makes for a frame. -/
def recordSent (b : KBuffer) (entry : SentAsdu) : KBuffer :=
  match b.oldestSentAsdu with
  | none => ⟨b.sentAsdus.set 0 entry, some 0, 0⟩
  | some oldest =>
    let currentIndex := (b.newestSentAsdu + 1) % b.maxSentAsdus
    ⟨b.sentAsdus.set currentIndex entry, some oldest, currentIndex⟩

/-! ## The check of a received number -/

/-- The numbers of the oldest and the newest entry, as `checkSequenceNumber` reads them. -/
def bounds (b : KBuffer) (oldest : Nat) : Option (Int × Int) := do
  let first ← b.sentAsdus[oldest]?
  let last ← b.sentAsdus[b.newestSentAsdu]?
  some (first.seqNo, last.seqNo)

/-- The number of a frame that is confirmed already. -/
def oldestValidSeqNo (oldestSeqNo : Int) : Int :=
  if oldestSeqNo = 0 then 32767 else (oldestSeqNo - 1).tmod 32768

/-- `seqNoIsValid` for a k-buffer that is not empty. -/
def seqNoIsValid (oldestSeqNo newestSeqNo seqNo : Int) : Bool :=
  (if oldestSeqNo ≤ newestSeqNo then decide (seqNo ≥ oldestSeqNo ∧ seqNo ≤ newestSeqNo)
    else decide (seqNo ≥ oldestSeqNo ∨ seqNo ≤ newestSeqNo)) ||
  decide (oldestValidSeqNo oldestSeqNo = seqNo)

/-- The loop of `checkSequenceNumber` that frees entries, with `fuel` for its rounds. -/
def confirmLoop (seqNo : Int) (counterOverflowDetected : Bool) (oldestValid : Int) :
    Nat → KBuffer → Option KBuffer
  | 0, _ => none
  | fuel + 1, b => do
    let oldest ← b.oldestSentAsdu
    let entry ← b.sentAsdus[oldest]?
    if counterOverflowDetected = false ∧ seqNo < entry.seqNo then some b
    else if seqNo = oldestValid then some b
    else
      let cleared := { b with sentAsdus := b.sentAsdus.set oldest ⟨-1, 0⟩ }
      let next := (oldest + 1) % b.maxSentAsdus
      if entry.seqNo = seqNo then
        some { cleared with
          oldestSentAsdu := if oldest = b.newestSentAsdu then none else some next }
      else if next = (b.newestSentAsdu + 1) % b.maxSentAsdus then
        some { cleared with oldestSentAsdu := none }
      else
        confirmLoop seqNo counterOverflowDetected oldestValid fuel
          { cleared with oldestSentAsdu := some next }

/-- `checkSequenceNumber`, with its result. -/
def checkSequenceNumber (b : KBuffer) (sendCount seqNo : Nat) : Option (KBuffer × Bool) :=
  match b.oldestSentAsdu with
  | none => some (b, decide (seqNo = sendCount))
  | some oldest => do
    let (oldestSeqNo, newestSeqNo) ← b.bounds oldest
    if seqNoIsValid oldestSeqNo newestSeqNo seqNo then
      let confirmed ← confirmLoop seqNo (decide (newestSeqNo < oldestSeqNo))
        (oldestValidSeqNo oldestSeqNo) (b.maxSentAsdus + 1) b
      some (confirmed, true)
    else some (b, false)

/-! ## Unconfirmed frames -/

/-- The entries of the frames from `frame` on, sent at `times`. The number of an entry is the one
that confirms it, the number of the next frame. -/
def entries : Nat → List Nat → List SentAsdu
  | _, [] => []
  | frame, time :: times => ⟨((frame + 1) % seqModulus : Nat), time⟩ :: entries (frame + 1) times

/-- Slot `oldest` is the first of the entries `l`, and the newest one is the last. -/
structure Spans (b : KBuffer) (oldest : Nat) (l : List SentAsdu) : Prop where
  oldest_eq : b.oldestSentAsdu = some oldest
  holds : Ring.Holds b.sentAsdus oldest l
  newest_eq : b.newestSentAsdu = Ring.slot b.maxSentAsdus oldest (l.length - 1)

/-- The k-buffer holds the frames from `confirmed` on, sent at `times`. -/
structure Unconfirmed (b : KBuffer) (confirmed : Nat) (times : List Nat) : Prop where
  pos : 0 < b.maxSentAsdus
  window : b.maxSentAsdus < seqModulus
  le : times.length ≤ b.maxSentAsdus
  none_of_nil : times = [] → b.oldestSentAsdu = none
  spans : times ≠ [] → ∃ oldest, b.Spans oldest (entries confirmed times)

variable {b : KBuffer} {confirmed frame i : Nat} {times : List Nat}

@[simp] theorem length_entries (frame : Nat) (times : List Nat) :
    (entries frame times).length = times.length := by
  induction times generalizing frame with
  | nil => rfl
  | cons time times ih => rw [entries, List.length_cons, ih, List.length_cons]

theorem entries_append (frame : Nat) (times : List Nat) (time : Nat) :
    entries frame (times ++ [time]) =
      entries frame times ++ [⟨((frame + times.length + 1) % seqModulus : Nat), time⟩] := by
  induction times generalizing frame with
  | nil => rfl
  | cons first times ih =>
    rw [List.cons_append, entries, ih, entries, List.cons_append, List.length_cons,
      Nat.add_right_comm frame 1, Nat.add_assoc frame times.length 1]

theorem getElem?_entries (frame : Nat) (hi : i < times.length) :
    ∃ time, (entries frame times)[i]? =
      some ⟨((frame + i + 1) % seqModulus : Nat), time⟩ ∧ times[i]? = some time := by
  induction times generalizing frame i with
  | nil => cases hi
  | cons time times ih =>
    cases i with
    | zero => exact ⟨time, rfl, rfl⟩
    | succ i =>
      obtain ⟨later, hentry, htime⟩ := ih (frame + 1) (Nat.lt_of_succ_lt_succ hi)
      refine ⟨later, ?_, htime⟩
      rw [entries, List.getElem?_cons_succ, hentry, Nat.add_right_comm frame 1,
        Nat.add_assoc frame i 1]

theorem maxSentAsdus_init (k : Nat) (b : KBuffer) : (init k b).maxSentAsdus = k := by
  rw [init, maxSentAsdus]
  split
  · assumption
  · exact List.length_replicate

theorem unconfirmed_init {k : Nat} (hpos : 0 < k) (hk : k < seqModulus) (b : KBuffer)
    (confirmed : Nat) : (init k b).Unconfirmed confirmed [] := by
  have hlength := maxSentAsdus_init k b
  exact ⟨hpos.trans_eq hlength.symm, hlength.trans_lt hk, Nat.zero_le _, fun _ => rfl,
    fun h => absurd rfl h⟩

section Spans

variable {oldest : Nat} {l : List SentAsdu}

/-- The slot after the newest entry. -/
theorem Spans.next (h : b.Spans oldest l) (hl : l ≠ []) :
    (b.newestSentAsdu + 1) % b.maxSentAsdus = Ring.slot b.maxSentAsdus oldest l.length := by
  have hpos := List.length_pos_iff.mpr hl
  rw [h.newest_eq, Ring.slot, Nat.mod_add_mod, Ring.slot, Nat.add_assoc, Nat.sub_add_cancel hpos]

theorem Spans.oldest_lt (h : b.Spans oldest l) : oldest < b.maxSentAsdus := h.holds.head_lt

theorem Spans.length_le (h : b.Spans oldest l) : l.length ≤ b.maxSentAsdus := h.holds.length_le

/-- A slot of the ring is the oldest one only after a whole round. -/
theorem Spans.slot_eq_oldest_iff (h : b.Spans oldest l) (hi : i ≤ b.maxSentAsdus) (hpos : 0 < i) :
    Ring.slot b.maxSentAsdus oldest i = oldest ↔ i = b.maxSentAsdus := by
  have hlt := h.oldest_lt
  constructor
  · intro heq
    by_contra hne
    have hinj := Ring.slot_inj (j := 0) (Nat.lt_of_le_of_ne hi hne) (Nat.zero_lt_of_lt hlt)
      (heq.trans (Ring.slot_zero hlt).symm)
    exact Nat.ne_of_gt hpos hinj
  · intro heq
    rw [heq, Ring.slot, Nat.add_mod_right, Nat.mod_eq_of_lt hlt]

theorem Spans.isFull_iff (h : b.Spans oldest l) (hl : l ≠ []) :
    b.isSentBufferFull = true ↔ l.length = b.maxSentAsdus := by
  rw [isSentBufferFull, h.oldest_eq, beq_iff_eq, h.next hl]
  exact h.slot_eq_oldest_iff h.length_le (List.length_pos_iff.mpr hl)

theorem Spans.recordSent (h : b.Spans oldest l) (hl : l ≠ []) (hroom : l.length < b.maxSentAsdus)
    (entry : SentAsdu) : (b.recordSent entry).Spans oldest (l ++ [entry]) := by
  have hrecord : b.recordSent entry =
      ⟨b.sentAsdus.set (Ring.slot b.maxSentAsdus oldest l.length) entry, some oldest,
        Ring.slot b.maxSentAsdus oldest l.length⟩ := by
    rw [KBuffer.recordSent, h.oldest_eq]
    simp only [h.next hl]
  rw [hrecord]
  refine ⟨rfl, h.holds.pushBack hroom entry, ?_⟩
  simp [maxSentAsdus]

/-- Only one entry is left exactly if the oldest entry is the newest one. -/
theorem Spans.oldest_eq_newest_iff {entry : SentAsdu} (h : b.Spans oldest (entry :: l)) :
    oldest = b.newestSentAsdu ↔ l = [] := by
  have hlt := h.oldest_lt
  have hle := h.length_le
  rw [List.length_cons] at hle
  rw [h.newest_eq, List.length_cons, Nat.add_sub_cancel]
  constructor
  · intro heq
    have hinj := Ring.slot_inj (i := 0) (Nat.zero_lt_of_lt hlt) hle
      ((Ring.slot_zero hlt).trans heq)
    exact List.length_eq_zero_iff.mp hinj.symm
  · rintro rfl
    exact (Ring.slot_zero hlt).symm

/-- The slot after the oldest entry comes after the newest one too only if they are the same. -/
theorem Spans.next_eq_next_iff {entry : SentAsdu} (h : b.Spans oldest (entry :: l)) :
    (oldest + 1) % b.maxSentAsdus = (b.newestSentAsdu + 1) % b.maxSentAsdus ↔ l = [] := by
  have hlt := h.oldest_lt
  have hle := h.length_le
  rw [List.length_cons] at hle
  rw [h.next (List.cons_ne_nil _ _), List.length_cons, Nat.add_comm l.length 1, ← Ring.slot_slot]
  have hslot : (oldest + 1) % b.maxSentAsdus = Ring.slot b.maxSentAsdus oldest 1 := rfl
  have hfirst : Ring.slot b.maxSentAsdus oldest 1 < b.maxSentAsdus :=
    Ring.slot_lt (Nat.zero_lt_of_lt hlt)
  rw [hslot]
  constructor
  · intro heq
    have hinj := Ring.slot_inj (i := 0) (Nat.zero_lt_of_lt hlt) hle
      ((Ring.slot_zero hfirst).trans heq)
    exact List.length_eq_zero_iff.mp hinj.symm
  · rintro rfl
    exact (Ring.slot_zero hfirst).symm

/-- Clearing the oldest entry and moving on leaves the others. -/
theorem Spans.tail {entry cleared : SentAsdu} (h : b.Spans oldest (entry :: l)) (hl : l ≠ []) :
    KBuffer.Spans ⟨b.sentAsdus.set oldest cleared, some ((oldest + 1) % b.maxSentAsdus),
      b.newestSentAsdu⟩ ((oldest + 1) % b.maxSentAsdus) l := by
  have hlength : (b.sentAsdus.set oldest cleared).length = b.sentAsdus.length := List.length_set
  have hset := h.holds.set (i := 0) (Nat.zero_lt_succ _) cleared
  rw [Ring.slot_zero h.holds.head_lt] at hset
  have hdrop := hset.drop 1
  rw [hlength] at hdrop
  refine ⟨rfl, hdrop, ?_⟩
  have hpos := List.length_pos_iff.mpr hl
  calc b.newestSentAsdu
      = Ring.slot b.maxSentAsdus oldest (1 + (l.length - 1)) := by
        rw [h.newest_eq, List.length_cons, Nat.add_sub_cancel, Nat.add_sub_cancel' hpos]
    _ = Ring.slot b.maxSentAsdus ((oldest + 1) % b.maxSentAsdus) (l.length - 1) :=
        (Ring.slot_slot 1).symm
    _ = Ring.slot (b.sentAsdus.set oldest cleared).length ((oldest + 1) % b.maxSentAsdus)
          (l.length - 1) := by rw [hlength, maxSentAsdus]

end Spans

/-! ### Sending -/

theorem entries_ne_nil (h : times ≠ []) : entries frame times ≠ [] := by
  intro hnil
  exact h (List.length_eq_zero_iff.mp ((length_entries frame times).symm.trans (by rw [hnil]; rfl)))

theorem Unconfirmed.isFull_iff (h : b.Unconfirmed confirmed times) :
    b.isSentBufferFull = true ↔ times.length = b.maxSentAsdus := by
  by_cases hnil : times = []
  · rw [isSentBufferFull, h.none_of_nil hnil, hnil]
    simpa using Nat.ne_of_lt h.pos
  · obtain ⟨oldest, hspans⟩ := h.spans hnil
    rw [hspans.isFull_iff (entries_ne_nil hnil), length_entries]

@[simp] theorem maxSentAsdus_recordSent (b : KBuffer) (entry : SentAsdu) :
    (b.recordSent entry).maxSentAsdus = b.maxSentAsdus := by
  rw [recordSent]
  split <;> exact List.length_set

/-- A sent frame is the newest unconfirmed one. -/
theorem Unconfirmed.sent (h : b.Unconfirmed confirmed times) (hroom : b.isSentBufferFull = false)
    (time : Nat) :
    (b.recordSent ⟨((confirmed + times.length + 1) % seqModulus : Nat), time⟩).Unconfirmed
      confirmed (times ++ [time]) := by
  have hlt : times.length < b.maxSentAsdus := by
    refine Nat.lt_of_le_of_ne h.le fun heq => ?_
    rw [h.isFull_iff.mpr heq] at hroom
    cases hroom
  refine ⟨?_, ?_, ?_, fun hnil => absurd hnil (by simp), fun _ => ?_⟩
  · rw [maxSentAsdus_recordSent]
    exact h.pos
  · rw [maxSentAsdus_recordSent]
    exact h.window
  · rw [maxSentAsdus_recordSent, List.length_append, List.length_singleton]
    exact hlt
  rw [entries_append]
  by_cases hnil : times = []
  · -- the first entry of an empty ring goes into slot 0
    subst hnil
    refine ⟨0, ?_⟩
    rw [recordSent, h.none_of_nil rfl]
    have hnone : Ring.Holds b.sentAsdus 0 [] := Ring.holds_nil h.pos
    have hholds := hnone.pushBack h.pos
      ⟨((confirmed + ([] : List Nat).length + 1) % seqModulus : Nat), time⟩
    rw [List.length_nil, Ring.slot_zero (show 0 < b.sentAsdus.length from h.pos)] at hholds
    exact ⟨rfl, hholds, (Ring.slot_zero (h.pos.trans_eq List.length_set.symm)).symm⟩
  · obtain ⟨oldest, hspans⟩ := h.spans hnil
    exact ⟨oldest, hspans.recordSent (entries_ne_nil hnil) (by rwa [length_entries]) _⟩

/-! ### Confirming -/

theorem oldestValidSeqNo_eq (confirmed : Nat) :
    oldestValidSeqNo (((confirmed + 1) % seqModulus : Nat) : Int) =
      ((confirmed % seqModulus : Nat) : Int) := by
  rw [oldestValidSeqNo, seqModulus]
  split
  · omega
  · rw [Int.tmod_eq_emod_of_nonneg (by omega)]
    omega

/-- The code's comparison, with the case of a wrap between the oldest and the newest number, is
membership in the window. -/
theorem seqNoIsValid_iff {n seqNo : Nat} (confirmed : Nat) (hn : 0 < n) (hmod : n < seqModulus)
    (hseq : seqNo < seqModulus) :
    seqNoIsValid (((confirmed + 1) % seqModulus : Nat) : Int)
      (((confirmed + n) % seqModulus : Nat) : Int) seqNo = true ↔
      InWindow seqModulus confirmed n seqNo := by
  rw [seqNoIsValid, oldestValidSeqNo_eq]
  rw [seqModulus] at *
  have hwindow : InWindow 32768 confirmed n seqNo ↔
      (seqNo + 32768 - confirmed % 32768) % 32768 ≤ n := by
    constructor
    · rintro ⟨j, hj, hjseq⟩
      omega
    · intro hle
      exact ⟨_, hle, by omega⟩
  rw [hwindow]
  split <;> simp only [Bool.or_eq_true, decide_eq_true_eq] <;> omega

variable {oldestValid : Int} {overflow : Bool} {fuel seqNo : Nat}

/-- One round of the loop at an entry that is confirmed. -/
theorem confirmLoop_round {time : Nat} {rest : List Nat} {oldest : Nat} (fuel : Nat)
    (h : b.Unconfirmed confirmed (time :: rest))
    (hspans : b.Spans oldest (entries confirmed (time :: rest)))
    (horder : overflow = false → ((confirmed + 1) % seqModulus : Nat) ≤ seqNo)
    (hvalid : (seqNo : Int) ≠ oldestValid) :
    ∃ next : KBuffer, next.Unconfirmed (confirmed + 1) rest ∧
      next.maxSentAsdus = b.maxSentAsdus ∧
      confirmLoop seqNo overflow oldestValid (fuel + 1) b =
        if (confirmed + 1) % seqModulus = seqNo then some next
        else if rest = [] then some next
        else confirmLoop seqNo overflow oldestValid fuel next := by
  have hentry : b.sentAsdus[oldest]? =
      some ⟨((confirmed + 1) % seqModulus : Nat), time⟩ := hspans.holds.front
  have hnext := hspans.next_eq_next_iff
  have hnewest := hspans.oldest_eq_newest_iff
  have hrest : entries (confirmed + 1) rest = [] ↔ rest = [] := by
    rw [← List.length_eq_zero_iff, length_entries, List.length_eq_zero_iff]
  rw [hrest] at hnext hnewest
  have hlength : (b.sentAsdus.set oldest ⟨-1, 0⟩).length = b.sentAsdus.length := List.length_set
  have hle := h.le
  rw [List.length_cons] at hle
  refine ⟨⟨b.sentAsdus.set oldest ⟨-1, 0⟩,
    if rest = [] then none else some ((oldest + 1) % b.maxSentAsdus), b.newestSentAsdu⟩,
    ⟨h.pos.trans_eq hlength.symm, hlength.trans_lt h.window, ?_, ?_, ?_⟩, hlength, ?_⟩
  · rw [maxSentAsdus, hlength]
    exact Nat.le_of_succ_le hle
  · intro hnil
    exact if_pos hnil
  · intro hne
    rw [if_neg hne]
    exact ⟨_, hspans.tail (entries_ne_nil hne)⟩
  · have hbreak : ¬ (overflow = false ∧
        (seqNo : Int) < (((confirmed + 1) % seqModulus : Nat) : Int)) :=
      fun ⟨hoverflow, hlt⟩ => absurd (horder hoverflow) (Nat.not_le.mpr (Int.ofNat_lt.mp hlt))
    rw [confirmLoop, hspans.oldest_eq, Option.bind_eq_bind, Option.bind_some, hentry,
      Option.bind_eq_bind, Option.bind_some, if_neg hbreak, if_neg hvalid]
    simp only [Int.natCast_inj, hnext, hnewest]
    by_cases hnil : rest = []
    · simp only [if_pos hnil]
    · simp only [if_neg hnil]

/-- The loop confirms the frames before the received number. -/
theorem confirmLoop_spec {j : Nat} (h : b.Unconfirmed confirmed times) (hj : j < times.length)
    (hfuel : j < fuel) (hseq : seqNo = (confirmed + (j + 1)) % seqModulus)
    (horder : overflow = false → ∀ i ≤ j, (confirmed + (i + 1)) % seqModulus ≤ seqNo)
    (hvalid : (seqNo : Int) ≠ oldestValid) :
    ∃ b', confirmLoop seqNo overflow oldestValid fuel b = some b' ∧
      b'.Unconfirmed (confirmed + (j + 1)) (times.drop (j + 1)) ∧
      b'.maxSentAsdus = b.maxSentAsdus := by
  induction fuel generalizing b confirmed times j with
  | zero => cases hfuel
  | succ fuel ih =>
    cases times with
    | nil => cases hj
    | cons time rest =>
      obtain ⟨oldest, hspans⟩ := h.spans (List.cons_ne_nil _ _)
      obtain ⟨next, hnext, hlength, hround⟩ := confirmLoop_round fuel h hspans
        (fun hoverflow => horder hoverflow 0 (Nat.zero_le _)) hvalid
      rw [hround]
      cases j with
      | zero => exact ⟨next, if_pos hseq.symm, hnext, hlength⟩
      | succ j =>
        -- the number of this entry is not the received one: both lie in one window
        have hne : (confirmed + 1) % seqModulus ≠ seqNo := by
          rw [hseq]
          intro heq
          have hinj := number_inj (n := (time :: rest).length) (by simp) hj
            (Nat.lt_of_le_of_lt h.le h.window) heq
          omega
        have hj' : j < rest.length := Nat.lt_of_succ_lt_succ hj
        have hrest : rest ≠ [] := List.ne_nil_of_length_pos (Nat.zero_lt_of_lt hj')
        rw [if_neg hne, if_neg hrest]
        have hshift : ∀ i, confirmed + 1 + i = confirmed + (i + 1) := fun i => by omega
        obtain ⟨b', hloop, hb', hsize⟩ := ih hnext hj' (Nat.lt_of_succ_lt_succ hfuel)
          (by rw [hshift]; exact hseq)
          (fun hoverflow i hi => by
            rw [hshift]
            exact horder hoverflow (i + 1) (Nat.succ_le_succ hi))
        rw [hshift] at hb'
        exact ⟨b', hloop, hb', hsize.trans hlength⟩

/-- Without a wrap the numbers of the window grow up to the received one. -/
theorem number_le_of_no_wrap {n i j : Nat} (hij : i ≤ j) (hj : j < n) (hn : n < seqModulus)
    (hwrap : (confirmed + 1) % seqModulus ≤ (confirmed + n) % seqModulus) :
    (confirmed + (i + 1)) % seqModulus ≤ (confirmed + (j + 1)) % seqModulus := by
  rw [seqModulus] at *
  omega

theorem Spans.bounds_eq {oldest : Nat} (hne : times ≠ [])
    (hspans : b.Spans oldest (entries confirmed times)) :
    b.bounds oldest = some ((((confirmed + 1) % seqModulus : Nat) : Int),
      (((confirmed + times.length) % seqModulus : Nat) : Int)) := by
  have hpos := List.length_pos_iff.mpr hne
  obtain ⟨firstTime, hfirst, -⟩ := getElem?_entries confirmed hpos
  obtain ⟨lastTime, hlast, -⟩ :=
    getElem?_entries confirmed (Nat.sub_lt hpos Nat.one_pos)
  have hfirstSlot := hspans.holds.get _ _ hfirst
  have hlastSlot := hspans.holds.get _ _ hlast
  rw [Ring.slot_zero hspans.holds.head_lt] at hfirstSlot
  have hnewest : b.sentAsdus[b.newestSentAsdu]? =
      some ⟨(((confirmed + times.length) % seqModulus : Nat) : Int), lastTime⟩ := by
    rw [hspans.newest_eq, length_entries, ← Nat.sub_add_cancel hpos, ← Nat.add_assoc,
      Nat.add_sub_cancel]
    exact hlastSlot
  rw [bounds, hfirstSlot, hnewest]
  rfl

/-- The number before the oldest entry confirms nothing. -/
theorem Spans.confirmLoop_oldestValid {oldest : Nat} {entry : SentAsdu} {l : List SentAsdu}
    (h : b.Spans oldest (entry :: l)) (overflow : Bool) (seqNo : Int) (fuel : Nat) :
    confirmLoop seqNo overflow seqNo (fuel + 1) b = some b := by
  rw [confirmLoop, h.oldest_eq, Option.bind_eq_bind, Option.bind_some, h.holds.front,
    Option.bind_eq_bind, Option.bind_some, if_pos rfl]
  exact ite_self _

/-- A received number is valid exactly if it lies in the window of the unconfirmed frames, and
then it confirms the frames before it. -/
theorem checkSequenceNumber_spec (h : b.Unconfirmed confirmed times) (hseq : seqNo < seqModulus) :
    ∃ b' valid, b.checkSequenceNumber ((confirmed + times.length) % seqModulus) seqNo =
        some (b', valid) ∧
      b'.maxSentAsdus = b.maxSentAsdus ∧
      (valid = true ↔ InWindow seqModulus confirmed times.length seqNo) ∧
      (valid = false → b' = b) ∧
      ∀ j ≤ times.length, seqNo = (confirmed + j) % seqModulus →
        b'.Unconfirmed (confirmed + j) (times.drop j) := by
  have hlt : times.length < seqModulus := Nat.lt_of_le_of_lt h.le h.window
  by_cases hnil : times = []
  · subst hnil
    refine ⟨b, decide (seqNo = confirmed % seqModulus), ?_, rfl, ?_, fun _ => rfl, ?_⟩
    · rw [checkSequenceNumber, h.none_of_nil rfl]
      rfl
    · simp [InWindow]
    · intro j hj _
      obtain rfl := Nat.le_zero.mp hj
      exact h
  obtain ⟨oldest, hspans⟩ := h.spans hnil
  have hpos := List.length_pos_iff.mpr hnil
  have hbounds := Spans.bounds_eq hnil hspans
  have hvalid_iff := seqNoIsValid_iff confirmed hpos hlt hseq
  by_cases hwindow : InWindow seqModulus confirmed times.length seqNo
  · obtain ⟨j, hj, hjseq⟩ := hwindow
    have hunique : ∀ i ≤ times.length, seqNo = (confirmed + i) % seqModulus → i = j :=
      fun i hi heq => number_inj hi hj hlt (heq.symm.trans hjseq)
    suffices hloop : ∃ b', confirmLoop seqNo
        (decide ((((confirmed + times.length) % seqModulus : Nat) : Int) <
          (((confirmed + 1) % seqModulus : Nat) : Int)))
        (oldestValidSeqNo (((confirmed + 1) % seqModulus : Nat) : Int)) (b.maxSentAsdus + 1) b =
          some b' ∧ b'.Unconfirmed (confirmed + j) (times.drop j) ∧
          b'.maxSentAsdus = b.maxSentAsdus by
      obtain ⟨b', hloop, hb', hsize⟩ := hloop
      refine ⟨b', true, ?_, hsize, ?_, Bool.noConfusion, fun i hi heq => ?_⟩
      · rw [checkSequenceNumber, hspans.oldest_eq]
        simp only [hbounds, Option.bind_eq_bind, Option.bind_some, hloop,
          if_pos (hvalid_iff.mpr ⟨j, hj, hjseq⟩)]
      · exact ⟨fun _ => ⟨j, hj, hjseq⟩, fun _ => rfl⟩
      · rw [hunique i hi heq]
        exact hb'
    rw [oldestValidSeqNo_eq]
    cases j with
    | zero =>
      -- nothing new is confirmed: the loop ends in its first round
      refine ⟨b, ?_, h, rfl⟩
      obtain ⟨time, rest, rfl⟩ := List.exists_cons_of_ne_nil hnil
      rw [hjseq]
      exact hspans.confirmLoop_oldestValid _ _ _
    | succ j =>
      refine confirmLoop_spec h hj ?_ hjseq ?_ ?_
      · exact Nat.lt_succ_of_lt (Nat.lt_of_lt_of_le hj h.le)
      · intro hoverflow i hi
        have hwrap := of_decide_eq_false hoverflow
        rw [hjseq]
        exact number_le_of_no_wrap hi hj hlt (by omega)
      · rw [hjseq]
        intro heq
        have hinj := number_inj (i := j + 1) (j := 0) hj (Nat.zero_le _) hlt (Int.ofNat.inj heq)
        cases hinj
  · refine ⟨b, false, ?_, rfl, ?_, fun _ => rfl, fun j hj hjseq => absurd ⟨j, hj, hjseq⟩ hwindow⟩
    · rw [checkSequenceNumber, hspans.oldest_eq]
      simp only [hbounds, Option.bind_eq_bind, Option.bind_some,
        if_neg (fun hvalid => hwindow (hvalid_iff.mp hvalid))]
    · exact ⟨Bool.noConfusion, fun hin => absurd hin hwindow⟩

/-- A new time for the oldest unconfirmed frame. -/
theorem Unconfirmed.retime {time oldest : Nat} {entry : SentAsdu}
    (h : b.Unconfirmed confirmed (time :: times)) (hold : b.oldestSentAsdu = some oldest)
    (hentry : b.sentAsdus[oldest]? = some entry) (now : Nat) :
    KBuffer.Unconfirmed
      { b with sentAsdus := b.sentAsdus.set oldest { entry with sentTime := now } }
      confirmed (now :: times) := by
  have hlength : (b.sentAsdus.set oldest { entry with sentTime := now }).length =
      b.sentAsdus.length := List.length_set
  refine ⟨h.pos.trans_eq hlength.symm, hlength.trans_lt h.window, h.le.trans_eq hlength.symm,
    fun hnil => absurd hnil (List.cons_ne_nil _ _), fun _ => ⟨oldest, hold, ?_, ?_⟩⟩
  · obtain ⟨oldest', hspans⟩ := h.spans (List.cons_ne_nil _ _)
    obtain rfl : oldest' = oldest := Option.some.inj (hspans.oldest_eq.symm.trans hold)
    obtain rfl := Option.some.inj (hspans.holds.front.symm.trans hentry)
    have hset := hspans.holds.set (i := 0) (Nat.zero_lt_succ _)
      ⟨((confirmed + 1) % seqModulus : Nat), now⟩
    rw [Ring.slot_zero hspans.holds.head_lt] at hset
    exact hset
  · obtain ⟨oldest', hspans⟩ := h.spans (List.cons_ne_nil _ _)
    obtain rfl : oldest' = oldest := Option.some.inj (hspans.oldest_eq.symm.trans hold)
    have hnewest := hspans.newest_eq
    rw [length_entries] at hnewest ⊢
    rw [maxSentAsdus, hlength]
    exact hnewest

/-- The oldest entry of the ring is the one of the first unconfirmed frame. -/
theorem Unconfirmed.oldest_entry {oldest : Nat} {entry : SentAsdu}
    (h : b.Unconfirmed confirmed times) (hold : b.oldestSentAsdu = some oldest)
    (hentry : b.sentAsdus[oldest]? = some entry) :
    ∃ rest, times = entry.sentTime :: rest := by
  cases times with
  | nil =>
    rw [h.none_of_nil rfl] at hold
    cases hold
  | cons time rest =>
    obtain ⟨oldest', hspans⟩ := h.spans (List.cons_ne_nil _ _)
    obtain rfl : oldest' = oldest := Option.some.inj (hspans.oldest_eq.symm.trans hold)
    obtain rfl := Option.some.inj (hspans.holds.front.symm.trans hentry)
    exact ⟨rest, rfl⟩

end KBuffer

end Iec104Slave
