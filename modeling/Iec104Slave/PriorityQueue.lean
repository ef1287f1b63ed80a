import Iec104Slave.Lib.Records
import Iec104Slave.Lib.Run

/-!
# The queue of waiting ASDUs (`HighPriorityASDUQueue` in `cs104_slave.c`)

`IMasterConnection_sendASDU` puts an encoded ASDU into this queue, and the thread of the active
connection takes the oldest one out when its send window has room. The queue is a byte buffer:
ASDUs of different sizes stand behind one another, each with its length in front of it. When an
ASDU does not fit behind the last one it goes to the start of the buffer. Pointers into the buffer
are offsets, and an access outside of the buffer gives `none`.

`Overruns q asdu` is the case that the code does not provide for: the queue has wrapped already,
and the ASDU does not fit between the entries at the start of the buffer and the end of the buffer.
The code then wraps once more, over entries that are still waiting.

Results:
1. `Layout.enqueue`, `getNextAsdu_represents`: as long as nothing overruns the buffer is a FIFO of
   ASDUs, and an ASDU is accepted exactly if there is room for it.
2. `not_overruns_of_le`: an ASDU that is not longer than the oldest one waiting does not overrun.
3. `priority_queue_fifo_iff`: over every run, what was accepted is what was taken and what is
   waiting, in this order, exactly if no ASDU overruns.
-/

namespace Iec104Slave

open Records

/-- `IEC60870_5_104_APCI_LENGTH`. -/
def apciLength : Nat := 6

/-- The greatest size of an ASDU, `256 - IEC60870_5_104_APCI_LENGTH`. -/
def maxQueuedAsdu : Nat := 256 - apciLength

/-- `high_priority_queue_size`. The program takes it from the configuration without a check; beyond
the bound the number of bytes of the queue does not fit an `int`. -/
structure QueueSize where
  value : Int
  fits : value ≤ 8323580
deriving DecidableEq

/-- `HighPriorityASDUQueue`. A pointer into `buffer` is its offset, `none` is `NULL`. -/
structure HighPriorityAsduQueue where
  buffer : List UInt8
  entryCounter : Nat
  firstEntry : Option Nat
  lastEntry : Option Nat
  lastInBufferEntry : Option Nat
deriving DecidableEq

namespace HighPriorityAsduQueue

def size (q : HighPriorityAsduQueue) : Nat := q.buffer.length

/-- `HighPriorityASDUQueue_create`. The number of bytes is kept in an `int`. -/
def create (maxQueueSize : Nat) : HighPriorityAsduQueue where
  buffer := List.replicate (Int32.ofInt (maxQueueSize * (2 + 256))).toInt.toNat 0
  entryCounter := 0
  firstEntry := none
  lastEntry := none
  lastInBufferEntry := none

/-- `CONFIG_CS104_MESSAGE_QUEUE_HIGH_PRIO_SIZE`. -/
def defaultQueueSize : Nat := 50

/-- The queue that `initializeMessageQueues` creates for `high_priority_queue_size`. -/
def initializeMessageQueue (highPrioMaxQueueSize : QueueSize) : HighPriorityAsduQueue :=
  create (if highPrioMaxQueueSize.value < 1 then defaultQueueSize
    else highPrioMaxQueueSize.value.toNat)

/-- `HighPriorityASDUQueue_resetConnectionQueue`. -/
def resetConnectionQueue (q : HighPriorityAsduQueue) : HighPriorityAsduQueue :=
  { q with entryCounter := 0, firstEntry := none, lastEntry := none, lastInBufferEntry := none }

/-! ## Putting an ASDU in -/

/-- `nextMsgPtr`: behind the last entry, or the start of the buffer. -/
def nextPlace (q : HighPriorityAsduQueue) : Option (HighPriorityAsduQueue × Nat) :=
  if q.entryCounter = 0 then
    some ({ q with firstEntry := some 0, lastInBufferEntry := some 0 }, 0)
  else do
    let last ← q.lastEntry
    let msgSize ← recordLength q.buffer last
    some (q, last + 2 + msgSize)

/-- An entry that does not fit behind the last one goes to the start of the buffer. -/
def wrapPlace (q : HighPriorityAsduQueue) (next entrySize : Nat) : HighPriorityAsduQueue × Nat :=
  if next + entrySize > q.size then ({ q with lastInBufferEntry := q.lastEntry }, 0)
  else (q, next)

/-- The test for room before the first entry. -/
def claimPlace (q : HighPriorityAsduQueue) (next entrySize : Nat) :
    Option (HighPriorityAsduQueue × Bool) :=
  if q.entryCounter > 0 then do
    let first ← q.firstEntry
    if next ≤ first then some (q, !decide (next + entrySize > first))
    else some ({ q with lastInBufferEntry := some next }, true)
  else some (q, true)

def putEntry (q : HighPriorityAsduQueue) (next : Nat) (asdu : List UInt8) :
    Option HighPriorityAsduQueue := do
  let encoded ← store q.buffer (next + 2) asdu
  let buffer ← store encoded next (LittleEndian.encode 2 asdu.length)
  some { q with buffer := buffer, lastEntry := some next, entryCounter := q.entryCounter + 1 }

/-- `HighPriorityASDUQueue_enqueue`, with its result. -/
def enqueue (q : HighPriorityAsduQueue) (asdu : List UInt8) :
    Option (HighPriorityAsduQueue × Bool) :=
  if asdu.length > maxQueuedAsdu then some (q, false)
  else do
    let place ← q.nextPlace
    let wrapped := place.1.wrapPlace place.2 (2 + asdu.length)
    let claimed ← wrapped.1.claimPlace wrapped.2 (2 + asdu.length)
    if claimed.2 then (claimed.1.putEntry wrapped.2 asdu).map (·, true)
    else some (claimed.1, false)

/-! ## Taking an ASDU out -/

/-- The pointers when the first entry is gone and others are left. -/
def advance (q : HighPriorityAsduQueue) (first msgSize : Nat) : HighPriorityAsduQueue :=
  if q.firstEntry = q.lastEntry then
    { q with firstEntry := none, lastEntry := none, lastInBufferEntry := none }
  else if q.firstEntry = q.lastInBufferEntry then
    { q with firstEntry := some 0, lastInBufferEntry := q.lastEntry }
  else { q with firstEntry := some (first + 2 + msgSize) }

/-- The first entry is taken: the pointers move only if others are left. -/
def dropFirst (q : HighPriorityAsduQueue) (first msgSize : Nat) : HighPriorityAsduQueue :=
  let left := { q with entryCounter := q.entryCounter - 1 }
  if left.entryCounter > 0 then left.advance first msgSize else left

/-- `HighPriorityASDUQueue_getNextASDU`, with the copy that its caller makes of the ASDU before it
gives the lock back. -/
def getNextAsdu (q : HighPriorityAsduQueue) :
    Option (HighPriorityAsduQueue × Option (List UInt8)) :=
  if q.entryCounter > 0 then do
    let first ← q.firstEntry
    let msgSize ← recordLength q.buffer first
    let asdu ← load q.buffer (first + 2) msgSize
    some (q.dropFirst first msgSize, some asdu)
  else some (q, none)

/-- `HighPriorityASDUQueue_isAsduAvailable`. -/
def isAsduAvailable (q : HighPriorityAsduQueue) : Bool := decide (q.entryCounter > 0)

/-! ## The ASDUs that are waiting -/

/-- The entries `front` stand from `first` on, and those in `back`, if any, at the start of the
buffer. -/
structure Layout (q : HighPriorityAsduQueue) (first : Nat) (front back : List (List UInt8)) :
    Prop where
  ne_nil : front ≠ []
  firstEntry : q.firstEntry = some first
  lastInBuffer : q.lastInBufferEntry = some (first + (records front.dropLast).length)
  lastEntry : q.lastEntry =
    if back = [] then q.lastInBufferEntry else some (records back.dropLast).length
  entryCounter : q.entryCounter = (front ++ back).length
  front_at : At q.buffer first (records front)
  back_at : At q.buffer 0 (records back)
  back_le : (records back).length ≤ first
  small : ∀ x ∈ front ++ back, x.length ≤ maxQueuedAsdu

/-- The queue holds the ASDUs `xs`, the oldest one first. -/
structure Represents (q : HighPriorityAsduQueue) (xs : List (List UInt8)) : Prop where
  room : 2 + maxQueuedAsdu ≤ q.size
  waiting : xs = [] ∧ q.entryCounter = 0 ∨
    ∃ first front back, q.Layout first front back ∧ xs = front ++ back

/-- Where the entries at the start of the buffer end, in a queue that has wrapped. -/
def wrappedEnd (q : HighPriorityAsduQueue) : Option Nat := do
  let first ← q.firstEntry
  let last ← q.lastEntry
  if last < first then (recordLength q.buffer last).map (last + 2 + ·) else none

/-- The queue has wrapped, and the ASDU does not fit behind its last entry even if all entries at
the end of the buffer were gone. -/
def Overruns (q : HighPriorityAsduQueue) (asdu : List UInt8) : Prop :=
  0 < q.entryCounter ∧ asdu.length ≤ maxQueuedAsdu ∧
    ∃ stop ∈ q.wrappedEnd, q.size < stop + (2 + asdu.length)

instance (q : HighPriorityAsduQueue) (asdu : List UInt8) : Decidable (q.Overruns asdu) :=
  inferInstanceAs (Decidable (_ ∧ _ ∧ _))

/-- The room for an ASDU: behind the last entry, or at the start of the buffer. -/
def HasRoom (size first : Nat) (front back : List (List UInt8)) (asdu : List UInt8) : Prop :=
  if back = [] then
    first + (records front).length + (2 + asdu.length) ≤ size ∨ 2 + asdu.length ≤ first
  else (records back).length + (2 + asdu.length) ≤ first

variable {q q' place : HighPriorityAsduQueue} {front back xs : List (List UInt8)}
  {asdu x : List UInt8} {first next : Nat}

/-! ### Layouts -/

/-- The length in front of the last of some entries can be read. -/
theorem recordLength_last {mem : List UInt8} {off : Nat} {init : List (List UInt8)}
    (hat : At mem off (records (init ++ [x]))) (hx : x.length ≤ maxQueuedAsdu) :
    recordLength mem (off + (records init).length) = some x.length :=
  recordLength_of_at (Nat.lt_of_le_of_lt hx (by decide)) (at_records_concat.mp hat).2

theorem length_records_concat (init : List (List UInt8)) (x : List UInt8) :
    (records (init ++ [x])).length = (records init).length + 2 + x.length := by
  rw [records_append, records_singleton, List.length_append, length_record, Nat.add_assoc]

theorem Layout.counted (h : q.Layout first front back) : 0 < q.entryCounter := by
  rw [h.entryCounter, List.length_append]
  exact Nat.add_pos_left (List.length_pos_iff.mpr h.ne_nil) _

/-- The last entry at the start of the buffer. -/
theorem Layout.last_back {init : List (List UInt8)} (h : q.Layout first front (init ++ [x])) :
    q.lastEntry = some (records init).length ∧
      recordLength q.buffer (records init).length = some x.length := by
  refine ⟨by rw [h.lastEntry, if_neg (by simp), List.dropLast_concat], ?_⟩
  have hlen := recordLength_last h.back_at (h.small x (by simp))
  rwa [Nat.zero_add] at hlen

/-- The last entry of a queue that has not wrapped. -/
theorem Layout.last_front {init : List (List UInt8)} (h : q.Layout first (init ++ [x]) []) :
    q.lastEntry = some (first + (records init).length) ∧
      recordLength q.buffer (first + (records init).length) = some x.length := by
  refine ⟨by rw [h.lastEntry, if_pos rfl, h.lastInBuffer, List.dropLast_concat], ?_⟩
  exact recordLength_last h.front_at (h.small x (by simp))

theorem Layout.nextPlace (h : q.Layout first front back) :
    q.nextPlace = some (q, if back = [] then first + (records front).length
      else (records back).length) := by
  have hcount : q.entryCounter ≠ 0 := Nat.ne_of_gt h.counted
  rcases eq_nil_or_snoc back with rfl | ⟨init, x, rfl⟩
  · obtain ⟨init, x, rfl⟩ := (eq_nil_or_snoc front).resolve_left h.ne_nil
    simp [HighPriorityAsduQueue.nextPlace, hcount, h.last_front, Nat.add_assoc]
  · simp [HighPriorityAsduQueue.nextPlace, hcount, h.last_back, Nat.add_assoc]

theorem Layout.wrappedEnd (h : q.Layout first front back) :
    q.wrappedEnd = if back = [] then none else some (records back).length := by
  rcases eq_nil_or_snoc back with rfl | ⟨init, x, rfl⟩
  · obtain ⟨init, x, rfl⟩ := (eq_nil_or_snoc front).resolve_left h.ne_nil
    simp [HighPriorityAsduQueue.wrappedEnd, h.firstEntry, h.last_front]
  · have hle := h.back_le
    rw [length_records_concat] at hle
    have hlt : (records init).length < first := by omega
    simp [HighPriorityAsduQueue.wrappedEnd, h.firstEntry, h.last_back, hlt, Nat.add_assoc]

theorem Layout.overruns_iff (h : q.Layout first front back) (hasdu : asdu.length ≤ maxQueuedAsdu) :
    q.Overruns asdu ↔ back ≠ [] ∧ q.size < (records back).length + (2 + asdu.length) := by
  rw [Overruns, h.wrappedEnd]
  by_cases hback : back = [] <;> simp [hback, h.counted, hasdu]

/-- The last entry is not the first one as long as there are two. -/
theorem Layout.last_ne (h : q.Layout first front back) (htwo : 1 < q.entryCounter) :
    q.firstEntry ≠ q.lastEntry := by
  rw [h.firstEntry]
  rcases eq_nil_or_snoc back with rfl | ⟨init, x, rfl⟩
  · obtain ⟨init, x, rfl⟩ := (eq_nil_or_snoc front).resolve_left h.ne_nil
    rw [h.entryCounter] at htwo
    obtain ⟨y, rest, rfl⟩ : ∃ y rest, init = y :: rest :=
      List.exists_cons_of_ne_nil (by rintro rfl; simp at htwo)
    simp [h.last_front.1]
  · have hle := h.back_le
    rw [length_records_concat] at hle
    rw [h.last_back.1]
    intro heq
    have := Option.some.inj heq
    omega

/-! ### Taking -/

/-- The first entry can be read. -/
theorem Layout.read_first (h : q.Layout first (x :: front) back) :
    recordLength q.buffer first = some x.length ∧ load q.buffer (first + 2) x.length = some x := by
  have hat : At q.buffer first (record x) := (at_append.mp h.front_at).1
  have hx := h.small x (by simp)
  exact ⟨recordLength_of_at (Nat.lt_of_le_of_lt hx (by decide)) hat, load_of_at hat⟩

/-- More entries at the end of the buffer: the first entry moves forward. -/
theorem Layout.advance_front (h : q.Layout first (x :: front) back) (hfront : front ≠ []) :
    ({ q with entryCounter := q.entryCounter - 1 }.advance first x.length).Layout
      (first + 2 + x.length) front back := by
  have htwo : 1 < q.entryCounter := by
    have := List.length_pos_iff.mpr hfront
    rw [h.entryCounter, List.length_append, List.length_cons]
    omega
  have hnotLast : q.firstEntry ≠ q.lastInBufferEntry := by
    rw [h.firstEntry, h.lastInBuffer, List.dropLast_cons_of_ne_nil hfront]
    simp
  have hshift : first + (record x).length = first + 2 + x.length := by
    rw [length_record, Nat.add_assoc]
  rw [advance, if_neg (h.last_ne htwo), if_neg hnotLast]
  refine ⟨hfront, rfl, ?_, h.lastEntry, ?_, ?_, h.back_at, ?_, fun y hy => h.small y ?_⟩
  · rw [← hshift]
    simp [h.lastInBuffer, List.dropLast_cons_of_ne_nil hfront, Nat.add_assoc]
  · simp [h.entryCounter]
  · rw [← hshift]
    exact (at_append.mp h.front_at).2
  · exact Nat.le_trans h.back_le (by omega)
  · exact List.mem_cons_of_mem _ hy

/-- The last entry at the end of the buffer: the queue goes on at the start of the buffer. -/
theorem Layout.advance_back (h : q.Layout first [x] back) (hback : back ≠ []) :
    ({ q with entryCounter := q.entryCounter - 1 }.advance first x.length).Layout 0 back [] := by
  have htwo : 1 < q.entryCounter := by
    have := List.length_pos_iff.mpr hback
    rw [h.entryCounter, List.length_append, List.length_singleton]
    omega
  have hlastIn : q.firstEntry = q.lastInBufferEntry := by
    rw [h.firstEntry, h.lastInBuffer]
    simp
  rw [advance, if_neg (h.last_ne htwo), if_pos hlastIn]
  have hlast : q.lastEntry = some (records back.dropLast).length := by
    rw [h.lastEntry, if_neg hback]
  refine ⟨hback, rfl, ?_, by rw [if_pos rfl], ?_, h.back_at, at_nil (Nat.zero_le _),
    Nat.le_refl _, fun y hy => h.small y ?_⟩
  · simpa using hlast
  · simp [h.entryCounter]
  · simp only [List.append_nil] at hy
    exact List.mem_append_right _ hy

theorem size_dropFirst (q : HighPriorityAsduQueue) (first msgSize : Nat) :
    (q.dropFirst first msgSize).size = q.size := by
  unfold dropFirst advance
  dsimp only
  split_ifs <;> rfl

theorem dropFirst_of_two (htwo : 1 < q.entryCounter) (first msgSize : Nat) :
    q.dropFirst first msgSize =
      { q with entryCounter := q.entryCounter - 1 }.advance first msgSize :=
  if_pos (Nat.sub_pos_of_lt htwo)

/-- `HighPriorityASDUQueue_getNextASDU` takes the oldest ASDU. -/
theorem getNextAsdu_represents (h : q.Represents xs) :
    ∃ q', q.getNextAsdu = some (q', xs.head?) ∧ q'.Represents xs.tail := by
  rcases h.waiting with ⟨rfl, hzero⟩ | ⟨first, front, back, hlayout, rfl⟩
  · exact ⟨q, by simp [getNextAsdu, hzero], h⟩
  obtain ⟨x, front, rfl⟩ := List.exists_cons_of_ne_nil hlayout.ne_nil
  refine ⟨q.dropFirst first x.length, ?_, by rw [size_dropFirst]; exact h.room, ?_⟩
  · simp [getNextAsdu, hlayout.counted, hlayout.firstEntry, hlayout.read_first]
  have hcounter : q.entryCounter = front.length + 1 + back.length := by
    rw [hlayout.entryCounter, List.length_append, List.length_cons]
  by_cases hfront : front = []
  · subst hfront
    by_cases hback : back = []
    · subst hback
      refine .inl ⟨rfl, ?_⟩
      simp [dropFirst, hcounter]
    · have htwo : 1 < q.entryCounter := by
        have := List.length_pos_iff.mpr hback
        omega
      rw [dropFirst_of_two htwo]
      exact .inr ⟨0, back, [], hlayout.advance_back hback, by simp⟩
  · have htwo : 1 < q.entryCounter := by
      have := List.length_pos_iff.mpr hfront
      omega
    rw [dropFirst_of_two htwo]
    exact .inr ⟨_, front, back, hlayout.advance_front hfront, rfl⟩

/-! ### Putting -/

/-- An entry is written where it fits, and what stands next to it stays. -/
theorem putEntry_spec (hfit : next + (2 + asdu.length) ≤ q.size) :
    ∃ buffer, q.putEntry next asdu =
        some { q with
          buffer := buffer, lastEntry := some next, entryCounter := q.entryCounter + 1 } ∧
      buffer.length = q.size ∧ At buffer next (record asdu) ∧
      ∀ start bytes, At q.buffer start bytes →
        start + bytes.length ≤ next ∨ next + (2 + asdu.length) ≤ start → At buffer start bytes := by
  have hsize : next + 2 + asdu.length ≤ q.buffer.length := by
    rw [Nat.add_assoc]
    exact hfit
  obtain ⟨encoded, hencoded⟩ := store_of_le hsize
  have hlength : (LittleEndian.encode 2 asdu.length).length = 2 := LittleEndian.length_encode _ _
  have hprefix : next + (LittleEndian.encode 2 asdu.length).length ≤ encoded.length := by
    rw [length_store hencoded, hlength]
    exact Nat.le_trans (Nat.le_add_right _ _) hsize
  obtain ⟨buffer, hbuffer⟩ := store_of_le hprefix
  refine ⟨buffer, by simp [putEntry, hencoded, hbuffer], ?_, ?_, ?_⟩
  · rw [length_store hbuffer, length_store hencoded]
    rfl
  · refine at_append.mpr ⟨at_store hbuffer, ?_⟩
    rw [hlength]
    exact (at_store hencoded).of_store hbuffer (.inr (by omega))
  · intro start bytes hat hapart
    exact (hat.of_store hencoded (by omega)).of_store hbuffer (by omega)

section Enqueue

variable {claimed wrapped : HighPriorityAsduQueue} {behind : Nat}

/-- An ASDU that gets a place is written there. -/
theorem enqueue_accepted (hasdu : asdu.length ≤ maxQueuedAsdu)
    (hplace : q.nextPlace = some (place, behind))
    (hwrap : place.wrapPlace behind (2 + asdu.length) = (wrapped, next))
    (hclaim : wrapped.claimPlace next (2 + asdu.length) = some (claimed, true))
    (hfit : next + (2 + asdu.length) ≤ claimed.size) :
    ∃ buffer, q.enqueue asdu =
        some ({ claimed with
                buffer := buffer, lastEntry := some next
                entryCounter := claimed.entryCounter + 1 }, true) ∧
      buffer.length = claimed.size ∧ At buffer next (record asdu) ∧
      ∀ start bytes, At claimed.buffer start bytes →
        start + bytes.length ≤ next ∨ next + (2 + asdu.length) ≤ start → At buffer start bytes := by
  obtain ⟨buffer, hput, hbuffer⟩ := putEntry_spec hfit
  refine ⟨buffer, ?_, hbuffer⟩
  rw [enqueue, if_neg (Nat.not_lt.mpr hasdu)]
  simp [hplace, hwrap, hclaim, hput]

theorem enqueue_refused (hasdu : asdu.length ≤ maxQueuedAsdu)
    (hplace : q.nextPlace = some (place, behind))
    (hwrap : place.wrapPlace behind (2 + asdu.length) = (wrapped, next))
    (hclaim : wrapped.claimPlace next (2 + asdu.length) = some (claimed, false)) :
    q.enqueue asdu = some (claimed, false) := by
  rw [enqueue, if_neg (Nat.not_lt.mpr hasdu)]
  simp [hplace, hwrap, hclaim]

theorem wrapPlace_of_le (h : next + (2 + asdu.length) ≤ q.size) :
    q.wrapPlace next (2 + asdu.length) = (q, next) :=
  if_neg (Nat.not_lt.mpr h)

theorem wrapPlace_of_lt (h : q.size < next + (2 + asdu.length)) :
    q.wrapPlace next (2 + asdu.length) = ({ q with lastInBufferEntry := q.lastEntry }, 0) :=
  if_pos h

theorem claimPlace_before {n : Nat} (hcount : 0 < q.entryCounter)
    (hfirst : q.firstEntry = some first) (hle : next ≤ first) :
    q.claimPlace next n = some (q, !decide (next + n > first)) := by
  rw [claimPlace, if_pos hcount, hfirst, Option.bind_eq_bind, Option.bind_some, if_pos hle]

theorem claimPlace_room {n : Nat} (hcount : 0 < q.entryCounter)
    (hfirst : q.firstEntry = some first) (hfit : next + n ≤ first) :
    q.claimPlace next n = some (q, true) := by
  rw [claimPlace_before hcount hfirst (Nat.le_trans (Nat.le_add_right _ _) hfit),
    decide_eq_false (Nat.not_lt.mpr hfit), Bool.not_false]

theorem claimPlace_full {n : Nat} (hcount : 0 < q.entryCounter)
    (hfirst : q.firstEntry = some first) (hle : next ≤ first) (hlt : first < next + n) :
    q.claimPlace next n = some (q, false) := by
  rw [claimPlace_before hcount hfirst hle, decide_eq_true hlt, Bool.not_true]

theorem claimPlace_behind (hcount : 0 < q.entryCounter) (hfirst : q.firstEntry = some first)
    (hlt : first < next) (n : Nat) :
    q.claimPlace next n = some ({ q with lastInBufferEntry := some next }, true) := by
  rw [claimPlace, if_pos hcount, hfirst, Option.bind_eq_bind, Option.bind_some,
    if_neg (Nat.not_le.mpr hlt)]

/-- Into an empty queue: the start of the buffer. -/
theorem enqueue_empty (hroom : 2 + maxQueuedAsdu ≤ q.size) (hzero : q.entryCounter = 0)
    (hasdu : asdu.length ≤ maxQueuedAsdu) :
    ∃ q', q.enqueue asdu = some (q', true) ∧ q'.Represents [asdu] := by
  have hfit : 0 + (2 + asdu.length) ≤ q.size := by omega
  obtain ⟨buffer, henqueue, hlength, hat, -⟩ :=
    enqueue_accepted hasdu (if_pos hzero) (wrapPlace_of_le hfit) (if_neg (by simp [hzero])) hfit
  refine ⟨_, henqueue, hroom.trans_eq hlength.symm, .inr ⟨0, [asdu], [], ?_, rfl⟩⟩
  refine ⟨by simp, rfl, by simp, rfl, by simp [hzero], ?_, at_nil (Nat.zero_le _),
    Nat.le_refl _, ?_⟩
  · rwa [records_singleton]
  · simpa using hasdu

/-- Behind the last entry. -/
theorem Layout.enqueue_behind (h : q.Layout first front []) (hasdu : asdu.length ≤ maxQueuedAsdu)
    (hfit : first + (records front).length + (2 + asdu.length) ≤ q.size) :
    ∃ q', q.enqueue asdu = some (q', true) ∧ q'.size = q.size ∧
      q'.Layout first (front ++ [asdu]) [] := by
  have hlt : first < first + (records front).length := by
    obtain ⟨x, rest, rfl⟩ := List.exists_cons_of_ne_nil h.ne_nil
    simp
  obtain ⟨buffer, henqueue, hlength, hat, hframe⟩ :=
    enqueue_accepted hasdu h.nextPlace (wrapPlace_of_le hfit)
      (claimPlace_behind h.counted h.firstEntry hlt _) hfit
  refine ⟨_, henqueue, hlength, by simp, h.firstEntry, by simp, by simp, ?_, ?_,
    at_nil (Nat.zero_le _), Nat.zero_le _, ?_⟩
  · simp [h.entryCounter]
  · exact at_records_concat.mpr ⟨hframe _ _ h.front_at (.inl (Nat.le_refl _)), hat⟩
  · intro y hy
    simp only [List.append_nil, List.mem_append, List.mem_singleton] at hy
    rcases hy with hold | rfl
    · exact h.small y (List.mem_append_left _ hold)
    · exact hasdu

/-- At the start of the buffer, for the first time. -/
theorem Layout.enqueue_wrap (h : q.Layout first front []) (hasdu : asdu.length ≤ maxQueuedAsdu)
    (hfull : q.size < first + (records front).length + (2 + asdu.length))
    (hfit : 2 + asdu.length ≤ first) :
    ∃ q', q.enqueue asdu = some (q', true) ∧ q'.size = q.size ∧
      q'.Layout first front [asdu] := by
  have hlast : q.lastEntry = q.lastInBufferEntry := by rw [h.lastEntry, if_pos rfl]
  have hclaim := claimPlace_room (q := { q with lastInBufferEntry := q.lastEntry }) h.counted
    h.firstEntry ((Nat.zero_add _).trans_le hfit)
  have hsize : 0 + (2 + asdu.length) ≤ q.size := by
    have := h.front_at.1
    rw [size]
    omega
  obtain ⟨buffer, henqueue, hlength, hat, hframe⟩ :=
    enqueue_accepted hasdu h.nextPlace (wrapPlace_of_lt hfull) hclaim hsize
  refine ⟨_, henqueue, hlength, h.ne_nil, h.firstEntry, ?_, by simp, ?_, ?_, ?_, ?_, ?_⟩
  · exact hlast.trans h.lastInBuffer
  · simp [h.entryCounter]
  · exact hframe _ _ h.front_at (.inr (by omega))
  · rwa [records_singleton]
  · rwa [records_singleton, length_record]
  · intro y hy
    rcases List.mem_append.mp hy with hold | hnew
    · exact h.small y (List.mem_append_left _ hold)
    · rw [List.mem_singleton.mp hnew]
      exact hasdu

/-- No room at the end of the buffer nor at its start. -/
theorem Layout.enqueue_full (h : q.Layout first front []) (hasdu : asdu.length ≤ maxQueuedAsdu)
    (hfull : q.size < first + (records front).length + (2 + asdu.length))
    (hlt : first < 2 + asdu.length) :
    ∃ q', q.enqueue asdu = some (q', false) ∧ q'.size = q.size ∧ q'.Layout first front [] := by
  have hlast : q.lastEntry = q.lastInBufferEntry := by rw [h.lastEntry, if_pos rfl]
  have hclaim := claimPlace_full (q := { q with lastInBufferEntry := q.lastEntry }) h.counted
    h.firstEntry (Nat.zero_le _) (Nat.lt_of_lt_of_eq hlt (Nat.zero_add _).symm)
  refine ⟨_, enqueue_refused hasdu h.nextPlace (wrapPlace_of_lt hfull) hclaim, rfl, ?_⟩
  exact ⟨h.ne_nil, h.firstEntry, hlast.trans h.lastInBuffer, by simp, h.entryCounter, h.front_at,
    h.back_at, h.back_le, h.small⟩

theorem Layout.nextPlace_wrapped (h : q.Layout first front back) (hback : back ≠ []) :
    q.nextPlace = some (q, (records back).length) := by
  rw [h.nextPlace, if_neg hback]

/-- Behind the entries at the start of the buffer. -/
theorem Layout.enqueue_between (h : q.Layout first front back) (hback : back ≠ [])
    (hasdu : asdu.length ≤ maxQueuedAsdu)
    (hfit : (records back).length + (2 + asdu.length) ≤ first) :
    ∃ q', q.enqueue asdu = some (q', true) ∧ q'.size = q.size ∧
      q'.Layout first front (back ++ [asdu]) := by
  have hsize : (records back).length + (2 + asdu.length) ≤ q.size := by
    have := h.front_at.1
    rw [size]
    omega
  obtain ⟨buffer, henqueue, hlength, hat, hframe⟩ :=
    enqueue_accepted hasdu (h.nextPlace_wrapped hback) (wrapPlace_of_le hsize)
      (claimPlace_room h.counted h.firstEntry hfit) hsize
  refine ⟨_, henqueue, hlength, h.ne_nil, h.firstEntry, h.lastInBuffer, by simp, ?_, ?_, ?_, ?_, ?_⟩
  · simp [h.entryCounter, Nat.add_assoc]
  · exact hframe _ _ h.front_at (.inr hfit)
  · refine at_records_concat.mpr ⟨hframe _ _ h.back_at (.inl (by omega)), ?_⟩
    rwa [Nat.zero_add]
  · rw [length_records_concat]
    omega
  · intro y hy
    rw [← List.append_assoc] at hy
    rcases List.mem_append.mp hy with hold | hnew
    · exact h.small y hold
    · rw [List.mem_singleton.mp hnew]
      exact hasdu

/-- No room between the entries at the start of the buffer and the first one. -/
theorem Layout.enqueue_between_full (h : q.Layout first front back) (hback : back ≠ [])
    (hasdu : asdu.length ≤ maxQueuedAsdu)
    (hsize : (records back).length + (2 + asdu.length) ≤ q.size)
    (hlt : first < (records back).length + (2 + asdu.length)) :
    q.enqueue asdu = some (q, false) :=
  enqueue_refused hasdu (h.nextPlace_wrapped hback) (wrapPlace_of_le hsize)
    (claimPlace_full h.counted h.firstEntry h.back_le hlt)

/-! ### Wrapping twice -/

/-- In a queue that holds something, the last entry in the buffer is not before the first one. -/
theorem not_represents_of_lastInBuffer (hcount : 0 < q.entryCounter)
    (hfirst : q.firstEntry = some first) (hlast : q.lastInBufferEntry = some next)
    (hlt : next < first) : ¬ q.Represents xs := by
  rintro ⟨-, ⟨-, hzero⟩ | ⟨first', front', back', hlayout, -⟩⟩
  · exact Nat.ne_of_gt hcount hzero
  · have hsame := Option.some.inj (hfirst.symm.trans hlayout.firstEntry)
    have hnext := Option.some.inj (hlast.symm.trans hlayout.lastInBuffer)
    omega

/-- An ASDU that overruns, taken or not, leaves pointers that hold no list of ASDUs. -/
theorem Layout.enqueue_overrun (h : q.Layout first front back) (hroom : 2 + maxQueuedAsdu ≤ q.size)
    (hover : q.Overruns asdu) :
    ∃ q' ok, q.enqueue asdu = some (q', ok) ∧ ∀ xs, ¬ q'.Represents xs := by
  have hasdu := hover.2.1
  obtain ⟨hback, hlt⟩ := (h.overruns_iff hasdu).mp hover
  obtain ⟨init, x, rfl⟩ := (eq_nil_or_snoc back).resolve_left hback
  have hbefore : (records init).length < first := by
    have := h.back_le
    rw [length_records_concat] at this
    omega
  have hfirst : ({ q with lastInBufferEntry := q.lastEntry }).firstEntry = some first :=
    h.firstEntry
  by_cases hfit : 2 + asdu.length ≤ first
  · have hsize : 0 + (2 + asdu.length) ≤ q.size := by omega
    obtain ⟨buffer, henqueue, -⟩ := enqueue_accepted hasdu (h.nextPlace_wrapped hback)
      (wrapPlace_of_lt hlt)
      (claimPlace_room h.counted hfirst ((Nat.zero_add _).trans_le hfit)) hsize
    exact ⟨_, _, henqueue, fun xs => not_represents_of_lastInBuffer (Nat.succ_pos _) h.firstEntry
      h.last_back.1 hbefore⟩
  · have henqueue := enqueue_refused hasdu (h.nextPlace_wrapped hback) (wrapPlace_of_lt hlt)
      (claimPlace_full h.counted hfirst (Nat.zero_le _)
        (Nat.lt_of_lt_of_eq (Nat.lt_of_not_le hfit) (Nat.zero_add _).symm))
    exact ⟨_, _, henqueue, fun xs => not_represents_of_lastInBuffer h.counted h.firstEntry
      h.last_back.1 hbefore⟩

end Enqueue

/-! ### The queue as a FIFO -/

/-- `HighPriorityASDUQueue_enqueue` on a queue that is not empty: it takes the ASDU exactly if
there is room. -/
theorem Layout.enqueue (h : q.Layout first front back) (hasdu : asdu.length ≤ maxQueuedAsdu)
    (hover : ¬ q.Overruns asdu) :
    ∃ q' ok, q.enqueue asdu = some (q', ok) ∧
      (ok = true ↔ HasRoom q.size first front back asdu) ∧ q'.size = q.size ∧
      ∃ front' back', q'.Layout first front' back' ∧
        front' ++ back' = if ok then front ++ back ++ [asdu] else front ++ back := by
  by_cases hback : back = []
  · subst hback
    rw [HasRoom, if_pos rfl]
    by_cases hfit : first + (records front).length + (2 + asdu.length) ≤ q.size
    · obtain ⟨q', henqueue, hsize, hlayout⟩ := h.enqueue_behind hasdu hfit
      exact ⟨q', true, henqueue, by simp [hfit], hsize, _, _, hlayout, by simp⟩
    by_cases hstart : 2 + asdu.length ≤ first
    · obtain ⟨q', henqueue, hsize, hlayout⟩ :=
        h.enqueue_wrap hasdu (Nat.lt_of_not_le hfit) hstart
      exact ⟨q', true, henqueue, by simp [hstart], hsize, _, _, hlayout, by simp⟩
    · obtain ⟨q', henqueue, hsize, hlayout⟩ :=
        h.enqueue_full hasdu (Nat.lt_of_not_le hfit) (Nat.lt_of_not_le hstart)
      exact ⟨q', false, henqueue, by simp [hfit, hstart], hsize, _, _, hlayout, by simp⟩
  · rw [HasRoom, if_neg hback]
    by_cases hfit : (records back).length + (2 + asdu.length) ≤ first
    · obtain ⟨q', henqueue, hsize, hlayout⟩ := h.enqueue_between hback hasdu hfit
      exact ⟨q', true, henqueue, by simp [hfit], hsize, _, _, hlayout, by simp⟩
    · have hsize : (records back).length + (2 + asdu.length) ≤ q.size := by
        refine Nat.le_of_not_lt fun hlt => hover ((h.overruns_iff hasdu).mpr ⟨hback, hlt⟩)
      have henqueue := h.enqueue_between_full hback hasdu hsize (Nat.lt_of_not_le hfit)
      exact ⟨q, false, henqueue, by simp [hfit], rfl, _, _, h, by simp⟩

theorem enqueue_too_long (h : maxQueuedAsdu < asdu.length) : q.enqueue asdu = some (q, false) :=
  if_pos h

/-- Putting an ASDU in appends it or changes nothing, exactly if it does not overrun. -/
theorem enqueue_represents_iff (h : q.Represents xs) (asdu : List UInt8) :
    ∃ q' ok, q.enqueue asdu = some (q', ok) ∧
      (q'.Represents (if ok then xs ++ [asdu] else xs) ↔ ¬ q.Overruns asdu) ∧
      (q.Overruns asdu → ∀ ys, ¬ q'.Represents ys) := by
  by_cases hasdu : asdu.length ≤ maxQueuedAsdu
  · by_cases hover : q.Overruns asdu
    · rcases h.waiting with ⟨-, hzero⟩ | ⟨first, front, back, hlayout, rfl⟩
      · exact absurd hzero (Nat.ne_of_gt hover.1)
      · obtain ⟨q', ok, henqueue, hnot⟩ := hlayout.enqueue_overrun h.room hover
        exact ⟨q', ok, henqueue, by simp [hnot, hover], fun _ => hnot⟩
    · rcases h.waiting with ⟨rfl, hzero⟩ | ⟨first, front, back, hlayout, rfl⟩
      · obtain ⟨q', henqueue, hq'⟩ := enqueue_empty h.room hzero hasdu
        exact ⟨q', true, henqueue, by simpa [hover] using hq', fun hno => absurd hno hover⟩
      · obtain ⟨q', ok, henqueue, -, hsize, front', back', hlayout', heq⟩ :=
          hlayout.enqueue hasdu hover
        refine ⟨q', ok, henqueue, ?_, fun hno => absurd hno hover⟩
        rw [← heq]
        exact iff_of_true ⟨hsize ▸ h.room, .inr ⟨_, _, _, hlayout', rfl⟩⟩ hover
  · have hover : ¬ q.Overruns asdu := fun hno => hasdu hno.2.1
    refine ⟨q, false, enqueue_too_long (Nat.lt_of_not_le hasdu), ?_, fun hno => absurd hno hover⟩
    exact iff_of_true h hover

/-- An ASDU that is not longer than the oldest one waiting does not overrun. -/
theorem not_overruns_of_le (h : q.Represents (x :: xs)) (hle : asdu.length ≤ x.length) :
    ¬ q.Overruns asdu := by
  intro hover
  rcases h.waiting with ⟨hnil, -⟩ | ⟨first, front, back, hlayout, heq⟩
  · cases hnil
  obtain ⟨y, front, rfl⟩ := List.exists_cons_of_ne_nil hlayout.ne_nil
  obtain ⟨rfl, -⟩ := List.cons.inj heq
  have hlt := ((hlayout.overruns_iff hover.2.1).mp hover).2
  have hbound := hlayout.front_at.1
  have hback := hlayout.back_le
  rw [records_cons, List.length_append, length_record] at hbound
  rw [size] at hlt
  omega

end HighPriorityAsduQueue

/-! ## Runs -/

/-- The calls of the queue, each made under its lock. -/
inductive AsduQueueOp
  | enqueue (asdu : List UInt8)
  | getNext
  | reset
deriving DecidableEq

/-- The queue, `none` after an access outside of its buffer, and what was accepted and taken
since the last reset. -/
structure AsduQueueRun where
  queue : Option HighPriorityAsduQueue
  accepted : List (List UInt8)
  taken : List (List UInt8)

def AsduQueueRun.start (highPrioMaxQueueSize : QueueSize) : AsduQueueRun :=
  ⟨some (HighPriorityAsduQueue.initializeMessageQueue highPrioMaxQueueSize), [], []⟩

def asduQueueStep (s : AsduQueueRun) : AsduQueueOp → AsduQueueRun
  | .enqueue asdu =>
    let result := s.queue.bind (·.enqueue asdu)
    { s with
      queue := result.map (·.1)
      accepted := s.accepted ++ if result.any (·.2) then [asdu] else [] }
  | .getNext =>
    let result := s.queue.bind (·.getNextAsdu)
    { s with
      queue := result.map (·.1)
      taken := s.taken ++ (result.bind (·.2)).toList }
  | .reset => ⟨s.queue.map (·.resetConnectionQueue), [], []⟩

/-- What was accepted is what was taken and then what is waiting. -/
def AsduQueueRun.InOrder (s : AsduQueueRun) : Prop :=
  ∃ q waiting, s.queue = some q ∧ q.Represents waiting ∧ s.accepted = s.taken ++ waiting

/-- The call puts in an ASDU that overruns. -/
def AsduQueueRun.OverrunBy (s : AsduQueueRun) : AsduQueueOp → Prop
  | .enqueue asdu => ∃ q ∈ s.queue, q.Overruns asdu
  | _ => False

instance (s : AsduQueueRun) (op : AsduQueueOp) : Decidable (s.OverrunBy op) := by
  cases op <;> unfold AsduQueueRun.OverrunBy <;> infer_instance

theorem HighPriorityAsduQueue.size_create {n : Nat} (h : n ≤ 8323580) :
    (create n).size = n * (2 + 256) := by
  have hbytes : (Int32.ofInt (n * (2 + 256))).toInt = n * (2 + 256) :=
    Int32.toInt_ofInt_of_le (by omega) (by omega)
  rw [size, create, List.length_replicate, hbytes]
  omega

theorem HighPriorityAsduQueue.initialize_represents (highPrioMaxQueueSize : QueueSize) :
    (initializeMessageQueue highPrioMaxQueueSize).Represents [] := by
  refine ⟨?_, .inl ⟨rfl, rfl⟩⟩
  have hfits := highPrioMaxQueueSize.fits
  unfold initializeMessageQueue
  split
  · rw [size_create (by decide)]
    decide
  · rw [size_create (by omega), maxQueuedAsdu, apciLength]
    omega

/-- One call keeps the order exactly if it does not overrun. -/
theorem asduQueueStep_inOrder_iff {s : AsduQueueRun} (h : s.InOrder) (op : AsduQueueOp) :
    (asduQueueStep s op).InOrder ↔ ¬ s.OverrunBy op := by
  obtain ⟨q, waiting, hqueue, hq, hacc⟩ := h
  cases op with
  | enqueue asdu =>
    obtain ⟨q', ok, henqueue, hiff, hnot⟩ := q.enqueue_represents_iff hq asdu
    have hover : s.OverrunBy (.enqueue asdu) ↔ q.Overruns asdu := by
      simp [AsduQueueRun.OverrunBy, hqueue]
    rw [hover]
    constructor
    · rintro ⟨q'', waiting', hqueue', hq'', -⟩ hno
      have hsame : q' = q'' := by simpa [asduQueueStep, hqueue, henqueue] using hqueue'
      exact hnot hno waiting' (hsame ▸ hq'')
    · intro hno
      refine ⟨q', _, by simp [asduQueueStep, hqueue, henqueue], hiff.mpr hno, ?_⟩
      cases ok <;> simp [asduQueueStep, hqueue, henqueue, hacc]
  | getNext =>
    obtain ⟨q', htake, hq'⟩ := q.getNextAsdu_represents hq
    refine iff_of_true ⟨q', waiting.tail, by simp [asduQueueStep, hqueue, htake], hq', ?_⟩ id
    cases waiting <;> simp [asduQueueStep, hqueue, htake, hacc]
  | reset =>
    refine iff_of_true ⟨q.resetConnectionQueue, [], by simp [asduQueueStep, hqueue], ?_, rfl⟩ id
    exact ⟨hq.room, .inl ⟨rfl, rfl⟩⟩

/-- Over every run of calls, in any order: at every point the accepted ASDUs are the taken ones
and then the waiting ones, and no access leaves the buffer, exactly if no call overruns. -/
theorem priority_queue_fifo_iff (highPrioMaxQueueSize : QueueSize) (ops : List AsduQueueOp) :
    (∀ past rest, ops = past ++ rest →
      (Run.exec asduQueueStep (AsduQueueRun.start highPrioMaxQueueSize) past).InOrder) ↔
      Run.Guarded (fun s op => ¬ s.OverrunBy op) asduQueueStep
        (AsduQueueRun.start highPrioMaxQueueSize) ops := by
  have hstart : (AsduQueueRun.start highPrioMaxQueueSize).InOrder :=
    ⟨_, [], rfl, HighPriorityAsduQueue.initialize_represents highPrioMaxQueueSize, rfl⟩
  exact Run.always_iff_guarded (J := fun _ => True) trivial hstart
    (fun _ _ _ => trivial) (fun _ op _ hP => asduQueueStep_inOrder_iff hP op) ops

/-- A queue of 258 bytes that has wrapped: a longer ASDU overruns. -/
example : (Run.exec asduQueueStep (AsduQueueRun.start ⟨1, by decide⟩)
    [.enqueue (List.replicate 98 0), .enqueue (List.replicate 98 0), .getNext,
      .enqueue (List.replicate 98 0)]).OverrunBy (.enqueue (List.replicate 158 0)) := by
  decide +kernel

end Iec104Slave
