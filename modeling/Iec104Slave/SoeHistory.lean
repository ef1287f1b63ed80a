import Iec104Slave.Lib.Ring
import Iec104Slave.Lib.Run
import Iec104Slave.Basic

/-!
# The SOE history in memory (`soe_history.c`)

A ring of `SOE_HISTORY_MAX_RECORDS` records. An append writes the slot at `head` and numbers the
record; when the ring is full it replaces the oldest record.

Results:
1. `historyInv_append`: the ring keeps the end of the log of all appends.
2. `query_eq`: a query reads that end of the log from its oldest record on.
3. `soe_history_is_log`: after any appends and clears, queries and the count are those of the last
   `SOE_HISTORY_MAX_RECORDS` records since the last clear.
4. `nextSequence_exec`: the sequence numbers fit into 64 bits in a run of fewer than `2 ^ 64`
   operations.
-/

namespace Iec104Slave

structure SoeRecord where
  ioa : Int32
  value : Bool
  quality : UInt8
  timestampMs : UInt64
  sequence : Nat
deriving DecidableEq

def soeHistoryMaxRecords : Nat := 4096

/-- `SoeHistory`, without its lock. The 64-bit counter `next_sequence` is a natural number, so a run
here is one of the code up to its first wrap (`nextSequence_exec`). -/
structure SoeHistory where
  records : List SoeRecord
  head : Nat
  count : Nat
  nextSequence : Nat

/-- `soe_history_init`: the records are cleared by `memset`. -/
def soeHistoryInit : SoeHistory where
  records := List.replicate soeHistoryMaxRecords ⟨0, false, 0, 0, 0⟩
  head := 0
  count := 0
  nextSequence := 0

/-- The record that an append writes. -/
def soeRecordNext (history : SoeHistory) (ioa : Int32) (value : Bool) (quality : UInt8)
    (timestampMs : UInt64) : SoeRecord :=
  ⟨ioa, value, quality, timestampMs, history.nextSequence + 1⟩

def soeHistoryAppend (history : SoeHistory) (ioa : Int32) (value : Bool) (quality : UInt8)
    (timestampMs : UInt64) : SoeHistory where
  records := history.records.set history.head
    (soeRecordNext history ioa value quality timestampMs)
  head := (history.head + 1) % soeHistoryMaxRecords
  count := if history.count < soeHistoryMaxRecords then history.count + 1 else history.count
  nextSequence := history.nextSequence + 1

/-- `soe_history_clear` sets the same fields as `soe_history_init`. -/
def soeHistoryClear (_history : SoeHistory) : SoeHistory :=
  soeHistoryInit

/-- `(begin_ms == 0 || timestamp_ms >= begin_ms) && (end_ms == 0 || timestamp_ms <= end_ms)`. -/
def soeInInterval (beginMs endMs timestampMs : UInt64) : Bool :=
  (beginMs == 0 || decide (beginMs ≤ timestampMs)) &&
    (endMs == 0 || decide (timestampMs ≤ endMs))

/-- The loop of `soe_history_query`: the values of `i` that are left, and the records copied so
far. -/
def soeQueryLoop (history : SoeHistory) (beginMs endMs : UInt64) (maxRecords start : Nat) :
    List Nat → List SoeRecord → List SoeRecord
  | [], copied => copied
  | i :: rest, copied =>
    if copied.length < maxRecords then
      let record := history.records[(start + i) % soeHistoryMaxRecords]?
      let found := record.toList.filter fun r => soeInInterval beginMs endMs r.timestampMs
      soeQueryLoop history beginMs endMs maxRecords start rest (copied ++ found)
    else copied

def soeHistoryQuery (history : SoeHistory) (beginMs endMs : UInt64) (maxRecords : Nat) :
    List SoeRecord :=
  if maxRecords = 0 then []
  else
    let start := (history.head + soeHistoryMaxRecords - history.count) % soeHistoryMaxRecords
    soeQueryLoop history beginMs endMs maxRecords start (List.range history.count) []

def soeHistoryCount (history : SoeHistory) : Nat :=
  history.count

/-! ## The log -/

/-- What is appended; the history adds the sequence number. -/
structure SoeEvent where
  ioa : Int32
  value : Bool
  quality : UInt8
  timestampMs : UInt64
deriving DecidableEq

def SoeRecord.event (record : SoeRecord) : SoeEvent :=
  ⟨record.ioa, record.value, record.quality, record.timestampMs⟩

inductive SoeHistoryOp
  | append (event : SoeEvent)
  | clear

def soeHistoryStep (history : SoeHistory) : SoeHistoryOp → SoeHistory
  | .append event =>
    soeHistoryAppend history event.ioa event.value event.quality event.timestampMs
  | .clear => soeHistoryClear history

/-- The events since the last clear. -/
def eventsStep (events : List SoeEvent) : SoeHistoryOp → List SoeEvent
  | .append event => events ++ [event]
  | .clear => []

/-- The events with their positions, from 1 on, as sequence numbers. -/
def numbered (events : List SoeEvent) : List SoeRecord :=
  events.mapIdx fun i event =>
    ⟨event.ioa, event.value, event.quality, event.timestampMs, i + 1⟩

/-- The part of a log that the ring has room for. -/
def lastRecords (log : List SoeRecord) : List SoeRecord :=
  log.drop (log.length - soeHistoryMaxRecords)

/-- The history keeps the end of `log`, the records of all appends. -/
structure HistoryInv (history : SoeHistory) (log : List SoeRecord) : Prop where
  length : history.records.length = soeHistoryMaxRecords
  logs : Ring.Logs history.records log
  head : history.head = log.length % soeHistoryMaxRecords
  count : history.count = min log.length soeHistoryMaxRecords
  next_sequence : history.nextSequence = log.length
  sequence : ∀ i r, log[i]? = some r → r.sequence = i + 1

namespace SoeHistoryLemmas

theorem soeHistoryMaxRecords_pos : 0 < soeHistoryMaxRecords := by decide

theorem historyInv_init : HistoryInv soeHistoryInit [] where
  length := List.length_replicate
  logs := by
    refine Ring.logs_nil ?_
    rw [soeHistoryInit, List.length_replicate]
    exact soeHistoryMaxRecords_pos
  head := rfl
  count := rfl
  next_sequence := rfl
  sequence := fun i r h => by simp at h

variable {history : SoeHistory} {log : List SoeRecord} {events : List SoeEvent}

theorem historyInv_append (h : HistoryInv history log) (ioa : Int32) (value : Bool)
    (quality : UInt8) (timestampMs : UInt64) :
    HistoryInv (soeHistoryAppend history ioa value quality timestampMs)
      (log ++ [soeRecordNext history ioa value quality timestampMs]) where
  length := List.length_set.trans h.length
  logs := by
    show Ring.Logs (history.records.set history.head _) _
    rw [h.head, ← h.length]
    exact h.logs.push _
  head := by
    show (history.head + 1) % _ = _
    rw [h.head, List.length_append, List.length_singleton, Nat.mod_add_mod]
  count := by
    show (if history.count < _ then history.count + 1 else history.count) = _
    rw [h.count, List.length_append, List.length_singleton]
    rcases Nat.lt_or_ge log.length soeHistoryMaxRecords with hroom | hfull
    · rw [Nat.min_eq_left (Nat.le_of_lt hroom), if_pos hroom, Nat.min_eq_left hroom]
    · -- the count stops at the size of the ring
      rw [Nat.min_eq_right hfull, if_neg (Nat.lt_irrefl _),
        Nat.min_eq_right (Nat.le_succ_of_le hfull)]
  next_sequence := by
    show history.nextSequence + 1 = _
    rw [h.next_sequence, List.length_append, List.length_singleton]
  sequence := by
    intro i r hr
    rcases Ring.getElem?_concat hr with ⟨_, hr⟩ | ⟨rfl, rfl⟩
    · exact h.sequence i r hr
    · exact congrArg (· + 1) h.next_sequence

/-- The loop appends what it finds, up to `maxRecords`. -/
theorem queryLoop_eq (history : SoeHistory) (beginMs endMs : UInt64) {maxRecords : Nat}
    (start : Nat) (rest : List Nat) {copied : List SoeRecord}
    (hcopied : copied.length ≤ maxRecords) :
    soeQueryLoop history beginMs endMs maxRecords start rest copied =
      (copied ++ (rest.filterMap fun i =>
        history.records[(start + i) % soeHistoryMaxRecords]?).filter fun r =>
          soeInInterval beginMs endMs r.timestampMs).take maxRecords := by
  induction rest generalizing copied with
  | nil =>
    rw [soeQueryLoop, List.filterMap_nil, List.filter_nil, List.append_nil,
      List.take_of_length_le hcopied]
  | cons i rest ih =>
    rw [soeQueryLoop]
    split
    · next hroom =>
      have hfound : ((history.records[(start + i) % soeHistoryMaxRecords]?).toList.filter fun r =>
          soeInInterval beginMs endMs r.timestampMs).length ≤ 1 :=
        Nat.le_trans (List.length_filter_le _ _) Option.length_toList_le
      rw [ih (by rw [List.length_append]; omega), List.append_assoc, ← List.filter_append,
        List.filterMap_cons]
      cases history.records[(start + i) % soeHistoryMaxRecords]? with
      | none => rfl
      | some record => rfl
    · next hfull =>
      have heq : copied.length = maxRecords := Nat.le_antisymm hcopied (Nat.not_lt.mp hfull)
      rw [← heq, List.take_left]

theorem query_eq (h : HistoryInv history log) (beginMs endMs : UInt64) (maxRecords : Nat) :
    soeHistoryQuery history beginMs endMs maxRecords =
      ((lastRecords log).filter fun r =>
        soeInInterval beginMs endMs r.timestampMs).take maxRecords := by
  unfold soeHistoryQuery
  split
  · next hzero => rw [hzero, List.take_zero]
  · have hread := h.logs.read (Nat.min_le_left log.length history.records.length)
      (Nat.min_le_right _ _)
    rw [h.length, ← h.head, ← h.count] at hread
    have hlast : log.length - min log.length soeHistoryMaxRecords =
        log.length - soeHistoryMaxRecords := by omega
    rw [queryLoop_eq _ _ _ _ _ (Nat.zero_le _), hread, List.nil_append, h.count, hlast,
      lastRecords]

theorem length_numbered (events : List SoeEvent) : (numbered events).length = events.length :=
  List.length_mapIdx

theorem numbered_append (h : HistoryInv history (numbered events)) (event : SoeEvent) :
    numbered (events ++ [event]) = numbered events ++
      [soeRecordNext history event.ioa event.value event.quality event.timestampMs] := by
  rw [soeRecordNext, h.next_sequence, length_numbered, numbered, List.mapIdx_concat]
  rfl

theorem historyInv_step (h : HistoryInv history (numbered events)) (op : SoeHistoryOp) :
    HistoryInv (soeHistoryStep history op) (numbered (eventsStep events op)) := by
  cases op with
  | append event =>
    rw [eventsStep, numbered_append h]
    exact historyInv_append h _ _ _ _
  | clear => exact historyInv_init

theorem historyInv_exec (ops : List SoeHistoryOp) :
    HistoryInv (Run.exec soeHistoryStep soeHistoryInit ops)
      (numbered (Run.exec eventsStep [] ops)) := by
  induction ops using List.reverseRecOn with
  | nil => exact historyInv_init
  | append_singleton ops op ih =>
    rw [Run.exec_append, Run.exec_append]
    exact historyInv_step ih op

theorem length_eventsStep_le (events : List SoeEvent) (op : SoeHistoryOp) :
    (eventsStep events op).length ≤ events.length + 1 := by
  cases op with
  | append event => exact Nat.le_of_eq List.length_append
  | clear => exact Nat.zero_le _

theorem nextSequence_exec {ops : List SoeHistoryOp} (hops : ops.length < 2 ^ 64) :
    (Run.exec soeHistoryStep soeHistoryInit ops).nextSequence < 2 ^ 64 := by
  rw [(historyInv_exec ops).next_sequence, length_numbered]
  refine Nat.lt_of_le_of_lt ?_ hops
  refine Run.exec_induction (I := fun (past : List SoeHistoryOp) (events : List SoeEvent) =>
    events.length ≤ past.length) (Nat.le_refl _) (fun past events op h => ?_) ops
  rw [List.length_append, List.length_singleton]
  exact (length_eventsStep_le events op).trans (Nat.succ_le_succ h)

end SoeHistoryLemmas

open SoeHistoryLemmas

/-- After any appends and clears, a query returns the first `maxRecords` records of the interval,
in the order of the appends, of the last `SOE_HISTORY_MAX_RECORDS` records since the last
clear, each with its position since that clear. The number of a record in the code is this position
as long as there were fewer than `2 ^ 64` appends. -/
theorem soe_history_is_log (ops : List SoeHistoryOp) (beginMs endMs : UInt64)
    (maxRecords : Nat) :
    soeHistoryQuery (Run.exec soeHistoryStep soeHistoryInit ops) beginMs endMs maxRecords =
      ((lastRecords (numbered (Run.exec eventsStep [] ops))).filter fun r =>
        soeInInterval beginMs endMs r.timestampMs).take maxRecords ∧
    soeHistoryCount (Run.exec soeHistoryStep soeHistoryInit ops) =
      min (Run.exec eventsStep [] ops).length soeHistoryMaxRecords := by
  have hinv := historyInv_exec ops
  refine ⟨query_eq hinv beginMs endMs maxRecords, ?_⟩
  rw [soeHistoryCount, hinv.count, length_numbered]

end Iec104Slave
