import Iec104Slave.Lib.Ordered
import Iec104Slave.Lib.Run
import Iec104Slave.SoeHistory
import Mathlib.Data.Prod.Lex

/-!
# The history store (`history_store.c`)

The store keeps the SOE records in a table of a database. A write inserts a row and then deletes
all rows but the newest ones. The delete may fail, and the times of the records need not increase.

Of the database it is assumed that ids are assigned in increasing order, that an insertion
adds one row iff it succeeds, and that `ORDER BY ... LIMIT` gives the first rows in
the order.

Result: `soe_retention`: after a write whose delete succeeds, the table has the newest of all
rows that were ever inserted.
-/

namespace Iec104Slave

open Ordered

/-! ## Configuration -/

/-- `HistoryStoreConfig.backend`. -/
inductive HistoryBackend
  | mysql
  | sqlite
  | other
deriving DecidableEq

/-- The part of `HistoryStoreConfig` that the modelled functions read. -/
structure HistoryStoreConfig where
  enabled : Bool
  backend : HistoryBackend
  soeEnabled : Bool
  yxEnabled : Bool
  ycEnabled : Bool
  ddEnabled : Bool
  soeMaxRecords : Int
  queryMaxRecords : Int
  queueCapacity : Int

/-- The values that `history_store_init` puts in the place of those that are not positive. -/
def HistoryStoreConfig.withDefaults (config : HistoryStoreConfig) : HistoryStoreConfig :=
  { config with
    soeMaxRecords := if config.soeMaxRecords ≤ 0 then 10000 else config.soeMaxRecords
    queryMaxRecords := if config.queryMaxRecords ≤ 0 then 1000 else config.queryMaxRecords
    queueCapacity := if config.queueCapacity ≤ 0 then 4096 else config.queueCapacity }

def applyQueryLimit (config : HistoryStoreConfig) (maxRecords : Nat) : Nat :=
  if 0 < config.queryMaxRecords ∧ config.queryMaxRecords < maxRecords then
    config.queryMaxRecords.toNat
  else maxRecords

/-! ## The SOE table -/

structure HistorySoeQueueItem where
  record : SoeRecord
  ca : Int
deriving DecidableEq

instance : Inhabited HistorySoeQueueItem := ⟨⟨⟨0, false, 0, 0, 0⟩, 0⟩⟩

/-- A row. The columns of a record are those of `record`, but for the time, which is kept as it
is stored. -/
structure SoeRow where
  id : Nat
  timestampMs : Int
  record : SoeRecord
  ca : Int
deriving DecidableEq

/-- The rows, and the last id that was assigned. -/
structure SoeTable where
  rows : List SoeRow
  lastId : Nat

/-- SQLite stores a signed number. -/
def columnTimestamp : HistoryBackend → UInt64 → Int
  | .sqlite, timestampMs => timestampMs.toInt64.toInt
  | _, timestampMs => timestampMs.toNat

/-- The order of `ORDER BY timestamp_ms, id`. -/
def SoeRow.key (row : SoeRow) : Int ×ₗ Nat := toLex (row.timestampMs, row.id)

/-- What the database does in a write: whether the schema is there, whether the row is inserted,
how many ids are skipped, and whether the `DELETE` succeeds. -/
structure WriteOutcome where
  schema : Bool
  inserted : Bool
  skipped : Nat
  trimmed : Bool

/-- `trim_soe_records`: keep the rows whose ids are selected. -/
def trimSoeRecords (config : HistoryStoreConfig) (rows : List SoeRow) (ok : Bool) : List SoeRow :=
  if config.soeMaxRecords ≤ 0 then rows
  else if ok then
    let selected := (greatest SoeRow.key config.soeMaxRecords.toNat rows).map SoeRow.id
    rows.filter fun row => decide (row.id ∈ selected)
  else rows

/-- The row that a write inserts. -/
def soeRowNext (config : HistoryStoreConfig) (table : SoeTable) (item : HistorySoeQueueItem)
    (x : WriteOutcome) : SoeRow :=
  ⟨table.lastId + 1 + x.skipped, columnTimestamp config.backend item.record.timestampMs,
    item.record, item.ca⟩

def historyStoreWriteSoeLocked (config : HistoryStoreConfig) (table : SoeTable)
    (item : HistorySoeQueueItem) (x : WriteOutcome) : SoeTable × Bool :=
  if !config.enabled || !config.soeEnabled then (table, false)
  else if !x.schema then (table, false)
  else if config.backend = .other then (table, false)
  else if x.inserted then
    let row := soeRowNext config table item x
    (⟨trimSoeRecords config (table.rows ++ [row]) x.trimmed, row.id⟩, true)
  else (table, false)

/-! ## Retention -/

/-- A call of `history_store_write_soe_locked`. -/
structure SoeWrite where
  item : HistorySoeQueueItem
  outcome : WriteOutcome

def soeWriteStep (config : HistoryStoreConfig) (table : SoeTable) (write : SoeWrite) : SoeTable :=
  (historyStoreWriteSoeLocked config table write.item write.outcome).1

/-- The row that is inserted by a write that succeeds. -/
def soeInserted (config : HistoryStoreConfig) (table : SoeTable) (write : SoeWrite) :
    List SoeRow :=
  if (historyStoreWriteSoeLocked config table write.item write.outcome).2 then
    [soeRowNext config table write.item write.outcome]
  else []

/-- All rows that were ever inserted by the writes. -/
def allInserted (config : HistoryStoreConfig) (writes : List SoeWrite) : List SoeRow :=
  Run.outputs (soeWriteStep config) (soeInserted config) ⟨[], 0⟩ writes

namespace HistoryStoreLemmas

variable {config : HistoryStoreConfig} {table : SoeTable} {all : List SoeRow}

/-- A write that fails leaves the table, another one inserts a row and cuts the table. -/
theorem write_cases (config : HistoryStoreConfig) (table : SoeTable)
    (item : HistorySoeQueueItem) (x : WriteOutcome) :
    historyStoreWriteSoeLocked config table item x = (table, false) ∨
      historyStoreWriteSoeLocked config table item x =
        (⟨trimSoeRecords config (table.rows ++ [soeRowNext config table item x]) x.trimmed,
          (soeRowNext config table item x).id⟩, true) := by
  unfold historyStoreWriteSoeLocked
  split
  · exact .inl rfl
  · split
    · exact .inl rfl
    · split
      · exact .inl rfl
      · split
        · exact .inr rfl
        · exact .inl rfl

/-- All rows, by increasing id, and a table that has lost only what it no longer needs. -/
structure RetentionInv (config : HistoryStoreConfig) (all : List SoeRow) (table : SoeTable) :
    Prop where
  increasing : Increasing SoeRow.id all
  last : ∀ row ∈ all, row.id ≤ table.lastId
  covers : Covers SoeRow.key config.soeMaxRecords.toNat all table.rows

theorem nodup_ids (h : Increasing SoeRow.id all) {rows : List SoeRow} (hnodup : rows.Nodup)
    (hsub : rows ⊆ all) : (rows.map SoeRow.id).Nodup := by
  have hids : (all.map SoeRow.id).Nodup := List.pairwise_map.mpr (h.imp fun hlt => hlt.ne)
  exact hnodup.map_on fun a ha b hb heq =>
    List.inj_on_of_nodup_map hids (hsub ha) (hsub hb) heq

/-- The rows whose ids are selected are the selected rows. -/
theorem trim_greatest {rows : List SoeRow} (hids : (rows.map SoeRow.id).Nodup)
    (hlimit : 0 < config.soeMaxRecords) :
    Greatest SoeRow.key config.soeMaxRecords.toNat rows (trimSoeRecords config rows true) := by
  have hkeys : (rows.map SoeRow.key).Nodup := by
    refine List.Nodup.of_map (fun key : Int ×ₗ Nat => (ofLex key).2) ?_
    rw [List.map_map]
    exact hids
  have hg := greatest_spec config.soeMaxRecords.toNat hkeys
  have hnodup : rows.Nodup := hids.of_map _
  rw [trimSoeRecords, if_neg (Int.not_le.mpr hlimit), if_pos rfl]
  refine hg.of_perm ((List.perm_ext_iff_of_nodup hg.nodup (hnodup.filter _)).mpr fun row => ?_)
  rw [List.mem_filter, decide_eq_true_eq]
  constructor
  · intro hrow
    exact ⟨hg.subset hrow, List.mem_map_of_mem hrow⟩
  · intro hrow
    obtain ⟨other, hother, heq⟩ := List.mem_map.mp hrow.2
    exact List.inj_on_of_nodup_map hids (hg.subset hother) hrow.1 heq ▸ hother

theorem retentionInv_nil (config : HistoryStoreConfig) : RetentionInv config [] ⟨[], 0⟩ where
  increasing := List.Pairwise.nil
  last := fun row hrow => by cases hrow
  covers := covers_nil

/-- The table after an insertion and before its `DELETE`. -/
theorem retentionInv_insert (h : RetentionInv config all table) {row : SoeRow}
    (hid : table.lastId < row.id) :
    RetentionInv config (all ++ [row]) ⟨table.rows ++ [row], row.id⟩ where
  increasing := by
    refine List.pairwise_append.mpr ⟨h.increasing, List.pairwise_singleton _ _, ?_⟩
    intro a ha b hb
    rw [List.mem_singleton.mp hb]
    exact Nat.lt_of_le_of_lt (h.last a ha) hid
  last := fun a ha => by
    rcases List.mem_append.mp ha with ha | ha
    · exact Nat.le_of_lt (Nat.lt_of_le_of_lt (h.last a ha) hid)
    · rw [List.mem_singleton.mp ha]
  covers := h.covers.insert fun hmem => absurd (h.last row hmem) (Nat.not_le.mpr hid)

theorem retention_trim (h : RetentionInv config all table) (hlimit : 0 < config.soeMaxRecords) :
    Greatest SoeRow.key config.soeMaxRecords.toNat all
      (trimSoeRecords config table.rows true) :=
  h.covers.trim (trim_greatest (nodup_ids h.increasing h.covers.nodup h.covers.subset) hlimit)

theorem retentionInv_trim (h : RetentionInv config all table) (hlimit : 0 < config.soeMaxRecords)
    (ok : Bool) :
    RetentionInv config all ⟨trimSoeRecords config table.rows ok, table.lastId⟩ where
  increasing := h.increasing
  last := h.last
  covers := by
    cases ok with
    | true => exact (retention_trim h hlimit).covers h.covers.all_nodup
    | false =>
      rw [trimSoeRecords, if_neg (Int.not_le.mpr hlimit)]
      exact h.covers

theorem lastId_lt_next (config : HistoryStoreConfig) (table : SoeTable)
    (item : HistorySoeQueueItem) (x : WriteOutcome) :
    table.lastId < (soeRowNext config table item x).id :=
  Nat.lt_of_lt_of_le (Nat.lt_succ_self _) (Nat.le_add_right _ _)

theorem retentionInv_write (h : RetentionInv config all table) (hlimit : 0 < config.soeMaxRecords)
    (write : SoeWrite) :
    RetentionInv config (all ++ soeInserted config table write)
      (soeWriteStep config table write) := by
  unfold soeInserted soeWriteStep
  rcases write_cases config table write.item write.outcome with heq | heq
  · rw [heq, if_neg Bool.false_ne_true, List.append_nil]
    exact h
  · rw [heq, if_pos rfl]
    exact retentionInv_trim (retentionInv_insert h (lastId_lt_next config table _ _)) hlimit
      write.outcome.trimmed

theorem allInserted_snoc (config : HistoryStoreConfig) (writes : List SoeWrite)
    (write : SoeWrite) : allInserted config (writes ++ [write]) = allInserted config writes ++
      soeInserted config (Run.exec (soeWriteStep config) ⟨[], 0⟩ writes) write := by
  simp [allInserted, Run.outputs_append, Run.outputs]

theorem retentionInv_run (hlimit : 0 < config.soeMaxRecords) (writes : List SoeWrite) :
    RetentionInv config (allInserted config writes)
      (Run.exec (soeWriteStep config) ⟨[], 0⟩ writes) := by
  induction writes using List.reverseRecOn with
  | nil => exact retentionInv_nil config
  | append_singleton writes write ih =>
    rw [allInserted_snoc, Run.exec_append]
    exact retentionInv_write ih hlimit write

/-- A `DELETE` that succeeds makes up for those that failed before. -/
theorem newest_after_write (hlimit : 0 < config.soeMaxRecords) (writes : List SoeWrite)
    (write : SoeWrite)
    (hwrite : (historyStoreWriteSoeLocked config (Run.exec (soeWriteStep config) ⟨[], 0⟩ writes)
      write.item write.outcome).2 = true) (htrim : write.outcome.trimmed = true) :
    Greatest SoeRow.key config.soeMaxRecords.toNat (allInserted config (writes ++ [write]))
      (Run.exec (soeWriteStep config) ⟨[], 0⟩ (writes ++ [write])).rows := by
  have hinv := retentionInv_run hlimit writes
  rw [allInserted_snoc, Run.exec_append]
  rcases write_cases config (Run.exec (soeWriteStep config) ⟨[], 0⟩ writes) write.item
    write.outcome with heq | heq
  · rw [heq] at hwrite
    cases hwrite
  · rw [soeInserted, if_pos hwrite]
    show Greatest _ _ _ (soeWriteStep _ _ write).rows
    rw [soeWriteStep, heq, htrim]
    exact retention_trim (retentionInv_insert hinv (lastId_lt_next _ _ _ _)) hlimit

theorem soeMaxRecords_pos (config : HistoryStoreConfig) :
    0 < config.withDefaults.soeMaxRecords := by
  show 0 < if config.soeMaxRecords ≤ 0 then (10000 : Int) else config.soeMaxRecords
  split
  · decide
  · next h => exact Int.not_le.mp h

end HistoryStoreLemmas

open HistoryStoreLemmas

/-- After a write whose `DELETE` succeeds the table has the newest `soe_max_records` of all rows
that were ever inserted, whatever deletes have failed before. -/
theorem soe_retention (config : HistoryStoreConfig) (writes : List SoeWrite) (write : SoeWrite)
    (hwrite : (historyStoreWriteSoeLocked config.withDefaults
      (Run.exec (soeWriteStep config.withDefaults) ⟨[], 0⟩ writes) write.item
      write.outcome).2 = true) (htrim : write.outcome.trimmed = true) :
    Greatest SoeRow.key config.withDefaults.soeMaxRecords.toNat
      (allInserted config.withDefaults (writes ++ [write]))
      (Run.exec (soeWriteStep config.withDefaults) ⟨[], 0⟩ (writes ++ [write])).rows :=
  newest_after_write (soeMaxRecords_pos config) writes write hwrite htrim

/-- A store that keeps two rows. -/
def twoSoeConfig : HistoryStoreConfig where
  enabled := true
  backend := .sqlite
  soeEnabled := true
  yxEnabled := false
  ycEnabled := false
  ddEnabled := false
  soeMaxRecords := 2
  queryMaxRecords := 1000
  queueCapacity := 4096

/-- A record at the given time; the `DELETE` behind it may fail. -/
def writeAt (timestampMs : UInt64) (trimmed : Bool) : SoeWrite :=
  ⟨⟨⟨1, true, 0, timestampMs, 0⟩, 1⟩, ⟨true, true, 0, trimmed⟩⟩

/-- The times do not increase, and the `DELETE` behind the third record fails. The last write
leaves the records at 30 and 20. -/
theorem newest_two_kept :
    Greatest SoeRow.key 2
      (allInserted twoSoeConfig ([writeAt 30 true, writeAt 10 true, writeAt 5 false] ++
        [writeAt 20 true]))
      (Run.exec (soeWriteStep twoSoeConfig) ⟨[], 0⟩
        ([writeAt 30 true, writeAt 10 true, writeAt 5 false] ++ [writeAt 20 true])).rows ∧
    (Run.exec (soeWriteStep twoSoeConfig) ⟨[], 0⟩
      ([writeAt 30 true, writeAt 10 true, writeAt 5 false] ++
        [writeAt 20 true])).rows.map SoeRow.timestampMs = [30, 20] :=
  ⟨soe_retention twoSoeConfig _ _ (by decide) rfl, by decide⟩

end Iec104Slave
