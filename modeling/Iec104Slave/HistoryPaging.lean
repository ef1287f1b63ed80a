import Iec104Slave.HistoryCall

/-!
# Paging through a table that changes

Between two page queries of a history call rows may be inserted and deleted, and every query may
fail or stop in the middle. The cursor is the time and the id of the last row of the page before,
and it starts at `(0, 0)`.

Results:
1. `fetchPage_spec`: a page is behind its cursor, in order and in the interval.
2. `answer_ends`: the loops end, since the cursor moves up in a bounded range.
3. `history_paging_never_repeats`: the rows of each class are sent by increasing time and id.
-/

namespace Iec104Slave

open Ordered

/-- What `send_history_data_records` has sent of a class after `n` pages. -/
def PagedHistoryCall.sent (x : PagedHistoryCall) {α : Type} (history : HistoryClass α)
    (input : ClassInput x.config.backend α) (n : Nat) : List (Sent (HistoryRow α) Asdu) :=
  (x.send history input (x.query history input 0 0 0) n).1

def PagedHistoryCall.sentYx (x : PagedHistoryCall) : Nat → List (Sent (HistoryRow YxPoint) Asdu) :=
  x.sent yxHistory x.yx

def PagedHistoryCall.sentYc (x : PagedHistoryCall) : Nat → List (Sent (HistoryRow YcPoint) Asdu) :=
  x.sent ycHistory x.yc

def PagedHistoryCall.sentDd (x : PagedHistoryCall) : Nat → List (Sent (HistoryRow DdPoint) Asdu) :=
  x.sent ddHistory x.dd

/-- The rows are sent by increasing time and id, they are of the interval, and no id occurs
twice. -/
structure NeverRepeats {α : Type} (timestamp : α → UInt64) (beginMs endMs : UInt64)
    (sent : List (Sent (HistoryRow α) Asdu)) : Prop where
  increasing : Increasing (rowKey timestamp) (sent.map Sent.item)
  interval : ∀ row ∈ sent.map Sent.item, (beginMs = 0 ∨ beginMs ≤ timestamp row.point) ∧
    (endMs = 0 ∨ timestamp row.point ≤ endMs)
  once : ((sent.map Sent.item).map HistoryRow.id).Nodup

namespace HistoryPagingLemmas

open SoeQueryLemmas FrameLoopLemmas HistoryCallLemmas

/-! ### One page -/

section Page

variable {α : Type} {history : HistoryClass α} {config : HistoryStoreConfig}
  {table : StoredTable config.backend α} {beginMs endMs : UInt64} {row : HistoryRow α}
  {stored : StoredRow α}

/-- The row that is sent is a row of the table, its time is not negative and in the interval. -/
structure ReadFrom (history : HistoryClass α) (table : StoredTable config.backend α)
    (beginMs endMs : UInt64) (row : HistoryRow α) (stored : StoredRow α) : Prop where
  mem : stored ∈ table.rows
  read : row = stored.read history
  time_nonneg : 0 ≤ stored.timestampMs
  interval : columnInInterval config.backend beginMs endMs stored.timestampMs = true

/-- A page is in order, behind its cursor, and from the table. -/
theorem fetchPage_spec (history : HistoryClass α)
    (table : StoredTable config.backend α) (x : QueryOutcome) (beginMs endMs : UInt64)
    {lastTimestampMs lastId : UInt64} (maxRecords : Nat)
    (htime : columnTimestamp config.backend lastTimestampMs = lastTimestampMs.toNat)
    (hid : columnTimestamp config.backend lastId = lastId.toNat) :
    Increasing (rowKey history.timestamp) (fetchPage history config table x beginMs endMs
      lastTimestampMs lastId maxRecords) ∧
    ∀ row ∈ fetchPage history config table x beginMs endMs lastTimestampMs lastId maxRecords,
      toLex (lastTimestampMs.toNat, lastId.toNat) < rowKey history.timestamp row ∧
        ∃ stored, ReadFrom history table beginMs endMs row stored := by
  unfold fetchPage
  split
  · exact ⟨List.Pairwise.nil, fun row hrow => by cases hrow⟩
  split
  · exact ⟨List.Pairwise.nil, fun row hrow => by cases hrow⟩
  -- the rows that are fetched, as they are stored
  generalize hfetched : (((inOrder StoredRow.key table.rows).filter _).take _).take _ = fetched
  have hsub : fetched.Sublist ((inOrder StoredRow.key table.rows).filter fun row =>
      columnInInterval config.backend beginMs endMs row.timestampMs &&
        storedBehindCursor config.backend lastTimestampMs lastId row) := by
    rw [← hfetched]
    exact (List.take_sublist _ _).trans (List.take_sublist _ _)
  have hwhere : ∀ row ∈ fetched, row ∈ table.rows ∧
      columnInInterval config.backend beginMs endMs row.timestampMs = true ∧
      ((lastTimestampMs.toNat : Int) < row.timestampMs ∨
        row.timestampMs = lastTimestampMs.toNat ∧ (lastId.toNat : Int) < row.id) := by
    intro row hrow
    obtain ⟨hmem, hmeets⟩ := List.mem_filter.mp (hsub.subset hrow)
    rw [Bool.and_eq_true, storedBehindCursor, htime, hid] at hmeets
    refine ⟨inOrder_perm.mem_iff.mp hmem, hmeets.1, ?_⟩
    simpa using hmeets.2
  have hnonneg : ∀ row ∈ fetched, 0 ≤ row.timestampMs := by
    intro row hrow
    rcases (hwhere row hrow).2.2 with h | h
    · exact (Int.natCast_nonneg _).trans h.le
    · rw [h.1]
      exact Int.natCast_nonneg _
  have hincreasing : Increasing StoredRow.key fetched :=
    (List.Pairwise.filter _ (increasing_stored table)).sublist hsub
  refine ⟨List.pairwise_map.mpr (hincreasing.imp_of_mem fun ha hb hlt =>
    read_lt (hwhere _ ha).1 (hwhere _ hb).1 (hnonneg _ ha) hlt), fun row hrow => ?_⟩
  obtain ⟨stored, hstored, rfl⟩ := List.mem_map.mp hrow
  obtain ⟨hmem, hinterval, hbehind⟩ := hwhere stored hstored
  have hpos := hnonneg stored hstored
  refine ⟨?_, stored, hmem, rfl, hpos, hinterval⟩
  rw [rowKey, Prod.Lex.toLex_lt_toLex]
  rw [← time_read history hmem hpos, ← id_read history hmem] at hbehind
  rcases hbehind with h | h
  · exact .inl (Int.ofNat_lt.mp h)
  · exact .inr ⟨(Int.ofNat_inj.mp h.1).symm, Int.ofNat_lt.mp h.2⟩

/-- A row that has been read can be the next cursor. -/
theorem cursor_exact (h : ReadFrom history table beginMs endMs row stored) :
    columnTimestamp config.backend (history.timestamp row.point) =
        (history.timestamp row.point).toNat ∧
      columnTimestamp config.backend row.id = row.id.toNat := by
  obtain ⟨htime, hid⟩ := cursor_read history h.mem h.time_nonneg
  rw [h.read, htime, hid]
  exact ⟨(time_read history h.mem h.time_nonneg).symm, (id_read history h.mem).symm⟩

theorem interval_of_read (h : ReadFrom history table beginMs endMs row stored)
    (hbegin : beginMs.toNat < 2 ^ 63) (hend : endMs.toNat < 2 ^ 63) :
    InInterval beginMs endMs (history.timestamp row.point) := by
  rw [h.read, StoredRow.read, history.timestamp_stamp]
  exact (interval_read h.mem h.time_nonneg hbegin hend).mp h.interval

end Page

/-! ### The loop -/

section Loop

variable {α : Type} {timestamp : α → UInt64}
  {query : Nat → UInt64 → UInt64 → List (HistoryRow α)}

/-- If every page is in order and behind the last row of the page before, then all rows of the
loop are in order, and behind whatever the first page is behind. `P` is what the pages say of
their rows. -/
theorem pages_increasing (frame : α → Asdu) (x : PageOutcomes) {P : HistoryRow α → Prop}
    (hquery : ∀ p last, P last →
      Increasing (rowKey timestamp) (query p (timestamp last.point) last.id) ∧
      ∀ row ∈ query p (timestamp last.point) last.id,
        rowKey timestamp last < rowKey timestamp row ∧ P row)
    (n p : Nat) {records : List (HistoryRow α)} (hrecords : Increasing (rowKey timestamp) records)
    (hP : ∀ row ∈ records, P row) :
    Increasing (rowKey timestamp)
        ((Answer.sendHistoryClass frame timestamp query x n p records).1.map Sent.item) ∧
      ∀ row ∈ (Answer.sendHistoryClass frame timestamp query x n p records).1.map Sent.item,
        P row ∧ ∀ cursor, (∀ r ∈ records, cursor < rowKey timestamp r) →
          cursor < rowKey timestamp row := by
  induction n generalizing p records with
  | zero => exact ⟨List.Pairwise.nil, fun row hrow => by cases hrow⟩
  | succ n ih =>
    rw [Answer.sendHistoryClass]
    cases hlast : records.getLast? with
    | none => exact ⟨List.Pairwise.nil, fun row hrow => by cases hrow⟩
    | some last =>
      have hmem := List.mem_of_getLast? hlast
      obtain ⟨hpage, hbehind⟩ := hquery (p + 1) last (hP last hmem)
      obtain ⟨hrest, hrestP⟩ := ih (p + 1) hpage fun row hrow => (hbehind row hrow).2
      -- the part of the page that is sent
      have hsub : ((frameLoop (fun _ row => some (frame row.point)) (x.rows p) records).map
          Sent.item).Sublist records := items_sublist
      have hsent := hrecords.sublist hsub
      dsimp only
      split
      · split
        · exact ⟨hsent, fun row hrow =>
            ⟨hP row (hsub.subset hrow), fun cursor h => h row (hsub.subset hrow)⟩⟩
        · rw [List.map_append]
          have hafter : ∀ row ∈ (Answer.sendHistoryClass frame timestamp query x n (p + 1)
              (query (p + 1) (timestamp last.point) last.id)).1.map Sent.item,
              rowKey timestamp last < rowKey timestamp row :=
            fun row hrow => (hrestP row hrow).2 _ fun r hr => (hbehind r hr).1
          constructor
          · refine List.pairwise_append.mpr ⟨hsent, hrest, fun a ha b hb => ?_⟩
            exact (hrecords.le_last hlast a (hsub.subset ha)).trans_lt (hafter b hb)
          · intro row hrow
            rcases List.mem_append.mp hrow with hrow | hrow
            · exact ⟨hP row (hsub.subset hrow), fun cursor h => h row (hsub.subset hrow)⟩
            · exact ⟨(hrestP row hrow).1, fun cursor h => (h last hmem).trans (hafter row hrow)⟩
      · exact ⟨List.Pairwise.nil, fun row hrow => by cases hrow⟩

/-- A cursor as one number. -/
def rank (cursor : Nat ×ₗ Nat) : Nat := (ofLex cursor).1 * 2 ^ 64 + (ofLex cursor).2

theorem rank_lt {a b : Nat ×ₗ Nat} (hlt : a < b) (ha : (ofLex a).2 < 2 ^ 64) : rank a < rank b := by
  unfold rank
  rcases Prod.Lex.lt_iff.mp hlt with h | h
  · have := Nat.mul_le_mul_right (2 ^ 64) (Nat.succ_le_of_lt h)
    omega
  · have : (ofLex a).1 * 2 ^ 64 = (ofLex b).1 * 2 ^ 64 := by rw [h.1]
    omega

theorem rank_rowKey (timestamp : α → UInt64) (row : HistoryRow α) :
    (ofLex (rowKey timestamp row)).2 < 2 ^ 64 ∧ rank (rowKey timestamp row) < 2 ^ 128 := by
  have htime := (timestamp row.point).toNat_lt
  have hid := row.id.toNat_lt
  refine ⟨hid, ?_⟩
  show (timestamp row.point).toNat * 2 ^ 64 + row.id.toNat < 2 ^ 128
  omega

/-- If every page is behind the last row of the page before, then the loop ends: the cursor moves
up, and there are no more than `2 ^ 128` of them. -/
theorem pages_end (frame : α → Asdu) (x : PageOutcomes) {P : HistoryRow α → Prop}
    (hquery : ∀ p last, P last → ∀ row ∈ query p (timestamp last.point) last.id,
      rowKey timestamp last < rowKey timestamp row ∧ P row)
    {n : Nat} (p : Nat) {records : List (HistoryRow α)} {r : Nat}
    (hr : ∀ row ∈ records, r ≤ rank (rowKey timestamp row)) (hP : ∀ row ∈ records, P row)
    (hpos : 0 < n) (hn : 2 ^ 128 < r + n) :
    (Answer.sendHistoryClass frame timestamp query x n p records).2 = true := by
  induction n generalizing p records r with
  | zero => exact absurd hpos (Nat.lt_irrefl 0)
  | succ n ih =>
    rw [Answer.sendHistoryClass]
    cases hlast : records.getLast? with
    | none => rfl
    | some last =>
      dsimp only
      split
      · split
        · rfl
        · have hmem := List.mem_of_getLast? hlast
          have hnext := hquery (p + 1) last (hP last hmem)
          have hle := hr last hmem
          have hbound := rank_rowKey timestamp last
          refine ih (p + 1) (r := rank (rowKey timestamp last) + 1) (fun row hrow => ?_)
            (fun row hrow => (hnext row hrow).2) ?_ ?_
          · exact rank_lt (hnext row hrow).1 hbound.1
          · omega
          · omega
      · rfl

end Loop

/-- The row is from the table at some page query. -/
def FromSomePage (x : PagedHistoryCall) {α : Type} (history : HistoryClass α)
    (input : ClassInput x.config.backend α) (row : HistoryRow α) : Prop :=
  ∃ p stored, ReadFrom history (input.table.page p) x.beginMs x.endMs row stored

section Class

variable (x : PagedHistoryCall) {α : Type} (history : HistoryClass α)
  (input : ClassInput x.config.backend α)

theorem query_spec (p : Nat) {lastTimestampMs lastId : UInt64}
    (htime : columnTimestamp x.config.backend lastTimestampMs = lastTimestampMs.toNat)
    (hid : columnTimestamp x.config.backend lastId = lastId.toNat) :
    Increasing (rowKey history.timestamp) (x.query history input p lastTimestampMs lastId) ∧
      ∀ row ∈ x.query history input p lastTimestampMs lastId,
        toLex (lastTimestampMs.toNat, lastId.toNat) < rowKey history.timestamp row ∧
          FromSomePage x history input row := by
  obtain ⟨hincreasing, hrows⟩ := fetchPage_spec history (input.table.page p) (input.queries p)
    x.beginMs x.endMs historyPageRecords htime hid
  exact ⟨hincreasing, fun row hrow => ⟨(hrows row hrow).1, p, (hrows row hrow).2⟩⟩

theorem first_page : Increasing (rowKey history.timestamp) (x.query history input 0 0 0) ∧
    ∀ row ∈ x.query history input 0 0 0, FromSomePage x history input row := by
  have hzero : columnTimestamp x.config.backend 0 = (0 : UInt64).toNat :=
    columnTimestamp_eq fun _ => by decide
  obtain ⟨hfirst, hrows⟩ := query_spec x history input 0 hzero hzero
  exact ⟨hfirst, fun row hrow => (hrows row hrow).2⟩

theorem next_page (p : Nat) (last : HistoryRow α) (hlast : FromSomePage x history input last) :
    Increasing (rowKey history.timestamp)
      (x.query history input p (history.timestamp last.point) last.id) ∧
    ∀ row ∈ x.query history input p (history.timestamp last.point) last.id,
      rowKey history.timestamp last < rowKey history.timestamp row ∧
        FromSomePage x history input row := by
  obtain ⟨_, _, hread⟩ := hlast
  exact query_spec x history input p (cursor_exact hread).1 (cursor_exact hread).2

theorem send_ends {n : Nat} (hn : 2 ^ 128 < n) :
    (x.send history input (x.query history input 0 0 0) n).2 = true :=
  pages_end history.frame input.client
    (fun p last hlast => (next_page x history input p last hlast).2) 0
    (fun _ _ => Nat.zero_le _) (first_page x history input).2 (by omega) (by omega)

theorem class_never_repeats (n : Nat) :
    NeverRepeats history.timestamp x.beginMs x.endMs (x.sent history input n) := by
  obtain ⟨hfirst, hfirstRows⟩ := first_page x history input
  obtain ⟨hincreasing, hrows⟩ := pages_increasing history.frame input.client
    (next_page x history input) n 0 hfirst hfirstRows
  refine ⟨hincreasing, ?_, ?_⟩
  · intro row hrow
    obtain ⟨p, stored, hread⟩ := (hrows row hrow).1
    exact interval_of_read hread (msgTimeToMs_lt _) (msgTimeToMs_lt _)
  · -- two rows of one id are the same row of the table, so they are not sent apart
    refine (List.nodup_map_iff_inj_on hincreasing.nodup).mpr fun a ha b hb hid => ?_
    obtain ⟨p, storedA, hreadA⟩ := (hrows a ha).1
    obtain ⟨q, storedB, hreadB⟩ := (hrows b hb).1
    have hstored : storedA.id = storedB.id := by
      rw [← id_read history hreadA.mem, ← id_read history hreadB.mem,
        ← hreadA.read, ← hreadB.read, hid]
    rw [hreadA.read, hreadB.read,
      input.table.immutable p q storedA hreadA.mem storedB hreadB.mem hstored]

end Class

/-- Every call has an answer. -/
theorem answer_ends (x : PagedHistoryCall) :
    ∃ enough, ∀ n ≥ enough, ∃ answer, x.answer n = some answer := by
  refine ⟨2 ^ 128 + 1, fun n hn => ?_⟩
  rw [PagedHistoryCall.answer, queryHistoryData_eq, Answer.sendHistoryDataRecords]
  dsimp only
  rw [send_ends x yxHistory x.yx hn, send_ends x ycHistory x.yc hn, send_ends x ddHistory x.dd hn]
  exact ⟨_, rfl⟩

end HistoryPagingLemmas

open HistoryPagingLemmas

/-- Whatever rows are inserted and deleted between the page queries, and wherever a query fails
or the client becomes inactive: after any number of pages the rows of each class have been sent
by increasing time and id, all of the interval, and no id twice. -/
theorem history_paging_never_repeats (x : PagedHistoryCall) (n : Nat) :
    NeverRepeats YxPoint.timestampMs (msgTimeToMs x.beginTime) (msgTimeToMs x.endTime)
        (x.sentYx n) ∧
      NeverRepeats YcPoint.timestampMs (msgTimeToMs x.beginTime) (msgTimeToMs x.endTime)
        (x.sentYc n) ∧
      NeverRepeats DdPoint.timestampMs (msgTimeToMs x.beginTime) (msgTimeToMs x.endTime)
        (x.sentDd n) :=
  ⟨class_never_repeats x yxHistory x.yx n, class_never_repeats x ycHistory x.yc n,
    class_never_repeats x ddHistory x.dd n⟩

end Iec104Slave
