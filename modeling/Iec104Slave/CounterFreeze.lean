import Iec104Slave.Interrogation
import Iec104Slave.Lib.Run
import Mathlib.Algebra.BigOperators.Group.List.Basic

/-!
# Freezing counters (`send_counter_call`)

A counter call with a freeze code copies the value of every counter to `frozen_value`, and sets
the value to 0 if the code asks for a reset. The frames behind it carry `value`: the lines that
would carry `frozen_value` are compiled out. What a reset takes away is never transmitted.

Results:
1. `counter_call_reports_frozen_iff`: a call reports what it froze iff it does not reset, or all
   counters in its frames stood at 0; and the readings of the calls that reset add up to
   the counts iff every counter stands at 0 at every such call.
-/

namespace Iec104Slave

open Batch

/-! ## One call -/

/-- The value in an object with a counter. -/
def InformationObject.counterReading (io : InformationObject) : Option Int32 :=
  match io.element with
  | .integratedTotals value _ _ => some value
  | _ => none

/-- `msg->qcc & 0xc0`. -/
def CounterCallInput.frz (x : CounterCallInput) : UInt8 := x.msg.qcc &&& 0xc0

def Freezes (frz : UInt8) : Prop :=
  frz = qccFreezeWithoutReset ∨ frz = qccFreezeWithReset ∨ frz = qccCounterReset

def Resets (frz : UInt8) : Prop :=
  frz = qccFreezeWithReset ∨ frz = qccCounterReset

instance (frz : UInt8) : Decidable (Freezes frz) := inferInstanceAs (Decidable (_ ∨ _ ∨ _))

instance (frz : UInt8) : Decidable (Resets frz) := inferInstanceAs (Decidable (_ ∨ _))

/-- No thread writes between the freeze and the snapshot. -/
def CounterCallInput.Alone (x : CounterCallInput) : Prop :=
  x.snapshot.table = (Answer.sendCounterCall x).table

/-- Every counter in an accepted frame has the value that the call has frozen. -/
def CounterCallInput.ReportsFrozen (x : CounterCallInput) : Prop :=
  ∀ sent ∈ (Answer.sendCounterCall x).dd, ∀ asdu, sent.frame = some asdu →
    asdu.elements.map InformationObject.counterReading =
      sent.item.map fun point => some point.frozenValue

/-- The frame with batch `k` of the table is sent. -/
structure CounterCallInput.GoesOut (x : CounterCallInput) (k : Nat) (batch : List DdPoint) :
    Prop where
  active : x.active = true
  created : x.snapshot.created = true
  is_batch : (ciDdBatches x.table.dd)[k]? = some batch
  stays_active : ∀ j ≤ k, (x.dd j).active = true
  accepted : (asduSendDdBatch (x.dd k).accepts .request batch false).isSome = true

/-! ## Runs -/

/-- The surroundings of a call in a run, without the table. -/
structure CounterEnv where
  msg : Iec104WorkMsg
  active : Bool
  clock : Nat → UInt64
  created : Bool
  dd : Nat → FrameOutcome
  activeAtEnd : Bool

def CounterEnv.frz (env : CounterEnv) : UInt8 := env.msg.qcc &&& 0xc0

/-- The call on a table that no other thread writes. -/
def CounterEnv.input (env : CounterEnv) (table : PointTable) : CounterCallInput where
  msg := env.msg
  active := env.active
  table := table
  clock := env.clock
  snapshot := ⟨{ table with dd := Answer.freezeCounters env.frz env.clock table.dd }, env.created⟩
  dd := env.dd
  activeAtEnd := env.activeAtEnd

inductive CounterOp
  | update (ioa value : Int32)
  | call (env : CounterEnv)

/-- The sum of the counters at an address. -/
def countAt (ioa : UInt32) (dd : List DdPoint) : Int :=
  ((dd.filter fun point => point.ioa = ioa).map fun point => point.value.toInt).sum

/-- The sum of the readings for an address. -/
def readingsAt (ioa : UInt32) (objects : List InformationObject) : Int :=
  (objects.filterMap fun io =>
    if io.ioa = ioa.toInt32 then io.counterReading.map Int32.toInt else none).sum

/-- The table, what the updates have counted, and what the calls that reset have transmitted. -/
structure CounterLedger where
  table : PointTable
  counted : UInt32 → Int
  transmitted : UInt32 → Int

def CounterLedger.start (table : PointTable) : CounterLedger := ⟨table, fun _ => 0, fun _ => 0⟩

def counterStep (s : CounterLedger) : CounterOp → CounterLedger
  | .update ioa value =>
    let table := s.table.modifyDd ioa fun point => { point with value := value }
    { s with
      table := table
      counted := fun a => s.counted a + (countAt a table.dd - countAt a s.table.dd) }
  | .call env =>
    let answer := Answer.sendCounterCall (env.input s.table)
    { s with
      table := answer.table
      transmitted := fun a =>
        if Resets env.frz then s.transmitted a + readingsAt a (carried Asdu.elements answer.dd)
        else s.transmitted a }

/-- Nothing that was counted is missing: it has been transmitted, or is still in the counter. -/
def CounterLedger.Balanced (start : PointTable) (s : CounterLedger) : Prop :=
  ∀ ioa, s.transmitted ioa + countAt ioa s.table.dd = countAt ioa start.dd + s.counted ioa

/-- A call that resets finds the counters of every address at 0. -/
def CounterOp.LosesNothing (s : CounterLedger) : CounterOp → Prop
  | .update _ _ => True
  | .call env => env.active = true → Resets env.frz → ∀ ioa, countAt ioa s.table.dd = 0

namespace CounterFreezeLemmas

open AsduBuilderLemmas FrameLoopLemmas InterrogationLemmas

/-- What the freeze makes of a counter. -/
structure FrozenFrom (frz : UInt8) (before after : DdPoint) : Prop where
  ioa : after.ioa = before.ioa
  frozen_value : after.frozenValue = before.value
  value : after.value = if Resets frz then 0 else before.value

theorem freezeCounters_forall₂ {frz : UInt8} (hfrz : Freezes frz) (clock : Nat → UInt64)
    (dd : List DdPoint) :
    List.Forall₂ (FrozenFrom frz) dd (Answer.freezeCounters frz clock dd) := by
  unfold Freezes at hfrz
  rw [Answer.freezeCounters, if_pos hfrz]
  refine List.forall₂_iff_get.mpr ⟨List.length_mapIdx.symm, fun i h₁ h₂ => ?_⟩
  rw [List.get_eq_getElem, List.get_eq_getElem, List.getElem_mapIdx]
  exact ⟨rfl, rfl, rfl⟩

theorem batches_frozen {frz : UInt8} (hfrz : Freezes frz) (clock : Nat → UInt64)
    (dd : List DdPoint) : List.Forall₂ (List.Forall₂ (FrozenFrom frz)) (ciDdBatches dd)
      (ciDdBatches (Answer.freezeCounters frz clock dd)) := by
  refine batches_forall₂ (fun x x' k y y' hx hy => ?_) (freezeCounters_forall₂ hfrz clock dd)
  rw [consecutiveFits, consecutiveFits, hx.ioa, hy.ioa]

/-- The frame of a frozen batch is sent exactly if that of the batch would have been. -/
theorem send_frozen {frz : UInt8} {batch batch' : List DdPoint}
    (h : List.Forall₂ (FrozenFrom frz) batch batch') (accepts : Bool) :
    (asduSendDdBatch accepts .request batch false).isSome =
      (asduSendDdBatch accepts .request batch' false).isSome := by
  refine sendObjects_isSome ?_ accepts true .request
  rw [List.forall₂_map_left_iff, List.forall₂_map_right_iff]
  refine h.imp fun before after hfrozen => ⟨?_, rfl, rfl⟩
  rw [ddObject, ddObject, hfrozen.ioa]

/-- The readings of a frame are the running values. -/
theorem readings_of_send {accepts : Bool} {batch : List DdPoint} {asdu : Asdu}
    (h : asduSendDdBatch accepts .request batch false = some asdu) :
    asdu.elements.map InformationObject.counterReading =
      batch.map fun point => some point.value := by
  rw [elements_of_sendObjects h, List.map_map]
  rfl

theorem not_resets_iff {frz : UInt8} (hfrz : Freezes frz) :
    ¬Resets frz ↔ frz = qccFreezeWithoutReset := by
  constructor
  · intro h
    exact hfrz.resolve_right h
  · rintro rfl
    decide

/-- The running values of a frozen batch are the frozen ones if nothing was reset, or if there
was nothing to reset. -/
theorem values_frozen_iff {frz : UInt8} {batch batch' : List DdPoint}
    (h : List.Forall₂ (FrozenFrom frz) batch batch') :
    batch'.map (fun point => some point.value) = batch'.map (fun point => some point.frozenValue) ↔
      (Resets frz → ∀ point ∈ batch, point.value = 0) := by
  induction h with
  | nil => simp
  | cons hfrozen _ ih =>
    rw [List.map_cons, List.map_cons, List.cons.injEq, ih, Option.some_inj, hfrozen.value,
      hfrozen.frozen_value]
    constructor
    · rintro ⟨hhead, htail⟩ hresets point hpoint
      rw [if_pos hresets] at hhead
      rcases List.mem_cons.mp hpoint with rfl | hpoint
      · exact hhead.symm
      · exact htail hresets point hpoint
    · intro hall
      refine ⟨?_, fun hresets point hpoint => hall hresets point (List.mem_cons_of_mem _ hpoint)⟩
      split
      · next hresets => exact (hall hresets _ List.mem_cons_self).symm
      · rfl

theorem forall₂_getElem? {α β : Type} {R : α → β → Prop} {l : List α} {l' : List β}
    (h : List.Forall₂ R l l') {k : Nat} {a : α} (ha : l[k]? = some a) :
    ∃ b, l'[k]? = some b ∧ R a b := by
  induction h generalizing k with
  | nil => cases ha
  | cons hab _ ih =>
    cases k with
    | zero =>
      cases ha
      exact ⟨_, rfl, hab⟩
    | succ k => exact ih ha

theorem counterCall_table {x : CounterCallInput} (hactive : x.active = true) :
    (Answer.sendCounterCall x).table =
      { x.table with dd := Answer.freezeCounters x.frz x.clock x.table.dd } := by
  rw [Answer.sendCounterCall, hactive]
  dsimp only [Bool.not_true]
  cases pointTableSnapshotCreate x.snapshot with
  | none => rfl
  | some snapshot => rfl

theorem counterCall_silent {x : CounterCallInput}
    (h : ¬(x.active = true ∧ x.snapshot.created = true)) : (Answer.sendCounterCall x).dd = [] := by
  unfold Answer.sendCounterCall pointTableSnapshotCreate
  cases hactive : x.active with
  | false => rfl
  | true =>
    rw [Bool.eq_false_of_not_eq_true fun hcreated => h ⟨hactive, hcreated⟩]
    rfl

theorem reportsFrozen_iff {x : CounterCallInput} (hfrz : Freezes x.frz) (halone : x.Alone) :
    x.ReportsFrozen ↔
      x.frz = qccFreezeWithoutReset ∨
        ∀ k batch, x.GoesOut k batch → ∀ point ∈ batch, point.value = 0 := by
  rw [← not_resets_iff hfrz, ← imp_iff_not_or]
  by_cases hsends : x.active = true ∧ x.snapshot.created = true
  · obtain ⟨hactive, hcreated⟩ := hsends
    have hbatches := batches_frozen hfrz x.clock x.table.dd
    have hdd : (Answer.sendCounterCall x).dd =
        Answer.sendDdLoop x.dd (Answer.freezeCounters x.frz x.clock x.table.dd) := by
      rw [counterCall_dd hactive hcreated, halone, counterCall_table hactive]
    unfold CounterCallInput.ReportsFrozen
    rw [hdd]
    constructor
    · intro h hresets k batch hout
      obtain ⟨batch', hbatch', hfrozen⟩ := forall₂_getElem? hbatches hout.is_batch
      have hsome := hout.accepted
      rw [send_frozen hfrozen] at hsome
      obtain ⟨asdu, hasdu⟩ := Option.isSome_iff_exists.mp hsome
      have hreport := h ⟨batch', _⟩ (mem_frameLoop.mpr ⟨k, batch', hbatch', hout.stays_active, rfl⟩)
        asdu hasdu
      rw [readings_of_send hasdu] at hreport
      exact (values_frozen_iff hfrozen).mp hreport hresets
    · intro h sent hsent asdu hasdu
      obtain ⟨k, batch', hbatch', hstays, rfl⟩ := mem_frameLoop.mp hsent
      obtain ⟨batch, hbatch, hfrozen⟩ := forall₂_getElem? hbatches.flip hbatch'
      rw [readings_of_send hasdu, values_frozen_iff hfrozen]
      intro hresets
      refine h hresets k batch ⟨hactive, hcreated, hbatch, hstays, ?_⟩
      rw [send_frozen hfrozen]
      exact Option.isSome_iff_exists.mpr ⟨asdu, hasdu⟩
  · unfold CounterCallInput.ReportsFrozen
    rw [counterCall_silent hsends]
    refine iff_of_true (fun sent hsent => by cases hsent) fun _ k batch hout => ?_
    exact absurd ⟨hout.active, hout.created⟩ hsends

/-! ### Runs -/

theorem countAt_frozen {frz : UInt8} {dd dd' : List DdPoint} (ioa : UInt32)
    (h : List.Forall₂ (FrozenFrom frz) dd dd') :
    countAt ioa dd' = if Resets frz then 0 else countAt ioa dd := by
  induction h with
  | nil => simp [countAt]
  | cons hfrozen _ ih =>
    unfold countAt at ih ⊢
    rw [List.filter_cons, List.filter_cons, hfrozen.ioa]
    split
    · rw [List.map_cons, List.map_cons, List.sum_cons, List.sum_cons, ih, hfrozen.value]
      split
      · rfl
      · rfl
    · exact ih

theorem countAt_freezeCounters (frz : UInt8) (clock : Nat → UInt64) (ioa : UInt32)
    (dd : List DdPoint) : countAt ioa (Answer.freezeCounters frz clock dd) =
      if Resets frz then 0 else countAt ioa dd := by
  by_cases hfrz : Freezes frz
  · exact countAt_frozen ioa (freezeCounters_forall₂ hfrz clock dd)
  · have hkeeps : Answer.freezeCounters frz clock dd = dd := if_neg hfrz
    have hnot : ¬Resets frz := fun hresets => hfrz (.inr hresets)
    rw [hkeeps, if_neg hnot]

theorem value_reset {frz : UInt8} {clock : Nat → UInt64} {dd batch : List DdPoint}
    {point : DdPoint} (hresets : Resets frz)
    (hbatch : batch ∈ ciDdBatches (Answer.freezeCounters frz clock dd)) (hpoint : point ∈ batch) :
    point.value = 0 := by
  have hmem : point ∈ (ciDdBatches (Answer.freezeCounters frz clock dd)).flatten :=
    List.mem_flatten_of_mem hbatch hpoint
  rw [ciDdBatches, flatten_batches] at hmem
  obtain ⟨i, hi⟩ := List.mem_iff_getElem?.mp hmem
  obtain ⟨before, -, hfrozen⟩ :=
    forall₂_getElem? (freezeCounters_forall₂ (.inr hresets) clock dd).flip hi
  exact hfrozen.value.trans (if_pos hresets)

/-- A call that resets transmits only zeros. -/
theorem readingsAt_reset (env : CounterEnv) (table : PointTable) (hresets : Resets env.frz)
    (ioa : UInt32) :
    readingsAt ioa (carried Asdu.elements (Answer.sendCounterCall (env.input table)).dd) = 0 := by
  have hzero : ∀ io ∈ carried Asdu.elements (Answer.sendCounterCall (env.input table)).dd,
      io.counterReading = some 0 := by
    intro io hio
    by_cases hsends : env.active = true ∧ env.created = true
    · rw [counterCall_dd (y := env.input table) hsends.1 hsends.2] at hio
      obtain ⟨asdu, hasdu, hmem⟩ := List.mem_flatMap.mp hio
      obtain ⟨sent, hsent, hframe⟩ := List.mem_filterMap.mp hasdu
      obtain ⟨k, batch, hbatch, -, rfl⟩ := mem_frameLoop.mp hsent
      have hreading := List.mem_map_of_mem (f := InformationObject.counterReading) hmem
      rw [readings_of_send hframe] at hreading
      obtain ⟨point, hpoint, hvalue⟩ := List.mem_map.mp hreading
      rw [← hvalue, value_reset hresets (List.mem_of_getElem? hbatch) hpoint]
    · rw [counterCall_silent (x := env.input table) hsends] at hio
      cases hio
  refine List.sum_eq_zero fun reading hreading => ?_
  obtain ⟨io, hio, hsome⟩ := List.mem_filterMap.mp hreading
  split at hsome
  · rw [hzero io hio] at hsome
    exact (Option.some.inj hsome).symm
  · cases hsome

/-- After a call that resets, the counters are at 0 and zeros have been transmitted. -/
theorem ledger_reset (s : CounterLedger) {env : CounterEnv} (hactive : env.active = true)
    (hresets : Resets env.frz) (ioa : UInt32) :
    (counterStep s (.call env)).transmitted ioa +
      countAt ioa (counterStep s (.call env)).table.dd = s.transmitted ioa := by
  simp only [counterStep, if_pos hresets, readingsAt_reset env s.table hresets]
  rw [counterCall_table (x := env.input s.table) hactive]
  show s.transmitted ioa + 0 + countAt ioa (Answer.freezeCounters env.frz _ _) = _
  rw [countAt_freezeCounters, if_pos hresets, add_zero, add_zero]

/-- Any other call leaves the ledger as it is. -/
theorem ledger_kept (s : CounterLedger) {env : CounterEnv}
    (h : ¬(env.active = true ∧ Resets env.frz)) (ioa : UInt32) :
    (counterStep s (.call env)).transmitted ioa = s.transmitted ioa ∧
      countAt ioa (counterStep s (.call env)).table.dd = countAt ioa s.table.dd := by
  by_cases hactive : env.active = true
  · have hresets : ¬Resets env.frz := fun hresets => h ⟨hactive, hresets⟩
    simp only [counterStep, if_neg hresets]
    rw [counterCall_table (x := env.input s.table) hactive]
    show _ ∧ countAt ioa (Answer.freezeCounters env.frz _ _) = _
    rw [countAt_freezeCounters, if_neg hresets]
    exact ⟨trivial, rfl⟩
  · have hsilent := counterCall_silent (x := env.input s.table) fun hsends => hactive hsends.1
    have htable : (Answer.sendCounterCall (env.input s.table)).table = s.table := by
      rw [Answer.sendCounterCall, show (env.input s.table).active = false from
        Bool.eq_false_of_not_eq_true hactive]
      rfl
    have hnone :
        readingsAt ioa (carried Asdu.elements ([] : List (Sent (List DdPoint) Asdu))) = 0 := rfl
    simp only [counterStep, hsilent, htable, hnone, add_zero, ite_self]
    exact ⟨trivial, trivial⟩

/-- A step keeps the balance exactly if it loses nothing. -/
theorem balanced_step {start : PointTable} {s : CounterLedger} (h : s.Balanced start)
    (op : CounterOp) : (counterStep s op).Balanced start ↔ op.LosesNothing s := by
  cases op with
  | update ioa value =>
    refine iff_of_true (fun a => ?_) trivial
    have hbefore := h a
    simp only [counterStep]
    omega
  | call env =>
    by_cases hreset : env.active = true ∧ Resets env.frz
    · have hcounted : ∀ a, (counterStep s (.call env)).counted a = s.counted a := fun _ => rfl
      constructor
      · intro hbalanced _ _ a
        have hnow := hbalanced a
        have hbefore := h a
        rw [ledger_reset s hreset.1 hreset.2, hcounted, ← hbefore] at hnow
        exact left_eq_add.mp hnow
      · intro hzero a
        have hbefore := h a
        rw [hzero hreset.1 hreset.2 a, add_zero] at hbefore
        rw [ledger_reset s hreset.1 hreset.2, hcounted, hbefore]
    · refine iff_of_true (fun a => ?_) fun hactive hresets => absurd ⟨hactive, hresets⟩ hreset
      obtain ⟨htransmitted, hcount⟩ := ledger_kept s hreset a
      rw [htransmitted, hcount]
      exact h a

end CounterFreezeLemmas

open CounterFreezeLemmas

/-- A counter call with a freeze code, in which no other thread writes the table between the
freeze and the snapshot, reports the frozen values exactly if it does not reset, or if every
counter in its frames stood at 0. In a run of updates and calls, the readings of the calls that
reset account for all counts at every point exactly if each of these calls finds the
counters at 0. -/
theorem counter_call_reports_frozen_iff (x : CounterCallInput) (start : PointTable)
    (ops : List CounterOp) :
    (Freezes x.frz → x.Alone →
      (x.ReportsFrozen ↔ x.frz = qccFreezeWithoutReset ∨
        ∀ k batch, x.GoesOut k batch → ∀ point ∈ batch, point.value = 0)) ∧
    ((∀ past rest, ops = past ++ rest →
        (Run.exec counterStep (.start start) past).Balanced start) ↔
      Run.Guarded (fun s op => op.LosesNothing s) counterStep (.start start) ops) := by
  constructor
  · intro hfrz halone
    exact reportsFrozen_iff hfrz halone
  · have hstart : (CounterLedger.start start).Balanced start := fun a => by
      show 0 + countAt a start.dd = countAt a start.dd + 0
      rw [zero_add, add_zero]
    exact Run.always_iff_guarded (J := fun _ => True) trivial hstart (fun _ _ _ => trivial)
      (fun s op _ hbalanced => balanced_step hbalanced op) ops

/-- A call on a table with one counter at the given value. -/
def oneCounterCall (qcc : UInt8) (value : Int32) : CounterCallInput :=
  CounterEnv.input ⟨{ qcc := qcc }, true, fun _ => 0, true, everyFrame, true⟩
    { smallTable with dd := [{ initDdPoint 0 with value := value }] }

/-- A freeze without reset reports the counter. -/
theorem freeze_without_reset_reported : (oneCounterCall 0x45 1000).ReportsFrozen :=
  ((counter_call_reports_frozen_iff (oneCounterCall 0x45 1000) smallTable []).1
    (by decide) rfl).mpr (.inl (by decide))

/-- A freeze with reset freezes 1000 and reports 0. -/
theorem freeze_with_reset_reports_zero :
    ¬ ∀ x : CounterCallInput, Freezes x.frz → x.Alone → x.ReportsFrozen := by
  intro h
  have hfrozen := h (oneCounterCall 0x85 1000) (by decide) rfl
  have hout : (oneCounterCall 0x85 1000).GoesOut 0 [{ initDdPoint 0 with value := 1000 }] :=
    ⟨rfl, rfl, rfl, fun _ _ => rfl, rfl⟩
  rcases (reportsFrozen_iff (x := oneCounterCall 0x85 1000) (by decide) rfl).mp hfrozen with
    hcode | hzero
  · exact absurd hcode (by decide)
  · exact absurd (hzero 0 _ hout _ List.mem_cons_self) (by decide)

end Iec104Slave
