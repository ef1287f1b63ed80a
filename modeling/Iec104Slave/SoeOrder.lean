import Iec104Slave.SoeHandOver
import Iec104Slave.UploadWorker

/-!
# The order of SOE events in a snapshot

`put_soe_locked` writes the SOE ring at `soe_next`, but `active_upload_snapshot_create` reads it
from slot 0. The slots before `soe_next` have the newest events, so once the ring has wrapped
the newest events come first.

Results:
1. `soe_snapshot_in_order_iff`: when the SOE array of a snapshot is in the order of the events.
2. `soe_frames_keep_order`, `soe_handOver_keeps_order`: the worker of a client and the report
   scheduler forward the array as it is.
-/

namespace Iec104Slave

open SlotTable Batch

/-- The events are in the order in which they occurred. -/
def InSequence (soe : List SoeUploadEntry) : Prop :=
  soe.Pairwise fun a b => a.sequence < b.sequence

/-- The ring is about to be written from its first slot on, or the consumer has seen every event
in the slots that would be overwritten before that. -/
def ActiveUploadArea.SoeUnwrapped (area : ActiveUploadArea) (afterVersion : Nat) : Prop :=
  area.soeNext = 0 ∨ ∀ e ∈ pending (area.soe.drop area.soeNext), e.version ≤ afterVersion

instance (soe : List SoeUploadEntry) : Decidable (InSequence soe) :=
  inferInstanceAs (Decidable (List.Pairwise _ _))

instance (area : ActiveUploadArea) (afterVersion : Nat) :
    Decidable (area.SoeUnwrapped afterVersion) :=
  inferInstanceAs (Decidable (_ ∨ ∀ e ∈ _, _))

/-- The versions of the SOE puts since the last clear. -/
structure LogOrdered (s : LoggedArea) : Prop where
  increasing : s.soeLog.Pairwise fun a b => a.version < b.version
  stamped : ∀ e ∈ s.soeLog, e.version ≤ s.area.version

namespace SoeOrderLemmas

open ActiveUploadLemmas UploadWorkerLemmas FrameLoopLemmas

theorem logOrdered_step {s : LoggedArea} (h : LogOrdered s) (op : UploadOp) :
    LogOrdered (loggedStep s op) := by
  have happend : LogOrdered
      ⟨uploadStep s.area op, s.soeLog ++ (soeWritten s.area op).toList⟩ := by
    have hmono := version_uploadStep s.area op
    cases hsoe : soeWritten s.area op with
    | none =>
      rw [Option.toList_none, List.append_nil]
      exact ⟨h.increasing, fun e he => Nat.le_trans (h.stamped e he) hmono⟩
    | some e =>
      obtain ⟨hnew, hversion⟩ := soeWritten_version hsoe
      constructor
      · refine List.pairwise_append.mpr ⟨h.increasing, List.pairwise_singleton _ _, ?_⟩
        intro a ha b hb
        rw [List.mem_singleton.mp hb]
        exact Nat.lt_of_le_of_lt (h.stamped a ha) hnew
      · intro a ha
        rcases List.mem_append.mp ha with ha | ha
        · exact Nat.le_trans (h.stamped a ha) hmono
        · rw [List.mem_singleton.mp ha]
          exact hversion.le
  cases op with
  | clear => exact ⟨List.Pairwise.nil, fun e he => by cases he⟩
  | putYx point withSoe => exact happend
  | putYc point cot => exact happend
  | putSoe point => exact happend

theorem logOrdered_exec (yxCapacity ycCapacity soeCapacity : Nat) (ops : List UploadOp) :
    LogOrdered (Run.exec loggedStep ⟨activeUploadInit yxCapacity ycCapacity soeCapacity, []⟩ ops) :=
  Run.exec_induction (I := fun _ => LogOrdered) ⟨List.Pairwise.nil, fun e he => by cases he⟩
    (fun _ _ op h => logOrdered_step h op) ops

theorem inSequence_log {s : LoggedArea} (h : AreaInv s) : InSequence s.soeLog := by
  refine List.pairwise_iff_getElem.mpr fun i j hi hj hij => ?_
  rw [h.sequence i _ (List.getElem?_eq_getElem hi), h.sequence j _ (List.getElem?_eq_getElem hj)]
  exact Nat.succ_lt_succ hij

/-- The newer events of a ring, read from slot 0. The slots before `soe_next` have the end of
the log, the others what was put before it. -/
theorem newer_inSequence_iff {s : LoggedArea} (h : AreaInv s) (hlog : LogOrdered s)
    (after : Nat) :
    InSequence (newerThan SoeUploadEntry.version after s.area.soe) ↔
      s.area.SoeUnwrapped after := by
  have hread := h.soe.pending_take
  have hold := h.soe.pending_drop
  rw [← h.soe_next] at hread hold
  have hsplit : newerThan SoeUploadEntry.version after s.area.soe =
      (s.soeLog.drop (s.soeLog.length - s.area.soeNext)).filter (fun e => e.version > after) ++
        (pending (s.area.soe.drop s.area.soeNext)).filter (fun e => e.version > after) := by
    rw [newerThan, ← List.filter_append, ← hread, ← pending_append, List.take_append_drop]
  have hsorted := inSequence_log h
  have hnext : s.area.soeNext ≤ s.soeLog.length := h.soe_next ▸ Nat.mod_le _ _
  -- the log is what the slots behind `soe_next` had, and more, before what the others have
  rw [InSequence, ← List.take_append_drop (s.soeLog.length - s.area.soeNext) s.soeLog,
    List.pairwise_append] at hsorted
  have hversions := hlog.increasing
  rw [← List.take_append_drop (s.soeLog.length - s.area.soeNext) s.soeLog,
    List.pairwise_append] at hversions
  have hearlier : ∀ e ∈ pending (s.area.soe.drop s.area.soeNext),
      e ∈ s.soeLog.take (s.soeLog.length - s.area.soeNext) := by
    intro e he
    rw [hold] at he
    exact List.mem_of_mem_drop he
  rw [hsplit, InSequence, List.pairwise_append]
  constructor
  · rintro ⟨-, -, hcross⟩
    by_contra hwrapped
    rw [ActiveUploadArea.SoeUnwrapped, not_or] at hwrapped
    obtain ⟨hzero, hunseen⟩ := hwrapped
    push Not at hunseen
    obtain ⟨e, he, hafter⟩ := hunseen
    have hne : s.soeLog.drop (s.soeLog.length - s.area.soeNext) ≠ [] := by
      rw [Ne, List.drop_eq_nil_iff]
      omega
    obtain ⟨f, hf⟩ := List.exists_mem_of_ne_nil _ hne
    have hlater := hversions.2.2 e (hearlier e he) f hf
    have hbefore := hcross f (List.mem_filter.mpr ⟨hf, decide_eq_true (hafter.trans hlater)⟩)
      e (List.mem_filter.mpr ⟨he, decide_eq_true hafter⟩)
    exact absurd hbefore (hsorted.2.2 e (hearlier e he) f hf).asymm
  · intro hunwrapped
    refine ⟨hsorted.2.1.filter _, ?_, ?_⟩
    · rw [hold]
      exact (hsorted.1.drop).filter _
    · intro a ha b hb
      obtain ⟨hb, hafter⟩ := List.mem_filter.mp hb
      rcases hunwrapped with hzero | hseen
      · rw [hzero, Nat.sub_zero, List.drop_length] at ha
        cases ha
      · exact absurd (of_decide_eq_true hafter) (Nat.not_lt.mpr (hseen b hb))

/-- The entries of the accepted frames, in the order of the frames. -/
theorem entries_uploadLoop_sublist {ε : Type} (entry : ε → UploadEntry)
    (send : Bool → List ε → Option Asdu) (outcome : Nat → FrameOutcome) (k : Nat)
    (bs : List (List ε)) :
    ((uploadLoop entry send outcome k bs).flatMap AcceptedFrame.entries).Sublist
      (bs.flatten.map entry) := by
  induction bs generalizing k with
  | nil => exact List.Sublist.refl _
  | cons batch bs ih =>
    rw [uploadLoop, List.flatten_cons, List.map_append]
    split
    · rw [List.flatMap_append]
      refine List.Sublist.append ?_ (ih (k + 1))
      cases send (outcome k).accepts batch with
      | none => exact List.nil_sublist _
      | some asdu =>
        rw [Option.map_some, Option.toList_some, List.flatMap_singleton]
    · exact List.nil_sublist _

end SoeOrderLemmas

open ActiveUploadLemmas SoeOrderLemmas

/-- In every run of puts and clears, the SOE array of a snapshot is in the order of the events
exactly if the ring is not wrapped for the consumer. -/
theorem soe_snapshot_in_order_iff (yxCapacity ycCapacity soeCapacity : Nat) (ops : List UploadOp)
    (alloc : SnapshotAlloc) (afterVersion : Nat) (snapshot : ActiveUploadSnapshot)
    (hsnapshot : activeUploadSnapshotCreate alloc
      (Run.exec uploadStep (activeUploadInit yxCapacity ycCapacity soeCapacity) ops)
      afterVersion = some snapshot) :
    InSequence snapshot.soe ↔
      (Run.exec uploadStep (activeUploadInit yxCapacity ycCapacity soeCapacity)
        ops).SoeUnwrapped afterVersion := by
  have hinv := areaInv_exec (areaInv_init yxCapacity ycCapacity soeCapacity) ops
  have hiff := newer_inSequence_iff hinv (logOrdered_exec yxCapacity ycCapacity soeCapacity ops)
    afterVersion
  rw [area_exec] at hiff
  rw [snapshot_eq hsnapshot]
  exact hiff

/-- Three events in a ring of two slots. -/
def threeSoePuts : List UploadOp :=
  [.putSoe (initYxPoint 0), .putSoe (initYxPoint 1), .putSoe (initYxPoint 2)]

/-- A consumer that has seen the first two gets the third. -/
theorem seen_events_in_order :
    activeUploadSnapshotCreate ⟨true, true, true⟩
        (Run.exec uploadStep (activeUploadInit 1 1 2) threeSoePuts) 2 =
      some ⟨3, [], [], [⟨3, false, 0, 0, 3, 3⟩]⟩ ∧
    InSequence [⟨3, false, 0, 0, 3, 3⟩] :=
  ⟨rfl, (soe_snapshot_in_order_iff 1 1 2 threeSoePuts ⟨true, true, true⟩ 2
    ⟨3, [], [], [⟨3, false, 0, 0, 3, 3⟩]⟩ rfl).mpr (by decide)⟩

/-- A consumer that has seen none of them gets the third event before the second. -/
theorem wrapped_events_out_of_order :
    ¬ ∀ yxCapacity ycCapacity soeCapacity ops alloc afterVersion snapshot,
      activeUploadSnapshotCreate alloc
        (Run.exec uploadStep (activeUploadInit yxCapacity ycCapacity soeCapacity) ops)
        afterVersion = some snapshot → InSequence snapshot.soe := by
  intro h
  have horder := h 1 1 2 threeSoePuts ⟨true, true, true⟩ 0
    ⟨3, [], [], [⟨3, false, 0, 0, 3, 3⟩, ⟨2, true, 0, 0, 2, 2⟩]⟩ rfl
  revert horder
  decide

/-! ## What becomes of the array -/

/-- The frames of `send_active_upload` have the events in the order of the array. -/
theorem soe_frames_keep_order (soe : List SoeUploadEntry) (outcome : Nat → FrameOutcome) :
    ((uploadLoop .soe sendSoeFrame outcome 0 (soeBatches soe)).flatMap
      AcceptedFrame.entries).Sublist (soe.map .soe) := by
  have hsub := entries_uploadLoop_sublist .soe sendSoeFrame outcome 0 (soeBatches soe)
  rwa [soeBatches, flatten_batches] at hsub

/-- The report scheduler appends the events to the history in the order of the array. -/
theorem soe_handOver_keeps_order (s : SoeState) (snapshot : ActiveUploadSnapshot)
    (soe : List SoeUploadEntry) (hpc : s.scheduler = .append snapshot soe)
    (alloc : SnapshotAlloc) :
    (Run.exec soeStep s (List.replicate soe.length (.scheduler alloc))).appended =
      s.appended ++ soe := by
  induction soe generalizing s with
  | nil => exact (List.append_nil _).symm
  | cons e soe ih =>
    have hstep : soeStep s (.scheduler alloc) =
        { s.append .scheduler e.ioa e.value e.quality e.timestampMs (some e) with
          scheduler := .append snapshot soe } := by
      rw [soeStep, schedulerNext, hpc]
    rw [List.length_cons, List.replicate_succ, Run.exec_cons, hstep, ih _ rfl]
    show (s.trace.appends ++ [_]).filterMap SoeAppend.event ++ soe = s.appended ++ (e :: soe)
    rw [List.filterMap_append, List.append_assoc]
    rfl

end Iec104Slave
