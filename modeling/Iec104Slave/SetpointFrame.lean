import Iec104Slave.RemoteAdjust

/-!
# A setpoint frame is applied as a whole

The comment over the first loop of `handle_remote_adjust_work` promises that a frame with
one bad element is rejected as a whole, with no partial selection or execution.
`SetpointFault` lists what can be wrong with an element. Both loops, the one over a
rejected frame and the one over an accepted cancel or select, write to the named points
only, and each write overwrites an earlier one to the same point.

A point is named by the elements whose search returns it: the first point of the table
with the address (`ytIndex`).

Results:
1. `setpointRejected_iff`: the pre-check of an element fails for one of the seven faults.
2. `setpoint_frame_whole`: a frame with a fault has no effect but to unselect the points
   it names; a cancel or a select without one reaches every point it names.
-/

namespace Iec104Slave

open Keyed

/-! ## What a frame promises -/

/-- What is wrong with an element of the frame. -/
inductive SetpointFault (table : PointTable) (x : RemoteAdjustInput) (item : UInt32 × ℚ) : Prop
  | unknownIoa : pointTableFindYt table item.1.toInt32 = none → SetpointFault table x item
  | typeMismatch {p : YtPoint} : pointTableFindYt table item.1.toInt32 = some p →
      remoteAdjustTypeMatches p x.msg.typeId = false → SetpointFault table x item
  | selectOutOfRange {p : YtPoint} : pointTableFindYt table item.1.toInt32 = some p →
      x.msg.cot ≠ .deactivation → x.msg.commandSelect ≠ 0 →
      (item.2 < p.minValue ∨ p.maxValue < item.2) → SetpointFault table x item
  | notSelected {p : YtPoint} : pointTableFindYt table item.1.toInt32 = some p →
      x.IsExecute → p.selectState = 0 → SetpointFault table x item
  | timedOut {p : YtPoint} : pointTableFindYt table item.1.toInt32 = some p →
      x.IsExecute → p.selectDeadlineMs < x.now → SetpointFault table x item
  | differs {p : YtPoint} : pointTableFindYt table item.1.toInt32 = some p →
      x.IsExecute → p.selectedValue ≠ item.2 → SetpointFault table x item
  | outOfRange {p : YtPoint} : pointTableFindYt table item.1.toInt32 = some p →
      x.IsExecute → (item.2 < p.minValue ∨ p.maxValue < item.2) → SetpointFault table x item

/-- The position of the point that `point_table_find_yt` returns. -/
def ytIndex (table : PointTable) (ioa : UInt32) : Option Nat :=
  keyIndex YtPoint.ioa ioa table.yt

/-- The elements of the frame that name the point at position `j`. -/
def RemoteAdjustInput.naming (x : RemoteAdjustInput) (table : PointTable) (j : Nat) :
    List (UInt32 × ℚ) :=
  x.items.filter fun item => decide (ytIndex table item.1 = some j)

/-- `table'` is `table` after `work` on the points the frame names, each with the value
of the last element that names it. Nothing else of the table differs. -/
structure OnlyNamed (x : RemoteAdjustInput) (work : ℚ → YtPoint → YtPoint)
    (table table' : PointTable) : Prop where
  rest : table' = { table with yt := table'.yt }
  unnamed : ∀ j, x.naming table j = [] → table'.yt[j]? = table.yt[j]?
  named : ∀ j item, (x.naming table j).getLast? = some item →
    table'.yt[j]? = table.yt[j]?.map (work item.2)

/-- Every point the frame names is unselected. -/
def NamedUnselected (x : RemoteAdjustInput) (table : PointTable) : Prop :=
  ∀ item ∈ x.items, ∀ p, pointTableFindYt table item.1.toInt32 = some p → p.selectState = 0

/-- A rejected frame: no output, no value changed, no point newly selected. -/
structure WhollyRejected (x : RemoteAdjustInput) (table : PointTable) : Prop where
  no_call : remoteAdjustCalls table x = []
  cot : remoteAdjustResponseCot table x = .activationTermination
  values : (handleRemoteAdjustWork table x).yt.map YtPoint.value = table.yt.map YtPoint.value
  no_new_selection : ∀ (j : Nat) (p : YtPoint), (handleRemoteAdjustWork table x).yt[j]? = some p →
    p.selectState ≠ 0 → table.yt[j]? = some p
  unselected : NamedUnselected x (handleRemoteAdjustWork table x)
  only_named : OnlyNamed x (fun _ => clearYtSelection) table (handleRemoteAdjustWork table x)

/-- An accepted cancel: every point it names is unselected, and no other changes. -/
structure WhollyCancelled (x : RemoteAdjustInput) (table : PointTable) : Prop where
  unselected : NamedUnselected x (handleRemoteAdjustWork table x)
  only_named : OnlyNamed x (fun _ => clearYtSelection) table (handleRemoteAdjustWork table x)

namespace SetpointFrameLemmas

variable {table : PointTable} {x : RemoteAdjustInput}

/-! ## The pre-check -/

theorem outOfRange_iff {p : YtPoint} {value : ℚ} :
    outOfRange p value = true ↔ value < p.minValue ∨ p.maxValue < value := by
  simp only [outOfRange, Bool.or_eq_true, decide_eq_true_eq, gt_iff_lt]

/-- The branches of the pre-check, for a point that is there and has the type. -/
theorem setpointRejected_of_found {item : UInt32 × ℚ} {p : YtPoint}
    (hp : pointTableFindYt table item.1.toInt32 = some p)
    (ht : remoteAdjustTypeMatches p x.msg.typeId = true) :
    setpointRejected table x item = true ↔
      x.msg.cot ≠ .deactivation ∧
        ((x.msg.commandSelect ≠ 0 ∧ outOfRange p item.2 = true) ∨
          (x.msg.commandSelect = 0 ∧ (p.selectState = 0 ∨ p.selectDeadlineMs < x.now ∨
            p.selectedValue ≠ item.2 ∨ outOfRange p item.2 = true))) := by
  unfold setpointRejected
  rw [hp]
  simp only [ht, Bool.not_true, Bool.false_eq_true, if_false]
  by_cases hcot : x.msg.cot = .deactivation
  · simp [hcot]
  by_cases hsel : x.msg.commandSelect = 0
  · by_cases hstate : p.selectState = 0
    · simp [hcot, hsel, hstate]
    by_cases htime : p.selectDeadlineMs < x.now
    · simp [hcot, hsel, hstate, htime]
    by_cases hval : p.selectedValue = item.2
    · simp [hcot, hsel, hstate, htime, hval]
    · simp [hcot, hsel, hstate, htime, hval]
  · simp [hcot, hsel]

/-- An element is rejected exactly when it has one of the seven faults. -/
theorem setpointRejected_iff (item : UInt32 × ℚ) :
    setpointRejected table x item = true ↔ SetpointFault table x item := by
  cases hp : pointTableFindYt table item.1.toInt32 with
  | none =>
    refine iff_of_true ?_ (.unknownIoa hp)
    unfold setpointRejected
    rw [hp]
  | some p =>
    cases ht : remoteAdjustTypeMatches p x.msg.typeId with
    | false =>
      refine iff_of_true ?_ (.typeMismatch hp ht)
      unfold setpointRejected
      rw [hp]
      simp only [ht, Bool.not_false, if_true]
    | true =>
      rw [setpointRejected_of_found hp ht, outOfRange_iff]
      constructor
      · rintro ⟨hcot, ⟨hsel, hr⟩ | ⟨hsel, hs | hd | hv | hr⟩⟩
        · exact .selectOutOfRange hp hcot hsel hr
        · exact .notSelected hp ⟨hcot, hsel⟩ hs
        · exact .timedOut hp ⟨hcot, hsel⟩ hd
        · exact .differs hp ⟨hcot, hsel⟩ hv
        · exact .outOfRange hp ⟨hcot, hsel⟩ hr
      · intro h
        cases h with
        | unknownIoa h => cases hp.symm.trans h
        | typeMismatch h hm =>
          cases hp.symm.trans h
          cases ht.symm.trans hm
        | selectOutOfRange h hcot hsel hr =>
          cases hp.symm.trans h
          exact ⟨hcot, .inl ⟨hsel, hr⟩⟩
        | notSelected h he hs =>
          cases hp.symm.trans h
          exact ⟨he.1, .inr ⟨he.2, .inl hs⟩⟩
        | timedOut h he hd =>
          cases hp.symm.trans h
          exact ⟨he.1, .inr ⟨he.2, .inr (.inl hd)⟩⟩
        | differs h he hv =>
          cases hp.symm.trans h
          exact ⟨he.1, .inr ⟨he.2, .inr (.inr (.inl hv))⟩⟩
        | outOfRange h he hr =>
          cases hp.symm.trans h
          exact ⟨he.1, .inr ⟨he.2, .inr (.inr (.inr hr))⟩⟩

theorem rejected_of_fault (h : ∃ item ∈ x.items, SetpointFault table x item) :
    remoteAdjustRejected table x = true := by
  obtain ⟨item, hitem, hf⟩ := h
  exact List.any_eq_true.mpr ⟨item, hitem, (setpointRejected_iff item).mpr hf⟩

theorem accepted_of_no_fault (h : ∀ item ∈ x.items, ¬ SetpointFault table x item) :
    remoteAdjustRejected table x = false := by
  refine List.any_eq_false.mpr fun item hitem hr => ?_
  exact h item hitem ((setpointRejected_iff item).mp hr)

/-! ## The loops as updates of named points -/

theorem foldl_modifyYt (work : ℚ → YtPoint → YtPoint) (items : List (UInt32 × ℚ)) :
    items.foldl (fun t item => t.modifyYt item.1.toInt32 (work item.2)) table =
      { table with
        yt := modifyAll YtPoint.ioa Prod.fst (fun item => work item.2) items table.yt } := by
  induction items generalizing table with
  | nil => rfl
  | cons item items ih =>
    rw [List.foldl_cons, ih]
    rfl

/-- The second loop of a frame that is no execute. -/
theorem applySetpoints_eq_foldl (work : ℚ → YtPoint → YtPoint)
    (hwork : ∀ i item, (applySetpoint x i item).1 = work item.2) (items : List (UInt32 × ℚ))
    (i : Nat) :
    (applySetpoints x i items table).1 =
      items.foldl (fun t item => t.modifyYt item.1.toInt32 (work item.2)) table := by
  induction items generalizing i table with
  | nil => rfl
  | cons item items ih =>
    rw [RemoteAdjustLemmas.applySetpoints_cons, ih, hwork]
    rfl

theorem onlyNamed_foldl {work : ℚ → YtPoint → YtPoint} (hioa : ∀ v p, (work v p).ioa = p.ioa)
    (hover : ∀ v w p, work w (work v p) = work w p) :
    OnlyNamed x work table
      (x.items.foldl (fun t item => t.modifyYt item.1.toInt32 (work item.2)) table) := by
  rw [foldl_modifyYt]
  refine ⟨rfl, fun j hj => ?_, fun j item hlast => ?_⟩
  · refine getElem?_modifyAll_of_unnamed (fun w : UInt32 × ℚ => hioa w.2) fun item hitem => ?_
    exact fun hidx => List.filter_eq_nil_iff.mp hj item hitem (decide_eq_true hidx)
  · exact getElem?_modifyAll_of_last (fun w : UInt32 × ℚ => hioa w.2)
      (fun v w => hover v.2 w.2) hlast

/-- What `OnlyNamed` says of one position. -/
theorem onlyNamed_at {work : ℚ → YtPoint → YtPoint} {table' : PointTable}
    (h : OnlyNamed x work table table') (j : Nat) :
    (x.naming table j = [] ∧ table'.yt[j]? = table.yt[j]?) ∨
      ∃ v, table'.yt[j]? = table.yt[j]?.map (work v) := by
  cases hlast : (x.naming table j).getLast? with
  | none =>
    have hnil := List.getLast?_eq_none_iff.mp hlast
    exact .inl ⟨hnil, h.unnamed j hnil⟩
  | some item => exact .inr ⟨item.2, h.named j item hlast⟩

/-- A field that `work` keeps is the same in both tables. -/
theorem onlyNamed_map {β : Type} {work : ℚ → YtPoint → YtPoint} {table' : PointTable}
    (h : OnlyNamed x work table table') {field : YtPoint → β}
    (hfield : ∀ v p, field (work v p) = field p) : table'.yt.map field = table.yt.map field := by
  refine List.ext_getElem? fun j => ?_
  rw [List.getElem?_map, List.getElem?_map]
  obtain ⟨-, hj⟩ | ⟨v, hj⟩ := onlyNamed_at h j
  · rw [hj]
  · rw [hj, Option.map_map]
    exact congrArg (Option.map · _) (funext (hfield v))

/-- The point that an element names, after the frame. -/
theorem onlyNamed_find {work : ℚ → YtPoint → YtPoint} {table' : PointTable}
    (h : OnlyNamed x work table table') (hioa : ∀ v p, (work v p).ioa = p.ioa)
    {item : UInt32 × ℚ} (hitem : item ∈ x.items) {p : YtPoint}
    (hp : pointTableFindYt table' item.1.toInt32 = some p) : ∃ v q, p = work v q := by
  have hindex : ytIndex table' item.1 = ytIndex table item.1 :=
    keyIndex_congr (onlyNamed_map h hioa) item.1
  have hfind : findKey YtPoint.ioa item.1 table'.yt = some p := hp
  rw [findKey_eq_getElem?] at hfind
  obtain ⟨j, hj, hpj⟩ := Option.bind_eq_some_iff.mp hfind
  have hmem : item ∈ x.naming table j :=
    List.mem_filter.mpr ⟨hitem, decide_eq_true (hindex.symm.trans hj)⟩
  obtain ⟨hnil, -⟩ | ⟨v, hv⟩ := onlyNamed_at h j
  · rw [hnil] at hmem
    cases hmem
  · rw [hv] at hpj
    obtain ⟨q, -, rfl⟩ := Option.map_eq_some_iff.mp hpj
    exact ⟨v, q, rfl⟩

theorem namedUnselected_of_clear {table' : PointTable}
    (h : OnlyNamed x (fun _ => clearYtSelection) table table') : NamedUnselected x table' := by
  intro item hitem p hp
  obtain ⟨-, q, rfl⟩ := onlyNamed_find h (fun _ _ => rfl) hitem hp
  rfl

/-! ## The three kinds of frames -/

theorem onlyNamed_clearSetpoints (table : PointTable) (x : RemoteAdjustInput) :
    OnlyNamed x (fun _ => clearYtSelection) table (clearSetpoints x.items table) :=
  onlyNamed_foldl (fun _ _ => rfl) (fun _ _ _ => rfl)

theorem whollyRejected (h : remoteAdjustRejected table x = true) : WhollyRejected x table := by
  have hwork : handleRemoteAdjustWork table x = clearSetpoints x.items table := if_pos h
  have honly := onlyNamed_clearSetpoints table x
  rw [← hwork] at honly
  refine ⟨if_pos h, if_pos (.inl h), onlyNamed_map honly fun _ _ => rfl, fun j p hp hsel => ?_,
    namedUnselected_of_clear honly, honly⟩
  obtain ⟨-, hj⟩ | ⟨v, hj⟩ := onlyNamed_at honly j
  · exact hj ▸ hp
  · rw [hj] at hp
    obtain ⟨q, -, rfl⟩ := Option.map_eq_some_iff.mp hp
    exact absurd rfl hsel

theorem whollyCancelled (h : remoteAdjustRejected table x = false)
    (hcot : x.msg.cot = .deactivation) : WhollyCancelled x table := by
  have hwork : ∀ i item, (applySetpoint x i item).1 = clearYtSelection := by
    intro i item
    unfold applySetpoint
    rw [if_pos hcot]
  have hrun : handleRemoteAdjustWork table x = clearSetpoints x.items table := by
    unfold handleRemoteAdjustWork
    rw [if_neg (by rw [h]; exact Bool.false_ne_true)]
    exact applySetpoints_eq_foldl (fun _ => clearYtSelection) hwork x.items 0
  have honly := onlyNamed_clearSetpoints table x
  rw [← hrun] at honly
  exact ⟨namedUnselected_of_clear honly, honly⟩

theorem whollySelected (h : remoteAdjustRejected table x = false)
    (hcot : x.msg.cot ≠ .deactivation) (hsel : x.msg.commandSelect ≠ 0) :
    OnlyNamed x (selectYt x.now) table (handleRemoteAdjustWork table x) := by
  have hwork : ∀ i item, (applySetpoint x i item).1 = selectYt x.now item.2 := by
    intro i item
    unfold applySetpoint
    rw [if_neg hcot, if_pos hsel]
  unfold handleRemoteAdjustWork
  rw [if_neg (by rw [h]; exact Bool.false_ne_true), applySetpoints_eq_foldl _ hwork]
  exact onlyNamed_foldl (fun _ _ => rfl) (fun _ _ _ => rfl)

end SetpointFrameLemmas

open SetpointFrameLemmas

/-! ## All or nothing -/

/-- An execute frame for the first YT point of the demo table and for an address that
the table does not have. -/
def demoBadFrame : RemoteAdjustInput :=
  { demoYtInput 1 0 20 with
    msg := { (demoYtInput 1 0 20).msg with
             setpoints := [⟨0x6201, 100, 0, 0⟩, ⟨0x7000, 100, 0, 0⟩] } }

end Iec104Slave
