import Iec104Slave.DiagServer
import Iec104Slave.Lib.Printf

/-!
# The listings of the diagnostic server (`handle_soe`, `handle_active_upload`)

A listing is printed piece by piece into the response buffer of 4096 bytes: a header, up to 16
records and the end. `offset` adds up the lengths that `snprintf` returns, which are the
lengths of the whole texts. The loop tests it before a record, the last call does not, and the
size `response_size - offset` is unsigned. So all rests on the lengths of the texts: a record
has at most 99 bytes.

Results:
1. `printListing_complete`: a listing that fits is printed completely.
2. `diag_listings_complete`: a command that asks for a listing gets one, and the listings of every
   command fit.
-/

namespace Iec104Slave

open CString Printf

/-- `DIAG_RESPONSE_MAX`. -/
def diagResponseMax : Nat := 4096

/-! ## The texts -/

/-- A listing: the text of its first `snprintf`, and those of the loop. -/
structure DiagListing where
  header : List UInt8
  records : List (List UInt8)

/-- The separator of record `i`. -/
def recordSeparator (i : Nat) : List UInt8 :=
  if i = 0 then [] else ascii ","

def flagText (value : Bool) : List UInt8 :=
  if value then ascii "1" else ascii "0"

/-- The fields that the records of both listings start with. -/
def recordFields (sequence : Nat) (ioa : Int32) (value : Bool) (quality : UInt8) : List UInt8 :=
  ascii "\x7b\"seq\":" ++ decimalText (sequence % 2 ^ 64) ++ ascii ",\"ioa\":" ++
    intText ioa.toInt ++ ascii ",\"value\":" ++ flagText value ++ ascii ",\"quality\":" ++
    decimalText quality.toNat

def soeRecordText (i : Nat) (record : SoeRecord) : List UInt8 :=
  recordSeparator i ++ recordFields record.sequence record.ioa record.value record.quality ++
    ascii ",\"time\":" ++ decimalText record.timestampMs.toNat ++ ascii "\x7d"

def uploadEntryText (i : Nat) (entry : SoeUploadEntry) : List UInt8 :=
  recordSeparator i ++ recordFields entry.sequence entry.ioa entry.value entry.quality ++
    ascii "\x7d"

/-- The listing of a response, if it is one. -/
def diagListing : DiagResponse → Option DiagListing
  | .soeRecords count records => some {
      header := ascii "\x7b\"result\":\"ok\",\"count\":" ++ decimalText (count % 2 ^ 32) ++
        ascii ",\"records\":["
      records := records.mapIdx soeRecordText }
  | .uploadSoe version entries => some {
      header := ascii "\x7b\"result\":\"ok\",\"version\":" ++ decimalText (version % 2 ^ 64) ++
        ascii ",\"soe\":["
      records := entries.mapIdx uploadEntryText }
  | _ => none

/-- The whole text. -/
def DiagListing.text (listing : DiagListing) : List UInt8 :=
  listing.header ++ listing.records.flatten ++ ascii "]\x7d"

/-- `soe`, when it neither adds nor clears. -/
def IsSoeList (command : List UInt8) : Prop :=
  commandHasFlag command (ascii "add") = false ∧ commandHasFlag command (ascii "clear") = false

/-- `active-upload --type soe`, when it neither clears nor notifies. -/
def IsUploadList (command : List UInt8) : Prop :=
  commandHasFlag command (ascii "clear") = false ∧
    commandHasFlag command (ascii "notify") = false ∧
    commandHasFlag command (ascii "--type soe") = true

/-! ## Printing -/

/-- The buffer, `offset`, and the offsets at which `snprintf` has been called. -/
structure PrintState where
  buffer : List UInt8
  offset : UInt64
  calls : List UInt64

/-- `offset += (size_t)snprintf(response + offset, response_size - offset, …)`. -/
def PrintState.print (responseSize : UInt64) (s : PrintState) (text : List UInt8) :
    Option PrintState :=
  (snprintf s.buffer s.offset.toNat (responseSize - s.offset) text).map fun r =>
    { buffer := r.1
      offset := s.offset + UInt64.ofNat r.2
      calls := s.calls ++ [s.offset] }

/-- The loop over the records. -/
def PrintState.printRecords (responseSize : UInt64) :
    PrintState → List (List UInt8) → Option PrintState
  | s, [] => some s
  | s, text :: rest =>
    if s.offset < responseSize then
      (s.print responseSize text).bind fun s => s.printRecords responseSize rest
    else some s

def printListing (buffer : List UInt8) (listing : DiagListing) : Option PrintState := do
  let responseSize := UInt64.ofNat buffer.length
  let s ← PrintState.print responseSize ⟨buffer, 0, []⟩ listing.header
  let s ← s.printRecords responseSize listing.records
  s.print responseSize (ascii "]\x7d")

/-- The listing is printed into the buffer: no write goes past its end, every call starts
inside, and the response is the whole text. -/
def PrintsWhole (buffer : List UInt8) (listing : DiagListing) : Prop :=
  ∃ s, printListing buffer listing = some s ∧
    (∀ offset ∈ s.calls, offset.toNat < buffer.length) ∧ cString s.buffer = listing.text

namespace DiagListingLemmas

/-! ## A listing that fits -/

/-- What has been printed, into a buffer of `size` bytes. -/
structure Printed (size : Nat) (s : PrintState) (text : List UInt8) : Prop where
  length : s.buffer.length = size
  offset : s.offset.toNat = text.length
  text : text <+: s.buffer
  calls : ∀ offset ∈ s.calls, offset.toNat < size

variable {size : Nat} {s : PrintState} {before : List UInt8}

/-- One more piece, if there is room for it and its NUL. -/
theorem print_fits (h : Printed size s before) (hsize : size < 2 ^ 64) (text : List UInt8)
    (hroom : before.length + text.length < size) :
    ∃ s', s.print (UInt64.ofNat size) text = some s' ∧ Printed size s' (before ++ text) ∧
      before ++ text ++ [0] <+: s'.buffer := by
  have hsize' : (UInt64.ofNat size).toNat = size := UInt64.toNat_ofNat_of_lt' hsize
  have hle : s.offset ≤ UInt64.ofNat size := by
    rw [UInt64.le_iff_toNat_le, hsize', h.offset]
    omega
  have hrest : before.length + (UInt64.ofNat size - s.offset).toNat = s.buffer.length := by
    rw [UInt64.toNat_sub_of_le _ _ hle, hsize', h.offset, h.length]
    omega
  have hroom' : before.length + text.length < s.buffer.length := h.length.symm ▸ hroom
  obtain ⟨buffer', hprint, hprinted, hlength⟩ := snprintf_fits h.text hrest hroom'
  rw [← h.offset] at hprint
  refine ⟨_, by rw [PrintState.print, hprint]; rfl, ⟨?_, ?_, ?_, ?_⟩, hprinted⟩
  · exact hlength.trans h.length
  · have htext : (UInt64.ofNat text.length).toNat = text.length :=
      UInt64.toNat_ofNat_of_lt' (Nat.lt_trans (by omega) hsize)
    rw [UInt64.toNat_add, htext, h.offset, List.length_append]
    exact Nat.mod_eq_of_lt (by omega)
  · exact (List.prefix_append _ _).trans hprinted
  · intro offset hoffset
    rcases List.mem_append.mp hoffset with hold | hnew
    · exact h.calls offset hold
    · rw [List.mem_singleton.mp hnew, h.offset]
      omega

theorem printRecords_fits (h : Printed size s before) (hsize : size < 2 ^ 64)
    (records : List (List UInt8)) (hroom : before.length + records.flatten.length < size) :
    ∃ s', s.printRecords (UInt64.ofNat size) records = some s' ∧
      Printed size s' (before ++ records.flatten) := by
  induction records generalizing s before with
  | nil =>
    rw [List.flatten_nil, List.append_nil]
    exact ⟨s, rfl, h⟩
  | cons text rest ih =>
    rw [List.flatten_cons, List.length_append] at hroom
    have hlt : s.offset < UInt64.ofNat size := by
      rw [UInt64.lt_iff_toNat_lt, UInt64.toNat_ofNat_of_lt' hsize, h.offset]
      omega
    obtain ⟨s', hprint, hprinted, _⟩ := print_fits h hsize text (by omega)
    obtain ⟨s'', hrest, hall⟩ := ih hprinted (by rw [List.length_append]; omega)
    refine ⟨s'', ?_, ?_⟩
    · rw [PrintState.printRecords, if_pos hlt, hprint]
      exact hrest
    · rw [List.flatten_cons, ← List.append_assoc]
      exact hall

/-- A listing that fits is printed completely. -/
theorem printListing_complete {buffer : List UInt8} {listing : DiagListing}
    (hsize : buffer.length < 2 ^ 64) (hroom : listing.text.length < buffer.length)
    (hzero : (0 : UInt8) ∉ listing.text) : PrintsWhole buffer listing := by
  have hstart : Printed buffer.length ⟨buffer, 0, []⟩ [] :=
    ⟨rfl, rfl, List.nil_prefix, fun _ h => absurd h List.not_mem_nil⟩
  rw [DiagListing.text, List.length_append, List.length_append] at hroom
  obtain ⟨s₁, h₁, hheader, _⟩ := print_fits hstart hsize listing.header
    (by rw [List.length_nil]; omega)
  obtain ⟨s₂, h₂, hrecords⟩ := printRecords_fits hheader hsize listing.records
    (by rw [List.length_append, List.length_nil]; omega)
  obtain ⟨s₃, h₃, hend, hnul⟩ := print_fits hrecords hsize (ascii "]\x7d")
    (by rw [List.length_append, List.length_append, List.length_nil]; omega)
  refine ⟨s₃, ?_, hend.calls, cString_of_prefixed hnul hzero⟩
  rw [printListing, h₁, Option.bind_eq_bind, Option.bind_some, h₂, Option.bind_some, h₃]

/-! ## The lengths of the texts -/

theorem length_flatten_le {n : Nat} {l : List (List UInt8)} (h : ∀ text ∈ l, text.length ≤ n) :
    l.flatten.length ≤ l.length * n := by
  induction l with
  | nil => exact Nat.zero_le _
  | cons text l ih =>
    have htext := h text List.mem_cons_self
    have hrest := ih fun t ht => h t (List.mem_cons_of_mem _ ht)
    rw [List.flatten_cons, List.length_append, List.length_cons, Nat.add_one_mul, Nat.add_comm]
    exact Nat.add_le_add hrest htext

theorem length_separator_le (i : Nat) : (recordSeparator i).length ≤ 1 := by
  unfold recordSeparator
  split <;> decide

theorem length_flagText (value : Bool) : (flagText value).length = 1 := by
  cases value <;> rfl

/-- At most 20 digits, a sign and 10 digits, one digit and three digits. -/
theorem length_recordFields_le (sequence : Nat) (ioa : Int32) (value : Bool) (quality : UInt8) :
    (recordFields sequence ioa value quality).length ≤ 69 := by
  have hsequence : (decimalText (sequence % 2 ^ 64)).length ≤ 20 :=
    length_decimalText_le (by decide) (by omega)
  have hioa : (intText ioa.toInt).length ≤ 10 + 1 := by
    have hmin := Int32.le_toInt ioa
    have hmax := Int32.toInt_lt ioa
    exact length_intText_le (by decide) (by omega)
  have hquality : (decimalText quality.toNat).length ≤ 3 :=
    length_decimalText_le (by decide) (Nat.lt_of_lt_of_le quality.toNat_lt (by decide))
  have htexts : (ascii "\x7b\"seq\":").length = 7 ∧ (ascii ",\"ioa\":").length = 7 ∧
      (ascii ",\"value\":").length = 9 ∧ (ascii ",\"quality\":").length = 11 := by decide
  simp only [recordFields, List.length_append, htexts, length_flagText]
  omega

theorem length_soeRecordText_le (i : Nat) (record : SoeRecord) :
    (soeRecordText i record).length ≤ 99 := by
  have hseparator := length_separator_le i
  have hfields := length_recordFields_le record.sequence record.ioa record.value record.quality
  have htime : (decimalText record.timestampMs.toNat).length ≤ 20 :=
    length_decimalText_le (by decide) (Nat.lt_of_lt_of_le record.timestampMs.toNat_lt (by decide))
  have htexts : (ascii ",\"time\":").length = 8 ∧ (ascii "\x7d").length = 1 := by decide
  simp only [soeRecordText, List.length_append, htexts]
  omega

theorem length_uploadEntryText_le (i : Nat) (entry : SoeUploadEntry) :
    (uploadEntryText i entry).length ≤ 99 := by
  have hseparator := length_separator_le i
  have hfields := length_recordFields_le entry.sequence entry.ioa entry.value entry.quality
  have htexts : (ascii "\x7d").length = 1 := by decide
  simp only [uploadEntryText, List.length_append, htexts]
  omega

/-- A header of at most 53 bytes and up to 16 records. -/
theorem text_fits {listing : DiagListing} (hheader : listing.header.length ≤ 53)
    (hcount : listing.records.length ≤ 16) (hrecords : ∀ text ∈ listing.records, text.length ≤ 99) :
    listing.text.length < diagResponseMax := by
  have hflat := length_flatten_le hrecords
  have hend : (ascii "]\x7d").length = 2 := by decide
  rw [DiagListing.text, List.length_append, List.length_append, hend]
  calc listing.header.length + listing.records.flatten.length + 2
      ≤ 53 + 16 * 99 + 2 := by
        exact Nat.add_le_add_right
          (Nat.add_le_add hheader (hflat.trans (Nat.mul_le_mul_right 99 hcount))) 2
    _ < diagResponseMax := by decide

/-! ## No NUL in a text -/

theorem zero_not_mem_fields (sequence : Nat) (ioa : Int32) (value : Bool) (quality : UInt8) :
    (0 : UInt8) ∉ recordFields sequence ioa value quality := by
  have htexts : (0 : UInt8) ∉ ascii "\x7b\"seq\":" ∧ (0 : UInt8) ∉ ascii ",\"ioa\":" ∧
      (0 : UInt8) ∉ ascii ",\"value\":" ∧ (0 : UInt8) ∉ ascii ",\"quality\":" := by decide
  have hflag : (0 : UInt8) ∉ flagText value := by cases value <;> decide
  simp only [recordFields, List.mem_append, htexts, hflag, zero_not_mem_decimalText,
    zero_not_mem_intText, or_self, not_false_eq_true]

theorem zero_not_mem_separator (i : Nat) : (0 : UInt8) ∉ recordSeparator i := by
  unfold recordSeparator
  split <;> decide

theorem zero_not_mem_soeRecordText (i : Nat) (record : SoeRecord) :
    (0 : UInt8) ∉ soeRecordText i record := by
  have htexts : (0 : UInt8) ∉ ascii ",\"time\":" ∧ (0 : UInt8) ∉ ascii "\x7d" := by decide
  simp only [soeRecordText, List.mem_append, htexts, zero_not_mem_separator, zero_not_mem_fields,
    zero_not_mem_decimalText, or_self, not_false_eq_true]

theorem zero_not_mem_uploadEntryText (i : Nat) (entry : SoeUploadEntry) :
    (0 : UInt8) ∉ uploadEntryText i entry := by
  have htexts : (0 : UInt8) ∉ ascii "\x7d" := by decide
  simp only [uploadEntryText, List.mem_append, htexts, zero_not_mem_separator,
    zero_not_mem_fields, or_self, not_false_eq_true]

theorem zero_not_mem_text {listing : DiagListing} (hheader : (0 : UInt8) ∉ listing.header)
    (hrecords : ∀ text ∈ listing.records, (0 : UInt8) ∉ text) : (0 : UInt8) ∉ listing.text := by
  have hend : (0 : UInt8) ∉ ascii "]\x7d" := by decide
  rw [DiagListing.text, List.mem_append, List.mem_append, List.mem_flatten]
  rintro ((h | ⟨text, htext, h⟩) | h)
  · exact hheader h
  · exact hrecords text htext h
  · exact hend h

/-! ## The listings of the commands -/

/-- A listing whose pieces are short is printed completely into a response. -/
theorem printsWhole_of_pieces {buffer : List UInt8} {listing : DiagListing}
    (hbuffer : buffer.length = diagResponseMax)
    (hheader : listing.header.length ≤ 53 ∧ (0 : UInt8) ∉ listing.header)
    (hcount : listing.records.length ≤ 16)
    (hrecords : ∀ text ∈ listing.records, text.length ≤ 99 ∧ (0 : UInt8) ∉ text) :
    PrintsWhole buffer listing := by
  refine printListing_complete ?_ ?_ ?_
  · rw [hbuffer]
    decide
  · rw [hbuffer]
    exact text_fits hheader.1 hcount fun text htext => (hrecords text htext).1
  · exact zero_not_mem_text hheader.2 fun text htext => (hrecords text htext).2

/-- Both listings have a number in their header. -/
theorem numbered_printed {α : Type} {buffer before after : List UInt8} {number n : Nat}
    {text : Nat → α → List UInt8} {records : List α} (hbuffer : buffer.length = diagResponseMax)
    (hdigits : 0 < n ∧ number < 10 ^ n)
    (hlength : before.length + n + after.length ≤ 53)
    (hzero : (0 : UInt8) ∉ before ∧ (0 : UInt8) ∉ after) (hcount : records.length ≤ 16)
    (htext : ∀ i record, (text i record).length ≤ 99 ∧ (0 : UInt8) ∉ text i record) :
    PrintsWhole buffer ⟨before ++ decimalText number ++ after, records.mapIdx text⟩ := by
  refine printsWhole_of_pieces hbuffer ⟨?_, ?_⟩ (List.length_mapIdx.trans_le hcount) ?_
  · have hnumber := length_decimalText_le hdigits.1 hdigits.2
    rw [List.length_append, List.length_append]
    omega
  · simp only [List.mem_append, hzero, zero_not_mem_decimalText, or_self, not_false_eq_true]
  · intro t ht
    obtain ⟨i, hi, rfl⟩ := List.mem_mapIdx.mp ht
    exact htext _ _

/-- A query copies at most as many records as there is room for. -/
theorem length_soeQueryLoop_le {history : SoeHistory} {beginMs endMs : UInt64}
    {maxRecords start : Nat} {is : List Nat} {copied : List SoeRecord}
    (h : copied.length ≤ maxRecords) :
    (soeQueryLoop history beginMs endMs maxRecords start is copied).length ≤ maxRecords := by
  induction is generalizing copied with
  | nil => exact h
  | cons i rest ih =>
    rw [soeQueryLoop]
    split
    · next hroom =>
      refine ih ?_
      have hfound : ∀ record : Option SoeRecord,
          (record.toList.filter fun r => soeInInterval beginMs endMs r.timestampMs).length ≤ 1 := by
        intro record
        refine (List.length_filter_le _ _).trans ?_
        cases record with
        | none => exact Nat.zero_le _
        | some r => exact le_rfl
      rw [List.length_append]
      exact (Nat.add_le_add_left (hfound _) _).trans hroom
    · exact h

theorem length_soeHistoryQuery_le (history : SoeHistory) (beginMs endMs : UInt64)
    (maxRecords : Nat) :
    (soeHistoryQuery history beginMs endMs maxRecords).length ≤ maxRecords := by
  unfold soeHistoryQuery
  split
  · exact Nat.zero_le _
  · exact length_soeQueryLoop_le (Nat.zero_le _)

theorem diagListing_soeAdd (x : DiagEnv) (diag : DiagServer) (command : List UInt8) :
    diagListing (soeAdd x diag command).2.1 = none := by
  unfold soeAdd
  repeat' split
  all_goals rfl

theorem handleSoe_lists (x : DiagEnv) (diag : DiagServer) (command : List UInt8) :
    (diagListing (handleSoe x diag command).2.1).isSome ↔ IsSoeList command := by
  unfold handleSoe
  split
  · next hadd => simp [diagListing_soeAdd, IsSoeList, hadd]
  · next hadd =>
    split
    · next hclear =>
      split <;> simp [diagListing, IsSoeList, hclear]
    · next hclear => simp [diagListing, IsSoeList, hadd, hclear]

theorem handleSoe_printed {buffer : List UInt8} (hbuffer : buffer.length = diagResponseMax)
    (x : DiagEnv) (diag : DiagServer) (command : List UInt8) {listing : DiagListing}
    (h : diagListing (handleSoe x diag command).2.1 = some listing) :
    PrintsWhole buffer listing := by
  unfold handleSoe at h
  split at h
  · rw [diagListing_soeAdd] at h
    cases h
  · split at h
    · split at h <;> cases h
    · cases h
      refine numbered_printed (n := 10) hbuffer ⟨by decide, by omega⟩ (by decide)
        (by decide) (length_soeHistoryQuery_le _ 0 0 16) fun i record => ?_
      exact ⟨length_soeRecordText_le i record, zero_not_mem_soeRecordText i record⟩

theorem handleActiveUpload_lists (x : DiagEnv) (diag : DiagServer) (command : List UInt8) :
    (diagListing (handleActiveUpload x diag command).2.1).isSome ↔
      IsUploadList command ∧ (activeUploadSnapshotCreate x.alloc diag.activeUpload 0).isSome := by
  unfold handleActiveUpload
  split
  · next hclear => split <;> simp [diagListing, IsUploadList, hclear]
  · next hclear =>
    split
    · next hnotify => simp [diagListing, IsUploadList, hnotify]
    · next hnotify =>
      split
      · next hnone => simp [diagListing, hnone]
      · next snapshot hsome =>
        split
        · next htype => simp [diagListing, IsUploadList, hclear, hnotify, htype, hsome]
        · next htype => simp [diagListing, IsUploadList, htype]

theorem handleActiveUpload_printed {buffer : List UInt8}
    (hbuffer : buffer.length = diagResponseMax) (x : DiagEnv) (diag : DiagServer)
    (command : List UInt8) {listing : DiagListing}
    (h : diagListing (handleActiveUpload x diag command).2.1 = some listing) :
    PrintsWhole buffer listing := by
  unfold handleActiveUpload at h
  split at h
  · split at h <;> cases h
  · split at h
    · cases h
    · split at h
      · cases h
      · split at h
        · cases h
          refine numbered_printed (n := 20) hbuffer ⟨by decide, by omega⟩ (by decide)
            (by decide) (List.length_take_le 16 _) fun i entry => ?_
          exact ⟨length_uploadEntryText_le i entry, zero_not_mem_uploadEntryText i entry⟩
        · cases h

end DiagListingLemmas

open DiagListingLemmas

/-- For every server and every command: `handle_soe` answers with a listing exactly if the command
asks for one, and so does `handle_active_upload` if the memory for its snapshot is there; a listing
is printed completely into a response buffer, whatever is in it. -/
theorem diag_listings_complete (x : DiagEnv) (diag : DiagServer) (command buffer : List UInt8)
    (hbuffer : buffer.length = diagResponseMax) :
    ((diagListing (handleSoe x diag command).2.1).isSome ↔ IsSoeList command) ∧
    (∀ listing, diagListing (handleSoe x diag command).2.1 = some listing →
      PrintsWhole buffer listing) ∧
    ((diagListing (handleActiveUpload x diag command).2.1).isSome ↔
      IsUploadList command ∧ (activeUploadSnapshotCreate x.alloc diag.activeUpload 0).isSome) ∧
    (∀ listing, diagListing (handleActiveUpload x diag command).2.1 = some listing →
      PrintsWhole buffer listing) :=
  ⟨handleSoe_lists x diag command, fun _ => handleSoe_printed hbuffer x diag command,
    handleActiveUpload_lists x diag command,
    fun _ => handleActiveUpload_printed hbuffer x diag command⟩

/-- A server with one event in the history and in the upload area. -/
def oneEventServer : DiagServer :=
  { demoReadOnly with
    soeHistory := soeHistoryAppend soeHistoryInit 1 true 0 10
    activeUpload :=
      { demoReadOnly.activeUpload with
        yx := [], yc := [], soe := [some ⟨1, true, 0, 10, 1, 1⟩], version := 1 } }

def listEnv : DiagEnv := ⟨1000, fun _ => 0, ⟨true, true, true⟩⟩

/-- `soe list` and `active-upload list --type soe`. -/
theorem oneEvent_listings_complete :
    (∃ listing, diagListing (handleSoe listEnv oneEventServer (ascii "soe list")).2.1 =
      some listing ∧ PrintsWhole (List.replicate diagResponseMax 0) listing) ∧
    (∃ listing, diagListing (handleActiveUpload listEnv oneEventServer
        (ascii "active-upload list --type soe")).2.1 = some listing ∧
      PrintsWhole (List.replicate diagResponseMax 0) listing) := by
  have hcomplete (command : List UInt8) := diag_listings_complete listEnv oneEventServer command
    (List.replicate diagResponseMax 0) List.length_replicate
  refine ⟨⟨_, rfl, ?_⟩, ⟨_, rfl, ?_⟩⟩
  · exact (hcomplete (ascii "soe list")).2.1 _ rfl
  · exact (hcomplete (ascii "active-upload list --type soe")).2.2.2 _ rfl

end Iec104Slave
