/-
# Verification of the audit chain

`store_audit_verify` walks the audit table from its first row and recomputes every MAC.
This file embeds it over rows as SQLite may hold them: every column but the key holds a
value of any storage class, and text may contain NUL bytes. What a MAC covers is less
than what a column holds. Lengths of text are taken with `strlen`, and a value of another
class than the declared one is converted when it is read, so two tables that verify and
end in the same MAC agree in everything but that.
-/

import MldsaAuth.Authd.Store.Specs
import MldsaAuth.Foundation.Chain

namespace MldsaAuth.Authd

open Foundation Crypto

/-- The columns of an audit row as SQLite holds them. -/
structure AuditColumns where
  seq : ℤ
  at_ : ColumnValue
  event : ColumnValue
  userId : ColumnValue
  handle : ColumnValue
  detail : ColumnValue
  prevMac : ColumnValue
  mac : ColumnValue
deriving DecidableEq

/-- `sqlite3_bind_blob`, which binds a NULL pointer as NULL. -/
def blobColumn (bytes : Option Bytes) : ColumnValue := bytes.elim .null .blob

/-- A row as the daemon writes it. -/
def AuditRow.columns (row : AuditRow) : AuditColumns where
  seq := row.seq
  at_ := .integer (Int64.ofInt row.at_)
  event := .text row.event
  userId := blobColumn row.userId
  handle := blobColumn row.handle
  detail := .text row.detail
  prevMac := .blob row.prevMac
  mac := .blob row.mac

/-- What `strlen` leaves of a text. -/
def cString (text : Bytes) : Bytes := text.takeWhile fun byte => byte ≠ 0

/-- What `store_audit_verify` makes of a row. -/
@[ext]
structure AuditReading where
  seq : ℤ
  at_ : Int64
  event : Bytes
  userId : Bytes
  handle : Bytes
  detail : Bytes
  prevMac : Bytes
  mac : Bytes

/-- Read the columns of a row, the texts as C strings. -/
def AuditColumns.reading (reads : ColumnReads) (row : AuditColumns) : AuditReading where
  seq := row.seq
  at_ := reads.int64 row.at_
  event := cString (reads.text row.event)
  userId := reads.blob row.userId
  handle := reads.blob row.handle
  detail := cString (reads.text row.detail)
  prevMac := reads.blob row.prevMac
  mac := reads.blob row.mac

/-- The MAC input of a row. -/
def AuditReading.macInput (row : AuditReading) : Option Bytes :=
  auditMacInput row.prevMac row.seq row.at_.toInt row.event row.userId row.handle row.detail

/-- The checks of one round of `store_audit_verify`. -/
def AuditReading.verify (prims : DaemonPrimitives) (expect : ℤ × Bytes) (row : AuditReading) :
    Except StoreStatus (ℤ × Bytes) :=
  if row.seq ≠ expect.1 then .error .errCorrupt
  else if storeIdMax < row.userId.length ∨ storeIdMax < row.handle.length ∨
      storeAuditMacBytes < row.prevMac.length ∨ storeAuditMacBytes < row.mac.length then
    .error .errCorrupt
  else if row.prevMac.length ≠ storeAuditMacBytes ∨ row.mac.length ≠ storeAuditMacBytes then
    .error .errCorrupt
  else if row.prevMac ≠ expect.2 then .error .errCorrupt
  else
    match row.macInput with
    | none => .error .errCorrupt
    | some input =>
      if (prims.auditMac input).toList ≠ row.mac then .error .errCorrupt
      else .ok (expect.1 + 1, row.mac)

/-- One round of the loop of `store_audit_verify`, from the expected sequence number and the MAC
of the row before to those for the next one. -/
def auditVerifyRow (prims : DaemonPrimitives) (expect : ℤ × Bytes) (row : AuditColumns) :
    Except StoreStatus (ℤ × Bytes) :=
  (row.reading prims.columns).verify prims expect

/-- What the first row is checked against. -/
def auditStart : ℤ × Bytes := (1, (Blob.zero storeAuditMacBytes).toList)

variable (prims : DaemonPrimitives)

/-- The loop of `store_audit_verify` over the rows in the order of their numbers. -/
def auditVerify (rows : List AuditColumns) : Except StoreStatus Unit :=
  (Chain.follow (auditVerifyRow prims) auditStart rows).map fun _ => ⟨⟩

/-- `store_audit_verify`. -/
def storeAuditVerify : StoreProgram Unit := do
  let rows ← query fun tables => tables.audit.map AuditRow.columns
  match auditVerify prims rows with
  | .error status => .fail status
  | .ok _ => return ⟨⟩

/-- The MAC `store_audit_head_mac` reports. -/
def auditHeadMac (rows : List AuditColumns) : Bytes :=
  (rows.getLast?.map fun row => prims.columns.blob row.mac).getD
    (Blob.zero storeAuditMacBytes).toList

/-! ## What a row that verifies is known to be -/

/-- What the round that accepts a row has found. -/
structure AuditAccepted (expect : ℤ × Bytes) (row : AuditReading) (next : ℤ × Bytes) : Prop where
  seq : row.seq = expect.1
  prevMac : row.prevMac = expect.2
  prevLength : expect.2.length = storeAuditMacBytes
  mac : row.mac = next.2
  input : ∃ input, row.macInput = some input ∧ (prims.auditMac input).toList = next.2
  next : next.1 = expect.1 + 1

variable {prims : DaemonPrimitives} {next : ℤ × Bytes} {row : AuditColumns}

theorem auditAccepted_of_ok {expect : ℤ × Bytes}
    (hrow : auditVerifyRow prims expect row = .ok next) :
    AuditAccepted prims expect (row.reading prims.columns) next := by
  unfold auditVerifyRow at hrow
  generalize row.reading prims.columns = row at hrow
  unfold AuditReading.verify at hrow
  split at hrow
  · cases hrow
  split at hrow
  · cases hrow
  split at hrow
  · cases hrow
  split at hrow
  · cases hrow
  rename_i hseq _ hlengths hlink
  rw [not_or, not_not, not_not] at hlengths
  split at hrow
  · cases hrow
  rename_i input hinput
  split at hrow
  · cases hrow
  rename_i hmac
  obtain rfl := Except.ok.inj hrow
  have hlink := not_not.mp hlink
  exact ⟨not_not.mp hseq, hlink, hlink ▸ hlengths.1, rfl, ⟨input, hinput, not_not.mp hmac⟩, rfl⟩

/-! ## What a MAC covers -/

theorem be64_injective {first second : Int64}
    (hbytes : be64 first.toInt = be64 second.toInt) : first = second := by
  have hrange : ∀ value : ℤ, (value % 2 ^ 64).toNat < 256 ^ 8 := by
    intro value
    omega
  have hmod := beBytes_injective (hrange _) (hrange _) hbytes
  have hfirst := first.toInt_lt
  have hfirst' := first.le_toInt
  have hsecond := second.toInt_lt
  have hsecond' := second.le_toInt
  exact Int64.toInt_inj.mp (by omega)

theorem zero_not_mem_cString {text : Bytes} : 0 ∉ cString text := by
  intro hmem
  have hall : (cString text).all fun byte => byte ≠ 0 := List.all_takeWhile
  simpa using List.all_eq_true.mp hall 0 hmem

/-- Equal inputs have equal fields. -/
theorem auditMacInput_injective {prevMac prevMac' event event' userId userId' handle handle'
    detail detail' input : Bytes} {seq seq' : ℤ} {at_ at_' : Int64}
    (hprev : prevMac.length = prevMac'.length) (hevent : 0 ∉ event) (hevent' : 0 ∉ event')
    (hfirst : auditMacInput prevMac seq at_.toInt event userId handle detail = some input)
    (hsecond : auditMacInput prevMac' seq' at_'.toInt event' userId' handle' detail' = some input) :
    prevMac = prevMac' ∧ at_ = at_' ∧ event = event' ∧ userId = userId' ∧ handle = handle' ∧
      detail = detail' := by
  unfold auditMacInput at hfirst hsecond
  split at hfirst
  · cases hfirst
  split at hsecond
  · cases hsecond
  rename_i hsizes hsizes'
  dsimp only at hfirst hsecond
  split at hfirst
  · cases hfirst
  split at hsecond
  · cases hsecond
  have heq := (Option.some.inj hfirst).trans (Option.some.inj hsecond).symm
  simp only [not_or, not_lt] at hsizes hsizes'
  simp only [List.append_assoc] at heq
  obtain ⟨rfl, hfromSeq⟩ := append_cancel hprev heq
  have hwidth : ∀ value other : ℤ, (be64 value).length = (be64 other).length := by
    simp [be64]
  obtain ⟨-, hfromTime⟩ := append_cancel (hwidth _ _) hfromSeq
  obtain ⟨htime, hfromEvent⟩ := append_cancel (hwidth _ _) hfromTime
  obtain ⟨rfl, hfromUser⟩ := delimited_cancel hevent hevent' hfromEvent
  obtain ⟨rfl, hfromHandle⟩ := prefixed_cancel (by omega) (by omega) hfromUser
  obtain ⟨rfl, hfromDetail⟩ := prefixed_cancel (by omega) (by omega) hfromHandle
  obtain ⟨-, hdetail⟩ := append_cancel (by simp) hfromDetail
  exact ⟨rfl, be64_injective htime, rfl, rfl, rfl, hdetail⟩

namespace ColumnValue

variable {reads : ColumnReads} {first second : ColumnValue}

/-- What of a value reading it as a number loses. -/
def beyondInteger : ColumnValue → Option ColumnValue
  | .integer _ => none
  | value => some value

/-- What of a value reading it as a blob loses. -/
def beyondBlob : ColumnValue → Option ColumnValue
  | .blob _ => none
  | value => some value

/-- What of a value reading it as a C string loses: in a text, all from its first NUL on. -/
def beyondText : ColumnValue → ColumnValue
  | .text bytes => .text (bytes.dropWhile fun byte => byte ≠ 0)
  | value => value

theorem eq_of_int64 (hread : reads.int64 first = reads.int64 second)
    (hbeyond : first.beyondInteger = second.beyondInteger) : first = second := by
  cases first <;> cases second <;> simp_all [beyondInteger, reads.int64_integer]

theorem eq_of_blob (hread : reads.blob first = reads.blob second)
    (hbeyond : first.beyondBlob = second.beyondBlob) : first = second := by
  cases first <;> cases second <;> simp_all [beyondBlob, reads.blob_blob]

theorem eq_of_text (hread : cString (reads.text first) = cString (reads.text second))
    (hbeyond : first.beyondText = second.beyondText) : first = second := by
  have hparts : ∀ text : Bytes, cString text ++ text.dropWhile (fun byte => byte ≠ 0) = text :=
    fun _ => List.takeWhile_append_dropWhile
  cases first with
  | text bytes =>
    cases second with
    | text other =>
      rw [reads.text_text, reads.text_text] at hread
      rw [← hparts bytes, hread, ColumnValue.text.inj hbeyond, hparts]
    | _ => cases hbeyond
  | _ => cases second <;> first | exact hbeyond | cases hbeyond

end ColumnValue

namespace AuditColumns

/-- What no MAC covers: values of other classes than the declared ones, and what follows a NUL
in a text. -/
def uncovered (row : AuditColumns) : Option ColumnValue × ColumnValue × Option ColumnValue ×
    Option ColumnValue × ColumnValue × Option ColumnValue × Option ColumnValue :=
  (row.at_.beyondInteger, row.event.beyondText, row.userId.beyondBlob, row.handle.beyondBlob,
    row.detail.beyondText, row.prevMac.beyondBlob, row.mac.beyondBlob)

/-- What is read and what is not covered make up the row. -/
theorem eq_of_parts {reads : ColumnReads} {first second : AuditColumns}
    (hreading : first.reading reads = second.reading reads)
    (huncovered : first.uncovered = second.uncovered) : first = second := by
  obtain ⟨seq, at_, event, userId, handle, detail, prevMac, mac⟩ := first
  obtain ⟨seq', at_', event', userId', handle', detail', prevMac', mac'⟩ := second
  simp only [reading, uncovered, AuditReading.mk.injEq, Prod.mk.injEq] at hreading huncovered
  obtain ⟨rfl, hat, hevent, huser, hhandle, hdetail, hprev, hmac⟩ := hreading
  obtain ⟨hat', hevent', huser', hhandle', hdetail', hprev', hmac'⟩ := huncovered
  obtain rfl := ColumnValue.eq_of_int64 hat hat'
  obtain rfl := ColumnValue.eq_of_text hevent hevent'
  obtain rfl := ColumnValue.eq_of_blob huser huser'
  obtain rfl := ColumnValue.eq_of_blob hhandle hhandle'
  obtain rfl := ColumnValue.eq_of_text hdetail hdetail'
  obtain rfl := ColumnValue.eq_of_blob hprev hprev'
  obtain rfl := ColumnValue.eq_of_blob hmac hmac'
  rfl

end AuditColumns

/-- The inputs whose MACs occur in a table. -/
def auditInputs (prims : DaemonPrimitives) (rows : List AuditColumns) : Set Bytes :=
  {input | ∃ row ∈ rows, (row.reading prims.columns).macInput = some input}

variable {rows : List AuditColumns}

/-- A row can be read off, as far as it is covered, from what it leaves behind. -/
theorem reading_of_next (hmac : Set.InjOn prims.auditMac (auditInputs prims rows))
    {other : AuditColumns} (hrow : row ∈ rows) (hother : other ∈ rows) {link otherLink : ℤ × Bytes}
    (hfirst : AuditAccepted prims link (row.reading prims.columns) next)
    (hsecond : AuditAccepted prims otherLink (other.reading prims.columns) next) :
    link = otherLink ∧ row.reading prims.columns = other.reading prims.columns := by
  obtain ⟨input, hinput, hsame⟩ := hfirst.input
  obtain ⟨input', hinput', hsame'⟩ := hsecond.input
  obtain rfl : input = input' :=
    hmac ⟨row, hrow, hinput⟩ ⟨other, hother, hinput'⟩
      (Blob.toList_injective (hsame.trans hsame'.symm))
  have hprev : (row.reading prims.columns).prevMac.length =
      (other.reading prims.columns).prevMac.length := by
    rw [hfirst.prevMac, hsecond.prevMac]
    exact hfirst.prevLength.trans hsecond.prevLength.symm
  obtain ⟨hlink, hat, hevent, huser, hhandle, hdetail⟩ := auditMacInput_injective hprev
    zero_not_mem_cString zero_not_mem_cString hinput hinput'
  have hseq : link.1 = otherLink.1 := by
    have hnext := hfirst.next
    have hnext' := hsecond.next
    omega
  have hlast := hfirst.mac.trans hsecond.mac.symm
  refine ⟨Prod.ext hseq ?_, ?_⟩
  · rw [← hfirst.prevMac, ← hsecond.prevMac, hlink]
  refine AuditReading.ext ?_ hat hevent huser hhandle hdetail hlink hlast
  rw [hfirst.seq, hsecond.seq, hseq]

/-- Where the chain of a table that verifies ends. -/
theorem follow_auditStart {last : ℤ × Bytes}
    (hrows : Chain.follow (auditVerifyRow prims) auditStart rows = .ok last) :
    last = ((rows.length : ℤ) + 1, auditHeadMac prims rows) := by
  induction rows using List.reverseRecOn generalizing last with
  | nil =>
    cases hrows
    rfl
  | append_singleton rows row ih =>
    obtain ⟨middle, hmiddle, hlast⟩ := Chain.follow_concat_eq_ok.mp hrows
    have haccepted := auditAccepted_of_ok hlast
    have hcount : last.1 = ((rows ++ [row]).length : ℤ) + 1 := by
      rw [haccepted.next, ih hmiddle, List.length_append, List.length_singleton]
      push_cast
      ring
    refine Prod.ext hcount ?_
    unfold auditHeadMac
    rw [List.getLast?_concat, Option.map_some, Option.getD_some]
    exact haccepted.mac.symm

theorem eq_of_maps {reads : ColumnReads} {first second : List AuditColumns}
    (hreading : first.map (AuditColumns.reading reads) = second.map (AuditColumns.reading reads))
    (huncovered : first.map AuditColumns.uncovered = second.map AuditColumns.uncovered) :
    first = second := by
  induction first generalizing second with
  | nil => exact (List.map_eq_nil_iff.mp hreading.symm).symm
  | cons row rows ih =>
    cases second with
    | nil => cases hreading
    | cons =>
      obtain ⟨hrow, hrows⟩ := List.cons.inj hreading
      obtain ⟨hrow', hrows'⟩ := List.cons.inj huncovered
      rw [AuditColumns.eq_of_parts hrow hrow', ih hrows hrows']

/-- Two audit tables of one length that verify and have the same head MAC are the same exactly
if they agree in what no MAC covers: the values whose class is not the declared one, and what
follows a NUL in the event and the detail. The MAC is assumed not to collide on the inputs of the
two tables. -/
theorem audit_eq_iff_uncovered (prims : DaemonPrimitives) {first second : List AuditColumns}
    (hmac : Set.InjOn prims.auditMac (auditInputs prims (first ++ second)))
    (hfirst : auditVerify prims first = .ok ⟨⟩) (hsecond : auditVerify prims second = .ok ⟨⟩)
    (hlength : first.length = second.length)
    (hhead : auditHeadMac prims first = auditHeadMac prims second) :
    first = second ↔ first.map AuditColumns.uncovered = second.map AuditColumns.uncovered := by
  constructor
  · rintro rfl
    rfl
  have hfollow : ∀ rows, auditVerify prims rows = .ok ⟨⟩ →
      Chain.follow (auditVerifyRow prims) auditStart rows =
        .ok ((rows.length : ℤ) + 1, auditHeadMac prims rows) := by
    intro rows hrows
    unfold auditVerify at hrows
    cases hend : Chain.follow (auditVerifyRow prims) auditStart rows with
    | error => rw [hend] at hrows; cases hrows
    | ok => rw [follow_auditStart hend]
  have hends := hfollow second hsecond
  rw [← hlength, ← hhead] at hends
  have hreading : first.map (AuditColumns.reading prims.columns) =
      second.map (AuditColumns.reading prims.columns) := by
    refine Chain.map_view_eq hlength ?_ (hfollow first hfirst) hends
    intro row hrow other hother link otherLink next hnext hnext'
    exact reading_of_next hmac (List.mem_append_left _ hrow) (List.mem_append_right _ hother)
      (auditAccepted_of_ok hnext) (auditAccepted_of_ok hnext')
  exact eq_of_maps hreading

/-- The first audit row of a store, for a device that was revoked. -/
def sampleAudit : AuditColumns where
  seq := 1
  at_ := .integer 7
  event := .text (ascii "device-revoke")
  userId := .null
  handle := .blob (ascii "laptop")
  detail := .text (ascii "local-api")
  prevMac := .blob (Blob.zero storeAuditMacBytes).toList
  mac := blobColumn ((auditMacInput (Blob.zero storeAuditMacBytes).toList 1 7
    (ascii "device-revoke") [] (ascii "laptop") (ascii "local-api")).map fun input =>
      (DaemonPrimitives.sample.auditMac input).toList)

/-- The same row with an empty user id, and with more text behind a NUL. -/
def sampleTampered : AuditColumns :=
  { sampleAudit with
    userId := .blob []
    detail := .text (ascii "local-api" ++ 0 :: ascii " on behalf of alice") }

theorem auditInputs_sample :
    (auditInputs .sample ([sampleAudit] ++ [sampleTampered])).Subsingleton := by
  let input (row : AuditColumns) := (row.reading DaemonPrimitives.sample.columns).macInput
  have hsame : input sampleTampered = input sampleAudit := by decide +kernel
  have hall : ∀ row ∈ [sampleAudit] ++ [sampleTampered], input row = input sampleAudit := by
    simpa using hsame
  rintro first ⟨row, hrow, hfirst⟩ second ⟨other, hother, hsecond⟩
  exact Option.some.inj (hfirst.symm.trans ((hall row hrow).trans
    ((hall other hother).symm.trans hsecond)))

theorem audit_eq_iff_uncovered_sample :
    [sampleAudit] = [sampleTampered] ↔
      [sampleAudit].map AuditColumns.uncovered = [sampleTampered].map AuditColumns.uncovered :=
  audit_eq_iff_uncovered .sample (auditInputs_sample.injOn _) (by decide +kernel)
    (by decide +kernel) rfl rfl

/-- The tampered row verifies with the same head MAC. -/
theorem tampered_verifies :
    Set.InjOn DaemonPrimitives.sample.auditMac
        (auditInputs .sample ([sampleAudit] ++ [sampleTampered])) ∧
      auditVerify .sample [sampleAudit] = .ok ⟨⟩ ∧ auditVerify .sample [sampleTampered] = .ok ⟨⟩ ∧
      auditHeadMac .sample [sampleAudit] = auditHeadMac .sample [sampleTampered] ∧
      [sampleAudit] ≠ [sampleTampered] :=
  ⟨auditInputs_sample.injOn _, by decide +kernel, by decide +kernel, rfl, by decide +kernel⟩

end MldsaAuth.Authd
