/-
# The audit trail of the store's operations

Every operation leaves the audit rows it finds and appends rows that continue their
chain, wherever it fails, so the chain of a store verifies at all times and its numbers
have no gap. What an operation changes in the accounts it names in a row of its own; only
`store_touch_last_seen` writes to a device without one. Text arguments of the store are
C strings, so they contain no NUL.
-/

import MldsaAuth.Authd.Store.Audit
import MldsaAuth.Authd.Store.Accounts
import Mathlib.Data.List.TakeWhile

namespace MldsaAuth.Authd

open Foundation Crypto Foundation.Program Foundation.Machine Tables Rows AuditColumns

/-! ## Extending the chain -/

/-- What the next audit row is checked against. -/
def Tables.auditNext (tables : Tables) : ℤ × Bytes :=
  (tables.auditHead.1 + 1, tables.auditHead.2)

/-- Audit rows were appended that continue the chain. -/
def AuditExtends (prims : DaemonPrimitives) (before after : Tables) : Prop :=
  ∃ rows, after.audit = before.audit ++ rows ∧
    Chain.follow (auditVerifyRow prims) before.auditNext (rows.map AuditRow.columns) =
      .ok after.auditNext

variable {prims : DaemonPrimitives} {before after tables : Tables}

theorem auditNext_congr (haudit : after.audit = before.audit) :
    after.auditNext = before.auditNext := by
  unfold auditNext Tables.auditHead
  rw [haudit]

theorem AuditExtends.of_same (haudit : after.audit = before.audit) :
    AuditExtends prims before after :=
  ⟨[], by rw [haudit, List.append_nil], by rw [auditNext_congr haudit]; rfl⟩

instance : Std.Refl (AuditExtends prims) := ⟨fun _ => .of_same rfl⟩

instance : IsTrans Tables (AuditExtends prims) where
  trans first second third := by
    rintro ⟨rows, hrows, hchain⟩ ⟨more, hmore, hchain'⟩
    refine ⟨rows ++ more, by rw [hmore, hrows, List.append_assoc], ?_⟩
    rw [List.map_append, Chain.follow_append_of_ok hchain]
    exact hchain'

/-! ## One row -/

theorem cString_eq_self {text : Bytes} (htext : 0 ∉ text) : cString text = text := by
  refine List.takeWhile_eq_self_iff.mpr fun byte hbyte => ?_
  refine decide_eq_true fun hzero => htext ?_
  exact hzero ▸ hbyte

theorem be64_ofInt (value : ℤ) : be64 (Int64.ofInt value).toInt = be64 value := by
  unfold be64
  rw [Int64.toInt_ofInt]
  congr 2
  exact Int.bmod_emod

/-- A row as `audit_append` writes it is accepted by the round that comes to it. -/
theorem auditVerifyRow_columns {row : AuditRow} {input : Bytes}
    (hprev : row.prevMac.length = storeAuditMacBytes) (hevent : 0 ∉ row.event)
    (hdetail : 0 ∉ row.detail) (huser : (row.userId.getD []).length ≤ storeIdMax)
    (hhandle : (row.handle.getD []).length ≤ storeIdMax)
    (hinput : auditMacInput row.prevMac row.seq row.at_ row.event (row.userId.getD [])
      (row.handle.getD []) row.detail = some input)
    (hmac : row.mac = (prims.auditMac input).toList) :
    auditVerifyRow prims (row.seq, row.prevMac) row.columns = .ok (row.seq + 1, row.mac) := by
  have hmacLength : row.mac.length = storeAuditMacBytes := by
    rw [hmac]
    exact Blob.length_toList _
  have hblob : ∀ bytes, prims.columns.blob (blobColumn bytes) = bytes.getD [] := by
    intro bytes
    cases bytes with
    | none => exact prims.columns.blob_null
    | some bytes => exact prims.columns.blob_blob bytes
  have hread : row.columns.reading prims.columns = ⟨row.seq, Int64.ofInt row.at_, row.event,
      row.userId.getD [], row.handle.getD [], row.detail, row.prevMac, row.mac⟩ := by
    simp only [reading, AuditRow.columns, hblob, ColumnReads.int64_integer, ColumnReads.text_text,
      ColumnReads.blob_blob, cString_eq_self hevent, cString_eq_self hdetail]
  have hmacInput : auditMacInput row.prevMac row.seq (Int64.ofInt row.at_).toInt row.event
      (row.userId.getD []) (row.handle.getD []) row.detail = some input := by
    rw [← hinput]
    unfold auditMacInput
    rw [be64_ofInt]
  have hsizes : ¬(storeIdMax < (row.userId.getD []).length ∨
      storeIdMax < (row.handle.getD []).length ∨ storeAuditMacBytes < row.prevMac.length ∨
      storeAuditMacBytes < row.mac.length) := by
    omega
  have hlengths : ¬(row.prevMac.length ≠ storeAuditMacBytes ∨
      row.mac.length ≠ storeAuditMacBytes) :=
    not_or.mpr ⟨not_not.mpr hprev, not_not.mpr hmacLength⟩
  unfold auditVerifyRow
  rw [hread]
  unfold AuditReading.verify AuditReading.macInput
  dsimp only
  rw [hmacInput]
  refine (if_neg (not_not.mpr rfl)).trans ((if_neg hsizes).trans ((if_neg hlengths).trans
    ((if_neg (not_not.mpr rfl)).trans ?_)))
  exact if_neg (not_not.mpr hmac.symm)

variable {event detail : Bytes} {handle : Option Bytes} {userId : Option Bytes}

theorem moves_auditAppend {now : ℤ} (hevent : 0 ∉ event)
    (hdetail : 0 ∉ detail) (huser : (userId.getD []).length ≤ storeIdMax)
    (hhandle : (handle.getD []).length ≤ storeIdMax) :
    Moves (AuditExtends prims) (auditAppend prims event userId handle detail now) := by
  refine .of_ends fun tables => ?_
  unfold auditAppend
  refine Ends.bind atomically_auditHead ?_ ?_
  · rintro status after rfl
    exact refl after
  rintro ⟨prevSeq, prevMac⟩ after ⟨hhead, hlength, rfl⟩
  dsimp only
  cases hinput : auditMacInput prevMac (prevSeq + 1) now event (userId.getD [])
      (handle.getD []) detail with
  | none => exact .fail (refl after)
  | some input =>
    refine .statement (refl after) ?_
    let row : AuditRow :=
      { seq := prevSeq + 1
        at_ := now
        event := event
        userId := userId
        handle := handle
        detail := detail
        prevMac := prevMac
        mac := (prims.auditMac input).toList }
    have hrow : auditVerifyRow prims (row.seq, row.prevMac) row.columns =
        .ok (row.seq + 1, row.mac) :=
      auditVerifyRow_columns hlength hevent hdetail huser hhandle hinput rfl
    have hlast : auditNext { after with audit := after.audit ++ [row] } =
        (row.seq + 1, row.mac) := by
      unfold auditNext Tables.auditHead
      rw [List.getLast?_concat]
    have hfrom : after.auditNext = (row.seq, row.prevMac) := by
      unfold auditNext
      rw [← hhead]
    refine ⟨[row], rfl, ?_⟩
    rw [hfrom]
    refine Chain.follow_singleton.trans (hrow.trans ?_)
    exact congrArg Except.ok hlast.symm

/-! ## Every operation -/

variable {Value : Type}

theorem moves_query {read : Tables → Value} : Moves (AuditExtends prims) (query read) :=
  .statement fun tables => refl tables

variable {change : Tables → Tables}

theorem moves_exec (haudit : audit ∘ change = audit) : Moves (AuditExtends prims) (exec change) :=
  .statement fun tables => .of_same (congrFun haudit tables)

theorem moves_execCount {count : Tables → ℕ} (haudit : audit ∘ change = audit) :
    Moves (AuditExtends prims) (execCount change count) :=
  .statement fun tables => .of_same (congrFun haudit tables)

theorem moves_insert {change : Tables → Option Tables}
    (haudit : ∀ tables after, change tables = some after → after.audit = tables.audit) :
    Moves (AuditExtends prims) (insert change) := by
  refine .statement fun tables => ?_
  cases hchange : change tables with
  | none => exact refl tables
  | some after => exact .of_same (haudit tables after hchange)

variable {now : ℤ}

/-- An audit row may be followed by the end of the transaction. -/
theorem moves_audit_pure {value : Value} (hevent : 0 ∉ event)
    (hdetail : 0 ∉ detail) (huser : (userId.getD []).length ≤ storeIdMax)
    (hhandle : (handle.getD []).length ≤ storeIdMax) :
    Moves (AuditExtends prims)
      (auditAppend prims event userId handle detail now >>= fun _ => pure value) :=
  .bind (moves_auditAppend hevent hdetail huser hhandle) fun _ => .pure value

theorem audit_insertUser {row : UserRow} (hinsert : before.insertUser row = some after) :
    after.audit = before.audit :=
  (insertUser_eq_some hinsert).2 ▸ rfl

theorem audit_insertDevice {row : DeviceRow} (hinsert : before.insertDevice row = some after) :
    after.audit = before.audit :=
  (insertDevice_eq_some hinsert).2.2 ▸ rfl

variable {pk : SigPublicKey} {handle : Bytes}

theorem audit_insertKey {pkFp : StoreHash}
    (hinsert : before.insertKey handle pk pkFp now = some after) : after.audit = before.audit :=
  (insertKey_eq_some hinsert).2.2 ▸ rfl

theorem audit_insertToken {row : TokenRow} (hinsert : before.insertToken row = some after) :
    after.audit = before.audit :=
  (insertToken_eq_some hinsert).2 ▸ rfl

theorem audit_insertLoginCode {row : LoginCodeRow}
    (hinsert : before.insertLoginCode row = some after) : after.audit = before.audit :=
  (insertLoginCode_eq_some hinsert).2 ▸ rfl

theorem audit_insertTicket {row : TicketRow} (hinsert : before.insertTicket row = some after) :
    after.audit = before.audit :=
  (insertTicket_eq_some hinsert).2 ▸ rfl

variable {userId : Bytes} {role : StoreRole}

theorem moves_addUserLocked (hid : idOk userId = true) :
    Moves (AuditExtends prims) (addUserLocked prims userId role now) := by
  refine .bind (moves_insert fun _ _ => audit_insertUser) fun inserted => .require_bind fun _ => ?_
  refine moves_auditAppend (by decide) ?_ (length_of_idOk hid) (Nat.zero_le _)
  cases role <;> decide

variable {«by» : Bytes} {reason : Option Bytes} {dropTokens : Bool}

theorem moves_storeSetUserStatus {status : UserStatus} (hby : 0 ∉ «by») (hevent : 0 ∉ event) :
    Moves (AuditExtends prims)
      (storeSetUserStatus prims userId status «by» reason dropTokens event now) := by
  refine .require_bind fun hid => .transaction ?_
  refine .bind (moves_execCount rfl) fun changed => .require_bind fun _ => ?_
  refine .bind (.onlyIf fun _ => moves_exec rfl) fun _ => ?_
  exact moves_audit_pure hevent hby (length_of_idOk hid) (Nat.zero_le _)

variable {enrollment : Enrollment}

theorem moves_enrollDeviceLocked
    (hids : (idOk enrollment.handle && idOk enrollment.userId) = true) (hvia : 0 ∉ enrollment.via) :
    Moves (AuditExtends prims) (enrollDeviceLocked prims enrollment now) := by
  obtain ⟨hhandle, huser⟩ := Bool.and_eq_true_iff.mp hids
  refine .bind moves_query fun current => ?_
  cases current with
  | some key =>
    show Moves _ (enrollKnownHandle prims enrollment key now)
    unfold enrollKnownHandle
    split
    · exact .bind moves_query fun owned => .pure _
    exact moves_audit_pure (by decide) (by decide) (length_of_idOk huser) (length_of_idOk hhandle)
  | none =>
    refine .bind moves_query fun used => ?_
    split
    · exact .pure _
    refine .bind (moves_insert fun _ _ => audit_insertDevice) fun deviceAdded => ?_
    split
    · refine .bind (moves_insert fun _ _ => audit_insertKey) fun keyAdded => ?_
      split
      · exact moves_audit_pure (by decide) hvia (length_of_idOk huser) (length_of_idOk hhandle)
      · exact .pure _
    · exact .pure _

theorem moves_storeEnrollDeviceEx {later : ℤ} (hvia : 0 ∉ enrollment.via) :
    Moves (AuditExtends prims) (storeEnrollDeviceEx prims enrollment role now later) := by
  refine .require_bind fun hids => .transaction (.bind moves_query fun known => ?_)
  have huser := (Bool.and_eq_true_iff.mp hids).2
  refine .bind (.onlyIf fun _ => moves_addUserLocked huser) fun _ => ?_
  refine .bind (moves_enrollDeviceLocked hids hvia) fun outcome => ?_
  cases outcome with
  | enrolled => exact .pure _
  | idempotent => exact .pure _
  | conflict => exact .fail _

theorem moves_storeEnrollDevice (hvia : 0 ∉ enrollment.via) :
    Moves (AuditExtends prims) (storeEnrollDevice prims enrollment now) := by
  refine .require_bind fun hids => .transaction ?_
  refine .bind (moves_enrollDeviceLocked hids hvia) fun outcome => ?_
  cases outcome <;> exact .pure _

theorem returns_userOfHandle :
    Returns (fun userId => idOk userId = true) (userOfHandle handle) := by
  refine .bind fun found => ?_
  cases found with
  | none => exact .fail
  | some => exact .require_bind fun hid => .pure hid

theorem moves_userOfHandle : Moves (AuditExtends prims) (userOfHandle handle) := by
  refine .bind moves_query fun found => ?_
  cases found with
  | none => exact .fail _
  | some => exact .require_bind fun _ => .pure _

theorem moves_deleteTokensWhere {condition : TokenRow → Bool} :
    Moves (AuditExtends prims) (deleteTokensWhere condition) :=
  moves_execCount rfl

variable {rotation : Rotation}

theorem moves_replaceKey : Moves (AuditExtends prims) (replaceKey prims rotation now) := by
  refine .bind moves_query fun live => .require_bind fun _ => .bind moves_query fun found => ?_
  cases found with
  | none => exact .fail _
  | some =>
    refine .require_bind fun _ => .require_bind fun _ => .bind moves_query fun used =>
      .require_bind fun _ => .bind (moves_exec rfl) fun _ => ?_
    refine .bind (moves_insert fun _ _ => audit_insertKey) fun _ => .require_bind fun _ => ?_
    unfold dropHandleTokens
    split
    · exact moves_deleteTokensWhere
    · exact .pure 0

theorem moves_storeRotateKey : Moves (AuditExtends prims) (storeRotateKey prims rotation now) := by
  refine .require_bind fun hargs => .transaction (.bind moves_replaceKey fun dropped => ?_)
  have hreturns : Returns (fun user : Except StoreStatus Bytes =>
      ∀ userId, user = .ok userId → idOk userId = true) (userOfHandle rotation.handle).attempt := by
    intro conn value hvalue userId huser
    subst huser
    exact returns_userOfHandle conn userId (Except.ok.inj hvalue)
  refine .bind_returns moves_userOfHandle.attempt hreturns fun user huser => ?_
  refine moves_audit_pure (by decide) ?_ ?_ (length_of_idOk (Bool.and_eq_true_iff.mp hargs).1)
  · unfold Rotation.detail
    split <;> decide
  cases user with
  | error => exact Nat.zero_le _
  | ok userId => exact length_of_idOk (huser userId rfl)

theorem moves_revokeDeviceLocked (hhandle : idOk handle = true) (hby : 0 ∉ «by») :
    Moves (AuditExtends prims) (revokeDeviceLocked prims handle «by» reason now) := by
  refine .bind (moves_execCount rfl) fun changed => .require_bind fun _ => ?_
  refine .bind (moves_exec rfl) fun _ => .bind (moves_exec rfl) fun _ => ?_
  exact moves_auditAppend (by decide) hby (Nat.zero_le _) (length_of_idOk hhandle)

theorem moves_storeVerifyToken {tokenHash : StoreHash} {idleTtl : ℕ} :
    Moves (AuditExtends prims) (storeVerifyToken tokenHash now idleTtl) := by
  refine .bind moves_query fun found => ?_
  cases found with
  | none => exact .pure _
  | some =>
    dsimp only
    split
    · exact .bind (moves_exec rfl) fun _ => .pure _
    · exact .pure _

theorem moves_storeConsumeLoginCodeEx {codeHash stateHash : StoreHash} :
    Moves (AuditExtends prims) (storeConsumeLoginCodeEx codeHash stateHash now) := by
  refine .transaction (.bind moves_query fun found => ?_)
  cases found with
  | none => exact .pure _
  | some =>
    refine .require_bind fun _ => .require_bind fun _ => ?_
    split
    · exact .pure _
    split
    · exact .pure _
    split
    · exact .pure _
    · exact .bind (moves_exec rfl) fun _ => .pure _

variable {pwhashStrs : List Bytes}

theorem moves_insertRecoveryCodes :
    Moves (AuditExtends prims) (insertRecoveryCodes userId now pwhashStrs) := by
  induction pwhashStrs with
  | nil => exact .pure _
  | cons pwhashStr rest ih => exact .bind (moves_exec rfl) fun _ => ih

theorem zero_not_mem_decimal {value : ℕ} : 0 ∉ decimal value := by
  intro hmem
  obtain ⟨letter, hletter, hzero⟩ := List.mem_map.mp hmem
  have hdigits : letter ∈ Nat.toDigits 10 value := by
    simpa [Nat.repr] using hletter
  have hdigit := Nat.isDigit_of_mem_toDigits (by decide) (by decide) hdigits
  rw [Char.isDigit_iff_toNat] at hdigit
  have hvalue := congrArg UInt8.toNat hzero
  rw [UInt8.toNat_ofNat'] at hvalue
  have hlow : '0'.toNat = 48 := rfl
  have hhigh : '9'.toNat = 57 := rfl
  have hnone : (0 : UInt8).toNat = 0 := rfl
  omega

theorem moves_storeRecoveryReplace :
    Moves (AuditExtends prims) (storeRecoveryReplace prims userId pwhashStrs now) := by
  refine .require_bind fun hargs => .transaction (.bind moves_query fun known =>
    .require_bind fun _ => .bind (moves_execCount rfl) fun superseded => ?_)
  refine .bind moves_insertRecoveryCodes fun _ => ?_
  refine moves_audit_pure (by decide) ?_ (length_of_idOk (Bool.and_eq_true_iff.mp hargs).1)
    (Nat.zero_le _)
  rw [List.mem_append, not_or]
  exact ⟨by decide, zero_not_mem_decimal⟩

variable {guard : ℕ}

theorem moves_revokeAllDevices :
    Moves (AuditExtends prims) (revokeAllDevices prims userId now guard) := by
  induction guard with
  | zero => exact .pure 0
  | succ guard ih =>
    refine .bind moves_query fun found => ?_
    cases found with
    | none => exact .pure 0
    | some =>
      refine .require_bind fun hhandle => ?_
      refine .bind (moves_revokeDeviceLocked hhandle (by decide)) fun _ => ?_
      exact .bind ih fun more => .pure _

variable {codeId : ℕ} {ticketHash : StoreHash} {expiresAt : ℤ} {revokeAll : Bool}

theorem moves_storeRecoveryConsumeEx :
    Moves (AuditExtends prims)
      (storeRecoveryConsumeEx prims codeId userId ticketHash now expiresAt revokeAll) := by
  refine .require_bind fun hid => .transaction (.bind (moves_execCount rfl) fun spent =>
    .require_bind fun _ => .bind (moves_exec rfl) fun _ => ?_)
  refine .bind (moves_insert fun _ _ => audit_insertTicket) fun inserted =>
    .require_bind fun _ => ?_
  have hrevoke : Moves (AuditExtends prims) (revokeDevicesIf prims userId now revokeAll) := by
    unfold revokeDevicesIf
    split
    · exact moves_revokeAllDevices
    · exact .pure 0
  refine .bind hrevoke fun revoked => ?_
  exact moves_audit_pure (by decide) (by decide) (length_of_idOk hid) (Nat.zero_le _)

theorem moves_storeRecoveryNoteFailure {threshold : ℕ} {lockSeconds : ℤ} :
    Moves (AuditExtends prims)
      (storeRecoveryNoteFailure prims userId now threshold lockSeconds) := by
  refine .require_bind fun hargs => .transaction (.bind (moves_execCount rfl)
    fun changed => .require_bind fun _ => .bind moves_query fun found => ?_)
  have hid : idOk userId = true := (Bool.and_eq_true_iff.mp (Bool.and_eq_true_iff.mp hargs).1).1
  cases found with
  | none => exact .fail _
  | some =>
    dsimp only
    split
    · refine .bind (.bind (moves_exec rfl) fun _ => ?_) fun _ => .pure _
      exact moves_auditAppend (by decide) (by decide) (length_of_idOk hid) (Nat.zero_le _)
    · exact moves_audit_pure (by decide) (by decide) (length_of_idOk hid) (Nat.zero_le _)

theorem moves_storeEnrollViaTicket {expectUser : Bytes} {label : Option Bytes} :
    Moves (AuditExtends prims)
      (storeEnrollViaTicket prims ticketHash expectUser handle pk label now) := by
  refine .require_bind fun hids => .transaction (.bind moves_query fun found => ?_)
  cases found with
  | none => exact .fail _
  | some ticket =>
    refine .require_bind fun _ => .require_bind fun hexpect => .bind moves_query fun user => ?_
    cases user with
    | none => exact .fail _
    | some =>
      refine .require_bind fun _ => .bind (moves_execCount rfl) fun spent =>
        .require_bind fun _ => ?_
      have hids' : (idOk handle && idOk ticket.userId) = true := by
        rw [of_decide_eq_true hexpect]
        exact hids
      have hvia : 0 ∉ ascii "recovery" := by decide
      refine .bind (moves_enrollDeviceLocked hids' hvia) fun outcome => ?_
      cases outcome with
      | enrolled => exact .pure _
      | idempotent => exact .pure _
      | conflict => exact .fail _

theorem moves_storeSweep : Moves (AuditExtends prims) (storeSweep now) :=
  .transaction (.bind moves_deleteTokensWhere fun _ => .bind (moves_execCount rfl)
    fun _ => .bind (moves_execCount rfl) fun _ => .pure _)

variable {op : StoreOp}

namespace StoreOp

/-- The text arguments that reach the audit trail are C strings. -/
def CStrings : StoreOp → Prop
  | disableUser _ «by» _ _ => 0 ∉ «by»
  | enableUser _ «by» _ => 0 ∉ «by»
  | enrollDevice enrollment _ => 0 ∉ enrollment.via
  | enrollDeviceEx enrollment _ _ _ => 0 ∉ enrollment.via
  | revokeDevice _ «by» _ _ => 0 ∉ «by»
  | _ => True

/-- Whatever comes of a call, the audit trail is continued. -/
theorem moves_run (htexts : op.CStrings) : Moves (AuditExtends prims) (op.run prims) := by
  cases op with
  | addUser userId role now =>
    exact .require_bind fun hid => .transaction (.bind (moves_addUserLocked hid) fun _ => .pure _)
  | disableUser userId «by» reason now =>
    exact moves_storeSetUserStatus htexts (by decide)
  | enableUser userId «by» now =>
    exact moves_storeSetUserStatus htexts (by decide)
  | enrollDevice enrollment now => exact moves_storeEnrollDevice htexts
  | enrollDeviceEx enrollment role now later =>
    exact (moves_storeEnrollDeviceEx htexts).ignoring
  | enrollViaTicket ticketHash expectUser handle pk label now =>
    exact moves_storeEnrollViaTicket
  | rotateKey rotation now =>
    exact moves_storeRotateKey.ignoring
  | revokeDevice handle «by» reason now =>
    exact .require_bind fun hid => .transaction
      (.bind (moves_revokeDeviceLocked hid htexts) fun _ => .pure _)
  | touchLastSeen => exact .require_bind fun _ => moves_exec rfl
  | addToken =>
    exact .require_bind fun _ => .transaction (.bind (moves_insert fun _ _ => audit_insertToken)
      fun _ => .require_bind fun _ => .pure _)
  | verifyToken tokenHash now idleTtl =>
    exact moves_storeVerifyToken.ignoring
  | deleteToken => exact moves_deleteTokensWhere.ignoring
  | deleteTokensForHandle userId handle =>
    have hdelete : Moves (AuditExtends prims) (storeDeleteTokensForHandle userId handle) :=
      .require_bind fun _ => moves_deleteTokensWhere
    exact hdelete.ignoring
  | deleteTokensForUser userId =>
    have hdelete : Moves (AuditExtends prims) (storeDeleteTokensForUser userId) :=
      .require_bind fun _ => moves_deleteTokensWhere
    exact hdelete.ignoring
  | addLoginCode =>
    exact .require_bind fun _ => .transaction
      (.bind (moves_insert fun _ _ => audit_insertLoginCode) fun _ => .require_bind fun _ =>
        .pure _)
  | consumeLoginCodeEx codeHash stateHash now =>
    exact moves_storeConsumeLoginCodeEx.ignoring
  | recoveryReplace userId pwhashStrs now =>
    exact moves_storeRecoveryReplace.ignoring
  | recoveryConsumeEx codeId userId ticketHash now expiresAt revokeAll =>
    exact moves_storeRecoveryConsumeEx.ignoring
  | recoveryNoteFailure userId now threshold lockSeconds =>
    exact moves_storeRecoveryNoteFailure.ignoring
  | sweep now => exact moves_storeSweep.ignoring

end StoreOp

/-! ## Naming what was done -/

/-- A device row without the time it was last seen. -/
def DeviceRow.unseen (row : DeviceRow) : DeviceRow := { row with lastSeen := none }

variable {names : List Bytes} {rows : List AuditRow}

namespace Tables

/-- Users and their locks, devices up to when they were last seen, keys and recovery codes are
the same. -/
structure SameAccounts (before after : Tables) : Prop where
  users : after.users = before.users
  devices : after.devices.map DeviceRow.unseen = before.devices.map DeviceRow.unseen
  keys : after.deviceKeys = before.deviceKeys
  codes : after.recoveryCodes = before.recoveryCodes

/-- An audit row with one of the given events was appended. -/
def Named (names : List Bytes) (before after : Tables) : Prop :=
  ∃ rows row, after.audit = before.audit ++ rows ∧ row ∈ rows ∧ row.event ∈ names

theorem SameAccounts.refl (tables : Tables) : SameAccounts tables tables := ⟨rfl, rfl, rfl, rfl⟩

/-- The row that is appended last names the event. -/
theorem named_audited {userId handle : Option Bytes} (haudit : tables.audit = before.audit ++ rows)
    (hevent : event ∈ names) :
    Named names before (tables.audited prims event userId handle detail now) := by
  unfold Named audited
  dsimp only
  rw [haudit, List.append_assoc]
  refine ⟨_, _, rfl, List.mem_append_right _ (List.mem_singleton.mpr rfl), hevent⟩

theorem DeviceEnrolled.audit (henrolled : DeviceEnrolled prims enrollment now before after) :
    Named [ascii "device-enroll"] before after := by
  obtain ⟨added, keyed, hadded, hkeyed, rfl⟩ := henrolled.written
  have haudit : keyed.audit = before.audit ++ [] := by
    rw [audit_insertKey hkeyed, audit_insertDevice hadded, List.append_nil]
  exact named_audited haudit (List.mem_singleton.mpr rfl)

theorem UserReady.audit (hready : UserReady prims userId role now before after) :
    ∃ rows, after.audit = before.audit ++ rows := by
  rcases hready with ⟨-, rfl⟩ | ⟨added, hadded, rfl⟩
  · exact ⟨[], (List.append_nil _).symm⟩
  · exact ⟨_, congrArg (· ++ _) (audit_insertUser hadded)⟩

theorem Named.of_later {middle : Tables} (hnamed : Named names middle after)
    (haudit : middle.audit = before.audit ++ rows) : Named names before after := by
  obtain ⟨more, row, hmore, hrow, hevent⟩ := hnamed
  refine ⟨rows ++ more, row, ?_, List.mem_append_right _ hrow, hevent⟩
  rw [hmore, haudit, List.append_assoc]

theorem DevicesRevoked.audit (hrevoked : DevicesRevoked prims userId now guard before after) :
    ∃ rows, after.audit = before.audit ++ rows := by
  induction hrevoked with
  | exhausted | done => exact ⟨[], (List.append_nil _).symm⟩
  | next _ hrevoked _ ih =>
    obtain ⟨rows, hrows⟩ := ih
    rw [hrows, hrevoked.written]
    exact ⟨_, List.append_assoc _ _ _⟩

theorem CodeSpent.audit
    (hspent : CodeSpent prims codeId userId ticketHash now expiresAt revokeAll before after) :
    Named [ascii "recovery-use"] before after := by
  obtain ⟨ticketed, revoked, hticketed, hrevoked, rfl⟩ := hspent.written
  have hrows : ∃ rows, revoked.audit = ticketed.audit ++ rows := by
    cases revokeAll with
    | true => exact hrevoked.audit
    | false => exact ⟨[], hrevoked ▸ (List.append_nil _).symm⟩
  obtain ⟨rows, hrows⟩ := hrows
  rw [audit_insertTicket hticketed] at hrows
  exact named_audited hrows (List.mem_singleton.mpr rfl)

theorem audit_insertRecoveryCodes (start : Tables) (userId : Bytes) (now : ℤ)
    (pwhashStrs : List Bytes) :
    (start.insertRecoveryCodes userId now pwhashStrs).audit = start.audit := by
  induction pwhashStrs generalizing start with
  | nil => rfl
  | cons pwhashStr rest ih => exact ih (start.insertRecoveryCode userId pwhashStr now)

end Tables

namespace StoreOp

/-- The events a call that changes the accounts may be recorded under. -/
def eventNames : StoreOp → List Bytes
  | addUser .. => [ascii "user-add"]
  | disableUser .. => [ascii "user-disable"]
  | enableUser .. => [ascii "user-enable"]
  | enrollDevice .. => [ascii "device-enroll"]
  | enrollDeviceEx .. => [ascii "device-enroll"]
  | enrollViaTicket .. => [ascii "device-enroll"]
  | rotateKey .. => [ascii "key-rotate"]
  | revokeDevice .. => [ascii "device-revoke"]
  | recoveryReplace .. => [ascii "recovery-issue"]
  | recoveryConsumeEx .. => [ascii "recovery-use"]
  | recoveryNoteFailure .. => [ascii "recovery-use", ascii "recovery-locked"]
  | _ => []

/-- A successful call that changes the accounts names what it has done. -/
theorem Applied.named (happlied : op.Applied prims before after) :
    before.SameAccounts after ∨ Tables.Named op.eventNames before after := by
  have hnone : before.audit = before.audit ++ [] := (List.append_nil _).symm
  cases op with
  | addUser =>
    obtain ⟨added, hadded, rfl⟩ := happlied
    exact .inr (named_audited ((audit_insertUser hadded).trans hnone) (List.mem_singleton.mpr rfl))
  | disableUser | enableUser | revokeDevice =>
    obtain ⟨-, rfl⟩ := happlied
    exact .inr (named_audited hnone (List.mem_singleton.mpr rfl))
  | enrollDevice =>
    cases happlied with
    | enrolled hwritten => exact .inr hwritten.audit
    | idempotent => exact .inl (.refl before)
  | enrollDeviceEx =>
    obtain ⟨_, hview⟩ := happlied
    cases hview with
    | idempotent => exact .inl (.refl before)
    | enrolled hready hwritten =>
      obtain ⟨rows, hrows⟩ := hready.audit
      exact .inr (hwritten.audit.of_later hrows)
  | enrollViaTicket =>
    cases happlied with
    | idempotent => exact .inl (.refl before)
    | enrolled _ hwritten => exact .inr (hwritten.audit.of_later hnone)
  | rotateKey rotation now =>
    obtain ⟨current, hrotated⟩ := happlied
    obtain ⟨keyed, user, hkeyed, rfl⟩ := hrotated.written
    have haudit : keyed.audit = (before.supersedeKey current.keyId now rotation.hsid).audit :=
      audit_insertKey hkeyed
    have hkept : (if rotation.dropTokens then keyed.deleteHandleTokens rotation.handle
        else keyed).audit = before.audit ++ [] := by
      cases rotation.dropTokens <;> exact haudit.trans hnone
    exact .inr (named_audited hkept (List.mem_singleton.mpr rfl))
  | touchLastSeen handle now =>
    obtain rfl : after = before.touchDevice handle now := happlied
    exact .inl ⟨rfl, map_updateWhere fun _ => rfl, rfl, rfl⟩
  | addToken row =>
    have hinsert : before.insertToken row = some after := happlied
    obtain rfl := (insertToken_eq_some hinsert).2
    exact .inl ⟨rfl, rfl, rfl, rfl⟩
  | verifyToken =>
    obtain ⟨_, hverified⟩ := happlied
    cases hverified <;> exact .inl ⟨rfl, rfl, rfl, rfl⟩
  | deleteToken | deleteTokensForHandle | deleteTokensForUser | sweep =>
    exact .inl (happlied ▸ ⟨rfl, rfl, rfl, rfl⟩)
  | addLoginCode row =>
    have hinsert : before.insertLoginCode row = some after := happlied
    obtain rfl := (insertLoginCode_eq_some hinsert).2
    exact .inl ⟨rfl, rfl, rfl, rfl⟩
  | consumeLoginCodeEx =>
    obtain ⟨_, hconsumed⟩ := happlied
    cases hconsumed <;> exact .inl ⟨rfl, rfl, rfl, rfl⟩
  | recoveryReplace userId pwhashStrs now =>
    obtain ⟨-, rfl⟩ := happlied
    have haudit := audit_insertRecoveryCodes (before.supersedeRecoveryCodes userId now)
      userId now pwhashStrs
    exact .inr (named_audited (haudit.trans hnone) (List.mem_singleton.mpr rfl))
  | recoveryConsumeEx =>
    exact .inr happlied.audit
  | recoveryNoteFailure =>
    obtain ⟨_, hview⟩ := happlied
    cases hview with
    | counted _ _ hnoted =>
      exact .inr (hnoted ▸ named_audited hnone List.mem_cons_self)
    | locked _ _ hnoted =>
      exact .inr (hnoted ▸ named_audited hnone (List.mem_cons_of_mem _ List.mem_cons_self))

end StoreOp

/-! ## Runs -/

/-- The numbers from one on. -/
def auditNumbers (count : ℕ) : List ℤ := (List.range count).map fun index : ℕ => (index : ℤ) + 1

/-- The rows of a chain that verifies are numbered without a gap. -/
theorem seqs_of_follow {rows : List AuditColumns} {last : ℤ × Bytes}
    (hrows : Chain.follow (auditVerifyRow prims) auditStart rows = .ok last) :
    rows.map seq = auditNumbers rows.length := by
  induction rows using List.reverseRecOn generalizing last with
  | nil => rfl
  | append_singleton rows row ih =>
    obtain ⟨middle, hmiddle, hlast⟩ := Chain.follow_concat_eq_ok.mp hrows
    have hseq : row.seq = (rows.length : ℤ) + 1 := by
      rw [show row.seq = _ from (auditAccepted_of_ok hlast).seq, follow_auditStart hmiddle]
    unfold auditNumbers at ih ⊢
    rw [List.map_append, ih hmiddle, List.length_append, List.length_singleton,
      List.range_succ, List.map_append, List.map_singleton, List.map_singleton, hseq]

/-- What extends the empty trail verifies and is numbered from one. -/
theorem AuditExtends.verified (hextends : AuditExtends prims fresh after) :
    auditVerify prims (after.audit.map AuditRow.columns) = .ok ⟨⟩ ∧
      after.audit.map AuditRow.seq = auditNumbers after.audit.length := by
  obtain ⟨rows, hrows, hchain⟩ := hextends
  have haudit : after.audit = rows := hrows
  have hstart : fresh.auditNext = auditStart := rfl
  rw [hstart, ← haudit] at hchain
  constructor
  · unfold auditVerify
    rw [hchain]
    rfl
  have hseqs := seqs_of_follow hchain
  rw [List.map_map, List.length_map] at hseqs
  exact hseqs

/-- In any sequence of store operations on a fresh store, failing anywhere or not, the audit
trail verifies after each operation and is numbered from one without gaps, the rows that were
there stay as they are, and an operation that changed a user or a lock, a device apart from
when it was last seen, a key or a recovery code appended a row that names what it did. -/
theorem audit_of_run (prims : DaemonPrimitives) {calls : List StoreCall} {call : StoreCall}
    {conn final : Connection Tables}
    (hhash : Set.InjOn (fingerprint prims)
      {pk | ∃ other ∈ calls ++ [call], other.op.presented = some pk})
    (hrun : Run ((storeMachine prims).restrict fun _ call => call.op.CStrings) freshStore calls
      conn) (htexts : call.op.CStrings) (hfinal : (storeMachine prims).step conn call = final) :
    (storeAuditVerify prims ⟨final.tables, none, []⟩).1 = .ok ⟨⟩ ∧
      final.tables.audit.map AuditRow.seq = auditNumbers final.tables.audit.length ∧
      ∃ rows, final.tables.audit = conn.tables.audit ++ rows ∧
        (conn.tables.SameAccounts final.tables ∨ ∃ row ∈ rows, row.event ∈ call.op.eventNames) := by
  subst hfinal
  have hmoves : ∀ (state : Connection Tables) (event : StoreCall), event.op.CStrings →
      AuditExtends prims state.tables ((storeMachine prims).step state event).tables :=
    fun state event hevent => (StoreOp.moves_run hevent).related { state with faults := _ }
  have hallowed : ∀ state event,
      ((storeMachine prims).restrict fun _ call => call.op.CStrings).allowed state event →
        AuditExtends prims state.tables ((storeMachine prims).step state event).tables :=
    fun state event hevent => hmoves state event hevent.2
  have hbefore : AuditExtends prims fresh conn.tables :=
    Run.preorder (fun first second => AuditExtends prims first.tables second.tables)
      (fun state => refl state.tables) (fun _ _ _ => IsTrans.trans _ _ _) hallowed hrun
  have hstep := hmoves conn call htexts
  obtain ⟨hverified, hseqs⟩ := AuditExtends.verified (IsTrans.trans _ _ _ hbefore hstep)
  refine ⟨?_, hseqs, ?_⟩
  · unfold storeAuditVerify
    rw [query_bind_faultless, hverified]
    rfl
  obtain ⟨rows, hrows, -⟩ := hstep
  refine ⟨rows, hrows, ?_⟩
  have hsound : Registry.Sound _ (fingerprint prims) conn.tables.registry :=
    Registry.Steps.sound
      (steps_of_run hhash hrun.unrestrict
        (fun other hother pk hpk => ⟨other, List.mem_append_left _ hother, hpk⟩)
        sound_fresh)
      sound_fresh
  obtain ⟨outcome, hsettles⟩ := settles_step
  cases outcome with
  | ok =>
    rcases StoreOp.Applied.named hsettles with hsame | ⟨more, row, hmore, hrow, hevent⟩
    · exact .inl hsame
    obtain rfl := List.append_cancel_left (hrows.symm.trans hmore)
    exact .inr ⟨row, hrow, hevent⟩
  | error =>
    refine .inl ?_
    generalize ((storeMachine prims).step conn call).tables = after at hsettles
    cases hsettles with
    | unchanged => exact .refl conn.tables
    | mismatch _ _ hwritten => exact hwritten.written ▸ ⟨rfl, rfl, rfl, rfl⟩
    | stray _ hwritten => exact hwritten.written ▸ ⟨rfl, rfl, rfl, rfl⟩
    | clash hop _ hids hwritten =>
      refine (hwritten.absurd hids hsound hhash ⟨call, ?_, ?_⟩).elim
      · exact List.mem_append_right _ (List.mem_singleton.mpr rfl)
      rw [hop]
      rfl

/-- The device of the sample history is seen. -/
def sampleSeen : StoreCall := ⟨.touchLastSeen (ascii "laptop") 5, []⟩

theorem audit_of_run_sampleHistory :
    ∃ rows, ((storeMachine .sample).step sampleStore sampleRevocation).tables.audit =
        sampleStore.tables.audit ++ rows ∧
      (sampleStore.tables.SameAccounts
          ((storeMachine .sample).step sampleStore sampleRevocation).tables ∨
        ∃ row ∈ rows, row.event ∈ sampleRevocation.op.eventNames) := by
  have hrun : Run ((storeMachine .sample).restrict fun _ call => call.op.CStrings) freshStore
      sampleHistory sampleStore := by
    refine Run.of_allowed fun _ call hcall => ⟨trivial, ?_⟩
    simp only [sampleHistory, List.mem_cons, List.not_mem_nil, or_false] at hcall
    rcases hcall with rfl | rfl | rfl | rfl
    · exact trivial
    · show 0 ∉ ascii "operator"
      decide
    · show 0 ∉ ascii "operator"
      decide
    · exact trivial
  exact (audit_of_run .sample injOn_sampleHistory hrun List.not_mem_nil rfl).2.2

/-- Seeing a device changes its row and leaves no audit row. -/
theorem sampleSeen_unnamed :
    ((storeMachine .sample).step sampleStore sampleSeen).tables.devices ≠
        sampleStore.tables.devices ∧
      ((storeMachine .sample).step sampleStore sampleSeen).tables.audit =
        sampleStore.tables.audit := by
  decide +kernel

end MldsaAuth.Authd
