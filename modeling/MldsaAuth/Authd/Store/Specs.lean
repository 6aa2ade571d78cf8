/-
# What a successful store operation has done

For each operation that writes, the tables after a success are given in full: the rows
it has written and its audit row. An operation that does not succeed leaves the tables
as they were, whichever statement or commit failed. The proofs follow the statements of
an operation one by one; what is proved here is all that later files know about it.
-/

import MldsaAuth.Authd.Store.Operations

namespace MldsaAuth.Authd

open Foundation Crypto Foundation.Program

variable {prims : DaemonPrimitives} {tables : Tables} {Value Next : Type} [Severity]

/-! ## Statements -/

variable {change : Tables → Option Tables} {status : StoreStatus}

section Statements

variable {goal : Next → Tables → Prop}

theorem yields_query {read : Tables → Value} {next : Value → StoreProgram Next}
    (hnext : Yields tables goal (next (read tables))) : Yields tables goal (query read >>= next) :=
  Yields.statement_bind hnext

variable {next : Unit → StoreProgram Next}

theorem yields_exec {change : Tables → Tables} (hnext : Yields (change tables) goal (next ⟨⟩)) :
    Yields tables goal (exec change >>= next) :=
  Yields.statement_bind hnext

theorem yields_execCount {change : Tables → Tables} {count : Tables → ℕ}
    {next : ℕ → StoreProgram Next} (hnext : Yields (change tables) goal (next (count tables))) :
    Yields tables goal (execCount change count >>= next) :=
  Yields.statement_bind hnext

/-- An insertion, after which the program goes on by whether the constraints allowed it. -/
theorem yields_insert {next : Bool → StoreProgram Next}
    (hinserted : ∀ after, change tables = some after → Yields after goal (next true))
    (hrefused : change tables = none → Yields tables goal (next false)) :
    Yields tables goal (insert change >>= next) := by
  refine Yields.statement_bind ?_
  cases hchange : change tables with
  | none => exact hrefused hchange
  | some after => exact hinserted after hchange

/-- An insertion that the program requires to be allowed. -/
theorem yields_insert_require
    (hinserted : ∀ after, change tables = some after → Yields after goal (next ⟨⟩)) :
    Yields tables goal (insert change >>= fun inserted =>
      Program.require inserted status >>= next) :=
  yields_insert
    (fun after hafter => Yields.require_bind fun _ => hinserted after hafter)
    fun _ => Yields.require_bind fun hfalse => by cases hfalse

end Statements

/-! Where nothing fails, statements are evaluated one after another. -/

variable {after : Tables}

section Evaluation

variable {saved : Option Tables}

theorem query_bind_faultless (read : Tables → Value) (next : Value → StoreProgram Next) :
    (query read >>= next) ⟨tables, saved, []⟩ = next (read tables) ⟨tables, saved, []⟩ := rfl

theorem insert_bind_of_some (hchange : change tables = some after)
    (next : Bool → StoreProgram Next) :
    (insert change >>= next) ⟨tables, saved, []⟩ =
      next true ⟨after, saved, []⟩ := by
  unfold insert
  rw [statement_bind_faultless, hchange]

theorem insert_bind_of_none (hchange : change tables = none) (next : Bool → StoreProgram Next) :
    (insert change >>= next) ⟨tables, saved, []⟩ = next false ⟨tables, saved, []⟩ := by
  unfold insert
  rw [statement_bind_faultless, hchange]

end Evaluation

/-! ## The audit row -/

/-- The head of the audit chain. -/
def Tables.auditHead (tables : Tables) : ℤ × Bytes :=
  match tables.audit.getLast? with
  | none => (0, (Blob.zero storeAuditMacBytes).toList)
  | some row => (row.seq, row.mac)

/-- The tables with one more audit row. -/
def Tables.audited (prims : DaemonPrimitives) (tables : Tables) (event : Bytes)
    (userId handle : Option Bytes) (detail : Bytes) (now : ℤ) : Tables :=
  { tables with
    audit := tables.audit ++
      [{ seq := tables.auditHead.1 + 1
         at_ := now
         event := event
         userId := userId
         handle := handle
         detail := detail
         prevMac := tables.auditHead.2
         mac := (prims.auditMac ((auditMacInput tables.auditHead.2 (tables.auditHead.1 + 1) now
           event (userId.getD []) (handle.getD []) detail).getD [])).toList }] }

theorem atomically_auditHead :
    Atomically tables
      (fun head after => head = tables.auditHead ∧ head.2.length = storeAuditMacBytes ∧
        after = tables)
      auditHead := by
  unfold auditHead
  refine .read_bind rfl ?_
  dsimp only
  cases hlast : tables.audit.getLast? with
  | none =>
    refine .pure ⟨?_, by simp, rfl⟩
    unfold Tables.auditHead
    rw [hlast]
  | some =>
    refine .require_bind fun _ => .require_bind fun hlength =>
      .pure ⟨?_, of_decide_eq_true hlength, rfl⟩
    unfold Tables.auditHead
    rw [hlast]

variable {event detail : Bytes} {userId handle : Option Bytes}

/-- The audit row follows a head with a whole MAC. -/
theorem atomically_auditAppend {now : ℤ} :
    Atomically tables (fun _ after => tables.auditHead.2.length = storeAuditMacBytes ∧
        after = tables.audited prims event userId handle detail now)
      (auditAppend prims event userId handle detail now) := by
  unfold auditAppend
  refine Ends.bind atomically_auditHead (fun _ _ hfailed => hfailed) ?_
  rintro ⟨prevSeq, prevMac⟩ _ ⟨hhead, hlength, rfl⟩
  dsimp only
  cases hinput : auditMacInput prevMac (prevSeq + 1) now event (userId.getD []) (handle.getD [])
      detail with
  | none => exact Atomically.fail
  | some =>
    refine Atomically.statement ⟨hhead ▸ hlength, ?_⟩
    unfold Tables.audited
    rw [← hhead, hinput]
    rfl

theorem yields_auditAppend {now : ℤ} :
    Yields tables (fun _ after => after = tables.audited prims event userId handle detail now)
      (auditAppend prims event userId handle detail now) :=
  atomically_auditAppend.yields.mono fun _ _ => And.right

variable {now : ℤ} {next : Unit → StoreProgram Next}

/-- The audit row is the last thing a transaction writes before it ends. -/
theorem yields_audit {goal : Next → Tables → Prop}
    (hnext : Yields (tables.audited prims event userId handle detail now) goal (next ⟨⟩)) :
    Yields tables goal (auditAppend prims event userId handle detail now >>= next) := by
  refine Yields.bind yields_auditAppend ?_
  rintro _ after rfl
  exact hnext

/-! ## Users -/

namespace Tables

/-- A user was added. -/
def UserAdded (prims : DaemonPrimitives) (userId : Bytes) (role : StoreRole) (now : ℤ)
    (before after : Tables) : Prop :=
  ∃ added, before.insertUser (newUser userId role now) = some added ∧
    after = added.audited prims (ascii "user-add") (some userId) none role.text now

/-- Delete the tokens of a user, if asked to. -/
def dropUserTokens (tables : Tables) (dropTokens : Bool) (userId : Bytes) : Tables :=
  if dropTokens then tables.deleteTokens fun row => row.userId = userId else tables

/-- The status of a user was set, with the tokens dropped where that is part of it. -/
structure StatusSet (prims : DaemonPrimitives) (userId : Bytes) (status : UserStatus)
    («by» : Bytes) (reason : Option Bytes) (dropTokens : Bool) (event : Bytes) (now : ℤ)
    (before after : Tables) : Prop where
  known : ∃ row ∈ before.users, row.userId = userId
  written : after =
    (((before.setUserStatus userId status (if status = .disabled then some now else none)
      (if status = .disabled then reason else none)).dropUserTokens dropTokens userId).audited
        prims event (some userId) none «by» now)

end Tables

variable {role : StoreRole} {userId : Bytes}

theorem yields_addUserLocked :
    Yields tables (fun _ after => Tables.UserAdded prims userId role now tables after)
      (addUserLocked prims userId role now) := by
  unfold addUserLocked
  refine yields_insert_require fun added hadded => ?_
  exact yields_auditAppend.mono fun _ after hafter => ⟨added, hadded, hafter⟩

theorem atomically_storeAddUser :
    Atomically tables (fun _ after => Tables.UserAdded prims userId role now tables after)
      (storeAddUser prims userId role now) :=
  .require_bind fun _ => .transaction (.bind yields_addUserLocked fun _ _ hadded => .commit hadded)

variable {«by» : Bytes} {reason : Option Bytes} {dropTokens : Bool}

theorem atomically_storeSetUserStatus {status : UserStatus} :
    Atomically tables
      (fun _ after => Tables.StatusSet prims userId status «by» reason dropTokens event now tables
        after)
      (storeSetUserStatus prims userId status «by» reason dropTokens event now) := by
  refine .require_bind fun _ => .transaction (yields_execCount (.require_bind fun hchanged => ?_))
  have hknown : ∃ row ∈ tables.users, row.userId = userId := by
    simpa [List.countP_eq_zero] using hchanged
  refine .onlyIf_bind ?_ ?_
  · rintro rfl
    exact yields_exec (yields_audit (.commit ⟨hknown, rfl⟩))
  rintro rfl
  exact yields_audit (.commit ⟨hknown, rfl⟩)

/-! ## Devices and keys -/

namespace Tables

variable (prims)

/-- A device was enrolled with its first key. -/
structure DeviceEnrolled (enrollment : Enrollment) (now : ℤ) (before after : Tables) : Prop where
  fresh : before.activeKeyOf enrollment.handle = none
  unused : before.pkExists enrollment.pk = false
  written : ∃ added keyed, before.insertDevice (newDevice enrollment now) = some added ∧
    added.insertKey enrollment.handle enrollment.pk (fingerprint prims enrollment.pk) now =
      some keyed ∧
    after = keyed.audited prims (ascii "device-enroll") (some enrollment.userId)
      (some enrollment.handle) enrollment.via now

/-- A device was added whose key has the fingerprint of another one and was refused. -/
structure FingerprintClash (enrollment : Enrollment) (now : ℤ) (before after : Tables) : Prop where
  fresh : before.activeKeyOf enrollment.handle = none
  unused : before.pkExists enrollment.pk = false
  written : before.insertDevice (newDevice enrollment now) = some after
  clash : after.insertKey enrollment.handle enrollment.pk (fingerprint prims enrollment.pk)
    now = none

/-- A known handle presented a different key, which left an audit row. -/
structure MismatchNoted (enrollment : Enrollment) (now : ℤ) (before after : Tables) : Prop where
  other : ∃ current, before.activeKeyOf enrollment.handle = some current ∧
    current.pk ≠ enrollment.pk
  written : after = before.audited prims (ascii "enroll-key-mismatch") (some enrollment.userId)
    (some enrollment.handle) (ascii "known handle presented a different key (Req 7)") now

variable {prims}

/-- The handle's active key is the presented one, and its device belongs to the user. -/
structure HoldsKey (tables : Tables) (enrollment : Enrollment) : Prop where
  current : ∃ current, tables.activeKeyOf enrollment.handle = some current ∧
    current.pk = enrollment.pk
  owned : tables.deviceOwnedBy enrollment.handle enrollment.userId = true

variable (prims : DaemonPrimitives) (enrollment : Enrollment) (now : ℤ) (before : Tables) in
/-- What `enroll_device_locked` has found and done. -/
inductive EnrollView : EnrollOutcome → Tables → Prop
  | enrolled {after : Tables} (hwritten : DeviceEnrolled prims enrollment now before after) :
      EnrollView .enrolled after
  | idempotent (hholds : before.HoldsKey enrollment) : EnrollView .idempotent before
  | foreign {current : KeyRow} (hcurrent : before.activeKeyOf enrollment.handle = some current)
      (hsame : current.pk = enrollment.pk)
      (hforeign : before.deviceOwnedBy enrollment.handle enrollment.userId = false) :
      EnrollView .conflict before
  | mismatch {after : Tables} (hwritten : MismatchNoted prims enrollment now before after) :
      EnrollView .conflict after
  | used (hfresh : before.activeKeyOf enrollment.handle = none)
      (hused : before.pkExists enrollment.pk = true) : EnrollView .conflict before
  | barred (hfresh : before.activeKeyOf enrollment.handle = none)
      (hunused : before.pkExists enrollment.pk = false)
      (hbarred : before.insertDevice (newDevice enrollment now) = none) :
      EnrollView .conflict before
  | clash {after : Tables} (hwritten : FingerprintClash prims enrollment now before after) :
      EnrollView .conflict after

end Tables

variable {enrollment : Enrollment}

theorem yields_enrollKnownHandle {current : KeyRow}
    (hcurrent : tables.activeKeyOf enrollment.handle = some current) :
    Yields tables (Tables.EnrollView prims enrollment now tables)
      (enrollKnownHandle prims enrollment current now) := by
  unfold enrollKnownHandle
  split_ifs with hsame
  · refine yields_query (.pure ?_)
    split_ifs with howned
    · exact .idempotent ⟨⟨current, hcurrent, hsame⟩, howned⟩
    exact .foreign hcurrent hsame (Bool.eq_false_iff.mpr howned)
  · exact yields_audit (.pure (.mismatch ⟨⟨current, hcurrent, hsame⟩, rfl⟩))

theorem yields_enrollNewHandle (hfresh : tables.activeKeyOf enrollment.handle = none) :
    Yields tables (Tables.EnrollView prims enrollment now tables)
      (enrollNewHandle prims enrollment now) := by
  unfold enrollNewHandle
  refine yields_query ?_
  split_ifs with hused
  · exact .pure (.used hfresh hused)
  have hused := Bool.eq_false_iff.mpr hused
  refine yields_insert (fun added hadded => ?_) fun hbarred =>
    .pure (.barred hfresh hused hbarred)
  refine yields_insert (fun keyed hkeyed => ?_) fun hclash => ?_
  · exact yields_audit (.pure (.enrolled ⟨hfresh, hused, added, keyed, hadded, hkeyed, rfl⟩))
  · exact .pure (.clash ⟨hfresh, hused, hadded, hclash⟩)

theorem yields_enrollDeviceLocked :
    Yields tables (Tables.EnrollView prims enrollment now tables)
      (enrollDeviceLocked prims enrollment now) := by
  unfold enrollDeviceLocked
  refine yields_query ?_
  split
  · rename_i key hkey
    exact yields_enrollKnownHandle hkey
  rename_i hfresh
  exact yields_enrollNewHandle hfresh

variable {before : Tables} {later : ℤ} {ready : Tables}

namespace Tables

/-- The user of an enrollment was there, or was added. -/
def UserReady (prims : DaemonPrimitives) (userId : Bytes) (role : StoreRole) (now : ℤ)
    (before after : Tables) : Prop :=
  ((∃ row ∈ before.users, row.userId = userId) ∧ after = before) ∨
    UserAdded prims userId role now before after

/-- What a successful `store_enroll_device_ex` has done: nothing if it was idempotent. -/
def EnrolledEx (prims : DaemonPrimitives) (enrollment : Enrollment) (role : StoreRole)
    (now later : ℤ) (before : Tables) (idempotent : Bool) (after : Tables) : Prop :=
  if idempotent then after = before
  else
    ∃ ready, UserReady prims enrollment.userId role now before ready ∧
      DeviceEnrolled prims enrollment later ready after

variable (prims : DaemonPrimitives) (enrollment : Enrollment) (role : StoreRole) (now later : ℤ)
  (before : Tables) in
/-- What a successful `store_enroll_device_ex` has found and done. -/
inductive EnrollExView : Bool → Tables → Prop
  | idempotent (hholds : before.HoldsKey enrollment) : EnrollExView true before
  | enrolled {ready after : Tables}
      (hready : UserReady prims enrollment.userId role now before ready)
      (hwritten : DeviceEnrolled prims enrollment later ready after) : EnrollExView false after

omit [Severity] in
theorem EnrollExView.enrolledEx {idempotent : Bool}
    (hview : EnrollExView prims enrollment role now later before idempotent after) :
    EnrolledEx prims enrollment role now later before idempotent after := by
  cases hview with
  | idempotent => exact rfl
  | enrolled hready hwritten => exact ⟨_, hready, hwritten⟩

omit [Severity] in
/-- Making the user ready touches neither devices nor keys. -/
theorem UserReady.devices (hready : UserReady prims userId role now before ready) :
    ready.devices = before.devices ∧ ready.deviceKeys = before.deviceKeys := by
  rcases hready with ⟨-, rfl⟩ | ⟨added, hadded, rfl⟩
  · exact ⟨rfl, rfl⟩
  obtain rfl := (insertUser_eq_some hadded).2
  exact ⟨rfl, rfl⟩

omit [Severity] in
theorem HoldsKey.of_rows (hholds : ready.HoldsKey enrollment)
    (hdevices : ready.devices = before.devices) (hkeys : ready.deviceKeys = before.deviceKeys) :
    before.HoldsKey enrollment := by
  obtain ⟨hcurrent, howned⟩ := hholds
  unfold activeKeyOf at hcurrent
  unfold deviceOwnedBy deviceOf at howned
  rw [hkeys] at hcurrent
  rw [hdevices] at howned
  exact ⟨hcurrent, howned⟩

end Tables

/-- The enrollment, once the user's row is there. -/
theorem yields_enrollReady {ready : Tables}
    (hready : Tables.UserReady prims enrollment.userId role now tables ready) :
    Yields ready
      (Ending.Settles tables (Tables.EnrollExView prims enrollment role now later tables)
        fun (_ : StoreStatus) after => after = tables)
      (do
        let outcome ← enrollDeviceLocked prims enrollment later
        match outcome with
        | .idempotent => return .rollback true
        | .conflict => .fail .errConflict
        | .enrolled => return .commit false) := by
  refine .bind yields_enrollDeviceLocked fun outcome after hview => ?_
  cases hview with
  | enrolled hwritten => exact .commit (.enrolled hready hwritten)
  | idempotent hholds =>
    exact .rollback (.idempotent (hholds.of_rows hready.devices.1 hready.devices.2))
  | foreign | mismatch | used | barred | clash => exact .fail

theorem atomically_storeEnrollDeviceEx_view :
    Atomically tables (Tables.EnrollExView prims enrollment role now later tables)
      (storeEnrollDeviceEx prims enrollment role now later) := by
  refine .require_bind fun _ => .transaction (yields_query (.onlyIf_bind ?_ ?_))
  · intro _
    exact .bind yields_addUserLocked fun _ _ hadded => yields_enrollReady (.inr hadded)
  intro hknown
  refine yields_enrollReady (.inl ⟨?_, rfl⟩)
  simpa using hknown

theorem atomically_storeEnrollDeviceEx :
    Atomically tables (Tables.EnrolledEx prims enrollment role now later tables)
      (storeEnrollDeviceEx prims enrollment role now later) :=
  atomically_storeEnrollDeviceEx_view.mono fun _ _ hview => hview.enrolledEx

variable (prims : DaemonPrimitives) (enrollment : Enrollment) (now : ℤ) (before : Tables) in
/-- What `store_enroll_device` has found and done, by what it reports. -/
inductive Tables.EnrollDeviceView : Except StoreStatus Unit → Tables → Prop
  | enrolled {after : Tables} (hwritten : DeviceEnrolled prims enrollment now before after) :
      EnrollDeviceView (.ok ⟨⟩) after
  | idempotent (hholds : before.HoldsKey enrollment) : EnrollDeviceView (.ok ⟨⟩) before
  | mismatch {after : Tables} (hwritten : MismatchNoted prims enrollment now before after) :
      EnrollDeviceView (.error .errConflict) after
  | clash {after : Tables} (hwritten : FingerprintClash prims enrollment now before after) :
      EnrollDeviceView (.error .errConflict) after
  | failed (status : StoreStatus) : EnrollDeviceView (.error status) before

theorem ends_storeEnrollDevice :
    Ends tables (Tables.EnrollDeviceView prims enrollment now tables)
      (storeEnrollDevice prims enrollment now) := by
  refine .require_bind (.failed _) fun _ => .transaction ?_ .failed
  refine Yields.bind yields_enrollDeviceLocked fun outcome after hview => ?_
  cases hview with
  | enrolled hwritten => exact .commit (.enrolled hwritten)
  | idempotent hholds => exact .rollback (.idempotent hholds)
  | foreign | used | barred => exact .refuse (.failed _)
  | mismatch hwritten => exact .refuse (.mismatch hwritten)
  | clash hwritten => exact .refuse (.clash hwritten)

/-! ## Rotation and revocation -/

namespace Tables

/-- Delete the tokens of a handle. -/
def deleteHandleTokens (tables : Tables) (handle : Bytes) : Tables :=
  tables.deleteTokens fun row => row.handle = handle

/-- The user of a device. -/
def ownerOf (tables : Tables) (handle : Bytes) : Option Bytes :=
  (tables.deviceOf handle).map DeviceRow.userId

/-- The user that the last audit row names. -/
def auditedUser (tables : Tables) : Option Bytes := tables.audit.getLast?.bind AuditRow.userId

/-- A key took the place of the active one. The audit row names the user of the device unless
that lookup failed. -/
structure KeyRotated (prims : DaemonPrimitives) (rotation : Rotation) (now : ℤ) (current : KeyRow)
    (before after : Tables) : Prop where
  args : (idOk rotation.handle && rotation.hsid.all fun id => id.length == 16) = true
  live : (before.activeUserOf rotation.handle).isSome = true
  replaced : before.activeKeyOf rotation.handle = some current
  different : current.pk ≠ rotation.newPk
  expected : ∀ pk, rotation.expectOldPk = some pk → current.pk = pk
  unused : before.pkExists rotation.newPk = false
  head : before.auditHead.2.length = storeAuditMacBytes
  written : ∃ keyed user,
    (before.supersedeKey current.keyId now rotation.hsid).insertKey rotation.handle rotation.newPk
      (fingerprint prims rotation.newPk) now = some keyed ∧
    after = (if rotation.dropTokens then keyed.deleteHandleTokens rotation.handle
        else keyed).audited prims (ascii "key-rotate") user (some rotation.handle) rotation.detail
      now
  named : ∀ user, after.auditedUser = some user → before.ownerOf rotation.handle = some user

/-- A rotation could be applied, but the lookup of the user ended the transaction: the audit row
was written on its own. -/
structure StrayRotation (prims : DaemonPrimitives) (rotation : Rotation) (now : ℤ)
    (before after : Tables) : Prop where
  ended : ∃ rest, Severity.ends rest = true
  could : ∃ current applied, KeyRotated prims rotation now current before applied
  written : after = before.audited prims (ascii "key-rotate") none (some rotation.handle)
    rotation.detail now

variable (prims : DaemonPrimitives) (rotation : Rotation) (now : ℤ) (before : Tables) in
/-- What `store_rotate_key` has done, by what it reports. -/
inductive RotationView : Except StoreStatus (ℤ × ℕ) → Tables → Prop
  | rotated {dropped : ℕ} {current : KeyRow} {after : Tables}
      (hrotated : KeyRotated prims rotation now current before after) :
      RotationView (.ok (now, dropped)) after
  | failed (status : StoreStatus) : RotationView (.error status) before
  | stray {status : StoreStatus} {after : Tables}
      (hstray : StrayRotation prims rotation now before after) :
      RotationView (.error status) after

/-- A device was revoked with its key and its tokens. -/
structure DeviceRevoked (prims : DaemonPrimitives) (handle «by» : Bytes) (reason : Option Bytes)
    (now : ℤ) (before after : Tables) : Prop where
  known : ∃ row ∈ before.devices, row.handle = handle
  written : after =
    (((before.revokeDevice handle «by» reason now).revokeKey handle now).deleteHandleTokens
      handle).audited prims (ascii "device-revoke") none (some handle) «by» now

end Tables

variable {handle : Bytes}

theorem ends_userOfHandle :
    Ends tables (fun outcome after => after = tables ∧
      ∀ user, outcome = .ok user → tables.ownerOf handle = some user) (userOfHandle handle) := by
  unfold userOfHandle
  refine .statement_bind ⟨rfl, fun _ huser => by cases huser⟩ ?_
  dsimp only
  cases hdevice : tables.deviceOf handle with
  | none => exact .fail ⟨rfl, fun _ huser => by cases huser⟩
  | some row =>
    refine .require_bind ⟨rfl, fun _ huser => by cases huser⟩ fun _ => .pure ⟨rfl, ?_⟩
    rintro _ ⟨⟩
    exact congrArg (Option.map DeviceRow.userId) hdevice

theorem atomically_deleteTokensWhere {condition : TokenRow → Bool} :
    Atomically tables (fun _ after => after = tables.deleteTokens condition)
      (deleteTokensWhere condition) := by
  unfold deleteTokensWhere execCount
  exact .statement rfl

theorem yields_dropHandleTokens :
    Yields tables
      (fun _ after => after = if dropTokens then tables.deleteHandleTokens handle else tables)
      (dropHandleTokens handle dropTokens) := by
  unfold dropHandleTokens
  split
  · exact atomically_deleteTokensWhere.yields
  · exact .pure rfl

section Rotation

variable {rotation : Rotation}

/-- What is left to be done when the key is replaced is the audit row. -/
theorem yields_replaceKey
    (hargs : (idOk rotation.handle && rotation.hsid.all fun id => id.length == 16) = true) :
    Yields tables
      (fun _ middle => (middle.audit = tables.audit ∧ middle.devices = tables.devices) ∧
        ∃ current, ∀ user, tables.auditHead.2.length = storeAuditMacBytes →
          (∀ name, user = some name → tables.ownerOf rotation.handle = some name) →
          Tables.KeyRotated prims rotation now current tables
            (middle.audited prims (ascii "key-rotate") user (some rotation.handle) rotation.detail
              now))
      (replaceKey prims rotation now) := by
  refine yields_query (.require_bind fun hlive => yields_query ?_)
  split
  · exact .fail
  rename_i current hcurrent
  refine .require_bind fun hdifferent => .require_bind fun hexpected =>
    yields_query (.require_bind fun hunused => yields_exec ?_)
  refine yields_insert_require fun keyed hkeyed => yields_dropHandleTokens.mono ?_
  rintro _ middle rfl
  refine ⟨?_, current, fun user hhead hnamed => ⟨hargs, hlive, hcurrent, by simpa using hdifferent,
    ?_, by simpa using hunused, hhead, ⟨keyed, user, hkeyed, rfl⟩, ?_⟩⟩
  · obtain ⟨-, -, rfl⟩ := Tables.insertKey_eq_some hkeyed
    split <;> exact ⟨rfl, rfl⟩
  · intro pk hpk
    simpa [hpk] using hexpected
  · simpa [Tables.auditedUser, Tables.audited] using hnamed

/-- A rotation is applied as a whole or not at all, unless the lookup of the user ends the
transaction. -/
theorem ends_storeRotateKey :
    Ends tables (Tables.RotationView prims rotation now tables)
      (storeRotateKey prims rotation now) := by
  refine .require_bind (.failed _) fun hargs => .transaction_attempt .failed
    (yields_replaceKey hargs) (fun _ => ends_userOfHandle) ?_ ?_
  · rintro dropped middle outcome _ ⟨⟨haudit, hdevices⟩, current, hrotated⟩ ⟨rfl, hfound⟩
    refine Yields.bind atomically_auditAppend.yields ?_
    rintro _ _ ⟨hhead, rfl⟩
    refine .commit (.rotated (hrotated _ ?_ fun name hname => ?_))
    · unfold Tables.auditHead at hhead ⊢
      rwa [haudit] at hhead
    · unfold Tables.ownerOf Tables.deviceOf at hfound ⊢
      rw [← hdevices]
      exact hfound name (by cases outcome <;> simp_all [Except.toOption])
  · -- The transaction was ended: what is written now stays, and the commit fails.
    rintro ahead dropped middle status hends ⟨-, current, hrotated⟩
    refine Ends.bind atomically_auditAppend ?_ ?_
    · rintro status _ rfl
      exact ⟨fun _ hvalue => (by cases hvalue), .failed⟩
    · rintro _ _ ⟨hhead, rfl⟩
      refine .pure ⟨fun _ hvalue => (by cases hvalue), fun _ => .stray ⟨⟨ahead, hends⟩,
        ⟨current, _, hrotated none hhead fun _ hname => (by cases hname)⟩, rfl⟩⟩

end Rotation

theorem yields_revokeDeviceLocked :
    Yields tables (fun _ after => Tables.DeviceRevoked prims handle «by» reason now tables after)
      (revokeDeviceLocked prims handle «by» reason now) := by
  refine yields_execCount (.require_bind fun hchanged => yields_exec (yields_exec ?_))
  have hknown : ∃ row ∈ tables.devices, row.handle = handle := by
    simpa [List.countP_eq_zero] using hchanged
  exact yields_auditAppend.mono fun _ _ hafter => ⟨hknown, hafter⟩

theorem atomically_storeRevokeDevice :
    Atomically tables
      (fun _ after => Tables.DeviceRevoked prims handle «by» reason now tables after)
      (storeRevokeDevice prims handle «by» reason now) :=
  .require_bind fun _ => .transaction
    (.bind yields_revokeDeviceLocked fun _ _ hrevoked => .commit hrevoked)

theorem atomically_storeTouchLastSeen (handle : Bytes) (now : ℤ) :
    Atomically tables (fun _ after => after = tables.touchDevice handle now)
      (storeTouchLastSeen handle now) :=
  .require_bind fun _ => .statement rfl

/-! ## Tokens and login codes -/

theorem atomically_storeAddToken (row : TokenRow) :
    Atomically tables
      (fun _ after => (idOk row.userId && idOk row.handle) = true ∧
        tables.insertToken row = some after)
      (storeAddToken row) :=
  .require_bind fun hids => .transaction
    (yields_insert_require fun _ hinserted => .commit ⟨hids, hinserted⟩)

variable (tokenHash : StoreHash) (now : ℤ) (idleTtl : ℕ) (before : Tables) in
/-- What a verification has found and done: a token that verifies has its idle window slid. -/
inductive Tables.TokenVerified : TokenVerdict × Option TokenInfo → Tables → Prop
  | unknown (hnone : before.tokenJoin tokenHash = none) : TokenVerified (.unknown, none) before
  | refused {join : TokenJoin} (hjoin : before.tokenJoin tokenHash = some join)
      (hverdict : join.verdict now ≠ .ok) :
      TokenVerified (join.verdict now, some (join.info join.token.idleExpiresAt)) before
  | slid {join : TokenJoin} {idle : ℤ} (hjoin : before.tokenJoin tokenHash = some join)
      (hverdict : join.verdict now = .ok)
      (hidle : idle = if 0 < idleTtl then min (now + idleTtl) join.token.expiresAt
        else join.token.idleExpiresAt) :
      TokenVerified (.ok, some (join.info idle)) (before.slideToken tokenHash now idle)

variable {tokenHash : StoreHash} {idleTtl : ℕ}

omit [Severity] in
/-- A token that verified is there, is good, and its idle window was slid. -/
theorem Tables.TokenVerified.slid_of_ok {result : TokenVerdict × Option TokenInfo}
    (hverified : TokenVerified tokenHash now idleTtl before result after) (hok : result.1 = .ok) :
    ∃ join idle, before.tokenJoin tokenHash = some join ∧ join.verdict now = .ok ∧
      (idle = if 0 < idleTtl then min (now + idleTtl) join.token.expiresAt
        else join.token.idleExpiresAt) ∧
      result.2 = some (join.info idle) ∧ after = before.slideToken tokenHash now idle := by
  cases hverified with
  | unknown => cases hok
  | refused _ hverdict => exact absurd hok hverdict
  | slid hjoin hverdict hidle => exact ⟨_, _, hjoin, hverdict, hidle, rfl, rfl⟩

theorem atomically_storeVerifyToken :
    Atomically tables (Tables.TokenVerified tokenHash now idleTtl tables)
      (storeVerifyToken tokenHash now idleTtl) := by
  refine .read_bind rfl ?_
  dsimp only
  split
  · rename_i hnone
    exact .pure (.unknown hnone)
  rename_i join hjoin
  split
  · rename_i hverdict
    exact .statement_return (.slid hjoin hverdict rfl)
  rename_i hverdict
  exact .pure (.refused hjoin hverdict)

theorem atomically_storeDeleteToken :
    Atomically tables
      (fun _ after => after = tables.deleteTokens fun row => row.tokenHash = tokenHash)
      (storeDeleteToken tokenHash) :=
  atomically_deleteTokensWhere

theorem atomically_storeDeleteTokensForHandle : Atomically tables (fun _ after =>
        after = tables.deleteTokens fun row => row.handle = handle && row.userId = userId)
      (storeDeleteTokensForHandle userId handle) :=
  .require_bind fun _ => atomically_deleteTokensWhere

theorem atomically_storeDeleteTokensForUser :
    Atomically tables (fun _ after => after = tables.deleteTokens fun row => row.userId = userId)
      (storeDeleteTokensForUser userId) :=
  .require_bind fun _ => atomically_deleteTokensWhere

theorem atomically_storeAddLoginCode (row : LoginCodeRow) :
    Atomically tables (fun _ after => tables.insertLoginCode row = some after)
      (storeAddLoginCode row) :=
  .require_bind fun _ => .transaction (yields_insert_require fun _ hinserted => .commit hinserted)

variable (codeHash stateHash : StoreHash) (now : ℤ) (before : Tables) in
/-- What a consumption of a login code has found and done: a code that is good is marked used,
and any other is left as it is. -/
inductive Tables.CodeConsumed : CodeVerdict × Bytes × Bytes → Tables → Prop
  | refused {verdict : CodeVerdict} {userId handle : Bytes} (hverdict : verdict ≠ .ok) :
      CodeConsumed (verdict, userId, handle) before
  | consumed {row : LoginCodeRow}
      (hrow : (before.loginCodes.find? fun row => row.codeHash = codeHash) = some row)
      (hunused : row.usedAt = none) (hfresh : now < row.expiresAt)
      (hstate : row.stateHash = stateHash) :
      CodeConsumed (.ok, row.userId, row.handle) (before.useLoginCode codeHash now)

theorem atomically_storeConsumeLoginCodeEx (codeHash stateHash : StoreHash) (now : ℤ) :
    Atomically tables (Tables.CodeConsumed codeHash stateHash now tables)
      (storeConsumeLoginCodeEx codeHash stateHash now) := by
  refine .transaction (yields_query ?_)
  split
  · exact .rollback (.refused CodeVerdict.noConfusion)
  rename_i row hrow
  refine .require_bind fun _ => .require_bind fun _ => ?_
  split
  · exact .rollback (.refused CodeVerdict.noConfusion)
  split
  · exact .rollback (.refused CodeVerdict.noConfusion)
  split
  · exact .rollback (.refused CodeVerdict.noConfusion)
  rename_i hused hexpired hstate
  refine yields_exec (.commit (.consumed hrow ?_ (not_le.mp hexpired) (not_not.mp hstate)))
  simpa using hused

/-! ## Recovery -/

variable {lockSeconds : ℤ} {threshold : ℕ}

namespace Tables

/-- Recovery codes inserted one after another. -/
def insertRecoveryCodes (tables : Tables) (userId : Bytes) (now : ℤ) (pwhashStrs : List Bytes) :
    Tables :=
  pwhashStrs.foldl (fun reached pwhashStr => reached.insertRecoveryCode userId pwhashStr now) tables

/-- The recovery codes of a user were replaced. -/
structure CodesReplaced (prims : DaemonPrimitives) (userId : Bytes) (pwhashStrs : List Bytes)
    (now : ℤ) (before after : Tables) : Prop where
  known : ∃ row ∈ before.users, row.userId = userId
  written : after =
    ((before.supersedeRecoveryCodes userId now).insertRecoveryCodes userId now
      pwhashStrs).audited prims (ascii "recovery-issue") (some userId) none
        (ascii "issued " ++ decimal pwhashStrs.length) now

variable (prims : DaemonPrimitives) (userId : Bytes) (now : ℤ) in
/-- Active devices of a user were revoked one after another, until none was left or the guard
ran out. -/
inductive DevicesRevoked : ℕ → Tables → Tables → Prop
  | exhausted {before : Tables} : DevicesRevoked 0 before before
  | done {guard : ℕ} {before : Tables}
      (hnone : (before.devices.find? fun row => row.userId = userId && row.status = .active) =
        none) : DevicesRevoked (guard + 1) before before
  | next {guard : ℕ} {before middle after : Tables} {row : DeviceRow}
      (hrow : (before.devices.find? fun row => row.userId = userId && row.status = .active) =
        some row)
      (hrevoked : DeviceRevoked prims row.handle (ascii "recovery")
        (some (ascii "recovery revoke=all")) now before middle)
      (hrest : DevicesRevoked guard middle after) : DevicesRevoked (guard + 1) before after

/-- A recovery code was spent for an enrollment ticket, and the user's devices were revoked if
that was asked for. -/
structure CodeSpent (prims : DaemonPrimitives) (codeId : ℕ) (userId : Bytes)
    (ticketHash : StoreHash) (now expiresAt : ℤ) (revokeAll : Bool) (before after : Tables) :
    Prop where
  known : ∃ row ∈ before.recoveryCodes,
    row.codeId = codeId ∧ row.usedAt = none ∧ row.userId = userId
  written : ∃ ticketed revoked,
    ((before.spendRecoveryCode codeId userId now).setRecovery userId (fun _ => 0)
      fun _ => 0).insertTicket
        { ticketHash := ticketHash
          userId := userId
          issuedAt := now
          expiresAt := expiresAt
          usedAt := none } = some ticketed ∧
    (if revokeAll then DevicesRevoked prims userId now 1024 ticketed revoked
      else revoked = ticketed) ∧
    after = revoked.audited prims (ascii "recovery-use") (some userId) none (ascii "ok") now

/-- A failed recovery was counted, and the user was locked if that was one too many. -/
def FailureNoted (prims : DaemonPrimitives) (userId : Bytes) (now : ℤ) (lockSeconds : ℤ)
    (before : Tables) (locked : Bool) (after : Tables) : Prop :=
  if locked then
    after = ((before.setRecovery userId (· + 1) id).setRecovery userId (fun _ => 0)
      fun _ => now + lockSeconds).audited prims (ascii "recovery-locked") (some userId) none
        (ascii "five failures (" ++ [0xc2, 0xa7] ++ ascii "10.3)") now
  else
    after = (before.setRecovery userId (· + 1) id).audited prims (ascii "recovery-use")
      (some userId) none (ascii "invalid") now

variable (prims : DaemonPrimitives) (userId : Bytes) (now : ℤ) (threshold : ℕ) (lockSeconds : ℤ)
  (before : Tables) in
/-- What a successful `store_recovery_note_failure` has found and done: the failure is counted,
or it is one too many. -/
inductive FailureView : Bool → Tables → Prop
  | counted {user : UserRow} {after : Tables} (huser : before.userOf userId = some user)
      (hbelow : user.recoveryFailCount + 1 < threshold)
      (hnoted : FailureNoted prims userId now lockSeconds before false after) :
      FailureView false after
  | locked {user : UserRow} {after : Tables} (huser : before.userOf userId = some user)
      (hreached : threshold ≤ user.recoveryFailCount + 1)
      (hnoted : FailureNoted prims userId now lockSeconds before true after) :
      FailureView true after

omit [Severity] in
theorem FailureView.noted {locked : Bool}
    (hview : FailureView prims userId now threshold lockSeconds before locked after) :
    FailureNoted prims userId now lockSeconds before locked after := by
  cases hview with
  | counted _ _ hnoted => exact hnoted
  | locked _ _ hnoted => exact hnoted

omit [Severity] in
/-- The row of a user after its failure count and its lock were set. -/
theorem userOf_setRecovery (tables : Tables) (userId other : Bytes) (failures : ℕ → ℕ)
    (lockedUntil : ℤ → ℤ) :
    (tables.setRecovery userId failures lockedUntil).userOf other =
      (tables.userOf other).map fun row =>
        if row.userId = userId then
          { row with
            recoveryFailCount := failures row.recoveryFailCount
            recoveryLockedUntil := lockedUntil row.recoveryLockedUntil }
        else row := by
  refine (Rows.find?_updateWhere ?_).trans ?_
  · exact fun _ => rfl
  simp only [decide_eq_true_eq]
  rfl

end Tables

variable {pwhashStrs : List Bytes}

theorem yields_insertRecoveryCodes :
    Yields tables (fun _ after => after = tables.insertRecoveryCodes userId now pwhashStrs)
      (insertRecoveryCodes userId now pwhashStrs) := by
  induction pwhashStrs generalizing tables with
  | nil => exact .pure rfl
  | cons pwhashStr rest ih => exact yields_exec ih

theorem atomically_storeRecoveryReplace :
    Atomically tables
      (fun _ after => Tables.CodesReplaced prims userId pwhashStrs now tables after)
      (storeRecoveryReplace prims userId pwhashStrs now) := by
  refine .require_bind fun _ => .transaction (yields_query (.require_bind fun hknown =>
    yields_execCount ?_))
  refine .bind yields_insertRecoveryCodes fun _ after hafter => ?_
  subst hafter
  exact yields_audit (.commit ⟨by simpa using hknown, rfl⟩)

theorem yields_revokeAllDevices {guard : ℕ} :
    Yields tables (fun _ after => Tables.DevicesRevoked prims userId now guard tables after)
      (revokeAllDevices prims userId now guard) := by
  induction guard generalizing tables with
  | zero => exact .pure .exhausted
  | succ guard ih =>
    refine yields_query ?_
    split
    · rename_i hnone
      exact .pure (.done hnone)
    rename_i row hrow
    refine .require_bind fun _ =>
      .bind yields_revokeDeviceLocked fun _ middle hrevoked =>
        .bind ih fun _ after hrest => .pure (.next hrow hrevoked hrest)

variable {revokeAll : Bool}

theorem yields_revokeDevicesIf : Yields tables (fun _ after =>
        if revokeAll then Tables.DevicesRevoked prims userId now 1024 tables after
        else after = tables)
      (revokeDevicesIf prims userId now revokeAll) := by
  cases revokeAll with
  | true => exact yields_revokeAllDevices
  | false => exact .pure rfl

variable {ticketHash : StoreHash}

theorem atomically_storeRecoveryConsumeEx {codeId : ℕ} {expiresAt : ℤ} :
    Atomically tables (fun _ after =>
        Tables.CodeSpent prims codeId userId ticketHash now expiresAt revokeAll tables after)
      (storeRecoveryConsumeEx prims codeId userId ticketHash now expiresAt revokeAll) := by
  refine .require_bind fun _ => .transaction (yields_execCount (.require_bind fun hspent =>
    yields_exec (yields_insert_require fun ticketed hticketed => ?_)))
  refine .bind yields_revokeDevicesIf fun _ revoked hrevoked => ?_
  refine yields_audit (.commit ⟨?_, ticketed, revoked, hticketed, hrevoked, rfl⟩)
  simpa [List.countP_eq_zero, and_assoc] using hspent

theorem atomically_storeRecoveryNoteFailure_view :
    Atomically tables (Tables.FailureView prims userId now threshold lockSeconds tables)
      (storeRecoveryNoteFailure prims userId now threshold lockSeconds) := by
  refine .require_bind fun _ => .transaction (yields_execCount (.require_bind fun _ =>
    yields_query ?_))
  split
  · exact .fail
  rename_i row hrow
  obtain ⟨user, huser, rfl⟩ : ∃ user, tables.userOf userId = some user ∧
      { user with recoveryFailCount := user.recoveryFailCount + 1 } = row := by
    rw [Tables.userOf_setRecovery, Option.map_eq_some_iff] at hrow
    obtain ⟨user, huser, hrow⟩ := hrow
    have hid : user.userId = userId := by simpa using List.find?_some huser
    rw [if_pos hid] at hrow
    exact ⟨user, huser, hrow⟩
  split_ifs with hreached
  · refine .bind (yields_exec yields_auditAppend) fun _ after hafter => ?_
    exact .commit (.locked huser hreached hafter)
  exact yields_audit (.commit (.counted huser (not_le.mp hreached) rfl))

theorem atomically_storeRecoveryNoteFailure :
    Atomically tables (Tables.FailureNoted prims userId now lockSeconds tables)
      (storeRecoveryNoteFailure prims userId now threshold lockSeconds) :=
  atomically_storeRecoveryNoteFailure_view.mono fun _ _ hview => hview.noted

/-! ## Enrollment with a ticket, and the sweep -/

variable {pk : SigPublicKey} {label : Option Bytes}

namespace Tables

/-- The enrollment a ticket is redeemed for. -/
def ticketEnrollment (userId handle : Bytes) (pk : SigPublicKey) (label : Option Bytes) :
    Enrollment where
  handle := handle
  userId := userId
  pk := pk
  via := ascii "recovery"
  «by» := ascii "recovery"
  label := label

/-- A ticket was spent and its user's new device enrolled, or the device was there already and
nothing was done. -/
def TicketRedeemed (prims : DaemonPrimitives) (ticketHash : StoreHash) (userId handle : Bytes)
    (pk : SigPublicKey) (label : Option Bytes) (now : ℤ) (before after : Tables) : Prop :=
  after = before ∨
    (∃ user, before.userOf userId = some user ∧ user.status = .active) ∧
      DeviceEnrolled prims (ticketEnrollment userId handle pk label) now
        (before.spendTicket ticketHash now) after

/-- The ticket is there, unused and unexpired, and its user is active. -/
structure TicketGood (tables : Tables) (ticketHash : StoreHash) (userId : Bytes) (now : ℤ) :
    Prop where
  ticket : ∃ ticket ∈ tables.enrollTickets, ticket.ticketHash = ticketHash ∧
    ticket.usedAt = none ∧ now < ticket.expiresAt ∧ ticket.userId = userId
  user : ∃ user, tables.userOf userId = some user ∧ user.status = .active

variable (prims : DaemonPrimitives) (ticketHash : StoreHash) (userId handle : Bytes)
  (pk : SigPublicKey) (label : Option Bytes) (now : ℤ) (before : Tables) in
/-- What a successful `store_enroll_via_ticket` has found and done. -/
inductive TicketView : Tables → Prop
  | idempotent (hgood : before.TicketGood ticketHash userId now)
      (hholds : before.HoldsKey (ticketEnrollment userId handle pk label)) : TicketView before
  | enrolled {after : Tables} (hgood : before.TicketGood ticketHash userId now)
      (hwritten : DeviceEnrolled prims (ticketEnrollment userId handle pk label) now
        (before.spendTicket ticketHash now) after) : TicketView after

omit [Severity] in
theorem TicketView.redeemed
    (hview : TicketView prims ticketHash userId handle pk label now before after) :
    TicketRedeemed prims ticketHash userId handle pk label now before after := by
  cases hview with
  | idempotent => exact .inl rfl
  | enrolled hgood hwritten => exact .inr ⟨hgood.user, hwritten⟩

/-- What has expired was deleted. -/
def swept (tables : Tables) (now : ℤ) : Tables :=
  ((tables.deleteTokens fun row => row.expiresAt ≤ now || row.idleExpiresAt ≤ now).sweepLoginCodes
    now).sweepTickets now

end Tables

variable {expectUser : Bytes}

theorem atomically_storeEnrollViaTicket_view : Atomically tables (fun _ after =>
        Tables.TicketView prims ticketHash expectUser handle pk label now tables after)
      (storeEnrollViaTicket prims ticketHash expectUser handle pk label now) := by
  refine .require_bind fun _ => .transaction (yields_query ?_)
  split
  · exact .fail
  rename_i ticket hticket
  refine .require_bind fun _ => .require_bind fun hexpect => yields_query ?_
  obtain rfl := of_decide_eq_true hexpect
  split
  · exact .fail
  rename_i user huser
  refine .require_bind fun hactive => yields_execCount (.require_bind fun _ => ?_)
  have hgood : tables.TicketGood ticketHash ticket.userId now := by
    refine ⟨⟨ticket, List.mem_of_find?_eq_some hticket, ?_⟩, user, huser, of_decide_eq_true hactive⟩
    have hmeets := List.find?_some hticket
    simp only [Bool.and_eq_true, decide_eq_true_eq, Option.isNone_iff_eq_none] at hmeets
    exact ⟨hmeets.1.1, hmeets.1.2, hmeets.2, rfl⟩
  refine .bind yields_enrollDeviceLocked fun outcome after hview => ?_
  cases hview with
  | enrolled hwritten => exact .commit (.enrolled hgood hwritten)
  | idempotent hholds => exact .rollback (.idempotent hgood (hholds.of_rows rfl rfl))
  | foreign => exact .fail
  | mismatch => exact .fail
  | used => exact .fail
  | barred => exact .fail
  | clash => exact .fail

theorem atomically_storeEnrollViaTicket : Atomically tables (fun _ after =>
        Tables.TicketRedeemed prims ticketHash expectUser handle pk label now tables after)
      (storeEnrollViaTicket prims ticketHash expectUser handle pk label now) :=
  atomically_storeEnrollViaTicket_view.mono fun _ _ hview => hview.redeemed

theorem atomically_storeSweep (now : ℤ) :
    Atomically tables (fun _ after => after = tables.swept now) (storeSweep now) := by
  refine .transaction (.bind atomically_deleteTokensWhere.yields fun _ after hafter => ?_)
  subst hafter
  exact yields_execCount (yields_execCount (.commit rfl))

/-! ## Reading -/

theorem atomically_storeGetUser :
    Atomically tables
      (fun value after => after = tables ∧
        ∃ row, tables.userOf userId = some row ∧ value = (row.role, row.status))
      (storeGetUser userId) := by
  refine .require_bind fun _ => .read_bind rfl ?_
  dsimp only
  split
  · exact .fail
  rename_i row hrow
  exact .pure ⟨rfl, row, hrow, rfl⟩

theorem atomically_storeLookupActive (handle : Bytes) :
    Atomically tables
      (fun key after => after = tables ∧ tables.lookupActive handle = some key)
      (storeLookupActive handle) := by
  refine .require_bind fun _ => .read_bind rfl ?_
  dsimp only
  split
  · exact .fail
  rename_i key hkey
  exact .require_bind fun _ => .pure ⟨rfl, hkey⟩

/-- A program that leaves the tables as they are. -/
def Reads (program : StoreProgram Value) : Prop :=
  ∀ tables, Atomically tables (fun _ after => after = tables) program

variable {read : Tables → Value}

theorem reads_query {next : Value → StoreProgram Next}
    (hnext : ∀ value, Reads (next value)) : Reads (query read >>= next) :=
  fun tables => .read_bind rfl (hnext _ tables)

theorem reads_require {condition : Bool}
    (hnext : Reads (next ⟨⟩)) : Reads (Program.require condition status >>= next) :=
  fun tables => .require_bind fun _ => hnext tables

theorem reads_pure {value : Value} : Reads (pure value) := fun _ => .pure rfl

theorem reads_fail : Reads (.fail status : StoreProgram Value) :=
  fun _ => .fail

theorem reads_storeActiveKeyAge (handle : Bytes) : Reads (storeActiveKeyAge handle) := by
  refine reads_require (reads_query fun found => ?_)
  cases found with
  | none => exact reads_fail
  | some => exact reads_pure

theorem reads_storeHandleLastKey : Reads (storeHandleLastKey handle) := by
  refine reads_require (reads_query fun found => ?_)
  cases found with
  | none => exact reads_fail
  | some => exact reads_pure

theorem reads_storeRecoveryLockState : Reads (storeRecoveryLockState userId now) := by
  refine reads_require (reads_query fun found => ?_)
  cases found with
  | none => exact reads_fail
  | some => exact reads_pure

theorem reads_storeListUsers : Reads storeListUsers :=
  reads_query fun _ => reads_require reads_pure

theorem reads_storeListDevices : Reads (storeListDevices userId) :=
  reads_require (reads_query fun _ => reads_require reads_pure)

theorem atomically_query : Atomically tables (fun _ after => after = tables) (query read) := by
  unfold query
  exact .statement rfl

theorem reads_storeListUnusedRecoveryCodes : Reads (storeListUnusedRecoveryCodes userId) :=
  reads_require fun _ => atomically_query

theorem reads_storeAuditTail {count : ℕ} : Reads (storeAuditTail count) :=
  reads_require fun _ => atomically_query

end MldsaAuth.Authd
