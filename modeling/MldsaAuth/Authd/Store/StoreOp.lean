/-
# The mutations of the store

A call of any operation that writes is one value here, together with the program that
runs it and with what it has done when it reports success. From this follows what
transactions are for: wherever a statement or the commit fails, a call is applied as a
whole or not at all, and no transaction stays open. Two operations are exceptions.
`store_rotate_key` goes on when it cannot look up the user for its audit row: the row then
names nobody, or, if the failure ended the transaction, is all that is written.
`store_enroll_device` commits on a refusal, for the sake of the audit row of a key mismatch;
it thereby also keeps the device row of an enrollment whose key row was refused.
-/

import MldsaAuth.Authd.Store.Specs
import MldsaAuth.Foundation.Course
import MldsaAuth.Foundation.Machine

namespace MldsaAuth.Authd

open Foundation Crypto Foundation.Program Tables

/-- A call of an operation that writes, with the readings of the wall clock it takes. -/
inductive StoreOp where
  | addUser (userId : Bytes) (role : StoreRole) (now : ℤ)
  | disableUser (userId «by» : Bytes) (reason : Option Bytes) (now : ℤ)
  | enableUser (userId «by» : Bytes) (now : ℤ)
  | enrollDevice (enrollment : Enrollment) (now : ℤ)
  | enrollDeviceEx (enrollment : Enrollment) (role : StoreRole) (now later : ℤ)
  | enrollViaTicket (ticketHash : StoreHash) (expectUser handle : Bytes) (pk : SigPublicKey)
      (label : Option Bytes) (now : ℤ)
  | rotateKey (rotation : Rotation) (now : ℤ)
  | revokeDevice (handle «by» : Bytes) (reason : Option Bytes) (now : ℤ)
  | touchLastSeen (handle : Bytes) (now : ℤ)
  | addToken (row : TokenRow)
  | verifyToken (tokenHash : StoreHash) (now : ℤ) (idleTtl : ℕ)
  | deleteToken (tokenHash : StoreHash)
  | deleteTokensForHandle (userId handle : Bytes)
  | deleteTokensForUser (userId : Bytes)
  | addLoginCode (row : LoginCodeRow)
  | consumeLoginCodeEx (codeHash stateHash : StoreHash) (now : ℤ)
  | recoveryReplace (userId : Bytes) (pwhashStrs : List Bytes) (now : ℤ)
  | recoveryConsumeEx (codeId : ℕ) (userId : Bytes) (ticketHash : StoreHash)
      (now expiresAt : ℤ) (revokeAll : Bool)
  | recoveryNoteFailure (userId : Bytes) (now : ℤ) (threshold : ℕ) (lockSeconds : ℤ)
  | sweep (now : ℤ)
deriving DecidableEq

variable {tables : Tables} {op : StoreOp}

namespace StoreOp

variable (prims : DaemonPrimitives) [Severity]

/-- Run a call for its effect and its status. -/
def run : StoreOp → StoreProgram Unit
  | addUser userId role now => storeAddUser prims userId role now
  | disableUser userId «by» reason now => storeDisableUser prims userId «by» reason now
  | enableUser userId «by» now => storeEnableUser prims userId «by» now
  | enrollDevice enrollment now => storeEnrollDevice prims enrollment now
  | enrollDeviceEx enrollment role now later =>
    (storeEnrollDeviceEx prims enrollment role now later).ignoring
  | enrollViaTicket ticketHash expectUser handle pk label now =>
    storeEnrollViaTicket prims ticketHash expectUser handle pk label now
  | rotateKey rotation now => (storeRotateKey prims rotation now).ignoring
  | revokeDevice handle «by» reason now => storeRevokeDevice prims handle «by» reason now
  | touchLastSeen handle now => storeTouchLastSeen handle now
  | addToken row => storeAddToken row
  | verifyToken tokenHash now idleTtl => (storeVerifyToken tokenHash now idleTtl).ignoring
  | deleteToken tokenHash => (storeDeleteToken tokenHash).ignoring
  | deleteTokensForHandle userId handle => (storeDeleteTokensForHandle userId handle).ignoring
  | deleteTokensForUser userId => (storeDeleteTokensForUser userId).ignoring
  | addLoginCode row => storeAddLoginCode row
  | consumeLoginCodeEx codeHash stateHash now =>
    (storeConsumeLoginCodeEx codeHash stateHash now).ignoring
  | recoveryReplace userId pwhashStrs now =>
    (storeRecoveryReplace prims userId pwhashStrs now).ignoring
  | recoveryConsumeEx codeId userId ticketHash now expiresAt revokeAll =>
    (storeRecoveryConsumeEx prims codeId userId ticketHash now expiresAt revokeAll).ignoring
  | recoveryNoteFailure userId now threshold lockSeconds =>
    (storeRecoveryNoteFailure prims userId now threshold lockSeconds).ignoring
  | sweep now => (storeSweep now).ignoring

open Tables in
/-- What a call that reports success has done: all its rows and its audit row. -/
def Applied : StoreOp → Tables → Tables → Prop
  | addUser userId role now, before, after => UserAdded prims userId role now before after
  | disableUser userId «by» reason now, before, after =>
    StatusSet prims userId .disabled «by» reason true (ascii "user-disable") now before after
  | enableUser userId «by» now, before, after =>
    StatusSet prims userId .active «by» none false (ascii "user-enable") now before after
  | enrollDevice enrollment now, before, after =>
    EnrollDeviceView prims enrollment now before (.ok ⟨⟩) after
  | enrollDeviceEx enrollment role now later, before, after =>
    ∃ idempotent, EnrollExView prims enrollment role now later before idempotent after
  | enrollViaTicket ticketHash expectUser handle pk label now, before, after =>
    TicketView prims ticketHash expectUser handle pk label now before after
  | rotateKey rotation now, before, after =>
    ∃ current, KeyRotated prims rotation now current before after
  | revokeDevice handle «by» reason now, before, after =>
    DeviceRevoked prims handle «by» reason now before after
  | touchLastSeen handle now, before, after => after = before.touchDevice handle now
  | addToken row, before, after => before.insertToken row = some after
  | verifyToken tokenHash now idleTtl, before, after =>
    ∃ result, TokenVerified tokenHash now idleTtl before result after
  | deleteToken tokenHash, before, after =>
    after = before.deleteTokens fun row => row.tokenHash = tokenHash
  | deleteTokensForHandle userId handle, before, after =>
    after = before.deleteTokens fun row => row.handle = handle && row.userId = userId
  | deleteTokensForUser userId, before, after =>
    after = before.deleteTokens fun row => row.userId = userId
  | addLoginCode row, before, after => before.insertLoginCode row = some after
  | consumeLoginCodeEx codeHash stateHash now, before, after =>
    ∃ result, CodeConsumed codeHash stateHash now before result after
  | recoveryReplace userId pwhashStrs now, before, after =>
    CodesReplaced prims userId pwhashStrs now before after
  | recoveryConsumeEx codeId userId ticketHash now expiresAt revokeAll, before, after =>
    CodeSpent prims codeId userId ticketHash now expiresAt revokeAll before after
  | recoveryNoteFailure userId now threshold lockSeconds, before, after =>
    ∃ locked, FailureView prims userId now threshold lockSeconds before locked after
  | sweep now, before, after => after = before.swept now

variable (op : StoreOp) (status : StoreStatus) (before : Tables) in
/-- What a call that reports an error has kept: nothing, the audit row of a key mismatch, the
device row of an enrollment whose key row was refused, or the audit row of a rotation. -/
inductive Refused : Tables → Prop
  | unchanged : Refused before
  | mismatch {enrollment : Enrollment} {now : ℤ} {after : Tables}
      (hop : op = .enrollDevice enrollment now) (hstatus : status = .errConflict)
      (hwritten : MismatchNoted prims enrollment now before after) : Refused after
  | clash {enrollment : Enrollment} {now : ℤ} {after : Tables}
      (hop : op = .enrollDevice enrollment now) (hstatus : status = .errConflict)
      (hids : (idOk enrollment.handle && idOk enrollment.userId) = true)
      (hwritten : FingerprintClash prims enrollment now before after) : Refused after
  | stray {rotation : Rotation} {now : ℤ} {after : Tables} (hop : op = .rotateKey rotation now)
      (hwritten : StrayRotation prims rotation now before after) : Refused after

/-- What the outcome of a call says about the tables. -/
def Settles (op : StoreOp) (before : Tables) : Except StoreStatus Unit → Tables → Prop
  | .ok _, after => op.Applied prims before after
  | .error status, after => op.Refused prims status before after

variable {prims}

theorem ends_of_atomically {program : StoreProgram Unit}
    (hprogram : Atomically tables (fun _ after => op.Applied prims tables after) program) :
    Ends tables (op.Settles prims tables) program := by
  refine Ends.mono hprogram fun outcome after hgoal => ?_
  cases outcome with
  | ok => exact hgoal
  | error => exact (show after = tables from hgoal) ▸ .unchanged

theorem ends_of_ignoring {Value : Type} {program : StoreProgram Value}
    (hprogram : Atomically tables (fun _ after => op.Applied prims tables after) program) :
    Ends tables (op.Settles prims tables) program.ignoring :=
  ends_of_atomically (hprogram.ignoring.mono fun _ _ ⟨_, happlied⟩ => happlied)

theorem ends_runRotateKey {rotation : Rotation} {now : ℤ} :
    Ends tables ((rotateKey rotation now).Settles prims tables)
      (storeRotateKey prims rotation now).ignoring := by
  refine ends_storeRotateKey.bind (fun status after hview => ?_) fun value after hview => ?_
  · cases hview with
    | failed => exact .unchanged
    | stray hstray => exact .stray rfl hstray
  · cases hview with
    | rotated hrotated => exact .pure ⟨_, hrotated⟩

theorem ends_runEnrollDevice {enrollment : Enrollment} {now : ℤ} :
    Ends tables ((enrollDevice enrollment now).Settles prims tables)
      (storeEnrollDevice prims enrollment now) := by
  by_cases hids : (idOk enrollment.handle && idOk enrollment.userId) = true
  · refine ends_storeEnrollDevice.mono fun outcome after hview => ?_
    cases hview with
    | enrolled hwritten => exact EnrollDeviceView.enrolled hwritten
    | idempotent hholds => exact EnrollDeviceView.idempotent hholds
    | mismatch hwritten => exact .mismatch rfl rfl hwritten
    | clash hwritten => exact .clash rfl rfl hids hwritten
    | failed => exact .unchanged
  · exact Ends.require_bind .unchanged fun htrue => absurd htrue hids

/-- Every call ends as its outcome says, wherever it fails. -/
theorem ends_run : Ends tables (op.Settles prims tables) (op.run prims) := by
  cases op with
  | enrollDevice enrollment now => exact ends_runEnrollDevice
  | addUser userId role now => exact ends_of_atomically atomically_storeAddUser
  | disableUser userId «by» reason now =>
    exact ends_of_atomically atomically_storeSetUserStatus
  | enableUser userId «by» now =>
    exact ends_of_atomically atomically_storeSetUserStatus
  | enrollDeviceEx enrollment role now later =>
    exact ends_of_atomically atomically_storeEnrollDeviceEx_view.ignoring
  | enrollViaTicket ticketHash expectUser handle pk label now =>
    exact ends_of_atomically atomically_storeEnrollViaTicket_view
  | rotateKey rotation now => exact ends_runRotateKey
  | revokeDevice handle «by» reason now =>
    exact ends_of_atomically atomically_storeRevokeDevice
  | touchLastSeen handle now =>
    exact ends_of_atomically (atomically_storeTouchLastSeen handle now)
  | addToken row =>
    refine ends_of_atomically ((atomically_storeAddToken row).mono ?_)
    exact fun _ after hadded => hadded.2
  | verifyToken tokenHash now idleTtl =>
    exact ends_of_atomically atomically_storeVerifyToken.ignoring
  | deleteToken tokenHash =>
    exact ends_of_ignoring atomically_storeDeleteToken
  | deleteTokensForHandle userId handle =>
    exact ends_of_ignoring atomically_storeDeleteTokensForHandle
  | deleteTokensForUser userId =>
    exact ends_of_ignoring atomically_storeDeleteTokensForUser
  | addLoginCode row => exact ends_of_atomically (atomically_storeAddLoginCode row)
  | consumeLoginCodeEx codeHash stateHash now =>
    exact ends_of_atomically (atomically_storeConsumeLoginCodeEx codeHash stateHash now).ignoring
  | recoveryReplace userId pwhashStrs now =>
    exact ends_of_ignoring atomically_storeRecoveryReplace
  | recoveryConsumeEx codeId userId ticketHash now expiresAt revokeAll =>
    exact ends_of_ignoring atomically_storeRecoveryConsumeEx
  | recoveryNoteFailure userId now threshold lockSeconds =>
    exact ends_of_atomically atomically_storeRecoveryNoteFailure_view.ignoring
  | sweep now => exact ends_of_ignoring (atomically_storeSweep now)

/-! ## Whole or not at all -/

/-- A rotation names the user of the device in its audit row. -/
def Attributed (op : StoreOp) (before after : Tables) : Prop :=
  ∀ rotation now, op = .rotateKey rotation now →
    after.auditedUser = before.ownerOf rotation.handle

variable (prims)

/-- A call enrolls a device with `store_enroll_device` for a known user, a new handle and a new
key, and a key on record has the fingerprint of the new one. -/
structure Clashes (op : StoreOp) (tables : Tables) (enrollment : Enrollment) (now : ℤ) : Prop where
  op_eq : op = .enrollDevice enrollment now
  ids : (idOk enrollment.handle && idOk enrollment.userId) = true
  user : (tables.users.any fun row => row.userId = enrollment.userId) = true
  handle : (tables.devices.any fun row => row.handle = enrollment.handle) = false
  inactive : tables.activeKeyOf enrollment.handle = none
  unused : tables.pkExists enrollment.pk = false
  recorded : (tables.deviceKeys.any fun row =>
    row.pkFp = fingerprint prims enrollment.pk) = true

variable {prims}

end StoreOp

variable {prims : DaemonPrimitives}

namespace Tables

variable {before after : Tables}

/-- An enrollment whose key row is refused meets a fingerprint that is on record. -/
theorem FingerprintClash.clashes {enrollment : Enrollment} {now : ℤ}
    (hclash : FingerprintClash prims enrollment now before after)
    (hids : (idOk enrollment.handle && idOk enrollment.userId) = true) :
    (StoreOp.enrollDevice enrollment now).Clashes prims before enrollment now := by
  obtain ⟨hfresh, huser, rfl⟩ := insertDevice_eq_some hclash.written
  refine ⟨rfl, hids, huser, hfresh, hclash.fresh, hclash.unused, ?_⟩
  rcases insertKey_eq_none_iff.mp hclash.clash with hused | hfingerprint | hactive | hdevice
  · exact absurd (hclash.unused.symm.trans hused) Bool.false_ne_true
  · exact hfingerprint
  · exact absurd (hclash.fresh ▸ hactive : (none : Option KeyRow).isSome = true) Bool.false_ne_true
  · simp [newDevice] at hdevice

end Tables

namespace StoreOp

variable {enrollment : Enrollment} {now : ℤ}

/-- Where nothing fails, an enrollment that clashes is refused with its device row kept. -/
theorem Clashes.kept (hclashes : op.Clashes prims tables enrollment now) :
    op.run prims ⟨tables, none, []⟩ = (.error .errConflict,
      ⟨{ tables with devices := tables.devices ++ [newDevice enrollment now] }, none, []⟩) := by
  obtain ⟨rfl, hids, huser, hhandle, hinactive, hunused, hused⟩ := hclashes
  have hdevice : tables.insertDevice (newDevice enrollment now) =
      some { tables with devices := tables.devices ++ [newDevice enrollment now] } := by
    unfold insertDevice
    have huser : (tables.users.any fun user =>
      user.userId = (newDevice enrollment now).userId) = true := huser
    have hhandle : (tables.devices.any fun other =>
      other.handle = (newDevice enrollment now).handle) = false := hhandle
    rw [huser, hhandle]
    rfl
  have hkey : insertKey
      { tables with devices := tables.devices ++ [newDevice enrollment now] }
      enrollment.handle enrollment.pk (fingerprint prims enrollment.pk) now = none :=
    insertKey_eq_none_iff.mpr (.inr (.inl hused))
  have hlocked : ∀ saved, enrollDeviceLocked prims enrollment now ⟨tables, saved, []⟩ =
      (.ok .conflict,
        ⟨{ tables with devices := tables.devices ++ [newDevice enrollment now] }, saved, []⟩) := by
    intro saved
    unfold enrollDeviceLocked
    rw [query_bind_faultless, hinactive]
    show enrollNewHandle prims enrollment now _ = _
    unfold enrollNewHandle
    rw [query_bind_faultless, hunused, if_neg Bool.false_ne_true]
    rw [insert_bind_of_some hdevice, if_pos rfl, insert_bind_of_none hkey]
    rfl
  show (Program.require _ _ >>= _) _ = _
  rw [require_bind_true hids]
  refine transaction_of_refusal ?_
  rw [bind_of_ok (hlocked _)]
  rfl

section Rotation

variable {rotation : Rotation} {current : KeyRow} {after : Tables}

end Rotation

end StoreOp

/-! ## Sequences of calls -/

/-- A call together with which of its statements fail. -/
structure StoreCall where
  op : StoreOp
  faults : List Bool
deriving DecidableEq

/-- The store, called again and again. Its statements that fail leave the transaction open. -/
def storeMachine (prims : DaemonPrimitives) : Machine (Connection Tables) StoreCall where
  step conn call := (call.op.run prims { conn with faults := call.faults }).2
  allowed _ _ := True

/-- The tables of a store that was just created. -/
def Tables.fresh : Tables where
  users := []
  devices := []
  deviceKeys := []
  loginCodes := []
  tokens := []
  recoveryCodes := []
  enrollTickets := []
  audit := []

/-- A store that was just created. -/
def freshStore : Connection Tables where
  tables := .fresh
  saved := none
  faults := []

namespace StoreOp

/-- An enrollment by the operator. -/
def laptop : Enrollment where
  handle := ascii "laptop"
  userId := ascii "alice"
  pk := List.Vector.replicate 1952 1
  via := ascii "operator"
  «by» := ascii "operator"
  label := none

end StoreOp

/-- A step of the store does what the outcome of its call says. -/
theorem settles_step {conn : Connection Tables} {call : StoreCall} :
    ∃ outcome, call.op.Settles prims conn.tables outcome
      ((storeMachine prims).step conn call).tables :=
  ⟨_, StoreOp.ends_run.reached { conn with faults := call.faults } rfl⟩

end MldsaAuth.Authd
