/-
# The operations of the store

Each operation checks its arguments and then runs its statements, most of them inside
one transaction. An operation that reads the wall clock takes the reading as an
argument. This file embeds the operations of `authd/store/store.c`; opening, closing
and copying the store and the verification of the audit chain are not needed here.
-/

import MldsaAuth.Authd.Store.Tables

namespace MldsaAuth.Authd

open Foundation Crypto

variable (prims : DaemonPrimitives) [Severity]

/-! ## Users -/

variable (userId : Bytes)

/-- The row of a new user. -/
def Tables.newUser (role : StoreRole) (now : ℤ) : UserRow where
  userId := userId
  role := role
  status := .active
  createdAt := now
  disabledAt := none
  disabledReason := none
  recoveryFailCount := 0
  recoveryLockedUntil := 0

/-- `add_user_locked`. -/
def addUserLocked (role : StoreRole) (now : ℤ) : StoreProgram Unit := do
  let inserted ← insert fun tables => tables.insertUser (Tables.newUser userId role now)
  .require inserted .errConflict
  auditAppend prims (ascii "user-add") (some userId) none role.text now

/-- `store_add_user`. -/
def storeAddUser (role : StoreRole) (now : ℤ) : StoreProgram Unit := do
  .require (idOk userId) .errArg
  transaction do
    addUserLocked prims userId role now
    return .commit ⟨⟩

/-- `store_get_user`. -/
def storeGetUser : StoreProgram (StoreRole × UserStatus) := do
  .require (idOk userId) .errArg
  let found ← query fun tables => tables.userOf userId
  match found with
  | none => .fail .errNotFound
  | some row => return (row.role, row.status)

/-- `set_user_status`, behind the disabling and the enabling of a user. -/
def storeSetUserStatus (status : UserStatus) («by» : Bytes) (reason : Option Bytes)
    (dropTokens : Bool) (event : Bytes) (now : ℤ) : StoreProgram Unit := do
  .require (idOk userId) .errArg
  transaction do
    let changed ← execCount
      (fun tables => tables.setUserStatus userId status
        (if status = .disabled then some now else none)
        (if status = .disabled then reason else none))
      (fun tables => tables.users.countP fun row => row.userId = userId)
    .require (decide (changed ≠ 0)) .errNotFound
    .onlyIf dropTokens (exec fun tables => tables.deleteTokens fun row => row.userId = userId)
    auditAppend prims event (some userId) none «by» now
    return .commit ⟨⟩

/-- `store_disable_user`. -/
def storeDisableUser (userId «by» : Bytes) (reason : Option Bytes) (now : ℤ) : StoreProgram Unit :=
  storeSetUserStatus prims userId .disabled «by» reason true (ascii "user-disable") now

/-- `store_enable_user`. -/
def storeEnableUser (userId «by» : Bytes) (now : ℤ) : StoreProgram Unit :=
  storeSetUserStatus prims userId .active «by» none false (ascii "user-enable") now

/-! ## Devices and keys -/

/-- What `enroll_device_locked` ends in, short of an error that is not a conflict. -/
inductive EnrollOutcome where
  | enrolled
  | idempotent
  | conflict
deriving DecidableEq, Repr

/-- The identity and the key of an enrollment. -/
structure Enrollment where
  handle : Bytes
  userId : Bytes
  pk : SigPublicKey
  via : Bytes
  «by» : Bytes
  label : Option Bytes
deriving DecidableEq

/-- `enroll_device_locked` for a handle that has an active key: the same key again is fine for
the owner; another key is refused, with an audit row. -/
def enrollKnownHandle (enrollment : Enrollment) (current : KeyRow) (now : ℤ) :
    StoreProgram EnrollOutcome :=
  if current.pk = enrollment.pk then do
    let owned ← query fun tables => tables.deviceOwnedBy enrollment.handle enrollment.userId
    return if owned then .idempotent else .conflict
  else do
    auditAppend prims (ascii "enroll-key-mismatch") (some enrollment.userId)
      (some enrollment.handle) (ascii "known handle presented a different key (Req 7)") now
    return .conflict

/-- `pk_fingerprint`. -/
def fingerprint (pk : SigPublicKey) : StoreHash := prims.sha256 pk.toList

variable (enrollment : Enrollment)

/-- The row of a new device. -/
def Tables.newDevice (now : ℤ) : DeviceRow where
  handle := enrollment.handle
  userId := enrollment.userId
  label := enrollment.label
  status := .active
  enrolledAt := now
  enrolledVia := enrollment.via
  enrolledBy := enrollment.by
  revokedAt := none
  revokedBy := none
  revokedReason := none
  lastSeen := none

/-- `enroll_device_locked` for a handle without an active key. -/
def enrollNewHandle (now : ℤ) : StoreProgram EnrollOutcome := do
  let used ← query fun tables => tables.pkExists enrollment.pk
  if used then return .conflict
  else
    let deviceAdded ← insert fun tables => tables.insertDevice (Tables.newDevice enrollment now)
    if deviceAdded then
      let keyAdded ← insert fun tables =>
        tables.insertKey enrollment.handle enrollment.pk (fingerprint prims enrollment.pk) now
      if keyAdded then
        auditAppend prims (ascii "device-enroll") (some enrollment.userId)
          (some enrollment.handle) enrollment.via now
        return .enrolled
      else return .conflict
    else return .conflict

/-- `enroll_device_locked`. -/
def enrollDeviceLocked (now : ℤ) : StoreProgram EnrollOutcome := do
  let current ← query fun tables => tables.activeKeyOf enrollment.handle
  match current with
  | some key => enrollKnownHandle prims enrollment key now
  | none => enrollNewHandle prims enrollment now

/-- `store_enroll_device_ex`: the value says whether the call was idempotent. The wall clock is
read once for the user and once more for the device. -/
def storeEnrollDeviceEx (role : StoreRole) (now later : ℤ) : StoreProgram Bool := do
  .require (idOk enrollment.handle && idOk enrollment.userId) .errArg
  transaction do
    let known ← query fun tables => tables.users.any fun row => row.userId = enrollment.userId
    .onlyIf (!known) (addUserLocked prims enrollment.userId role now)
    let outcome ← enrollDeviceLocked prims enrollment later
    match outcome with
    | .idempotent => return .rollback true
    | .conflict => .fail .errConflict
    | .enrolled => return .commit false

/-- `store_enroll_device`: a conflict commits what was written for it and is reported
whatever comes of the commit. -/
def storeEnrollDevice (now : ℤ) : StoreProgram Unit := do
  .require (idOk enrollment.handle && idOk enrollment.userId) .errArg
  transaction do
    let outcome ← enrollDeviceLocked prims enrollment now
    match outcome with
    | .idempotent => return .rollback ⟨⟩
    | .conflict => return .refuse .errConflict
    | .enrolled => return .commit ⟨⟩

/-- `user_of_handle`. -/
def userOfHandle (handle : Bytes) : StoreProgram Bytes := do
  let device ← query fun tables => tables.deviceOf handle
  match device with
  | none => .fail .errNotFound
  | some row =>
    .require (idOk row.userId) .errNotFound
    return row.userId

/-- Delete the tokens that meet a condition, and count them. -/
def deleteTokensWhere (condition : TokenRow → Bool) : StoreProgram ℕ :=
  execCount (fun tables => tables.deleteTokens condition)
    (fun tables => tables.tokens.countP condition)

/-- Drop the tokens of a handle, if asked to, and count them. -/
def dropHandleTokens (handle : Bytes) (dropTokens : Bool) : StoreProgram ℕ :=
  if dropTokens then deleteTokensWhere fun row => row.handle = handle else pure 0

/-- What `store_rotate_key` is asked for. -/
structure Rotation where
  handle : Bytes
  newPk : SigPublicKey
  expectOldPk : Option SigPublicKey
  hsid : Option Bytes
  dropTokens : Bool
deriving DecidableEq

/-- `store_rotate_key` up to its audit row: the new key takes the place of the active one. The
value is the number of tokens dropped. -/
def replaceKey (rotation : Rotation) (now : ℤ) : StoreProgram ℕ := do
  let live ← query fun tables => tables.deviceAndUserActive rotation.handle
  .require live .errNotFound
  let found ← query fun tables => tables.activeKeyOf rotation.handle
  match found with
  | none => .fail .errNotFound
  | some current =>
    .require (decide (current.pk ≠ rotation.newPk)) .errState
    .require (rotation.expectOldPk.all fun expected => current.pk = expected) .errState
    let used ← query fun tables => tables.pkExists rotation.newPk
    .require (!used) .errConflict
    exec fun tables => tables.supersedeKey current.keyId now rotation.hsid
    let inserted ← insert fun tables =>
      tables.insertKey rotation.handle rotation.newPk (fingerprint prims rotation.newPk) now
    .require inserted .errConflict
    dropHandleTokens rotation.handle rotation.dropTokens

/-- The detail of the audit row of a rotation. -/
def Rotation.detail (rotation : Rotation) : Bytes :=
  if rotation.dropTokens then ascii "tokens-dropped" else ascii "tokens-kept"

/-- `store_rotate_key`: the time of the rotation and the number of tokens dropped. It goes on when
the user could not be looked up. -/
def storeRotateKey (rotation : Rotation) (now : ℤ) : StoreProgram (ℤ × ℕ) := do
  .require (idOk rotation.handle && rotation.hsid.all fun id => id.length == 16) .errArg
  transaction do
    let dropped ← replaceKey prims rotation now
    let user ← (userOfHandle rotation.handle).attempt
    auditAppend prims (ascii "key-rotate") user.toOption (some rotation.handle) rotation.detail now
    return .commit (now, dropped)

/-- `revoke_device_locked`. -/
def revokeDeviceLocked (handle «by» : Bytes) (reason : Option Bytes) (now : ℤ) :
    StoreProgram Unit := do
  let changed ← execCount (fun tables => tables.revokeDevice handle «by» reason now)
    (fun tables => tables.devices.countP fun row => row.handle = handle)
  .require (decide (changed ≠ 0)) .errNotFound
  exec fun tables => tables.revokeKey handle now
  exec fun tables => tables.deleteTokens fun row => row.handle = handle
  auditAppend prims (ascii "device-revoke") none (some handle) «by» now

/-- `store_revoke_device`. -/
def storeRevokeDevice (handle «by» : Bytes) (reason : Option Bytes) (now : ℤ) :
    StoreProgram Unit := do
  .require (idOk handle) .errArg
  transaction do
    revokeDeviceLocked prims handle «by» reason now
    return .commit ⟨⟩

variable (handle : Bytes)

/-- `store_lookup_active`. -/
def storeLookupActive : StoreProgram Tables.ActiveKey := do
  .require (idOk handle) .errArg
  let found ← query fun tables => tables.lookupActive handle
  match found with
  | none => .fail .errNotFound
  | some key =>
    .require (decide (key.userId.length ≤ storeIdMax)) .errDb
    return key

/-- `store_touch_last_seen`. -/
def storeTouchLastSeen (now : ℤ) : StoreProgram Unit := do
  .require (idOk handle) .errArg
  exec fun tables => tables.touchDevice handle now

/-- `store_active_key_age`. -/
def storeActiveKeyAge : StoreProgram ℤ := do
  .require (idOk handle) .errArg
  let found ← query fun tables => tables.activeKeyOf handle
  match found with
  | none => .fail .errNotFound
  | some row => return row.validFrom

/-- `store_handle_last_key`: the key with the largest id the handle ever had. -/
def storeHandleLastKey : StoreProgram SigPublicKey := do
  .require (idOk handle) .errArg
  let found ← query fun tables =>
    (tables.deviceKeys.filter fun row => row.handle = handle).foldl
      (fun (best : Option KeyRow) row =>
        if best.all fun other => other.keyId < row.keyId then some row else best) none
  match found with
  | none => .fail .errNotFound
  | some row => return row.pk

/-! ## Tokens and login codes -/

/-- `store_add_token`. -/
def storeAddToken (row : TokenRow) : StoreProgram Unit := do
  .require (idOk row.userId && idOk row.handle) .errArg
  transaction do
    let inserted ← insert fun tables => tables.insertToken row
    .require inserted .errConflict
    return .commit ⟨⟩

/-- `store_token_verdict_t`. -/
inductive TokenVerdict where
  | ok
  | unknown
  | expired
  | idleExpired
  | deviceRevoked
  | userDisabled
deriving DecidableEq, Repr

/-- `store_token_info_t`. -/
structure TokenInfo where
  userId : Bytes
  handle : Bytes
  role : StoreRole
  issuedAt : ℤ
  expiresAt : ℤ
  idleExpiresAt : ℤ
deriving DecidableEq

/-- The joined row `store_verify_token` reads: the token, its device and its user. -/
structure TokenJoin where
  token : TokenRow
  device : Option DeviceStatus
  user : Option (StoreRole × UserStatus)
deriving DecidableEq

/-- The join of `store_verify_token`. -/
def Tables.tokenJoin (tables : Tables) (tokenHash : StoreHash) : Option TokenJoin :=
  (tables.tokens.find? fun row => row.tokenHash = tokenHash).map fun token =>
    { token := token
      device := (tables.deviceOf token.handle).map DeviceRow.status
      user := (tables.userOf token.userId).map fun row => (row.role, row.status) }

/-- What a joined row says about a token at a time. -/
def TokenJoin.verdict (join : TokenJoin) (now : ℤ) : TokenVerdict :=
  if join.device ≠ some .active then .deviceRevoked
  else if join.user.map Prod.snd ≠ some .active then .userDisabled
  else if join.token.expiresAt ≤ now then .expired
  else if join.token.idleExpiresAt ≤ now then .idleExpired
  else .ok

/-- The information about a token; an id that does not fit its buffer is left out. -/
def TokenJoin.info (join : TokenJoin) (idleExpiresAt : ℤ) : TokenInfo where
  userId := if join.token.userId.length ≤ storeIdMax then join.token.userId else []
  handle := if join.token.handle.length ≤ storeIdMax then join.token.handle else []
  -- the zeroed role of an unread column is the operator's
  role := (join.user.map Prod.fst).getD .operator
  issuedAt := join.token.issuedAt
  expiresAt := join.token.expiresAt
  idleExpiresAt := idleExpiresAt

/-- `store_verify_token`: verdict and, for a known token, what is known about it. A token that
verifies has its idle window slid by the given number of seconds. -/
def storeVerifyToken (tokenHash : StoreHash) (now : ℤ) (idleTtl : ℕ) :
    StoreProgram (TokenVerdict × Option TokenInfo) := do
  let found ← query fun tables => tables.tokenJoin tokenHash
  match found with
  | none => return (.unknown, none)
  | some join =>
    if join.verdict now = .ok then
      let idle :=
        if 0 < idleTtl then min (now + idleTtl) join.token.expiresAt
        else join.token.idleExpiresAt
      exec fun tables => tables.slideToken tokenHash now idle
      return (.ok, some (join.info idle))
    else return (join.verdict now, some (join.info join.token.idleExpiresAt))

/-- `store_delete_token`. -/
def storeDeleteToken (tokenHash : StoreHash) : StoreProgram ℕ :=
  deleteTokensWhere fun row => row.tokenHash = tokenHash

/-- `store_delete_tokens_for_handle`. -/
def storeDeleteTokensForHandle (userId handle : Bytes) : StoreProgram ℕ := do
  .require (idOk userId && idOk handle) .errArg
  deleteTokensWhere fun row => row.handle = handle && row.userId = userId

/-- `store_delete_tokens_for_user`. -/
def storeDeleteTokensForUser (userId : Bytes) : StoreProgram ℕ := do
  .require (idOk userId) .errArg
  deleteTokensWhere fun row => row.userId = userId

/-- `store_add_login_code`. -/
def storeAddLoginCode (row : LoginCodeRow) : StoreProgram Unit := do
  .require (idOk row.userId && idOk row.handle) .errArg
  transaction do
    let inserted ← insert fun tables => tables.insertLoginCode row
    .require inserted .errConflict
    return .commit ⟨⟩

/-- `store_code_verdict_t`. -/
inductive CodeVerdict where
  | ok
  | unknown
  | used
  | expired
  | stateMismatch
deriving DecidableEq, Repr

/-- `store_consume_login_code_ex`: verdict, user and handle. -/
def storeConsumeLoginCodeEx (codeHash stateHash : StoreHash) (now : ℤ) :
    StoreProgram (CodeVerdict × Bytes × Bytes) :=
  transaction do
    let found ← query fun tables => tables.loginCodes.find? fun row => row.codeHash = codeHash
    match found with
    | none => return .rollback (.unknown, [], [])
    | some row =>
      .require (decide (row.userId.length ≤ storeIdMax)) .errDb
      .require (decide (row.handle.length ≤ storeIdMax)) .errDb
      if row.usedAt.isSome then return .rollback (.used, row.userId, row.handle)
      else if row.expiresAt ≤ now then return .rollback (.expired, row.userId, row.handle)
      else if row.stateHash ≠ stateHash then
        return .rollback (.stateMismatch, row.userId, row.handle)
      else
        exec fun tables => tables.useLoginCode codeHash now
        return .commit (.ok, row.userId, row.handle)

/-! ## Recovery -/

/-- `store_recovery_lock_state`: whether the user is locked, and until when. -/
def storeRecoveryLockState (userId : Bytes) (now : ℤ) : StoreProgram (Bool × ℤ) := do
  .require (idOk userId) .errArg
  let found ← query fun tables => tables.userOf userId
  match found with
  | none => .fail .errNotFound
  | some row => return (decide (now < row.recoveryLockedUntil), row.recoveryLockedUntil)

/-- `store_list_unused_recovery_codes`: ids and hashes, newest first. -/
def storeListUnusedRecoveryCodes (userId : Bytes) : StoreProgram (List RecoveryCodeRow) := do
  .require (idOk userId) .errArg
  query fun tables =>
    (tables.recoveryCodes.filter fun row => row.userId = userId && row.usedAt.isNone).reverse

/-- The insertions of `store_recovery_replace`, one statement for each hash. -/
def insertRecoveryCodes (userId : Bytes) (now : ℤ) : List Bytes → StoreProgram Unit
  | [] => pure ⟨⟩
  | pwhashStr :: rest => do
      exec fun tables => tables.insertRecoveryCode userId pwhashStr now
      insertRecoveryCodes userId now rest

/-- `store_recovery_replace`: the number of codes that were superseded. -/
def storeRecoveryReplace (userId : Bytes) (pwhashStrs : List Bytes) (now : ℤ) : StoreProgram ℕ := do
  .require (idOk userId && !pwhashStrs.isEmpty) .errArg
  transaction do
    let known ← query fun tables => tables.users.any fun row => row.userId = userId
    .require known .errNotFound
    let superseded ← execCount (fun tables => tables.supersedeRecoveryCodes userId now)
      (fun tables =>
        tables.recoveryCodes.countP fun row => row.userId = userId && row.usedAt.isNone)
    insertRecoveryCodes userId now pwhashStrs
    auditAppend prims (ascii "recovery-issue") (some userId) none
      (ascii "issued " ++ decimal pwhashStrs.length) now
    return .commit superseded

/-- The `revoke=all` loop of `store_recovery_consume_ex`: one active device of the user at a
time, at most as often as the guard allows. The value counts them. -/
def revokeAllDevices (userId : Bytes) (now : ℤ) : ℕ → StoreProgram ℕ
  | 0 => pure 0
  | guard + 1 => do
      let found ← query fun tables =>
        tables.devices.find? fun row => row.userId = userId && row.status = .active
      match found with
      | none => return 0
      | some row =>
        .require (idOk row.handle) .errDamaged
        revokeDeviceLocked prims row.handle (ascii "recovery")
          (some (ascii "recovery revoke=all")) now
        let more ← revokeAllDevices userId now guard
        return more + 1

/-- Revoke the devices of a user, if asked to; the guard of the loop is 1024. -/
def revokeDevicesIf (userId : Bytes) (now : ℤ) (revokeAll : Bool) : StoreProgram ℕ :=
  if revokeAll then revokeAllDevices prims userId now 1024 else pure 0

/-- `store_recovery_consume_ex`: the number of devices revoked. -/
def storeRecoveryConsumeEx (codeId : ℕ) (userId : Bytes) (ticketHash : StoreHash)
    (now expiresAt : ℤ) (revokeAll : Bool) : StoreProgram ℕ := do
  .require (idOk userId) .errArg
  transaction do
    let spent ← execCount (fun tables => tables.spendRecoveryCode codeId userId now)
      (fun tables => tables.recoveryCodes.countP fun row =>
        row.codeId = codeId && row.usedAt.isNone && row.userId = userId)
    .require (decide (spent ≠ 0)) .errNotFound
    exec fun tables => tables.setRecovery userId (fun _ => 0) fun _ => 0
    let inserted ← insert fun tables => tables.insertTicket
      { ticketHash := ticketHash
        userId := userId
        issuedAt := now
        expiresAt := expiresAt
        usedAt := none }
    .require inserted .errConflict
    let revoked ← revokeDevicesIf prims userId now revokeAll
    auditAppend prims (ascii "recovery-use") (some userId) none (ascii "ok") now
    return .commit revoked

/-- The lockout of `store_recovery_note_failure`. -/
def lockRecovery (userId : Bytes) (now : ℤ) (lockSeconds : ℤ) : StoreProgram Unit := do
  exec fun tables => tables.setRecovery userId (fun _ => 0) fun _ => now + lockSeconds
  auditAppend prims (ascii "recovery-locked") (some userId) none
    (ascii "five failures (" ++ [0xc2, 0xa7] ++ ascii "10.3)") now

/-- `store_recovery_note_failure`: whether the user is locked now. -/
def storeRecoveryNoteFailure (userId : Bytes) (now : ℤ) (threshold : ℕ) (lockSeconds : ℤ) :
    StoreProgram Bool := do
  .require (idOk userId && decide (1 ≤ threshold) && decide (0 ≤ lockSeconds)) .errArg
  transaction do
    let changed ← execCount (fun tables => tables.setRecovery userId (· + 1) id)
      (fun tables => tables.users.countP fun row => row.userId = userId)
    .require (decide (changed ≠ 0)) .errNotFound
    let found ← query fun tables => tables.userOf userId
    match found with
    | none => .fail .errNotFound
    | some row =>
      if threshold ≤ row.recoveryFailCount then
        lockRecovery prims userId now lockSeconds
        return .commit true
      else
        auditAppend prims (ascii "recovery-use") (some userId) none (ascii "invalid") now
        return .commit false

/-- `store_enroll_via_ticket`. -/
def storeEnrollViaTicket (ticketHash : StoreHash) (expectUser handle : Bytes)
    (pk : SigPublicKey) (label : Option Bytes) (now : ℤ) : StoreProgram Unit := do
  .require (idOk handle && idOk expectUser) .errArg
  transaction do
    let found ← query fun tables => tables.enrollTickets.find? fun row =>
      row.ticketHash = ticketHash && row.usedAt.isNone && decide (now < row.expiresAt)
    match found with
    | none => .fail .errNotFound
    | some ticket =>
      .require (decide (ticket.userId.length ≤ storeIdMax)) .errDb
      .require (decide (ticket.userId = expectUser)) .errNotFound
      let user ← query fun tables => tables.userOf ticket.userId
      match user with
      | none => .fail .errNotFound
      | some row =>
        .require (decide (row.status = .active)) .errState
        let spent ← execCount (fun tables => tables.spendTicket ticketHash now)
          (fun tables => tables.enrollTickets.countP fun other =>
            other.ticketHash = ticketHash && other.usedAt.isNone)
        .require (decide (spent ≠ 0)) .errNotFound
        let outcome ← enrollDeviceLocked prims
          { handle := handle
            userId := ticket.userId
            pk := pk
            via := ascii "recovery"
            «by» := ascii "recovery"
            label := label }
          now
        match outcome with
        | .conflict => .fail .errConflict
        | .idempotent => return .rollback ⟨⟩
        | .enrolled => return .commit ⟨⟩

/-! ## Sweep and enumeration -/

/-- `store_sweep`: the numbers of tokens, login codes and tickets that had expired. -/
def storeSweep (now : ℤ) : StoreProgram (ℕ × ℕ × ℕ) :=
  transaction do
    let tokens ← deleteTokensWhere fun row => row.expiresAt ≤ now || row.idleExpiresAt ≤ now
    let codes ← execCount (fun tables => tables.sweepLoginCodes now)
      (fun tables => tables.loginCodes.countP fun row => row.expiresAt ≤ now)
    let tickets ← execCount (fun tables => tables.sweepTickets now)
      (fun tables => tables.enrollTickets.countP fun row => row.expiresAt ≤ now)
    return .commit (tokens, codes, tickets)

/-- The order of `store_list_users`: by creation time, then by id. -/
def UserRow.listedBefore (first second : UserRow) : Prop :=
  first.createdAt < second.createdAt ∨
    first.createdAt = second.createdAt ∧ first.userId ≤ second.userId

instance : DecidableRel UserRow.listedBefore :=
  fun first second => inferInstanceAs (Decidable (_ ∨ _ ∧ first.userId ≤ second.userId))

/-- `store_list_users`. -/
def storeListUsers : StoreProgram (List UserRow) := do
  let rows ← query fun tables => tables.users.insertionSort UserRow.listedBefore
  .require (rows.all fun row => row.userId.length ≤ storeIdMax) .errDb
  return rows

/-- A line of `store_list_devices`: the device and the fingerprint of its current key. -/
structure DeviceListing where
  device : DeviceRow
  pkFp : Option StoreHash
deriving DecidableEq

/-- `store_list_devices`. -/
def storeListDevices (userId : Bytes) : StoreProgram (List DeviceListing) := do
  .require (idOk userId) .errArg
  let rows ← query fun tables =>
    ((tables.devices.filter fun row => row.userId = userId).insertionSort
      fun first second => first.enrolledAt ≤ second.enrolledAt).map fun row =>
        ({ device := row, pkFp := (tables.activeKeyOf row.handle).map KeyRow.pkFp } :
          DeviceListing)
  .require (rows.all fun row => row.device.handle.length ≤ storeIdMax) .errDb
  return rows

/-- `store_audit_tail`: the newest rows, oldest first. -/
def storeAuditTail (count : ℕ) : StoreProgram (List AuditRow) := do
  .require (decide (count ≠ 0)) .errArg
  query fun tables => tables.audit.drop (tables.audit.length - count)

end MldsaAuth.Authd
