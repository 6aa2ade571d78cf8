/-
# The tables of the store

Users own devices, a device has a history of keys of which at most one is active,
and logins leave login codes, tokens, recovery codes, enrollment tickets and an
audit trail. This file embeds the schema of `authd/store/schema.sql.h` as rows in
insertion order, the statements the store's operations are made of, and the audit
chain. Every statement may fail with a database error. Text columns are the bytes of
the text, times are seconds, and an identifier column is what the operations let in.
-/

import MldsaAuth.Authd.Codecs
import MldsaAuth.Foundation.Rows
import MldsaAuth.Foundation.Transaction
import Mathlib.Data.List.Sort

namespace MldsaAuth.Authd

open Foundation Crypto

/-- `store_status_t`, without the success a program's value stands for. -/
inductive StoreStatus where
  | errArg
  | errIo
  | errDb
  | errNotFound
  | errConflict
  | errState
  | errSchema
  | errCrypto
  | errCorrupt
  | errDamaged
deriving DecidableEq, Repr

/-- `store_role_t`. -/
inductive StoreRole where
  | operator
  | user
deriving DecidableEq, Repr

/-- `role_text`. -/
def StoreRole.text : StoreRole → Bytes
  | operator => ascii "operator"
  | user => ascii "user"

/-- The status column of a user. -/
inductive UserStatus where
  | active
  | disabled
deriving DecidableEq, Repr

/-- The text of a user's status. -/
def UserStatus.text : UserStatus → Bytes
  | active => ascii "active"
  | disabled => ascii "disabled"

/-- The status column of a device. -/
inductive DeviceStatus where
  | active
  | revoked
deriving DecidableEq, Repr

/-- The text of a device's status. -/
def DeviceStatus.text : DeviceStatus → Bytes
  | active => ascii "active"
  | revoked => ascii "revoked"

/-- The status column of a key. -/
inductive KeyStatus where
  | active
  | superseded
  | revoked
deriving DecidableEq, Repr

/-- A SHA-256 hash as the store keeps it. -/
abbrev StoreHash := Blob 32

/-- A row of `users`. -/
structure UserRow where
  userId : Bytes
  role : StoreRole
  status : UserStatus
  createdAt : ℤ
  disabledAt : Option ℤ
  disabledReason : Option Bytes
  recoveryFailCount : ℕ
  recoveryLockedUntil : ℤ
deriving DecidableEq

/-- A row of `devices`. -/
structure DeviceRow where
  handle : Bytes
  userId : Bytes
  label : Option Bytes
  status : DeviceStatus
  enrolledAt : ℤ
  enrolledVia : Bytes
  enrolledBy : Bytes
  revokedAt : Option ℤ
  revokedBy : Option Bytes
  revokedReason : Option Bytes
  lastSeen : Option ℤ
deriving DecidableEq

/-- A row of `device_keys`. -/
structure KeyRow where
  keyId : ℕ
  handle : Bytes
  pk : SigPublicKey
  pkFp : StoreHash
  status : KeyStatus
  validFrom : ℤ
  validTo : Option ℤ
  supersededByHsid : Option Bytes
deriving DecidableEq

/-- A row of `login_codes`. -/
structure LoginCodeRow where
  codeHash : StoreHash
  userId : Bytes
  handle : Bytes
  handshakeId : Option Bytes
  stateHash : StoreHash
  issuedAt : ℤ
  expiresAt : ℤ
  usedAt : Option ℤ
deriving DecidableEq

/-- A row of `tokens`. -/
structure TokenRow where
  tokenHash : StoreHash
  userId : Bytes
  handle : Bytes
  handshakeId : Option Bytes
  issuedAt : ℤ
  expiresAt : ℤ
  idleExpiresAt : ℤ
  lastVerifiedAt : Option ℤ
deriving DecidableEq

/-- A row of `recovery_codes`. -/
structure RecoveryCodeRow where
  codeId : ℕ
  userId : Bytes
  pwhashStr : Bytes
  issuedAt : ℤ
  usedAt : Option ℤ
  usedFrom : Option Bytes
deriving DecidableEq

/-- A row of `enroll_tickets`. -/
structure TicketRow where
  ticketHash : StoreHash
  userId : Bytes
  issuedAt : ℤ
  expiresAt : ℤ
  usedAt : Option ℤ
deriving DecidableEq

/-- A row of `audit`. -/
structure AuditRow where
  seq : ℤ
  at_ : ℤ
  event : Bytes
  userId : Option Bytes
  handle : Option Bytes
  detail : Bytes
  prevMac : Bytes
  mac : Bytes
deriving DecidableEq

/-- The tables. -/
@[ext]
structure Tables where
  users : List UserRow
  devices : List DeviceRow
  deviceKeys : List KeyRow
  loginCodes : List LoginCodeRow
  tokens : List TokenRow
  recoveryCodes : List RecoveryCodeRow
  enrollTickets : List TicketRow
  audit : List AuditRow
deriving DecidableEq

/-- `store_t`: the connection and the decoy key read at opening. -/
structure Store where
  conn : Connection Tables
  decoyPk : SigPublicKey
deriving DecidableEq

/-- `STORE_ID_MAX`. -/
def storeIdMax : ℕ := 64

/-- `id_ok`. -/
def idOk (id : Bytes) : Bool := decide (1 ≤ id.length) && decide (id.length ≤ storeIdMax)

theorem length_of_idOk {id : Bytes} (hid : idOk id = true) : id.length ≤ storeIdMax :=
  of_decide_eq_true (Bool.and_eq_true_iff.mp hid).2

/-! ## Queries -/

namespace Tables

variable (tables : Tables)

/-- The row of a user. -/
def userOf (userId : Bytes) : Option UserRow :=
  tables.users.find? fun row => row.userId = userId

/-- The row of a handle's device. -/
def deviceOf (handle : Bytes) : Option DeviceRow :=
  tables.devices.find? fun row => row.handle = handle

/-- `active_key_of`. -/
def activeKeyOf (handle : Bytes) : Option KeyRow :=
  tables.deviceKeys.find? fun row => row.handle = handle && row.status = .active

/-- `pk_exists`: in any state, for any device. -/
def pkExists (pk : SigPublicKey) : Bool :=
  tables.deviceKeys.any fun row => row.pk = pk

/-- `device_owned_by`. -/
def deviceOwnedBy (handle userId : Bytes) : Bool :=
  (tables.deviceOf handle).any fun row => row.userId = userId

/-- The user of a handle, when both the device and the user are active. -/
def activeUserOf (handle : Bytes) : Option UserRow :=
  (tables.deviceOf handle).bind fun device =>
    if device.status = .active then
      (tables.userOf device.userId).filter fun user => user.status = .active
    else none

/-- `device_and_user_active`. -/
def deviceAndUserActive (handle : Bytes) : Bool :=
  (tables.activeUserOf handle).isSome

/-- What the three-way join of `store_lookup_active` finds. -/
structure ActiveKey where
  pk : SigPublicKey
  userId : Bytes
  role : StoreRole
deriving DecidableEq

/-- The join of `store_lookup_active`: active key, active device and active user. -/
def lookupActive (handle : Bytes) : Option ActiveKey :=
  (tables.activeKeyOf handle).bind fun key =>
    (tables.activeUserOf handle).map fun user =>
      { pk := key.pk, userId := user.userId, role := user.role }

/-! ## Changes

An insertion that violates a constraint of the schema is `none`. -/

/-- Insert a user; the id is the primary key. -/
def insertUser (row : UserRow) : Option Tables :=
  if tables.users.any fun other => other.userId = row.userId then none
  else some { tables with users := tables.users ++ [row] }

/-- Insert a device; the handle is the primary key and the user must exist. -/
def insertDevice (row : DeviceRow) : Option Tables :=
  if (tables.devices.any fun other => other.handle = row.handle) ||
      !(tables.users.any fun user => user.userId = row.userId) then none
  else some { tables with devices := tables.devices ++ [row] }

/-- The next row id of the key table. -/
def nextKeyId : ℕ :=
  tables.deviceKeys.foldl (fun largest row => max largest row.keyId) 0 + 1

/-- Insert an active key: keys and fingerprints are unique over the whole table, a handle
has at most one active key (`one_active_key`), and its device must exist. -/
def insertKey (handle : Bytes) (pk : SigPublicKey) (pkFp : StoreHash) (now : ℤ) : Option Tables :=
  if (tables.deviceKeys.any fun other => decide (other.pk = pk) || decide (other.pkFp = pkFp)) ||
      (tables.activeKeyOf handle).isSome ||
      !(tables.devices.any fun device => device.handle = handle) then none
  else
    some
      { tables with
        deviceKeys := tables.deviceKeys ++
          [{ keyId := tables.nextKeyId
             handle := handle
             pk := pk
             pkFp := pkFp
             status := .active
             validFrom := now
             validTo := none
             supersededByHsid := none }] }

/-- The first update of `store_rotate_key`. -/
def supersedeKey (keyId : ℕ) (now : ℤ) (hsid : Option Bytes) : Tables :=
  { tables with
    deviceKeys := Rows.updateWhere (fun row => row.keyId = keyId) (fun row =>
        { row with status := .superseded, validTo := some now, supersededByHsid := hsid })
      tables.deviceKeys }

/-- The first update of `revoke_device_locked`. -/
def revokeDevice (handle «by» : Bytes) (reason : Option Bytes) (now : ℤ) : Tables :=
  { tables with
    devices := Rows.updateWhere (fun row => row.handle = handle) (fun row =>
        { row with
          status := .revoked
          revokedAt := some now
          revokedBy := some «by»
          revokedReason := reason })
      tables.devices }

/-- The second update of `revoke_device_locked`. -/
def revokeKey (handle : Bytes) (now : ℤ) : Tables :=
  { tables with
    deviceKeys := Rows.updateWhere (fun row => row.handle = handle && row.status = .active)
      (fun row => { row with status := .revoked, validTo := some now })
      tables.deviceKeys }

/-- The update of `set_user_status`. -/
def setUserStatus (userId : Bytes) (status : UserStatus)
    (disabledAt : Option ℤ) (reason : Option Bytes) : Tables :=
  { tables with
    users := Rows.updateWhere (fun row => row.userId = userId) (fun row =>
        { row with status := status, disabledAt := disabledAt, disabledReason := reason })
      tables.users }

/-- The update of `store_touch_last_seen`. -/
def touchDevice (handle : Bytes) (now : ℤ) : Tables :=
  { tables with
    devices := Rows.updateWhere (fun row => row.handle = handle)
      (fun row => { row with lastSeen := some now }) tables.devices }

/-- Insert a token; the hash is the primary key. -/
def insertToken (row : TokenRow) : Option Tables :=
  if tables.tokens.any fun other => other.tokenHash = row.tokenHash then none
  else some { tables with tokens := tables.tokens ++ [row] }

/-- The update of `store_verify_token`. -/
def slideToken (tokenHash : StoreHash) (now idleExpiresAt : ℤ) : Tables :=
  { tables with
    tokens := Rows.updateWhere (fun row => row.tokenHash = tokenHash)
      (fun row => { row with lastVerifiedAt := some now, idleExpiresAt := idleExpiresAt })
      tables.tokens }

/-- Delete the tokens that meet a condition. -/
def deleteTokens (condition : TokenRow → Bool) : Tables :=
  { tables with tokens := tables.tokens.filter fun row => !condition row }

/-- Insert a login code; the hash is the primary key. -/
def insertLoginCode (row : LoginCodeRow) : Option Tables :=
  if tables.loginCodes.any fun other => other.codeHash = row.codeHash then none
  else some { tables with loginCodes := tables.loginCodes ++ [row] }

/-- The update of `store_consume_login_code_ex`. -/
def useLoginCode (codeHash : StoreHash) (now : ℤ) : Tables :=
  { tables with
    loginCodes := Rows.updateWhere (fun row => row.codeHash = codeHash)
      (fun row => { row with usedAt := some now }) tables.loginCodes }

/-- The second deletion of `store_sweep`. -/
def sweepLoginCodes (now : ℤ) : Tables :=
  { tables with
    loginCodes := tables.loginCodes.filter fun row => !decide (row.expiresAt ≤ now) }

/-- The third deletion of `store_sweep`. -/
def sweepTickets (now : ℤ) : Tables :=
  { tables with
    enrollTickets := tables.enrollTickets.filter fun row => !decide (row.expiresAt ≤ now) }

/-- Insert an enrollment ticket; the hash is the primary key. -/
def insertTicket (row : TicketRow) : Option Tables :=
  if tables.enrollTickets.any fun other => other.ticketHash = row.ticketHash then none
  else some { tables with enrollTickets := tables.enrollTickets ++ [row] }

/-- The update of `store_enroll_via_ticket`. -/
def spendTicket (ticketHash : StoreHash) (now : ℤ) : Tables :=
  { tables with
    enrollTickets := Rows.updateWhere
      (fun row => row.ticketHash = ticketHash && row.usedAt.isNone)
      (fun row => { row with usedAt := some now }) tables.enrollTickets }

/-- The update of `store_recovery_replace`. -/
def supersedeRecoveryCodes (userId : Bytes) (now : ℤ) : Tables :=
  { tables with
    recoveryCodes := Rows.updateWhere (fun row => row.userId = userId && row.usedAt.isNone)
      (fun row => { row with usedAt := some now, usedFrom := some (ascii "superseded") })
      tables.recoveryCodes }

/-- The next row id of the recovery codes. -/
def nextCodeId : ℕ :=
  tables.recoveryCodes.foldl (fun largest row => max largest row.codeId) 0 + 1

/-- One insertion of `store_recovery_replace`. -/
def insertRecoveryCode (userId pwhashStr : Bytes) (now : ℤ) : Tables :=
  { tables with
    recoveryCodes := tables.recoveryCodes ++
      [{ codeId := tables.nextCodeId
         userId := userId
         pwhashStr := pwhashStr
         issuedAt := now
         usedAt := none
         usedFrom := none }] }

/-- The first update of `store_recovery_consume_ex`. -/
def spendRecoveryCode (codeId : ℕ) (userId : Bytes) (now : ℤ) : Tables :=
  { tables with
    recoveryCodes := Rows.updateWhere
      (fun row => row.codeId = codeId && row.usedAt.isNone && row.userId = userId)
      (fun row => { row with usedAt := some now, usedFrom := some (ascii "recovery-use") })
      tables.recoveryCodes }

/-- Set the failure count and the end of the lock of a user. -/
def setRecovery (userId : Bytes) (failures : ℕ → ℕ) (lockedUntil : ℤ → ℤ) : Tables :=
  { tables with
    users := Rows.updateWhere (fun row => row.userId = userId) (fun row =>
        { row with
          recoveryFailCount := failures row.recoveryFailCount
          recoveryLockedUntil := lockedUntil row.recoveryLockedUntil })
      tables.users }

/-! ## What an insertion does -/

section Insertions

variable {before after : Tables} {handle : Bytes} {pk : SigPublicKey} {pkFp : StoreHash} {now : ℤ}

/-- A row was inserted because nothing stood against it. -/
theorem eq_of_insert {barred : Bool} {next : Tables}
    (hinsert : (if barred then none else some next) = some after) :
    barred = false ∧ after = next := by
  obtain ⟨hallowed, hafter⟩ := Option.ite_none_left_eq_some.mp hinsert
  exact ⟨Bool.eq_false_iff.mpr hallowed, (Option.some.inj hafter).symm⟩

theorem insertUser_eq_some {row : UserRow} (hinsert : before.insertUser row = some after) :
    (before.users.any fun other => other.userId = row.userId) = false ∧
      after = { before with users := before.users ++ [row] } :=
  eq_of_insert hinsert

theorem insertDevice_eq_some {row : DeviceRow} (hinsert : before.insertDevice row = some after) :
    (before.devices.any fun other => other.handle = row.handle) = false ∧
      (before.users.any fun user => user.userId = row.userId) = true ∧
      after = { before with devices := before.devices ++ [row] } := by
  obtain ⟨hallowed, hafter⟩ := Option.ite_none_left_eq_some.mp hinsert
  simp only [Bool.or_eq_true, Bool.not_eq_true', not_or, Bool.not_eq_true,
    Bool.not_eq_false] at hallowed
  exact ⟨hallowed.1, hallowed.2, (Option.some.inj hafter).symm⟩

/-- A key is refused for a key or a fingerprint on record, for a handle with an active key, and
for a handle without a device. -/
theorem insertKey_eq_none_iff {tables : Tables} :
    tables.insertKey handle pk pkFp now = none ↔
      tables.pkExists pk = true ∨ (tables.deviceKeys.any fun row => row.pkFp = pkFp) = true ∨
        (tables.activeKeyOf handle).isSome = true ∨
        (tables.devices.any fun row => row.handle = handle) = false := by
  have hany : (tables.deviceKeys.any fun other =>
      decide (other.pk = pk) || decide (other.pkFp = pkFp)) =
        (tables.pkExists pk || tables.deviceKeys.any fun row => row.pkFp = pkFp) := by
    unfold pkExists
    induction tables.deviceKeys with
    | nil => rfl
    | cons head tail ih =>
      rw [List.any_cons, List.any_cons, List.any_cons, ih]
      ac_rfl
  unfold insertKey
  rw [hany]
  split_ifs with hrefused
  · simpa [or_assoc] using hrefused
  simpa [or_assoc] using hrefused

theorem insertKey_eq_some (hinsert : before.insertKey handle pk pkFp now = some after) :
    before.pkExists pk = false ∧ before.activeKeyOf handle = none ∧
      after =
        { before with
          deviceKeys := before.deviceKeys ++
            [⟨before.nextKeyId, handle, pk, pkFp, .active, now, none, none⟩] } := by
  have hallowed : before.insertKey handle pk pkFp now ≠ none := hinsert ▸ Option.some_ne_none after
  rw [Ne, insertKey_eq_none_iff, not_or, not_or, not_or] at hallowed
  have hafter := (Option.ite_none_left_eq_some.mp hinsert).2
  exact ⟨Bool.eq_false_iff.mpr hallowed.1, Option.not_isSome_iff_eq_none.mp hallowed.2.2.1,
    (Option.some.inj hafter).symm⟩

theorem insertToken_eq_some {row : TokenRow} (hinsert : before.insertToken row = some after) :
    (before.tokens.any fun other => other.tokenHash = row.tokenHash) = false ∧
      after = { before with tokens := before.tokens ++ [row] } :=
  eq_of_insert hinsert

theorem insertLoginCode_eq_some {row : LoginCodeRow}
    (hinsert : before.insertLoginCode row = some after) :
    (before.loginCodes.any fun other => other.codeHash = row.codeHash) = false ∧
      after = { before with loginCodes := before.loginCodes ++ [row] } :=
  eq_of_insert hinsert

theorem insertTicket_eq_some {row : TicketRow} (hinsert : before.insertTicket row = some after) :
    (before.enrollTickets.any fun other => other.ticketHash = row.ticketHash) = false ∧
      after = { before with enrollTickets := before.enrollTickets ++ [row] } :=
  eq_of_insert hinsert

end Insertions

end Tables

/-! ## Statements -/

/-- A program over the store's tables. -/
abbrev StoreProgram := Program Tables StoreStatus

variable [Severity]

/-- A statement that reads. -/
def query {Value : Type} (read : Tables → Value) : StoreProgram Value :=
  .statement .errDb fun tables => (read tables, tables)

/-- A statement that changes rows. -/
def exec (change : Tables → Tables) : StoreProgram Unit :=
  .statement .errDb fun tables => (⟨⟩, change tables)

/-- A statement that changes rows and counts them. -/
def execCount (change : Tables → Tables) (count : Tables → ℕ) : StoreProgram ℕ :=
  .statement .errDb fun tables => (count tables, change tables)

/-- A statement that inserts; the value says whether the constraints allowed it. -/
def insert (change : Tables → Option Tables) : StoreProgram Bool :=
  .statement .errDb fun tables =>
    match change tables with
    | some next => (true, next)
    | none => (false, tables)

/-- `tx_begin`, a body, and `tx_commit` or `tx_rollback`. -/
def transaction {Value : Type} (body : StoreProgram (Ending StoreStatus Value)) :
    StoreProgram Value :=
  .transaction .errDb body

/-! ## The audit chain -/

/-- `STORE_AUDIT_MAC_BYTES`. -/
def storeAuditMacBytes : ℕ := 32

/-- `be64` of a signed number. -/
def be64 (value : ℤ) : Bytes := beBytes 8 (value % 2 ^ 64).toNat

/-- `audit_mac_input`: every variable field is behind its length, and the whole must fit the
buffer. -/
def auditMacInput (prevMac : Bytes) (seq at_ : ℤ) (event userId handle detail : Bytes) :
    Option Bytes :=
  if 255 < userId.length ∨ 255 < handle.length ∨ 0xffff < detail.length then none
  else
    let bytes := prevMac ++ be64 seq ++ be64 at_ ++ event ++ 0 ::
      (beBytes 1 userId.length ++ userId ++ beBytes 1 handle.length ++ handle ++
        beBytes 2 detail.length ++ detail)
    if 1024 < bytes.length then none else some bytes

/-- `audit_head`: sequence number and MAC of the last row, zero when there is none. -/
def auditHead : StoreProgram (ℤ × Bytes) := do
  let last ← query fun tables => tables.audit.getLast?
  match last with
  | none => return (0, (Blob.zero storeAuditMacBytes).toList)
  | some row =>
    .require (decide (row.mac.length ≤ storeAuditMacBytes)) .errDb
    .require (decide (row.mac.length = storeAuditMacBytes)) .errCorrupt
    return (row.seq, row.mac)

/-- `audit_append`. -/
def auditAppend (prims : DaemonPrimitives) (event : Bytes) (userId handle : Option Bytes)
    (detail : Bytes) (now : ℤ) : StoreProgram Unit := do
  let (prevSeq, prevMac) ← auditHead
  match auditMacInput prevMac (prevSeq + 1) now event (userId.getD []) (handle.getD []) detail with
  | none => .fail .errArg
  | some input =>
    exec fun tables =>
      { tables with
        audit := tables.audit ++
          [{ seq := prevSeq + 1
             at_ := now
             event := event
             userId := userId
             handle := handle
             detail := detail
             prevMac := prevMac
             mac := (prims.auditMac input).toList }] }

end MldsaAuth.Authd
