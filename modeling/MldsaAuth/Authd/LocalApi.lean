/-
# The local API

The site and the administrator talk to the daemon in lines over local sockets: a
command and `key=value` pairs, all printable. Each command is one handler, looked up
in the table of the socket's kind; an administrative command is simply absent from
the site's table. A handler runs operations of the store and answers one reply. This
file embeds `authd/localapi.c` with the parts of `tokens.c` and `recovery.c` that it
uses. A handler is a program over the store that ends in a reply or in a refusal; the
closing of connections that some replies entail is left to the loop.
-/

import MldsaAuth.Authd.Conn

namespace MldsaAuth.Authd

open Foundation Crypto

/-! ## Requests -/

/-- `req_t`: the command and its pairs in the order given. -/
structure Request where
  cmd : Bytes
  pairs : List (Bytes × Bytes)
deriving DecidableEq

/-- `LOCALAPI_MAX_KEYS`. -/
def localapiMaxKeys : ℕ := 12

/-- `AUTHD_LIST_MAX`. -/
def authdListMax : ℕ := 24

/-- The bytes a request may consist of. -/
def printable (byte : UInt8) : Bool := decide (0x20 ≤ byte.toNat) && decide (byte.toNat ≤ 0x7e)

/-- The tokens after the command; runs of spaces separate them. -/
def requestTokens (bytes : Bytes) : List Bytes := (bytes.splitOn 0x20).filter (· ≠ [])

/-- One `key=value` token is added to the pairs: the key is not empty, not given twice, and
there is room for it. -/
def addPair (pairs : List (Bytes × Bytes)) (token : Bytes) : Option (List (Bytes × Bytes)) :=
  let key := token.takeWhile (· ≠ 0x3d)
  if key = [] ∨ key.length = token.length then none
  else if localapiMaxKeys ≤ pairs.length then none
  else if pairs.any fun pair => pair.1 = key then none
  else some (pairs ++ [(key, token.drop (key.length + 1))])

/-- `parse_request`. -/
def parseRequest (line : Bytes) : Option Request :=
  if line.all printable then
    let cmd := line.takeWhile (· ≠ 0x20)
    if cmd = [] ∨ 24 ≤ cmd.length then none
    else
      ((requestTokens (line.drop cmd.length)).foldlM addPair []).map fun pairs =>
        { cmd := cmd, pairs := pairs }
  else none

namespace Request

/-- `kv_get`. -/
def kvGet (request : Request) (key : Bytes) : Option Bytes :=
  (request.pairs.find? fun pair => pair.1 = key).map Prod.snd

/-- `keys_are_known`. -/
def keysAreKnown (request : Request) (allowed : List Bytes) : Bool :=
  request.pairs.all fun pair => allowed.contains pair.1

/-- `get_hex`. -/
def getHex (request : Request) (key : Bytes) (cap minLen : ℕ) : Option Bytes :=
  (request.kvGet key).bind fun value =>
    if value = [] then if minLen = 0 then some [] else none
    else if value.length % 2 ≠ 0 ∨ cap < value.length / 2 then none
    else (hex2bin value).filter fun bytes => minLen ≤ bytes.length

/-- `id_valid`. -/
def idValid (id : Bytes) : Bool := idOk id && id.all printable

variable (request : Request)

/-- An identifier in hexadecimal. -/
def getId (key : Bytes) : Option Bytes :=
  (request.getHex key storeIdMax 1).filter idValid

/-- A value of a fixed size in hexadecimal, read into a buffer of another. -/
def getBlob (key : Bytes) (cap size : ℕ) : Option (Blob size) :=
  (request.getHex key cap size).bind fun bytes =>
    if hsize : bytes.length = size then some ⟨bytes, hsize⟩ else none

/-- An optional text in hexadecimal, empty when it is not given. -/
def getText (key : Bytes) (cap : ℕ) : Option Bytes :=
  if (request.kvGet key).isNone then some [] else request.getHex key cap 0

/-- A decimal number of a bounded number of digits. -/
def getDecimal (key : Bytes) (digits : ℕ) : Option ℕ :=
  (request.kvGet key).bind fun value =>
    if value = [] ∨ digits < value.length then none
    else
      value.foldlM (fun number letter =>
        if 0x30 ≤ letter.toNat ∧ letter.toNat ≤ 0x39 then
          some (number * 10 + (letter.toNat - 0x30))
        else none) 0

end Request

/-- A text that is passed on only if it is not empty. -/
def nonempty (text : Bytes) : Option Bytes := if text = [] then none else some text

/-! ## Replies -/

/-- The codes of `send_err`. -/
inductive ApiErr where
  | malformed
  | internal
  | notPermitted
  | pkInUse
  | existsDifferentKey
  | ticketInvalid
  | roleMismatch
  | userDisabled
  | expired
  | used
  | stateMismatch
  | unknown
  | idleExpired
  | deviceRevoked
  | tooMany
  | invalid
  | locked
deriving DecidableEq, Repr

/-- The text of a code. -/
def ApiErr.text : ApiErr → Bytes
  | malformed => ascii "malformed"
  | internal => ascii "internal"
  | notPermitted => ascii "not-permitted"
  | pkInUse => ascii "pk-in-use"
  | existsDifferentKey => ascii "exists-different-key"
  | ticketInvalid => ascii "ticket-invalid"
  | roleMismatch => ascii "role-mismatch"
  | userDisabled => ascii "user-disabled"
  | expired => ascii "expired"
  | used => ascii "used"
  | stateMismatch => ascii "state-mismatch"
  | unknown => ascii "unknown"
  | idleExpired => ascii "idle-expired"
  | deviceRevoked => ascii "device-revoked"
  | tooMany => ascii "too-many"
  | invalid => ascii "invalid"
  | locked => ascii "locked"

/-- A token that was minted: the hash of the login code it was exchanged for, the `state`
presented with it, the token, whom it is for, and its lifetime. -/
structure Minted where
  codeHash : StoreHash
  state : Bytes
  token : Blob 32
  userId : Bytes
  handle : Bytes
  role : StoreRole
  issuedAt : ℤ
  expiresAt : ℤ
deriving DecidableEq

/-- A token that was found good at a time, and what was reported about it. -/
structure Verified where
  token : Blob 32
  userId : Bytes
  handle : Bytes
  role : StoreRole
  at_ : ℤ
deriving DecidableEq

/-- What a request that was answered OK did to accounts and tokens. -/
inductive ApiEffect where
  | deviceRevoked (handle : Bytes)
  | userDisabled (userId : Bytes)
  | userEnabled (userId : Bytes)
  | devicesRevoked (userId : Bytes)
  | tokenMinted (minted : Minted)
  | tokenVerified (verified : Verified)
  | tokenDeleted (token : Blob 32)
  | handleTokensDeleted (userId handle : Bytes)
  | userTokensDeleted (userId : Bytes)
deriving DecidableEq

/-- A refusal, with the password hashes tried on the way to it. -/
structure Refusal where
  code : ApiErr
  kdfCalls : ℕ := 0
deriving DecidableEq

/-- A reply that is not an error. -/
structure Reply where
  text : Bytes
  kdfCalls : ℕ := 0
  effect : Option ApiEffect := none
deriving DecidableEq

/-- A program of the local API. -/
abbrev Api := Program Tables Refusal

/-- Refuse a request. -/
def refuse {Value : Type} (code : ApiErr) : Api Value := .fail { code := code }

/-- Go on only if a condition holds. -/
def check (condition : Bool) (code : ApiErr) : Api Unit := .require condition { code := code }

/-- A field of the request, which is malformed without it. -/
def field {Value : Type} : Option Value → Api Value
  | some value => pure value
  | none => refuse .malformed

/-- Call the store, and answer a code for each status it may end with. -/
def call {Value : Type} (program : StoreProgram Value) (report : StoreStatus → ApiErr) :
    Api Value :=
  program.mapStatus fun status => { code := report status }

/-- Call the store and look at the outcome. -/
def callAttempt {Value : Type} (program : StoreProgram Value) : Api (Except StoreStatus Value) :=
  call program.attempt fun _ => .internal

/-- A status that is reported as `internal`, except that a row was not found. -/
def orNotFound (code : ApiErr) (status : StoreStatus) : ApiErr :=
  if status = .errNotFound then code else .internal

/-- What a request takes from its surroundings: fresh secrets, the outcome of making each
recovery code (its bytes and its password hash), the two readings of the wall clock that the
store may make by itself, and whether a backup succeeds. -/
structure LocalEnv where
  token : Blob 32
  ticket : Blob 32
  recoveryCode : ℕ → Option (Blob 10 × Bytes)
  storeNow : ℤ
  storeLater : ℤ
  backupOk : Bool

/-! ## Handlers -/

section Handlers

variable (prims : DaemonPrimitives) (config : AuthdConfig) (env : LocalEnv) (nowMs : ℕ)
  (nowUnix : ℤ) (isAdmin : Bool) (request : Request)

/-- `h_ping`. -/
def hPing : Api Reply := do
  check (decide (request.pairs = [])) .malformed
  let uptime := (nowMs + 2 ^ 64 - config.startedMs) % 2 ^ 64 / 1000
  return { text := ascii "OK version=1 schema=1 uptime=" ++ decimal uptime ++ ascii "\n" }

/-- `refuse_conflict`. -/
def refuseConflict (handle : Bytes) (pk : SigPublicKey) : Api Reply := do
  let last ← call (storeHandleLastKey handle) (orNotFound .pkInUse)
  if last = pk then refuse .pkInUse else refuse .existsDifferentKey

/-- The fields of an enrollment. -/
structure EnrollRequest where
  userId : Bytes
  handle : Bytes
  pk : SigPublicKey
  label : Option Bytes
deriving DecidableEq

/-- The reply to an enrollment. -/
def enrollReply (pk : SigPublicKey) (idempotent : Bool) : Reply where
  text := ascii "OK fp=" ++ bin2hex (fingerprint prims pk).toList ++
    (if idempotent then ascii " idempotent=1" else []) ++ ascii "\n"

variable (role : StoreRole)

/-- `enroll_common` with `via=recovery`: the ticket is redeemed for the new device. -/
def enrollViaRecovery (given : EnrollRequest) (ticket : Blob 32) : Api Reply := do
  let (existingRole, status) ← call (storeGetUser given.userId) (orNotFound .ticketInvalid)
  check (decide (existingRole = role)) .roleMismatch
  check (decide (status = .active)) .userDisabled
  let outcome ← callAttempt (storeEnrollViaTicket prims (prims.sha256 ticket.toList)
    given.userId given.handle given.pk given.label nowUnix)
  match outcome with
  | .ok _ => return enrollReply prims given.pk false
  | .error .errNotFound => refuse .ticketInvalid
  | .error .errState => refuse .userDisabled
  | .error .errConflict => refuseConflict given.handle given.pk
  | .error _ => refuse .internal

/-- The end of `enroll_common` with `via=site`, when the device is not known to be enrolled. -/
def enrollAtSite (given : EnrollRequest) : Api Reply := do
  let outcome ← callAttempt (storeEnrollDeviceEx prims
    { handle := given.handle
      userId := given.userId
      pk := given.pk
      via := ascii "site"
      «by» := ascii "local-api"
      label := given.label } role env.storeNow env.storeLater)
  match outcome with
  | .ok idempotent => return enrollReply prims given.pk idempotent
  | .error .errConflict => refuseConflict given.handle given.pk
  | .error _ => refuse .internal

/-- The lookup of the handle in `enroll_common` with `via=site`. -/
def enrollLookup (given : EnrollRequest) : Api Reply := do
  let current ← callAttempt (storeLookupActive given.handle)
  match current with
  | .ok key =>
    if key.pk = given.pk then
      if key.userId = given.userId then return enrollReply prims given.pk true
      else enrollAtSite prims env role given
    else refuse .existsDifferentKey
  | .error _ => enrollAtSite prims env role given

/-- `enroll_common` with `via=site`. -/
def enrollViaSite (given : EnrollRequest) : Api Reply := do
  let known ← callAttempt (storeGetUser given.userId)
  match known with
  | .ok (existingRole, status) =>
    check (decide (existingRole = role)) .roleMismatch
    check (decide (status = .active)) .userDisabled
  | .error .errNotFound => pure ⟨⟩
  | .error _ => refuse .internal
  enrollLookup prims env role given

/-- `enroll_common`. -/
def enrollCommon : Api Reply := do
  check (request.keysAreKnown
    [ascii "user", ascii "handle", ascii "pk", ascii "label", ascii "via", ascii "ticket"])
    .malformed
  let userId ← field (request.getId (ascii "user"))
  let handle ← field (request.getId (ascii "handle"))
  let pk ← field (request.getBlob (ascii "pk") 1952 1952)
  let label ← field (request.getText (ascii "label") storeIdMax)
  let via ← field (request.kvGet (ascii "via"))
  let given : EnrollRequest :=
    { userId := userId, handle := handle, pk := pk, label := nonempty label }
  if via = ascii "recovery" then
    let ticket ← field (request.getBlob (ascii "ticket") 32 32)
    enrollViaRecovery prims nowUnix role given ticket
  else
    check (decide (via = ascii "site") && (request.kvGet (ascii "ticket")).isNone) .malformed
    enrollViaSite prims env role given

/-- `h_enroll`. -/
def hEnroll : Api Reply := enrollCommon prims env nowUnix request .user

/-- `h_enroll_operator`. -/
def hEnrollOperator : Api Reply := enrollCommon prims env nowUnix request .operator

/-- `tokens_ttl_s`. -/
def tokensTtlS : StoreRole → ℕ
  | .operator => 28800
  | .user => 43200

/-- `tokens_idle_ttl_s`. -/
def tokensIdleTtlS : StoreRole → ℕ
  | .operator => 1800
  | .user => 3600

/-- The end of a reply that describes a token. -/
def tokenText (userId handle : Bytes) (role : StoreRole) (issued expires : ℤ) : Bytes :=
  ascii "user=" ++ bin2hex userId ++ ascii " handle=" ++ bin2hex handle ++ ascii " role=" ++
    role.text ++ ascii " issued=" ++ signedDecimal issued ++ ascii " expires=" ++
    signedDecimal expires ++ ascii "\n"

/-- The row of the token an exchange adds. -/
def exchangeRow (userId handle : Bytes) (role : StoreRole) : TokenRow where
  tokenHash := prims.sha256 env.token.toList
  userId := userId
  handle := handle
  handshakeId := none
  issuedAt := nowUnix
  expiresAt := nowUnix + tokensTtlS role
  idleExpiresAt := nowUnix + tokensIdleTtlS role
  lastVerifiedAt := none

/-- The token an exchange reports. -/
def exchangeMinted (codeHash : StoreHash) (state userId handle : Bytes) (role : StoreRole) :
    Minted where
  codeHash := codeHash
  state := state
  token := env.token
  userId := userId
  handle := handle
  role := role
  issuedAt := nowUnix
  expiresAt := nowUnix + tokensTtlS role

/-- The reply of an exchange. -/
def exchangeReply (minted : Minted) : Reply where
  text := ascii "OK token=" ++ bin2hex env.token.toList ++ ascii " " ++
    tokenText minted.userId minted.handle minted.role minted.issuedAt minted.expiresAt
  effect := some (.tokenMinted minted)

/-- `tokens_issue`, with the end of `h_exchange`. -/
def exchangeToken (codeHash : StoreHash) (state userId handle : Bytes) (role : StoreRole) :
    Api Reply := do
  call (storeAddToken (exchangeRow prims env nowUnix userId handle role)) fun _ => .internal
  return exchangeReply env (exchangeMinted env nowUnix codeHash state userId handle role)

/-- `h_exchange`. -/
def hExchange : Api Reply := do
  check (request.keysAreKnown [ascii "code", ascii "state"]) .malformed
  let code ← field (request.getBlob (ascii "code") 64 32)
  let state ← field (request.getHex (ascii "state") 256 0)
  let (verdict, userId, handle) ← call (storeConsumeLoginCodeEx
    (prims.sha256 code.toList) (prims.sha256 state) nowUnix) fun _ => .internal
  match verdict with
  | .expired => refuse .expired
  | .used => refuse .used
  | .stateMismatch => refuse .stateMismatch
  | .unknown => refuse .unknown
  | .ok =>
    let known ← callAttempt (storeGetUser userId)
    let role := match known with
      | .ok (role, _) => role
      | .error _ => .user
    exchangeToken prims env nowUnix (prims.sha256 code.toList) state userId handle role

/-- The reply of `h_verify` to a verdict. -/
def verifyReply (token : Blob 32) (verdict : TokenVerdict) (info : Option TokenInfo) : Api Reply :=
  match verdict, info with
  | .ok, some info =>
    pure
      { text := ascii "OK " ++
          tokenText info.userId info.handle info.role info.issuedAt info.expiresAt
        effect := some (.tokenVerified
          { token := token
            userId := info.userId
            handle := info.handle
            role := info.role
            at_ := nowUnix }) }
  | .expired, _ => refuse .expired
  | .idleExpired, _ => refuse .idleExpired
  | .deviceRevoked, _ => refuse .deviceRevoked
  | .userDisabled, _ => refuse .userDisabled
  | _, _ => refuse .unknown

/-- `h_verify`: the first call finds the role, the second slides the idle window by it. -/
def hVerify : Api Reply := do
  check (request.keysAreKnown [ascii "token"]) .malformed
  let token ← field (request.getBlob (ascii "token") 64 32)
  let (verdict, info) ← call (storeVerifyToken (prims.sha256 token.toList) nowUnix 0)
    fun _ => .internal
  match verdict, info with
  | .ok, some found =>
    let again ← callAttempt (storeVerifyToken (prims.sha256 token.toList) nowUnix
      (tokensIdleTtlS found.role))
    match again with
    | .ok (verdict, info) => verifyReply nowUnix token verdict info
    | .error _ => refuse .unknown
  | verdict, info => verifyReply nowUnix token verdict info

/-- `h_logout`. -/
def hLogout : Api Reply := do
  check (request.keysAreKnown [ascii "token"]) .malformed
  let token ← field (request.getBlob (ascii "token") 64 32)
  let deleted ← call (storeDeleteToken (prims.sha256 token.toList)) fun _ => .internal
  pure
    { text := ascii "OK deleted=" ++ decimal deleted ++ ascii "\n"
      effect := some (.tokenDeleted token) }

/-- The end of `h_revoke_tokens` for one handle of a user. -/
def revokeHandleTokens (userId handle : Bytes) : Api Reply := do
  let deleted ← call (storeDeleteTokensForHandle userId handle) fun _ => .internal
  pure
    { text := ascii "OK count=" ++ decimal deleted ++ ascii "\n"
      effect := some (.handleTokensDeleted userId handle) }

/-- The end of `h_revoke_tokens` for all handles of a user. -/
def revokeUserTokens (userId : Bytes) : Api Reply := do
  let deleted ← call (storeDeleteTokensForUser userId) fun _ => .internal
  pure
    { text := ascii "OK count=" ++ decimal deleted ++ ascii "\n"
      effect := some (.userTokensDeleted userId) }

/-- `h_revoke_tokens`. -/
def hRevokeTokens : Api Reply := do
  check (request.keysAreKnown [ascii "user", ascii "handle"]) .malformed
  let userId ← field (request.getId (ascii "user"))
  if (request.kvGet (ascii "handle")).isSome then
    let handle ← field (request.getId (ascii "handle"))
    revokeHandleTokens userId handle
  else revokeUserTokens userId

/-- `h_revoke_device`. -/
def hRevokeDevice : Api Reply := do
  check (request.keysAreKnown [ascii "handle", ascii "reason"]) .malformed
  let handle ← field (request.getId (ascii "handle"))
  let reason ← field (request.getText (ascii "reason") 256)
  call (storeRevokeDevice prims handle (ascii "local-api") (nonempty reason) env.storeNow)
    (orNotFound .unknown)
  return { text := ascii "OK\n", effect := some (.deviceRevoked handle) }

/-- `set_user_status` to disable, `h_disable_user`. -/
def hDisableUser : Api Reply := do
  check (request.keysAreKnown [ascii "user", ascii "reason"]) .malformed
  let userId ← field (request.getId (ascii "user"))
  let reason ← field (request.getText (ascii "reason") 256)
  call (storeDisableUser prims userId (ascii "local-api") (nonempty reason) env.storeNow)
    (orNotFound .unknown)
  return { text := ascii "OK\n", effect := some (.userDisabled userId) }

/-- `set_user_status` to enable, `h_enable_user`; it takes no reason and closes nothing. -/
def hEnableUser : Api Reply := do
  check (request.keysAreKnown [ascii "user"]) .malformed
  let userId ← field (request.getId (ascii "user"))
  call (storeEnableUser prims userId (ascii "local-api") env.storeNow) (orNotFound .unknown)
  return { text := ascii "OK\n", effect := some (.userEnabled userId) }

/-! ## Lists -/

/-- `finish_list`: the lines between a count and an end, if they are few enough and fit. -/
def finishList (lines : List Bytes) : Api Reply := do
  let header := ascii "OK count=" ++ decimal lines.length ++ ascii "\n"
  check (decide (lines.length ≤ authdListMax) &&
    decide (lines.flatten.length + header.length + 5 ≤ authdFrameMax)) .tooMany
  return { text := header ++ lines.flatten ++ ascii "END\n" }

/-- `on_device`. -/
def deviceLine (listing : DeviceListing) : Bytes :=
  let label := listing.device.label.getD []
  ascii "DEVICE handle=" ++ bin2hex listing.device.handle ++ ascii " label=" ++
    bin2hex (if label.length ≤ storeIdMax then label else []) ++ ascii " status=" ++
    listing.device.status.text ++ ascii " enrolled=" ++ signedDecimal listing.device.enrolledAt ++
    ascii " last_seen=" ++ signedDecimal (listing.device.lastSeen.getD 0) ++ ascii " fp=" ++
    bin2hex (listing.pkFp.elim [] List.Vector.toList) ++ ascii "\n"

/-- `h_list_devices`. -/
def hListDevices : Api Reply := do
  check (request.keysAreKnown [ascii "user"]) .malformed
  let userId ← field (request.getId (ascii "user"))
  let listings ← call (storeListDevices userId) fun _ => .internal
  finishList (listings.map deviceLine)

/-- `on_user`. -/
def userLine (row : UserRow) : Bytes :=
  ascii "USER user=" ++ bin2hex row.userId ++ ascii " role=" ++ row.role.text ++
    ascii " status=" ++ row.status.text ++ ascii " created=" ++ signedDecimal row.createdAt ++
    ascii "\n"

/-- `h_list_users`. -/
def hListUsers : Api Reply := do
  check (decide (request.pairs = [])) .malformed
  let rows ← call storeListUsers fun _ => .internal
  finishList (rows.map userLine)

/-- `on_audit`. -/
def auditLine (row : AuditRow) : Bytes :=
  ascii "AUDIT seq=" ++ signedDecimal row.seq ++ ascii " at=" ++ signedDecimal row.at_ ++
    ascii " event=" ++ row.event ++ ascii " user=" ++ bin2hex (row.userId.getD []) ++
    ascii " handle=" ++ bin2hex (row.handle.getD []) ++ ascii " detail=" ++ row.detail ++
    ascii "\n"

/-- `h_audit_tail`. -/
def hAuditTail : Api Reply := do
  check (request.keysAreKnown [ascii "n"]) .malformed
  let count ← field (request.getDecimal (ascii "n") 4)
  check (decide (1 ≤ count) && decide (count ≤ authdListMax)) .malformed
  let rows ← call (storeAuditTail count) fun _ => .internal
  finishList (rows.map auditLine)

/-- `h_backup`; the copy itself is not part of the model. -/
def hBackup : Api Reply := do
  check (request.keysAreKnown [ascii "path"]) .malformed
  let path ← field (request.getHex (ascii "path") 511 1)
  check (path.all printable) .malformed
  check env.backupOk .internal
  return { text := ascii "OK\n" }

/-! ## Recovery -/

/-- `RECOVERY_CODES_MAX`. -/
def recoveryCodesMax : ℕ := 16

/-- The recovery codes a request asks for, as typed and as hashed; any of them may fail. -/
def makeRecoveryCodes (count : ℕ) : Option (List (Bytes × Bytes)) :=
  (List.range count).mapM fun index =>
    (env.recoveryCode index).map fun made => (base32Encode made.1.toList, made.2)

/-- A user whom a recovery request may be about: active, and an operator only over the
administrator's socket. -/
def recoveryUser (userId : Bytes) : Api Unit := do
  let (role, status) ← call (storeGetUser userId) (orNotFound .invalid)
  check (decide (status = .active)) .userDisabled
  check (decide (role = .user) || isAdmin) .notPermitted

/-- `h_recovery_issue`. -/
def hRecoveryIssue : Api Reply := do
  check (request.keysAreKnown [ascii "user", ascii "count"]) .malformed
  let userId ← field (request.getId (ascii "user"))
  let count ← field (request.getDecimal (ascii "count") 2)
  check (decide (1 ≤ count) && decide (count ≤ recoveryCodesMax)) .malformed
  recoveryUser isAdmin userId
  match makeRecoveryCodes env count with
  | none => refuse .internal
  | some codes =>
    let _superseded ← call (storeRecoveryReplace prims userId (codes.map Prod.snd) nowUnix)
      (orNotFound .invalid)
    pure
      { text := ascii "OK codes=" ++ (ascii ",").intercalate (codes.map Prod.fst) ++ ascii "\n" }

/-- `recovery_find_match`: the id of the unused code a typed text matches, if any, and the
number of hashes tried. -/
def recoveryFindMatch (userId typed : Bytes) : StoreProgram (Option ℕ × ℕ) :=
  match base32Normalize typed with
  | none => return (none, 0)
  | some canonical => do
      let rows ← storeListUnusedRecoveryCodes userId
      let fresh := rows.takeWhile fun row => !prims.pwhashVerify row.pwhashStr canonical
      return ((rows.drop fresh.length).head?.map RecoveryCodeRow.codeId,
        min (fresh.length + 1) rows.length)

/-- The end of `h_recovery_use`, when a code matched: it is spent for a ticket, and with
`revoke=all` the user's devices are revoked in the same transaction. -/
def spendRecoveryCode (userId : Bytes) (codeId : ℕ) (revokeAll : Bool) (tried : ℕ) : Api Reply := do
  let expires := nowUnix + config.ticketTtlS
  let _revoked ← call (storeRecoveryConsumeEx prims codeId userId
    (prims.sha256 env.ticket.toList) nowUnix expires revokeAll) (orNotFound .invalid)
  pure
    { text := ascii "OK ticket=" ++ bin2hex env.ticket.toList ++ ascii " expires=" ++
        signedDecimal expires ++ ascii "\n"
      kdfCalls := tried
      effect := if revokeAll then some (.devicesRevoked userId) else none }

/-- The end of `h_recovery_use`, when no code matched: the failure is counted. -/
def rejectRecoveryCode (userId : Bytes) : Api Reply := do
  let _noted ← callAttempt (storeRecoveryNoteFailure prims userId nowUnix config.lockThreshold
    config.lockSeconds)
  refuse .invalid

/-- The `revoke` option of `h_recovery_use`. -/
def revokeOption (value : Option Bytes) : Option Bool :=
  match value with
  | none => some false
  | some text =>
    if text = ascii "all" then some true
    else if text = ascii "none" then some false
    else none

/-- `h_recovery_use`. The lock is looked at before any password hash is computed. -/
def hRecoveryUse : Api Reply := do
  check (request.keysAreKnown [ascii "user", ascii "code", ascii "revoke"]) .malformed
  let userId ← field (request.getId (ascii "user"))
  let typed ← field ((request.kvGet (ascii "code")).filter fun value =>
    1 ≤ value.length && value.length ≤ 64)
  let revokeAll ← field (revokeOption (request.kvGet (ascii "revoke")))
  recoveryUser isAdmin userId
  let (locked, _) ← call (storeRecoveryLockState userId nowUnix) fun _ => .internal
  check (!locked) .locked
  let (matched, tried) ← call (recoveryFindMatch prims userId typed) fun _ => .internal
  let rest : Api Reply := match matched with
    | none => rejectRecoveryCode prims config nowUnix userId
    | some codeId => spendRecoveryCode prims config env nowUnix userId codeId revokeAll tried
  rest.mapStatus fun refusal => { refusal with kdfCalls := tried }

/-! ## Dispatch -/

/-- `SITE_TABLE`. -/
def siteTable : List (Bytes × Api Reply) :=
  [(ascii "PING", hPing config nowMs request),
   (ascii "ENROLL", hEnroll prims env nowUnix request),
   (ascii "EXCHANGE", hExchange prims env nowUnix request),
   (ascii "VERIFY", hVerify prims nowUnix request),
   (ascii "LOGOUT", hLogout prims request),
   (ascii "REVOKE-TOKENS", hRevokeTokens request),
   (ascii "REVOKE-DEVICE", hRevokeDevice prims env request),
   (ascii "LIST-DEVICES", hListDevices request),
   (ascii "RECOVERY-ISSUE", hRecoveryIssue prims env nowUnix isAdmin request),
   (ascii "RECOVERY-USE", hRecoveryUse prims config env nowUnix isAdmin request)]

/-- `ADMIN_TABLE`, which starts as the site's. -/
def adminTable : List (Bytes × Api Reply) :=
  siteTable prims config env nowMs nowUnix isAdmin request ++
    [(ascii "ENROLL-OPERATOR", hEnrollOperator prims env nowUnix request),
     (ascii "DISABLE-USER", hDisableUser prims env request),
     (ascii "ENABLE-USER", hEnableUser prims env request),
     (ascii "LIST-USERS", hListUsers request),
     (ascii "AUDIT-TAIL", hAuditTail request),
     (ascii "BACKUP", hBackup env request)]

/-- The handler of a parsed request. -/
def handleRequest : Api Reply :=
  let table := if isAdmin then adminTable prims config env nowMs nowUnix isAdmin request
    else siteTable prims config env nowMs nowUnix isAdmin request
  match table.find? fun entry => entry.1 = request.cmd with
  | some entry => entry.2
  | none => refuse .notPermitted

/-- A line of the local API. -/
def handleLine (line : Bytes) : Api Reply :=
  match parseRequest line with
  | none => refuse .malformed
  | some request => handleRequest prims config env nowMs nowUnix isAdmin request

end Handlers

/-- `send_err`. -/
def errorText (code : ApiErr) : Bytes := ascii "ERR code=" ++ code.text ++ ascii "\n"

/-- `send_resp`: a reply that does not fit is an error. -/
def replyText (text : Bytes) : Bytes :=
  if text = [] ∨ authdFrameMax ≤ text.length then errorText .internal else text

/-- The result of serving a line. Every line keeps the connection open. -/
structure LineServed where
  reply : Bytes
  shared : Shared
  effect : Option ApiEffect
deriving DecidableEq

/-- `localapi_on_line`, up to the closing of connections and the queueing of the reply. -/
def localapiOnLine (prims : DaemonPrimitives) (config : AuthdConfig) (env : LocalEnv)
    (isAdmin : Bool) (shared : Shared) (line : Bytes) : LineServed :=
  let handled := handleLine prims config env shared.nowMs shared.nowUnix isAdmin line
    shared.store.conn
  let store := { shared.store with conn := handled.2 }
  match handled.1 with
  | .ok reply =>
    { reply := replyText reply.text
      shared :=
        { shared with
          store := store
          recoveryKdfCalls := shared.recoveryKdfCalls + reply.kdfCalls }
      effect := reply.effect }
  | .error refusal =>
    { reply := errorText refusal.code
      shared :=
        { shared with
          store := store
          recoveryKdfCalls := shared.recoveryKdfCalls + refusal.kdfCalls }
      effect := none }

end MldsaAuth.Authd
