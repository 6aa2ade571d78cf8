/-
# One protocol connection

A connection waits for a ClientHello, then for a ClientAuth, and then serves records
inside its session until it closes. The key a handle authenticates with is read from
the store once, at the ClientHello, and pinned; a handle without an active key is
given the decoy's. This file embeds `authd/authd_conn.c`. A frame handler acts on its
own connection record and buffers and on what all connections share: the store, the
ledger of pending handshakes and the rate limiter. Beside its result it reports what
it did that the guarantees of the daemon are about.
-/

import MldsaAuth.Authd.AuthMsg
import MldsaAuth.Authd.ConnIo
import MldsaAuth.Authd.RateLimit
import MldsaAuth.Authd.Store.Operations

namespace MldsaAuth.Authd

open Foundation Crypto Protocol

/-- `ev_action_t`. -/
inductive EvAction where
  | continue_
  | close
deriving DecidableEq, Repr

/-- `conn_stage_t`. -/
inductive ConnStage where
  | free
  | awaitCh
  | awaitCa
  | serving
  | closing
deriving DecidableEq, Repr

/-- `authd_conn_t`. -/
structure Conn where
  stage : ConnStage
  hs : HandshakeCtx
  sess : Session
  pinPk : SigPublicKey
  pinSet : Bool
  handle : Bytes
  userId : Bytes
  handshakeId : HandshakeId
  hsidSet : Bool
  decoy : Bool
  hsLive : Bool
  rotated : Bool
deriving DecidableEq

/-- What the daemon is configured with. -/
structure AuthdConfig where
  serverId : Bytes
  serverKp : MldsaKeypair
  padBucket : ℕ
  rotationDueAgeS : ℕ
  codeTtlS : ℕ
  lockThreshold : ℕ
  lockSeconds : ℤ
  ticketTtlS : ℕ
  startedMs : ℕ
  handshakeTimeoutMs : ℕ
  idleTimeoutMs : ℕ

/-- The part of `authd_app_t` that all connections share. -/
structure Shared where
  store : Store
  pending : PendingStore
  rl : Option Ratelimit
  nowMs : ℕ
  nowUnix : ℤ
  nextSweepMs : ℕ
  recoveryKdfCalls : ℕ
deriving DecidableEq

/-- Run a store operation. -/
def Shared.run {Value : Type} (shared : Shared) (program : StoreProgram Value) :
    Except StoreStatus Value × Shared :=
  ((program shared.store.conn).1,
    { shared with store := { shared.store with conn := (program shared.store.conn).2 } })

/-- What serving one frame takes from its surroundings: randomness and allocations (`again` is
for the second signature of a rotation), the record cipher, a fresh login code and the wall
clock that the store reads by itself. -/
structure FrameEnv where
  call : CallEnv
  again : CallEnv
  aead : Aead
  code : Blob 32
  storeNow : ℤ

/-- A login code that was stored: its row, the `state` it is bound to, the key its connection
authenticated with, and what the handle's lookup gives at that moment. -/
structure LoginIssue where
  row : LoginCodeRow
  state : Bytes
  pk : SigPublicKey
  active : Option Tables.ActiveKey
deriving DecidableEq

/-- A rotation that was committed: handle, user and handshake id of its connection, the key it
replaced and the message that asked for it. -/
structure RotationCommit where
  handle : Bytes
  userId : Bytes
  handshakeId : HandshakeId
  pkOld : SigPublicKey
  msg : RotateMsg
deriving DecidableEq

/-- What the store is asked for. -/
def RotationCommit.request (commit : RotationCommit) : Rotation where
  handle := commit.handle
  newPk := commit.msg.pkNew
  expectOldPk := some commit.pkOld
  hsid := some commit.handshakeId.toList
  dropTokens := decide (commit.msg.flags &&& authmsgFlagRotateDropTokens ≠ 0)

/-- What a frame handler did that is more than a change of state. -/
inductive ConnEvent where
  /-- a ServerHello was asked of the handshake, which signs it -/
  | serverHello
  /-- a login code was stored -/
  | loginCode (issue : LoginIssue)
  /-- the admission token was given back -/
  | refund
  /-- a rotation committed -/
  | rotation (commit : RotationCommit)
deriving DecidableEq

/-- The result of serving a frame. -/
structure Served where
  action : EvAction
  conn : Conn
  io : ConnIo
  shared : Shared
  events : List ConnEvent := []
deriving DecidableEq

namespace Conn

/-- A connection record as `calloc` leaves it. -/
def blank : Conn where
  stage := .free
  hs := { HandshakeCtx.wiped with state := .new }
  sess := .blank
  pinPk := Blob.zero 1952
  pinSet := false
  handle := []
  userId := []
  handshakeId := Blob.zero 16
  hsidSet := false
  decoy := false
  hsLive := false
  rotated := false

variable (conn : Conn)

/-- The handshake context and the ledger after `conn_reset` has wiped the context, if it is
live. -/
def wipeHandshake (pending : PendingStore) (now : ℕ) : HandshakeCtx × PendingStore :=
  if conn.hsLive then ctxWipe conn.hs pending now else (conn.hs, pending)

/-- `conn_reset`. -/
def reset (pending : PendingStore) (now : ℕ) : Conn × PendingStore :=
  ({ blank with
      hs := (conn.wipeHandshake pending now).1
      sess := sessionWipe conn.sess },
    (conn.wipeHandshake pending now).2)

/-- What `conn_reset` leaves of a record. -/
def cleared : Conn :=
  { blank with hs := if conn.hsLive then .wiped else conn.hs }

variable (pending : PendingStore)

theorem wipeHandshake_fst (now : ℕ) :
    (conn.wipeHandshake pending now).1 = if conn.hsLive then .wiped else conn.hs := by
  unfold wipeHandshake
  by_cases hlive : conn.hsLive = true
  · rw [if_pos hlive, if_pos hlive]
    unfold ctxWipe
    split <;> rfl
  · rw [if_neg hlive, if_neg hlive]

theorem reset_fst (now : ℕ) : (conn.reset pending now).1 = conn.cleared := by
  unfold reset cleared
  rw [wipeHandshake_fst]
  rfl

/-- `authd_conn_bind`, for the record. -/
def bind (now : ℕ) : Conn × PendingStore :=
  ({ (conn.reset pending now).1 with sess := .blank, stage := .awaitCh },
    (conn.reset pending now).2)

/-- `authd_conn_pin_lookup`. -/
def pinLookup (id : Bytes) : Option SigPublicKey :=
  if conn.pinSet = false ∨ id = [] ∨ id ≠ conn.handle then none else some conn.pinPk

/-- What a handshake call of this connection gets; the ledger's clock is the loop's. -/
def handshakeEnv (call : CallEnv) (now : ℕ) : HandshakeEnv :=
  { call with now := now, later := now, keystore := ⟨[]⟩, lookup := conn.pinLookup }

end Conn

/-! ## Sealed replies -/

/-- `queue_sealed`: whether a content was sealed and queued, and the session and buffers
after that. Content and record are local buffers of their own. -/
def queueSealed (aead : Aead) (now : ℕ) (sess : Session) (io : ConnIo) (content : Bytes) :
    Bool × Session × ConnIo :=
  let sealed := sessionSeal aead sess
    { ptAddr := 0x10000
      content := content
      outAddr := 0x20000
      outCap := authdMaxRecord
      outLenPresent := true } now
  match sealed.status, sealed.output with
  | .ok, some record => (decide ((io.queue record).1 = .ok), sealed.session, (io.queue record).2)
  | _, _ => (false, sealed.session, io)

/-- `fail_with_error`. -/
def failWithError (env : FrameEnv) (shared : Shared) (conn : Conn) (io : ConnIo)
    (code : AuthmsgErr) (events : List ConnEvent) : Served :=
  let queued := queueSealed env.aead shared.nowMs conn.sess io (encodeError code)
  { action := .close
    conn := { conn with sess := queued.2.1, stage := .closing }
    io := queued.2.2
    shared := shared
    events := events }

/-! ## Waiting for a ClientHello -/

/-- The key a handle is to authenticate with, and whose it is. -/
structure Pin where
  pk : SigPublicKey
  userId : Bytes
  decoy : Bool
deriving DecidableEq

/-- `authd_conn_resolve_pin`, without its time floor. Every handle gets a key. -/
def resolvePin (shared : Shared) (handle : Bytes) : Pin × Shared :=
  match shared.run (storeLookupActive handle) with
  | (.ok key, shared) => ({ pk := key.pk, userId := key.userId, decoy := false }, shared)
  | (.error _, shared) => ({ pk := shared.store.decoyPk, userId := [], decoy := true }, shared)

/-- The part of `on_client_hello` that pins a handle and its key to the connection. -/
def Conn.pinTo (conn : Conn) (handle : Bytes) (pin : Pin) : Conn :=
  { conn with
    userId := pin.userId
    decoy := pin.decoy
    handle := handle
    pinPk := pin.pk
    pinSet := true }

section Handlers

variable (prims : DaemonPrimitives) (config : AuthdConfig) (env : FrameEnv)

variable (shared : Shared)

/-- The end of `on_client_hello`: the ServerHello is made and queued. -/
def sendServerHello (conn : Conn) (io : ConnIo) : Served :=
  let created := responderCreateServerHello prims.toPrimitives
    (conn.handshakeEnv env.call shared.nowMs) conn.hs shared.pending
    { present := true, cap := authdFrameMax }
  let conn := { conn with hs := created.ctx }
  let shared := { shared with pending := created.ledger }
  match created.status, created.output with
  | .ok, some sh =>
    if (io.queue sh).1 = .ok then
      { action := .continue_
        conn := { conn with stage := .awaitCa }
        io := (io.queue sh).2
        shared := shared
        events := [.serverHello] }
    else
      { action := .close
        conn := conn
        io := (io.queue sh).2
        shared := shared
        events := [.serverHello] }
  | _, _ =>
    { action := .close, conn := conn, io := io, shared := shared, events := [.serverHello] }

/-- The middle of `on_client_hello`: a fresh responder accepts the message. -/
def acceptClientHello (conn : Conn) (io : ConnIo) (payload : Bytes) : Served :=
  let started := responderInitImpl (conn.handshakeEnv env.call shared.nowMs) config.serverId
    config.serverKp false true 0 shared.pending
  if started.status = .ok then
    let accepted := responderAcceptClientHello (conn.handshakeEnv env.call shared.nowMs)
      started.ctx (some payload)
    let conn := { conn with hs := accepted.ctx, hsLive := true }
    if accepted.status = .ok then sendServerHello prims env shared conn io
    else { action := .close, conn := conn, io := io, shared := shared }
  else
    { action := .close, conn := { conn with hs := started.ctx }, io := io, shared := shared }

/-- `on_client_hello`. -/
def onClientHello (conn : Conn) (io : ConnIo) (payload : Bytes) : Served :=
  match decodeClientHello payload with
  | none => { action := .close, conn := conn, io := io, shared := shared }
  | some ch =>
    let resolved := resolvePin shared ch.id
    acceptClientHello prims config env resolved.2 (conn.pinTo ch.id resolved.1) io payload

/-! ## Waiting for a ClientAuth -/

/-- `rotation_due`. -/
def rotationDue (conn : Conn) : Bool × Shared :=
  if config.rotationDueAgeS = 0 then (false, shared)
  else
    match shared.run (storeActiveKeyAge conn.handle) with
    | (.ok validFrom, shared) =>
      (decide ((config.rotationDueAgeS : ℤ) ≤ shared.nowUnix - validFrom), shared)
    | (.error _, shared) => (false, shared)

/-- The `state` a login code is bound to: that of the upgrade request, or nothing. -/
def loginState (io : ConnIo) : Bytes := if io.mode = .ws then io.ws.state else []

/-- The row `issue_login_code` stores. -/
def loginCodeRow (conn : Conn) (io : ConnIo) : LoginCodeRow where
  codeHash := prims.sha256 env.code.toList
  userId := conn.userId
  handle := conn.handle
  handshakeId := some conn.handshakeId.toList
  stateHash := prims.sha256 (loginState io)
  issuedAt := shared.nowUnix
  expiresAt := shared.nowUnix + config.codeTtlS
  usedAt := none

/-- The end of `issue_login_code`, once the session stands: the code is stored, then sealed
and queued. -/
def storeLoginCode (conn : Conn) (io : ConnIo) : Served :=
  let due := rotationDue config shared conn
  let stored := due.2.run (storeAddLoginCode (loginCodeRow prims config env due.2 conn io))
  match stored.1 with
  | .error _ => { action := .close, conn := conn, io := io, shared := stored.2 }
  | .ok _ =>
    let events : List ConnEvent :=
      [.loginCode
        { row := loginCodeRow prims config env due.2 conn io
          state := loginState io
          pk := conn.pinPk
          active := due.2.store.conn.tables.lookupActive conn.handle }]
    match encodeLoginCode
        { flags := if due.1 then authmsgFlagRotationDue else 0
          code := env.code
          codeExpires := ((due.2.nowUnix + config.codeTtlS) % 2 ^ 64).toNat } with
    | .error _ =>
      { action := .close, conn := conn, io := io, shared := stored.2, events := events }
    | .ok content =>
      let queued := queueSealed env.aead shared.nowMs conn.sess io content
      { action := if queued.1 then .continue_ else .close
        conn := { conn with sess := queued.2.1 }
        io := queued.2.2
        shared := stored.2
        events := events }

/-- `issue_login_code`; success is the action to continue. -/
def issueLoginCode (conn : Conn) (io : ConnIo) : Served :=
  match conn.hs.getHandshakeId with
  | none => { action := .close, conn := conn, io := io, shared := shared }
  | some hsid =>
    let started := sessionInitFromHandshake env.call conn.sess conn.hs shared.pending
      (some { SessionLimits.default with padBucket := config.padBucket })
      shared.nowMs shared.nowMs
    let shared := { shared with pending := started.ledger }
    let conn := { conn with sess := started.session, hs := started.hs }
    if started.status = .ok then
      storeLoginCode prims config env shared
        { conn with hsLive := false, handshakeId := hsid, hsidSet := true } io
    else { action := .close, conn := conn, io := io, shared := shared }

/-- The end of `on_client_auth`: the device was seen, the admission token comes back, and
the connection serves. -/
def startServing (addrAdmitted : Bool) (served : Served) : Served :=
  let touched := (served.shared.run (storeTouchLastSeen served.conn.handle env.storeNow)).2
  let refunds := addrAdmitted && touched.rl.isSome
  { served with
    conn := { served.conn with stage := .serving }
    shared :=
      if refunds then
        { touched with
          rl := touched.rl.map fun limiter =>
            limiter.refund prims served.io.clientAddr touched.nowMs }
      else touched
    events := if refunds then served.events ++ [.refund] else served.events }

/-- The failures of `handshake_responder_verify_client_auth` after which the peer may try
again. -/
def clientAuthRetryable (status : HandshakeStatus) : Bool :=
  decide (status = .malformed ∨ status = .handshakeIdMismatch ∨ status = .signature)

/-- `on_client_auth`, after the signature has verified. -/
def finishClientAuth (addrAdmitted : Bool) (shared : Shared) (conn : Conn) (io : ConnIo) : Served :=
  let finished := responderFinish conn.hs
  let conn := { conn with hs := finished.ctx }
  if finished.status ≠ .ok ∨ conn.hs.isPeerConfirmed = false then
    { action := .close, conn := conn, io := io, shared := shared }
  else if conn.decoy = true ∨ conn.userId = [] then
    { action := .close, conn := conn, io := io, shared := shared }
  else
    let issued := issueLoginCode prims config env shared conn io
    if issued.action = .continue_ then startServing prims env addrAdmitted issued else issued

/-- `on_client_auth`. -/
def onClientAuth (addrAdmitted : Bool) (shared : Shared) (conn : Conn) (io : ConnIo)
    (payload : Bytes) : Served :=
  let verified := responderVerifyClientAuth prims.toPrimitives
    (conn.handshakeEnv env.call shared.nowMs) conn.hs shared.pending (some payload)
  let conn := { conn with hs := verified.ctx }
  let shared := { shared with pending := verified.ledger }
  if verified.status = .ok then finishClientAuth prims config env addrAdmitted shared conn io
  else
    { action := if clientAuthRetryable verified.status then .continue_ else .close
      conn := conn
      io := io
      shared := shared }

/-! ## Serving records -/

/-- Whether both signatures of a ROTATE are good: the old key's under the old label and the
new key's under the new label. -/
def rotateVerified (conn : Conn) (pkOld : SigPublicKey) (msg : RotateMsg) : Bool :=
  let subject : RotateSubject :=
    { handshakeId := conn.handshakeId
      flags := msg.flags
      handle := conn.handle
      pkOld := pkOld
      pkNew := msg.pkNew }
  match rotateDigest prims.toPrimitives subject .old,
      rotateDigest prims.toPrimitives subject .new with
  | .ok digestOld, .ok digestNew =>
    mldsaVerify prims.toPrimitives env.call digestOld.toList msg.sigOld pkOld &&
      mldsaVerify prims.toPrimitives env.again digestNew.toList msg.sigNew msg.pkNew
  | _, _ => false

/-- The end of `on_rotate`: the rotation has committed and is acknowledged. -/
def acknowledgeRotate (conn : Conn) (io : ConnIo) (msg : RotateMsg)
    (rotatedAt : ℤ) (events : List ConnEvent) : Served :=
  match encodeRotateAck conn.handle (fingerprint prims msg.pkNew) rotatedAt with
  | .error _ => failWithError env shared conn io .internal events
  | .ok content =>
    let queued := queueSealed env.aead shared.nowMs conn.sess io content
    let conn := { conn with sess := queued.2.1 }
    if queued.1 then
      { action := .continue_
        conn := { conn with rotated := true }
        io := queued.2.2
        shared := shared
        events := events }
    else failWithError env shared conn queued.2.2 .internal events

variable (conn : Conn)

/-- The rotation that a message asks for on a connection. -/
def Conn.rotationCommit (pkOld : SigPublicKey) (msg : RotateMsg) : RotationCommit where
  handle := conn.handle
  userId := conn.userId
  handshakeId := conn.handshakeId
  pkOld := pkOld
  msg := msg

/-- The part of `on_rotate` that asks the store. -/
def commitRotate (io : ConnIo) (pkOld : SigPublicKey) (msg : RotateMsg) : Served :=
  let commit := conn.rotationCommit pkOld msg
  let rotated := shared.run (storeRotateKey prims commit.request shared.nowUnix)
  match rotated.1 with
  | .error .errDb => failWithError env rotated.2 conn io .internal []
  | .error _ => failWithError env rotated.2 conn io .rejected []
  | .ok (rotatedAt, _) =>
    acknowledgeRotate prims env rotated.2 conn io msg rotatedAt [.rotation commit]

/-- `on_rotate`. -/
def onRotate (io : ConnIo) (content : Bytes) : Served :=
  if conn.rotated then failWithError env shared conn io .notPermitted []
  else if conn.hsidSet = false ∨ conn.decoy = true then
    failWithError env shared conn io .notPermitted []
  else
    match decodeRotate content with
    | .error _ => failWithError env shared conn io .malformed []
    | .ok msg =>
      match conn.pinLookup conn.handle with
      | none => failWithError env shared conn io .internal []
      | some pkOld =>
        if msg.handle = conn.handle ∧ rotateVerified prims env conn pkOld msg = true then
          commitRotate prims env shared conn io pkOld msg
        else failWithError env shared conn io .rejected []

/-- The dispatch of `on_record` on the content of a record. -/
def onContent (io : ConnIo) (content : Bytes) : Served :=
  match content with
  | [] => failWithError env shared conn io .malformed []
  | op :: rest =>
    if op = authmsgOpBye then
      if rest = [] then
        { action := .close, conn := { conn with stage := .closing }, io := io, shared := shared }
      else failWithError env shared conn io .malformed []
    else if op = authmsgOpRotate then onRotate prims env shared conn io (op :: rest)
    else failWithError env shared conn io .notPermitted []

/-- `on_record`. -/
def onRecord (io : ConnIo) (payload : Bytes) : Served :=
  if authdMaxRecord < payload.length then failWithError env shared conn io .malformed []
  else
    let opened := sessionOpen env.aead conn.sess
      { recAddr := 0x10000
        record := payload
        ptAddr := 0x20000
        ptCap := authdMaxRecord
        ptLenPresent := true } shared.nowMs
    let conn := { conn with sess := opened.session }
    match opened.status, opened.output with
    | .ok, some content => onContent prims env shared conn io content
    | _, _ =>
      { action := .close, conn := { conn with stage := .closing }, io := io, shared := shared }

/-! ## Dispatch -/

/-- `authd_conn_on_frame` by the stage of the record. -/
def onStage (addrAdmitted : Bool) (shared : Shared) (conn : Conn) (io : ConnIo)
    (payload : Bytes) : Served :=
  match conn.stage with
  | .awaitCh => onClientHello prims config env shared conn io payload
  | .awaitCa => onClientAuth prims config env addrAdmitted shared conn io payload
  | .serving => onRecord prims env shared conn io payload
  | .free | .closing => { action := .close, conn := conn, io := io, shared := shared }

/-- `authd_conn_on_frame`. A record that is free, or that the slot does not point at yet, is
bound first. -/
def onFrame (bound addrAdmitted : Bool) (shared : Shared) (conn : Conn) (io : ConnIo)
    (payload : Bytes) : Served :=
  if bound = false ∨ conn.stage = .free then
    let fresh := conn.bind shared.pending shared.nowMs
    onStage prims config env addrAdmitted { shared with pending := fresh.2 } fresh.1 io payload
  else onStage prims config env addrAdmitted shared conn io payload

end Handlers

end MldsaAuth.Authd
