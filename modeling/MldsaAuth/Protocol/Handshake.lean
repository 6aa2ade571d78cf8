/-
# The handshake contexts

A handshake is driven by two contexts, one per end. Each is a small state machine:
the caller moves it along with one function call per message, and a context that
fails wipes its secrets and stays failed. This file embeds the context functions of
`protocol/handshake.c` for both roles. The ledger a responder context points at is
passed to, and returned by, the functions that touch it.
-/

import MldsaAuth.Protocol.Transcript

namespace MldsaAuth.Protocol

open Foundation Crypto

/-! ## Pinned keys -/

/-- `keystore_entry_t`; an entry with an empty identity is unused. -/
structure KeystoreEntry where
  id : Bytes
  publicKey : SigPublicKey
deriving DecidableEq

/-- `keystore_t`. -/
structure Keystore where
  entries : List KeystoreEntry
deriving DecidableEq

/-- `keystore_lookup`: the first entry with exactly this identity. -/
def Keystore.lookup (keystore : Keystore) (id : Bytes) : Option SigPublicKey :=
  if idLenValid id then
    (keystore.entries.find? fun entry => entry.id != [] && entry.id == id).map
      KeystoreEntry.publicKey
  else none

/-- Which resolver a context was given: a keystore, or the caller's own function. -/
inductive ResolverKind where
  | none
  | keystore
  | lookupFn
deriving DecidableEq, Repr

/-- The surroundings of a call on a handshake context: in addition to the general ones,
what the keystore holds and what the caller's lookup function answers at this moment. -/
structure HandshakeEnv extends CallEnv where
  keystore : Keystore
  lookup : Bytes → Option SigPublicKey

/-! ## Contexts -/

/-- `handshake_role_t`. -/
inductive HandshakeRole where
  | initiator
  | responder
deriving DecidableEq, Repr

/-- `handshake_state_t`. -/
inductive HandshakeState where
  | new
  | clientHelloCreated
  | serverHelloVerified
  | clientAuthCreated
  | clientHelloAccepted
  | serverHelloCreated
  | clientAuthVerified
  | established
  | failed
deriving DecidableEq, Repr

/-- `handshake_status_t`. -/
inductive HandshakeStatus where
  | ok
  | invalidArg
  | unexpectedState
  | malformed
  | unknownIdentity
  | peerIdentityMismatch
  | sessionIdMismatch
  | handshakeIdMismatch
  | replay
  | expired
  | signature
  | authFailureLimit
  | kex
  | resourceExhausted
  | internal
deriving DecidableEq, Repr

/-- The key block of a context: client-to-server, then server-to-client. -/
structure TrafficKeys where
  c2s : TrafficKey
  s2c : TrafficKey
deriving DecidableEq

/-- The wiped key block. -/
def TrafficKeys.blank : TrafficKeys where
  c2s := Blob.zero 32
  s2c := Blob.zero 32

/-- `handshake_ctx_t`. A role of `none` is the zero a wiped or never initialised context
has. `pending` is the ledger pointer, as an index into the ledgers of the process; `chBytes`
are the first `ch_len` bytes of the ClientHello buffer. -/
structure HandshakeCtx where
  role : Option HandshakeRole
  state : HandshakeState
  localId : Bytes
  localKeypair : Option MldsaKeypair
  resolver : ResolverKind
  pending : Option ℕ
  peerId : Bytes
  peerPk : Option SigPublicKey
  sessionId : Blob 16
  chBytes : Bytes
  peerEphPub : Blob 32
  handshakeId : HandshakeId
  thClientAuth : Digest
  eph : KexKeypair
  kem : MlkemKeypair
  peerMlkemCt : KemCiphertext
  ssKem : Option Secret
  sessionKeys : Option TrafficKeys
  keysCommitted : Bool
deriving DecidableEq

namespace HandshakeCtx

/-- The zeroed context with the state set to FAILED, as a refused initialisation and
`handshake_ctx_wipe` leave it. -/
def wiped : HandshakeCtx where
  role := none
  state := .failed
  localId := []
  localKeypair := none
  resolver := .none
  pending := none
  peerId := []
  peerPk := none
  sessionId := Blob.zero 16
  chBytes := []
  peerEphPub := Blob.zero 32
  handshakeId := Blob.zero 16
  thClientAuth := Blob.zero 32
  eph := .blank
  kem := .blank
  peerMlkemCt := Blob.zero 1088
  ssKem := none
  sessionKeys := none
  keysCommitted := false

/-- `check_call`, for a context that is not NULL. -/
def checkCall (ctx : HandshakeCtx) (role : HandshakeRole) (state : HandshakeState) : Bool :=
  decide (ctx.role = some role) && decide (ctx.state = state)

/-- `fail_ctx`: wipe every secret and all transcript material. The ledger is not touched. -/
def failCtx (ctx : HandshakeCtx) : HandshakeCtx :=
  { ctx with
    eph := .blank
    kem := .blank
    ssKem := none
    sessionKeys := ctx.sessionKeys.map fun _ => .blank
    keysCommitted := false
    chBytes := []
    thClientAuth := Blob.zero 32
    handshakeId := Blob.zero 16
    peerEphPub := Blob.zero 32
    peerMlkemCt := Blob.zero 1088
    state := .failed }

/-- `resolve_peer_pk`. -/
def resolvePeerPk (ctx : HandshakeCtx) (env : HandshakeEnv) (id : Bytes) : Option SigPublicKey :=
  match ctx.resolver with
  | .lookupFn => env.lookup id
  | .keystore => env.keystore.lookup id
  | .none => none

end HandshakeCtx

/-- `map_pending_failure`. -/
def mapPendingFailure : PendingStatus → HandshakeStatus
  | .expired | .notFound => .expired
  | .consumed => .replay
  | .authLimit => .authFailureLimit
  | .ok | .invalidArg | .full => .internal

/-- `derive_traffic_keys`. -/
def deriveTrafficKeys (prims : Primitives) (inputs : KdfInputs) : Option TrafficKeys :=
  (kexDeriveSessionKeyV2 prims inputs .c2s).bind fun c2s =>
    (kexDeriveSessionKeyV2 prims inputs .s2c).map fun s2c => { c2s := c2s, s2c := s2c }

/-- A caller's output buffer: whether both pointers are non-NULL, and its capacity. -/
structure OutBuf where
  present : Bool
  cap : ℕ

/-- What a call on a context hands back: its status, the context, and the bytes written. -/
structure CtxResult where
  status : HandshakeStatus
  ctx : HandshakeCtx
  output : Option Bytes := none

/-- What a call that also reaches the ledger hands back. -/
structure LedgerResult extends CtxResult where
  ledger : PendingStore

/-! ## Initialisation and teardown -/

/-- `init_common`. -/
def initCommon (env : HandshakeEnv) (role : HandshakeRole) (localId : Bytes)
    (localKeypair : MldsaKeypair) (resolver : ResolverKind) : CtxResult :=
  if env.alloc .contextKeys then
    { status := .ok
      ctx :=
        { HandshakeCtx.wiped with
          state := .new
          role := some role
          localId := localId
          localKeypair := some localKeypair
          resolver := resolver
          sessionKeys := some .blank } }
  else { status := .resourceExhausted, ctx := .wiped }

/-- `handshake_initiator_init`. The flag says whether the keystore pointer is non-NULL. -/
def initiatorInit (env : HandshakeEnv) (localId : Bytes) (localKeypair : MldsaKeypair)
    (keystore : Bool) (peerId : Bytes) : CtxResult :=
  if idLenValid localId && localKeypair.secretKey.isSome && keystore && idLenValid peerId then
    let result := initCommon env .initiator localId localKeypair .keystore
    if result.status = .ok then { result with ctx := { result.ctx with peerId := peerId } }
    else result
  else { status := .invalidArg, ctx := .wiped }

/-- `responder_init_impl`, behind both responder initialisers. The flags say which of the
keystore and the lookup function is non-NULL; exactly one must be. -/
def responderInitImpl (env : HandshakeEnv) (localId : Bytes) (localKeypair : MldsaKeypair)
    (keystore lookupFn : Bool) (pending : ℕ) (ledger : PendingStore) : CtxResult :=
  if idLenValid localId && localKeypair.secretKey.isSome && (keystore != lookupFn) &&
      ledger.storeUsable then
    let result := initCommon env .responder localId localKeypair
      (if lookupFn then .lookupFn else .keystore)
    if result.status = .ok then
      { result with ctx := { result.ctx with pending := some pending } }
    else result
  else { status := .invalidArg, ctx := .wiped }

/-- `handshake_ctx_wipe`. A responder that has answered but not finished gives its ledger
entry back. -/
def ctxWipe (ctx : HandshakeCtx) (ledger : PendingStore) (now : ℕ) : HandshakeCtx × PendingStore :=
  if ctx.role = some .responder ∧ ctx.state = .serverHelloCreated ∧ ctx.pending.isSome then
    (.wiped, (ledger.cancel ctx.handshakeId now).2)
  else (.wiped, ledger)

/-! ## Accessors -/

namespace HandshakeCtx

variable (ctx : HandshakeCtx)

/-- `key_at`: the key block, once the handshake is established and its keys committed. -/
def keyAt : Option TrafficKeys :=
  if ctx.state = .established ∧ ctx.keysCommitted = true then ctx.sessionKeys else none

/-- `handshake_session_key_c2s`. -/
def sessionKeyC2s : Option TrafficKey := ctx.keyAt.map TrafficKeys.c2s

/-- `handshake_session_key_s2c`. -/
def sessionKeyS2c : Option TrafficKey := ctx.keyAt.map TrafficKeys.s2c

/-- `handshake_get_handshake_id`. -/
def getHandshakeId : Option HandshakeId :=
  if ctx.state = .established ∧ ctx.keysCommitted = true then some ctx.handshakeId else none

/-- `handshake_is_peer_confirmed`. -/
def isPeerConfirmed : Bool :=
  decide (ctx.role = some .responder) && decide (ctx.state = .established) && ctx.keysCommitted

end HandshakeCtx

/-! ## Initiator -/

/-- A call that fails the context. -/
def CtxResult.fail (ctx : HandshakeCtx) (status : HandshakeStatus) : CtxResult :=
  { status := status, ctx := ctx.failCtx }

/-- The ClientHello a context builds from its fresh key pairs. -/
def HandshakeCtx.clientHello (ctx : HandshakeCtx) (env : HandshakeEnv) (eph : KexKeypair)
    (kem : MlkemKeypair) : ClientHello where
  id := ctx.localId
  ephemeralPub := eph.publicKey
  mlkemEk := kem.publicKey
  sessionId := env.sessionId
  nonce := env.nonce

variable (prims : Primitives)

variable (env : HandshakeEnv)

/-- `handshake_initiator_create_client_hello`. -/
def initiatorCreateClientHello (ctx : HandshakeCtx) (out : OutBuf) : CtxResult :=
  if ctx.checkCall .initiator .new then
    if out.present then
      match kexKeypairGenerate prims env.toCallEnv with
      | none => .fail ctx .internal
      | some eph =>
        match mlkemKeypairGenerate prims env.toCallEnv with
        | none => .fail ctx .internal
        | some kem =>
          match encodeClientHello (ctx.clientHello env eph kem) clientHelloMaxEncodedLen with
          | none => .fail ctx .internal
          | some chBytes =>
            if out.cap < chBytes.length then
              -- misuse: both key pairs are freed again and nothing is kept
              { status := .invalidArg
                ctx := { ctx with eph := .blank, kem := .blank, chBytes := [] } }
            else
              { status := .ok
                ctx :=
                  { ctx with
                    eph := eph
                    kem := kem
                    chBytes := chBytes
                    sessionId := env.sessionId
                    state := .clientHelloCreated }
                output := some chBytes }
    else { status := .invalidArg, ctx := ctx }
  else { status := .unexpectedState, ctx := ctx }

/-- The steps of `handshake_initiator_verify_server_hello` from the signature on, for a
message that decoded, comes from the dialled peer under a pinned key and echoes the
session id. -/
def initiatorVerifySignedHello (ctx : HandshakeCtx)
    (sh : Bytes) (msg : ServerHello) (peerPk : SigPublicKey) : CtxResult :=
  let unsignedLen := transcriptServerHelloUnsignedLen msg.id.length
  if unsignedLen = 0 ∨ sh.length ≤ unsignedLen then .fail ctx .internal
  else
    let thServerAuth := transcriptHashServerAuth prims ctx.chBytes (sh.take unsignedLen)
    if mldsaVerify prims env.toCallEnv thServerAuth.toList msg.sig peerPk then
      if env.alloc .sharedSecret then
        -- the X25519 result only validates the peer's key and is thrown away
        match kexSharedSecret prims ctx.eph msg.ephemeralPub with
        | none => .fail ctx .kex
        | some _ =>
          { status := .ok
            ctx :=
              { ctx with
                peerEphPub := msg.ephemeralPub
                peerMlkemCt := msg.mlkemCt
                thClientAuth := transcriptHashClientAuth prims ctx.chBytes sh
                handshakeId := transcriptHandshakeId prims ctx.chBytes sh
                chBytes := []
                state := .serverHelloVerified } }
      else .fail ctx .resourceExhausted
    else .fail ctx .signature

/-- `handshake_initiator_verify_server_hello`. -/
def initiatorVerifyServerHello (ctx : HandshakeCtx) (sh : Option Bytes) : CtxResult :=
  if ctx.checkCall .initiator .clientHelloCreated then
    match sh with
    | none => { status := .invalidArg, ctx := ctx }
    | some sh =>
      match decodeServerHello sh with
      | none => .fail ctx .malformed
      | some msg =>
        if msg.id = ctx.peerId then
          match ctx.resolvePeerPk env msg.id with
          | none => .fail { ctx with peerPk := none } .unknownIdentity
          | some peerPk =>
            let ctx := { ctx with peerPk := some peerPk }
            if msg.sessionIdEcho = ctx.sessionId then
              initiatorVerifySignedHello prims env ctx sh msg peerPk
            else .fail ctx .sessionIdMismatch
        else .fail ctx .peerIdentityMismatch
  else { status := .unexpectedState, ctx := ctx }

/-- The signature of a context over a digest, within the length bounds the callers check. -/
def HandshakeCtx.sign (ctx : HandshakeCtx) (digest : Digest) : Option Bytes :=
  ctx.localKeypair.bind fun keypair =>
    (mldsaSign prims env.toCallEnv digest.toList keypair).filter sigLenValid

/-- `handshake_initiator_create_client_auth`. -/
def initiatorCreateClientAuth (ctx : HandshakeCtx) (out : OutBuf) : CtxResult :=
  if ctx.checkCall .initiator .serverHelloVerified then
    if out.present then
      match ctx.sign prims env ctx.thClientAuth with
      | none => .fail ctx .internal
      | some sig =>
        match encodeClientAuth ⟨ctx.handshakeId, sig⟩ clientAuthMaxEncodedLen with
        | none => .fail ctx .internal
        | some bytes =>
          if out.cap < bytes.length then { status := .invalidArg, ctx := ctx }
          else
            { status := .ok
              ctx := { ctx with state := .clientAuthCreated }
              output := some bytes }
    else { status := .invalidArg, ctx := ctx }
  else { status := .unexpectedState, ctx := ctx }

/-- What an initiator derives its keys from. -/
def HandshakeCtx.initiatorKdfInputs (ctx : HandshakeCtx) (shared ssKem : Secret) : KdfInputs where
  ssX := shared
  ssK := ssKem
  sessionId := ctx.sessionId
  initiatorId := ctx.localId
  responderId := ctx.peerId
  thClientAuth := ctx.thClientAuth

/-- An initiator that has committed its keys. -/
def HandshakeCtx.withInitiatorKeys (ctx : HandshakeCtx) (keys : TrafficKeys) : HandshakeCtx :=
  { ctx with
    sessionKeys := ctx.sessionKeys.map fun _ => keys
    keysCommitted := true
    eph := .blank
    kem := .blank
    thClientAuth := Blob.zero 32
    peerEphPub := Blob.zero 32
    peerMlkemCt := Blob.zero 1088
    state := .established }

/-- `handshake_initiator_finish`. -/
def initiatorFinish (env : HandshakeEnv) (ctx : HandshakeCtx) : CtxResult :=
  if ctx.checkCall .initiator .clientAuthCreated then
    if env.alloc .sharedSecret then
      match kexSharedSecret prims ctx.eph ctx.peerEphPub with
      | none => .fail ctx .kex
      | some shared =>
        if env.alloc .kemSharedSecret then
          match mlkemDecaps prims env.toCallEnv ctx.peerMlkemCt ctx.kem with
          | none => .fail ctx .internal
          | some ssKem =>
            if env.alloc .derivedKeys then
              match deriveTrafficKeys prims (ctx.initiatorKdfInputs shared ssKem) with
              | none => .fail ctx .internal
              | some keys => { status := .ok, ctx := ctx.withInitiatorKeys keys }
            else .fail ctx .resourceExhausted
        else .fail ctx .resourceExhausted
    else .fail ctx .resourceExhausted
  else { status := .unexpectedState, ctx := ctx }

/-! ## Responder -/

/-- `handshake_responder_accept_client_hello`. -/
def responderAcceptClientHello (env : HandshakeEnv) (ctx : HandshakeCtx) (ch : Option Bytes) :
    CtxResult :=
  if ctx.checkCall .responder .new then
    match ch with
    | none => { status := .invalidArg, ctx := ctx }
    | some ch =>
      match decodeClientHello ch with
      | none => .fail ctx .malformed
      | some msg =>
        if clientHelloMaxEncodedLen < ch.length then .fail ctx .malformed
        else
          match ctx.resolvePeerPk env msg.id with
          | none => .fail { ctx with peerPk := none } .unknownIdentity
          | some peerPk =>
            { status := .ok
              ctx :=
                { ctx with
                  peerPk := some peerPk
                  peerId := msg.id
                  sessionId := msg.sessionId
                  peerEphPub := msg.ephemeralPub
                  chBytes := ch
                  state := .clientHelloAccepted } }
  else { status := .unexpectedState, ctx := ctx }

/-- The ServerHello a responder builds, before and after it is signed. -/
def HandshakeCtx.serverHello (ctx : HandshakeCtx) (env : HandshakeEnv) (eph : KexKeypair)
    (mlkemCt : KemCiphertext) (sig : Bytes) : ServerHello where
  id := ctx.localId
  ephemeralPub := eph.publicKey
  mlkemCt := mlkemCt
  nonce := env.nonce
  sessionIdEcho := ctx.sessionId
  sig := sig

/-- A signed ServerHello and the secrets behind it. -/
structure ServerHelloDraft where
  eph : KexKeypair
  ssKem : Secret
  bytes : Bytes

/-- The part of `handshake_responder_create_server_hello` that builds and signs the message.
Encapsulation comes before the signature, so a malformed encapsulation key costs none. -/
def HandshakeCtx.draftServerHello (env : HandshakeEnv) (ctx : HandshakeCtx) :
    Except HandshakeStatus ServerHelloDraft :=
  match kexKeypairGenerate prims env.toCallEnv with
  | none => .error .internal
  | some eph =>
    match decodeClientHello ctx.chBytes with
    | none => .error .internal
    | some ch =>
      if env.alloc .kemSharedSecret then
        match mlkemEncaps prims env.toCallEnv ch.mlkemEk with
        | none => .error .kex
        | some (mlkemCt, ssKem) =>
          match encodeServerHelloUnsigned (ctx.serverHello env eph mlkemCt [])
              serverHelloUnsignedMaxEncodedLen with
          | none => .error .internal
          | some shUnsigned =>
            match ctx.sign prims env
                (transcriptHashServerAuth prims ctx.chBytes shUnsigned) with
            | none => .error .internal
            | some sig =>
              match encodeServerHello (ctx.serverHello env eph mlkemCt sig)
                  serverHelloMaxEncodedLen with
              | none => .error .internal
              | some shFull =>
                if shFull.length ≤ shUnsigned.length ∨
                    shFull.take shUnsigned.length ≠ shUnsigned then
                  .error .internal
                else .ok { eph := eph, ssKem := ssKem, bytes := shFull }
      else .error .resourceExhausted

/-- A responder that has answered. -/
def HandshakeCtx.withAnswer (ctx : HandshakeCtx) (draft : ServerHelloDraft) : HandshakeCtx :=
  { ctx with
    eph := draft.eph
    ssKem := some draft.ssKem
    handshakeId := transcriptHandshakeId prims ctx.chBytes draft.bytes
    chBytes := []
    state := .serverHelloCreated }

/-- A call that fails the context and leaves the ledger as given. -/
def LedgerResult.fail (ctx : HandshakeCtx) (status : HandshakeStatus) (ledger : PendingStore) :
    LedgerResult :=
  { status := status, ctx := ctx.failCtx, ledger := ledger }

/-- `handshake_responder_create_server_hello`. The insertion is the last step that can fail. -/
def responderCreateServerHello (env : HandshakeEnv) (ctx : HandshakeCtx)
    (ledger : PendingStore) (out : OutBuf) : LedgerResult :=
  if ctx.checkCall .responder .clientHelloAccepted then
    if out.present then
      match ctx.draftServerHello prims env with
      | .error status => .fail ctx status ledger
      | .ok draft =>
        if out.cap < draft.bytes.length then
          -- misuse: the ephemeral and the KEM secret are discarded, a retry draws new ones
          { status := .invalidArg
            ctx := { ctx with eph := .blank, ssKem := none }
            ledger := ledger }
        else
          let thClientAuth := transcriptHashClientAuth prims ctx.chBytes draft.bytes
          let handshakeId := transcriptHandshakeId prims ctx.chBytes draft.bytes
          match ledger.insert handshakeId thClientAuth env.now env.later with
          | (.ok, ledger) =>
            { status := .ok
              ctx := ctx.withAnswer prims draft
              output := some draft.bytes
              ledger := ledger }
          | (.full, ledger) => .fail ctx .resourceExhausted ledger
          | (_, ledger) => .fail ctx .internal ledger
    else { status := .invalidArg, ctx := ctx, ledger := ledger }
  else { status := .unexpectedState, ctx := ctx, ledger := ledger }

/-- What a responder derives its keys from. -/
def HandshakeCtx.responderKdfInputs (ctx : HandshakeCtx) (shared ssKem : Secret)
    (digest : Digest) : KdfInputs where
  ssX := shared
  ssK := ssKem
  sessionId := ctx.sessionId
  initiatorId := ctx.peerId
  responderId := ctx.localId
  thClientAuth := digest

/-- Steps 6 and 7 of `handshake_responder_verify_client_auth`: traffic keys into temporary
buffers, once the signature has authenticated the peer's ephemeral key. -/
def HandshakeCtx.responderDerive (env : HandshakeEnv) (ctx : HandshakeCtx)
    (digest : Digest) : Except HandshakeStatus TrafficKeys :=
  if env.alloc .sharedSecret then
    match kexSharedSecret prims ctx.eph ctx.peerEphPub with
    | none => .error .kex
    | some shared =>
      match ctx.ssKem with
      | none => .error .internal
      | some ssKem =>
        if env.alloc .derivedKeys then
          match deriveTrafficKeys prims (ctx.responderKdfInputs shared ssKem digest) with
          | none => .error .internal
          | some keys => .ok keys
        else .error .resourceExhausted
  else .error .resourceExhausted

/-- A responder that has verified a ClientAuth and committed its keys. -/
def HandshakeCtx.withResponderKeys (ctx : HandshakeCtx) (keys : TrafficKeys) : HandshakeCtx :=
  { ctx with
    sessionKeys := ctx.sessionKeys.map fun _ => keys
    keysCommitted := true
    ssKem := none
    state := .clientAuthVerified }

/-- `handshake_responder_verify_client_auth`. Malformed messages, messages for another
handshake and, below the limit, wrong signatures leave the context as it is. Consuming the
ledger entry is the last step that can fail; keys enter the context only after it. -/
def responderVerifyClientAuth (env : HandshakeEnv) (ctx : HandshakeCtx)
    (ledger : PendingStore) (ca : Option Bytes) : LedgerResult :=
  if ctx.checkCall .responder .serverHelloCreated then
    match ca with
    | none => { status := .invalidArg, ctx := ctx, ledger := ledger }
    | some ca =>
      match decodeClientAuth ca with
      | none => { status := .malformed, ctx := ctx, ledger := ledger }
      | some msg =>
        if msg.handshakeId = ctx.handshakeId then
          match ledger.getDigest ctx.handshakeId env.now with
          | (.ok, digest, ledger) =>
            match ctx.peerPk.filter
                (mldsaVerify prims env.toCallEnv digest.toList msg.sig) with
            | none =>
              match ledger.recordFailure ctx.handshakeId env.later with
              | (.ok, ledger) => { status := .signature, ctx := ctx, ledger := ledger }
              | (status, ledger) => .fail ctx (mapPendingFailure status) ledger
            | some _ =>
              match ctx.responderDerive prims env digest with
              | .error status =>
                .fail ctx status (ledger.cancel ctx.handshakeId env.later).2
              | .ok keys =>
                match ledger.consumeSuccess ctx.handshakeId env.later with
                | (.ok, ledger) =>
                  { status := .ok, ctx := ctx.withResponderKeys keys, ledger := ledger }
                | (status, ledger) => .fail ctx (mapPendingFailure status) ledger
          | (status, _, ledger) => .fail ctx (mapPendingFailure status) ledger
        else { status := .handshakeIdMismatch, ctx := ctx, ledger := ledger }
  else { status := .unexpectedState, ctx := ctx, ledger := ledger }

/-- A responder that has finished. -/
def HandshakeCtx.finished (ctx : HandshakeCtx) : HandshakeCtx :=
  { ctx with
    eph := .blank
    peerEphPub := Blob.zero 32
    state := .established }

/-- `handshake_responder_finish`. -/
def responderFinish (ctx : HandshakeCtx) : CtxResult :=
  if ctx.checkCall .responder .clientAuthVerified then
    { status := .ok, ctx := ctx.finished }
  else { status := .unexpectedState, ctx := ctx }

end MldsaAuth.Protocol
