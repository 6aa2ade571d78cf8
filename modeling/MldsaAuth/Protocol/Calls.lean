/-
# Calls on one context

A context is driven by calls of its caller, in any order and with any arguments. This
file names the calls and says once, for all later arguments, everything a call can do
to a context and to the ledger behind it.
-/

import MldsaAuth.Protocol.Handshake

namespace MldsaAuth.Protocol

open Foundation Crypto HandshakeCtx

/-- The calls on a handshake context, with everything they read. -/
inductive CtxCall where
  | initiatorInit (env : HandshakeEnv) (localId : Bytes) (localKeypair : MldsaKeypair)
      (keystore : Bool) (peerId : Bytes)
  | responderInit (env : HandshakeEnv) (localId : Bytes) (localKeypair : MldsaKeypair)
      (keystore lookupFn : Bool) (pending : ℕ)
  | createClientHello (env : HandshakeEnv) (out : OutBuf)
  | verifyServerHello (env : HandshakeEnv) (sh : Option Bytes)
  | createClientAuth (env : HandshakeEnv) (out : OutBuf)
  | initiatorFinish (env : HandshakeEnv)
  | acceptClientHello (env : HandshakeEnv) (ch : Option Bytes)
  | createServerHello (env : HandshakeEnv) (out : OutBuf)
  | verifyClientAuth (env : HandshakeEnv) (ca : Option Bytes)
  | responderFinish
  | wipe (now : ℕ)

/-- The calls that initialise a context anew. -/
def CtxCall.isInit : CtxCall → Bool
  | initiatorInit .. | responderInit .. => true
  | _ => false

/-- A result of a function that does not reach the ledger. -/
def CtxResult.keep (result : CtxResult) (ledger : PendingStore) : LedgerResult :=
  { result with ledger := ledger }

/-- Carry out a call. The ledger is the one the context points at, or is to point at. -/
def CtxCall.exec (prims : Primitives) (ctx : HandshakeCtx) (ledger : PendingStore) :
    CtxCall → LedgerResult
  | initiatorInit env localId localKeypair keystore peerId =>
    (Protocol.initiatorInit env localId localKeypair keystore peerId).keep ledger
  | responderInit env localId localKeypair keystore lookupFn pending =>
    (responderInitImpl env localId localKeypair keystore lookupFn pending ledger).keep ledger
  | createClientHello env out => (initiatorCreateClientHello prims env ctx out).keep ledger
  | verifyServerHello env sh => (initiatorVerifyServerHello prims env ctx sh).keep ledger
  | createClientAuth env out => (initiatorCreateClientAuth prims env ctx out).keep ledger
  | initiatorFinish env => (Protocol.initiatorFinish prims env ctx).keep ledger
  | acceptClientHello env ch => (responderAcceptClientHello env ctx ch).keep ledger
  | createServerHello env out => responderCreateServerHello prims env ctx ledger out
  | verifyClientAuth env ca => responderVerifyClientAuth prims env ctx ledger ca
  | responderFinish => (Protocol.responderFinish ctx).keep ledger
  | wipe now =>
    { status := .ok, ctx := (ctxWipe ctx ledger now).1, ledger := (ctxWipe ctx ledger now).2 }

/-! ## Successors of a context -/

namespace HandshakeCtx

/-- A context of the given role in the given state. -/
@[mk_iff]
structure At (ctx : HandshakeCtx) (role : HandshakeRole) (state : HandshakeState) : Prop where
  role : ctx.role = some role
  state : ctx.state = state

/-- A context right after a successful initialisation. -/
def ready (role : HandshakeRole) (localId : Bytes) (localKeypair : MldsaKeypair)
    (resolver : ResolverKind) : HandshakeCtx :=
  { wiped with
    state := .new
    role := some role
    localId := localId
    localKeypair := some localKeypair
    resolver := resolver
    sessionKeys := some .blank }

variable (ctx : HandshakeCtx)

/-- An initiator that has made its ClientHello. -/
def withClientHello (env : HandshakeEnv) (eph : KexKeypair) (kem : MlkemKeypair) : HandshakeCtx :=
  { ctx with
    eph := eph
    kem := kem
    chBytes := (ctx.clientHello env eph kem).bytes
    sessionId := env.sessionId
    state := .clientHelloCreated }

/-- An initiator that has verified a ServerHello. -/
def withServerHello (prims : Primitives) (msg : ServerHello)
    (peerPk : SigPublicKey) : HandshakeCtx :=
  { ctx with
    peerPk := some peerPk
    peerEphPub := msg.ephemeralPub
    peerMlkemCt := msg.mlkemCt
    thClientAuth := transcriptHashClientAuth prims ctx.chBytes msg.bytes
    handshakeId := transcriptHandshakeId prims ctx.chBytes msg.bytes
    chBytes := []
    state := .serverHelloVerified }

/-- A responder that has accepted a ClientHello. -/
def withPeerHello (msg : ClientHello) (peerPk : SigPublicKey) : HandshakeCtx :=
  { ctx with
    peerPk := some peerPk
    peerId := msg.id
    sessionId := msg.sessionId
    peerEphPub := msg.ephemeralPub
    chBytes := msg.bytes
    state := .clientHelloAccepted }

end HandshakeCtx

/-! ## Everything a call can do -/

section

variable (prims : Primitives) (ctx : HandshakeCtx) (ledger : PendingStore)

/-- Every outcome of a call on a context. -/
inductive CallStep : CtxCall → LedgerResult → Prop where
  /-- The call changes nothing. -/
  | refused {call : CtxCall} {status : HandshakeStatus} (hstatus : status ≠ .ok) :
      CallStep call { status := status, ctx := ctx, ledger := ledger }
  /-- The context fails, away from the ledger. -/
  | failed {call : CtxCall} {status : HandshakeStatus} {peerPk : Option SigPublicKey}
      (hstatus : status ≠ .ok) (hrole : ctx.role.isSome = true)
      (hstate : ctx.state ≠ .serverHelloCreated) :
      CallStep call
        { status := status
          ctx := { ctx with peerPk := peerPk }.failCtx
          ledger := ledger }
  | initFailed {call : CtxCall} {status : HandshakeStatus} (hcall : call.isInit = true)
      (hstatus : status ≠ .ok) : CallStep call { status := status, ctx := .wiped, ledger := ledger }
  | initiatorReady {env : HandshakeEnv} {localId : Bytes} {localKeypair : MldsaKeypair}
      {keystore : Bool} {peerId : Bytes} (hlocal : idLenValid localId = true)
      (hpeer : idLenValid peerId = true) :
      CallStep (.initiatorInit env localId localKeypair keystore peerId)
        { status := .ok
          ctx := { HandshakeCtx.ready .initiator localId localKeypair .keystore with
            peerId := peerId }
          ledger := ledger }
  | responderReady {env : HandshakeEnv} {localId : Bytes} {localKeypair : MldsaKeypair}
      {keystore lookupFn : Bool} {pending : ℕ} {resolver : ResolverKind}
      (hlocal : idLenValid localId = true) (husable : ledger.storeUsable = true) :
      CallStep (.responderInit env localId localKeypair keystore lookupFn pending)
        { status := .ok
          ctx := { HandshakeCtx.ready .responder localId localKeypair resolver with
            pending := some pending }
          ledger := ledger }
  | wiped {now : ℕ} (hidle : ¬(ctx.At .responder .serverHelloCreated ∧ ctx.pending.isSome = true)) :
      CallStep (.wipe now) { status := .ok, ctx := .wiped, ledger := ledger }
  | wipedPending {now : ℕ} (hat : ctx.At .responder .serverHelloCreated)
      (hpending : ctx.pending.isSome = true) :
      CallStep (.wipe now)
        { status := .ok, ctx := .wiped, ledger := (ledger.cancel ctx.handshakeId now).2 }
  /-- Misuse: the fresh key pairs are freed again. -/
  | helloRolledBack {env : HandshakeEnv} {out : OutBuf} (hat : ctx.At .initiator .new) :
      CallStep (.createClientHello env out)
        { status := .invalidArg
          ctx := { ctx with eph := .blank, kem := .blank, chBytes := [] }
          ledger := ledger }
  | helloCreated {env : HandshakeEnv} {out : OutBuf} {eph : KexKeypair} {kem : MlkemKeypair}
      (hat : ctx.At .initiator .new) (heph : kexKeypairGenerate prims env.toCallEnv = some eph)
      (hkem : mlkemKeypairGenerate prims env.toCallEnv = some kem)
      (hid : idLenValid ctx.localId = true) :
      CallStep (.createClientHello env out)
        { status := .ok
          ctx := ctx.withClientHello env eph kem
          output := some (ctx.clientHello env eph kem).bytes
          ledger := ledger }
  | serverHelloVerified {env : HandshakeEnv} {msg : ServerHello} {peerPk : SigPublicKey}
      (hat : ctx.At .initiator .clientHelloCreated) (hid : idLenValid msg.id = true)
      (hsig : sigLenValid msg.sig = true) (hpeer : msg.id = ctx.peerId)
      (hpk : ctx.resolvePeerPk env msg.id = some peerPk) (hecho : msg.sessionIdEcho = ctx.sessionId)
      (hverify : prims.sigVerify peerPk
        (transcriptHashServerAuth prims ctx.chBytes msg.unsignedBytes).toList msg.sig = true) :
      CallStep (.verifyServerHello env (some msg.bytes))
        { status := .ok, ctx := ctx.withServerHello prims msg peerPk, ledger := ledger }
  | authCreated {env : HandshakeEnv} {out : OutBuf} {sig : Bytes}
      (hat : ctx.At .initiator .serverHelloVerified)
      (hsign : ctx.sign prims env ctx.thClientAuth = some sig) :
      CallStep (.createClientAuth env out)
        { status := .ok
          ctx := { ctx with state := .clientAuthCreated }
          output := some (ClientAuth.bytes ⟨ctx.handshakeId, sig⟩)
          ledger := ledger }
  | initiatorFinished {env : HandshakeEnv} {shared ssKem : Secret} {keys : TrafficKeys}
      (hat : ctx.At .initiator .clientAuthCreated)
      (hshared : kexSharedSecret prims ctx.eph ctx.peerEphPub = some shared)
      (hkem : mlkemDecaps prims env.toCallEnv ctx.peerMlkemCt ctx.kem = some ssKem)
      (hkeys : deriveTrafficKeys prims (ctx.initiatorKdfInputs shared ssKem) = some keys) :
      CallStep (.initiatorFinish env)
        { status := .ok, ctx := ctx.withInitiatorKeys keys, ledger := ledger }
  | helloAccepted {env : HandshakeEnv} {msg : ClientHello} {peerPk : SigPublicKey}
      (hat : ctx.At .responder .new) (hid : idLenValid msg.id = true)
      (hpk : ctx.resolvePeerPk env msg.id = some peerPk) :
      CallStep (.acceptClientHello env (some msg.bytes))
        { status := .ok, ctx := ctx.withPeerHello msg peerPk, ledger := ledger }
  /-- Misuse: the fresh secrets are freed again. -/
  | answerRolledBack {env : HandshakeEnv} {out : OutBuf}
      (hat : ctx.At .responder .clientHelloAccepted) :
      CallStep (.createServerHello env out)
        { status := .invalidArg
          ctx := { ctx with eph := .blank, ssKem := none }
          ledger := ledger }
  | answerNotInserted {env : HandshakeEnv} {out : OutBuf} {draft : ServerHelloDraft}
      {status : HandshakeStatus} {inserted : PendingStatus × PendingStore}
      (hat : ctx.At .responder .clientHelloAccepted)
      (hinsert : ledger.insert (transcriptHandshakeId prims ctx.chBytes draft.bytes)
        (transcriptHashClientAuth prims ctx.chBytes draft.bytes) env.now env.later = inserted)
      (hinserted : inserted.1 ≠ .ok) (hstatus : status ≠ .ok) :
      CallStep (.createServerHello env out)
        { status := status, ctx := ctx.failCtx, ledger := inserted.2 }
  | answered {env : HandshakeEnv} {out : OutBuf} {draft : ServerHelloDraft} {next : PendingStore}
      (hat : ctx.At .responder .clientHelloAccepted)
      (hdraft : ctx.draftServerHello prims env = .ok draft)
      (hinsert : ledger.insert (transcriptHandshakeId prims ctx.chBytes draft.bytes)
        (transcriptHashClientAuth prims ctx.chBytes draft.bytes) env.now env.later = (.ok, next)) :
      CallStep (.createServerHello env out)
        { status := .ok
          ctx := ctx.withAnswer prims draft
          output := some draft.bytes
          ledger := next }
  /-- The ledger entry cannot be read any more. -/
  | entryGone {env : HandshakeEnv} {msg : ClientAuth} {status : HandshakeStatus}
      {found : PendingStatus × Digest × PendingStore} (hat : ctx.At .responder .serverHelloCreated)
      (hdigest : ledger.getDigest ctx.handshakeId env.now = found) (hfound : found.1 ≠ .ok)
      (hstatus : status ≠ .ok) :
      CallStep (.verifyClientAuth env (some msg.bytes))
        { status := status, ctx := ctx.failCtx, ledger := found.2.2 }
  /-- A wrong signature below the limit: the context waits for another message. -/
  | wrongSignature {env : HandshakeEnv} {msg : ClientAuth} {digest : Digest}
      {mid next : PendingStore} (hat : ctx.At .responder .serverHelloCreated)
      (hdigest : ledger.getDigest ctx.handshakeId env.now = (.ok, digest, mid))
      (hfailure : mid.recordFailure ctx.handshakeId env.later = (.ok, next)) :
      CallStep (.verifyClientAuth env (some msg.bytes))
        { status := .signature, ctx := ctx, ledger := next }
  | lockedOut {env : HandshakeEnv} {msg : ClientAuth} {digest : Digest} {mid : PendingStore}
      {status : HandshakeStatus} {recorded : PendingStatus × PendingStore}
      (hat : ctx.At .responder .serverHelloCreated)
      (hdigest : ledger.getDigest ctx.handshakeId env.now = (.ok, digest, mid))
      (hfailure : mid.recordFailure ctx.handshakeId env.later = recorded)
      (hrecorded : recorded.1 ≠ .ok) (hstatus : status ≠ .ok) :
      CallStep (.verifyClientAuth env (some msg.bytes))
        { status := status, ctx := ctx.failCtx, ledger := recorded.2 }
  /-- A failure after the signature gives the ledger entry back. -/
  | deriveFailed {env : HandshakeEnv} {msg : ClientAuth} {digest : Digest} {mid : PendingStore}
      {status : HandshakeStatus} (hat : ctx.At .responder .serverHelloCreated)
      (hdigest : ledger.getDigest ctx.handshakeId env.now = (.ok, digest, mid))
      (hstatus : status ≠ .ok) :
      CallStep (.verifyClientAuth env (some msg.bytes))
        { status := status
          ctx := ctx.failCtx
          ledger := (mid.cancel ctx.handshakeId env.later).2 }
  | notConsumed {env : HandshakeEnv} {msg : ClientAuth} {digest : Digest} {mid : PendingStore}
      {status : HandshakeStatus} {consumed : PendingStatus × PendingStore}
      (hat : ctx.At .responder .serverHelloCreated)
      (hdigest : ledger.getDigest ctx.handshakeId env.now = (.ok, digest, mid))
      (hconsume : mid.consumeSuccess ctx.handshakeId env.later = consumed)
      (hconsumed : consumed.1 ≠ .ok) (hstatus : status ≠ .ok) :
      CallStep (.verifyClientAuth env (some msg.bytes))
        { status := status, ctx := ctx.failCtx, ledger := consumed.2 }
  | authVerified {env : HandshakeEnv} {msg : ClientAuth} {digest : Digest} {mid next : PendingStore}
      {peerPk : SigPublicKey} {shared ssKem : Secret} {keys : TrafficKeys}
      (hat : ctx.At .responder .serverHelloCreated) (hsig : sigLenValid msg.sig = true)
      (hid : msg.handshakeId = ctx.handshakeId)
      (hdigest : ledger.getDigest ctx.handshakeId env.now = (.ok, digest, mid))
      (hpk : ctx.peerPk = some peerPk)
      (hverify : prims.sigVerify peerPk digest.toList msg.sig = true)
      (hshared : kexSharedSecret prims ctx.eph ctx.peerEphPub = some shared)
      (hkem : ctx.ssKem = some ssKem)
      (hkeys : deriveTrafficKeys prims (ctx.responderKdfInputs shared ssKem digest) = some keys)
      (hconsume : mid.consumeSuccess ctx.handshakeId env.later = (.ok, next)) :
      CallStep (.verifyClientAuth env (some msg.bytes))
        { status := .ok, ctx := ctx.withResponderKeys keys, ledger := next }
  | responderFinished (hat : ctx.At .responder .clientAuthVerified) :
      CallStep .responderFinish { status := .ok, ctx := ctx.finished, ledger := ledger }

end

variable {env : HandshakeEnv} {localId : Bytes} {localKeypair : MldsaKeypair} {keystore : Bool}
  {out : OutBuf}

section Steps

variable {prims : Primitives} {ctx : HandshakeCtx} {ledger : PendingStore}

variable {role : HandshakeRole} {state : HandshakeState}

theorem HandshakeCtx.checkCall_eq_true : ctx.checkCall role state = true ↔ ctx.At role state := by
  simp [checkCall, HandshakeCtx.at_iff]

/-- A call that fails the context, away from the ledger. -/
private theorem fail_step {call : CtxCall} {status : HandshakeStatus}
    {peerPk : Option SigPublicKey} (hat : ctx.At role state) (hstate : state ≠ .serverHelloCreated)
    (hstatus : status ≠ .ok) : CallStep prims ctx ledger call
      ((CtxResult.fail { ctx with peerPk := peerPk } status).keep ledger) :=
  .failed hstatus (by simp [hat.role]) (hat.state ▸ hstate)

private theorem initCommon_eq (env : HandshakeEnv) (role : HandshakeRole) (localId : Bytes)
    (localKeypair : MldsaKeypair) (resolver : ResolverKind) :
    initCommon env role localId localKeypair resolver =
      if env.alloc .contextKeys then
        { status := .ok, ctx := .ready role localId localKeypair resolver }
      else { status := .resourceExhausted, ctx := .wiped } := rfl

private theorem initiatorInit_step {peerId : Bytes} :
    CallStep prims ctx ledger (.initiatorInit env localId localKeypair keystore peerId)
      ((initiatorInit env localId localKeypair keystore peerId).keep ledger) := by
  unfold initiatorInit
  split_ifs with hargs
  · simp only [Bool.and_eq_true] at hargs
    rw [initCommon_eq]
    cases env.alloc .contextKeys with
    | false => exact .initFailed rfl (by simp)
    | true => exact .initiatorReady hargs.1.1.1 hargs.2
  · exact .initFailed rfl (by simp)

private theorem responderInit_step {lookupFn : Bool} {pending : ℕ} :
    CallStep prims ctx ledger
      (.responderInit env localId localKeypair keystore lookupFn pending)
      ((responderInitImpl env localId localKeypair keystore lookupFn pending ledger).keep
        ledger) := by
  unfold responderInitImpl
  split
  · rename_i hargs
    simp only [Bool.and_eq_true] at hargs
    rw [initCommon_eq]
    cases env.alloc .contextKeys with
    | false => exact .initFailed rfl (by simp)
    | true => exact .responderReady hargs.1.1.1 hargs.2
  · exact .initFailed rfl (by simp)

private theorem wipe_step {now : ℕ} :
    CallStep prims ctx ledger (.wipe now)
      { status := .ok
        ctx := (ctxWipe ctx ledger now).1
        ledger := (ctxWipe ctx ledger now).2 } := by
  unfold ctxWipe
  split_ifs with hpending
  · exact .wipedPending ⟨hpending.1, hpending.2.1⟩ hpending.2.2
  exact .wiped fun ⟨hat, hsome⟩ => hpending ⟨hat.role, hat.state, hsome⟩

private theorem createClientHello_step :
    CallStep prims ctx ledger (.createClientHello env out)
      ((initiatorCreateClientHello prims env ctx out).keep ledger) := by
  unfold initiatorCreateClientHello
  split
  · rename_i hcall
    have hat := checkCall_eq_true.mp hcall
    split
    · cases heph : kexKeypairGenerate prims env.toCallEnv with
      | none => exact fail_step hat (by simp) (by simp)
      | some eph =>
        cases hkem : mlkemKeypairGenerate prims env.toCallEnv with
        | none => exact fail_step hat (by simp) (by simp)
        | some kem =>
          dsimp only
          cases hencode : encodeClientHello (ctx.clientHello env eph kem)
              clientHelloMaxEncodedLen with
          | none => exact fail_step hat (by simp) (by simp)
          | some =>
            dsimp only
            obtain ⟨hid, rfl⟩ := encodeClientHello_eq_some_iff.mp hencode
            split
            · exact .helloRolledBack hat
            · exact .helloCreated hat heph hkem hid
    · exact .refused (by simp)
  · exact .refused (by simp)

private theorem verifySignedHello_step {msg : ServerHello} {peerPk : SigPublicKey}
    (hat : ctx.At .initiator .clientHelloCreated) (hid : idLenValid msg.id = true)
    (hsig : sigLenValid msg.sig = true) (hpeer : msg.id = ctx.peerId)
    (hpk : ctx.resolvePeerPk env msg.id = some peerPk) (hecho : msg.sessionIdEcho = ctx.sessionId) :
    CallStep prims ctx ledger (.verifyServerHello env (some msg.bytes))
      ((initiatorVerifySignedHello prims env { ctx with peerPk := some peerPk } msg.bytes msg
        peerPk).keep ledger) := by
  unfold initiatorVerifySignedHello
  dsimp only
  split
  · exact fail_step hat (by simp) (by simp)
  split
  · rename_i hverify
    rw [ServerHello.take_unsignedLen hid] at hverify
    simp only [mldsaVerify, Bool.and_eq_true] at hverify
    split
    · split
      · exact fail_step hat (by simp) (by simp)
      · exact .serverHelloVerified hat hid hsig hpeer hpk hecho hverify.2
    · exact fail_step hat (by simp) (by simp)
  · exact fail_step hat (by simp) (by simp)

private theorem verifyServerHello_step {sh : Option Bytes} :
    CallStep prims ctx ledger (.verifyServerHello env sh)
      ((initiatorVerifyServerHello prims env ctx sh).keep ledger) := by
  unfold initiatorVerifyServerHello
  split_ifs with hcall
  · have hat := checkCall_eq_true.mp hcall
    cases sh with
    | none => exact .refused (by simp)
    | some sh =>
      dsimp only
      cases hdecode : decodeServerHello sh with
      | none => exact fail_step hat (by simp) (by simp)
      | some msg =>
        obtain ⟨hid, hsig, rfl⟩ := decodeServerHello_eq_some_iff.mp hdecode
        dsimp only
        split
        · rename_i hpeer
          cases hpk : ctx.resolvePeerPk env msg.id with
          | none => exact fail_step hat (by simp) (by simp)
          | some peerPk =>
            split_ifs with hecho
            · exact verifySignedHello_step hat hid hsig hpeer hpk hecho
            · exact fail_step hat (by simp) (by simp)
        · exact fail_step hat (by simp) (by simp)
  · exact .refused (by simp)

private theorem createClientAuth_step :
    CallStep prims ctx ledger (.createClientAuth env out)
      ((initiatorCreateClientAuth prims env ctx out).keep ledger) := by
  unfold initiatorCreateClientAuth
  split
  · rename_i hcall
    have hat := checkCall_eq_true.mp hcall
    split
    · cases hsign : ctx.sign prims env ctx.thClientAuth with
      | none => exact fail_step hat (by simp) (by simp)
      | some sig =>
        dsimp only
        cases hencode : encodeClientAuth ⟨ctx.handshakeId, sig⟩ clientAuthMaxEncodedLen with
        | none => exact fail_step hat (by simp) (by simp)
        | some =>
          obtain ⟨-, rfl⟩ := encodeClientAuth_eq_some_iff.mp hencode
          dsimp only
          split
          · exact .refused (by simp)
          · exact .authCreated hat hsign
    · exact .refused (by simp)
  · exact .refused (by simp)

private theorem initiatorFinish_step :
    CallStep prims ctx ledger (.initiatorFinish env)
      ((initiatorFinish prims env ctx).keep ledger) := by
  unfold initiatorFinish
  split
  · rename_i hcall
    have hat := checkCall_eq_true.mp hcall
    split
    · cases hshared : kexSharedSecret prims ctx.eph ctx.peerEphPub with
      | none => exact fail_step hat (by simp) (by simp)
      | some shared =>
        dsimp only
        split
        · cases hkem : mlkemDecaps prims env.toCallEnv ctx.peerMlkemCt ctx.kem with
          | none => exact fail_step hat (by simp) (by simp)
          | some ssKem =>
            dsimp only
            split
            · cases hkeys : deriveTrafficKeys prims (ctx.initiatorKdfInputs shared ssKem) with
              | none => exact fail_step hat (by simp) (by simp)
              | some => exact .initiatorFinished hat hshared hkem hkeys
            · exact fail_step hat (by simp) (by simp)
        · exact fail_step hat (by simp) (by simp)
    · exact fail_step hat (by simp) (by simp)
  · exact .refused (by simp)

private theorem acceptClientHello_step {ch : Option Bytes} :
    CallStep prims ctx ledger (.acceptClientHello env ch)
      ((responderAcceptClientHello env ctx ch).keep ledger) := by
  unfold responderAcceptClientHello
  split_ifs with hcall
  · have hat := checkCall_eq_true.mp hcall
    cases ch with
    | none => exact .refused (by simp)
    | some ch =>
      dsimp only
      cases hdecode : decodeClientHello ch with
      | none => exact fail_step hat (by simp) (by simp)
      | some msg =>
        obtain ⟨hid, rfl⟩ := decodeClientHello_eq_some_iff.mp hdecode
        dsimp only
        split
        · exact fail_step hat (by simp) (by simp)
        cases hpk : ctx.resolvePeerPk env msg.id with
        | none => exact fail_step hat (by simp) (by simp)
        | some => exact .helloAccepted hat hid hpk
  · exact .refused (by simp)

/-- Every outcome of building the answer to a ClientHello. -/
inductive DraftView (prims : Primitives) (env : HandshakeEnv) (ctx : HandshakeCtx) :
    Except HandshakeStatus ServerHelloDraft → Prop where
  | error {status : HandshakeStatus} (hstatus : status ≠ .ok) :
      DraftView prims env ctx (.error status)
  | ok {ch : ClientHello} {eph : KexKeypair} {mlkemCt : KemCiphertext} {ssKem : Secret}
      {sig : Bytes}
      (heph : kexKeypairGenerate prims env.toCallEnv = some eph)
      (hch : decodeClientHello ctx.chBytes = some ch)
      (hkem : mlkemEncaps prims env.toCallEnv ch.mlkemEk = some (mlkemCt, ssKem))
      (hid : idLenValid ctx.localId = true) (hsig : sigLenValid sig = true)
      (hsign : ctx.sign prims env (transcriptHashServerAuth prims ctx.chBytes
        (ctx.serverHello env eph mlkemCt []).unsignedBytes) = some sig) :
      DraftView prims env ctx
        (.ok { eph := eph, ssKem := ssKem, bytes := (ctx.serverHello env eph mlkemCt sig).bytes })

theorem draftServerHello_view (prims : Primitives) (env : HandshakeEnv) (ctx : HandshakeCtx) :
    DraftView prims env ctx (ctx.draftServerHello prims env) := by
  unfold draftServerHello
  cases heph : kexKeypairGenerate prims env.toCallEnv with
  | none => exact .error (by simp)
  | some eph =>
    cases hch : decodeClientHello ctx.chBytes with
    | none => exact .error (by simp)
    | some ch =>
      dsimp only
      split
      · cases hkem : mlkemEncaps prims env.toCallEnv ch.mlkemEk with
        | none => exact .error (by simp)
        | some pair =>
          obtain ⟨mlkemCt, ssKem⟩ := pair
          dsimp only
          cases hunsigned : encodeServerHelloUnsigned (ctx.serverHello env eph mlkemCt [])
              serverHelloUnsignedMaxEncodedLen with
          | none => exact .error (by simp)
          | some =>
            obtain ⟨hid, rfl⟩ := encodeServerHelloUnsigned_eq_some_iff.mp hunsigned
            dsimp only
            cases hsign : ctx.sign prims env (transcriptHashServerAuth prims ctx.chBytes
                (ctx.serverHello env eph mlkemCt []).unsignedBytes) with
            | none => exact .error (by simp)
            | some sig =>
              dsimp only
              cases hfull : encodeServerHello (ctx.serverHello env eph mlkemCt sig)
                  serverHelloMaxEncodedLen with
              | none => exact .error (by simp)
              | some =>
                obtain ⟨-, hsig, rfl⟩ := encodeServerHello_eq_some_iff.mp hfull
                dsimp only
                split
                · exact .error (by simp)
                · exact .ok heph hch hkem hid hsig hsign
      · exact .error (by simp)

private theorem createServerHello_step :
    CallStep prims ctx ledger (.createServerHello env out)
      (responderCreateServerHello prims env ctx ledger out) := by
  unfold responderCreateServerHello
  split
  · rename_i hcall
    have hat := checkCall_eq_true.mp hcall
    split
    · have hview := draftServerHello_view prims env ctx
      cases hdraft : ctx.draftServerHello prims env with
      | error =>
        rw [hdraft] at hview
        cases hview with
        | error hstatus => exact fail_step hat (by simp) hstatus
      | ok draft =>
        dsimp only
        split
        · exact .answerRolledBack hat
        split
        · rename_i next hinsert
          exact .answered hat hdraft hinsert
        · rename_i next hinsert
          exact .answerNotInserted hat hinsert (by simp) (by simp)
        · rename_i status next hok hfull hinsert
          exact .answerNotInserted hat hinsert hok (by simp)
    · exact .refused (by simp)
  · exact .refused (by simp)

theorem mapPendingFailure_ne_ok {status : PendingStatus} : mapPendingFailure status ≠ .ok := by
  cases status <;> simp [mapPendingFailure]

/-- Every outcome of the key derivation of a responder. -/
inductive DeriveView (prims : Primitives) (ctx : HandshakeCtx) (digest : Digest) :
    Except HandshakeStatus TrafficKeys → Prop where
  | error {status : HandshakeStatus} (hstatus : status ≠ .ok) :
      DeriveView prims ctx digest (.error status)
  | ok {shared ssKem : Secret} {keys : TrafficKeys}
      (hshared : kexSharedSecret prims ctx.eph ctx.peerEphPub = some shared)
      (hkem : ctx.ssKem = some ssKem)
      (hkeys : deriveTrafficKeys prims (ctx.responderKdfInputs shared ssKem digest) = some keys) :
      DeriveView prims ctx digest (.ok keys)

theorem responderDerive_view (prims : Primitives) (env : HandshakeEnv) (ctx : HandshakeCtx)
    (digest : Digest) : DeriveView prims ctx digest (ctx.responderDerive prims env digest) := by
  unfold responderDerive
  split
  · cases hshared : kexSharedSecret prims ctx.eph ctx.peerEphPub with
    | none => exact .error (by simp)
    | some shared =>
      cases hkem : ctx.ssKem with
      | none => exact .error (by simp)
      | some ssKem =>
        dsimp only
        split
        · cases hkeys : deriveTrafficKeys prims (ctx.responderKdfInputs shared ssKem digest) with
          | none => exact .error (by simp)
          | some => exact .ok hshared hkem hkeys
        · exact .error (by simp)
  · exact .error (by simp)

private theorem verifyClientAuth_step {ca : Option Bytes} :
    CallStep prims ctx ledger (.verifyClientAuth env ca)
      (responderVerifyClientAuth prims env ctx ledger ca) := by
  unfold responderVerifyClientAuth
  split_ifs with hcall
  · have hat := checkCall_eq_true.mp hcall
    cases ca with
    | none => exact .refused (by simp)
    | some ca =>
      dsimp only
      cases hdecode : decodeClientAuth ca with
      | none => exact .refused (by simp)
      | some msg =>
        obtain ⟨hsig, rfl⟩ := decodeClientAuth_eq_some_iff.mp hdecode
        dsimp only
        split_ifs with hid
        · split
          · rename_i digest mid hdigest
            split
            · split
              · rename_i next hfailure
                exact .wrongSignature hat hdigest hfailure
              · rename_i status next hnotOk hfailure
                exact .lockedOut hat hdigest hfailure hnotOk mapPendingFailure_ne_ok
            · rename_i peerPk hfilter
              obtain ⟨hpk, hverify⟩ := Option.filter_eq_some_iff.mp hfilter
              simp only [mldsaVerify, Bool.and_eq_true] at hverify
              have hview := responderDerive_view prims env ctx digest
              split
              · rename_i status hderive
                rw [hderive] at hview
                cases hview with
                | error hstatus => exact .deriveFailed hat hdigest hstatus
              · rename_i keys hderive
                rw [hderive] at hview
                cases hview with
                | ok hshared hkem hkeys =>
                  split
                  · rename_i next hconsume
                    exact .authVerified hat hsig hid hdigest hpk hverify.2
                      hshared hkem hkeys hconsume
                  rename_i status next hnotOk hconsume
                  exact .notConsumed hat hdigest hconsume hnotOk mapPendingFailure_ne_ok
          · rename_i status digest next hnotOk hdigest
            exact .entryGone hat hdigest hnotOk mapPendingFailure_ne_ok
        · exact .refused (by simp)
  · exact .refused (by simp)

private theorem responderFinish_step :
    CallStep prims ctx ledger .responderFinish ((responderFinish ctx).keep ledger) := by
  unfold responderFinish
  split_ifs with hcall
  · have hat := checkCall_eq_true.mp hcall
    exact .responderFinished hat
  · exact .refused (by simp)

/-- What the calls compute is covered by the list of outcomes. -/
theorem callStep_exec (prims : Primitives) (ctx : HandshakeCtx) (ledger : PendingStore)
    (call : CtxCall) : CallStep prims ctx ledger call (call.exec prims ctx ledger) := by
  cases call with
  | initiatorInit env localId localKeypair keystore peerId =>
    exact initiatorInit_step
  | responderInit env localId localKeypair keystore lookupFn pending =>
    exact responderInit_step
  | createClientHello env out => exact createClientHello_step
  | verifyServerHello env sh => exact verifyServerHello_step
  | createClientAuth env out => exact createClientAuth_step
  | initiatorFinish env => exact initiatorFinish_step
  | acceptClientHello env ch => exact acceptClientHello_step
  | createServerHello env out => exact createServerHello_step
  | verifyClientAuth env ca => exact verifyClientAuth_step
  | responderFinish => exact responderFinish_step
  | wipe now => exact wipe_step

end Steps

/-! ## A sample handshake

The messages two parties exchange over the stand-in primitives, for concrete runs. -/

/-- The surroundings of a party that pins both parties. -/
def sampleEnv (seed : UInt8) : HandshakeEnv where
  alloc := fun _ => true
  ephSecret := blobOf 32 [seed]
  kemSeed := blobOf 64 [seed]
  encapsSeed := blobOf 32 [seed]
  signSeed := Blob.zero 32
  sessionId := blobOf 16 [seed]
  nonce := blobOf 32 [seed]
  now := 1
  later := 2
  keystore := ⟨[⟨[1], blobOf 1952 [1]⟩, ⟨[2], blobOf 1952 [2]⟩]⟩
  lookup := fun _ => none

/-- The signing keys of a party. -/
def sampleKeypair (seed : UInt8) : MldsaKeypair where
  publicKey := blobOf 1952 [seed]
  secretKey := some (blobOf 4032 [seed])

/-- The ClientHello of the first party. -/
def sampleClientHello : ClientHello where
  id := [1]
  ephemeralPub := blobOf 32 [1]
  mlkemEk := blobOf 1184 [1]
  sessionId := blobOf 16 [1]
  nonce := blobOf 32 [1]

/-- The ServerHello of the second party, with a given signature. -/
def sampleServerHello (sig : Bytes) : ServerHello where
  id := [2]
  ephemeralPub := blobOf 32 [2]
  mlkemCt := blobOf 1088 [2]
  nonce := blobOf 32 [2]
  sessionIdEcho := blobOf 16 [1]
  sig := sig

/-- What a party signs, in the stand-in scheme. -/
def sampleSig (seed : UInt8) (digest : Digest) : Bytes :=
  (blobOf 4032 [seed]).toList.take 8 ++ digest.toList

/-- The bytes of the signed ServerHello. -/
def sampleServerHelloBytes : Bytes :=
  (sampleServerHello (sampleSig 2 (transcriptHashServerAuth .sample sampleClientHello.bytes
    (sampleServerHello []).unsignedBytes))).bytes

/-- The bytes of the ClientAuth. -/
def sampleClientAuthBytes : Bytes :=
  ClientAuth.bytes
    { handshakeId :=
        transcriptHandshakeId .sample sampleClientHello.bytes sampleServerHelloBytes
      sig := sampleSig 1
        (transcriptHashClientAuth .sample sampleClientHello.bytes sampleServerHelloBytes) }

end MldsaAuth.Protocol
