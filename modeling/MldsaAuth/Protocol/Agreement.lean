/-
# Two honest parties agree

An initiator and a responder that pin each other's keys exchange their three messages
unmodified. Both end established, with the same handshake id and the same keys, and the
sessions made of the two contexts fit together. Before the genuine ClientAuth arrives the
responder may be offered other ones: any number that do not decode or name another
handshake, and up to two with a wrong signature. Other users of the ledger may act in
between.

The first part says of each function under which circumstances it succeeds; `Calls` says
what a function does in every other case.
-/

import MldsaAuth.Protocol.Channel
import MldsaAuth.Protocol.LedgerActive

namespace MldsaAuth.Protocol

open Foundation Crypto PendingStore HandshakeCtx ServerHello

/-! ## When a call succeeds -/

variable {peerPk : SigPublicKey} {ssKem shared : Secret} {keys : TrafficKeys} {localId : Bytes}
  {localKeypair : MldsaKeypair} {eph : KexKeypair} {sig : Bytes}

section Completeness

variable {prims : Primitives} {env : HandshakeEnv} {ctx : HandshakeCtx} {out : OutBuf}
  {ledger next : PendingStore}

theorem initiatorInit_eq_ok {peerId : Bytes} (halloc : env.alloc .contextKeys = true)
    (hlocal : idLenValid localId = true) (hpeer : idLenValid peerId = true)
    (hsecret : localKeypair.secretKey.isSome = true) :
    initiatorInit env localId localKeypair true peerId =
      { status := .ok
        ctx := { ready .initiator localId localKeypair .keystore with
          peerId := peerId } } := by
  simp [initiatorInit, initCommon, halloc, hlocal, hpeer, hsecret, ready]

theorem responderInitImpl_eq_ok {lookupFn : Bool} {pending : ℕ}
    (halloc : env.alloc .contextKeys = true) (hlocal : idLenValid localId = true)
    (hsecret : localKeypair.secretKey.isSome = true) (husable : ledger.storeUsable = true) :
    responderInitImpl env localId localKeypair (!lookupFn) lookupFn pending ledger =
      { status := .ok
        ctx := { ready .responder localId localKeypair
            (if lookupFn then .lookupFn else .keystore) with
          pending := some pending } } := by
  simp [responderInitImpl, initCommon, halloc, hlocal, hsecret, husable, ready]

theorem createClientHello_eq_ok {kem : MlkemKeypair} (hcall : ctx.checkCall .initiator .new = true)
    (hpresent : out.present = true) (hcap : clientHelloMaxEncodedLen ≤ out.cap)
    (hid : idLenValid ctx.localId = true) (heph : kexKeypairGenerate prims env.toCallEnv = some eph)
    (hkem : mlkemKeypairGenerate prims env.toCallEnv = some kem) :
    initiatorCreateClientHello prims env ctx out =
      { status := .ok
        ctx := ctx.withClientHello env eph kem
        output := some (ctx.clientHello env eph kem).bytes } := by
  have hencode : encodeClientHello (ctx.clientHello env eph kem) clientHelloMaxEncodedLen =
      some (ctx.clientHello env eph kem).bytes :=
    encodeClientHello_eq_some_iff.mpr ⟨hid, rfl⟩
  have hfits : ¬ out.cap < (ctx.clientHello env eph kem).bytes.length :=
    Nat.not_lt.mpr ((ClientHello.length_bytes_le hid).trans hcap)
  simp only [initiatorCreateClientHello, hcall, hpresent, heph, hkem, hencode, hfits, if_true,
    if_false]
  rfl

theorem acceptClientHello_eq_ok {msg : ClientHello} (hcall : ctx.checkCall .responder .new = true)
    (hid : idLenValid msg.id = true) (hpk : ctx.resolvePeerPk env msg.id = some peerPk) :
    responderAcceptClientHello env ctx (some msg.bytes) =
      { status := .ok, ctx := ctx.withPeerHello msg peerPk } := by
  have hdecode : decodeClientHello msg.bytes = some msg :=
    decodeClientHello_eq_some_iff.mpr ⟨hid, rfl⟩
  have hfits : ¬ clientHelloMaxEncodedLen < msg.bytes.length :=
    Nat.not_lt.mpr (ClientHello.length_bytes_le hid)
  simp only [responderAcceptClientHello, hcall, hdecode, hfits, hpk, if_true, if_false]
  rfl

theorem draftServerHello_eq_ok {ch : ClientHello} {mlkemCt : KemCiphertext}
    (hlocal : idLenValid ctx.localId = true) (hid : idLenValid ch.id = true)
    (hch : ctx.chBytes = ch.bytes) (halloc : env.alloc .kemSharedSecret = true)
    (heph : kexKeypairGenerate prims env.toCallEnv = some eph)
    (hkem : mlkemEncaps prims env.toCallEnv ch.mlkemEk = some (mlkemCt, ssKem))
    (hsign : ctx.sign prims env (transcriptHashServerAuth prims ch.bytes
      (ctx.serverHello env eph mlkemCt []).unsignedBytes) = some sig)
    (hsig : sigLenValid sig = true) :
    ctx.draftServerHello prims env =
      .ok { eph := eph, ssKem := ssKem, bytes := (ctx.serverHello env eph mlkemCt sig).bytes } := by
  have hdecode : decodeClientHello ch.bytes = some ch :=
    decodeClientHello_eq_some_iff.mpr ⟨hid, rfl⟩
  have hunsigned : encodeServerHelloUnsigned (ctx.serverHello env eph mlkemCt [])
      serverHelloUnsignedMaxEncodedLen = some (ctx.serverHello env eph mlkemCt []).unsignedBytes :=
    encodeServerHelloUnsigned_eq_some_iff.mpr ⟨hlocal, rfl⟩
  have hfull : encodeServerHello (ctx.serverHello env eph mlkemCt sig)
      serverHelloMaxEncodedLen = some (ctx.serverHello env eph mlkemCt sig).bytes :=
    encodeServerHello_eq_some_iff.mpr ⟨hlocal, hsig, rfl⟩
  -- signing changes nothing in front of the signature
  have hcut : (ctx.serverHello env eph mlkemCt sig).bytes =
      (ctx.serverHello env eph mlkemCt []).unsignedBytes ++ (beBytes 2 sig.length ++ sig) := rfl
  have hsigned : ¬ ((ctx.serverHello env eph mlkemCt sig).bytes.length ≤
        (ctx.serverHello env eph mlkemCt []).unsignedBytes.length ∨
      (ctx.serverHello env eph mlkemCt sig).bytes.take
        (ctx.serverHello env eph mlkemCt []).unsignedBytes.length ≠
          (ctx.serverHello env eph mlkemCt []).unsignedBytes) := by
    rw [hcut, List.take_left, List.length_append, List.length_append, length_beBytes]
    simp
  simp only [draftServerHello, heph, hch, hdecode, halloc, hkem, hunsigned, hsign,
    hfull, hsigned, if_true, if_false]

theorem createServerHello_eq_ok {draft : ServerHelloDraft}
    (hcall : ctx.checkCall .responder .clientHelloAccepted = true) (hpresent : out.present = true)
    (hdraft : ctx.draftServerHello prims env = .ok draft) (hcap : draft.bytes.length ≤ out.cap)
    (hinsert : ledger.insert (transcriptHandshakeId prims ctx.chBytes draft.bytes)
      (transcriptHashClientAuth prims ctx.chBytes draft.bytes) env.now env.later = (.ok, next)) :
    responderCreateServerHello prims env ctx ledger out =
      { status := .ok
        ctx := ctx.withAnswer prims draft
        output := some draft.bytes
        ledger := next } := by
  simp only [responderCreateServerHello, hcall, hpresent, hdraft, Nat.not_lt.mpr hcap, hinsert,
    if_true, if_false]

theorem verifyServerHello_eq_ok {msg : ServerHello}
    (hcall : ctx.checkCall .initiator .clientHelloCreated = true) (hid : idLenValid msg.id = true)
    (hsig : sigLenValid msg.sig = true) (hpeer : msg.id = ctx.peerId)
    (hpk : ctx.resolvePeerPk env msg.id = some peerPk) (hecho : msg.sessionIdEcho = ctx.sessionId)
    (hsigAlloc : env.alloc .sigObject = true)
    (hverify : prims.sigVerify peerPk
      (transcriptHashServerAuth prims ctx.chBytes msg.unsignedBytes).toList msg.sig = true)
    (halloc : env.alloc .sharedSecret = true)
    (hshared : kexSharedSecret prims ctx.eph msg.ephemeralPub = some shared) :
    initiatorVerifyServerHello prims env ctx (some msg.bytes) =
      { status := .ok, ctx := ctx.withServerHello prims msg peerPk } := by
  have hdecode : decodeServerHello msg.bytes = some msg :=
    decodeServerHello_eq_some_iff.mpr ⟨hid, hsig, rfl⟩
  have hunsigned : transcriptServerHelloUnsignedLen msg.id.length = msg.unsignedBytes.length := by
    rw [transcriptServerHelloUnsignedLen, if_pos (idLenValid_iff.mp hid), msg.length_unsignedBytes]
  have hlong : ¬ (transcriptServerHelloUnsignedLen msg.id.length = 0 ∨
      msg.bytes.length ≤ transcriptServerHelloUnsignedLen msg.id.length) := by
    rw [hunsigned]
    simp only [bytes, List.length_append, length_beBytes]
    simp [unsignedBytes]
  have hverified : mldsaVerify prims env.toCallEnv (transcriptHashServerAuth prims ctx.chBytes
      msg.unsignedBytes).toList msg.sig peerPk = true := by
    simp [mldsaVerify, hsigAlloc, hverify]
  simp only [initiatorVerifyServerHello, hcall, hdecode, if_true]
  rw [if_pos hpeer, hpk]
  dsimp only
  rw [if_pos hecho]
  simp only [initiatorVerifySignedHello, take_unsignedLen hid, hverified, halloc, hshared, if_true]
  rw [if_neg hlong]
  rfl

theorem createClientAuth_eq_ok (hcall : ctx.checkCall .initiator .serverHelloVerified = true)
    (hpresent : out.present = true) (hcap : clientAuthMaxEncodedLen ≤ out.cap)
    (hsign : ctx.sign prims env ctx.thClientAuth = some sig) (hsig : sigLenValid sig = true) :
    initiatorCreateClientAuth prims env ctx out =
      { status := .ok
        ctx := { ctx with state := .clientAuthCreated }
        output := some (ClientAuth.bytes ⟨ctx.handshakeId, sig⟩) } := by
  have hencode : encodeClientAuth ⟨ctx.handshakeId, sig⟩ clientAuthMaxEncodedLen =
      some (ClientAuth.bytes ⟨ctx.handshakeId, sig⟩) :=
    encodeClientAuth_eq_some_iff.mpr ⟨hsig, rfl⟩
  have hlength : (ClientAuth.bytes ⟨ctx.handshakeId, sig⟩).length ≤ clientAuthMaxEncodedLen :=
    ClientAuth.length_bytes_le hsig
  simp only [initiatorCreateClientAuth, hcall, hpresent, hsign, hencode,
    Nat.not_lt.mpr (hlength.trans hcap), if_true, if_false]

theorem initiatorFinish_eq_ok (hcall : ctx.checkCall .initiator .clientAuthCreated = true)
    (halloc : ∀ site, env.alloc site = true)
    (hshared : kexSharedSecret prims ctx.eph ctx.peerEphPub = some shared)
    (hkem : mlkemDecaps prims env.toCallEnv ctx.peerMlkemCt ctx.kem = some ssKem)
    (hkeys : deriveTrafficKeys prims (ctx.initiatorKdfInputs shared ssKem) = some keys) :
    initiatorFinish prims env ctx = { status := .ok, ctx := ctx.withInitiatorKeys keys } := by
  simp only [initiatorFinish, hcall, halloc, hshared, hkem, hkeys, if_true]

theorem verifyClientAuth_eq_ok {msg : ClientAuth} {digest : Digest} {mid : PendingStore}
    (hcall : ctx.checkCall .responder .serverHelloCreated = true)
    (hsig : sigLenValid msg.sig = true) (hid : msg.handshakeId = ctx.handshakeId)
    (hdigest : ledger.getDigest ctx.handshakeId env.now = (.ok, digest, mid))
    (hpk : ctx.peerPk = some peerPk) (halloc : ∀ site, env.alloc site = true)
    (hverify : prims.sigVerify peerPk digest.toList msg.sig = true)
    (hshared : kexSharedSecret prims ctx.eph ctx.peerEphPub = some shared)
    (hkem : ctx.ssKem = some ssKem)
    (hkeys : deriveTrafficKeys prims (ctx.responderKdfInputs shared ssKem digest) = some keys)
    (hconsume : mid.consumeSuccess ctx.handshakeId env.later = (.ok, next)) :
    responderVerifyClientAuth prims env ctx ledger (some msg.bytes) =
      { status := .ok, ctx := ctx.withResponderKeys keys, ledger := next } := by
  have hdecode : decodeClientAuth msg.bytes = some msg :=
    decodeClientAuth_eq_some_iff.mpr ⟨hsig, rfl⟩
  have hverified : ctx.peerPk.filter (mldsaVerify prims env.toCallEnv digest.toList msg.sig) =
      some peerPk := by
    simp [hpk, mldsaVerify, halloc, hverify]
  have hderive : ctx.responderDerive prims env digest = .ok keys := by
    simp only [responderDerive, halloc, hshared, hkem, hkeys, if_true]
  simp only [responderVerifyClientAuth, hcall, hdecode, if_true]
  rw [if_pos hid, hdigest]
  simp only [hverified, hderive, hconsume]

theorem responderFinish_eq_ok (hcall : ctx.checkCall .responder .clientAuthVerified = true) :
    responderFinish ctx = { status := .ok, ctx := ctx.finished } := by
  simp only [responderFinish, hcall, if_true]

end Completeness

/-! ## One exchange -/

/-- The calls of an exchange that read their surroundings. -/
inductive ExchangeCall where
  | dial
  | listen
  | hello
  | accept
  | answer
  | check
  | auth
  | finish
  | confirm

/-- What may reach the responder, or its ledger, before the genuine ClientAuth. -/
inductive Disturbance where
  | message (env : HandshakeEnv) (ca : Bytes)
  | ledger (op : PendingOp)

/-- Everything two parties and their surroundings bring to an exchange: identities, key
pairs, what each call reads, output buffers, the ledger and the disturbances. -/
structure Exchange where
  prims : Primitives
  id : HandshakeRole → Bytes
  keypair : HandshakeRole → MldsaKeypair
  env : ExchangeCall → HandshakeEnv
  /-- The responder resolves keys with a function instead of a keystore. -/
  lookupFn : Bool
  helloOut : OutBuf
  answerOut : OutBuf
  authOut : OutBuf
  pending : ℕ
  ledger : PendingStore
  disturbances : List Disturbance

/-- A disturbance of a responder and its ledger. -/
def Disturbance.apply (prims : Primitives) (waiting : HandshakeCtx × PendingStore) :
    Disturbance → HandshakeCtx × PendingStore
  | message env ca =>
    let result := responderVerifyClientAuth prims env waiting.1 waiting.2 (some ca)
    (result.ctx, result.ledger)
  | ledger op => (waiting.1, (waiting.2.apply op).2)

namespace Exchange

variable (x : Exchange)

/-- The initiator after its initialisation. -/
def dialled : CtxResult :=
  initiatorInit (x.env .dial) (x.id .initiator) (x.keypair .initiator) true (x.id .responder)

/-- The responder after its initialisation. -/
def listening : CtxResult :=
  responderInitImpl (x.env .listen) (x.id .responder) (x.keypair .responder) (!x.lookupFn)
    x.lookupFn x.pending x.ledger

/-- The initiator makes the ClientHello. -/
def hello : CtxResult :=
  initiatorCreateClientHello x.prims (x.env .hello) x.dialled.ctx x.helloOut

/-- The responder accepts it. -/
def accepted : CtxResult :=
  responderAcceptClientHello (x.env .accept) x.listening.ctx x.hello.output

/-- The responder makes the ServerHello. -/
def answered : LedgerResult :=
  responderCreateServerHello x.prims (x.env .answer) x.accepted.ctx x.ledger x.answerOut

/-- The initiator verifies it. -/
def checked : CtxResult :=
  initiatorVerifyServerHello x.prims (x.env .check) x.hello.ctx x.answered.output

/-- The initiator makes the ClientAuth. -/
def auth : CtxResult :=
  initiatorCreateClientAuth x.prims (x.env .auth) x.checked.ctx x.authOut

/-- The initiator finishes. -/
def finished : CtxResult := initiatorFinish x.prims (x.env .finish) x.auth.ctx

/-- The responder and its ledger after the disturbances. -/
def disturbed : HandshakeCtx × PendingStore :=
  x.disturbances.foldl (Disturbance.apply x.prims) (x.answered.ctx, x.answered.ledger)

/-- The responder verifies the ClientAuth. -/
def confirmed : LedgerResult :=
  responderVerifyClientAuth x.prims (x.env .confirm) x.disturbed.1 x.disturbed.2 x.auth.output

/-- The responder finishes. -/
def completed : CtxResult := responderFinish x.confirmed.ctx

/-- The bytes of the two hellos. -/
def hellos : Bytes × Bytes :=
  (x.hello.output.getD [],
    match x.accepted.ctx.draftServerHello x.prims (x.env .answer) with
    | .ok draft => draft.bytes
    | .error _ => [])

/-- The handshake id of the exchange. -/
def handshakeId : HandshakeId :=
  transcriptHandshakeId x.prims x.hellos.1 x.hellos.2

/-- The digest the initiator signs. -/
def digest : Digest := transcriptHashClientAuth x.prims x.hellos.1 x.hellos.2

/-- When the ledger entry of the exchange expires. -/
def deadline : ℕ := x.ledger.deadline (x.env .answer).later

/-- A ClientAuth that names the handshake of the exchange. -/
def names : Disturbance → Bool
  | .message _ ca => (decodeClientAuth ca).any fun msg => msg.handshakeId = x.handshakeId
  | .ledger _ => false

/-- A ClientAuth that does not decode, names another handshake, or comes in time with a
signature that is not accepted; or a use of the ledger for something else in time. -/
def Harmless : Disturbance → Prop
  | .message env ca => ∀ msg ∈ decodeClientAuth ca, msg.handshakeId = x.handshakeId →
      mldsaVerify x.prims env.toCallEnv x.digest.toList msg.sig
          (x.keypair .initiator).publicKey = false ∧
        env.now < x.deadline ∧ env.later < x.deadline
  | .ledger op => op.subject ≠ some x.handshakeId ∧ op.time < x.deadline

end Exchange

/-- The two orders of a key exchange agree, decapsulation inverts encapsulation, and neither
these nor HKDF fail on what honest parties give them. -/
structure PrimitivesCorrect (prims : Primitives) : Prop where
  base : ∀ secret, ∃ point, prims.scalarmultBase secret = some point
  commutes : ∀ {first second firstPoint secondPoint},
    prims.scalarmultBase first = some firstPoint →
    prims.scalarmultBase second = some secondPoint →
    ∃ shared, prims.scalarmult first secondPoint = some shared ∧
      prims.scalarmult second firstPoint = some shared
  kem : ∀ seed, ∃ publicKey secretKey, prims.kemKeypair seed = some (publicKey, secretKey) ∧
    ∀ coins, ∃ ciphertext shared, prims.kemEncaps publicKey coins = some (ciphertext, shared) ∧
      prims.kemDecaps secretKey ciphertext = some shared
  extract : ∀ salt ikm, ∃ prk, prims.hkdfExtract salt ikm = some prk
  expand : ∀ prk info, ∃ key, prims.hkdfExpand prk info = some key

/-- A digest the key pair signs verifies, and the signature has a valid length. -/
def Signs (prims : Primitives) (keypair : MldsaKeypair) : Prop :=
  ∃ secretKey, keypair.secretKey = some secretKey ∧ ∀ (digest : Digest) coins, ∃ sig,
    prims.sigSign secretKey digest.toList coins = some sig ∧ sigLenValid sig = true ∧
      prims.sigVerify keypair.publicKey digest.toList sig = true

/-- The circumstances under which an exchange is expected to succeed: valid identities, pinned
keys, memory, buffers of the documented sizes, room in the ledger, and messages that reach
the responder in time. -/
structure Exchange.Honest (x : Exchange) : Prop where
  correct : PrimitivesCorrect x.prims
  ids : ∀ role, idLenValid (x.id role) = true
  signs : ∀ role, Signs x.prims (x.keypair role)
  pinsResponder : (x.env .check).keystore.lookup (x.id .responder) =
    some (x.keypair .responder).publicKey
  pinsInitiator : (if x.lookupFn then (x.env .accept).lookup (x.id .initiator)
    else (x.env .accept).keystore.lookup (x.id .initiator)) =
      some (x.keypair .initiator).publicKey
  alloc : ∀ call site, (x.env call).alloc site = true
  helloOut : x.helloOut.present = true ∧ clientHelloMaxEncodedLen ≤ x.helloOut.cap
  answerOut : x.answerOut.present = true ∧ serverHelloMaxEncodedLen ≤ x.answerOut.cap
  authOut : x.authOut.present = true ∧ clientAuthMaxEncodedLen ≤ x.authOut.cap
  ledger : x.ledger.WellFormed
  room : x.ledger.HasRoom (x.env .answer).now
  newId : ∀ found, x.ledger.entry x.handshakeId = some found →
    found.deadlineMs ≤ (x.env .answer).now
  inTime : (x.env .confirm).now < x.deadline ∧ (x.env .confirm).later < x.deadline
  harmless : ∀ disturbance ∈ x.disturbances, x.Harmless disturbance
  guesses : x.disturbances.countP x.names ≤ 2

variable {ca : Bytes}

namespace Exchange

variable {x : Exchange}

/-! ## What honest parties draw and compute -/

/-- The initiator before its ClientHello. -/
def dialledCtx (x : Exchange) : HandshakeCtx :=
  { HandshakeCtx.ready .initiator (x.id .initiator) (x.keypair .initiator) .keystore with
    peerId := x.id .responder }

/-- The responder before a ClientHello. -/
def listeningCtx (x : Exchange) : HandshakeCtx :=
  { HandshakeCtx.ready .responder (x.id .responder) (x.keypair .responder)
      (if x.lookupFn then .lookupFn else .keystore) with
    pending := some x.pending }

/-- The secrets of an honest exchange, which both parties come to share. -/
structure Secrets (x : Exchange) where
  eph : KexKeypair
  kem : MlkemKeypair
  peerEph : KexKeypair
  ciphertext : KemCiphertext
  shared : Secret
  ssKem : Secret
  ephemeral : kexKeypairGenerate x.prims (x.env .hello).toCallEnv = some eph
  generated : mlkemKeypairGenerate x.prims (x.env .hello).toCallEnv = some kem
  peerEphemeral : kexKeypairGenerate x.prims (x.env .answer).toCallEnv = some peerEph
  encapsulated : mlkemEncaps x.prims (x.env .answer).toCallEnv kem.publicKey =
    some (ciphertext, ssKem)
  decapsulated : mlkemDecaps x.prims (x.env .finish).toCallEnv ciphertext kem = some ssKem
  agreed : kexSharedSecret x.prims eph peerEph.publicKey = some shared
  peerAgreed : kexSharedSecret x.prims peerEph eph.publicKey = some shared

theorem Honest.secrets (hhonest : x.Honest) : Nonempty x.Secrets := by
  obtain ⟨point, hpoint⟩ := hhonest.correct.base (x.env .hello).ephSecret
  obtain ⟨peerPoint, hpeerPoint⟩ := hhonest.correct.base (x.env .answer).ephSecret
  obtain ⟨shared, hshared, hpeerShared⟩ := hhonest.correct.commutes hpoint hpeerPoint
  obtain ⟨publicKey, secretKey, hkeypair, hencaps⟩ := hhonest.correct.kem (x.env .hello).kemSeed
  obtain ⟨ciphertext, ssKem, hciphertext, hdecaps⟩ := hencaps (x.env .answer).encapsSeed
  exact ⟨{
    eph := ⟨point, some (x.env .hello).ephSecret⟩
    kem := ⟨publicKey, some secretKey⟩
    peerEph := ⟨peerPoint, some (x.env .answer).ephSecret⟩
    ciphertext := ciphertext
    shared := shared
    ssKem := ssKem
    ephemeral := by simp [kexKeypairGenerate, hhonest.alloc, hpoint]
    generated := by simp [mlkemKeypairGenerate, hhonest.alloc, hkeypair]
    peerEphemeral := by simp [kexKeypairGenerate, hhonest.alloc, hpeerPoint]
    encapsulated := by simp [mlkemEncaps, hhonest.alloc, hciphertext]
    decapsulated := by simp [mlkemDecaps, hhonest.alloc, hdecaps]
    agreed := by simp [kexSharedSecret, hshared]
    peerAgreed := by simp [kexSharedSecret, hpeerShared] }⟩

variable {env : HandshakeEnv}

/-- A key pair that signs lets a context sign. -/
theorem sign_of_signs {prims : Primitives} {ctx : HandshakeCtx} {keypair : MldsaKeypair}
    (hsigns : Signs prims keypair) (hkeypair : ctx.localKeypair = some keypair)
    (halloc : ∀ site, env.alloc site = true) (digest : Digest) :
    ∃ sig, ctx.sign prims env digest = some sig ∧ sigLenValid sig = true ∧
      prims.sigVerify keypair.publicKey digest.toList sig = true := by
  obtain ⟨secretKey, hsecret, hsign⟩ := hsigns
  obtain ⟨sig, hsig, hvalid, hverify⟩ := hsign digest env.signSeed
  refine ⟨sig, ?_, hvalid, hverify⟩
  simp [sign, hkeypair, mldsaSign, hsecret, halloc, hsig, hvalid]

/-- HKDF on valid identities gives keys. -/
theorem deriveTrafficKeys_of_correct {prims : Primitives} (hcorrect : PrimitivesCorrect prims)
    {inputs : KdfInputs} (hinitiator : idLenValid inputs.initiatorId = true)
    (hresponder : idLenValid inputs.responderId = true) :
    ∃ keys, deriveTrafficKeys prims inputs = some keys := by
  have hkey : ∀ direction, ∃ key, kexDeriveSessionKeyV2 prims inputs direction = some key := by
    intro direction
    obtain ⟨prk, hprk⟩ := hcorrect.extract inputs.sessionId.toList
      (inputs.ssX.toList ++ inputs.ssK.toList)
    obtain ⟨key, hkey⟩ := hcorrect.expand prk (kexKdfV2Label ++ 0 ::
      idLenByte inputs.initiatorId :: inputs.initiatorId ++ idLenByte inputs.responderId ::
        inputs.responderId ++ inputs.thClientAuth.toList ++ [direction.byte])
    refine ⟨key, ?_⟩
    simp only [kexDeriveSessionKeyV2, kdfCall, kexBuildKdfInfoV2, hinitiator, hresponder,
      Bool.and_self, if_true, Option.map_some, Option.bind_some, kexHkdfSha256, hprk]
    exact hkey
  obtain ⟨c2s, hc2s⟩ := hkey .c2s
  obtain ⟨s2c, hs2c⟩ := hkey .s2c
  exact ⟨⟨c2s, s2c⟩, by simp [deriveTrafficKeys, hc2s, hs2c]⟩

namespace Secrets

variable (secrets : x.Secrets)

/-- The ClientHello. -/
def ch : ClientHello :=
  x.dialledCtx.clientHello (x.env .hello) secrets.eph secrets.kem

/-- The responder after the ClientHello. -/
def acceptedCtx : HandshakeCtx :=
  x.listeningCtx.withPeerHello secrets.ch (x.keypair .initiator).publicKey

/-- The ServerHello with a given signature. -/
def sh (sig : Bytes) : ServerHello :=
  secrets.acceptedCtx.serverHello (x.env .answer) secrets.peerEph secrets.ciphertext sig

/-- The initiator after its ClientHello. -/
def helloCtx : HandshakeCtx :=
  x.dialledCtx.withClientHello (x.env .hello) secrets.eph secrets.kem

/-- The draft of the signed ServerHello. -/
def draft (sig : Bytes) : ServerHelloDraft where
  eph := secrets.peerEph
  ssKem := secrets.ssKem
  bytes := (secrets.sh sig).bytes

/-- The responder after its ServerHello. -/
def answeredCtx (sig : Bytes) : HandshakeCtx :=
  secrets.acceptedCtx.withAnswer x.prims (secrets.draft sig)

/-- The initiator after its ClientAuth. -/
def authCtx (sig : Bytes) : HandshakeCtx :=
  { secrets.helloCtx.withServerHello x.prims (secrets.sh sig) (x.keypair .responder).publicKey with
    state := .clientAuthCreated }

/-- What both parties derive their keys from. -/
def inputs : KdfInputs where
  ssX := secrets.shared
  ssK := secrets.ssKem
  sessionId := (x.env .hello).sessionId
  initiatorId := x.id .initiator
  responderId := x.id .responder
  thClientAuth := x.digest

/-- The signature in the ServerHello. -/
structure ServerSig (sig : Bytes) : Prop where
  valid : sigLenValid sig = true
  verifies : x.prims.sigVerify (x.keypair .responder).publicKey (transcriptHashServerAuth x.prims
    secrets.ch.bytes (secrets.sh sig).unsignedBytes).toList sig = true
  drafted : secrets.acceptedCtx.draftServerHello x.prims (x.env .answer) = .ok (secrets.draft sig)

end Secrets

section Steps

variable (hhonest : x.Honest) (secrets : x.Secrets)

include hhonest

theorem Honest.dialled_eq : x.dialled = { status := .ok, ctx := x.dialledCtx } := by
  obtain ⟨secretKey, hsecret, -⟩ := hhonest.signs .initiator
  exact initiatorInit_eq_ok (hhonest.alloc _ _) (hhonest.ids _) (hhonest.ids _) (by simp [hsecret])

theorem Honest.listening_eq : x.listening = { status := .ok, ctx := x.listeningCtx } := by
  obtain ⟨secretKey, hsecret, -⟩ := hhonest.signs .responder
  exact responderInitImpl_eq_ok (hhonest.alloc _ _) (hhonest.ids _) (by simp [hsecret])
    hhonest.ledger.usable

theorem Honest.hello_eq :
    x.hello = { status := .ok, ctx := secrets.helloCtx, output := some secrets.ch.bytes } := by
  rw [hello, hhonest.dialled_eq]
  exact createClientHello_eq_ok rfl hhonest.helloOut.1 hhonest.helloOut.2 (hhonest.ids .initiator)
    secrets.ephemeral secrets.generated

theorem Honest.accepted_eq : x.accepted = { status := .ok, ctx := secrets.acceptedCtx } := by
  have hpk : x.listeningCtx.resolvePeerPk (x.env .accept) secrets.ch.id =
      some (x.keypair .initiator).publicKey := by
    have hpins := hhonest.pinsInitiator
    have hid : secrets.ch.id = x.id .initiator := rfl
    rw [hid]
    cases hlookup : x.lookupFn <;>
      simpa [resolvePeerPk, listeningCtx, ready, hlookup] using hpins
  rw [accepted, hhonest.listening_eq, hhonest.hello_eq secrets]
  exact acceptClientHello_eq_ok rfl (hhonest.ids .initiator) hpk

theorem Honest.serverSig : ∃ sig, secrets.ServerSig sig := by
  obtain ⟨sig, hsign, hvalid, hverify⟩ := sign_of_signs (hhonest.signs .responder)
    (show secrets.acceptedCtx.localKeypair = _ from rfl) (hhonest.alloc .answer)
    (transcriptHashServerAuth x.prims secrets.ch.bytes (secrets.sh []).unsignedBytes)
  exact ⟨sig, hvalid, hverify, draftServerHello_eq_ok (hhonest.ids .responder)
    (hhonest.ids .initiator) rfl (hhonest.alloc _ _) secrets.peerEphemeral secrets.encapsulated
    hsign hvalid⟩

variable {secrets} {sig : Bytes} (hsig : secrets.ServerSig sig)

include hsig

theorem Honest.hellos_eq : x.hellos = (secrets.ch.bytes, (secrets.sh sig).bytes) := by
  rw [hellos, hhonest.hello_eq secrets, hhonest.accepted_eq secrets, hsig.drafted]
  rfl

/-- The answer is in the ledger. -/
theorem Honest.answered_eq : ∃ next : PendingStore,
    x.answered =
        { status := .ok
          ctx := secrets.answeredCtx sig
          output := some (secrets.sh sig).bytes
          ledger := next } ∧
      next.WellFormed ∧ next.entry x.handshakeId =
        some (x.ledger.fresh x.handshakeId x.digest (x.env .answer).later) := by
  obtain ⟨next, hinsert, hwf, hentry⟩ := insert_of_hasRoom hhonest.ledger
    hhonest.room hhonest.newId x.digest (x.env .answer).later
  refine ⟨next, ?_, hwf, hentry⟩
  have hcap : (secrets.draft sig).bytes.length ≤ x.answerOut.cap :=
    (length_bytes_le (hhonest.ids .responder) hsig.valid).trans hhonest.answerOut.2
  simp only [handshakeId, digest, hhonest.hellos_eq hsig] at hinsert
  rw [answered, hhonest.accepted_eq secrets]
  exact createServerHello_eq_ok rfl hhonest.answerOut.1 hsig.drafted hcap hinsert

theorem Honest.checked_eq :
    x.checked =
      { status := .ok
        ctx := secrets.helloCtx.withServerHello x.prims (secrets.sh sig)
          (x.keypair .responder).publicKey } := by
  obtain ⟨next, hanswered, -⟩ := hhonest.answered_eq hsig
  rw [checked, hhonest.hello_eq secrets, hanswered]
  exact verifyServerHello_eq_ok rfl (hhonest.ids .responder) hsig.valid rfl hhonest.pinsResponder
    rfl (hhonest.alloc _ _) hsig.verifies (hhonest.alloc _ _) secrets.agreed

/-- The ClientAuth carries a signature of the digest. -/
theorem Honest.auth_eq : ∃ clientSig,
    x.auth =
        { status := .ok
          ctx := secrets.authCtx sig
          output := some (ClientAuth.bytes ⟨x.handshakeId, clientSig⟩) } ∧
      sigLenValid clientSig = true ∧
      x.prims.sigVerify (x.keypair .initiator).publicKey x.digest.toList clientSig = true := by
  obtain ⟨clientSig, hsign, hvalid, hverify⟩ := sign_of_signs (hhonest.signs .initiator)
    (show (secrets.authCtx sig).localKeypair = _ from rfl) (hhonest.alloc .auth) x.digest
  refine ⟨clientSig, ?_, hvalid, hverify⟩
  rw [auth, hhonest.checked_eq hsig]
  simp only [handshakeId, digest, hhonest.hellos_eq hsig] at hsign ⊢
  exact createClientAuth_eq_ok rfl hhonest.authOut.1 hhonest.authOut.2 hsign hvalid

theorem Honest.finished_eq (hkeys : deriveTrafficKeys x.prims secrets.inputs = some keys) :
    x.finished = { status := .ok, ctx := (secrets.authCtx sig).withInitiatorKeys keys } := by
  obtain ⟨clientSig, hauth, -⟩ := hhonest.auth_eq hsig
  rw [finished, hauth]
  refine initiatorFinish_eq_ok rfl (hhonest.alloc _) secrets.agreed secrets.decapsulated ?_
  simp only [Secrets.inputs, digest, hhonest.hellos_eq hsig] at hkeys
  exact hkeys

end Steps

/-! ## Disturbances -/

/-- The responder waits for the ClientAuth: its context is as it was after the answer, and
its ledger entry is active, with at most the given number of failures. -/
structure Waiting (x : Exchange) (ctx : HandshakeCtx) (failures : ℕ)
    (waiting : HandshakeCtx × PendingStore) : Prop where
  ctx : waiting.1 = ctx
  wellFormed : waiting.2.WellFormed
  entry : ∃ entry, waiting.2.entry x.handshakeId = some entry ∧ entry.state = .active ∧
    entry.thClientAuth = x.digest ∧ entry.deadlineMs = x.deadline ∧ entry.failureCount ≤ failures

section Disturbances

variable {ctx : HandshakeCtx} {failures : ℕ} {waiting : HandshakeCtx × PendingStore}

section

variable (hwaiting : x.Waiting ctx failures waiting)

include hwaiting

/-- A use of the ledger for something else leaves the entry alone. -/
theorem Waiting.ledger {op : PendingOp} (hharmless : x.Harmless (.ledger op)) :
    x.Waiting ctx failures (Disturbance.apply x.prims waiting (.ledger op)) := by
  obtain ⟨hsubject, htime⟩ := hharmless
  obtain ⟨entry, hentry, hactive, hdigest, hdeadline, hcount⟩ := hwaiting.entry
  have hstepped := stepped_apply hwaiting.wellFormed op
  refine ⟨hwaiting.ctx, hstepped.wellFormed, entry, ?_, hactive, hdigest, hdeadline, hcount⟩
  exact entry_apply_of_lt hwaiting.wellFormed op hentry (hdeadline ▸ htime) (Or.inl hsubject)

/-- A ClientAuth that does not decode or names another handshake changes nothing. -/
theorem Waiting.foreign
    (hid : ctx.handshakeId = x.handshakeId) (hnames : x.names (.message env ca) = false) :
    Disturbance.apply x.prims waiting (.message env ca) = waiting := by
  obtain ⟨current, ledger⟩ := waiting
  obtain rfl : current = ctx := hwaiting.ctx
  simp only [Disturbance.apply, responderVerifyClientAuth]
  split
  · cases hdecode : decodeClientAuth ca with
    | none => rfl
    | some msg =>
      have hother : ¬ msg.handshakeId = current.handshakeId := by
        simpa [names, hdecode, hid] using hnames
      simp only [hother, if_false]
  · rfl

/-- A wrong signature below the limit is counted, and the context stays. -/
theorem Waiting.wrongSignature (hcall : ctx.checkCall .responder .serverHelloCreated = true)
    (hid : ctx.handshakeId = x.handshakeId)
    (hpk : ctx.peerPk = some (x.keypair .initiator).publicKey)
    (hnames : x.names (.message env ca) = true) (hharmless : x.Harmless (.message env ca))
    (hlimit : failures < 2) :
    x.Waiting ctx (failures + 1) (Disturbance.apply x.prims waiting (.message env ca)) := by
  obtain ⟨current, ledger⟩ := waiting
  obtain rfl : current = ctx := hwaiting.ctx
  obtain ⟨entry, hentry, hactive, hdigest, hdeadline, hcount⟩ := hwaiting.entry
  obtain ⟨msg, hdecode, hmsg⟩ : ∃ msg, decodeClientAuth ca = some msg ∧
      msg.handshakeId = x.handshakeId := by
    simpa [names, Option.any_eq_true] using hnames
  obtain ⟨hverify, hnow, hlater⟩ := hharmless msg hdecode hmsg
  rw [← hdeadline] at hnow hlater
  have hread := getDigest_of_active hwaiting.wellFormed hentry hactive hnow
  have hbelow : entry.failureCount + 1 < handshakeAuthFailureLimit := by
    have hvalue : handshakeAuthFailureLimit = 3 := rfl
    omega
  obtain ⟨next, hrecord, hupdated⟩ := recordFailure_of_active hwaiting.wellFormed
    hentry hactive hlater hbelow
  have hrejected : current.peerPk.filter
      (mldsaVerify x.prims env.toCallEnv x.digest.toList msg.sig) = none := by
    simp [hpk, hverify]
  have happly : Disturbance.apply x.prims (current, ledger) (.message env ca) =
      (current, next) := by
    simp only [Disturbance.apply, responderVerifyClientAuth, hcall, if_true, hdecode, hmsg, hid,
      hread, hdigest, hrejected, hrecord]
  rw [happly]
  refine ⟨rfl, hupdated.wellFormed, { entry with failureCount := entry.failureCount + 1 }, ?_,
    hactive, hdigest, hdeadline, Nat.succ_le_succ hcount⟩
  rw [hupdated.entry, Function.update_self]

end

/-- Disturbances with no more than two guesses among them leave the responder waiting. -/
theorem Waiting.run (hcall : ctx.checkCall .responder .serverHelloCreated = true)
    (hid : ctx.handshakeId = x.handshakeId)
    (hpk : ctx.peerPk = some (x.keypair .initiator).publicKey) (disturbances : List Disturbance)
    (hharmless : ∀ disturbance ∈ disturbances, x.Harmless disturbance)
    (hwaiting : x.Waiting ctx failures waiting)
    (hguesses : failures + disturbances.countP x.names ≤ 2) :
    x.Waiting ctx 2 (disturbances.foldl (Disturbance.apply x.prims) waiting) := by
  induction disturbances generalizing failures waiting with
  | nil =>
    obtain ⟨entry, hentry, hactive, hdigest, hdeadline, hcount⟩ := hwaiting.entry
    exact ⟨hwaiting.ctx, hwaiting.wellFormed, entry, hentry, hactive, hdigest, hdeadline,
      hcount.trans hguesses⟩
  | cons disturbance rest ih =>
    have hhead := hharmless disturbance List.mem_cons_self
    have hrest := fun other hother => hharmless other (List.mem_cons_of_mem disturbance hother)
    rw [List.foldl_cons]
    rw [List.countP_cons] at hguesses
    cases disturbance with
    | ledger => exact ih hrest (hwaiting.ledger hhead) hguesses
    | message env ca =>
      cases hnames : x.names (.message env ca) with
      | false =>
        rw [hwaiting.foreign hid hnames]
        exact ih hrest hwaiting (by simpa [hnames] using hguesses)
      | true =>
        rw [if_pos hnames] at hguesses
        exact ih hrest (hwaiting.wrongSignature hcall hid hpk hnames hhead (by omega)) (by omega)

end Disturbances

/-! ## Agreement -/

/-- The genuine ClientAuth is accepted after every disturbance. -/
theorem Honest.confirmed_eq (hhonest : x.Honest) {secrets : x.Secrets}
    (hsig : secrets.ServerSig sig) (hkeys : deriveTrafficKeys x.prims secrets.inputs = some keys) :
    x.confirmed.status = .ok ∧
      x.confirmed.ctx = (secrets.answeredCtx sig).withResponderKeys keys := by
  obtain ⟨next, hanswered, hwf, hentry⟩ := hhonest.answered_eq hsig
  obtain ⟨clientSig, hauth, hvalid, hverify⟩ := hhonest.auth_eq hsig
  have hid : (secrets.answeredCtx sig).handshakeId = x.handshakeId := by
    simp only [handshakeId, hhonest.hellos_eq hsig]
    rfl
  have hstart : x.Waiting (secrets.answeredCtx sig) 0 (x.answered.ctx, x.answered.ledger) := by
    rw [hanswered]
    exact ⟨rfl, hwf, _, hentry, rfl, rfl, rfl, le_rfl⟩
  have hwaiting : x.Waiting (secrets.answeredCtx sig) 2 x.disturbed :=
    hstart.run rfl hid rfl x.disturbances hhonest.harmless (by simpa using hhonest.guesses)
  obtain ⟨entry, hfound, hactive, hdigest, hdeadline, -⟩ := hwaiting.entry
  have hread := getDigest_of_active hwaiting.wellFormed hfound hactive
    (hdeadline ▸ hhonest.inTime.1)
  obtain ⟨last, hconsume⟩ := consumeSuccess_of_active hwaiting.wellFormed hfound
    hactive (hdeadline ▸ hhonest.inTime.2)
  rw [hdigest] at hread
  rw [← hid] at hread hconsume
  rw [confirmed, hwaiting.ctx, hauth, ← hid]
  rw [verifyClientAuth_eq_ok rfl hvalid rfl hread rfl (hhonest.alloc _) hverify secrets.peerAgreed
    rfl hkeys hconsume]
  exact ⟨rfl, rfl⟩

end Exchange

/-- A call that makes a session and is not refused for its own arguments. -/
structure SessionInitArgs.Usable (args : SessionInitArgs) : Prop where
  state : args.session.state = .empty
  keys : args.session.keys = none
  limits : ∀ given, args.limits = some given → given.valid = true
  clock : args.now ≠ uint64Max
  alloc : args.env.alloc .sessionKeys = true

theorem SessionInitArgs.Usable.init_eq {args : SessionInitArgs} (husable : args.Usable)
    {hs : HandshakeCtx} {role : HandshakeRole} {hid : HandshakeId} (hrole : hs.role = some role)
    (hkeys : hs.keyAt = some keys) (hhid : hs.getHandshakeId = some hid) :
    (args.init hs).status = .ok ∧
      (args.init hs).session =
        .ofKeys (role = .initiator) keys hid (args.limits.getD .default) args.now := by
  have hlimits : (args.limits.any fun given => !given.valid) = false := by
    cases hgiven : args.limits with
    | none => rfl
    | some given => simp [husable.limits given hgiven]
  have hconfirmed : ¬ (role = .responder ∧ hs.isPeerConfirmed = false) := by
    rintro ⟨rfl, hpeer⟩
    simp only [keyAt, Option.ite_none_right_eq_some] at hkeys
    simp [isPeerConfirmed, hrole, hkeys.1] at hpeer
  simp [SessionInitArgs.init, sessionInitFromHandshake, husable.state, husable.keys, hlimits,
    hrole, hkeys, hhid, hconfirmed, husable.clock, husable.alloc]

/-- What one session sends the other receives, in both directions. -/
structure SessionsFit (first second : Session) : Prop where
  active : first.state = .active ∧ second.state = .active
  keys : ∃ firstKeys secondKeys, first.keys = some firstKeys ∧ second.keys = some secondKeys ∧
    firstKeys.send = secondKeys.recv ∧ secondKeys.send = firstKeys.recv
  directions : first.sendDir = second.recvDir ∧ second.sendDir = first.recvDir
  handshakeId : first.handshakeId = second.handshakeId

theorem sessionsFit_ofKeys (hid : HandshakeId)
    (firstLimits secondLimits : SessionLimits) (firstNow secondNow : ℕ) :
    SessionsFit (.ofKeys true keys hid firstLimits firstNow)
      (.ofKeys false keys hid secondLimits secondNow) where
  active := ⟨rfl, rfl⟩
  keys := ⟨_, _, rfl, rfl, rfl, rfl⟩
  directions := ⟨rfl, rfl⟩
  handshakeId := rfl

/-- Honest parties that exchange their messages unmodified both end established, with the
same handshake id and the same keys, whatever disturbed the responder in between; and the
sessions made of the two contexts fit together. -/
theorem honest_exchange_agrees {x : Exchange} (hhonest : x.Honest) :
    (x.finished.status = .ok ∧ x.finished.ctx.state = .established) ∧
      (x.completed.status = .ok ∧ x.completed.ctx.state = .established) ∧
      (∃ keys, MatchingEnds x.finished.ctx x.completed.ctx keys x.handshakeId) ∧
      ∀ initiator responder : SessionInitArgs, initiator.Usable → responder.Usable →
        (initiator.init x.finished.ctx).status = .ok ∧
          (responder.init x.completed.ctx).status = .ok ∧
          SessionsFit (initiator.init x.finished.ctx).session
            (responder.init x.completed.ctx).session := by
  obtain ⟨secrets⟩ := hhonest.secrets
  obtain ⟨sig, hsig⟩ := hhonest.serverSig secrets
  obtain ⟨keys, hkeys⟩ := Exchange.deriveTrafficKeys_of_correct hhonest.correct
    (show idLenValid secrets.inputs.initiatorId = true from hhonest.ids .initiator)
    (show idLenValid secrets.inputs.responderId = true from hhonest.ids .responder)
  have hfinished := hhonest.finished_eq hsig hkeys
  have hconfirmed := (hhonest.confirmed_eq hsig hkeys).2
  have hcompleted : x.completed =
      { status := .ok, ctx := ((secrets.answeredCtx sig).withResponderKeys keys).finished } := by
    rw [Exchange.completed, hconfirmed]
    exact responderFinish_eq_ok rfl
  have hmatching : MatchingEnds x.finished.ctx x.completed.ctx keys x.handshakeId := by
    rw [hfinished, hcompleted]
    simp only [Exchange.handshakeId, hhonest.hellos_eq hsig]
    exact ⟨rfl, rfl, rfl, rfl, rfl, rfl⟩
  refine ⟨by rw [hfinished]; exact ⟨rfl, rfl⟩, by rw [hcompleted]; exact ⟨rfl, rfl⟩,
    ⟨keys, hmatching⟩, fun initiator responder hinitiator hresponder => ?_⟩
  obtain ⟨hstatus, hsession⟩ := hinitiator.init_eq hmatching.initiatorRole
    hmatching.initiatorKeys hmatching.initiatorId
  obtain ⟨hpeerStatus, hpeerSession⟩ := hresponder.init_eq hmatching.responderRole
    hmatching.responderKeys hmatching.responderId
  refine ⟨hstatus, hpeerStatus, ?_⟩
  rw [hsession, hpeerSession]
  exact sessionsFit_ofKeys x.handshakeId _ _ _ _

/-! ## A disturbed exchange -/

/-- The stand-ins have the algebra of the real primitives. -/
theorem primitivesCorrect_sample : PrimitivesCorrect .sample where
  base := fun secret => ⟨secret, rfl⟩
  commutes := by
    intro first second firstPoint secondPoint hfirst hsecond
    obtain rfl : first = firstPoint := Option.some.inj hfirst
    obtain rfl : second = secondPoint := Option.some.inj hsecond
    exact ⟨_, rfl, congrArg (fun bytes => some (blobOf 32 bytes))
      (List.zipWith_comm_of_comm UInt8.xor_comm)⟩
  kem := fun seed => ⟨_, _, rfl, fun coins =>
    ⟨_, _, rfl, congrArg some (blobOf_blobOf (by decide) coins)⟩⟩
  extract := fun salt ikm => ⟨_, rfl⟩
  expand := fun prk info => ⟨_, rfl⟩

theorem signs_sampleKeypair {seed : UInt8} : Signs .sample (sampleKeypair seed) := by
  refine ⟨_, rfl, fun digest coins => ⟨_, rfl, ?_, ?_⟩⟩
  · rw [sigLenValid_iff, take_blobOf (by decide)]
    simp [mldsaSignatureMaxBytes]
  simp only [Primitives.sample, sampleKeypair, beq_iff_eq]
  rw [take_blobOf (by decide), take_blobOf (by decide)]

/-- A message that does not decode, one for another handshake, and two wrong signatures. -/
def sampleNoise : List Bytes :=
  let hid := transcriptHandshakeId .sample sampleClientHello.bytes sampleServerHelloBytes
  [[0], ClientAuth.bytes ⟨Blob.zero 16, [7]⟩, ClientAuth.bytes ⟨hid, [8]⟩,
    ClientAuth.bytes ⟨hid, [9]⟩]

/-- An exchange disturbed by these messages and by a sweep of the ledger. -/
def sampleExchange : Exchange where
  prims := .sample
  id
    | .initiator => [1]
    | .responder => [2]
  keypair
    | .initiator => sampleKeypair 1
    | .responder => sampleKeypair 2
  env
    | .dial | .hello | .check | .auth | .finish => sampleEnv 1
    | .listen | .accept | .answer | .confirm => sampleEnv 2
  lookupFn := false
  helloOut := ⟨true, 2000⟩
  answerOut := ⟨true, 5000⟩
  authOut := ⟨true, 5000⟩
  pending := 0
  ledger := (PendingStore.storeInitCommon true 1 100).2
  disturbances := .ledger (.sweep 50) :: sampleNoise.map (Disturbance.message (sampleEnv 2))

theorem honest_sampleExchange : sampleExchange.Honest where
  correct := primitivesCorrect_sample
  ids := by rintro ⟨⟩ <;> decide
  signs := by
    rintro ⟨⟩
    · exact signs_sampleKeypair
    · exact signs_sampleKeypair
  pinsResponder := by decide +kernel
  pinsInitiator := by decide +kernel
  alloc := by rintro ⟨⟩ site <;> rfl
  helloOut := ⟨rfl, by decide⟩
  answerOut := ⟨rfl, by decide⟩
  authOut := ⟨rfl, by decide⟩
  ledger := sound_storeInitCommon.1 rfl
  room := ⟨_, List.mem_singleton_self _, Or.inl rfl⟩
  newId := by
    intro found hfound
    cases hfound
  inTime := by decide +kernel
  harmless := by
    have hmessage : ∀ ca ∈ sampleNoise, ∀ msg ∈ decodeClientAuth ca,
        msg.handshakeId = sampleExchange.handshakeId →
        mldsaVerify .sample (sampleEnv 2).toCallEnv sampleExchange.digest.toList msg.sig
          (sampleKeypair 1).publicKey = false ∧ (sampleEnv 2).now < sampleExchange.deadline ∧
            (sampleEnv 2).later < sampleExchange.deadline := by
      decide +kernel
    intro disturbance hmem
    rcases List.mem_cons.mp hmem with rfl | hmem
    · exact ⟨by simp [PendingOp.subject], by decide +kernel⟩
    obtain ⟨ca, hca, rfl⟩ := List.mem_map.mp hmem
    exact hmessage ca hca
  guesses := by decide +kernel

/-- The sample exchange has two guesses in it and still ends in matching sessions. -/
theorem honest_exchange_agrees_sample :
    sampleExchange.disturbances.countP sampleExchange.names = 2 ∧
      ∃ keys, MatchingEnds sampleExchange.finished.ctx sampleExchange.completed.ctx keys
        sampleExchange.handshakeId :=
  ⟨by decide +kernel, (honest_exchange_agrees honest_sampleExchange).2.2.1⟩

end MldsaAuth.Protocol
