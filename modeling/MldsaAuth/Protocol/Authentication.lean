/-
# What committed keys prove

A context is watched from its initialisation on, together with the ledger it points at
and with everything it was asked to do. Whatever the caller, the peer and the other users
of the ledger do, a responder holds committed keys only if it accepted one ClientHello,
answered it once, and then consumed its own ledger entry with a signature over exactly
those two messages; an initiator goes past the ServerHello only with the signature of the
peer it dialled. A failed context gives nothing away and stays failed.
-/

import MldsaAuth.Foundation.Machine
import MldsaAuth.Protocol.LedgerActive
import MldsaAuth.Protocol.Session

namespace MldsaAuth.Protocol

open Foundation Crypto PendingStore HandshakeCtx CtxCall

/-- A call, with the context and the ledger it found and what it handed back. -/
structure CallEntry where
  call : CtxCall
  before : HandshakeCtx
  ledger : PendingStore
  result : LedgerResult

/-- The successful calls that take a responder forward. -/
def CallEntry.progress (entry : CallEntry) : Bool :=
  decide (entry.result.status = .ok) &&
    match entry.call with
    | .acceptClientHello .. | .createServerHello .. | .verifyClientAuth .. => true
    | _ => false

/-- A context, its ledger and the calls made on the context so far. -/
structure Watched where
  ctx : HandshakeCtx
  ledger : PendingStore
  history : List CallEntry

/-- A call on the context, an attempt to make a session of it, or somebody else's use of the
ledger. -/
inductive WatchedEvent where
  | call (call : CtxCall)
  | sessionInit (env : CallEnv) (session : Session) (limits : Option SessionLimits)
      (now ledgerNow : ℕ)
  | ledger (op : PendingOp)

/-- A watched context. It is not initialised again, and nobody else inserts its handshake
id into the ledger while its answer is pending. -/
def watchedCtx (prims : Primitives) : Machine Watched WatchedEvent where
  step state
    | .call call =>
      let result := call.exec prims state.ctx state.ledger
      { ctx := result.ctx
        ledger := result.ledger
        history := state.history ++ [⟨call, state.ctx, state.ledger, result⟩] }
    | .sessionInit env session limits now ledgerNow =>
      let result := sessionInitFromHandshake env session state.ctx state.ledger limits now
        ledgerNow
      { state with ctx := result.hs, ledger := result.ledger }
    | .ledger op => { state with ledger := (state.ledger.apply op).2 }
  allowed state
    | .call call => call.isInit = false
    | .sessionInit .. => True
    | .ledger op => state.ctx.state = .serverHelloCreated → op.isInsert = true →
        op.subject ≠ some state.ctx.handshakeId

/-- A context right after its initialisation. -/
def Watched.start (ctx : HandshakeCtx) (ledger : PendingStore) : Watched where
  ctx := ctx
  ledger := ledger
  history := []

/-! ## Evidence of a responder -/

/-- The call accepted a ClientHello and found a key for the identity in it. -/
structure AcceptedHello (entry : CallEntry) where
  env : HandshakeEnv
  ch : ClientHello
  peerPk : SigPublicKey
  call : entry.call = .acceptClientHello env (some ch.bytes)
  valid : idLenValid ch.id = true
  resolved : entry.before.resolvePeerPk env ch.id = some peerPk

/-- The call answered a ClientHello with fresh secrets and entered the pair of hellos into
the ledger. -/
structure EmittedHello (prims : Primitives) (ch : ClientHello) (entry : CallEntry) where
  env : HandshakeEnv
  out : OutBuf
  sh : Bytes
  eph : KexKeypair
  mlkemCt : KemCiphertext
  ssKem : Secret
  deadlineMs : ℕ
  call : entry.call = .createServerHello env out
  output : entry.result.output = some sh
  ephemeral : kexKeypairGenerate prims env.toCallEnv = some eph
  encapsulated : mlkemEncaps prims env.toCallEnv ch.mlkemEk = some (mlkemCt, ssKem)
  inserted : entry.result.ledger.entry (transcriptHandshakeId prims ch.bytes sh) = some
    { state := .active
      handshakeId := transcriptHandshakeId prims ch.bytes sh
      thClientAuth := transcriptHashClientAuth prims ch.bytes sh
      deadlineMs := deadlineMs
      failureCount := 0 }

/-- The call verified a signature over the two hellos, consumed the ledger entry in time
and derived the keys. -/
structure VerifiedAuth (prims : Primitives) (localId : Bytes) (ch : ClientHello)
    (peerPk : SigPublicKey) {answer : CallEntry} (emitted : EmittedHello prims ch answer)
    (keys : TrafficKeys) (entry : CallEntry) where
  env : HandshakeEnv
  auth : ClientAuth
  shared : Secret
  call : entry.call = .verifyClientAuth env (some auth.bytes)
  named : auth.handshakeId = transcriptHandshakeId prims ch.bytes emitted.sh
  verified : prims.sigVerify peerPk
    (transcriptHashClientAuth prims ch.bytes emitted.sh).toList auth.sig = true
  live : ∃ found, entry.ledger.entry (transcriptHandshakeId prims ch.bytes emitted.sh) =
    some found ∧ found.state = .active ∧ found.deadlineMs = emitted.deadlineMs
  inTime : env.later < emitted.deadlineMs
  consumed : ∃ found,
    entry.result.ledger.entry (transcriptHandshakeId prims ch.bytes emitted.sh) = some found ∧
      found.state = .consumed
  agreed : kexSharedSecret prims emitted.eph ch.ephemeralPub = some shared
  derived : deriveTrafficKeys prims
    { ssX := shared
      ssK := emitted.ssKem
      sessionId := ch.sessionId
      initiatorId := ch.id
      responderId := localId
      thClientAuth := transcriptHashClientAuth prims ch.bytes emitted.sh } = some keys

/-- Where a responder stands, with the successful calls that took it there. -/
inductive ResponderStage (prims : Primitives) (localId : Bytes) (ctx : HandshakeCtx)
    (ledger : PendingStore) (progress : List CallEntry) : Prop where
  | ended (hstate : ctx.state = .failed) (huncommitted : ctx.keysCommitted = false)
  | ready (hrole : ctx.role = some .responder) (hlocal : ctx.localId = localId)
      (hkeys : ctx.sessionKeys.isSome = true) (huncommitted : ctx.keysCommitted = false)
      (hstate : ctx.state = .new)
      (hprogress : progress = [])
  | accepted {accept : CallEntry} (facts : AcceptedHello accept)
      (hrole : ctx.role = some .responder) (hlocal : ctx.localId = localId)
      (hkeys : ctx.sessionKeys.isSome = true) (huncommitted : ctx.keysCommitted = false)
      (hstate : ctx.state = .clientHelloAccepted)
      (hpeer : ctx.peerPk = some facts.peerPk) (hid : ctx.peerId = facts.ch.id)
      (hsession : ctx.sessionId = facts.ch.sessionId)
      (hpub : ctx.peerEphPub = facts.ch.ephemeralPub) (hbytes : ctx.chBytes = facts.ch.bytes)
      (hprogress : progress = [accept])
  | answered {accept answer : CallEntry} (facts : AcceptedHello accept)
      (emitted : EmittedHello prims facts.ch answer)
      (hrole : ctx.role = some .responder) (hlocal : ctx.localId = localId)
      (hkeys : ctx.sessionKeys.isSome = true) (huncommitted : ctx.keysCommitted = false)
      (hstate : ctx.state = .serverHelloCreated)
      (hpeer : ctx.peerPk = some facts.peerPk) (hid : ctx.peerId = facts.ch.id)
      (hsession : ctx.sessionId = facts.ch.sessionId)
      (hpub : ctx.peerEphPub = facts.ch.ephemeralPub) (heph : ctx.eph = emitted.eph)
      (hkem : ctx.ssKem = some emitted.ssKem)
      (hown : ctx.handshakeId = transcriptHandshakeId prims facts.ch.bytes emitted.sh)
      (hentry : ∀ found, ledger.entry ctx.handshakeId = some found → found.state = .active →
        found.thClientAuth = transcriptHashClientAuth prims facts.ch.bytes emitted.sh ∧
          found.deadlineMs = emitted.deadlineMs)
      (hprogress : progress = [accept, answer])
  | verified {accept answer verify : CallEntry} (facts : AcceptedHello accept)
      (emitted : EmittedHello prims facts.ch answer) (keys : TrafficKeys)
      (auth : VerifiedAuth prims localId facts.ch facts.peerPk emitted keys verify)
      (hrole : ctx.role = some .responder)
      (hkeys : ctx.sessionKeys = some keys)
      (hstate : ctx.state = .clientAuthVerified ∨ ctx.state = .established)
      (hprogress : progress = [accept, answer, verify])

/-! ## Steps of a responder -/

variable {call : CtxCall} {result : LedgerResult} {ctx : HandshakeCtx} {ledger : PendingStore}
  {prims : Primitives}

/-- A call on a context keeps its ledger sound. -/
theorem sound_of_step (hstep : CallStep prims ctx ledger call result) (hsound : ledger.Sound) :
    result.ledger.Sound := by
  by_cases hcall : (∀ env out, call ≠ .createServerHello env out) ∨ result.status ≠ .ok
  · exact (shrinks_of_step hstep hsound hcall).sound
  cases hstep with
  | answered _ _ hinsert =>
    have hnext := congrArg Prod.snd hinsert
    dsimp only at hnext ⊢
    rw [← hnext]
    exact sound_insert hsound _ _ _ _
  | _ => simp_all

variable {history : List CallEntry} {entry : CallEntry}

theorem filter_progress_snoc (hprogress : entry.progress = false) :
    (history ++ [entry]).filter CallEntry.progress = history.filter CallEntry.progress := by
  simp [List.filter_append, hprogress]

theorem filter_progress_snoc_ok (hprogress : entry.progress = true) :
    (history ++ [entry]).filter CallEntry.progress =
      history.filter CallEntry.progress ++ [entry] := by
  simp [List.filter_append, hprogress]

theorem progress_of_ne_ok
    (hstatus : result.status ≠ .ok) : CallEntry.progress ⟨call, ctx, ledger, result⟩ = false := by
  simp [CallEntry.progress, hstatus]

variable {env : HandshakeEnv} {peerPk : SigPublicKey} {localId : Bytes}

section Responder

variable {next : PendingStore} {progress : List CallEntry}

theorem ResponderStage.of_failCtx (peerPk : Option SigPublicKey) :
    ResponderStage prims localId ({ ctx with peerPk := peerPk }.failCtx) ledger progress :=
  .ended rfl rfl

theorem ResponderStage.of_wiped : ResponderStage prims localId .wiped ledger progress :=
  .ended rfl rfl

section

variable (hstage : ResponderStage prims localId ctx ledger progress)

include hstage

/-- The calls of an initiator find no responder to work on. -/
theorem ResponderStage.failed_of_initiator
    (hinitiator : ctx.role = some .initiator) : ctx.state = .failed := by
  cases hstage with
  | ended hstate => exact hstate
  | ready hrole | accepted _ hrole | answered _ _ hrole | verified _ _ _ _ hrole =>
    simp [hinitiator] at hrole

/-- The own entry of a pending answer, if it is still active, is the one that was inserted,
as long as nobody inserts another under its id. -/
theorem ResponderStage.of_ledger
    (hkept : ctx.state = .serverHelloCreated → ∀ after, next.entry ctx.handshakeId = some after →
      after.state = .active → ∃ before, ledger.entry ctx.handshakeId = some before ∧
        before.state = .active ∧ before.thClientAuth = after.thClientAuth ∧
        before.deadlineMs = after.deadlineMs) : ResponderStage prims localId ctx next progress := by
  cases hstage with
  | ended hstate huncommitted => exact .ended hstate huncommitted
  | ready hrole hlocal hkeys huncommitted hstate hprogress =>
    exact .ready hrole hlocal hkeys huncommitted hstate hprogress
  | accepted facts hrole hlocal hkeys huncommitted hstate hpeer hid hsession hpub hbytes
      hprogress =>
      exact .accepted facts hrole hlocal hkeys huncommitted hstate hpeer hid hsession hpub hbytes
        hprogress
  | answered facts emitted hrole hlocal hkeys huncommitted hstate hpeer hid hsession hpub heph
      hkem hown hentry hprogress =>
      refine .answered facts emitted hrole hlocal hkeys huncommitted hstate hpeer hid hsession
        hpub heph hkem hown (fun after hafter hactive => ?_) hprogress
      obtain ⟨before, hbefore, hstate, hdigest, hdeadline⟩ := hkept hstate after hafter hactive
      obtain ⟨hsame, hsame'⟩ := hentry before hbefore hstate
      exact ⟨hdigest.symm.trans hsame, hdeadline.symm.trans hsame'⟩
  | verified facts emitted keys auth hrole hkeys hstate hprogress =>
    exact .verified facts emitted keys auth hrole hkeys hstate hprogress

theorem ResponderStage.accept
    (hstate : ctx.state = .new) {msg : ClientHello} (hid : idLenValid msg.id = true)
    (hpk : ctx.resolvePeerPk env msg.id = some peerPk) (result : LedgerResult) :
    ResponderStage prims localId (ctx.withPeerHello msg peerPk) ledger
      (progress ++ [⟨.acceptClientHello env (some msg.bytes), ctx, ledger, result⟩]) := by
  cases hstage with
  | ready hrole hlocal hkeys huncommitted _ hprogress =>
    exact .accepted ⟨env, msg, peerPk, rfl, hid, hpk⟩ hrole hlocal hkeys huncommitted rfl rfl
      rfl rfl rfl rfl (by rw [hprogress]; rfl)
  | ended hstate' | accepted _ _ _ _ _ hstate' | answered _ _ _ _ _ _ hstate'
  | verified _ _ _ _ _ _ hstate' => simp [hstate] at hstate'

theorem ResponderStage.answer
    (hsound : ledger.Sound) (hstate : ctx.state = .clientHelloAccepted) {out : OutBuf}
    {draft : ServerHelloDraft} (hdraft : ctx.draftServerHello prims env = .ok draft) (hinsert :
      ledger.insert (transcriptHandshakeId prims ctx.chBytes draft.bytes)
      (transcriptHashClientAuth prims ctx.chBytes draft.bytes) env.now env.later = (.ok, next)) :
    ResponderStage prims localId (ctx.withAnswer prims draft) next
      (progress ++ [⟨.createServerHello env out, ctx, ledger,
        { status := .ok
          ctx := ctx.withAnswer prims draft
          output := some draft.bytes
          ledger := next }⟩]) := by
  cases hstage with
  | @accepted accept facts hrole hlocal hkeys huncommitted _ hpeer hid hsession hpub hbytes
      hprogress =>
      have hview := draftServerHello_view prims env ctx
      rw [hdraft] at hview
      cases hview with
      | @ok decoded eph mlkemCt ssKem sig heph hdecoded hkem =>
        obtain rfl : facts.ch = decoded := by
          have hdecode := decodeClientHello_eq_some_iff.mpr ⟨facts.valid, rfl⟩
          rw [← hbytes, hdecoded] at hdecode
          exact (Option.some.inj hdecode).symm
        have hnew := insert_eq_ok hsound hinsert
        rw [hbytes] at hnew
        refine .answered facts ⟨env, out, (ctx.serverHello env eph mlkemCt sig).bytes, eph,
          mlkemCt, ssKem, ledger.deadline env.later, rfl, rfl, heph, hkem, hnew⟩ hrole hlocal hkeys
          huncommitted rfl hpeer hid hsession hpub rfl rfl (by simp [withAnswer, hbytes]) ?_
          (by rw [hprogress]; rfl)
        intro found hfound _
        simp only [withAnswer, hbytes, hnew, Option.some.injEq] at hfound
        subst hfound
        exact ⟨rfl, rfl⟩
  | ended hstate' | ready _ _ _ _ hstate' | answered _ _ _ _ _ _ hstate'
  | verified _ _ _ _ _ _ hstate' => simp [hstate] at hstate'

theorem ResponderStage.verify (hsound : ledger.Sound) (hstate : ctx.state = .serverHelloCreated)
    {msg : ClientAuth} {digest : Digest} {mid : PendingStore} {shared ssKem : Secret}
    {keys : TrafficKeys} (hnamed : msg.handshakeId = ctx.handshakeId)
    (hdigest : ledger.getDigest ctx.handshakeId env.now = (.ok, digest, mid))
    (hpk : ctx.peerPk = some peerPk) (hverify : prims.sigVerify peerPk digest.toList msg.sig = true)
    (hshared : kexSharedSecret prims ctx.eph ctx.peerEphPub = some shared)
    (hkemSecret : ctx.ssKem = some ssKem)
    (hderive : deriveTrafficKeys prims (ctx.responderKdfInputs shared ssKem digest) = some keys)
    (hconsume : mid.consumeSuccess ctx.handshakeId env.later = (.ok, next)) :
    ResponderStage prims localId (ctx.withResponderKeys keys) next
      (progress ++ [⟨.verifyClientAuth env (some msg.bytes), ctx, ledger,
        { status := .ok, ctx := ctx.withResponderKeys keys, ledger := next }⟩]) := by
  cases hstage with
  | @answered accept answer facts emitted hrole hlocal hkeys huncommitted _ hpeer hid hsession
      hpub heph hkem hown hentry hprogress =>
      obtain ⟨rfl, found, hfound, hactive, hfoundDigest, -⟩ := getDigest_eq_ok hsound hdigest
      obtain ⟨consumed, hconsumed, hconsumedActive, hinTime, hupdated⟩ :=
        consumeSuccess_eq_ok hsound hconsume
      obtain rfl : consumed = found := Option.some.inj (hconsumed.symm.trans hfound)
      obtain ⟨hsame, hdeadline⟩ := hentry consumed hfound hactive
      obtain rfl : facts.peerPk = peerPk := Option.some.inj (hpeer.symm.trans hpk)
      obtain rfl : emitted.ssKem = ssKem := Option.some.inj (hkem.symm.trans hkemSecret)
      have hth : digest = transcriptHashClientAuth prims facts.ch.bytes emitted.sh :=
        hfoundDigest.symm.trans hsame
      subst hth
      rw [heph, hpub] at hshared
      rw [hown] at hfound
      refine .verified facts emitted keys
        ⟨env, msg, shared, rfl, hnamed.trans hown, hverify, ⟨consumed, hfound, hactive, hdeadline⟩,
          hdeadline ▸ hinTime, ⟨consumed.tombstone .consumed, ?_, rfl⟩, hshared, ?_⟩
        hrole ?_ (Or.inl rfl) (by rw [hprogress]; rfl)
      · rw [hupdated.entry, ← hown, Function.update_self]
      · simpa [responderKdfInputs, hsession, hid, hlocal] using hderive
      · obtain ⟨block, hblock⟩ := Option.isSome_iff_exists.mp hkeys
        simp [withResponderKeys, hblock]
  | ended hstate' | ready _ _ _ _ hstate' | accepted _ _ _ _ _ hstate'
  | verified _ _ _ _ _ _ hstate' => simp [hstate] at hstate'

theorem responderStage_call (hsound : ledger.Sound)
    (hhistory : history.filter CallEntry.progress = progress) (hcall : call.isInit = false)
    (hstep : CallStep prims ctx ledger call result) :
    ResponderStage prims localId result.ctx result.ledger
      ((history ++ [CallEntry.mk call ctx ledger result]).filter CallEntry.progress) := by
  cases hstep with
  | refused hstatus =>
    rw [filter_progress_snoc (progress_of_ne_ok hstatus), hhistory]
    exact hstage
  | failed => exact .of_failCtx _
  | initFailed hinit => simp [hcall] at hinit
  | initiatorReady | responderReady => simp [isInit] at hcall
  | wiped | wipedPending => exact .of_wiped
  | helloRolledBack hat | helloCreated hat | serverHelloVerified hat | authCreated hat
  | initiatorFinished hat =>
    have hfailed := hstage.failed_of_initiator hat.role
    simp [hat.state] at hfailed
  | helloAccepted hat hid hpk =>
    rw [filter_progress_snoc_ok rfl, hhistory]
    exact hstage.accept hat.state hid hpk _
  | answerRolledBack hat =>
    rw [filter_progress_snoc (progress_of_ne_ok (by simp)), hhistory]
    cases hstage with
    | accepted facts hrole hlocal hkeys huncommitted hstate hpeer hid hsession hpub hbytes
        hprogress =>
        exact .accepted facts hrole hlocal hkeys huncommitted hstate hpeer hid hsession hpub
          hbytes hprogress
    | ended hstate | ready _ _ _ _ hstate | answered _ _ _ _ _ _ hstate
    | verified _ _ _ _ _ _ hstate => simp [hat.state] at hstate
  | answerNotInserted | entryGone | lockedOut | deriveFailed | notConsumed =>
    exact .of_failCtx ctx.peerPk
  | answered hat hdraft hinsert =>
    rw [filter_progress_snoc_ok rfl, hhistory]
    exact hstage.answer hsound hat.state hdraft hinsert
  | @wrongSignature env msg digest mid next hat hdigest hfailure =>
    rw [filter_progress_snoc (progress_of_ne_ok (by simp)), hhistory]
    obtain ⟨rfl, -⟩ := getDigest_eq_ok hsound hdigest
    refine hstage.of_ledger fun _ after hafter hactive => ?_
    have hnext : (mid.apply (.recordFailure ctx.handshakeId env.later)).2 = next := by
      simp [apply, hfailure]
    exact active_before_apply hsound (.recordFailure ctx.handshakeId env.later)
      (by simp [PendingOp.isInsert]) (by rwa [hnext]) hactive
  | authVerified hat hsig hid hdigest hpk hverify hshared hkem hkeys hconsume =>
    rw [filter_progress_snoc_ok rfl, hhistory]
    exact hstage.verify hsound hat.state hid hdigest hpk hverify hshared hkem hkeys hconsume
  | responderFinished hat =>
    rw [filter_progress_snoc rfl, hhistory]
    cases hstage with
    | verified facts emitted keys auth hrole hkeys _ hprogress =>
      exact .verified facts emitted keys auth hrole hkeys (Or.inr rfl) hprogress
    | ended hstate | ready _ _ _ _ hstate | accepted _ _ _ _ _ hstate
    | answered _ _ _ _ _ _ hstate => simp [hat.state] at hstate

end

end Responder

/-! ## Evidence of an initiator -/

/-- The call handed out a ClientAuth. -/
def CallEntry.producedAuth (entry : CallEntry) : Bool :=
  decide (entry.result.status = .ok) &&
    match entry.call with
    | .createClientAuth .. => true
    | _ => false

/-- The call handed out a ClientHello. -/
structure SentHello (ch : ClientHello) (entry : CallEntry) : Prop where
  call : ∃ env out, entry.call = .createClientHello env out
  ok : entry.result.status = .ok
  output : entry.result.output = some ch.bytes

/-- The call verified the answer of the dialled peer to a ClientHello: the signature of the
pinned key over the own message and the unsigned part of the received one, and the echo of
the session id. -/
structure VerifiedHello (prims : Primitives) (peerId : Bytes) (ch : ClientHello)
    (entry : CallEntry) : Prop where
  ok : entry.result.status = .ok
  verified : ∃ env sh msg peerPk, entry.call = .verifyServerHello env (some sh) ∧
    decodeServerHello sh = some msg ∧ msg.id = peerId ∧
    env.keystore.lookup peerId = some peerPk ∧ msg.sessionIdEcho = ch.sessionId ∧
    prims.sigVerify peerPk (transcriptHashServerAuth prims ch.bytes
      (sh.take (transcriptServerHelloUnsignedLen msg.id.length))).toList msg.sig = true

/-- The calls so far include a ClientHello and the verification of the answer to it. -/
def Answered (prims : Primitives) (peerId : Bytes) (history : List CallEntry) : Prop :=
  ∃ hello ∈ history, ∃ verify ∈ history, ∃ ch, SentHello ch hello ∧
    VerifiedHello prims peerId ch verify

/-- What holds of an initiator at any time. -/
structure InitiatorInv (prims : Primitives) (peerId : Bytes) (ctx : HandshakeCtx)
    (history : List CallEntry) : Prop where
  shape : ctx.state = .failed ∨
    (ctx.role = some .initiator ∧ ctx.peerId = peerId ∧ ctx.resolver = .keystore)
  committed : ctx.keysCommitted = true → ctx.state = .established
  hello : ctx.state = .clientHelloCreated → ∃ hello ∈ history, ∃ ch, SentHello ch hello ∧
    ctx.chBytes = ch.bytes ∧ ctx.sessionId = ch.sessionId
  answered : ctx.state = .serverHelloVerified ∨ ctx.state = .clientAuthCreated ∨
      ctx.state = .established ∨ (∃ entry ∈ history, entry.producedAuth = true) →
    Answered prims peerId history

variable {peerId : Bytes}

theorem Answered.mono (hanswered : Answered prims peerId history) :
    Answered prims peerId (history ++ [entry]) := by
  obtain ⟨hello, hhello, verify, hverify, hfacts⟩ := hanswered
  exact ⟨hello, List.mem_append_left _ hhello, verify, List.mem_append_left _ hverify, hfacts⟩

theorem producedAuth_snoc (hentry : entry.producedAuth = false)
    (hproduced : ∃ other ∈ history ++ [entry], other.producedAuth = true) :
    ∃ other ∈ history, other.producedAuth = true := by
  obtain ⟨other, hother, htrue⟩ := hproduced
  rcases List.mem_append.mp hother with hother | hother
  · exact ⟨other, hother, htrue⟩
  rw [List.mem_singleton.mp hother, hentry] at htrue
  cases htrue

variable {next : HandshakeCtx}

section

variable (hinv : InitiatorInv prims peerId ctx history)

include hinv

section

variable (hentry : entry.producedAuth = false)

include hentry

/-- What is left to show after a call that hands out no ClientAuth. -/
theorem InitiatorInv.extend
    (hshape : next.state = .failed ∨
      (next.role = some .initiator ∧ next.peerId = peerId ∧ next.resolver = .keystore))
    (hcommitted : next.keysCommitted = true → next.state = .established)
    (hhello : next.state = .clientHelloCreated → ∃ hello ∈ history ++ [entry], ∃ ch,
      SentHello ch hello ∧ next.chBytes = ch.bytes ∧ next.sessionId = ch.sessionId)
    (hanswered : next.state = .serverHelloVerified ∨ next.state = .clientAuthCreated ∨
      next.state = .established → Answered prims peerId history) :
    InitiatorInv prims peerId next (history ++ [entry]) where
  shape := hshape
  committed := hcommitted
  hello := hhello
  answered := by
    rintro (hstate | hstate | hstate | hproduced)
    · exact (hanswered (.inl hstate)).mono
    · exact (hanswered (.inr (.inl hstate))).mono
    · exact (hanswered (.inr (.inr hstate))).mono
    · exact (hinv.answered (.inr (.inr (.inr (producedAuth_snoc hentry hproduced))))).mono

/-- A context that has failed. -/
theorem InitiatorInv.ended (hstate : next.state = .failed)
    (huncommitted : next.keysCommitted = false) :
    InitiatorInv prims peerId next (history ++ [entry]) :=
  hinv.extend hentry (.inl hstate) (by simp [huncommitted]) (by simp [hstate]) (by simp [hstate])

/-- A context that is as before. -/
theorem InitiatorInv.same : InitiatorInv prims peerId ctx (history ++ [entry]) := by
  refine hinv.extend hentry hinv.shape hinv.committed (fun hstate => ?_) fun hstate =>
    hinv.answered (by tauto)
  obtain ⟨hello, hhello, hfacts⟩ := hinv.hello hstate
  exact ⟨hello, List.mem_append_left _ hhello, hfacts⟩

end

end

theorem producedAuth_of_ne_ok (hstatus : result.status ≠ .ok) :
    CallEntry.producedAuth ⟨call, ctx, ledger, result⟩ = false := by
  simp [CallEntry.producedAuth, hstatus]

/-- The calls of a responder find no initiator to work on. -/
theorem InitiatorInv.failed_of_responder (hinv : InitiatorInv prims peerId ctx history)
    (hresponder : ctx.role = some .responder) : ctx.state = .failed := by
  rcases hinv.shape with hstate | ⟨hrole, -⟩
  · exact hstate
  · simp [hresponder] at hrole

/-- A context that is past the answer of its peer. -/
theorem InitiatorInv.past
    (hshape : next.role = some .initiator ∧ next.peerId = peerId ∧ next.resolver = .keystore)
    (hcommitted : next.keysCommitted = true → next.state = .established)
    (hstate : next.state ≠ .clientHelloCreated) (hanswered : Answered prims peerId history) :
    InitiatorInv prims peerId next history where
  shape := Or.inr hshape
  committed := hcommitted
  hello := fun hother => absurd hother hstate
  answered := fun _ => hanswered

/-- The verification of the answer, as evidence. -/
theorem InitiatorInv.verify (hinv : InitiatorInv prims peerId ctx history)
    (hshape : ctx.role = some .initiator ∧ ctx.peerId = peerId ∧ ctx.resolver = .keystore)
    (hstate : ctx.state = .clientHelloCreated) {msg : ServerHello} (hid : idLenValid msg.id = true)
    (hsig : sigLenValid msg.sig = true) (hpeer : msg.id = ctx.peerId)
    (hpk : ctx.resolvePeerPk env msg.id = some peerPk) (hecho : msg.sessionIdEcho = ctx.sessionId)
      (hverify : prims.sigVerify peerPk (transcriptHashServerAuth prims ctx.chBytes
      msg.unsignedBytes).toList msg.sig = true)
    (hcall : entry.call = .verifyServerHello env (some msg.bytes))
    (hok : entry.result.status = .ok) : Answered prims peerId (history ++ [entry]) := by
  obtain ⟨hello, hhello, ch, hsent, hbytes, hsession⟩ := hinv.hello hstate
  obtain ⟨-, hpeerId, hresolver⟩ := hshape
  refine ⟨hello, List.mem_append_left _ hhello, entry, by simp, ch, hsent, hok, env, msg.bytes,
    msg, peerPk, hcall, decodeServerHello_eq_some_iff.mpr ⟨hid, hsig, rfl⟩,
    hpeer.trans hpeerId, ?_, hecho.trans hsession, ?_⟩
  · simpa [resolvePeerPk, hresolver, hpeer, hpeerId] using hpk
  · rwa [ServerHello.take_unsignedLen hid, ← hbytes]

theorem initiatorInv_call (hinv : InitiatorInv prims peerId ctx history)
    (hcall : call.isInit = false) (hstep : CallStep prims ctx ledger call result) :
    InitiatorInv prims peerId result.ctx (history ++ [CallEntry.mk call ctx ledger result]) := by
  have hshape : ctx.state ≠ .failed →
      ctx.role = some .initiator ∧ ctx.peerId = peerId ∧ ctx.resolver = .keystore :=
    fun hstate => hinv.shape.resolve_left hstate
  have huncommitted : ctx.state ≠ .established → ctx.keysCommitted = false := by
    intro hstate
    by_contra hcommitted
    exact hstate (hinv.committed (by simpa using hcommitted))
  cases hstep with
  | refused hstatus => exact hinv.same (producedAuth_of_ne_ok hstatus)
  | failed hstatus => exact hinv.ended (producedAuth_of_ne_ok hstatus) rfl rfl
  | initFailed hinit => simp [hcall] at hinit
  | initiatorReady | responderReady => simp [isInit] at hcall
  | wiped | wipedPending => exact hinv.ended rfl rfl rfl
  | helloRolledBack hat =>
    exact hinv.extend rfl (.inr (hshape (by simp [hat.state])))
      (by simp [huncommitted, hat.state]) (by simp [hat.state]) (by simp [hat.state])
  | @helloCreated env out eph kem hat =>
    refine hinv.extend rfl (.inr (hshape (by simp [hat.state]))) ?_ (fun _ => ?_) nofun
    · simp [withClientHello, huncommitted, hat.state]
    exact ⟨_, List.mem_append_right _ (List.mem_singleton_self _),
      ctx.clientHello env eph kem, ⟨⟨env, out, rfl⟩, rfl, rfl⟩, rfl, rfl⟩
  | serverHelloVerified hat hid hsig hpeer hpk hecho hverify =>
    have hshape := hshape (by simp [hat.state])
    refine .past hshape ?_ nofun
      (hinv.verify hshape hat.state hid hsig hpeer hpk hecho hverify rfl rfl)
    simp [withServerHello, huncommitted (by simp [hat.state])]
  | authCreated hat =>
    refine .past (hshape (by simp [hat.state])) ?_ (by simp)
      (hinv.answered (Or.inl hat.state)).mono
    simp [huncommitted (by simp [hat.state])]
  | initiatorFinished hat =>
    exact .past (hshape (by simp [hat.state])) (fun _ => rfl)
      nofun (hinv.answered (Or.inr (Or.inl hat.state))).mono
  | helloAccepted hat | answerRolledBack hat | answerNotInserted hat | answered hat | entryGone hat
  | wrongSignature hat | lockedOut hat | deriveFailed hat | notConsumed hat | authVerified hat
  | responderFinished hat =>
    have hfailed := hinv.failed_of_responder hat.role
    simp [hat.state] at hfailed

/-! ## Failed contexts -/

/-- A failed context is left by a new initialisation only. -/
theorem failed_of_step (hstep : CallStep prims ctx ledger call result) (hcall : call.isInit = false)
    (hfailed : ctx.state = .failed) : result.ctx.state = .failed := by
  cases hstep with
  | refused | helloRolledBack | answerRolledBack | wrongSignature => exact hfailed
  | failed | initFailed | wiped | wipedPending | answerNotInserted | entryGone | lockedOut
  | deriveFailed | notConsumed => rfl
  | initiatorReady | responderReady => simp [isInit] at hcall
  | helloCreated hat | serverHelloVerified hat | authCreated hat | initiatorFinished hat
  | helloAccepted hat | answered hat | authVerified hat | responderFinished hat =>
    simp [hat.state] at hfailed

/-- Nothing can be read from a failed context. -/
theorem accessors_of_failed (hfailed : ctx.state = .failed) :
    ctx.sessionKeyC2s = none ∧ ctx.sessionKeyS2c = none ∧ ctx.getHandshakeId = none ∧
      ctx.isPeerConfirmed = false := by
  simp [sessionKeyC2s, sessionKeyS2c, keyAt, getHandshakeId, isPeerConfirmed, hfailed]

/-- A session is not made of a failed context, and the attempt changes nothing. -/
theorem sessionInit_of_failed (hfailed : ctx.state = .failed) (env : CallEnv) (session : Session)
    (ledger : PendingStore) (limits : Option SessionLimits) (now ledgerNow : ℕ) :
    (sessionInitFromHandshake env session ctx ledger limits now ledgerNow).status ≠ .ok ∧
      (sessionInitFromHandshake env session ctx ledger limits now ledgerNow).hs = ctx := by
  have hview := sessionInitFromHandshake_view env session ctx ledger limits now ledgerNow
  generalize sessionInitFromHandshake env session ctx ledger limits now ledgerNow = result
    at hview ⊢
  cases hview with
  | refused hstatus => exact ⟨hstatus, rfl⟩
  | created hempty hrole hestablished => simp [hfailed] at hestablished

/-! ## Runs -/

section Runs

variable {state : Watched}

/-- A responder stands where its calls took it. -/
structure ResponderInv (prims : Primitives) (localId : Bytes) (state : Watched) : Prop where
  sound : state.ledger.Sound
  stage : ResponderStage prims localId state.ctx state.ledger
    (state.history.filter CallEntry.progress)

variable {event : WatchedEvent}

theorem responderInv_step (hinv : ResponderInv prims localId state)
    (hallowed : (watchedCtx prims).allowed state event) :
    ResponderInv prims localId ((watchedCtx prims).step state event) := by
  cases event with
  | call call =>
    have hstep := callStep_exec prims state.ctx state.ledger call
    exact ⟨sound_of_step hstep hinv.sound,
      responderStage_call hinv.stage hinv.sound rfl hallowed hstep⟩
  | sessionInit env session limits now ledgerNow =>
    have hview := sessionInitFromHandshake_view env session state.ctx state.ledger limits now
      ledgerNow
    simp only [watchedCtx]
    generalize sessionInitFromHandshake env session state.ctx state.ledger limits now
      ledgerNow = result at hview ⊢
    cases hview with
    | refused => exact ⟨hinv.sound, hinv.stage⟩
    | created => exact ⟨hinv.sound, .of_wiped⟩
  | ledger op =>
    refine ⟨sound_apply hinv.sound op, hinv.stage.of_ledger ?_⟩
    intro hstate after hafter hactive
    exact active_before_apply hinv.sound op
      (fun hinsert hsubject => absurd hsubject (hallowed hstate hinsert)) hafter hactive

theorem initiatorInv_step (hinv : InitiatorInv prims peerId state.ctx state.history)
    (hallowed : (watchedCtx prims).allowed state event) :
    InitiatorInv prims peerId ((watchedCtx prims).step state event).ctx
      ((watchedCtx prims).step state event).history := by
  cases event with
  | call call =>
    exact initiatorInv_call hinv hallowed (callStep_exec prims state.ctx state.ledger call)
  | sessionInit env session limits now ledgerNow =>
    have hview := sessionInitFromHandshake_view env session state.ctx state.ledger limits now
      ledgerNow
    simp only [watchedCtx]
    generalize sessionInitFromHandshake env session state.ctx state.ledger limits now
      ledgerNow = result at hview ⊢
    cases hview with
    | refused => exact hinv
    | created hempty hrole hestablished =>
      exact
        { shape := Or.inl rfl
          committed := nofun
          hello := nofun
          answered := fun _ => hinv.answered (Or.inr (Or.inr (Or.inl hestablished))) }
  | ledger => exact hinv

/-- What an initialisation that succeeds leaves behind. -/
theorem init_eq_ok {init : CtxCall} {before : HandshakeCtx}
    (hinit : init.isInit = true) (hok : (init.exec prims before ledger).status = .ok) :
    (init.exec prims before ledger).ctx.state = .new ∧
      (init.exec prims before ledger).ctx.keysCommitted = false ∧
      (init.exec prims before ledger).ctx.sessionKeys.isSome = true ∧
      ((init.exec prims before ledger).ctx.role = some .initiator →
        (init.exec prims before ledger).ctx.resolver = .keystore) := by
  have hstep := callStep_exec prims before ledger init
  generalize init.exec prims before ledger = result at hstep hok ⊢
  cases hstep with
  | initiatorReady => exact ⟨rfl, rfl, rfl, fun _ => rfl⟩
  | responderReady => exact ⟨rfl, rfl, rfl, by simp [ready]⟩
  | refused hstatus | failed hstatus | initFailed _ hstatus => exact absurd hok hstatus
  | _ => simp [isInit] at hinit

/-- The keys of a responder are backed by one accepted ClientHello, one answer and one
verified ClientAuth. -/
def ResponderEvidence (prims : Primitives) (localId : Bytes) (state : Watched) : Prop :=
  ∃ accept answer verify, state.history.filter CallEntry.progress = [accept, answer, verify] ∧
    ∃ (facts : AcceptedHello accept) (emitted : EmittedHello prims facts.ch answer)
      (keys : TrafficKeys), state.ctx.sessionKeys = some keys ∧
        Nonempty (VerifiedAuth prims localId facts.ch facts.peerPk emitted keys verify)

theorem evidence_of_stage (hinv : ResponderInv prims localId state)
    (hcommitted : state.ctx.keysCommitted = true ∨ state.ctx.state = .clientAuthVerified ∨
      state.ctx.state = .established) : ResponderEvidence prims localId state := by
  cases hinv.stage with
  | verified facts emitted keys auth hrole hkeys hstate hprogress =>
    exact ⟨_, _, _, hprogress, facts, emitted, keys, hkeys, ⟨auth⟩⟩
  | ended hstate huncommitted | ready _ _ _ huncommitted hstate
  | accepted _ _ _ _ huncommitted hstate | answered _ _ _ _ _ huncommitted hstate =>
    simp [hstate, huncommitted] at hcommitted

/-- After one initialisation and whatever happens then: committed keys of a responder are
backed by evidence; an initiator has handed out a ClientAuth or committed keys only after it
verified the answer of the peer it dialled; and a failed context hands nothing out and is
left by a new initialisation only. -/
theorem committed_keys_authenticated {init : CtxCall} {before : HandshakeCtx}
    {ledger : PendingStore} (hsound : ledger.Sound) (hinit : init.isInit = true)
    (hok : (init.exec prims before ledger).status = .ok) {events : List WatchedEvent}
    (hrun : Machine.Run (watchedCtx prims)
      (.start (init.exec prims before ledger).ctx ledger) events state) :
    let first := (init.exec prims before ledger).ctx
    (first.role = some .responder →
        state.ctx.keysCommitted = true ∨ state.ctx.state = .clientAuthVerified ∨
          state.ctx.state = .established →
        ResponderEvidence prims first.localId state) ∧
      (first.role = some .initiator →
        state.ctx.keysCommitted = true ∨ (∃ entry ∈ state.history, entry.producedAuth = true) →
        Answered prims first.peerId state.history) ∧
      (state.ctx.state = .failed →
        (state.ctx.sessionKeyC2s = none ∧ state.ctx.sessionKeyS2c = none ∧
          state.ctx.getHandshakeId = none ∧ state.ctx.isPeerConfirmed = false) ∧
        (∀ env session limits now ledgerNow,
          (sessionInitFromHandshake env session state.ctx state.ledger limits now
            ledgerNow).status ≠ .ok ∧
          (sessionInitFromHandshake env session state.ctx state.ledger limits now
            ledgerNow).hs = state.ctx) ∧
        ∀ call : CtxCall, call.isInit = false →
          (call.exec prims state.ctx state.ledger).ctx.state = .failed) := by
  obtain ⟨hnew, huncommitted, hkeys, hresolver⟩ := init_eq_ok hinit hok
  refine ⟨fun hrole hcommitted => ?_, fun hrole hcommitted => ?_, fun hfailed => ?_⟩
  · have hstart : ResponderInv prims (init.exec prims before ledger).ctx.localId
        (.start (init.exec prims before ledger).ctx ledger) :=
      ⟨hsound, .ready hrole rfl hkeys huncommitted hnew rfl⟩
    have hinv := hrun.invariant (fun _ _ hinv hallowed => responderInv_step hinv hallowed) hstart
    exact evidence_of_stage hinv hcommitted
  · have hstart : InitiatorInv prims (init.exec prims before ledger).ctx.peerId
        (init.exec prims before ledger).ctx [] :=
      { shape := Or.inr ⟨hrole, rfl, hresolver hrole⟩
        committed := by simp [huncommitted]
        hello := by simp [hnew]
        answered := by simp [hnew] }
    have hstep : ∀ current event, InitiatorInv prims (init.exec prims before ledger).ctx.peerId
        current.ctx current.history → (watchedCtx prims).allowed current event →
        InitiatorInv prims (init.exec prims before ledger).ctx.peerId
          ((watchedCtx prims).step current event).ctx
          ((watchedCtx prims).step current event).history :=
      fun _ _ hinv hallowed => initiatorInv_step hinv hallowed
    have hinv := hrun.invariant hstep hstart
    rcases hcommitted with hcommitted | hproduced
    · exact hinv.answered (Or.inr (Or.inr (Or.inl (hinv.committed hcommitted))))
    · exact hinv.answered (Or.inr (Or.inr (Or.inr hproduced)))
  · refine ⟨accessors_of_failed hfailed, fun env session limits now ledgerNow =>
      sessionInit_of_failed hfailed env session state.ledger limits now ledgerNow, ?_⟩
    exact fun call hcall =>
      failed_of_step (callStep_exec prims state.ctx state.ledger call) hcall hfailed

end Runs

/-! ## A watched handshake -/

/-- A ledger of one slot. -/
def sampleLedger : PendingStore := (PendingStore.storeInitCommon true 1 100).2

/-- The initialisation of a side of the sample handshake. -/
def sampleInit : HandshakeRole → CtxCall
  | .initiator => .initiatorInit (sampleEnv 1) [1] (sampleKeypair 1) true [2]
  | .responder => .responderInit (sampleEnv 2) [2] (sampleKeypair 2) true false 0

/-- What a side is asked to do afterwards; the responder is first offered a ClientAuth that
does not decode. -/
def sampleCalls : HandshakeRole → List CtxCall
  | .initiator =>
    [.createClientHello (sampleEnv 1) ⟨true, 2000⟩,
      .verifyServerHello (sampleEnv 1) (some sampleServerHelloBytes),
      .createClientAuth (sampleEnv 1) ⟨true, 5000⟩]
  | .responder =>
    [.acceptClientHello (sampleEnv 2) (some sampleClientHello.bytes),
      .createServerHello (sampleEnv 2) ⟨true, 5000⟩,
      .verifyClientAuth (sampleEnv 2) (some [0]),
      .verifyClientAuth (sampleEnv 2) (some sampleClientAuthBytes)]

/-- A side of the sample handshake after those calls. -/
def sampleWatched (role : HandshakeRole) : Watched :=
  ((sampleCalls role).map WatchedEvent.call).foldl (watchedCtx .sample).step
    (.start ((sampleInit role).exec .sample .wiped sampleLedger).ctx sampleLedger)

theorem run_sampleWatched (role : HandshakeRole) :
    Machine.Run (watchedCtx .sample)
      (.start ((sampleInit role).exec .sample .wiped sampleLedger).ctx sampleLedger)
      ((sampleCalls role).map WatchedEvent.call) (sampleWatched role) := by
  refine Machine.Run.of_allowed fun state event hevent => ?_
  obtain ⟨call, hcall, rfl⟩ := List.mem_map.mp hevent
  have hcalls : ∀ call ∈ sampleCalls role, call.isInit = false := by
    cases role <;> simp [sampleCalls, isInit]
  exact hcalls call hcall

/-- The responder of the sample handshake holds keys with evidence, and its initiator has
seen the answer of the peer it dialled. -/
theorem committed_keys_authenticated_sample :
    ((sampleWatched .responder).ctx.keysCommitted = true ∧
        ResponderEvidence .sample [2] (sampleWatched .responder)) ∧
      ((∃ entry ∈ (sampleWatched .initiator).history, entry.producedAuth = true) ∧
        Answered .sample [2] (sampleWatched .initiator).history) := by
  have hsound : sampleLedger.Sound := sound_storeInitCommon.1
  have hcommitted : (sampleWatched .responder).ctx.keysCommitted = true := by decide +kernel
  have hproduced : ∃ entry ∈ (sampleWatched .initiator).history, entry.producedAuth = true := by
    decide +kernel
  obtain ⟨hresponder, -⟩ := committed_keys_authenticated hsound rfl (by decide +kernel)
    (run_sampleWatched .responder)
  obtain ⟨-, hinitiator, -⟩ := committed_keys_authenticated hsound rfl (by decide +kernel)
    (run_sampleWatched .initiator)
  exact ⟨⟨hcommitted, hresponder rfl (Or.inl hcommitted)⟩,
    hproduced, hinitiator rfl (Or.inr hproduced)⟩

end MldsaAuth.Protocol
