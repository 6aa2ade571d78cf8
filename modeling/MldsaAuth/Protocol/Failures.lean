/-
# What a failing call leaves behind

Misuse of a handshake context or of a record session is refused and changes nothing, so
the caller may try again. Every other failure is final and erases the secrets, with the
exception of three failures of a ClientAuth after which a responder goes on waiting.
-/

import MldsaAuth.Protocol.Calls
import MldsaAuth.Protocol.Channel

namespace MldsaAuth.Protocol

open Foundation Crypto CtxCall HandshakeCtx

/-! ## Calls on a handshake context -/

/-- The statuses of a call that is refused for the way it was made. -/
def HandshakeStatus.misuse (status : HandshakeStatus) : Bool :=
  status = .invalidArg || status = .unexpectedState

/-- The role and the state a step of the message exchange belongs to. -/
def CtxCall.turn : CtxCall → Option (HandshakeRole × HandshakeState)
  | createClientHello .. => some (.initiator, .new)
  | verifyServerHello .. => some (.initiator, .clientHelloCreated)
  | createClientAuth .. => some (.initiator, .serverHelloVerified)
  | initiatorFinish _ => some (.initiator, .clientAuthCreated)
  | acceptClientHello .. => some (.responder, .new)
  | createServerHello .. => some (.responder, .clientHelloAccepted)
  | verifyClientAuth .. => some (.responder, .serverHelloCreated)
  | responderFinish => some (.responder, .clientAuthVerified)
  | initiatorInit .. | responderInit .. | wipe _ => none

/-- The message a call builds for its caller's buffer, if nothing fails before. -/
def CtxCall.message (prims : Primitives) (ctx : HandshakeCtx) : CtxCall → Option Bytes
  | createClientHello env _ =>
    (kexKeypairGenerate prims env.toCallEnv).bind fun eph =>
      (mlkemKeypairGenerate prims env.toCallEnv).bind fun kem =>
        encodeClientHello (ctx.clientHello env eph kem) clientHelloMaxEncodedLen
  | createClientAuth env _ =>
    (ctx.sign prims env ctx.thClientAuth).bind fun sig =>
      encodeClientAuth ⟨ctx.handshakeId, sig⟩ clientAuthMaxEncodedLen
  | createServerHello env _ =>
    (ctx.draftServerHello prims env).toOption.map ServerHelloDraft.bytes
  | _ => none

/-- A pointer is NULL, or the buffer is too small for the message. -/
def CtxCall.BadArgs (prims : Primitives) (ctx : HandshakeCtx) (call : CtxCall) : Prop :=
  match call with
  | createClientHello _ out | createClientAuth _ out | createServerHello _ out =>
    out.present = false ∨ ∃ bytes, call.message prims ctx = some bytes ∧ out.cap < bytes.length
  | verifyServerHello _ msg | acceptClientHello _ msg | verifyClientAuth _ msg => msg = none
  | _ => False

/-- A step made in the wrong role or state, or with bad arguments. -/
def CtxCall.Misused (prims : Primitives) (ctx : HandshakeCtx) (call : CtxCall) : Prop :=
  call.turn ≠ ctx.role.map (·, ctx.state) ∨ call.BadArgs prims ctx

/-- A context without secrets. -/
structure HandshakeCtx.Erased (ctx : HandshakeCtx) : Prop where
  eph : ctx.eph = .blank
  kem : ctx.kem = .blank
  ssKem : ctx.ssKem = none
  sessionKeys : ∀ keys, ctx.sessionKeys = some keys → keys = .blank
  committed : ctx.keysCommitted = false

/-- A context has drawn no secrets before it has sent or answered a ClientHello. -/
structure HandshakeCtx.Fresh (ctx : HandshakeCtx) : Prop where
  new : ctx.state = .new → ctx.eph = .blank ∧ ctx.kem = .blank ∧ ctx.chBytes = [] ∧ ctx.ssKem = none
  accepted : ctx.state = .clientHelloAccepted → ctx.eph = .blank ∧ ctx.ssKem = none

/-- The contexts a program can hold: a wiped one, and what calls make of it over whatever
ledger each of them is given. -/
inductive HandshakeCtx.Reached (prims : Primitives) : HandshakeCtx → Prop where
  | wiped : Reached prims .wiped
  | exec {ctx : HandshakeCtx} (hreached : Reached prims ctx) (ledger : PendingStore)
      (call : CtxCall) : Reached prims (call.exec prims ctx ledger).ctx

variable (prims : Primitives) (ctx : HandshakeCtx) (ledger : PendingStore) (call : CtxCall) in
/-- Every outcome of a step of the message exchange. -/
inductive StepOutcome : LedgerResult → Prop where
  | misused {status : HandshakeStatus} (hmisused : call.Misused prims ctx)
      (hstatus : status.misuse = true) :
      StepOutcome { status := status, ctx := ctx, ledger := ledger }
  | retryable {status : HandshakeStatus} {next : PendingStore} (hproper : ¬call.Misused prims ctx)
      (hauth : call.turn = some (.responder, .serverHelloCreated))
      (hstatus : status ∈ [.malformed, .handshakeIdMismatch, .signature]) :
      StepOutcome { status := status, ctx := ctx, ledger := next }
  | failed {status : HandshakeStatus} {peerPk : Option SigPublicKey} {next : PendingStore}
      (hproper : ¬call.Misused prims ctx) :
      StepOutcome { status := status, ctx := { ctx with peerPk := peerPk }.failCtx, ledger := next }
  | done {reached : HandshakeCtx} {output : Option Bytes} {next : PendingStore}
      (hproper : ¬call.Misused prims ctx) :
      StepOutcome { status := .ok, ctx := reached, output := output, ledger := next }

variable {env : HandshakeEnv}

section Outcomes

variable {prims : Primitives} {ctx : HandshakeCtx} {ledger : PendingStore} {call : CtxCall}
  {role : HandshakeRole} {state : HandshakeState}

theorem StepOutcome.wrongTurn (hturn : call.turn = some (role, state))
    (hcall : ¬ctx.checkCall role state = true) :
    StepOutcome prims ctx ledger call
      { status := .unexpectedState, ctx := ctx, ledger := ledger } := by
  refine .misused (.inl fun hsame => hcall ?_) rfl
  rw [hturn] at hsame
  obtain ⟨found, hrole, hpair⟩ := Option.map_eq_some_iff.mp hsame.symm
  cases hpair
  exact checkCall_eq_true.mpr ⟨hrole, rfl⟩

theorem not_misused (hturn : call.turn = some (role, state))
    (hcall : ctx.checkCall role state = true) (hargs : ¬call.BadArgs prims ctx) :
    ¬call.Misused prims ctx := by
  obtain ⟨hrole, rfl⟩ := checkCall_eq_true.mp hcall
  rintro (hwrong | hbad)
  · exact hwrong (by rw [hturn, hrole, Option.map_some])
  · exact hargs hbad

private theorem createClientHello_outcome (hfresh : ctx.Fresh) (env : HandshakeEnv) (out : OutBuf) :
    StepOutcome prims ctx ledger (.createClientHello env out)
      ((initiatorCreateClientHello prims env ctx out).keep ledger) := by
  unfold initiatorCreateClientHello
  split
  · rename_i hcall
    obtain ⟨heph, hkem, hch, -⟩ := hfresh.new (checkCall_eq_true.mp hcall).state
    have hsame : { ctx with eph := .blank, kem := .blank, chBytes := [] } = ctx := by
      rw [← heph, ← hkem, ← hch]
    rw [hsame]
    repeat' split
    all_goals first
      | exact .misused (.inr (by simp_all [BadArgs, message])) rfl
      | exact .failed (not_misused rfl hcall (by simp_all [BadArgs, message]))
      | exact .done (not_misused rfl hcall (by simp_all [BadArgs, message]))
  · exact .wrongTurn rfl ‹_›

private theorem createClientAuth_outcome {out : OutBuf} :
    StepOutcome prims ctx ledger (.createClientAuth env out)
      ((initiatorCreateClientAuth prims env ctx out).keep ledger) := by
  unfold initiatorCreateClientAuth
  split
  · rename_i hcall
    repeat' split
    all_goals first
      | exact .misused (.inr (by simp_all [BadArgs, message])) rfl
      | exact .failed (not_misused rfl hcall (by simp_all [BadArgs, message]))
      | exact .done (not_misused rfl hcall (by simp_all [BadArgs, message]))
  · exact .wrongTurn rfl ‹_›

private theorem createServerHello_outcome (hfresh : ctx.Fresh) (env : HandshakeEnv) (out : OutBuf) :
    StepOutcome prims ctx ledger (.createServerHello env out)
      (responderCreateServerHello prims env ctx ledger out) := by
  unfold responderCreateServerHello
  split
  · rename_i hcall
    obtain ⟨heph, hkem⟩ := hfresh.accepted (checkCall_eq_true.mp hcall).state
    have hsame : { ctx with eph := .blank, ssKem := none } = ctx := by rw [← heph, ← hkem]
    rw [hsame]
    dsimp only
    repeat' split
    all_goals first
      | exact .misused (.inr (by simp_all [BadArgs, message, Except.toOption])) rfl
      | exact .failed (not_misused rfl hcall (by simp_all [BadArgs, message, Except.toOption]))
      | exact .done (not_misused rfl hcall (by simp_all [BadArgs, message, Except.toOption]))
  · exact .wrongTurn rfl ‹_›

private theorem verifyServerHello_outcome {sh : Option Bytes} :
    StepOutcome prims ctx ledger (.verifyServerHello env sh)
      ((initiatorVerifyServerHello prims env ctx sh).keep ledger) := by
  unfold initiatorVerifyServerHello initiatorVerifySignedHello
  split
  · rename_i hcall
    cases sh with
    | none => exact .misused (.inr rfl) rfl
    | some sh =>
      dsimp only
      repeat' split
      all_goals first
        | exact .failed (not_misused rfl hcall nofun)
        | exact .done (not_misused rfl hcall nofun)
  · exact .wrongTurn rfl ‹_›

private theorem acceptClientHello_outcome {ch : Option Bytes} :
    StepOutcome prims ctx ledger (.acceptClientHello env ch)
      ((responderAcceptClientHello env ctx ch).keep ledger) := by
  unfold responderAcceptClientHello
  split_ifs with hcall
  · cases ch with
    | none => exact .misused (.inr rfl) rfl
    | some ch =>
      dsimp only
      repeat' split
      all_goals first
        | exact .failed (not_misused rfl hcall nofun)
        | exact .done (not_misused rfl hcall nofun)
  · exact .wrongTurn rfl ‹_›

private theorem verifyClientAuth_outcome {ca : Option Bytes} :
    StepOutcome prims ctx ledger (.verifyClientAuth env ca)
      (responderVerifyClientAuth prims env ctx ledger ca) := by
  unfold responderVerifyClientAuth
  split_ifs with hcall
  · cases ca with
    | none => exact .misused (.inr rfl) rfl
    | some ca =>
      dsimp only
      repeat' split
      all_goals first
        | exact .retryable (not_misused rfl hcall nofun) rfl (by simp)
        | exact .failed (not_misused rfl hcall nofun)
        | exact .done (not_misused rfl hcall nofun)
  · exact .wrongTurn rfl ‹_›

private theorem initiatorFinish_outcome :
    StepOutcome prims ctx ledger (.initiatorFinish env)
      ((initiatorFinish prims env ctx).keep ledger) := by
  unfold initiatorFinish
  split
  · rename_i hcall
    repeat' split
    all_goals first
      | exact .failed (not_misused rfl hcall id)
      | exact .done (not_misused rfl hcall id)
  · exact .wrongTurn rfl ‹_›

private theorem responderFinish_outcome :
    StepOutcome prims ctx ledger .responderFinish ((responderFinish ctx).keep ledger) := by
  unfold responderFinish
  split_ifs with hcall
  · exact .done (not_misused rfl hcall id)
  · exact .wrongTurn rfl ‹_›

/-- What a step of the message exchange computes is covered by the list of outcomes. -/
theorem CtxCall.outcome (hfresh : ctx.Fresh) (hturn : call.turn.isSome = true) :
    StepOutcome prims ctx ledger call (call.exec prims ctx ledger) := by
  cases call with
  | createClientHello env out => exact createClientHello_outcome hfresh env out
  | verifyServerHello env sh => exact verifyServerHello_outcome
  | createClientAuth env out => exact createClientAuth_outcome
  | initiatorFinish env => exact initiatorFinish_outcome
  | acceptClientHello env ch => exact acceptClientHello_outcome
  | createServerHello env out => exact createServerHello_outcome hfresh env out
  | verifyClientAuth env ca => exact verifyClientAuth_outcome
  | responderFinish => exact responderFinish_outcome
  | _ => cases hturn

theorem HandshakeCtx.Fresh.step {result : LedgerResult} (hfresh : ctx.Fresh)
    (hstep : CallStep prims ctx ledger call result) : result.ctx.Fresh := by
  cases hstep with
  | refused | wrongSignature => exact hfresh
  | initiatorReady | responderReady => exact ⟨fun _ => ⟨rfl, rfl, rfl, rfl⟩, nofun⟩
  | helloRolledBack hat =>
    exact ⟨fun _ => ⟨rfl, rfl, rfl, (hfresh.new hat.state).2.2.2⟩, by simp [hat.state]⟩
  | answerRolledBack hat => exact ⟨by simp [hat.state], fun _ => ⟨rfl, rfl⟩⟩
  | helloAccepted hat =>
    obtain ⟨heph, -, -, hkem⟩ := hfresh.new hat.state
    exact ⟨nofun, fun _ => ⟨heph, hkem⟩⟩
  | _ => exact ⟨nofun, nofun⟩

theorem HandshakeCtx.Reached.fresh (hreached : ctx.Reached prims) : ctx.Fresh := by
  induction hreached with
  | wiped => exact ⟨nofun, nofun⟩
  | exec hreached ledger call ih => exact ih.step (callStep_exec prims _ ledger call)

theorem HandshakeCtx.erased_failCtx : ctx.failCtx.Erased where
  eph := rfl
  kem := rfl
  ssKem := rfl
  sessionKeys keys hkeys := by
    obtain ⟨_, -, hblank⟩ := Option.map_eq_some_iff.mp hkeys
    exact hblank.symm
  committed := rfl

end Outcomes

/-- **Failures of the handshake.** A step in the wrong role or state, with a NULL argument or
with a buffer too small for its message is refused and leaves the context and the ledger as
they were. Any other step that does not succeed either is one of the three failures of a
ClientAuth after which the context waits on unchanged, or leaves the context FAILED without
a secret. -/
theorem handshake_failures_final {prims : Primitives} {ctx : HandshakeCtx}
    (hreached : ctx.Reached prims) (ledger : PendingStore) {call : CtxCall}
    (hturn : call.turn.isSome = true) :
    (call.Misused prims ctx →
      (call.exec prims ctx ledger).status.misuse = true ∧
        (call.exec prims ctx ledger).ctx = ctx ∧
        (call.exec prims ctx ledger).ledger = ledger) ∧
    (¬call.Misused prims ctx → (call.exec prims ctx ledger).status ≠ .ok →
      call.turn = some (.responder, .serverHelloCreated) ∧
        (call.exec prims ctx ledger).status ∈ [.malformed, .handshakeIdMismatch, .signature] ∧
        (call.exec prims ctx ledger).ctx = ctx ∨
      (call.exec prims ctx ledger).ctx.state = .failed ∧
        (call.exec prims ctx ledger).ctx.Erased) := by
  have houtcome : StepOutcome prims ctx ledger call (call.exec prims ctx ledger) :=
    call.outcome hreached.fresh hturn
  generalize call.exec prims ctx ledger = result at houtcome ⊢
  cases houtcome with
  | misused hmisused hstatus =>
    exact ⟨fun _ => ⟨hstatus, rfl, rfl⟩, fun hproper => absurd hmisused hproper⟩
  | retryable hproper hauth hstatus =>
    exact ⟨fun hmisused => absurd hmisused hproper, fun _ _ => .inl ⟨hauth, hstatus, rfl⟩⟩
  | failed hproper =>
    exact ⟨fun hmisused => absurd hmisused hproper, fun _ _ => .inr ⟨rfl, erased_failCtx⟩⟩
  | done hproper =>
    exact ⟨fun hmisused => absurd hmisused hproper, fun _ hstatus => absurd rfl hstatus⟩

/-- An initiator that has just been initialised. -/
def sampleInitiator : HandshakeCtx :=
  ((CtxCall.initiatorInit (sampleEnv 1) [1] (sampleKeypair 1) true [2]).exec .sample .wiped
    .blank).ctx

/-- Neither a NULL pointer nor a buffer without room for the message changes its context. -/
theorem handshake_failures_final_misused :
    ((CtxCall.createClientHello (sampleEnv 1) ⟨false, 4096⟩).exec .sample sampleInitiator
      .blank).ctx = sampleInitiator ∧
    ((CtxCall.createClientHello (sampleEnv 1) ⟨true, 16⟩).exec .sample sampleInitiator
      .blank).ctx = sampleInitiator := by
  have hreached : sampleInitiator.Reached .sample := .exec .wiped .blank _
  have hmessage : ((createClientHello (sampleEnv 1) ⟨true, 16⟩).message .sample
      sampleInitiator).any (fun bytes => 16 < bytes.length) = true := by decide +kernel
  obtain ⟨bytes, hbytes, hroom⟩ := (Option.any_eq_true _ _).mp hmessage
  have hnull : (createClientHello (sampleEnv 1) ⟨false, 4096⟩).Misused .sample sampleInitiator :=
    .inr (Or.inl rfl)
  have hsmall : (createClientHello (sampleEnv 1) ⟨true, 16⟩).Misused .sample sampleInitiator :=
    .inr (Or.inr ⟨bytes, hbytes, of_decide_eq_true hroom⟩)
  exact ⟨((handshake_failures_final hreached .blank rfl).1 hnull).2.1,
    ((handshake_failures_final hreached .blank rfl).1 hsmall).2.1⟩

/-- With a buffer of no room at all the context is lost if the key generation fails first. -/
theorem createClientHello_no_room_failed :
    let result := (CtxCall.createClientHello { sampleEnv 1 with alloc := fun _ => false }
      ⟨true, 0⟩).exec .sample sampleInitiator .blank
    sampleInitiator.Reached .sample ∧ result.status = .internal ∧ result.ctx.state = .failed :=
  ⟨.exec .wiped _ _, by decide, by decide⟩

/-! ## Calls on a session -/

/-- The statuses of a call refused for the way it was made. -/
def SessionStatus.misuse (status : SessionStatus) : Bool :=
  status = .invalidArg || status = .unexpectedState

/-- A call of `session_seal` with a bad argument, on a session that is not active, with too
little room for the record, or with buffers that overlap. -/
def SealArgs.Misused (args : SealArgs) (session : Session) : Prop :=
  let need := sessionSealedLen session args.content.length
  args.outAddr = 0 ∨ args.outLenPresent = false ∨
    (args.ptAddr = 0 ∧ args.content.length ≠ 0) ∨
    sessionMaxContentBytes < args.content.length ∨ session.state ≠ .active ∨
    args.outCap < need ∨ rangesOverlap args.ptAddr args.content.length args.outAddr need = true

/-- A call of `session_open` with a bad argument, with buffers that overlap, on a session
that is not active, or with too little room for the inner plaintext. -/
def OpenArgs.Misused (args : OpenArgs) (session : Session) : Prop :=
  args.recAddr = 0 ∨ args.ptAddr = 0 ∨ args.ptLenPresent = false ∨
    rangesOverlap args.recAddr args.record.length args.ptAddr
      (min args.ptCap sessionMaxPlaintextBytes) = true ∨
    session.state ≠ .active ∨ args.ptCap < args.record.length - sessionOverheadBytes

/-- A call in the steady state. -/
inductive SessionCall where
  | seal (aead : Aead) (args : SealArgs) (now : ℕ)
  | open_ (aead : Aead) (args : OpenArgs) (now : ℕ)

/-- What a call hands back. -/
def SessionCall.exec (session : Session) : SessionCall → SessionResult
  | .seal aead args now => sessionSeal aead session args now
  | .open_ aead args now => sessionOpen aead session args now

/-- The call is made in a way that is refused. -/
def SessionCall.Misused (session : Session) : SessionCall → Prop
  | .seal _ args _ => args.Misused session
  | .open_ _ args _ => args.Misused session

/-- The sessions a program can hold: a zeroed one, and what the calls make of it. -/
inductive Session.Reached : Session → Prop where
  | blank : Reached .blank
  | init {session : Session} (hreached : Reached session) (env : CallEnv) (hs : HandshakeCtx)
      (ledger : PendingStore) (limits : Option SessionLimits) (now ledgerNow : ℕ) :
      Reached (sessionInitFromHandshake env session hs ledger limits now ledgerNow).session
  | exec {session : Session} (hreached : Reached session) (call : SessionCall) :
      Reached (call.exec session).session

/-- An active session has a key block and a bucket that was checked. -/
def Session.Sound (session : Session) : Prop :=
  session.state = .active →
    session.keys.isSome = true ∧ padBucketValid session.limits.padBucket = true

/-- A session that is over: zero keys, and not active. -/
def Session.Over (session : Session) : Prop :=
  session.keys = some .blank ∧ session.state ≠ .active

theorem SessionLimits.padBucketValid_of_valid {limits : SessionLimits}
    (hvalid : limits.valid = true) : padBucketValid limits.padBucket = true := by
  simp only [valid, Bool.and_eq_true] at hvalid
  exact hvalid.2

/-- Every outcome of a call on a sound session: it is refused and nothing has happened, it
ends the session, or it succeeds. -/
inductive CallOutcome (session : Session) (call : SessionCall) : SessionResult → Prop where
  | refused {status : SessionStatus} (hstatus : status.misuse = true)
      (hmisused : call.Misused session) : CallOutcome session call ⟨status, session, none⟩
  | ended {status : SessionStatus} {next : Session} (hactive : session.state = .active)
      (hstatus : status.misuse = false ∧ status ≠ .ok) (hover : next.Over) :
      CallOutcome session call ⟨status, next, none⟩
  | done {next : Session} {output : Bytes} (hactive : session.state = .active)
      (hkeys : next.keys = session.keys) (hlimits : next.limits = session.limits) :
      CallOutcome session call ⟨.ok, next, some output⟩

variable {session : Session}

theorem Session.over_terminate {state : SessionState} (hkeys : session.keys.isSome = true)
    (hstate : state ≠ .active) : (session.terminate state).Over := by
  obtain ⟨keys, hkeys⟩ := Option.isSome_iff_exists.mp hkeys
  exact ⟨by simp [Session.terminate, hkeys], hstate⟩

theorem sessionSeal_callOutcome (hsound : session.Sound) (aead : Aead) (args : SealArgs) (now : ℕ) :
    CallOutcome session (.seal aead args now) (sessionSeal aead session args now) := by
  unfold sessionSeal Session.sealPrepare
  by_cases hargs : args.outAddr = 0 ∨ args.outLenPresent = false ∨
      (args.ptAddr = 0 ∧ args.content.length ≠ 0) ∨ sessionMaxContentBytes < args.content.length
  · rw [if_pos hargs]
    exact .refused rfl (by simp only [SessionCall.Misused, SealArgs.Misused]; tauto)
  rw [if_neg hargs]
  by_cases hactive : session.state = .active
  · obtain ⟨hkeys, hbucket⟩ := hsound hactive
    rw [if_neg (not_not.mpr hactive), if_neg (by simp [hbucket])]
    have hneed : sessionSealedLen session args.content.length =
        innerLenFor args.content.length session.limits.padBucket + sessionOverheadBytes :=
      if_neg (by simp only [hbucket]; tauto)
    rw [← hneed]
    by_cases hroom : args.outCap < sessionSealedLen session args.content.length ∨
        rangesOverlap args.ptAddr args.content.length args.outAddr
          (sessionSealedLen session args.content.length) = true
    · rw [if_pos hroom]
      exact .refused rfl (by simp only [SessionCall.Misused, SealArgs.Misused]; tauto)
    rw [if_neg hroom]
    by_cases hlimit : session.limits.rejectAfterMs ≤ session.ageMs now ∨
        session.limits.rejectAfterMessages ≤ session.sendSeq
    · rw [if_pos hlimit]
      exact .ended hactive (by decide) (Session.over_terminate hkeys (by decide))
    rw [if_neg hlimit]
    dsimp only
    split
    · exact .ended hactive (by decide) (Session.over_terminate hkeys (by decide))
    split
    · exact .done hactive rfl rfl
    · exact .ended hactive (by decide) (Session.over_terminate hkeys (by decide))
  · rw [if_pos hactive]
    exact .refused rfl (by simp only [SessionCall.Misused, SealArgs.Misused]; tauto)

theorem sessionOpen_callOutcome (hsound : session.Sound) (aead : Aead) (args : OpenArgs) (now : ℕ) :
    CallOutcome session (.open_ aead args now) (sessionOpen aead session args now) := by
  unfold sessionOpen openOrdered openInTurn
  split
  · exact .refused rfl (by simp only [SessionCall.Misused, OpenArgs.Misused]; tauto)
  split
  · exact .refused rfl (by simp only [SessionCall.Misused, OpenArgs.Misused]; tauto)
  rename_i hstate
  have hactive : session.state = .active := not_not.mp hstate
  have hended (status : SessionStatus) (state : SessionState)
      (h : (status.misuse = false ∧ status ≠ .ok) ∧ state ≠ .active) :
      CallOutcome session (.open_ aead args now) ⟨status, session.terminate state, none⟩ :=
    .ended hactive h.1 (Session.over_terminate (hsound hactive).1 h.2)
  split
  · exact hended _ _ (by decide)
  split
  · exact hended _ _ (by decide)
  split
  · exact .refused rfl (by simp only [SessionCall.Misused, OpenArgs.Misused]; tauto)
  dsimp only
  split_ifs
  · exact hended _ _ (by decide)
  · exact hended _ _ (by decide)
  · exact hended _ _ (by decide)
  split
  · exact hended _ _ (by decide)
  split
  · split
    · exact hended _ _ (by decide)
    · exact .done hactive rfl rfl
  · exact hended _ _ (by decide)

theorem SessionCall.exec_outcome (hsound : session.Sound) :
    ∀ call : SessionCall, CallOutcome session call (call.exec session)
  | .seal aead args now => sessionSeal_callOutcome hsound aead args now
  | .open_ aead args now => sessionOpen_callOutcome hsound aead args now

theorem Session.Reached.sound (hreached : session.Reached) : session.Sound := by
  induction hreached with
  | blank => exact fun hactive => nomatch hactive
  | @init session _ env hs ledger limits now ledgerNow ih =>
    have hview := sessionInitFromHandshake_view env session hs ledger limits now ledgerNow
    generalize sessionInitFromHandshake env session hs ledger limits now ledgerNow = result at hview
    cases hview with
    | refused _ => exact ih
    | created _ _ _ _ _ hlimits =>
      exact fun _ => ⟨rfl, SessionLimits.padBucketValid_of_valid hlimits⟩
  | @exec session _ call ih =>
    have houtcome := call.exec_outcome ih
    generalize call.exec session = result at houtcome
    cases houtcome with
    | refused _ _ => exact ih
    | ended _ _ hover => exact fun hactive => absurd hactive hover.2
    | done hactive hkeys hlimits =>
      exact fun _ => by simpa only [hkeys, hlimits] using ih hactive

/-- Nothing can be done any more with a session that is over. -/
theorem Session.Over.exec (hover : session.Over) (call : SessionCall) :
    (call.exec session).status ≠ .ok ∧ (call.exec session).session = session := by
  have hsound : session.Sound := fun hactive => absurd hactive hover.2
  have houtcome := call.exec_outcome hsound
  generalize call.exec session = result at houtcome
  cases houtcome with
  | refused hstatus _ =>
    refine ⟨?_, rfl⟩
    rintro rfl
    cases hstatus
  | ended hactive _ _ => exact absurd hactive hover.2
  | done hactive _ _ => exact absurd hactive hover.2

/-- The session after a list of calls. -/
def Session.after (session : Session) (calls : List SessionCall) : Session :=
  calls.foldl (fun session call => (call.exec session).session) session

theorem Session.Over.after (hover : session.Over)
    (calls : List SessionCall) : session.after calls = session := by
  induction calls with
  | nil => rfl
  | cons call calls ih => simpa only [Session.after, List.foldl_cons, (hover.exec call).2] using ih

/-- Misuse leaves a session exactly as it was. Every other failure zeroes its key block for
good, and no later call on it succeeds. An initialisation that fails can be retried, since
neither the session nor the handshake nor its ledger has changed. -/
theorem session_failures_final (session : Session) (hreached : session.Reached) :
    (∀ call : SessionCall,
      ((call.exec session).status.misuse = true →
        call.Misused session ∧ (call.exec session).session = session) ∧
      ((call.exec session).status ≠ .ok → (call.exec session).status.misuse = false →
        ∀ later : List SessionCall,
          (((call.exec session).session).after later).keys = some .blank ∧
          ∀ next : SessionCall,
            (next.exec (((call.exec session).session).after later)).status ≠ .ok)) ∧
    ∀ (env : CallEnv) (hs : HandshakeCtx) (ledger : PendingStore)
      (limits : Option SessionLimits) (now ledgerNow : ℕ),
      let result := sessionInitFromHandshake env session hs ledger limits now ledgerNow
      result.status ≠ .ok → result.session = session ∧ result.hs = hs ∧ result.ledger = ledger := by
  refine ⟨fun call => ?_, fun env hs ledger limits now ledgerNow => ?_⟩
  · have houtcome := call.exec_outcome hreached.sound
    generalize call.exec session = result at houtcome
    cases houtcome with
    | refused hstatus hmisused =>
      exact ⟨fun _ => ⟨hmisused, rfl⟩, fun _ hmisuse => by simp [hstatus] at hmisuse⟩
    | ended _ hstatus hover =>
      refine ⟨fun hmisuse => by simp [hstatus.1] at hmisuse, fun _ _ later => ?_⟩
      rw [hover.after later]
      exact ⟨hover.1, fun next => (hover.exec next).1⟩
    | done _ _ _ => exact ⟨fun hmisuse => by simp [SessionStatus.misuse] at hmisuse, by simp⟩
  · have hview := sessionInitFromHandshake_view env session hs ledger limits now ledgerNow
    generalize sessionInitFromHandshake env session hs ledger limits now ledgerNow = result
      at hview ⊢
    cases hview with
    | refused _ => exact fun _ => ⟨rfl, rfl, rfl⟩
    | created _ _ _ _ _ _ => exact fun hfailed => absurd rfl hfailed

/-- An active session is offered an empty record: the call ends it, and from then on the
session is over. -/
theorem session_failures_final_malformed :
    let hs := establishedCtx .initiator ⟨Blob.zero 32, Blob.zero 32⟩ (Blob.zero 16)
    let session := (twoRecordInit.init hs).session
    let call : SessionCall := .open_ (recallAead []) ⟨1, [], 1000, 64, true⟩ 6
    session.state = .active ∧ (call.exec session).status = .malformed ∧
      (call.exec session).session.keys = some .blank := by
  intro hs session call
  have hreached : session.Reached := .init .blank _ hs _ _ _ _
  have hfacts : session.state = .active ∧ (call.exec session).status = .malformed := by decide
  have hfinal := ((session_failures_final session hreached).1 call).2
  exact ⟨hfacts.1, hfacts.2, (hfinal (by decide) (by decide) []).1⟩

end MldsaAuth.Protocol
