/-
# A process with many contexts and sessions

One process may hold any number of contexts, sessions and ledgers and call their
functions in any order. Beside the data of the program the state records what has
happened: which ephemeral secrets went into messages, which pairs of hellos were hashed,
which derivations committed keys, which of those fed a session and which encryptions
were made. The assumptions on the primitives are about these records.
-/

import MldsaAuth.Foundation.Machine
import MldsaAuth.Protocol.LedgerActive
import MldsaAuth.Protocol.Session

namespace MldsaAuth.Protocol

open Foundation Crypto Function

/-- The exact bytes of the two hellos of a handshake. -/
structure HelloPair where
  clientHello : Bytes
  serverHello : Bytes

/-- What the client-auth transcript hash is taken of. -/
def HelloPair.hashed (pair : HelloPair) : Bytes :=
  TranscriptPurpose.clientAuth.input pair.clientHello pair.serverHello

/-- A derivation whose keys a context took over. -/
structure KeyCommit where
  role : HandshakeRole
  inputs : KdfInputs
deriving DecidableEq

/-- An encryption: the number of the derivation its key comes from, the sequence number,
and the call itself. -/
structure NonceUse where
  commit : ℕ
  seq : ℕ
  call : AeadCall

/-- What the contexts of a process have done: the ephemeral secrets that went into
messages, the pairs of hellos that were hashed, and the derivations whose keys were taken
over. -/
structure Record where
  ephemerals : List Secret := []
  transcripts : List HelloPair := []
  commits : List KeyCommit := []

/-- A longer record. -/
def Record.append (record more : Record) : Record where
  ephemerals := record.ephemerals ++ more.ephemerals
  transcripts := record.transcripts ++ more.transcripts
  commits := record.commits ++ more.commits

/-! ## What a call on a context records -/

/-- The ephemeral secret that went into a message. -/
def CtxCall.drawn (call : CtxCall) (status : HandshakeStatus) : List Secret :=
  match call, status with
  | .createClientHello env _, .ok => [env.ephSecret]
  | .createServerHello env _, .ok => [env.ephSecret]
  | _, _ => []

/-- The pair of hellos a context hashed. -/
def CtxCall.hashedPair (call : CtxCall) (ctx : HandshakeCtx) (result : CtxResult) :
    List HelloPair :=
  match call, result.status with
  | .verifyServerHello _ (some sh), .ok => [⟨ctx.chBytes, sh⟩]
  | .createServerHello _ _, .ok => [⟨ctx.chBytes, result.output.getD []⟩]
  | _, _ => []

/-- What an initiator derives its keys from. -/
def HandshakeCtx.initiatorInputs (ctx : HandshakeCtx) (prims : Primitives) (env : HandshakeEnv) :
    Option KdfInputs :=
  (kexSharedSecret prims ctx.eph ctx.peerEphPub).bind fun shared =>
    (mlkemDecaps prims env.toCallEnv ctx.peerMlkemCt ctx.kem).map fun ssKem =>
      ctx.initiatorKdfInputs shared ssKem

/-- What a responder derives its keys from, with the digest its ledger entry holds. -/
def HandshakeCtx.responderInputs (ctx : HandshakeCtx) (prims : Primitives) (env : HandshakeEnv)
    (ledger : PendingStore) : Option KdfInputs :=
  (kexSharedSecret prims ctx.eph ctx.peerEphPub).bind fun shared =>
    ctx.ssKem.map fun ssKem =>
      ctx.responderKdfInputs shared ssKem (ledger.getDigest ctx.handshakeId env.now).2.1

/-- The derivation whose keys the context took over in this call. -/
def CtxCall.committed (call : CtxCall) (prims : Primitives) (ctx : HandshakeCtx)
    (ledger : PendingStore) (status : HandshakeStatus) : Option KeyCommit :=
  match call, status with
  | .initiatorFinish env, .ok => (ctx.initiatorInputs prims env).map (KeyCommit.mk .initiator)
  | .verifyClientAuth env _, .ok =>
    (ctx.responderInputs prims env ledger).map (KeyCommit.mk .responder)
  | _, _ => none

/-- Everything a call on a context records, given what it handed back. -/
def CtxCall.record (call : CtxCall) (prims : Primitives) (ctx : HandshakeCtx)
    (ledger : PendingStore) (result : LedgerResult) : Record where
  ephemerals := call.drawn result.status
  transcripts := call.hashedPair ctx result.toCtxResult
  commits := (call.committed prims ctx ledger result.status).toList

/-- The ledger a call on a context works with. -/
def CtxCall.ledgerIndex (call : CtxCall) (ctx : HandshakeCtx) : ℕ :=
  match call with
  | .responderInit _ _ _ _ _ pending => pending
  | _ => ctx.pending.getD 0

/-! ## The process -/

/-- The state of a process and the record of what has happened in it. -/
structure Process (Ctx Ses : Type) where
  ctx : Ctx → HandshakeCtx
  session : Ses → Session
  ledger : ℕ → PendingStore
  record : Record
  /-- for a context with committed keys, the number of their derivation -/
  commitOf : Ctx → ℕ
  /-- for a session in use, the number of the derivation of its keys -/
  fedBy : Ses → ℕ
  /-- the derivations that fed a session -/
  fed : List ℕ
  /-- the calls of the AEAD encryption -/
  uses : List NonceUse

/-- One call of the program, with everything it reads. -/
inductive ProcessEvent (Ctx Ses : Type) where
  | call (handle : Ctx) (call : CtxCall)
  | sessionInit (target : Ses) (source : Ctx) (env : CallEnv) (limits : Option SessionLimits)
      (now ledgerNow : ℕ)
  | sessionWipe (target : Ses)
  | sessionSeal (target : Ses) (aead : Aead) (args : SealArgs) (now : ℕ)
  | sessionOpen (target : Ses) (aead : Aead) (args : OpenArgs) (now : ℕ)
  | ledgerInit (index : ℕ) (external : Bool) (capacity : ℕ) (ttlMs : UInt64)
  | ledgerCall (index : ℕ) (op : PendingOp)

namespace Process

variable {Ctx Ses : Type} [DecidableEq Ctx] [DecidableEq Ses]

/-- Nothing has been initialised yet. -/
def start : Process Ctx Ses where
  ctx := fun _ => .wiped
  session := fun _ => .blank
  ledger := fun _ => .blank
  record := {}
  commitOf := fun _ => 0
  fedBy := fun _ => 0
  fed := []
  uses := []

/-- A call on a context. -/
def callOn (prims : Primitives) (process : Process Ctx Ses) (handle : Ctx) (call : CtxCall) :
    Process Ctx Ses :=
  let ctx := process.ctx handle
  let index := call.ledgerIndex ctx
  let result := call.exec prims ctx (process.ledger index)
  let record := call.record prims ctx (process.ledger index) result
  { process with
    ctx := update process.ctx handle result.ctx
    ledger := update process.ledger index result.ledger
    record := process.record.append record
    commitOf :=
      if record.commits = [] then process.commitOf
      else update process.commitOf handle process.record.commits.length }

/-- A context is turned into a session. -/
def initSession (process : Process Ctx Ses) (target : Ses) (source : Ctx) (env : CallEnv)
    (limits : Option SessionLimits) (now ledgerNow : ℕ) : Process Ctx Ses :=
  let index := (process.ctx source).pending.getD 0
  let result := sessionInitFromHandshake env (process.session target) (process.ctx source)
    (process.ledger index) limits now ledgerNow
  { process with
    ctx := update process.ctx source result.hs
    session := update process.session target result.session
    ledger := update process.ledger index result.ledger
    fedBy :=
      if result.status = .ok then
        update process.fedBy target (process.commitOf source)
      else process.fedBy
    fed :=
      if result.status = .ok then process.fed ++ [process.commitOf source] else process.fed }

/-- The encryption a seal reaches, whether or not it succeeds. -/
def sealUses (process : Process Ctx Ses) (target : Ses) (args : SealArgs) (now : ℕ) :
    List NonceUse :=
  match (process.session target).sealPrepare args now with
  | .ok (call, _) => [⟨process.fedBy target, (process.session target).sendSeq, call⟩]
  | .error _ => []

omit [DecidableEq Ctx] [DecidableEq Ses] in
/-- Nothing else of the AEAD is used: two that agree on the recorded call seal alike. -/
theorem sessionSeal_eq_of_sealUses {process : Process Ctx Ses} {target : Ses} {args : SealArgs}
    {now : ℕ} {one other : Aead}
    (hagree : ∀ use ∈ process.sealUses target args now,
      one.encrypt use.call.key use.call.nonce use.call.ad use.call.msg =
        other.encrypt use.call.key use.call.nonce use.call.ad use.call.msg) :
    sessionSeal one (process.session target) args now =
      sessionSeal other (process.session target) args now := by
  unfold sealUses at hagree
  unfold sessionSeal
  cases hprepare : (process.session target).sealPrepare args now with
  | error => rfl
  | ok =>
    rw [hprepare] at hagree
    dsimp only
    rw [hagree _ (List.mem_singleton.mpr rfl)]

/-- The process as a machine. Insertions into a ledger are left to the contexts. -/
def machine (Ctx Ses : Type) [DecidableEq Ctx] [DecidableEq Ses] (prims : Primitives) :
    Machine (Process Ctx Ses) (ProcessEvent Ctx Ses) where
  step process
    | .call handle call => process.callOn prims handle call
    | .sessionInit target source env limits now ledgerNow =>
      process.initSession target source env limits now ledgerNow
    | .sessionWipe target =>
      { process with
        session := update process.session target (sessionWipe (process.session target)) }
    | .sessionSeal target aead args now =>
      { process with
        session := update process.session target
          (sessionSeal aead (process.session target) args now).session
        uses := process.uses ++ process.sealUses target args now }
    | .sessionOpen target aead args now =>
      { process with
        session := update process.session target
          (sessionOpen aead (process.session target) args now).session }
    | .ledgerInit index external capacity ttlMs =>
      { process with
        ledger := update process.ledger index
          (PendingStore.storeInitCommon external capacity ttlMs).2 }
    | .ledgerCall index op =>
      { process with
        ledger := update process.ledger index ((process.ledger index).apply op).2 }
  allowed _
    | .ledgerCall _ op => op.isInsert = false
    | _ => True

end Process

end MldsaAuth.Protocol
