/-
# Who owns a ledger entry

Many contexts share one ledger. A responder enters its handshake id when it answers a
ClientHello, and it is the only one to touch that entry while it waits for the ClientAuth.
Whichever way it stops waiting, it leaves no active entry behind, so the ledger fills up
with contexts that are waiting and with nothing else.

Two things are asked of the callers: a context whose answer is pending is wiped before it is
initialised again, and an answer never gets the handshake id of another pending answer.
-/

import Mathlib.Data.Fintype.Sets
import MldsaAuth.Foundation.Machine
import MldsaAuth.Protocol.LedgerActive
import MldsaAuth.Protocol.Session

namespace MldsaAuth.Protocol

open Foundation Crypto PendingStore Function HandshakeCtx CtxCall

/-- The context waits for the ClientAuth of this handshake. -/
def HandshakeCtx.Awaits (ctx : HandshakeCtx) (id : HandshakeId) : Prop :=
  ctx.state = .serverHelloCreated ∧ ctx.handshakeId = id

instance (ctx : HandshakeCtx) (id : HandshakeId) : Decidable (ctx.Awaits id) :=
  inferInstanceAs (Decidable (_ ∧ _))

/-- The readings of the ledger's clock a call may make. -/
def CtxCall.readings : CtxCall → List ℕ
  | createServerHello env _ | verifyClientAuth env _ => [env.now, env.later]
  | wipe now => [now]
  | _ => []

/-- The id a call has entered into the ledger. -/
def CtxCall.entered (call : CtxCall) (result : LedgerResult) : Option HandshakeId :=
  match call with
  | createServerHello .. => if result.status = .ok then some result.ctx.handshakeId else none
  | _ => none

/-! ## What a call does to the ledger -/

/-- The three things a call on a context can do to the ledger: some calls about the id the
context waits for, or one insertion, which fails or succeeds. -/
inductive LedgerUse (ctx : HandshakeCtx) (ledger : PendingStore) (call : CtxCall)
    (result : LedgerResult) : Prop where
  | own (ops : List PendingOp) (hledger : result.ledger = ledger.exec ops)
      (hops : ∀ op ∈ ops, op.isInsert = false ∧ op.time ∈ call.readings ∧
        ctx.state = .serverHelloCreated ∧ op.subject = some ctx.handshakeId)
      (hctx : result.ctx = ctx ∨ result.ctx.state ≠ .serverHelloCreated ∧
        (ctx.state = .serverHelloCreated → result.ledger.Inactive ctx.handshakeId))
      (hentered : call.entered result = none)
  | notInserted (op : PendingOp) (hledger : result.ledger = (ledger.apply op).2)
      (hop : op.isInsert = true) (htime : op.time ∈ call.readings)
      (hstatus : (ledger.apply op).1.status ≠ .ok)
      (hbefore : ctx.state ≠ .serverHelloCreated)
      (hafter : result.ctx.state ≠ .serverHelloCreated)
      (hentered : call.entered result = none)
  | inserted (op : PendingOp) (hledger : result.ledger = (ledger.apply op).2)
      (hop : op.isInsert = true) (htime : op.time ∈ call.readings)
      (hsubject : op.subject = some result.ctx.handshakeId)
      (hbefore : ctx.state ≠ .serverHelloCreated)
      (hafter : result.ctx.state = .serverHelloCreated)
      (hentered : call.entered result = some result.ctx.handshakeId)

variable {prims : Primitives}

section Use

variable {ctx : HandshakeCtx} {ledger : PendingStore} {call : CtxCall} {result : LedgerResult}

/-- A call that stays away from the ledger. -/
theorem LedgerUse.away (hledger : result.ledger = ledger)
    (hctx : result.ctx = ctx ∨
      result.ctx.state ≠ .serverHelloCreated ∧ ctx.state ≠ .serverHelloCreated)
    (hentered : call.entered result = none) : LedgerUse ctx ledger call result :=
  .own [] hledger (by simp)
    (hctx.imp_right fun hstates => ⟨hstates.1, fun hstate => absurd hstate hstates.2⟩) hentered

theorem CtxCall.entered_eq_none (call : CtxCall) (hstatus : result.status ≠ .ok) :
    call.entered result = none := by
  cases call <;> simp [entered, hstatus]

/-- A responder points at a ledger, and only a responder waits for a ClientAuth. -/
structure HandshakeCtx.Shaped (ctx : HandshakeCtx) : Prop where
  pending : ctx.role = some .responder → ctx.pending.isSome = true
  role : ctx.state = .serverHelloCreated → ctx.role = some .responder

theorem shaped_wiped : wiped.Shaped := ⟨by simp [wiped], by
  simp [wiped]⟩

theorem shaped_of_step (hshaped : ctx.Shaped) (hstep : CallStep prims ctx ledger call result) :
    result.ctx.Shaped := by
  cases hstep with
  | refused | wrongSignature => exact hshaped
  | initFailed | wiped | wipedPending => exact shaped_wiped
  | initiatorReady => exact ⟨nofun, nofun⟩
  | responderReady => exact ⟨fun _ => rfl, nofun⟩
  | helloRolledBack | answerRolledBack => exact ⟨hshaped.pending, hshaped.role⟩
  | answered hat => exact ⟨hshaped.pending, fun _ => hat.role⟩
  | _ => exact ⟨hshaped.pending, nofun⟩

/-- A ClientAuth whose digest is still there: the ledger is read, and called once more. -/
theorem LedgerUse.second (op : PendingOp) {env : HandshakeEnv} {ca : Option Bytes} {digest : Digest}
    {mid : PendingStore} (hdigest : ledger.getDigest ctx.handshakeId env.now = (.ok, digest, mid))
    (hstate : ctx.state = .serverHelloCreated)
    (hop : op.isInsert = false ∧ op.time = env.later ∧ op.subject = some ctx.handshakeId)
    (hledger : result.ledger = (mid.apply op).2)
    (hctx : result.ctx = ctx ∨ result.ctx.state ≠ .serverHelloCreated ∧
      result.ledger.Inactive ctx.handshakeId) :
    LedgerUse ctx ledger (.verifyClientAuth env ca) result := by
  refine .own [.getDigest ctx.handshakeId env.now, op] ?_ ?_
    (hctx.imp_right fun hleft => ⟨hleft.1, fun _ => hleft.2⟩) rfl
  · rw [hledger, exec_cons]
    simp only [apply, hdigest]
    rfl
  intro made hmade
  rcases List.mem_pair.mp hmade with rfl | rfl
  · exact ⟨rfl, by simp [PendingOp.time, readings], hstate, rfl⟩
  · exact ⟨hop.1, by simp [hop.2.1, readings], hstate, hop.2.2⟩

theorem ledgerUse_of_step (hwf : ledger.WellFormed) (hshaped : ctx.Shaped)
    (hinit : call.isInit = true → ctx.state ≠ .serverHelloCreated)
    (hstep : CallStep prims ctx ledger call result) : LedgerUse ctx ledger call result := by
  have hdigested : ∀ {id : HandshakeId} {now : ℕ} {digest : Digest} {mid : PendingStore},
      ledger.getDigest id now = (.ok, digest, mid) → mid.WellFormed := by
    intro id now digest mid hdigest
    have hmid : mid = (ledger.apply (.getDigest id now)).2 := by
      simp only [apply, hdigest]
    exact hmid ▸ (stepped_apply hwf (.getDigest id now)).wellFormed
  cases hstep with
  | refused hstatus => exact .away rfl (.inl rfl) (call.entered_eq_none hstatus)
  | failed hstatus hrole hstate =>
    exact .away rfl (.inr ⟨by tauto, hstate⟩) (call.entered_eq_none hstatus)
  | initFailed hcall hstatus =>
    exact .away rfl (.inr ⟨by tauto, hinit hcall⟩) (call.entered_eq_none hstatus)
  | initiatorReady | responderReady => exact .away rfl (.inr ⟨by tauto, hinit rfl⟩) rfl
  | wiped hidle =>
    refine .away rfl (.inr ⟨by tauto, fun hstate => ?_⟩) rfl
    have hrole := hshaped.role hstate
    exact hidle ⟨⟨hrole, hstate⟩, hshaped.pending hrole⟩
  | @wipedPending now hat =>
    refine .own [.cancel ctx.handshakeId now] rfl ?_
      (.inr ⟨by tauto, fun _ => inactive_cancel hwf _ _⟩) rfl
    simp [PendingOp.isInsert, PendingOp.time, readings, PendingOp.subject, hat.state]
  | helloRolledBack hat | answerRolledBack hat =>
    exact .away rfl (.inr ⟨by simp [hat.state], by simp [hat.state]⟩) rfl
  | helloCreated hat | serverHelloVerified hat | authCreated hat | initiatorFinished hat
  | helloAccepted hat | responderFinished hat =>
    exact .away rfl (.inr ⟨by tauto, by simp [hat.state]⟩) rfl
  | @answerNotInserted env out draft status inserted hat hinsert hinserted hstatus =>
    refine .notInserted (.insert (transcriptHandshakeId prims ctx.chBytes draft.bytes)
      (transcriptHashClientAuth prims ctx.chBytes draft.bytes) env.now env.later) ?_ rfl
      (by simp [PendingOp.time, readings]) ?_ (by simp [hat.state]) (by tauto)
      (entered_eq_none _ hstatus)
    · rw [← hinsert]
      rfl
    rw [← hinsert] at hinserted
    exact hinserted
  | @answered env out draft next hat hdraft hinsert =>
    refine .inserted (.insert (transcriptHandshakeId prims ctx.chBytes draft.bytes)
      (transcriptHashClientAuth prims ctx.chBytes draft.bytes) env.now env.later) ?_ rfl
      (by simp [PendingOp.time, readings]) rfl (by simp [hat.state]) rfl rfl
    simp only [apply, hinsert]
  | @entryGone env msg status found hat hdigest hfound hstatus =>
    subst hdigest
    refine .own [.getDigest ctx.handshakeId env.now] rfl ?_
      (.inr ⟨by tauto, fun _ => inactive_getDigest hwf hfound⟩)
      (entered_eq_none _ hstatus)
    simp [PendingOp.isInsert, PendingOp.time, readings, PendingOp.subject, hat.state]
  | wrongSignature hat hdigest hfailure =>
    refine .second (.recordFailure _ _) hdigest hat.state ⟨rfl, rfl, rfl⟩ ?_ (.inl rfl)
    simp only [apply, hfailure]
  | lockedOut hat hdigest hfailure hrecorded =>
    subst hfailure
    exact .second (.recordFailure _ _) hdigest hat.state ⟨rfl, rfl, rfl⟩ rfl
      (.inr ⟨by tauto, inactive_recordFailure (hdigested hdigest) hrecorded⟩)
  | deriveFailed hat hdigest =>
    exact .second (.cancel _ _) hdigest hat.state ⟨rfl, rfl, rfl⟩ rfl
      (.inr ⟨by tauto, inactive_cancel (hdigested hdigest) _ _⟩)
  | notConsumed hat hdigest hconsume =>
    subst hconsume
    exact .second (.consumeSuccess _ _) hdigest hat.state ⟨rfl, rfl, rfl⟩ rfl
      (.inr ⟨by tauto, inactive_consumeSuccess (hdigested hdigest) _ _⟩)
  | @authVerified env msg digest mid next peerPk shared ssKem keys hat hsig hid hdigest
      hpk hverify hshared hkem hkeys hconsume =>
    have hnext : next = (mid.consumeSuccess ctx.handshakeId env.later).2 := by rw [hconsume]
    exact .second (.consumeSuccess _ _) hdigest hat.state ⟨rfl, rfl, rfl⟩ hnext
      (.inr ⟨by tauto, hnext ▸ inactive_consumeSuccess (hdigested hdigest) _ _⟩)

end Use

/-! ## Many contexts and one ledger -/

/-- The contexts, the ledger they share, and which context entered an id last. -/
structure SharedLedger (Ctx : Type) where
  ctxs : Ctx → HandshakeCtx
  ledger : PendingStore
  owner : HandshakeId → Option Ctx

/-- A call on a context, an attempt to make a session of one, or a direct call of a ledger
function. -/
inductive SharedEvent (Ctx : Type) where
  | call (which : Ctx) (call : CtxCall)
  | sessionInit (which : Ctx) (env : CallEnv) (session : Session) (limits : Option SessionLimits)
      (now ledgerNow : ℕ)
  | ledger (op : PendingOp)

/-- The context an event is about. -/
def SharedEvent.actor {Ctx : Type} : SharedEvent Ctx → Option Ctx
  | call which _ | sessionInit which .. => some which
  | ledger _ => none

/-- The readings of the ledger's clock an event may make. -/
def SharedEvent.readings {Ctx : Type} : SharedEvent Ctx → List ℕ
  | call _ made => made.readings
  | sessionInit _ _ _ _ _ ledgerNow => [ledgerNow]
  | ledger op => op.readings

section Shared

variable {Ctx : Type} [DecidableEq Ctx]

/-- Contexts that share a ledger. A context is not initialised while its answer is pending,
an answer gets an id no other pending answer has, and only contexts insert. -/
def sharedLedger (Ctx : Type) [DecidableEq Ctx] (prims : Primitives) :
    Machine (SharedLedger Ctx) (SharedEvent Ctx) where
  step state
    | .call which call =>
      let result := call.exec prims (state.ctxs which) state.ledger
      { ctxs := Function.update state.ctxs which result.ctx
        ledger := result.ledger
        owner :=
          match call.entered result with
          | some id => Function.update state.owner id (some which)
          | none => state.owner }
    | .sessionInit which env session limits now ledgerNow =>
      let result := sessionInitFromHandshake env session (state.ctxs which) state.ledger limits
        now ledgerNow
      { state with
        ctxs := Function.update state.ctxs which result.hs
        ledger := result.ledger }
    | .ledger op => { state with ledger := (state.ledger.apply op).2 }
  allowed state
    | .call which call =>
      (call.isInit = true → (state.ctxs which).state ≠ .serverHelloCreated) ∧
        ∀ id ∈ call.entered (call.exec prims (state.ctxs which) state.ledger),
          ∀ other, other ≠ which → ¬ (state.ctxs other).Awaits id
    | .sessionInit .. => True
    | .ledger op => op.isInsert = false

instance [Fintype Ctx] (state : SharedLedger Ctx) (event : SharedEvent Ctx) :
    Decidable ((sharedLedger Ctx prims).allowed state event) :=
  match event with
  -- over the one id there may be, not over all of them
  | .call .. => @instDecidableAnd _ _ inferInstance (Option.decidableForallMem _)
  | .sessionInit .. => inferInstanceAs (Decidable True)
  | .ledger op => inferInstanceAs (Decidable (op.isInsert = false))

/-- A freshly initialised ledger and no initialised context. -/
def SharedLedger.start (ledger : PendingStore) : SharedLedger Ctx where
  ctxs := fun _ => .wiped
  ledger := ledger
  owner := fun _ => none

/-- A context that waits owns its id, and every active entry has a context that waits. -/
structure SharedLedger.Owned (state : SharedLedger Ctx) : Prop where
  wellFormed : state.ledger.WellFormed
  shaped : ∀ which, (state.ctxs which).Shaped
  owner : ∀ which id, (state.ctxs which).Awaits id → state.owner id = some which
  active : ∀ id entry, state.ledger.entry id = some entry → entry.state = .active →
    ∃ which, (state.ctxs which).Awaits id

variable {state : SharedLedger Ctx} {which : Ctx} {ledger : PendingStore}

/-- What is left to show after a change to one context that enters no id: the context waits
for what it waited for, and what it gave up is not active any more. -/
theorem SharedLedger.Owned.change (howned : state.Owned) {ctx : HandshakeCtx}
    (hwf : ledger.WellFormed) (hshaped : ctx.Shaped)
    (hold : ∀ id entry, ledger.entry id = some entry → entry.state = .active →
      ∃ before, state.ledger.entry id = some before ∧ before.state = .active)
    (hawaits : ∀ id, ctx.Awaits id → (state.ctxs which).Awaits id)
    (hgone : ∀ id, (state.ctxs which).Awaits id → ¬ ctx.Awaits id → ledger.Inactive id) :
    SharedLedger.Owned { state with ctxs := update state.ctxs which ctx, ledger := ledger } where
  wellFormed := hwf
  shaped := (forall_update_iff _ fun _ (ctx : HandshakeCtx) => ctx.Shaped).mpr
    ⟨hshaped, fun other _ => howned.shaped other⟩
  owner := (forall_update_iff _ fun other (ctx : HandshakeCtx) => ∀ id, ctx.Awaits id →
    state.owner id = some other).mpr ⟨fun id hid => howned.owner which id (hawaits id hid),
      fun other _ => howned.owner other⟩
  active := by
    intro id entry hentry hactive
    obtain ⟨before, hbefore, hstate⟩ := hold id entry hentry hactive
    obtain ⟨other, hother⟩ := howned.active id before hbefore hstate
    by_cases hwhich : other = which
    · subst hwhich
      refine ⟨other, ?_⟩
      dsimp only
      rw [update_self]
      by_contra hleft
      exact hgone id hother hleft entry hentry hactive
    · exact ⟨other, by simpa [update_of_ne hwhich] using hother⟩

/-- A call keeps the invariant. -/
theorem owned_call (howned : state.Owned) {call : CtxCall}
    (hallowed : (sharedLedger Ctx prims).allowed state (.call which call)) :
    ((sharedLedger Ctx prims).step state (.call which call)).Owned := by
  obtain ⟨hinit, hfresh⟩ := hallowed
  have hstep := callStep_exec prims (state.ctxs which) state.ledger call
  have hshaped := shaped_of_step (howned.shaped which) hstep
  have huse := ledgerUse_of_step howned.wellFormed (howned.shaped which) hinit hstep
  dsimp only [sharedLedger]
  generalize call.exec prims (state.ctxs which) state.ledger = result at hfresh hshaped huse ⊢
  cases huse with
  | own ops hledger hops hctx hentered =>
    rw [hentered]
    refine howned.change ?_ hshaped ?_ ?_ ?_
    · rw [hledger]
      exact (wellFormed_exec howned.wellFormed ops).1
    · intro id entry hentry hactive
      rw [hledger] at hentry
      exact active_before_exec howned.wellFormed ops (fun op hop => (hops op hop).1) hentry hactive
    · rcases hctx with hsame | ⟨hleft, -⟩
      · simp [hsame]
      · exact fun id hawaits => absurd hawaits.1 hleft
    · intro id hawaits hnot
      rcases hctx with hsame | ⟨-, hinactive⟩
      · exact absurd (hsame ▸ hawaits) hnot
      · exact hawaits.2 ▸ hinactive hawaits.1
  | notInserted op hledger hop htime hstatus hbefore hafter hentered =>
    rw [hentered]
    refine howned.change ?_ hshaped ?_ (fun id hawaits => absurd hawaits.1 hafter)
      (fun id hawaits => absurd hawaits.1 hbefore)
    · rw [hledger]
      exact (stepped_apply howned.wellFormed op).wellFormed
    intro id entry hentry hactive
    rw [hledger] at hentry
    obtain ⟨before, hfound, hstate, -⟩ := active_before_apply
      (fun _ => howned.wellFormed) op (fun _ _ => hstatus) hentry hactive
    exact ⟨before, hfound, hstate⟩
  | inserted op hledger hop htime hsubject hbefore hafter hentered =>
    have hothers := hfresh _ hentered
    rw [hentered]
    refine ⟨?_, ?_, ?_, ?_⟩
    · rw [hledger]
      exact (stepped_apply howned.wellFormed op).wellFormed
    · exact (forall_update_iff _ fun _ (ctx : HandshakeCtx) => ctx.Shaped).mpr
        ⟨hshaped, fun other _ => howned.shaped other⟩
    · refine (forall_update_iff _ fun other (ctx : HandshakeCtx) => ∀ id, ctx.Awaits id →
        update state.owner result.ctx.handshakeId (some which) id = some other).mpr
          ⟨?_, fun other hwhich id hawaits => ?_⟩
      · rintro _ ⟨-, rfl⟩
        exact update_self ..
      · have hid : id ≠ result.ctx.handshakeId := fun heq =>
          hothers other hwhich (heq ▸ hawaits)
        rw [update_of_ne hid]
        exact howned.owner other id hawaits
    · intro id entry hentry hactive
      dsimp only at hentry ⊢
      by_cases hid : id = result.ctx.handshakeId
      · exact ⟨which, by rw [update_self]; exact ⟨hafter, hid.symm⟩⟩
      rw [hledger] at hentry
      obtain ⟨before, hfound, hstate, -⟩ := active_before_apply
        (fun _ => howned.wellFormed) op
        (fun _ hsame => absurd (Option.some.inj (hsame.symm.trans hsubject)) hid) hentry
        hactive
      obtain ⟨other, hother⟩ := howned.active id before hfound hstate
      have hwhich : other ≠ which := by
        rintro rfl
        exact hbefore hother.1
      exact ⟨other, by rw [update_of_ne hwhich]; exact hother⟩

/-- Making a session leaves the ledger alone, and a context that waits as it is. -/
theorem sessionInit_ledger {env : CallEnv} {session : Session} {hs : HandshakeCtx}
    {limits : Option SessionLimits} {now ledgerNow : ℕ} :
    (sessionInitFromHandshake env session hs ledger limits now ledgerNow).ledger = ledger ∧
      ((sessionInitFromHandshake env session hs ledger limits now ledgerNow).hs = hs ∨
        (sessionInitFromHandshake env session hs ledger limits now ledgerNow).hs = .wiped ∧
          hs.state = .established) := by
  have hview := sessionInitFromHandshake_view env session hs ledger limits now ledgerNow
  generalize sessionInitFromHandshake env session hs ledger limits now ledgerNow = result
    at hview ⊢
  cases hview with
  | refused => exact ⟨rfl, Or.inl rfl⟩
  | created hempty hrole hestablished =>
    exact ⟨rfl, Or.inr ⟨rfl, hestablished⟩⟩

variable {event : SharedEvent Ctx}

theorem owned_step (howned : state.Owned)
    (hallowed : (sharedLedger Ctx prims).allowed state event) :
    ((sharedLedger Ctx prims).step state event).Owned := by
  cases event with
  | call => exact owned_call howned hallowed
  | sessionInit which env session limits now ledgerNow =>
    obtain ⟨hledger, hhs⟩ := sessionInit_ledger
    dsimp only [sharedLedger]
    rw [hledger]
    refine howned.change howned.wellFormed ?_ (fun _ entry hentry hactive =>
      ⟨entry, hentry, hactive⟩) ?_ ?_
    · rcases hhs with hsame | ⟨hwiped, -⟩
      · rw [hsame]
        exact howned.shaped which
      · rw [hwiped]
        exact shaped_wiped
    · rcases hhs with hsame | ⟨hwiped, -⟩
      · simp [hsame]
      · simp [hwiped, Awaits, wiped]
    · rcases hhs with hsame | ⟨-, hestablished⟩
      · rw [hsame]
        exact fun id hawaits hnot => absurd hawaits hnot
      · simp [Awaits, hestablished]
  | ledger op =>
    have hstepped := stepped_apply howned.wellFormed op
    refine ⟨hstepped.wellFormed, howned.shaped, howned.owner, ?_⟩
    intro id entry hentry hactive
    obtain ⟨before, hfound, hstate, -⟩ := active_before_apply
      (fun _ => howned.wellFormed) op (by simp [show op.isInsert = false from hallowed]) hentry
      hactive
    exact howned.active id before hfound hstate

/-- Whichever way a context stops waiting, nothing is active under the id it waited for. -/
theorem inactive_of_leaving (howned : state.Owned) {id : HandshakeId}
    (hallowed : (sharedLedger Ctx prims).allowed state event)
    (hbefore : (state.ctxs which).Awaits id)
    (hafter : ¬ (((sharedLedger Ctx prims).step state event).ctxs which).Awaits id) :
    ((sharedLedger Ctx prims).step state event).ledger.Inactive id := by
  cases event with
  | ledger => exact absurd hbefore hafter
  | sessionInit actor env session limits now ledgerNow =>
    obtain ⟨-, hhs⟩ := sessionInit_ledger
    dsimp only [sharedLedger] at hafter
    by_cases hactor : which = actor
    · subst hactor
      rw [update_self] at hafter
      rcases hhs with hsame | ⟨-, hestablished⟩
      · rw [hsame] at hafter
        exact absurd hbefore hafter
      · simp [Awaits, hestablished] at hbefore
    · rw [update_of_ne hactor] at hafter
      exact absurd hbefore hafter
  | call actor call =>
    dsimp only [sharedLedger] at hafter ⊢
    by_cases hactor : which = actor
    · subst hactor
      have huse := ledgerUse_of_step howned.wellFormed (howned.shaped which) hallowed.1
        (callStep_exec prims (state.ctxs which) state.ledger call)
      rw [update_self] at hafter
      generalize call.exec prims (state.ctxs which) state.ledger = result at hafter huse ⊢
      cases huse with
      | own ops hledger hops hctx =>
        rcases hctx with hsame | ⟨-, hinactive⟩
        · exact absurd (hsame ▸ hbefore) hafter
        · exact hbefore.2 ▸ hinactive hbefore.1
      | notInserted _ _ _ _ _ hidle | inserted _ _ _ _ _ hidle => exact absurd hbefore.1 hidle
    · rw [update_of_ne hactor] at hafter
      exact absurd hbefore hafter

/-- No context touches an entry in time that another context entered. -/
theorem entry_of_other (howned : state.Owned) {other : Ctx}
    (hallowed : (sharedLedger Ctx prims).allowed state event) (hactor : event.actor = some which)
    (hother : other ≠ which) {id : HandshakeId} (howner : state.owner id = some other)
    {entry : PendingEntry} (hentry : state.ledger.entry id = some entry)
    (hlive : ∀ now ∈ event.readings, now < entry.deadlineMs) :
    ((sharedLedger Ctx prims).step state event).ledger.entry id = some entry := by
  cases event with
  | ledger => cases hactor
  | sessionInit actor env session limits now ledgerNow =>
    dsimp only [sharedLedger]
    rw [sessionInit_ledger.1]
    exact hentry
  | call actor call =>
    obtain rfl : actor = which := Option.some.inj hactor
    have huse := ledgerUse_of_step howned.wellFormed (howned.shaped actor) hallowed.1
      (callStep_exec prims (state.ctxs actor) state.ledger call)
    dsimp only [sharedLedger]
    generalize call.exec prims (state.ctxs actor) state.ledger = result at huse ⊢
    cases huse with
    | own ops hledger hops =>
      rw [hledger]
      refine entry_exec_of_lt howned.wellFormed ops hentry fun op hop => ?_
      obtain ⟨-, htime, hstate, hsubject⟩ := hops op hop
      refine ⟨hlive _ htime, Or.inl fun hsame => ?_⟩
      have hid : (state.ctxs actor).handshakeId = id := Option.some.inj (hsubject.symm.trans hsame)
      have hself := howned.owner actor id ⟨hstate, hid⟩
      exact hother (Option.some.inj (howner.symm.trans hself))
    | notInserted op hledger hop htime | inserted op hledger hop htime =>
      rw [hledger]
      exact entry_apply_of_lt howned.wellFormed op hentry (hlive _ htime) (Or.inr hop)

/-- In every run of contexts that share a ledger: an active entry belongs to the context that
entered it, which waits under that id and is the only one to do so; a context that stops
waiting leaves nothing active behind; and no context changes an entry of another one before
its deadline. -/
theorem ledger_entries_owned {external : Bool} {capacity : ℕ} {ttlMs : UInt64}
    {ledger : PendingStore} (hledger : storeInitCommon external capacity ttlMs = (.ok, ledger))
    {events : List (SharedEvent Ctx)}
    (hrun : Machine.Run (sharedLedger Ctx prims) (.start ledger) events state) :
    (∀ slot ∈ state.ledger.slots, slot.state = .active →
        ∃ which, state.owner slot.handshakeId = some which ∧
          (state.ctxs which).Awaits slot.handshakeId ∧
            ∀ other, (state.ctxs other).Awaits slot.handshakeId → other = which) ∧
      (∀ event which id, (sharedLedger Ctx prims).allowed state event →
        (state.ctxs which).Awaits id →
        ¬ (((sharedLedger Ctx prims).step state event).ctxs which).Awaits id →
        ∀ slot ∈ ((sharedLedger Ctx prims).step state event).ledger.slots,
          slot.handshakeId = id → slot.state ≠ .active) ∧
      (∀ event which other id entry, (sharedLedger Ctx prims).allowed state event →
        event.actor = some which → other ≠ which → state.owner id = some other →
        state.ledger.entry id = some entry →
        (∀ now ∈ event.readings, now < entry.deadlineMs) →
        ((sharedLedger Ctx prims).step state event).ledger.entry id = some entry) := by
  obtain ⟨hwf, hempty⟩ := wellFormed_of_storeInitCommon hledger
  have hstart : SharedLedger.Owned (.start ledger : SharedLedger Ctx) :=
    { wellFormed := hwf
      shaped := fun _ => shaped_wiped
      owner := by simp [SharedLedger.start, Awaits, wiped]
      active := by
        intro id entry hentry
        rw [show (SharedLedger.start ledger : SharedLedger Ctx).ledger.entry id = none from
          congrFun hempty id] at hentry
        cases hentry }
  have howned : state.Owned :=
    hrun.invariant (fun _ _ howned hallowed => owned_step howned hallowed) hstart
  refine ⟨fun slot hslot hactive => ?_, fun event which id hallowed hbefore hafter slot hslot hid
    hactive => ?_, fun event which other id entry hallowed hactor hother howner hentry hlive =>
      entry_of_other howned hallowed hactor hother howner hentry hlive⟩
  · have hentry := entry_of_mem howned.wellFormed hslot (by simp [hactive])
    obtain ⟨which, hawaits⟩ := howned.active _ slot hentry hactive
    have howner := howned.owner which _ hawaits
    refine ⟨which, howner, hawaits, fun other hother => ?_⟩
    exact Option.some.inj ((howned.owner other _ hother).symm.trans howner)
  · have hentry := entry_of_mem (owned_step howned hallowed).wellFormed hslot (by simp [hactive])
    exact inactive_of_leaving howned hallowed hbefore hafter slot (hid ▸ hentry) hactive

end Shared

/-! ## Two responders -/

/-- Two responders answer the sample ClientHello; then the first is wiped. -/
def sharedSampleEvents : List (SharedEvent Bool) :=
  [.call false (.responderInit (sampleEnv 2) [2] (sampleKeypair 2) true false 0),
    .call true (.responderInit (sampleEnv 3) [2] (sampleKeypair 2) true false 0),
    .call false (.acceptClientHello (sampleEnv 2) (some sampleClientHello.bytes)),
    .call true (.acceptClientHello (sampleEnv 3) (some sampleClientHello.bytes)),
    .call false (.createServerHello (sampleEnv 2) ⟨true, 5000⟩),
    .call true (.createServerHello (sampleEnv 3) ⟨true, 5000⟩),
    .call false (.wipe 3)]

/-- The ledger and the responders after these calls. -/
def sharedSample : SharedLedger Bool :=
  sharedSampleEvents.foldl (sharedLedger Bool .sample).step (.start (storeInitCommon true 2 100).2)

theorem run_sharedSample :
    Machine.Run (sharedLedger Bool .sample)
      (.start (storeInitCommon true 2 100).2) sharedSampleEvents sharedSample :=
  Machine.Run.of_allAllowed (by decide +kernel)

/-- The entry of the wiped responder is gone; the other one is its owner's. -/
theorem ledger_entries_owned_sample :
    (∃ slot ∈ sharedSample.ledger.slots, slot.state = .active) ∧
      ∀ slot ∈ sharedSample.ledger.slots, slot.state = .active →
        ∃ which, sharedSample.owner slot.handshakeId = some which ∧
          (sharedSample.ctxs which).Awaits slot.handshakeId ∧
            ∀ other, (sharedSample.ctxs other).Awaits slot.handshakeId → other = which :=
  have hledger : storeInitCommon true 2 100 = (.ok, (storeInitCommon true 2 100).2) := rfl
  ⟨by decide +kernel, (ledger_entries_owned hledger run_sharedSample).1⟩

end MldsaAuth.Protocol
