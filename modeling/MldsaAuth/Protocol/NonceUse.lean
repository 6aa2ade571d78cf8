/-
# No nonce is used twice under a key

Each derivation whose keys a context took over has a number. The number stays with the
context until a session is made of it, and with that session from then on; no two
contexts or sessions share one. Under one number the sequence counter only grows, and
under two numbers the sending keys differ, because the derivations read different
transcript digests or send in different directions.
-/

import MldsaAuth.Protocol.Channel
import MldsaAuth.Protocol.KeyCommits

namespace MldsaAuth.Protocol

open Foundation Crypto Function Machine HandshakeCtx Process

/-! ## Keys -/

variable {keys : TrafficKeys} {prims : Primitives} {record : Record}

theorem deriveTrafficKeys_eq_some {inputs : KdfInputs}
    (hkeys : deriveTrafficKeys prims inputs = some keys) (role : HandshakeRole) :
    ∃ call, kdfCall inputs (match role with | .initiator => .c2s | .responder => .s2c) =
      some call ∧ kexHkdfSha256 prims call = some (sideKey keys role) := by
  simp only [deriveTrafficKeys, kexDeriveSessionKeyV2, Option.bind_eq_some_iff,
    Option.map_eq_some_iff] at hkeys
  obtain ⟨c2s, ⟨c2sCall, hc2sCall, hc2s⟩, s2c, ⟨s2cCall, hs2cCall, hs2c⟩, rfl⟩ := hkeys
  cases role with
  | initiator => exact ⟨c2sCall, hc2sCall, hc2s⟩
  | responder => exact ⟨s2cCall, hs2cCall, hs2c⟩

/-- A traffic key determines its direction and the inputs it was derived from. -/
theorem sideKey_injective (hideal : record.Ideal prims) {first second : KeyCommit}
    (hfirst : first ∈ record.commits) (hsecond : second ∈ record.commits) {keys' : TrafficKeys}
    (hkeys : deriveTrafficKeys prims first.inputs = some keys)
    (hkeys' : deriveTrafficKeys prims second.inputs = some keys') {role role' : HandshakeRole}
    (heq : sideKey keys role = sideKey keys' role') :
    first.inputs = second.inputs ∧ role = role' := by
  obtain ⟨call, hcall, hkey⟩ := deriveTrafficKeys_eq_some hkeys role
  obtain ⟨call', hcall', hkey'⟩ := deriveTrafficKeys_eq_some hkeys' role'
  rw [← heq] at hkey'
  obtain rfl := hideal.hkdf first hfirst second hsecond _ _ call call' _ hcall hcall' hkey hkey'
  obtain ⟨hinputs, hdirection⟩ := kdfCall_injective hcall hcall'
  refine ⟨hinputs, ?_⟩
  cases role <;> cases role' <;> simp_all

/-! ## The invariant -/

/-- A commit with this number exists and its derivation gave these keys. -/
def Record.Numbered (prims : Primitives) (record : Record) (number : ℕ) (commit : KeyCommit)
    (keys : TrafficKeys) : Prop :=
  record.commits[number]? = some commit ∧ deriveTrafficKeys prims commit.inputs = some keys

variable {number : ℕ}

theorem Record.Numbered.mono
    {commit : KeyCommit} (hnumbered : record.Numbered prims number commit keys) (more : Record) :
    (record.append more).Numbered prims number commit keys := by
  obtain ⟨hcommit, hkeys⟩ := hnumbered
  have hlt := (List.getElem?_eq_some_iff.mp hcommit).1
  exact ⟨by rwa [Record.append, List.getElem?_append_left hlt], hkeys⟩

/-- A context with committed keys holds those of the derivation with its number. -/
structure CtxKeyed (prims : Primitives) (record : Record) (ctx : HandshakeCtx) (number : ℕ) :
    Prop where
  bound : number < record.commits.length
  keys : ∀ keys, ctx.sessionKeys = some keys →
    ∃ commit, record.Numbered prims number commit keys ∧ ctx.role = some commit.role

/-- A session: its counter is far from wrapping, a session that has not been set up is
blank, and one in use has the keys of the derivation with its number and a counter above
every sequence number used under it. -/
structure SessionKeyed (prims : Primitives) (record : Record) (fed : List ℕ)
    (uses : List NonceUse) (session : Session) (number : ℕ) : Prop where
  sendBound : session.sendSeq ≤ 2 ^ 33
  blank : session.state = .empty → session.sendSeq = 0
  limits : session.state = .active → session.limits.valid = true
  fed : session.state = .active → number ∈ fed
  keys : session.state = .active → ∃ commit keys, record.Numbered prims number commit keys ∧
    session.keys = some ⟨sideKey keys commit.role, sideKey keys commit.role.other⟩
  above : session.state = .active → ∀ use ∈ uses, use.commit = number → use.seq < session.sendSeq

/-- An encryption was made under the sending key of the derivation with its number. -/
structure UseKeyed (prims : Primitives) (record : Record) (fed : List ℕ) (use : NonceUse) :
    Prop where
  fed : use.commit ∈ fed
  bound : use.seq < 2 ^ 33
  nonce : use.call.nonce = buildNonce use.seq
  key : ∃ commit keys, record.Numbered prims use.commit commit keys ∧
    use.call.key = sideKey keys commit.role

/-- The numbers of a process: each is held by one context, or has fed one session. -/
structure UseInv {Ctx Ses : Type} (prims : Primitives) (process : Process Ctx Ses) : Prop where
  ctxKeyed : ∀ handle, (process.ctx handle).keysCommitted = true →
    CtxKeyed prims process.record (process.ctx handle) (process.commitOf handle)
  ctxDistinct : ∀ first second, (process.ctx first).keysCommitted = true →
    (process.ctx second).keysCommitted = true →
    process.commitOf first = process.commitOf second → first = second
  unfed : ∀ handle, (process.ctx handle).keysCommitted = true →
    process.commitOf handle ∉ process.fed
  fedNodup : process.fed.Nodup
  fedBound : ∀ number ∈ process.fed, number < process.record.commits.length
  sessionKeyed : ∀ target, SessionKeyed prims process.record process.fed process.uses
    (process.session target) (process.fedBy target)
  sessionDistinct : ∀ first second, (process.session first).state = .active →
    (process.session second).state = .active →
    process.fedBy first = process.fedBy second → first = second
  useKeyed : ∀ use ∈ process.uses, UseKeyed prims process.record process.fed use
  useDistinct : process.uses.Pairwise fun first second =>
    first.commit = second.commit → first.seq ≠ second.seq

section Mono

variable {ctx : HandshakeCtx} {number : ℕ}
  {fed : List ℕ} {uses : List NonceUse} {session : Session} {use : NonceUse}

theorem CtxKeyed.mono (hkeyed : CtxKeyed prims record ctx number) (more : Record) :
    CtxKeyed prims (record.append more) ctx number where
  bound := by
    have hbound := hkeyed.bound
    simp only [Record.append, List.length_append]
    omega
  keys := fun keys hkeys => by
    obtain ⟨commit, hnumbered, hrole⟩ := hkeyed.keys keys hkeys
    exact ⟨commit, hnumbered.mono more, hrole⟩

theorem SessionKeyed.mono (hkeyed : SessionKeyed prims record fed uses session number)
    (more : Record) : SessionKeyed prims (record.append more) fed uses session number :=
  { hkeyed with
    keys := fun hactive => by
      obtain ⟨commit, keys, hnumbered, hblock⟩ := hkeyed.keys hactive
      exact ⟨commit, keys, hnumbered.mono more, hblock⟩ }

theorem UseKeyed.mono (hkeyed : UseKeyed prims record fed use) (more : Record) :
    UseKeyed prims (record.append more) fed use :=
  { hkeyed with
    key := by
      obtain ⟨commit, keys, hnumbered, hkey⟩ := hkeyed.key
      exact ⟨commit, keys, hnumbered.mono more, hkey⟩ }

/-- A session that is over, or not set up, only has its counter to keep. -/
theorem sessionKeyed_of_inactive (hbound : session.sendSeq ≤ 2 ^ 33)
    (hblank : session.state = .empty → session.sendSeq = 0) (hinactive : session.state ≠ .active) :
    SessionKeyed prims record fed uses session number where
  sendBound := hbound
  blank := hblank
  limits := fun hactive => absurd hactive hinactive
  fed := fun hactive => absurd hactive hinactive
  keys := fun hactive => absurd hactive hinactive
  above := fun hactive => absurd hactive hinactive

end Mono

/-! ## Steps -/

/-- Numbers that holders do not share stay so when one holder gets a number nobody else holds. -/
theorem distinct_update {Holder : Type} [DecidableEq Holder] {numberOf : Holder → ℕ}
    {before after : Holder → Prop} {holder : Holder}
    (hdistinct : ∀ first second, before first → before second →
      numberOf first = numberOf second → first = second)
    (hothers : ∀ other, other ≠ holder → after other → before other ∧ numberOf other ≠ number) :
    ∀ first second, after first → after second →
      update numberOf holder number first = update numberOf holder number second →
        first = second := by
  intro first second hfirst hsecond hsame
  rw [update_apply, update_apply] at hsame
  split_ifs at hsame with hhere hthere hthere
  · exact hhere.trans hthere.symm
  · exact absurd hsame.symm (hothers second hthere hsecond).2
  · exact absurd hsame (hothers first hhere hfirst).2
  · exact hdistinct first second (hothers first hhere hfirst).1
      (hothers second hthere hsecond).1 hsame

variable {next : HandshakeCtx} {more : Record} {Ctx Ses : Type} {process : Process Ctx Ses}
  {target : Ses}

section Steps

variable [DecidableEq Ctx]

section

variable (hinv : UseInv prims process)

include hinv

/-- A call after which the committed keys of a context are those from before. -/
theorem UseInv.keep {handle : Ctx} (ledger : ℕ → PendingStore) (hcommits : more.commits = [])
    (hkeys : next.keysCommitted = true → (process.ctx handle).keysCommitted = true ∧
      next.sessionKeys = (process.ctx handle).sessionKeys ∧ next.role = (process.ctx handle).role) :
    UseInv prims
      { process with
        ctx := update process.ctx handle next
        ledger := ledger
        record := process.record.append more } := by
  have hold : ∀ other, (update process.ctx handle next other).keysCommitted = true →
      (process.ctx other).keysCommitted = true ∧
        CtxKeyed prims process.record (update process.ctx handle next other)
          (process.commitOf other) := by
    intro other hcommitted
    by_cases hhandle : other = handle
    · subst hhandle
      rw [update_self] at hcommitted ⊢
      obtain ⟨hbefore, hsame, hrole⟩ := hkeys hcommitted
      have hkeyed := hinv.ctxKeyed other hbefore
      refine ⟨hbefore, hkeyed.bound, fun keys hnext => ?_⟩
      obtain ⟨commit, hnumbered, hrole'⟩ := hkeyed.keys keys (hsame.symm.trans hnext)
      exact ⟨commit, hnumbered, hrole.trans hrole'⟩
    · rw [update_of_ne hhandle] at hcommitted ⊢
      exact ⟨hcommitted, hinv.ctxKeyed other hcommitted⟩
  exact
    { hinv with
      ctxKeyed := fun other hcommitted => (hold other hcommitted).2.mono more
      ctxDistinct := fun first second hfirst hsecond =>
        hinv.ctxDistinct first second (hold first hfirst).1 (hold second hsecond).1
      unfed := fun other hcommitted => hinv.unfed other (hold other hcommitted).1
      fedBound := fun number hnumber => by
        simpa [Record.append, hcommits] using hinv.fedBound number hnumber
      sessionKeyed := fun target => (hinv.sessionKeyed target).mono more
      useKeyed := fun use huse => (hinv.useKeyed use huse).mono more }

/-- A call in which a context takes over the keys of a new derivation. -/
theorem UseInv.commit {handle : Ctx} (ledger : ℕ → PendingStore)
    {commit : KeyCommit} (hcommits : more.commits = [commit])
    (hkeys : ∀ keys, next.sessionKeys = some keys →
      deriveTrafficKeys prims commit.inputs = some keys ∧ next.role = some commit.role) :
    UseInv prims
      { process with
        ctx := update process.ctx handle next
        ledger := ledger
        record := process.record.append more
        commitOf := update process.commitOf handle process.record.commits.length } := by
  have hlength : (process.record.append more).commits.length =
      process.record.commits.length + 1 := by
    simp [Record.append, hcommits]
  have hlast : (process.record.append more).commits[process.record.commits.length]? =
      some commit := by
    simp [Record.append, hcommits]
  have hother : ∀ other, other ≠ handle →
      (update process.ctx handle next other).keysCommitted = true →
      (process.ctx other).keysCommitted = true ∧
        process.commitOf other < process.record.commits.length := by
    intro other hhandle hcommitted
    rw [update_of_ne hhandle] at hcommitted
    exact ⟨hcommitted, (hinv.ctxKeyed other hcommitted).bound⟩
  refine
    { hinv with
      ctxKeyed := fun other hcommitted => ?_
      ctxDistinct := distinct_update hinv.ctxDistinct fun other hhandle hcommitted =>
        (hother other hhandle hcommitted).imp_right ne_of_lt
      unfed := fun other hcommitted hfed => ?_
      fedBound := fun number hnumber => ?_
      sessionKeyed := fun target => (hinv.sessionKeyed target).mono more
      useKeyed := fun use huse => (hinv.useKeyed use huse).mono more }
  · by_cases hhandle : other = handle
    · subst hhandle
      simp only [update_self]
      refine ⟨by omega, fun keys hnext => ⟨commit, ⟨hlast, (hkeys keys hnext).1⟩,
        (hkeys keys hnext).2⟩⟩
    · obtain ⟨hcommitted, -⟩ := hother other hhandle hcommitted
      simp only [update_of_ne hhandle]
      exact (hinv.ctxKeyed other hcommitted).mono more
  · by_cases hhandle : other = handle
    · simp only [hhandle, update_self] at hfed
      exact absurd (hinv.fedBound _ hfed) (by omega)
    · simp only [update_of_ne hhandle] at hfed
      exact hinv.unfed other (hother other hhandle hcommitted).1 hfed
  · have hbound := hinv.fedBound number hnumber
    simp only [hlength]
    omega

theorem useInv_call (handle : Ctx) (call : CtxCall) :
    UseInv prims (process.callOn prims handle call) := by
  have hview := commitView_of_step (callStep_exec prims (process.ctx handle)
    (process.ledger (call.ledgerIndex (process.ctx handle))) call)
  unfold callOn
  dsimp only
  cases hview with
  | kept hcommits hkeys =>
    rw [if_pos hcommits]
    exact hinv.keep _ hcommits hkeys
  | initiator hcommits hrole _ _ hkeys hnext | responder hcommits hrole _ hkeys hnext =>
    rw [if_neg (by simp [hcommits])]
    refine hinv.commit _ hcommits fun keys hblock => ?_
    rw [hnext] at hblock ⊢
    simp only [withInitiatorKeys, withResponderKeys, Option.map_eq_some_iff] at hblock
    obtain ⟨-, -, rfl⟩ := hblock
    exact ⟨hkeys, hrole⟩

variable [DecidableEq Ses]

/-- A session is made of a context. -/
theorem UseInv.feed {source : Ctx} {next : Session}
    (hcommitted : (process.ctx source).keysCommitted = true) (hseq : next.sendSeq = 0)
    (hlimits : next.limits.valid = true) {commit : KeyCommit}
    (hnumbered : process.record.Numbered prims (process.commitOf source) commit keys)
    (hkeys : next.keys = some ⟨sideKey keys commit.role, sideKey keys commit.role.other⟩) :
    UseInv prims
      { process with
        ctx := update process.ctx source .wiped
        session := update process.session target next
        fedBy := update process.fedBy target (process.commitOf source)
        fed := process.fed ++ [process.commitOf source] } := by
  have hsource : ∀ other, (update process.ctx source .wiped other).keysCommitted = true →
      other ≠ source ∧ (process.ctx other).keysCommitted = true := by
    intro other hother
    by_cases hsame : other = source
    · subst hsame
      simp [wiped] at hother
    rw [update_of_ne hsame] at hother
    exact ⟨hsame, hother⟩
  have hunfed := hinv.unfed source hcommitted
  have hnotUsed : ∀ use ∈ process.uses, use.commit ≠ process.commitOf source := by
    intro use huse hsame
    exact hunfed (hsame ▸ (hinv.useKeyed use huse).fed)
  have hactive : ∀ other, other ≠ target →
      (update process.session target next other).state = .active →
      (process.session other).state = .active ∧ process.fedBy other ≠ process.commitOf source := by
    intro other htarget hstate
    rw [update_of_ne htarget] at hstate
    exact ⟨hstate, fun hsame => hunfed (hsame ▸ (hinv.sessionKeyed other).fed hstate)⟩
  refine
    { ctxKeyed := fun other hother => ?_
      ctxDistinct := fun first second hfirst hsecond =>
        hinv.ctxDistinct first second (hsource first hfirst).2 (hsource second hsecond).2
      unfed := fun other hother hfed => ?_
      fedNodup := ?_
      fedBound := fun number hnumber => ?_
      sessionKeyed := fun other => ?_
      sessionDistinct := distinct_update hinv.sessionDistinct hactive
      useKeyed := fun use huse => ?_
      useDistinct := hinv.useDistinct }
  · obtain ⟨hne, hother⟩ := hsource other hother
    simp only [update_of_ne hne]
    exact hinv.ctxKeyed other hother
  · obtain ⟨hne, hother⟩ := hsource other hother
    rcases List.mem_append.mp hfed with hfed | hfed
    · exact hinv.unfed other hother hfed
    · exact hne (hinv.ctxDistinct other source hother hcommitted (List.mem_singleton.mp hfed))
  · refine List.nodup_append.mpr ⟨hinv.fedNodup, List.nodup_singleton _, ?_⟩
    intro number hnumber last hlast hsame
    rw [List.mem_singleton] at hlast
    exact hunfed (hlast ▸ hsame ▸ hnumber)
  · rcases List.mem_append.mp hnumber with hnumber | hnumber
    · exact hinv.fedBound number hnumber
    · rw [List.mem_singleton.mp hnumber]
      exact (hinv.ctxKeyed source hcommitted).bound
  · by_cases htarget : other = target
    · subst htarget
      simp only [update_self]
      exact
        { sendBound := by omega
          blank := fun _ => hseq
          limits := fun _ => hlimits
          fed := fun _ => List.mem_append_right _ (List.mem_singleton_self _)
          keys := fun _ => ⟨commit, keys, hnumbered, hkeys⟩
          above := fun _ use huse hsame => absurd hsame (hnotUsed use huse) }
    · simp only [update_of_ne htarget]
      exact
        { hinv.sessionKeyed other with
          fed := fun hstate =>
            List.mem_append_left _ ((hinv.sessionKeyed other).fed hstate) }
  · exact { hinv.useKeyed use huse with
      fed := List.mem_append_left _ (hinv.useKeyed use huse).fed }

theorem useInv_initSession (target : Ses) (source : Ctx)
    (env : CallEnv) (limits : Option SessionLimits) (now ledgerNow : ℕ) :
    UseInv prims (process.initSession target source env limits now ledgerNow) := by
  have hview := sessionInitFromHandshake_view env (process.session target) (process.ctx source)
    (process.ledger ((process.ctx source).pending.getD 0)) limits now ledgerNow
  simp only [initSession]
  generalize sessionInitFromHandshake env (process.session target) (process.ctx source)
    (process.ledger ((process.ctx source).pending.getD 0)) limits now ledgerNow = result
    at hview ⊢
  cases hview with
  | refused hstatus =>
    simp only [update_eq_self, if_neg hstatus]
    exact hinv
  | @created role keys limits hempty hrole hestablished hcommitted hkeys hlimits =>
    simp only [update_eq_self, if_true]
    obtain ⟨commit, hnumbered, hsame⟩ := (hinv.ctxKeyed source hcommitted).keys keys hkeys
    obtain rfl : role = commit.role := Option.some.inj (hrole.symm.trans hsame)
    refine hinv.feed hcommitted rfl hlimits hnumbered ?_
    cases commit.role <;> rfl

end

end Steps

section Sessions

/-- The counter after a sequence number has been reserved. -/
theorem UseInv.reserve (hinv : UseInv prims process)
    (hactive : (process.session target).state = .active)
    (hseq : (process.session target).sendSeq <
      (process.session target).limits.rejectAfterMessages) :
    (process.session target).reserved.sendSeq = (process.session target).sendSeq + 1 ∧
      (process.session target).sendSeq + 1 ≤ 2 ^ 33 := by
  have hlimit := SessionLimits.rejectAfterMessages_le ((hinv.sessionKeyed target).limits hactive)
  refine ⟨Nat.mod_eq_of_lt ?_, ?_⟩ <;> omega

theorem sessionSeal_of_ready {aead : Aead} {session next : Session} {args : SealArgs} {now : ℕ}
    {call : AeadCall} (hprepare : session.sealPrepare args now = .ok (call, next)) :
    (sessionSeal aead session args now).session = next ∨
      (sessionSeal aead session args now).session = next.terminate .failed := by
  simp only [sessionSeal, hprepare]
  split
  · exact Or.inr rfl
  split
  · exact Or.inl rfl
  · exact Or.inr rfl

variable [DecidableEq Ses]

section

variable (hinv : UseInv prims process)

include hinv

/-- A session changes; it may have used its next sequence number. -/
theorem UseInv.useSession {next : Session} (new : List NonceUse) (hone : new.length ≤ 1)
    (hnext : SessionKeyed prims process.record process.fed (process.uses ++ new) next
      (process.fedBy target))
    (hactive : next.state = .active → (process.session target).state = .active)
    (hnew : ∀ use ∈ new, (process.session target).state = .active ∧
      use.commit = process.fedBy target ∧ use.seq = (process.session target).sendSeq ∧
      UseKeyed prims process.record process.fed use) :
    UseInv prims
      { process with
        session := update process.session target next
        uses := process.uses ++ new } := by
  have hstate : ∀ other, (update process.session target next other).state = .active →
      (process.session other).state = .active := by
    exact (forall_update_iff process.session fun other (after : Session) =>
      after.state = .active → (process.session other).state = .active).mpr
        ⟨hactive, fun _ _ hother => hother⟩
  refine
    { hinv with
      sessionKeyed := fun other => ?_
      sessionDistinct := fun first second hfirst hsecond =>
        hinv.sessionDistinct first second (hstate first hfirst) (hstate second hsecond)
      useKeyed := fun use huse => ?_
      useDistinct := ?_ }
  · by_cases htarget : other = target
    · subst htarget
      simpa only [update_self] using hnext
    · simp only [update_of_ne htarget]
      refine { hinv.sessionKeyed other with above := fun hother use huse hsame => ?_ }
      rcases List.mem_append.mp huse with huse | huse
      · exact (hinv.sessionKeyed other).above hother use huse hsame
      obtain ⟨hthis, hcommit, -⟩ := hnew use huse
      exact absurd (hinv.sessionDistinct other target hother hthis
        (hsame.symm.trans hcommit)) htarget
  · rcases List.mem_append.mp huse with huse | huse
    · exact hinv.useKeyed use huse
    · exact (hnew use huse).2.2.2
  · refine List.pairwise_append.mpr ⟨hinv.useDistinct, ?_, fun old hold use huse hsame => ?_⟩
    · match new, hone with
      | [], _ => exact List.Pairwise.nil
      | [use], _ => exact List.pairwise_singleton _ _
    · obtain ⟨hthis, hcommit, hseq, -⟩ := hnew use huse
      have hlt := (hinv.sessionKeyed target).above hthis old hold (hsame.trans hcommit)
      omega

theorem useInv_seal (target : Ses) (aead : Aead) (args : SealArgs) (now : ℕ) :
    UseInv prims
      { process with
        session := update process.session target
          (sessionSeal aead (process.session target) args now).session
        uses := process.uses ++ process.sealUses target args now } := by
  have hkeyed := hinv.sessionKeyed target
  have hview := sealPrepare_view (process.session target) args now
  have hready := fun call next =>
    @sessionSeal_of_ready aead (process.session target) next args now call
  have hsession : ∀ status next,
      (process.session target).sealPrepare args now = .error (status, next) →
      (sessionSeal aead (process.session target) args now).session = next := by
    intro status next hprepare
    simp [sessionSeal, hprepare]
  unfold sealUses
  generalize (process.session target).sealPrepare args now = prepared at hview hready hsession ⊢
  cases hview with
  | misuse | badBucket =>
    rw [hsession _ _ rfl]
    exact hinv.useSession _ (by simp) (by simpa using hkeyed) id (by simp)
  | expired =>
    rw [hsession _ _ rfl]
    exact hinv.useSession _ (by simp) (sessionKeyed_of_inactive hkeyed.sendBound
      (by tauto) (by tauto)) (by tauto) (by simp)
  | ready hactive hbucket hcontent hseq =>
    obtain ⟨hreserved, hbound⟩ := hinv.reserve hactive hseq
    obtain ⟨commit, keys, hnumbered, hblock⟩ := hkeyed.keys hactive
    have huse : UseKeyed prims process.record process.fed
        ⟨process.fedBy target, (process.session target).sendSeq,
          (process.session target).sealCall args.content⟩ :=
      { fed := hkeyed.fed hactive
        bound := by
          change (process.session target).sendSeq < 2 ^ 33
          omega
        nonce := rfl
        key := ⟨commit, keys, hnumbered, by simp [Session.sealCall, Session.sendKey, hblock]⟩ }
    have hnext : SessionKeyed prims process.record process.fed
        (process.uses ++ [⟨process.fedBy target, (process.session target).sendSeq,
          (process.session target).sealCall args.content⟩])
        (process.session target).reserved (process.fedBy target) :=
      { hkeyed with
        sendBound := by omega
        blank := fun hempty => by
          rw [show (process.session target).state = .empty from hempty] at hactive
          cases hactive
        above := fun _ use hmem hsame => by
          rcases List.mem_append.mp hmem with hmem | hmem
          · have hlt := hkeyed.above hactive use hmem hsame
            omega
          obtain rfl := List.mem_singleton.mp hmem
          rw [hreserved]
          exact Nat.lt_succ_self _ }
    rcases hready _ _ rfl with hresult | hresult
    · rw [hresult]
      exact hinv.useSession _ (by simp) hnext (fun _ => hactive) (by simpa using ⟨hactive, huse⟩)
    rw [hresult]
    exact hinv.useSession _ (by simp) (sessionKeyed_of_inactive hnext.sendBound
      (by tauto) (by tauto)) (by tauto) (by simpa using ⟨hactive, huse⟩)

theorem useInv_open (target : Ses) (aead : Aead) (args : OpenArgs) (now : ℕ) :
    UseInv prims
      { process with
        session := update process.session target
          (sessionOpen aead (process.session target) args now).session } := by
  have hkeyed := hinv.sessionKeyed target
  have hview := sessionOpen_view aead (process.session target) args now
  have huse : ∀ next : Session,
      SessionKeyed prims process.record process.fed process.uses next (process.fedBy target) →
      (next.state = .active → (process.session target).state = .active) →
      UseInv prims { process with
        session := update process.session target next } := by
    intro next hnext hactive
    simpa using hinv.useSession [] (by simp) (by simpa using hnext) hactive (by simp)
  generalize sessionOpen aead (process.session target) args now = result at hview ⊢
  cases hview with
  | misuse => exact huse _ hkeyed id
  | ended hactive hstatus hstate =>
    exact huse _ (sessionKeyed_of_inactive hkeyed.sendBound
      (fun hempty => absurd hempty hstate.2) hstate.1) fun hafter => absurd hafter hstate.1
  | accepted hactive =>
    exact huse _ ⟨hkeyed.sendBound, hkeyed.blank, hkeyed.limits, hkeyed.fed, hkeyed.keys,
      hkeyed.above⟩ fun _ => hactive

theorem useInv_wipe (target : Ses) :
    UseInv prims
      { process with
        session := update process.session target (sessionWipe (process.session target)) } := by
  have hover : (sessionWipe (process.session target)).state ≠ .active := nofun
  simpa using hinv.useSession [] (by simp) (sessionKeyed_of_inactive (Nat.zero_le _)
    (fun _ => rfl) hover) (absurd · hover) (by simp)

end

end Sessions

section Runs

theorem useInv_start : UseInv prims (start : Process Ctx Ses) where
  ctxKeyed := nofun
  ctxDistinct := nofun
  unfed := nofun
  fedNodup := List.nodup_nil
  fedBound := nofun
  sessionKeyed := fun _ => sessionKeyed_of_inactive (Nat.zero_le _) (fun _ => rfl) nofun
  sessionDistinct := nofun
  useKeyed := nofun
  useDistinct := List.Pairwise.nil

/-- Two encryptions under one key were made with keys of one derivation. -/
theorem commit_eq_of_key (hcommits : CommitInv prims process) (hinv : UseInv prims process)
    (hideal : process.record.Ideal prims) {first second : NonceUse}
    (hfirst : first ∈ process.uses) (hsecond : second ∈ process.uses)
    (hkey : first.call.key = second.call.key) : first.commit = second.commit := by
  obtain ⟨commit, keys, ⟨hat, hkeys⟩, hfirstKey⟩ := (hinv.useKeyed first hfirst).key
  obtain ⟨commit', keys', ⟨hat', hkeys'⟩, hsecondKey⟩ := (hinv.useKeyed second hsecond).key
  rw [hfirstKey, hsecondKey] at hkey
  obtain ⟨hinputs, hrole⟩ := sideKey_injective hideal (List.mem_of_getElem? hat)
    (List.mem_of_getElem? hat') hkeys hkeys' hkey
  have hdigest := congrArg KdfInputs.thClientAuth hinputs
  have hone := List.pairwise_iff_getElem.mp hcommits.oneCommit
  obtain ⟨hlt, hget⟩ := List.getElem?_eq_some_iff.mp hat
  obtain ⟨hlt', hget'⟩ := List.getElem?_eq_some_iff.mp hat'
  rcases Nat.lt_trichotomy first.commit second.commit with hless | hsame | hmore
  · exact absurd (by rw [hget, hget']; exact hdigest)
      (hone _ _ hlt hlt' hless (by rw [hget, hget']; exact hrole))
  · exact hsame
  · exact absurd (by rw [hget, hget']; exact hdigest.symm)
      (hone _ _ hlt' hlt hmore (by rw [hget, hget']; exact hrole.symm))

/-- No two encryptions share a key and a nonce. -/
theorem nonces_distinct (hcommits : CommitInv prims process) (hinv : UseInv prims process)
    (hideal : process.record.Ideal prims) :
    process.uses.Pairwise fun first second =>
      ¬ (first.call.key = second.call.key ∧ first.call.nonce = second.call.nonce) := by
  refine hinv.useDistinct.imp_of_mem fun {first second} hfirst hsecond hseq => ?_
  rintro ⟨hkey, hnonce⟩
  have hfirstUse := hinv.useKeyed first hfirst
  have hsecondUse := hinv.useKeyed second hsecond
  have hfirstBound := hfirstUse.bound
  have hsecondBound := hsecondUse.bound
  rw [hfirstUse.nonce, hsecondUse.nonce] at hnonce
  exact hseq (commit_eq_of_key hcommits hinv hideal hfirst hsecond hkey)
    (buildNonce_injective (by omega) (by omega) hnonce)

/-- The two keys of a derivation differ. -/
theorem directions_distinct (hideal : process.record.Ideal prims) {commit : KeyCommit}
    (hnumbered : process.record.Numbered prims number commit keys) (role : HandshakeRole) :
    sideKey keys role ≠ sideKey keys role.other := by
  intro hsame
  have hmem := List.mem_of_getElem? hnumbered.1
  have hrole := (sideKey_injective hideal hmem hmem hnumbered.2 hnumbered.2 hsame).2
  exact role.other_ne hrole.symm

variable [DecidableEq Ctx] [DecidableEq Ses] {event : ProcessEvent Ctx Ses}

theorem useInv_step (hinv : UseInv prims process) :
    UseInv prims ((machine Ctx Ses prims).step process event) := by
  cases event with
  | call handle call => exact useInv_call hinv handle call
  | sessionInit target source env limits now ledgerNow =>
    exact useInv_initSession hinv target source env limits now ledgerNow
  | sessionWipe target => exact useInv_wipe hinv target
  | sessionSeal target aead args now => exact useInv_seal hinv target aead args now
  | sessionOpen target aead args now => exact useInv_open hinv target aead args now
  | ledgerInit | ledgerCall => exact { hinv with }

/-- Only `session_wipe` sets a sequence counter back. -/
theorem sendSeq_le_step (hinv : UseInv prims process) (hwipe : event ≠ .sessionWipe target) :
    (process.session target).sendSeq ≤
      (((machine Ctx Ses prims).step process event).session target).sendSeq := by
  have hupdate : ∀ other next, (process.session other).sendSeq ≤ next.sendSeq →
      (process.session target).sendSeq ≤
        (update process.session other next target).sendSeq := fun other next hle =>
    (forall_update_iff process.session fun which (after : Session) =>
      (process.session which).sendSeq ≤ after.sendSeq).mpr ⟨hle, fun _ _ => Nat.le_refl _⟩ target
  cases event with
  | call | ledgerInit | ledgerCall => exact Nat.le_refl _
  | sessionWipe other =>
    have hother : target ≠ other := fun hsame => hwipe (by rw [hsame])
    simp [machine, update_of_ne hother]
  | sessionInit other source env limits now ledgerNow =>
    refine hupdate other _ ?_
    have hview := sessionInitFromHandshake_view env (process.session other) (process.ctx source)
      (process.ledger ((process.ctx source).pending.getD 0)) limits now ledgerNow
    generalize sessionInitFromHandshake env (process.session other) (process.ctx source)
      (process.ledger ((process.ctx source).pending.getD 0)) limits now ledgerNow = result
      at hview ⊢
    cases hview with
    | refused => exact Nat.le_refl _
    | created hempty =>
      rw [(hinv.sessionKeyed other).blank hempty]
      exact Nat.zero_le _
  | sessionSeal other aead args now =>
    refine hupdate other _ ?_
    have houtcome := sessionSeal_outcome aead (process.session other) args now
    generalize sessionSeal aead (process.session other) args now = result at houtcome ⊢
    generalize encryptedBy aead (process.session other) args now = entries at houtcome
    cases houtcome with
    | refused | expired => exact Nat.le_refl _
    | failed hactive hseq | sealed hactive hseq =>
      obtain ⟨hreserved, -⟩ := hinv.reserve hactive hseq
      change _ ≤ (process.session other).reserved.sendSeq
      omega
  | sessionOpen other aead args now =>
    refine hupdate other _ ?_
    have hview := sessionOpen_view aead (process.session other) args now
    generalize sessionOpen aead (process.session other) args now = result at hview ⊢
    cases hview with
    | misuse | ended | accepted => exact Nat.le_refl _

variable {events : List (ProcessEvent Ctx Ses)}

theorem commitInv_run (hrun : Run (machine Ctx Ses prims) .start events process)
    (hideal : process.record.Ideal prims) : CommitInv prims process := by
  have hbefore : ∀ state event, (machine Ctx Ses prims).allowed state event →
      ((machine Ctx Ses prims).step state event).record.Ideal prims →
      state.record.Ideal prims := by
    intro state event _ hlater
    cases event with
    | call => exact hlater.of_append
    | _ => exact hlater
  exact Run.invariant_of_final (fun state => state.record.Ideal prims) (CommitInv prims)
    hbefore (fun _ _ hlater hinv hallowed => commitInv_step hlater hinv hallowed) hrun
    commitInv_start hideal

theorem useInv_run (hrun : Run (machine Ctx Ses prims) .start events process) :
    UseInv prims process :=
  hrun.invariant (fun _ _ hinv _ => useInv_step hinv) useInv_start

/-- In every run of a process, no two calls of the AEAD encryption share key and nonce. A
derivation feeds at most one session, the two directions of a context and of a session have
different keys, no sequence number is used twice under a derivation, and the counters stay
far below their width and are set back by a wipe only. -/
theorem no_nonce_reuse {events : List (ProcessEvent Ctx Ses)}
    (hrun : Run (machine Ctx Ses prims) .start events process)
    (hideal : process.record.Ideal prims) :
    (process.uses.Pairwise fun first second =>
        ¬ (first.call.key = second.call.key ∧ first.call.nonce = second.call.nonce)) ∧
      process.fed.Nodup ∧
      (∀ handle keys, (process.ctx handle).keyAt = some keys → keys.c2s ≠ keys.s2c) ∧
      (∀ target, (process.session target).state = .active →
        (process.session target).sendKey ≠ (process.session target).recvKey) ∧
      (process.uses.Pairwise fun first second =>
        first.commit = second.commit → first.seq ≠ second.seq) ∧
      ∀ target, (process.session target).sendSeq ≤ 2 ^ 33 ∧
        ∀ event, event ≠ .sessionWipe target →
          (process.session target).sendSeq ≤
            (((machine Ctx Ses prims).step process event).session target).sendSeq := by
  have hcommits := commitInv_run hrun hideal
  have hinv := useInv_run hrun
  refine ⟨nonces_distinct hcommits hinv hideal, hinv.fedNodup, ?_, ?_, hinv.useDistinct, ?_⟩
  · intro handle keys hkeys
    simp only [keyAt, Option.ite_none_right_eq_some] at hkeys
    obtain ⟨commit, hnumbered, -⟩ := (hinv.ctxKeyed handle hkeys.1.2).keys keys hkeys.2
    exact directions_distinct hideal hnumbered .initiator
  · intro target hactive
    obtain ⟨commit, keys, hnumbered, hblock⟩ := (hinv.sessionKeyed target).keys hactive
    simpa [Session.sendKey, Session.recvKey, hblock] using
      directions_distinct hideal hnumbered commit.role
  · exact fun target => ⟨(hinv.sessionKeyed target).sendBound,
      fun event hwipe => sendSeq_le_step hinv hwipe⟩

end Runs

/-! ## A process with one handshake -/

/-- Both parties run a handshake in one process and each makes a session of it. -/
def sampleEvents : List (ProcessEvent HandshakeRole HandshakeRole) :=
  [.ledgerInit 0 true 1 100,
    .call .initiator (.initiatorInit (sampleEnv 1) [1] (sampleKeypair 1) true [2]),
    .call .responder (.responderInit (sampleEnv 2) [2] (sampleKeypair 2) true false 0),
    .call .initiator (.createClientHello (sampleEnv 1) ⟨true, 2000⟩),
    .call .responder (.acceptClientHello (sampleEnv 2) (some sampleClientHello.bytes)),
    .call .responder (.createServerHello (sampleEnv 2) ⟨true, 5000⟩),
    .call .initiator (.verifyServerHello (sampleEnv 1) (some sampleServerHelloBytes)),
    .call .initiator (.createClientAuth (sampleEnv 1) ⟨true, 5000⟩),
    .call .initiator (.initiatorFinish (sampleEnv 1)),
    .call .responder (.verifyClientAuth (sampleEnv 2) (some sampleClientAuthBytes)),
    .call .responder .responderFinish,
    .sessionInit .initiator .initiator (sampleEnv 1).toCallEnv none 3 3,
    .sessionInit .responder .responder (sampleEnv 2).toCallEnv none 3 3]

/-- Each session seals once. -/
def sampleSeals : List (ProcessEvent HandshakeRole HandshakeRole) :=
  [.sessionSeal .initiator (recallAead []) ⟨1, [7], 10000, 1000, true⟩ 4,
    .sessionSeal .initiator (recallAead []) ⟨1, [8], 10000, 1000, true⟩ 4,
    .sessionSeal .responder (recallAead []) ⟨1, [9], 10000, 1000, true⟩ 4]

/-- The process after both. -/
def sampleProcess : Process HandshakeRole HandshakeRole :=
  (sampleEvents ++ sampleSeals).foldl (machine HandshakeRole HandshakeRole .sample).step .start

theorem run_sampleProcess :
    Run (machine HandshakeRole HandshakeRole .sample) .start
      (sampleEvents ++ sampleSeals) sampleProcess := by
  refine Run.of_allowed fun state event hevent => ?_
  cases event with
  | ledgerCall => simp [sampleEvents, sampleSeals] at hevent
  | _ => trivial

/-- The stand-ins meet the assumptions on everything this process records. -/
theorem ideal_sampleProcess : sampleProcess.record.Ideal .sample where
  fresh := by decide +kernel
  base := fun first _ second _ hbase => Option.some.inj hbase
  sha256 := by
    have hpairs : ∀ first ∈ sampleProcess.record.transcripts,
        ∀ second ∈ sampleProcess.record.transcripts, first.hashed = second.hashed := by
      decide +kernel
    exact fun first hfirst second hsecond _ => hpairs first hfirst second hsecond
  hkdf := by
    have hinputs : ∀ first ∈ sampleProcess.record.commits,
        ∀ second ∈ sampleProcess.record.commits, first.inputs = second.inputs ∧
          kexDeriveSessionKeyV2 .sample first.inputs .c2s ≠
            kexDeriveSessionKeyV2 .sample first.inputs .s2c := by
      decide +kernel
    intro first hfirst second hsecond direction other call call' key hcall hcall' hkey hkey'
    obtain ⟨hsame, hdiffer⟩ := hinputs first hfirst second hsecond
    simp only [kexDeriveSessionKeyV2] at hdiffer
    cases direction <;> cases other <;> simp_all

/-- Both ends of a handshake seal under their own keys. -/
theorem no_nonce_reuse_sample :
    sampleProcess.uses.length = 3 ∧ sampleProcess.uses.Pairwise fun first second =>
        ¬ (first.call.key = second.call.key ∧ first.call.nonce = second.call.nonce) :=
  ⟨by decide +kernel, (no_nonce_reuse run_sampleProcess ideal_sampleProcess).1⟩

end MldsaAuth.Protocol
