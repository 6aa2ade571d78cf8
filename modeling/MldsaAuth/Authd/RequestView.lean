/-
# What a request of the local API can do

A handler runs at most a few operations of the store and answers. Whatever the request,
wherever a statement fails and whatever the answer, the tables are left as they were or
changed by one of the successes below; and the answer reports an effect only together
with the change that makes it true. Later files know the handlers by this view alone.
-/

import MldsaAuth.Authd.FrameView
import MldsaAuth.Authd.LocalApi

namespace MldsaAuth.Authd

open Foundation Crypto Foundation.Program Tables

/-! ## Programs of the local API -/

variable {code : ApiErr} {condition : Bool} {report : StoreStatus → ApiErr}

section Rules

variable {tables : Tables} {Value Next : Type} {last : Except Refusal Next → Tables → Prop}

theorem ends_refuse (hgoal : last (.error { code := code }) tables) :
    Ends tables last (refuse code) := .fail hgoal

theorem ends_check_bind {next : Unit → Api Next} (hfail : last (.error { code := code }) tables)
    (hnext : condition = true → Ends tables last (next ⟨⟩)) :
    Ends tables last (check condition code >>= next) := .require_bind hfail hnext

theorem ends_check {goal : Except Refusal Unit → Tables → Prop}
    (hfail : goal (.error { code := code }) tables) (hgoal : goal (.ok ⟨⟩) tables) :
    Ends tables goal (check condition code) := by
  cases condition with
  | true => exact .pure hgoal
  | false => exact .fail hfail

variable {next : Value → Api Next}

theorem ends_field_bind {found : Option Value} (hfail : last (.error { code := .malformed }) tables)
    (hnext : ∀ value, found = some value → Ends tables last (next value)) :
    Ends tables last (field found >>= next) := by
  cases found with
  | none => exact ends_refuse hfail
  | some value => exact hnext value rfl

variable {program : StoreProgram Value} {goal : Value → Tables → Prop}

/-- A call of the store, of which every failure is an answer. -/
theorem ends_call_bind (hprogram : Atomically tables goal program)
    (hfail : ∀ code, last (.error { code := code }) tables)
    (hnext : ∀ value after, goal value after → Ends after last (next value)) :
    Ends tables last (call program report >>= next) :=
  .mapStatus_bind hprogram (fun _ _ hkept => hkept ▸ hfail _) hnext

/-- A call of the store whose outcome is looked at. -/
theorem ends_callAttempt_bind {reached : Except StoreStatus Value → Tables → Prop}
    {next : Except StoreStatus Value → Api Next} (hprogram : Ends tables reached program)
    (hnext : ∀ outcome after, reached outcome after → Ends after last (next outcome)) :
    Ends tables last (callAttempt program >>= next) := by
  have hattempt : Ends tables
      (fun outcome after => ∃ value, outcome = .ok value ∧ reached value after) program.attempt :=
    .intro fun conn htables =>
      ⟨⟨_, rfl, hprogram.reached conn htables⟩, hprogram.saved conn htables⟩
  refine .mapStatus_bind hattempt ?_ ?_
  · rintro _ _ ⟨_, ⟨⟩, -⟩
  · rintro value after ⟨_, ⟨⟩, hreached⟩
    exact hnext value after hreached

/-- An attempt at an operation that is applied as a whole or not at all. -/
theorem ends_callAttempt_atomically
    {next : Except StoreStatus Value → Api Next} (hprogram : Atomically tables goal program)
    (hfail : ∀ status, Ends tables last (next (.error status)))
    (hnext : ∀ value after, goal value after → Ends after last (next (.ok value))) :
    Ends tables last (callAttempt program >>= next) := by
  refine ends_callAttempt_bind hprogram fun outcome after hreached => ?_
  cases outcome with
  | ok value => exact hnext value after hreached
  | error status => exact (show after = tables from hreached) ▸ hfail status

/-- A call that only reads. -/
theorem ends_callReads_bind
    (hreads : Reads program) (hfail : ∀ code, last (.error { code := code }) tables)
    (hnext : ∀ value, Ends tables last (next value)) :
    Ends tables last (call program report >>= next) := by
  refine ends_call_bind (hreads tables) hfail ?_
  rintro value after rfl
  exact hnext value

end Rules

/-! ## The view -/

/-- What an answer reports. -/
def requestEffect : Except Refusal Reply → Option ApiEffect
  | .ok reply => reply.effect
  | .error _ => none

variable {prims : DaemonPrimitives} {config : AuthdConfig} {env : LocalEnv} {nowUnix : ℤ}

namespace Tables

variable (prims)

/-- The row of a token that was minted. -/
def mintedRow (minted : Minted) : TokenRow where
  tokenHash := prims.sha256 minted.token.toList
  userId := minted.userId
  handle := minted.handle
  handshakeId := none
  issuedAt := minted.issuedAt
  expiresAt := minted.expiresAt
  idleExpiresAt := minted.issuedAt + tokensIdleTtlS minted.role
  lastVerifiedAt := none

/-- A good login code was marked used. -/
structure CodeUsed (codeHash : StoreHash) (state : Bytes) (now : ℤ)
    (row : LoginCodeRow) (before after : Tables) : Prop where
  found : (before.loginCodes.find? fun row => row.codeHash = codeHash) = some row
  unused : row.usedAt = none
  fresh : now < row.expiresAt
  state : row.stateHash = prims.sha256 state
  written : after = before.useLoginCode codeHash now

/-- A token was minted for a good login code. The role is that of the user, or, if that lookup
failed, the role of an ordinary user. -/
structure TokenMinted (env : LocalEnv) (now : ℤ) (minted : Minted)
    (before after : Tables) : Prop where
  code : ∃ row used, CodeUsed prims minted.codeHash minted.state now row before used ∧
    minted.userId = row.userId ∧ minted.handle = row.handle ∧
    used.insertToken (mintedRow prims minted) = some after
  role : minted.role = .user ∨
    ∃ user, before.userOf minted.userId = some user ∧ minted.role = user.role
  ids : (idOk minted.userId && idOk minted.handle) = true
  token : minted.token = env.token
  issuedAt : minted.issuedAt = now
  expiresAt : minted.expiresAt = now + tokensTtlS minted.role

/-- A token was found good by both calls of `h_verify`. -/
structure TokenPassed (now : ℤ) (verified : Verified) (before after : Tables) : Prop where
  passed : ∃ first last middle,
    TokenVerified (prims.sha256 verified.token.toList) now 0 before (.ok, some first) middle ∧
    TokenVerified (prims.sha256 verified.token.toList) now (tokensIdleTtlS first.role) middle
      (.ok, some last) after ∧
    verified.userId = last.userId ∧ verified.handle = last.handle ∧ verified.role = last.role
  at_ : verified.at_ = now

variable {prims}

end Tables

section View

variable (prims env nowUnix) (before : Tables)

/-- Every outcome of a request: what is reported, and the tables it is reported with. -/
inductive RequestView : Option ApiEffect → Tables → Prop
  | unchanged : RequestView none before
  | enrolled {enrollment : Enrollment} {role : StoreRole} {idempotent : Bool} {after : Tables}
      (henrolled : EnrolledEx prims enrollment role env.storeNow env.storeLater before
        idempotent after) : RequestView none after
  | redeemed {ticketHash : StoreHash} {userId handle : Bytes} {pk : SigPublicKey}
      {label : Option Bytes} {after : Tables}
      (hredeemed : TicketRedeemed prims ticketHash userId handle pk label nowUnix before after) :
      RequestView none after
  /-- the code is gone, and no token came of it -/
  | codeLost {codeHash : StoreHash} {state : Bytes} {row : LoginCodeRow} {after : Tables}
      (hused : CodeUsed prims codeHash state nowUnix row before after) : RequestView none after
  | minted {minted : Minted} {after : Tables}
      (hminted : TokenMinted prims env nowUnix minted before after) :
      RequestView (some (.tokenMinted minted)) after
  /-- the second call of `h_verify` failed, or found the token bad -/
  | touched {tokenHash : StoreHash} {info : TokenInfo} {after : Tables}
      (htouched : TokenVerified tokenHash nowUnix 0 before (.ok, some info) after) :
      RequestView none after
  | verified {verified : Verified} {after : Tables}
      (hpassed : TokenPassed prims nowUnix verified before after) :
      RequestView (some (.tokenVerified verified)) after
  | tokenDeleted {token : Blob 32} :
      RequestView (some (.tokenDeleted token))
        (before.deleteTokens fun row => row.tokenHash = prims.sha256 token.toList)
  | handleTokensDeleted {userId handle : Bytes} :
      RequestView (some (.handleTokensDeleted userId handle))
        (before.deleteTokens fun row => row.handle = handle && row.userId = userId)
  | userTokensDeleted {userId : Bytes} :
      RequestView (some (.userTokensDeleted userId))
        (before.deleteTokens fun row => row.userId = userId)
  | deviceRevoked {handle : Bytes} {reason : Option Bytes} {after : Tables}
      (hrevoked : DeviceRevoked prims handle (ascii "local-api") reason env.storeNow before after) :
      RequestView (some (.deviceRevoked handle)) after
  | userDisabled {userId : Bytes} {reason : Option Bytes} {after : Tables}
      (hset : StatusSet prims userId .disabled (ascii "local-api") reason true
        (ascii "user-disable") env.storeNow before after) :
      RequestView (some (.userDisabled userId)) after
  | userEnabled {userId : Bytes} {after : Tables}
      (hset : StatusSet prims userId .active (ascii "local-api") none false
        (ascii "user-enable") env.storeNow before after) :
      RequestView (some (.userEnabled userId)) after
  | codesReplaced {userId : Bytes} {pwhashStrs : List Bytes} {after : Tables}
      (hreplaced : CodesReplaced prims userId pwhashStrs nowUnix before after) :
      RequestView none after
  | codeSpent {codeId : ℕ} {userId : Bytes} {ticketHash : StoreHash} {expiresAt : ℤ}
      {revokeAll : Bool} {after : Tables}
      (hspent : CodeSpent prims codeId userId ticketHash nowUnix expiresAt revokeAll before after) :
      RequestView (if revokeAll then some (.devicesRevoked userId) else none) after
  | failureNoted {userId : Bytes} {lockSeconds : ℤ} {locked : Bool} {after : Tables}
      (hnoted : FailureNoted prims userId nowUnix lockSeconds before locked after) :
      RequestView none after

/-- What a request reports, with the tables it ends in, is one of the outcomes. -/
def Answers (outcome : Except Refusal Reply) (after : Tables) : Prop :=
  RequestView prims env nowUnix before (requestEffect outcome) after

/-- The same, and no token is minted. -/
def Unminted (outcome : Except Refusal Reply) (after : Tables) : Prop :=
  Answers prims env nowUnix before outcome after ∧
    ∀ minted, requestEffect outcome ≠ some (.tokenMinted minted)

/-- A handler ends in one of the outcomes, and mints no token. -/
abbrev MintsNone (handler : Api Reply) : Prop :=
  Ends before (Unminted prims env nowUnix before) handler

end View

variable {role : StoreRole} {given : EnrollRequest} {userId line : Bytes} {refusal : Refusal}
  {handle : Bytes} {entry : Bytes × Api Reply}

section Handlers

variable {before : Tables} {request : Request} {isAdmin : Bool} {nowMs : ℕ}

theorem answers_refusal : Answers prims env nowUnix before (.error refusal) before := .unchanged

theorem unminted_refusal : Unminted prims env nowUnix before (.error refusal) before :=
  ⟨.unchanged, nofun⟩

section Rules

variable {Value : Type} {next : Value → Api Reply} {program : StoreProgram Value}

theorem mintsNone_refuse : MintsNone prims env nowUnix before (refuse code) :=
  ends_refuse unminted_refusal

theorem mintsNone_check {next : Unit → Api Reply}
    (hnext : condition = true → MintsNone prims env nowUnix before (next ⟨⟩)) :
    MintsNone prims env nowUnix before (check condition code >>= next) :=
  ends_check_bind unminted_refusal hnext

theorem mintsNone_field {found : Option Value}
    (hnext : ∀ value, MintsNone prims env nowUnix before (next value)) :
    MintsNone prims env nowUnix before (field found >>= next) :=
  ends_field_bind unminted_refusal fun value _ => hnext value

theorem mintsNone_call {goal : Value → Tables → Prop} (hprogram : Atomically before goal program)
    (hnext : ∀ value after, goal value after →
      Ends after (Unminted prims env nowUnix before) (next value)) :
    MintsNone prims env nowUnix before (call program report >>= next) :=
  ends_call_bind hprogram (fun _ => unminted_refusal) hnext

theorem mintsNone_reads (hreads : Reads program)
    (hnext : ∀ value, MintsNone prims env nowUnix before (next value)) :
    MintsNone prims env nowUnix before (call program report >>= next) :=
  ends_callReads_bind hreads (fun _ => unminted_refusal) hnext

end Rules

theorem ends_hPing : MintsNone prims env nowUnix before (hPing config nowMs request) :=
  mintsNone_check fun _ => .pure ⟨.unchanged, nofun⟩

/-! ## Enrollment -/

theorem ends_refuseConflict {pk : SigPublicKey} :
    MintsNone prims env nowUnix before (refuseConflict handle pk) := by
  refine mintsNone_reads reads_storeHandleLastKey fun found => ?_
  split
  · exact mintsNone_refuse
  · exact mintsNone_refuse

theorem reads_storeGetUser : Reads (storeGetUser userId) :=
  fun _ => atomically_storeGetUser.mono fun _ _ hfound => hfound.1

theorem reads_storeLookupActive : Reads (storeLookupActive handle) :=
  fun _ => (atomically_storeLookupActive handle).mono fun _ _ hfound => hfound.1

theorem ends_enrollViaRecovery {ticket : Blob 32} :
    MintsNone prims env nowUnix before (enrollViaRecovery prims nowUnix role given ticket) := by
  refine mintsNone_reads reads_storeGetUser ?_
  rintro ⟨existingRole, status⟩
  refine mintsNone_check fun _ => mintsNone_check fun _ => ?_
  refine ends_callAttempt_atomically atomically_storeEnrollViaTicket ?_ ?_
  · intro status
    cases status with
    | errNotFound => exact mintsNone_refuse
    | errState => exact mintsNone_refuse
    | errConflict => exact ends_refuseConflict
    | _ => exact mintsNone_refuse
  · intro value after hredeemed
    exact .pure ⟨.redeemed hredeemed, nofun⟩

theorem ends_enrollAtSite :
    MintsNone prims env nowUnix before (enrollAtSite prims env role given) := by
  refine ends_callAttempt_atomically atomically_storeEnrollDeviceEx ?_ ?_
  · intro status
    cases status with
    | errConflict => exact ends_refuseConflict
    | _ => exact mintsNone_refuse
  · intro idempotent after henrolled
    exact .pure ⟨.enrolled henrolled, nofun⟩

theorem ends_enrollLookup :
    MintsNone prims env nowUnix before (enrollLookup prims env role given) := by
  refine ends_callAttempt_atomically (reads_storeLookupActive before) ?_ ?_
  · exact fun _ => ends_enrollAtSite
  rintro key after rfl
  dsimp only
  split
  · split
    · exact .pure ⟨.unchanged, nofun⟩
    · exact ends_enrollAtSite
  · exact mintsNone_refuse

/-- The second half of `enroll_common` with `via=site`. -/
theorem ends_enrollViaSite :
    MintsNone prims env nowUnix before (enrollViaSite prims env role given) := by
  refine ends_callAttempt_atomically (reads_storeGetUser before) ?_ ?_
  · intro status
    cases status with
    | errNotFound => exact ends_enrollLookup
    | _ => exact mintsNone_refuse
  · rintro ⟨existingRole, status⟩ after rfl
    exact mintsNone_check fun _ =>
      mintsNone_check fun _ => ends_enrollLookup

theorem ends_enrollCommon :
    MintsNone prims env nowUnix before (enrollCommon prims env nowUnix request role) := by
  refine mintsNone_check fun _ => ?_
  refine mintsNone_field fun userId => ?_
  refine mintsNone_field fun handle => ?_
  refine mintsNone_field fun pk => ?_
  refine mintsNone_field fun label => ?_
  refine mintsNone_field fun via => ?_
  dsimp only
  split
  · exact mintsNone_field fun ticket => ends_enrollViaRecovery
  · exact mintsNone_check fun _ => ends_enrollViaSite

/-! ## Login codes and tokens -/

theorem ends_exchangeToken {codeHash : StoreHash} {state : Bytes} {row : LoginCodeRow}
    {used : Tables} (hused : CodeUsed prims codeHash state nowUnix row before used)
    (hrole : role = .user ∨ ∃ user, before.userOf row.userId = some user ∧ role = user.role) :
    Ends used (Answers prims env nowUnix before)
      (exchangeToken prims env nowUnix codeHash state row.userId row.handle role) := by
  refine ends_call_bind (atomically_storeAddToken _) (fun _ => .codeLost hused) ?_
  rintro _ after ⟨hids, hinserted⟩
  exact .pure (.minted ⟨⟨row, used, hused, rfl, rfl, hinserted⟩, hrole, hids, rfl, rfl, rfl⟩)

theorem ends_hExchange :
    Ends before (Answers prims env nowUnix before) (hExchange prims env nowUnix request) := by
  refine ends_check_bind answers_refusal fun _ => ?_
  refine ends_field_bind answers_refusal fun code _ => ?_
  refine ends_field_bind answers_refusal fun state _ => ?_
  refine ends_call_bind (atomically_storeConsumeLoginCodeEx _ _ _) (fun _ => answers_refusal) ?_
  rintro ⟨verdict, userId, handle⟩ after hconsumed
  cases hconsumed with
  | refused hverdict =>
    cases verdict with
    | ok => exact absurd rfl hverdict
    | _ => exact ends_refuse answers_refusal
  | @consumed row hrow hunused hfresh hstate =>
    have hused : CodeUsed prims (prims.sha256 code.toList) state nowUnix row before
        (before.useLoginCode (prims.sha256 code.toList) nowUnix) :=
      ⟨hrow, hunused, hfresh, hstate, rfl⟩
    refine ends_callAttempt_atomically atomically_storeGetUser ?_ ?_
    · exact fun _ => ends_exchangeToken hused (.inl rfl)
    rintro _ reached ⟨rfl, user, huser, rfl⟩
    exact ends_exchangeToken hused (.inr ⟨user, huser, rfl⟩)

/-- A verdict that is not reported as good reports nothing. -/
theorem requestEffect_verifyReply {token : Blob 32} {verdict : TokenVerdict}
    {info : Option TokenInfo} (hverdict : verdict ≠ .ok) :
    ∃ code, verifyReply nowUnix token verdict info = refuse code := by
  unfold verifyReply
  cases verdict with
  | ok => exact absurd rfl hverdict
  | _ => exact ⟨_, rfl⟩

theorem ends_hVerify : MintsNone prims env nowUnix before (hVerify prims nowUnix request) := by
  refine mintsNone_check fun _ => ?_
  refine mintsNone_field fun token => ?_
  refine mintsNone_call atomically_storeVerifyToken ?_
  rintro ⟨verdict, info⟩ middle hfirst
  cases hfirst with
  | unknown => exact mintsNone_refuse
  | @refused join hjoin hverdict =>
    dsimp only
    split
    · rename_i hok _
      exact absurd hok hverdict
    obtain ⟨code, hcode⟩ := requestEffect_verifyReply hverdict
    rw [hcode]
    exact mintsNone_refuse
  | @slid join idle hjoin hverdict hidle =>
    have htouched : TokenVerified (prims.sha256 token.toList) nowUnix 0 before
        (.ok, some (join.info idle)) (before.slideToken (prims.sha256 token.toList) nowUnix idle) :=
      .slid hjoin hverdict hidle
    refine ends_callAttempt_atomically atomically_storeVerifyToken ?_ ?_
    · exact fun _ => ends_refuse ⟨.touched htouched, nofun⟩
    rintro ⟨verdict, info⟩ after hsecond
    dsimp only
    by_cases hok : verdict = .ok
    · subst hok
      obtain ⟨_, _, -, -, -, hinfo, -⟩ := hsecond.slid_of_ok rfl
      obtain rfl : info = _ := hinfo
      exact .pure ⟨.verified ⟨⟨_, _, _, htouched, hsecond, rfl, rfl, rfl⟩, rfl⟩, nofun⟩
    · obtain ⟨code, hcode⟩ := requestEffect_verifyReply hok
      rw [hcode]
      cases hsecond with
      | unknown | refused => exact ends_refuse ⟨.touched htouched, nofun⟩
      | slid => exact absurd rfl hok

theorem ends_hLogout : MintsNone prims env nowUnix before (hLogout prims request) := by
  refine mintsNone_check fun _ => ?_
  refine mintsNone_field fun token => ?_
  refine mintsNone_call atomically_storeDeleteToken ?_
  rintro deleted after rfl
  exact .pure ⟨.tokenDeleted, nofun⟩

theorem ends_hRevokeTokens : MintsNone prims env nowUnix before (hRevokeTokens request) := by
  refine mintsNone_check fun _ => ?_
  refine mintsNone_field fun userId => ?_
  split
  · refine mintsNone_field fun handle => ?_
    refine mintsNone_call atomically_storeDeleteTokensForHandle ?_
    rintro deleted after rfl
    exact .pure ⟨.handleTokensDeleted, nofun⟩
  · refine mintsNone_call atomically_storeDeleteTokensForUser ?_
    rintro deleted after rfl
    exact .pure ⟨.userTokensDeleted, nofun⟩

/-! ## Accounts -/

theorem ends_hRevokeDevice :
    MintsNone prims env nowUnix before (hRevokeDevice prims env request) := by
  refine mintsNone_check fun _ => ?_
  refine mintsNone_field fun handle => ?_
  refine mintsNone_field fun reason => ?_
  refine mintsNone_call atomically_storeRevokeDevice ?_
  exact fun _ after hrevoked => .pure ⟨.deviceRevoked hrevoked, nofun⟩

theorem ends_hDisableUser :
    MintsNone prims env nowUnix before (hDisableUser prims env request) := by
  refine mintsNone_check fun _ => ?_
  refine mintsNone_field fun userId => ?_
  refine mintsNone_field fun reason => ?_
  refine mintsNone_call atomically_storeSetUserStatus ?_
  exact fun _ after hset => .pure ⟨.userDisabled hset, nofun⟩

theorem ends_hEnableUser : MintsNone prims env nowUnix before (hEnableUser prims env request) := by
  refine mintsNone_check fun _ => ?_
  refine mintsNone_field fun userId => ?_
  refine mintsNone_call atomically_storeSetUserStatus ?_
  exact fun _ after hset => .pure ⟨.userEnabled hset, nofun⟩

/-! ## Lists -/

theorem ends_finishList {lines : List Bytes} :
    MintsNone prims env nowUnix before (finishList lines) :=
  mintsNone_check fun _ => .pure ⟨.unchanged, nofun⟩

theorem ends_hListDevices : MintsNone prims env nowUnix before (hListDevices request) := by
  refine mintsNone_check fun _ => ?_
  refine mintsNone_field fun userId => ?_
  exact mintsNone_reads reads_storeListDevices
    fun _ => ends_finishList

theorem ends_hListUsers : MintsNone prims env nowUnix before (hListUsers request) := by
  refine mintsNone_check fun _ => ?_
  exact mintsNone_reads reads_storeListUsers
    fun _ => ends_finishList

theorem ends_hAuditTail : MintsNone prims env nowUnix before (hAuditTail request) := by
  refine mintsNone_check fun _ => ?_
  refine mintsNone_field fun count => ?_
  refine mintsNone_check fun _ => ?_
  exact mintsNone_reads reads_storeAuditTail
    fun _ => ends_finishList

theorem ends_hBackup : MintsNone prims env nowUnix before (hBackup env request) := by
  refine mintsNone_check fun _ => ?_
  refine mintsNone_field fun path => ?_
  refine mintsNone_check fun _ => ?_
  exact mintsNone_check fun _ => .pure ⟨.unchanged, nofun⟩

/-! ## Recovery -/

theorem ends_recoveryUser :
    Ends before (fun _ after => after = before) (recoveryUser isAdmin userId) := by
  refine ends_callReads_bind reads_storeGetUser (fun _ => rfl) ?_
  rintro ⟨role, status⟩
  exact ends_check_bind rfl fun _ => ends_check rfl rfl

/-- What comes after the user of a recovery request has been looked at. -/
theorem ends_recoveryUser_bind {next : Unit → Api Reply}
    (hnext : MintsNone prims env nowUnix before (next ⟨⟩)) :
    MintsNone prims env nowUnix before (recoveryUser isAdmin userId >>= next) := by
  refine ends_recoveryUser.bind ?_ ?_
  · rintro refusal after rfl
    exact unminted_refusal
  rintro ⟨⟩ after rfl
  exact hnext

theorem ends_hRecoveryIssue :
    MintsNone prims env nowUnix before (hRecoveryIssue prims env nowUnix isAdmin request) := by
  refine mintsNone_check fun _ => ?_
  refine mintsNone_field fun userId => ?_
  refine mintsNone_field fun count => ?_
  refine mintsNone_check fun _ => ends_recoveryUser_bind ?_
  cases makeRecoveryCodes env count with
  | none => exact mintsNone_refuse
  | some =>
    refine mintsNone_call atomically_storeRecoveryReplace ?_
    exact fun _ after hreplaced => .pure ⟨.codesReplaced hreplaced, nofun⟩

theorem reads_recoveryFindMatch {typed : Bytes} : Reads (recoveryFindMatch prims userId typed) := by
  unfold recoveryFindMatch
  split
  · exact reads_pure
  intro tables
  refine Ends.bind (reads_storeListUnusedRecoveryCodes tables) (fun _ _ hkept => hkept) ?_
  rintro rows _ rfl
  exact Atomically.pure rfl

theorem ends_spendRecoveryCode {codeId tried : ℕ} {revokeAll : Bool} :
    MintsNone prims env nowUnix before
      (spendRecoveryCode prims config env nowUnix userId codeId revokeAll tried) := by
  refine mintsNone_call atomically_storeRecoveryConsumeEx ?_
  exact fun _ after hspent => .pure ⟨.codeSpent hspent, by cases revokeAll <;> nofun⟩

theorem ends_rejectRecoveryCode :
    MintsNone prims env nowUnix before (rejectRecoveryCode prims config nowUnix userId) := by
  refine ends_callAttempt_atomically atomically_storeRecoveryNoteFailure ?_ ?_
  · exact fun _ => mintsNone_refuse
  · exact fun locked after hnoted => ends_refuse ⟨.failureNoted hnoted, nofun⟩

theorem ends_hRecoveryUse :
    MintsNone prims env nowUnix before (hRecoveryUse prims config env nowUnix isAdmin request) := by
  refine mintsNone_check fun _ => ?_
  refine mintsNone_field fun userId => ?_
  refine mintsNone_field fun typed => ?_
  refine mintsNone_field fun revokeAll => ends_recoveryUser_bind ?_
  refine mintsNone_reads reads_storeRecoveryLockState ?_
  rintro ⟨locked, until_⟩
  refine mintsNone_check fun _ => ?_
  refine mintsNone_reads reads_recoveryFindMatch ?_
  rintro ⟨matched, tried⟩
  refine .mapStatus ?_
  have hkept : ∀ outcome after, Unminted prims env nowUnix before outcome after →
      Unminted prims env nowUnix before
        (outcome.mapError fun refusal => { refusal with kdfCalls := tried }) after := by
    intro outcome after hanswers
    cases outcome with
    | ok | error => exact hanswers
  cases matched with
  | none => exact ends_rejectRecoveryCode.mono hkept
  | some => exact ends_spendRecoveryCode.mono hkept

/-! ## Dispatch -/

/-- Every request but the exchange of a login code mints nothing. -/
theorem ends_siteTable (hentry : entry ∈ siteTable prims config env nowMs nowUnix isAdmin request) :
    entry = (ascii "EXCHANGE", hExchange prims env nowUnix request) ∨
      MintsNone prims env nowUnix before entry.2 := by
  simp only [siteTable, List.mem_cons, List.not_mem_nil, or_false] at hentry
  rcases hentry with rfl | rfl | rfl | rfl | rfl | rfl | rfl | rfl | rfl | rfl
  · exact .inr ends_hPing
  · exact .inr ends_enrollCommon
  · exact .inl rfl
  · exact .inr ends_hVerify
  · exact .inr ends_hLogout
  · exact .inr ends_hRevokeTokens
  · exact .inr ends_hRevokeDevice
  · exact .inr ends_hListDevices
  · exact .inr ends_hRecoveryIssue
  · exact .inr ends_hRecoveryUse

theorem ends_adminTable
    (hentry : entry ∈ adminTable prims config env nowMs nowUnix isAdmin request) :
    entry = (ascii "EXCHANGE", hExchange prims env nowUnix request) ∨
      MintsNone prims env nowUnix before entry.2 := by
  rcases List.mem_append.mp hentry with hsite | hadmin
  · exact ends_siteTable hsite
  simp only [List.mem_cons, List.not_mem_nil, or_false] at hadmin
  rcases hadmin with rfl | rfl | rfl | rfl | rfl | rfl
  · exact .inr ends_enrollCommon
  · exact .inr ends_hDisableUser
  · exact .inr ends_hEnableUser
  · exact .inr ends_hListUsers
  · exact .inr ends_hAuditTail
  · exact .inr ends_hBackup

/-- A line is handled by the exchange of a login code, or mints nothing. -/
theorem handleLine_cases :
    (∃ request, handleLine prims config env nowMs nowUnix isAdmin line =
        hExchange prims env nowUnix request) ∨
      MintsNone prims env nowUnix before
        (handleLine prims config env nowMs nowUnix isAdmin line) := by
  unfold handleLine
  split
  · exact .inr (mintsNone_refuse)
  rename_i request _
  unfold handleRequest
  dsimp only
  split
  · rename_i entry hfound
    have hmem := List.mem_of_find?_eq_some hfound
    have hcases : entry = (ascii "EXCHANGE", hExchange prims env nowUnix request) ∨
        MintsNone prims env nowUnix before entry.2 := by
      split at hmem
      · exact ends_adminTable hmem
      · exact ends_siteTable hmem
    refine hcases.imp_left ?_
    rintro rfl
    exact ⟨request, rfl⟩
  · exact .inr (mintsNone_refuse)

theorem ends_handleLine :
    Ends before (Answers prims env nowUnix before)
      (handleLine prims config env nowMs nowUnix isAdmin line) := by
  rcases handleLine_cases with ⟨request, hexchange⟩ | hends
  · rw [hexchange]
    exact ends_hExchange
  · exact hends.mono fun _ _ hunminted => hunminted.1

end Handlers

variable {shared : Shared} {isAdmin : Bool}

/-- What holds wherever the handling of a line ends holds of what is reported. -/
theorem localapiOnLine_of_ends (goal : Option ApiEffect → Tables → Prop) (hends :
      Ends shared.tables (fun outcome after => goal (requestEffect outcome) after) (handleLine
      prims config env shared.nowMs shared.nowUnix isAdmin line)) :
    goal (localapiOnLine prims config env isAdmin shared line).effect
      (localapiOnLine prims config env isAdmin shared line).shared.tables := by
  have hreached := hends.reached shared.store.conn rfl
  unfold localapiOnLine
  dsimp only
  generalize handleLine prims config env shared.nowMs shared.nowUnix isAdmin line
    shared.store.conn = handled at hreached ⊢
  obtain ⟨outcome, reached⟩ := handled
  cases outcome with
  | ok | error => exact hreached

/-- Every outcome of a line. -/
theorem localapiOnLine_view :
    RequestView prims env shared.nowUnix shared.tables
      (localapiOnLine prims config env isAdmin shared line).effect
      (localapiOnLine prims config env isAdmin shared line).shared.tables :=
  localapiOnLine_of_ends (RequestView prims env shared.nowUnix shared.tables) ends_handleLine

end MldsaAuth.Authd
