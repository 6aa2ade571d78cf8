/-
# What one failing statement does to an answer

A request is compared with itself: one statement fails, or none does. For most statements of
EXCHANGE and VERIFY the answer is then `internal`, or what it would have been. The exceptions
are the lookup of the role in an exchange, which makes an operator an ordinary user, and the
second call of a verification, which makes a live token an unknown one.
-/

import MldsaAuth.Authd.ExchangeFaults
import MldsaAuth.Authd.TokenSteps

namespace MldsaAuth.Authd

open Foundation Crypto Foundation.Program

variable {prims : DaemonPrimitives} {env : LocalEnv} {nowUnix : ℤ} {request : Request}
  {tables : Tables} {index : ℕ}

/-- A failure of one statement, after a number of others, is answered with `internal` or makes
no difference to the answer. -/
def Tolerates (program : Api Reply) (tables : Tables) (index : ℕ) : Prop :=
  (program ⟨tables, none, failingAt index⟩).1 = .error { code := .internal } ∨
    (program ⟨tables, none, failingAt index⟩).1 = (program ⟨tables, none, []⟩).1

variable {count : ℕ} {after : Tables}

/-- Statements that are not reached make no difference. -/
theorem tolerates_of_course {program : Api Reply} {outcome : Except Refusal Reply}
    (hcourse : Course tables none count outcome after program)
    (hfailing : index < count →
      (program ⟨tables, none, failingAt index⟩).1 = .error { code := .internal }) :
    Tolerates program tables index := by
  rcases Nat.lt_or_ge index count with hreached | hmissed
  · exact .inl (hfailing hreached)
  right
  rw [hcourse.clear _ (clear_failingAt.mpr hmissed), hcourse.clear _ clear_nil]

theorem failing_of_lt {Value : Type} {program : StoreProgram Value} {saved : Option Tables}
    {outcome : Except StoreStatus Value} (hcourse : Course tables saved count outcome after program)
    (hreached : index < count) :
    ∃ status, (program ⟨tables, saved, failingAt index⟩).1 = .error status :=
  hcourse.failing _ fun hclear => Nat.not_le.mpr hreached (clear_failingAt.mp hclear)

/-! ## Exchange -/

variable {faults : List Bool}

section Exchange

variable {code : Blob 32} {state : Bytes} {row : LoginCodeRow}

/-- A code that is not good is refused the same way, or nothing is known about it. -/
theorem tolerates_hExchange_refused (hasked : ExchangeAsked request code state)
    (hbad : ∀ row, ¬tables.CodeGood (prims.sha256 code.toList) (prims.sha256 state) nowUnix row) :
    Tolerates (hExchange prims env nowUnix request) tables index := by
  obtain ⟨refusal, hcourse⟩ :=
    @course_hExchange_refused prims env nowUnix request tables code state hasked hbad
  refine tolerates_of_course hcourse fun hreached => ?_
  obtain ⟨outcome, -, hconsume⟩ := course_storeConsumeLoginCodeEx_refused hbad
  obtain ⟨status, hstatus⟩ := failing_of_lt hconsume hreached
  exact (hExchange_unconsumed hasked hstatus).1

/-- Whether the lookup fails matters for operators only. -/
theorem roleSeen_eq_iff {userId : Bytes} :
    tables.roleSeen userId true = tables.roleSeen userId false ↔
      ¬∃ user, tables.userOf userId = some user ∧ user.role = .operator := by
  unfold Tables.roleSeen
  cases huser : tables.userOf userId with
  | none => simp
  | some user =>
    cases hrole : user.role with
    | operator => simp [hrole]
    | user => simp [hrole]

section

variable (hasked : ExchangeAsked request code state)

include hasked

section

variable (hgood : tables.CodeGood (prims.sha256 code.toList) (prims.sha256 state) nowUnix row)

include hgood

/-- A good code that a token can be added for is exchanged if nothing fails. -/
theorem hExchange_minted (hready : tables.MintReady prims env row) (hclear : Clear 4 faults)
    (hrest : Clear 3 (faults.drop 5)) :
    (hExchange prims env nowUnix request ⟨tables, none, faults⟩).1 =
      .ok (exchangeReply env (exchangeMinted env nowUnix (prims.sha256 code.toList) state
        row.userId row.handle (tables.roleSeen row.userId ((faults.drop 4).headD false)))) := by
  rw [hExchange_good hasked hgood (Bool.and_eq_true_iff.mp hready.ids).1 hclear,
    (course_exchangeToken hready.ids (insertToken_fresh hready)).clear _ hrest]

/-- Every statement but the lookup is answered with `internal` if it fails, and so is every
exchange for which no token can be added. -/
theorem internal_hExchange
    (hfails : index < 4 ∨ ¬tables.MintReady prims env row ∨ 4 < index ∧ index < 8) :
    (hExchange prims env nowUnix request ⟨tables, none, failingAt index⟩).1 =
      .error { code := .internal } := by
  rcases Nat.lt_or_ge index 4 with hearly | hlate
  · obtain ⟨status, hstatus⟩ := failing_of_lt (course_storeConsumeLoginCodeEx hgood) hearly
    exact (hExchange_unconsumed hasked hstatus).1
  refine (hExchange_half hasked hgood (clear_failingAt.mpr hlate) ?_).1
  rintro ⟨hready, hrest⟩
  rcases hfails with hearly | hunready | ⟨hafter, hbefore⟩
  · omega
  · exact hunready hready
  · rw [drop_failingAt (by omega), clear_failingAt] at hrest
    omega

/-- The exchange of a good code tolerates every failure but that of the lookup, and that one
unless the user is an operator who would have been given a token. -/
theorem tolerates_hExchange_good :
    Tolerates (hExchange prims env nowUnix request) tables index ↔
      ¬(index = 4 ∧ tables.MintReady prims env row ∧
        ∃ user, tables.userOf row.userId = some user ∧ user.role = .operator) := by
  by_cases hfails : index < 4 ∨ ¬tables.MintReady prims env row ∨ 4 < index ∧ index < 8
  · refine iff_of_true (.inl (internal_hExchange hasked hgood hfails)) ?_
    rintro ⟨hindex, hready, -⟩
    rcases hfails with hearly | hunready | ⟨hafter, -⟩
    · omega
    · exact hunready hready
    · omega
  · have hready : tables.MintReady prims env row := by
      by_contra hunready
      exact hfails (.inr (.inl hunready))
    have hrest : index = 4 ∨ 8 ≤ index := by omega
    have hplain := hExchange_minted hasked hgood hready clear_nil clear_nil
    unfold Tolerates
    rw [hplain]
    rcases hrest with rfl | hlate
    · rw [hExchange_minted hasked hgood hready (clear_failingAt.mpr le_rfl) clear_nil]
      refine ⟨?_, fun hother => .inr ?_⟩
      · rintro (herror | hsame) ⟨-, -, hoperator⟩
        · cases herror
        · have heffect := Option.some.inj (congrArg Reply.effect (Except.ok.inj hsame))
          have hrole := congrArg Minted.role (ApiEffect.tokenMinted.inj heffect)
          exact roleSeen_eq_iff.mp hrole hoperator
      · have hrole := roleSeen_eq_iff.mpr fun hoperator => hother ⟨rfl, hready, hoperator⟩
        exact congrArg (fun role => Except.ok (exchangeReply env (exchangeMinted env nowUnix
          (prims.sha256 code.toList) state row.userId row.handle role))) hrole
    · have hsame := hExchange_minted hasked hgood hready
        (clear_failingAt.mpr (by omega : 4 ≤ index))
        (by rw [drop_failingAt (by omega), clear_failingAt]; omega)
      rw [drop_failingAt (by omega), headD_failingAt, decide_eq_false (by omega)] at hsame
      refine iff_of_true (.inr hsame) ?_
      rintro ⟨hindex, -⟩
      omega

end

end

/-- A token that the exchange of a login code would mint for an operator. -/
def MintsForOperator (prims : DaemonPrimitives) (env : LocalEnv) (nowUnix : ℤ) (request : Request)
    (tables : Tables) : Prop :=
  ∃ code state row, ExchangeAsked request code state ∧
    tables.CodeGood (prims.sha256 code.toList) (prims.sha256 state) nowUnix row ∧
    tables.MintReady prims env row ∧
    ∃ user, tables.userOf row.userId = some user ∧ user.role = .operator

theorem tolerates_hExchange_iff :
    Tolerates (hExchange prims env nowUnix request) tables index ↔
      ¬(index = 4 ∧ MintsForOperator prims env nowUnix request tables) := by
  by_cases hasked : ∃ code state, ExchangeAsked request code state
  · obtain ⟨code, state, hasked⟩ := hasked
    by_cases hgood : ∃ row, tables.CodeGood (prims.sha256 code.toList) (prims.sha256 state)
        nowUnix row
    · obtain ⟨row, hgood⟩ := hgood
      rw [tolerates_hExchange_good hasked hgood]
      refine not_congr (and_congr_right fun _ => ⟨?_, ?_⟩)
      · rintro ⟨hready, hoperator⟩
        exact ⟨code, state, row, hasked, hgood, hready, hoperator⟩
      rintro ⟨code', state', row', hasked', hgood', hready', hoperator'⟩
      obtain rfl := Option.some.inj (hasked.code.symm.trans hasked'.code)
      obtain rfl := Option.some.inj (hasked.state.symm.trans hasked'.state)
      obtain rfl := hgood.unique hgood'
      exact ⟨hready', hoperator'⟩
    · refine iff_of_true (tolerates_hExchange_refused hasked fun row hrow => hgood ⟨row, hrow⟩) ?_
      rintro ⟨-, code', state', row', hasked', hgood', -⟩
      obtain rfl := Option.some.inj (hasked.code.symm.trans hasked'.code)
      obtain rfl := Option.some.inj (hasked.state.symm.trans hasked'.state)
      exact hgood ⟨row', hgood'⟩
  · have hmalformed := @hExchange_malformed prims env nowUnix request
      fun code state hcode => hasked ⟨code, state, hcode⟩
    refine iff_of_true (.inr ?_) ?_
    · rw [hmalformed, hmalformed]
    rintro ⟨-, code', state', row', hasked', -⟩
    exact hasked ⟨code', state', hasked'⟩

end Exchange

/-! ## Verification -/

section Verify

variable {tokenHash : StoreHash} {now : ℤ} {join : TokenJoin}

/-- The end of the idle window after a verification. -/
def TokenJoin.slid (join : TokenJoin) (now : ℤ) (idleTtl : ℕ) : ℤ :=
  if 0 < idleTtl then min (now + idleTtl) join.token.expiresAt else join.token.idleExpiresAt

/-- A live token is read and its idle window slid, by two statements. -/
theorem course_storeVerifyToken {idleTtl : ℕ} {saved : Option Tables}
    (hjoin : tables.tokenJoin tokenHash = some join) (hlive : join.verdict now = .ok) :
    Course tables saved 2 (.ok (.ok, some (join.info (join.slid now idleTtl))))
      (tables.slideToken tokenHash now (join.slid now idleTtl))
      (storeVerifyToken tokenHash now idleTtl) := by
  refine .statement_bind ?_
  dsimp only
  rw [hjoin]
  dsimp only
  rw [if_pos hlive]
  exact .statement_bind (.pure _)

/-- Any other token is reported after one statement. -/
theorem course_storeVerifyToken_other {idleTtl : ℕ} {saved : Option Tables}
    (hother : ∀ join, tables.tokenJoin tokenHash = some join → join.verdict now ≠ .ok) :
    ∃ verdict info, verdict ≠ .ok ∧ Course tables saved 1 (.ok (verdict, info)) tables
      (storeVerifyToken tokenHash now idleTtl) := by
  cases hjoin : tables.tokenJoin tokenHash with
  | none =>
    refine ⟨.unknown, none, nofun, .statement_bind ?_⟩
    dsimp only
    rw [hjoin]
    exact .pure _
  | some join =>
    refine ⟨join.verdict now, some (join.info join.token.idleExpiresAt), hother join hjoin,
      .statement_bind ?_⟩
    dsimp only
    rw [hjoin]
    dsimp only
    rw [if_neg (hother join hjoin)]
    exact .pure _

/-- The fields of a VERIFY. -/
structure VerifyAsked (request : Request) (token : Blob 32) : Prop where
  keys : request.keysAreKnown [ascii "token"] = true
  token : request.getBlob (ascii "token") 64 32 = some token

theorem hVerify_malformed (hasked : ∀ token, ¬VerifyAsked request token)
    (conn : Connection Tables) :
    hVerify prims nowUnix request conn = (.error { code := .malformed }, conn) := by
  unfold hVerify
  cases hkeys : request.keysAreKnown [ascii "token"] with
  | false => rfl
  | true =>
    cases htoken : request.getBlob (ascii "token") 64 32 with
    | none => rfl
    | some token => exact absurd ⟨hkeys, htoken⟩ (hasked token)

/-- The reply to a token that was found good. -/
def verifiedReply (nowUnix : ℤ) (token : Blob 32) (info : TokenInfo) : Reply where
  text := ascii "OK " ++ tokenText info.userId info.handle info.role info.issuedAt info.expiresAt
  effect := some (.tokenVerified
    { token := token
      userId := info.userId
      handle := info.handle
      role := info.role
      at_ := nowUnix })

variable {token : Blob 32}

section

variable (hasked : VerifyAsked request token)

include hasked

/-- A verification calls the store, and once more if the token is good. -/
theorem hVerify_asked :
    ∃ next : TokenVerdict × Option TokenInfo → Api Reply,
      hVerify prims nowUnix request =
        (call (storeVerifyToken (prims.sha256 token.toList) nowUnix 0) (fun _ => .internal) >>=
          next) ∧
      (∀ verdict info, verdict ≠ .ok → ∃ code, next (verdict, info) = refuse code) ∧
      ∀ info, next (.ok, some info) =
        (callAttempt (storeVerifyToken (prims.sha256 token.toList) nowUnix
          (tokensIdleTtlS info.role)) >>= fun again =>
            match again with
            | .ok (verdict, info) => verifyReply nowUnix token verdict info
            | .error _ => refuse .unknown) := by
  unfold hVerify
  rw [hasked.keys, hasked.token]
  refine ⟨_, rfl, fun verdict info hverdict => ?_, fun info => rfl⟩
  cases verdict with
  | ok => exact absurd rfl hverdict
  | _ => exact ⟨_, rfl⟩

/-- A good token is verified by four statements; a failure of one of the last two is answered as
if the token were not known. -/
theorem hVerify_live (hjoin : tables.tokenJoin (prims.sha256 token.toList) = some join)
    (hlive : join.verdict nowUnix = .ok) (hclear : Clear 2 faults) :
    (hVerify prims nowUnix request ⟨tables, none, faults⟩).1 =
      if Clear 2 (faults.drop 2) then
        .ok (verifiedReply nowUnix token (join.info join.token.idleExpiresAt))
      else .error { code := .unknown } := by
  obtain ⟨next, hequation, -, hnext⟩ := @hVerify_asked prims nowUnix request token hasked
  have hfirst := (course_call (fun _ => .internal)
    (@course_storeVerifyToken tables _ nowUnix join 0 none hjoin hlive)).clear faults hclear
  have hagain := @course_storeVerifyToken
    (tables.slideToken (prims.sha256 token.toList) nowUnix (join.slid nowUnix 0)) _ nowUnix _
    (tokensIdleTtlS (join.info (join.slid nowUnix 0)).role) none (tokenJoin_slideToken hjoin)
    hlive
  rw [hequation, bind_of_ok hfirst, hnext, bind_of_ok (callAttempt_apply _ _)]
  by_cases hrest : Clear 2 (faults.drop 2)
  · rw [hagain.clear _ hrest, if_pos hrest]
    rfl
  obtain ⟨status, hstatus⟩ := hagain.failing _ hrest
  rw [hstatus, if_neg hrest]
  rfl

/-- A request verifies a good token. -/
def VerifiesLive (prims : DaemonPrimitives) (nowUnix : ℤ) (request : Request)
    (tables : Tables) : Prop :=
  ∃ token join, VerifyAsked request token ∧
    tables.tokenJoin (prims.sha256 token.toList) = some join ∧ join.verdict nowUnix = .ok

/-- A token that is not good is answered after one statement, and with `internal` if that
fails. -/
theorem tolerates_hVerify_other
    (hother : ∀ join, tables.tokenJoin (prims.sha256 token.toList) = some join →
      join.verdict nowUnix ≠ .ok) : Tolerates (hVerify prims nowUnix request) tables index := by
  obtain ⟨next, hequation, hrefuse, -⟩ := @hVerify_asked prims nowUnix request token hasked
  obtain ⟨verdict, info, hverdict, hcourse⟩ :=
    @course_storeVerifyToken_other _ _ nowUnix 0 none hother
  obtain ⟨code, hcode⟩ := hrefuse verdict info hverdict
  have hrest : Course tables none 0 (.error { code := code }) tables (next (verdict, info)) := by
    rw [hcode]
    exact .fail _
  rw [hequation]
  refine tolerates_of_course (.bind_last (course_call _ hcourse) hrest) fun hreached => ?_
  obtain ⟨status, hstatus⟩ := failing_of_lt hcourse hreached
  rw [bind_of_error (call_of_error hstatus)]

/-- The verification of a good token tolerates every failure but those of the second call. -/
theorem tolerates_hVerify_live (hjoin : tables.tokenJoin (prims.sha256 token.toList) = some join)
    (hlive : join.verdict nowUnix = .ok) :
    Tolerates (hVerify prims nowUnix request) tables index ↔ ¬(index = 2 ∨ index = 3) := by
  rcases Nat.lt_or_ge index 2 with hearly | hlate
  · obtain ⟨next, hequation, -⟩ := @hVerify_asked prims nowUnix request token hasked
    obtain ⟨status, hstatus⟩ := failing_of_lt
      (@course_storeVerifyToken tables _ nowUnix join 0 none hjoin hlive) hearly
    refine iff_of_true (.inl ?_) (by omega)
    rw [hequation, bind_of_error (call_of_error hstatus)]
  · have hfailing := hVerify_live hasked hjoin hlive (clear_failingAt.mpr hlate)
    have hplain := hVerify_live hasked hjoin hlive clear_nil
    rw [drop_failingAt hlate] at hfailing
    rw [List.drop_nil, if_pos clear_nil] at hplain
    unfold Tolerates
    rw [hfailing, hplain]
    by_cases hrest : 4 ≤ index
    · rw [if_pos (clear_failingAt.mpr (by omega))]
      exact iff_of_true (.inr rfl) (by omega)
    rw [if_neg (mt clear_failingAt.mp (by omega))]
    exact iff_of_false (by simp) (by omega)

end

theorem tolerates_hVerify_iff :
    Tolerates (hVerify prims nowUnix request) tables index ↔
      ¬((index = 2 ∨ index = 3) ∧ VerifiesLive prims nowUnix request tables) := by
  by_cases hasked : ∃ token, VerifyAsked request token
  · obtain ⟨token, hasked⟩ := hasked
    by_cases hlive : VerifiesLive prims nowUnix request tables
    · rw [and_iff_left hlive]
      obtain ⟨token', join, hasked', hjoin, hverdict⟩ := hlive
      exact tolerates_hVerify_live hasked' hjoin hverdict
    exact iff_of_true (tolerates_hVerify_other hasked fun join hjoin hverdict =>
        hlive ⟨token, join, hasked, hjoin, hverdict⟩)
      fun hboth => hlive hboth.2
  · have hmalformed := @hVerify_malformed prims nowUnix request
      fun token htoken => hasked ⟨token, htoken⟩
    refine iff_of_true (.inr ?_) ?_
    · rw [hmalformed, hmalformed]
    rintro ⟨-, token, -, htoken, -⟩
    exact hasked ⟨token, htoken⟩

end Verify

/-- One failing statement is answered with `internal` or changes nothing about the reply, except
where the lookup of an operator's role fails in an exchange, and where a statement of the second
call fails in the verification of a good token. -/
theorem failure_tolerated_iff (prims : DaemonPrimitives) (env : LocalEnv) (nowUnix : ℤ)
    (request : Request) (tables : Tables) (index : ℕ) :
    (Tolerates (hExchange prims env nowUnix request) tables index ↔
        ¬(index = 4 ∧ MintsForOperator prims env nowUnix request tables)) ∧
      (Tolerates (hVerify prims nowUnix request) tables index ↔
        ¬((index = 2 ∨ index = 3) ∧ VerifiesLive prims nowUnix request tables)) :=
  ⟨tolerates_hExchange_iff, tolerates_hVerify_iff⟩

/-- An operator has logged in. -/
def sampleOperator : Tables :=
  { sampleLoggedIn with users := [{ sampleUser with role := .operator }] }

/-- The operator's code is exchanged. -/
def sampleOperatorExchange : Api Reply :=
  hExchange .sample (sampleServe 0 9).line 1000 sampleExchangeRequest

/-- The tables afterwards, given the statements that fail. -/
def sampleAnswered (faults : List Bool) : Tables :=
  (sampleOperatorExchange ⟨sampleOperator, none, faults⟩).2.tables

/-- The operator's token is verified. -/
def sampleOperatorVerify : Api Reply :=
  hVerify .sample 1001
    { cmd := ascii "VERIFY"
      pairs := [(ascii "token", bin2hex (sampleServe 0 9).line.token.toList)] }

/-- The operator is given a token with the lifetime of a user's; and the live token is said to
be unknown. -/
theorem answer_changed_sampleOperator :
    ¬Tolerates sampleOperatorExchange sampleOperator 4 ∧
      (sampleAnswered []).tokens.map TokenRow.expiresAt = [1000 + tokensTtlS .operator] ∧
      (sampleAnswered (failingAt 4)).tokens.map TokenRow.expiresAt = [1000 + tokensTtlS .user] ∧
      ¬Tolerates sampleOperatorVerify (sampleAnswered []) 2 ∧
      (sampleOperatorVerify ⟨sampleAnswered [], none, failingAt 2⟩).1 =
        .error { code := .unknown } := by
  unfold Tolerates
  decide +kernel

end MldsaAuth.Authd
