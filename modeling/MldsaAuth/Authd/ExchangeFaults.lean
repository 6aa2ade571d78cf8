/-
# Exchange and verification where statements fail

EXCHANGE spends a login code in one transaction and stores the token in another, with a
lookup of the user's role between them whose failure goes unnoticed. VERIFY calls the store
twice and takes a failure of the second call for an unknown token. The courses of these
calls are followed statement by statement; the first theorem says exactly when an exchange
happens as a whole or not at all, and the second which failures of a single statement change
the answer into something other than `internal`.
-/

import MldsaAuth.Authd.Evloop
import MldsaAuth.Authd.RequestView
import MldsaAuth.Foundation.Course

namespace MldsaAuth.Authd

open Foundation Crypto Foundation.Program

variable {prims : DaemonPrimitives} {env : LocalEnv} {nowUnix : ℤ} {request : Request}
  {tables : Tables} {faults : List Bool}

/-! ## Courses of the store -/

/-- A login code that can be exchanged. -/
structure Tables.CodeGood (tables : Tables) (codeHash stateHash : StoreHash) (now : ℤ)
    (row : LoginCodeRow) : Prop where
  found : (tables.loginCodes.find? fun row => row.codeHash = codeHash) = some row
  fits : row.userId.length ≤ storeIdMax ∧ row.handle.length ≤ storeIdMax
  unused : row.usedAt = none
  fresh : now < row.expiresAt
  state : row.stateHash = stateHash

variable {codeHash stateHash : StoreHash} {now : ℤ} {row : LoginCodeRow}

theorem course_storeConsumeLoginCodeEx (hgood : tables.CodeGood codeHash stateHash now row) :
    Course tables none 4 (.ok (.ok, row.userId, row.handle)) (tables.useLoginCode codeHash now)
      (storeConsumeLoginCodeEx codeHash stateHash now) := by
  refine .transaction_commit (.statement_bind ?_)
  dsimp only
  rw [hgood.found]
  refine .require_bind (decide_eq_true hgood.fits.1) (.require_bind
    (decide_eq_true hgood.fits.2) ?_)
  rw [hgood.unused, if_neg (by decide), if_neg (not_le.mpr hgood.fresh),
    if_neg (not_not.mpr hgood.state)]
  exact .statement_bind (.pure _)

/-- A login code that is on record and not good is reported with a verdict, after the
transaction was opened and the code looked up. -/
theorem course_storeConsumeLoginCodeEx_verdict {verdict : CodeVerdict}
    (hfound : (tables.loginCodes.find? fun row => row.codeHash = codeHash) = some row)
    (hfits : row.userId.length ≤ storeIdMax ∧ row.handle.length ≤ storeIdMax) (hverdict :
      row.usedAt.isSome = true ∧ verdict = .used ∨ row.usedAt.isSome = false ∧ row.expiresAt ≤ now
      ∧ verdict = .expired ∨ row.usedAt.isSome = false ∧ now < row.expiresAt ∧ row.stateHash ≠
      stateHash ∧ verdict = .stateMismatch) :
    Course tables none 2 (.ok (verdict, row.userId, row.handle)) tables
      (storeConsumeLoginCodeEx codeHash stateHash now) := by
  refine .transaction_rollback tables (.statement_bind ?_)
  dsimp only
  rw [hfound]
  refine .require_bind (decide_eq_true hfits.1) (.require_bind (decide_eq_true hfits.2) ?_)
  rcases hverdict with ⟨hused, rfl⟩ | ⟨hunused, hexpired, rfl⟩ | ⟨hunused, hfresh, hstate, rfl⟩
  · rw [if_pos hused]
    exact .pure _
  · rw [hunused, if_neg Bool.false_ne_true, if_pos hexpired]
    exact .pure _
  · rw [hunused, if_neg Bool.false_ne_true, if_neg (not_le.mpr hfresh), if_pos hstate]
    exact .pure _

/-- A login code that cannot be exchanged is left as it is. -/
theorem course_storeConsumeLoginCodeEx_refused
    (hbad : ∀ row, ¬tables.CodeGood codeHash stateHash now row) :
    ∃ outcome, (∀ userId handle, outcome ≠ .ok (.ok, userId, handle)) ∧
      Course tables none 2 outcome tables (storeConsumeLoginCodeEx codeHash stateHash now) := by
  cases hfound : tables.loginCodes.find? fun row => row.codeHash = codeHash with
  | none =>
    refine ⟨.ok (.unknown, [], []), nofun, .transaction_rollback tables (.statement_bind ?_)⟩
    dsimp only
    rw [hfound]
    exact .pure _
  | some row =>
    by_cases hfits : row.userId.length ≤ storeIdMax ∧ row.handle.length ≤ storeIdMax
    · have hverdict := fun verdict hverdict =>
        @course_storeConsumeLoginCodeEx_verdict tables codeHash stateHash now row verdict hfound
          hfits hverdict
      cases hused : row.usedAt.isSome with
      | true => exact ⟨.ok (.used, _, _), nofun, hverdict .used (.inl ⟨hused, rfl⟩)⟩
      | false =>
        rcases lt_or_ge now row.expiresAt with hfresh | hexpired
        · have hstate : row.stateHash ≠ stateHash := fun hstate =>
            hbad row ⟨hfound, hfits, by simpa using hused, hfresh, hstate⟩
          exact ⟨.ok (.stateMismatch, _, _), nofun,
            hverdict .stateMismatch (.inr (.inr ⟨hused, hfresh, hstate, rfl⟩))⟩
        · exact ⟨.ok (.expired, _, _), nofun,
            hverdict .expired (.inr (.inl ⟨hused, hexpired, rfl⟩))⟩
    · refine ⟨.error .errDb, nofun, .transaction_error tables (.statement_bind ?_)⟩
      dsimp only
      rw [hfound]
      by_cases huser : row.userId.length ≤ storeIdMax
      · exact .require_bind (decide_eq_true huser)
          (.require_refused (decide_eq_false fun hhandle => hfits ⟨huser, hhandle⟩))
      · exact .require_refused (decide_eq_false huser)

variable {after : Tables}

/-- A token is added: a transaction around one statement. -/
theorem course_storeAddToken {row : TokenRow} (hids : (idOk row.userId && idOk row.handle) = true)
    (hinsert : tables.insertToken row = some after) :
    Course tables none 3 (.ok ⟨⟩) after (storeAddToken row) := by
  refine .require_bind hids (.transaction_commit (.statement_bind ?_))
  dsimp only
  rw [hinsert]
  exact .require_bind rfl (.pure _)

/-- A token that is not added leaves the tables. -/
theorem course_storeAddToken_refused {row : TokenRow}
    (hrefused : (idOk row.userId && idOk row.handle) = false ∨ tables.insertToken row = none) :
    ∃ count status, Course tables none count (.error status) tables (storeAddToken row) := by
  cases hids : idOk row.userId && idOk row.handle with
  | false => exact ⟨0, _, .require_refused hids⟩
  | true =>
    have hnone : tables.insertToken row = none := hrefused.resolve_left (by simp [hids])
    refine ⟨2, .errConflict, .require_bind hids (.transaction_error tables (.statement_bind ?_))⟩
    dsimp only
    rw [hnone]
    exact .require_refused rfl

/-! ## The exchange -/

variable {Value : Type} {saved : Option Tables} {count : ℕ} {value : Value}

theorem course_field_bind {Next : Type} {found : Option Value}
    {next : Value → Api Next} {outcome : Except Refusal Next} (hfound : found = some value)
    (hnext : Course tables saved count outcome after (next value)) :
    Course tables saved count outcome after (field found >>= next) := by
  subst hfound
  exact hnext

theorem course_call {program : StoreProgram Value} (report : StoreStatus → ApiErr)
    (hprogram : Course tables saved count (.ok value) after program) :
    Course tables saved count (.ok value) after (call program report) := hprogram.mapStatus

/-- The fields of an EXCHANGE. -/
structure ExchangeAsked (request : Request) (code : Blob 32) (state : Bytes) : Prop where
  keys : request.keysAreKnown [ascii "code", ascii "state"] = true
  code : request.getBlob (ascii "code") 64 32 = some code
  state : request.getHex (ascii "state") 256 0 = some state

/-- A request without them is malformed. -/
theorem hExchange_malformed (hasked : ∀ code state, ¬ExchangeAsked request code state)
    (conn : Connection Tables) :
    hExchange prims env nowUnix request conn = (.error { code := .malformed }, conn) := by
  unfold hExchange
  cases hkeys : request.keysAreKnown [ascii "code", ascii "state"] with
  | false => rfl
  | true =>
    cases hcode : request.getBlob (ascii "code") 64 32 with
    | none => rfl
    | some code =>
      cases hstate : request.getHex (ascii "state") 256 0 with
      | none => rfl
      | some state => exact absurd ⟨hkeys, hcode, hstate⟩ (hasked code state)

variable {conn : Connection Tables} {status : StoreStatus} {userId handle : Bytes}
  {role : StoreRole}

section Asked

variable {code : Blob 32} {state : Bytes} {row : LoginCodeRow}

/-- A login code that is not good is answered after two statements. -/
theorem course_hExchange_refused (hasked : ExchangeAsked request code state)
    (hbad : ∀ row, ¬tables.CodeGood (prims.sha256 code.toList) (prims.sha256 state) nowUnix row) :
    ∃ refusal, Course tables none 2 (.error refusal) tables
      (hExchange prims env nowUnix request) := by
  obtain ⟨outcome, hother, hcourse⟩ := course_storeConsumeLoginCodeEx_refused hbad
  have hstart : ∀ {result : Except Refusal Reply}, Course tables none 2 result tables _ →
      Course tables none 2 result tables (hExchange prims env nowUnix request) :=
    fun hrest => .require_bind hasked.keys
      (course_field_bind hasked.code (course_field_bind hasked.state hrest))
  match outcome, hother, hcourse with
  | .error status, _, hcourse => exact ⟨_, hstart (.bind_error hcourse.mapStatus)⟩
  | .ok (.ok, userId, handle), hother, _ => exact absurd rfl (hother userId handle)
  | .ok (.used, _, _), _, hcourse =>
    exact ⟨{ code := .used }, hstart (.bind_last hcourse.mapStatus (.fail _))⟩
  | .ok (.expired, _, _), _, hcourse =>
    exact ⟨{ code := .expired }, hstart (.bind_last hcourse.mapStatus (.fail _))⟩
  | .ok (.stateMismatch, _, _), _, hcourse =>
    exact ⟨{ code := .stateMismatch }, hstart (.bind_last hcourse.mapStatus (.fail _))⟩
  | .ok (.unknown, _, _), _, hcourse =>
    exact ⟨{ code := .unknown }, hstart (.bind_last hcourse.mapStatus (.fail _))⟩

/-- The role an exchange works with, from the outcome of the lookup. -/
def exchangeRole : Except StoreStatus (StoreRole × UserStatus) → StoreRole
  | .ok (role, _) => role
  | .error _ => .user

/-- An exchange spends the code, and goes on if it was good. -/
theorem hExchange_asked (hasked : ExchangeAsked request code state) :
    ∃ next : CodeVerdict × Bytes × Bytes → Api Reply,
      hExchange prims env nowUnix request =
        (call (storeConsumeLoginCodeEx (prims.sha256 code.toList) (prims.sha256 state) nowUnix)
          (fun _ => .internal) >>= next) ∧
      ∀ userId handle, next (.ok, userId, handle) =
        (callAttempt (storeGetUser userId) >>= fun known =>
          exchangeToken prims env nowUnix (prims.sha256 code.toList) state userId handle
            (exchangeRole known)) := by
  unfold hExchange
  rw [hasked.keys, hasked.code, hasked.state]
  exact ⟨_, rfl, fun _ _ => rfl⟩

theorem call_of_error {program : StoreProgram Value} {report : StoreStatus → ApiErr}
    (hfailed : (program conn).1 = .error status) :
    call program report conn = (.error { code := report status }, (program conn).2) := by
  unfold call Program.mapStatus
  rw [hfailed]
  rfl

/-- An exchange whose code could not be looked up or marked as used has done nothing. -/
theorem hExchange_unconsumed (hasked : ExchangeAsked request code state) (hfailed :
      (storeConsumeLoginCodeEx (prims.sha256 code.toList) (prims.sha256 state) nowUnix conn).1 =
      .error status) :
    (hExchange prims env nowUnix request conn).1 = .error { code := .internal } ∧
      (hExchange prims env nowUnix request conn).2.tables = conn.tables := by
  obtain ⟨next, hequation, -⟩ := @hExchange_asked prims env nowUnix request code state hasked
  rw [hequation, bind_of_error (call_of_error hfailed)]
  exact ⟨rfl, (atomically_storeConsumeLoginCodeEx _ _ nowUnix).kept_of_error hfailed⟩

/-- The role of a user as EXCHANGE sees it, given whether the lookup fails. -/
def Tables.roleSeen (tables : Tables) (userId : Bytes) (fault : Bool) : StoreRole :=
  if fault then .user else ((tables.userOf userId).map UserRow.role).getD .user

theorem Tables.roleSeen_cases (tables : Tables) (userId : Bytes) (fault : Bool) :
    tables.roleSeen userId fault = .user ∨
      ∃ user, tables.userOf userId = some user ∧ tables.roleSeen userId fault = user.role := by
  unfold roleSeen
  cases fault with
  | true => exact .inl rfl
  | false =>
    cases tables.userOf userId with
    | none => exact .inl rfl
    | some user => exact .inr ⟨user, rfl, rfl⟩

theorem storeGetUser_apply (hid : idOk userId = true) (saved : Option Tables) :
    storeGetUser userId ⟨tables, saved, faults⟩ =
      (if faults.headD false then .error .errDb
        else match tables.userOf userId with
          | none => .error .errNotFound
          | some row => .ok (row.role, row.status),
        ⟨tables, saved, faults.tail⟩) := by
  unfold storeGetUser
  rw [require_bind_true hid]
  show Program.bind (query fun tables => tables.userOf userId) _ _ = _
  unfold Program.bind query Program.statement
  cases faults.headD false with
  | true => rfl
  | false =>
    dsimp only
    cases tables.userOf userId with
    | none => rfl
    | some => rfl

theorem callAttempt_apply (program : StoreProgram Value) (conn : Connection Tables) :
    callAttempt program conn = (.ok (program conn).1, (program conn).2) := by
  unfold callAttempt call Program.mapStatus attempt
  rfl

/-- The lookup of the role is one statement, whose failure is not noticed. -/
theorem callAttempt_storeGetUser (hid : idOk userId = true) (saved : Option Tables) :
    ∃ known, callAttempt (storeGetUser userId) ⟨tables, saved, faults⟩ =
        (.ok known, ⟨tables, saved, faults.tail⟩) ∧
      exchangeRole known = tables.roleSeen userId (faults.headD false) := by
  refine ⟨(storeGetUser userId ⟨tables, saved, faults⟩).1, ?_, ?_⟩
  · rw [callAttempt_apply, storeGetUser_apply hid]
  rw [storeGetUser_apply hid]
  unfold Tables.roleSeen
  cases faults.headD false with
  | true => rfl
  | false =>
    cases tables.userOf userId with
    | none => rfl
    | some => rfl

/-- A good code is spent by the first four statements, the role is looked up by the fifth, and
the token is added by the last three. -/
theorem hExchange_good (hasked : ExchangeAsked request code state)
    (hgood : tables.CodeGood (prims.sha256 code.toList) (prims.sha256 state) nowUnix row)
    (hid : idOk row.userId = true) (hclear : Clear 4 faults) :
    hExchange prims env nowUnix request ⟨tables, none, faults⟩ =
      exchangeToken prims env nowUnix (prims.sha256 code.toList) state row.userId row.handle
        (tables.roleSeen row.userId ((faults.drop 4).headD false))
        ⟨tables.useLoginCode (prims.sha256 code.toList) nowUnix, none, faults.drop 5⟩ := by
  obtain ⟨next, hequation, hnext⟩ := @hExchange_asked prims env nowUnix request code state hasked
  have hconsumed := (course_call (fun _ => .internal)
        (course_storeConsumeLoginCodeEx hgood)).clear faults hclear
  obtain ⟨known, hlookup, hrole⟩ := @callAttempt_storeGetUser
    (tables.useLoginCode (prims.sha256 code.toList) nowUnix) (faults.drop 4) row.userId hid none
  rw [hequation, bind_of_ok hconsumed, hnext, bind_of_ok hlookup, hrole, List.tail_drop]
  rfl

/-- Whatever the lookup says, the exchange of a good code goes on to add a token. -/
theorem hExchange_spent (hasked : ExchangeAsked request code state)
    (hgood : tables.CodeGood (prims.sha256 code.toList) (prims.sha256 state) nowUnix row)
    (hclear : Clear 4 faults) :
    ∃ role conn, conn.tables = tables.useLoginCode (prims.sha256 code.toList) nowUnix ∧
      hExchange prims env nowUnix request ⟨tables, none, faults⟩ =
        exchangeToken prims env nowUnix (prims.sha256 code.toList) state row.userId row.handle
          role conn := by
  cases hid : idOk row.userId with
  | true => exact ⟨_, _, rfl, hExchange_good hasked hgood hid hclear⟩
  | false =>
    obtain ⟨next, hequation, hnext⟩ := @hExchange_asked prims env nowUnix request code state hasked
    have hconsumed := (course_call (fun _ => .internal)
      (course_storeConsumeLoginCodeEx hgood)).clear faults hclear
    refine ⟨.user, ⟨tables.useLoginCode (prims.sha256 code.toList) nowUnix, none,
      faults.drop 4⟩, rfl, ?_⟩
    rw [hequation, bind_of_ok hconsumed, hnext]
    unfold storeGetUser
    rw [hid]
    rfl

/-- A token that could not be added is not handed out. -/
theorem exchangeToken_failed (hfailed : (storeAddToken (exchangeRow prims env nowUnix userId
      handle role) conn).1 = .error status) :
    (exchangeToken prims env nowUnix codeHash state userId handle role conn).1 =
        .error { code := .internal } ∧
      (exchangeToken prims env nowUnix codeHash state userId handle role conn).2.tables =
        conn.tables := by
  unfold exchangeToken
  rw [bind_of_error (call_of_error hfailed)]
  exact ⟨rfl, (atomically_storeAddToken _).kept_of_error hfailed⟩

/-- A token is added by three statements. -/
theorem course_exchangeToken (hids : (idOk userId && idOk handle) = true)
    (hinsert : tables.insertToken (exchangeRow prims env nowUnix userId handle role) = some after) :
    Course tables none 3
      (.ok (exchangeReply env (exchangeMinted env nowUnix codeHash state userId handle role)))
      after (exchangeToken prims env nowUnix codeHash state userId handle role) :=
  .bind_last (course_call _ (course_storeAddToken hids hinsert)) (.pure _)

end Asked

/-- An exchange happened as a whole or not at all: the code is marked as used, and the one token
that was added is in the reply; or the tables are as they were. -/
def WholeExchange (prims : DaemonPrimitives) (env : LocalEnv) (nowUnix : ℤ) (before : Tables)
    (outcome : Except Refusal Reply) (after : Tables) : Prop :=
  (∃ minted reply, outcome = .ok reply ∧ reply.effect = some (.tokenMinted minted) ∧
    (ascii "OK token=" ++ bin2hex minted.token.toList) <+: reply.text ∧
    Tables.TokenMinted prims env nowUnix minted before after) ∨
  ∃ refusal, outcome = .error refusal ∧ after = before

/-- A token can be added for a login code: its ids are valid, and the hash of the token drawn for
it is not on record. -/
structure Tables.MintReady (prims : DaemonPrimitives) (env : LocalEnv) (tables : Tables)
    (row : LoginCodeRow) : Prop where
  ids : (idOk row.userId && idOk row.handle) = true
  fresh : (tables.tokens.any fun other => other.tokenHash = prims.sha256 env.token.toList) = false

theorem insertToken_fresh (hready : tables.MintReady prims env row) :
    (tables.useLoginCode codeHash nowUnix).insertToken
        (exchangeRow prims env nowUnix row.userId row.handle role) =
      some
        { tables.useLoginCode codeHash nowUnix with
          tokens := tables.tokens ++ [exchangeRow prims env nowUnix row.userId row.handle role] } :=
  if_neg (Bool.eq_false_iff.mp hready.fresh)

theorem Tables.useLoginCode_ne (hgood : tables.CodeGood codeHash stateHash now row) :
    tables.useLoginCode codeHash now ≠ tables := by
  intro hsame
  have hfound : ((tables.useLoginCode codeHash now).loginCodes.find? fun row =>
      row.codeHash = codeHash) = some { row with usedAt := some now } := by
    refine (Rows.find?_updateWhere ?_).trans ?_
    · exact fun _ => rfl
    rw [hgood.found, Option.map_some]
    exact congrArg some (if_pos (List.find?_some hgood.found))
  rw [hsame, hgood.found] at hfound
  have hused := congrArg LoginCodeRow.usedAt (Option.some.inj hfound)
  rw [hgood.unused] at hused
  cases hused

theorem Tables.CodeGood.unique {other : LoginCodeRow}
    (hrow : tables.CodeGood codeHash stateHash now row)
    (hother : tables.CodeGood codeHash stateHash now other) : other = row :=
  Option.some.inj (hother.found.symm.trans hrow.found)

section Whole

variable {code : Blob 32} {state : Bytes} {row : LoginCodeRow}

/-- A failure before the code is spent leaves everything as it was. -/
theorem wholeExchange_unconsumed (hasked : ExchangeAsked request code state) (hfailed :
      (storeConsumeLoginCodeEx (prims.sha256 code.toList) (prims.sha256 state) nowUnix conn).1 =
      .error status) :
    WholeExchange prims env nowUnix conn.tables (hExchange prims env nowUnix request conn).1
      (hExchange prims env nowUnix request conn).2.tables :=
  .inr ⟨_, hExchange_unconsumed hasked hfailed⟩

/-- With a good code, ids that are valid, a fresh token and no failure, the exchange happens. -/
theorem wholeExchange_of_ready (hasked : ExchangeAsked request code state)
    (hgood : tables.CodeGood (prims.sha256 code.toList) (prims.sha256 state) nowUnix row)
    (hclear : Clear 4 faults) (hready : tables.MintReady prims env row)
    (hrest : Clear 3 (faults.drop 5)) :
    WholeExchange prims env nowUnix tables
      (hExchange prims env nowUnix request ⟨tables, none, faults⟩).1
      (hExchange prims env nowUnix request ⟨tables, none, faults⟩).2.tables := by
  have hid := (Bool.and_eq_true_iff.mp hready.ids).1
  rw [hExchange_good hasked hgood hid hclear,
    (course_exchangeToken hready.ids (insertToken_fresh hready)).clear _ hrest]
  refine .inl ⟨_, _, rfl, rfl, ?_, ?_⟩
  · exact ⟨_, (List.append_assoc _ _ _).symm⟩
  refine ⟨⟨row, _, ⟨hgood.found, hgood.unused, hgood.fresh, hgood.state, rfl⟩, rfl, rfl,
    insertToken_fresh hready⟩, ?_, hready.ids, rfl, rfl, rfl⟩
  exact tables.roleSeen_cases row.userId _

/-- Adding the token fails if it cannot be added or one of the statements fails. -/
theorem storeAddToken_failed {faults : List Bool}
    (hfailed : ¬(tables.MintReady prims env row ∧ Clear 3 faults)) :
    ∃ status, (storeAddToken (exchangeRow prims env nowUnix row.userId row.handle role)
      ⟨tables.useLoginCode codeHash nowUnix, none, faults⟩).1 = .error status := by
  by_cases hready : tables.MintReady prims env row
  · exact (course_storeAddToken hready.ids (insertToken_fresh hready)).failing _ fun hclear =>
      hfailed ⟨hready, hclear⟩
  have hrefused : (idOk row.userId && idOk row.handle) = false ∨
      (tables.useLoginCode codeHash nowUnix).insertToken
        (exchangeRow prims env nowUnix row.userId row.handle role) = none := by
    cases hids : idOk row.userId && idOk row.handle with
    | false => exact .inl rfl
    | true =>
      refine .inr (if_pos ?_)
      exact Bool.not_eq_false _ ▸ fun hfresh => hready ⟨hids, hfresh⟩
  obtain ⟨count, status, hcourse⟩ := @course_storeAddToken_refused _
    (exchangeRow prims env nowUnix row.userId row.handle role) hrefused
  exact hcourse.ends_error _

/-- Once the code is spent, a token that is not added leaves the exchange half done. -/
theorem hExchange_half (hasked : ExchangeAsked request code state)
    (hgood : tables.CodeGood (prims.sha256 code.toList) (prims.sha256 state) nowUnix row)
    (hclear : Clear 4 faults)
    (hfailed : ¬(tables.MintReady prims env row ∧ Clear 3 (faults.drop 5))) :
    (hExchange prims env nowUnix request ⟨tables, none, faults⟩).1 =
        .error { code := .internal } ∧
      (hExchange prims env nowUnix request ⟨tables, none, faults⟩).2.tables =
        tables.useLoginCode (prims.sha256 code.toList) nowUnix := by
  cases hid : idOk row.userId with
  | false =>
    obtain ⟨role, conn, htables, hrun⟩ :=
      @hExchange_spent prims env nowUnix request tables faults code state row hasked hgood hclear
    have hstatus : (storeAddToken (exchangeRow prims env nowUnix row.userId row.handle role)
        conn).1 = .error .errArg := by
      unfold storeAddToken exchangeRow
      rw [require_bind_false (by simp [hid])]
    rw [hrun, ← htables]
    exact exchangeToken_failed hstatus
  | true =>
    obtain ⟨status, hstatus⟩ := @storeAddToken_failed prims env nowUnix tables
      (prims.sha256 code.toList) (tables.roleSeen row.userId ((faults.drop 4).headD false))
      row _ hfailed
    rw [hExchange_good hasked hgood hid hclear]
    exact exchangeToken_failed hstatus

end Whole

/-- Whatever fails, an exchange happens as a whole or not at all exactly if, once the code has
been spent, the token can be added and none of the statements that add it fails. -/
theorem exchange_whole_iff (prims : DaemonPrimitives) (env : LocalEnv) (nowUnix : ℤ)
    (request : Request) (tables : Tables) (faults : List Bool) :
    WholeExchange prims env nowUnix tables
        (hExchange prims env nowUnix request ⟨tables, none, faults⟩).1
        (hExchange prims env nowUnix request ⟨tables, none, faults⟩).2.tables ↔
      ∀ code state row, ExchangeAsked request code state →
        tables.CodeGood (prims.sha256 code.toList) (prims.sha256 state) nowUnix row →
        Clear 4 faults → tables.MintReady prims env row ∧ Clear 3 (faults.drop 5) := by
  refine ⟨fun hwhole code state row hasked hgood hclear => ?_, fun hrest => ?_⟩
  · by_contra hfailed
    obtain ⟨houtcome, htables⟩ := @hExchange_half prims env nowUnix request tables faults code
      state row hasked hgood hclear hfailed
    rw [houtcome, htables] at hwhole
    rcases hwhole with ⟨_, _, hok, -⟩ | ⟨_, -, hsame⟩
    · cases hok
    · exact Tables.useLoginCode_ne hgood hsame
  · by_cases hasked : ∃ code state, ExchangeAsked request code state
    · obtain ⟨code, state, hasked⟩ := hasked
      by_cases hgood : ∃ row, tables.CodeGood (prims.sha256 code.toList) (prims.sha256 state)
          nowUnix row
      · obtain ⟨row, hgood⟩ := hgood
        by_cases hclear : Clear 4 faults
        · obtain ⟨hready, hlast⟩ := hrest code state row hasked hgood hclear
          exact wholeExchange_of_ready hasked hgood hclear hready hlast
        obtain ⟨status, hstatus⟩ := (course_storeConsumeLoginCodeEx hgood).failing faults hclear
        exact wholeExchange_unconsumed hasked hstatus
      · have hbad : ∀ row, ¬tables.CodeGood (prims.sha256 code.toList) (prims.sha256 state)
            nowUnix row := fun row hrow => hgood ⟨row, hrow⟩
        by_cases hclear : Clear 2 faults
        · obtain ⟨refusal, hcourse⟩ :=
            @course_hExchange_refused prims env nowUnix request tables code state hasked hbad
          rw [hcourse.clear faults hclear]
          exact .inr ⟨refusal, rfl, rfl⟩
        · obtain ⟨outcome, -, hcourse⟩ := course_storeConsumeLoginCodeEx_refused hbad
          obtain ⟨status, hstatus⟩ := hcourse.failing faults hclear
          exact wholeExchange_unconsumed hasked hstatus
    · rw [hExchange_malformed fun code state hcode => hasked ⟨code, state, hcode⟩]
      exact .inr ⟨_, rfl, rfl⟩

/-- The sample user has logged in. -/
def sampleLoggedIn : Tables :=
  { sampleTables with
    loginCodes :=
      [⟨DaemonPrimitives.sample.sha256 (blobOf 32 [7]).toList, ascii "u", [1], none,
        DaemonPrimitives.sample.sha256 [], 1000, 1060, none⟩] }

/-- The login code is exchanged. -/
def sampleExchangeRequest : Request where
  cmd := ascii "EXCHANGE"
  pairs := [(ascii "code", bin2hex (blobOf 32 [7]).toList), (ascii "state", [])]

/-- What comes of it if the second transaction cannot be opened. -/
def sampleHalfExchange : Except Refusal Reply × Connection Tables :=
  hExchange .sample (sampleServe 0 9).line 1000 sampleExchangeRequest
    ⟨sampleLoggedIn, none, failingAt 5⟩

/-- The code is spent, and there is no token. -/
theorem code_lost_sampleHalfExchange :
    sampleHalfExchange.1 = .error { code := .internal } ∧
      sampleHalfExchange.2.tables.loginCodes.map LoginCodeRow.usedAt = [some 1000] ∧
      sampleHalfExchange.2.tables.tokens = [] ∧
      ¬WholeExchange .sample (sampleServe 0 9).line 1000 sampleLoggedIn sampleHalfExchange.1
        sampleHalfExchange.2.tables := by
  have houtcome : sampleHalfExchange.1 = .error { code := .internal } := by decide +kernel
  have hused : sampleHalfExchange.2.tables.loginCodes.map LoginCodeRow.usedAt = [some 1000] := by
    decide +kernel
  refine ⟨houtcome, hused, by decide +kernel, ?_⟩
  rintro (⟨_, _, hok, -⟩ | ⟨_, -, hsame⟩)
  · rw [houtcome] at hok
    cases hok
  rw [hsame] at hused
  exact absurd hused (by decide +kernel)

end MldsaAuth.Authd
