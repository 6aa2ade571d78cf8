/-
# What a step does to a token

A token is in the store as a hash, with the user and the handle it is for and the times
at which it expires. It is minted by an exchange. A verification that finds it good
slides its idle window, and everything else leaves it as it is or deletes it. Every
token that is there after a step was kept, used or minted by it, and what the step has
put into the log says which.
-/

import Mathlib.Data.List.Chain
import MldsaAuth.Authd.LoginCodes

namespace MldsaAuth.Authd

open Foundation Crypto Protocol Tables

variable (prims : DaemonPrimitives)

/-- An answer deletes a token. Revoking all devices of a user deletes the tokens of those
devices, which are not named in the answer. -/
def ApiEffect.Deletes (row : TokenRow) : ApiEffect → Prop
  | .tokenDeleted token => row.tokenHash = prims.sha256 token.toList
  | .handleTokensDeleted userId handle => row.handle = handle ∧ row.userId = userId
  | .userTokensDeleted userId => row.userId = userId
  | .deviceRevoked handle => row.handle = handle
  | .userDisabled userId => row.userId = userId
  | _ => False

/-- An entry of the log says that a token was deleted. -/
def LogEntry.Deletes (row : TokenRow) : LogEntry → Prop
  | .api effect => effect.Deletes prims row
  | .conn _ (.rotation commit) =>
    decide (commit.msg.flags &&& authmsgFlagRotateDropTokens ≠ 0) = true ∧
      row.handle = commit.handle
  | .conn _ _ => False

/-- The time at which an entry of the log says a token was found good. -/
def LogEntry.useOf (tokenHash : StoreHash) : LogEntry → Option ℤ
  | .api (.tokenVerified verified) =>
    if prims.sha256 verified.token.toList = tokenHash then some verified.at_ else none
  | _ => none

/-- A row is another one but for the times a verification sets. -/
structure TokenRow.SameToken (row old : TokenRow) : Prop where
  tokenHash : row.tokenHash = old.tokenHash
  userId : row.userId = old.userId
  handle : row.handle = old.handle
  issuedAt : row.issuedAt = old.issuedAt
  expiresAt : row.expiresAt = old.expiresAt

theorem TokenRow.SameToken.refl (row : TokenRow) : row.SameToken row :=
  ⟨rfl, rfl, rfl, rfl, rfl⟩

theorem TokenRow.SameToken.trans {first second third : TokenRow} (hfirst : first.SameToken second)
    (hsecond : second.SameToken third) : first.SameToken third :=
  ⟨hfirst.tokenHash.trans hsecond.tokenHash, hfirst.userId.trans hsecond.userId,
    hfirst.handle.trans hsecond.handle, hfirst.issuedAt.trans hsecond.issuedAt,
    hfirst.expiresAt.trans hsecond.expiresAt⟩

variable {row : TokenRow}

theorem TokenRow.SameToken.deletes_iff {prims : DaemonPrimitives} {old : TokenRow}
    (hsame : row.SameToken old) {entry : LogEntry} :
    entry.Deletes prims row ↔ entry.Deletes prims old := by
  unfold LogEntry.Deletes ApiEffect.Deletes
  rw [hsame.tokenHash, hsame.userId, hsame.handle]

/-- A token is good at a time: its device and its user are active, and neither its lifetime nor
its idle window is over. -/
structure Tables.TokenGood (tables : Tables) (row : TokenRow) (role : StoreRole) (now : ℤ) :
    Prop where
  device : ∃ device, tables.deviceOf row.handle = some device ∧ device.status = .active
  user : ∃ user, tables.userOf row.userId = some user ∧ user.status = .active ∧ user.role = role
  fresh : now < row.expiresAt
  used : now < row.idleExpiresAt

/-- What became of a token in a step: a row of the store after it, against those before it and
what the step has put into the log. -/
inductive TokenFate (prims : DaemonPrimitives) (now : ℤ) (new : List LogEntry) (before : Tables)
    (row : TokenRow) : Prop
  | kept {old : TokenRow} (hold : old ∈ before.tokens) (hsame : row.SameToken old)
      (hidle : row.idleExpiresAt = old.idleExpiresAt)
      (hspared : ∀ entry ∈ new, ¬ entry.Deletes prims old)
      (hunused : ∀ entry ∈ new, entry.useOf prims old.tokenHash = none)
  | used {old : TokenRow} {verified : Verified} (hold : old ∈ before.tokens)
      (hsame : row.SameToken old) (hnew : new = [.api (.tokenVerified verified)])
      (hhash : prims.sha256 verified.token.toList = old.tokenHash) (hat : verified.at_ = now)
      (hgood : before.TokenGood old verified.role now)
      (hidle : row.idleExpiresAt = min (now + tokensIdleTtlS verified.role) row.expiresAt)
  | minted {minted : Minted} (hnew : new = [.api (.tokenMinted minted)])
      (hrow : row = mintedRow prims minted)
      (hids : (idOk minted.userId && idOk minted.handle) = true)
      (hexpires : minted.expiresAt = minted.issuedAt + tokensTtlS minted.role)

/-- Token hashes stay unique, and every token has its fate. -/
def TokensMove (prims : DaemonPrimitives) (now : ℤ) (new : List LogEntry)
    (before after : Tables) : Prop :=
  (before.tokens.map TokenRow.tokenHash).Nodup →
    (after.tokens.map TokenRow.tokenHash).Nodup ∧
      ∀ row ∈ after.tokens, TokenFate prims now new before row

variable {tokenHash : StoreHash} {idle : ℤ} {join : TokenJoin} {verified : Verified}
  {env : LocalEnv} {prims : DaemonPrimitives}

section Moves

variable {now : ℤ} {new : List LogEntry} {before after : Tables}

/-- An operation that adds and changes no token, and drops those its entries delete. -/
theorem tokensMove_of_sublist (htokens : List.Sublist after.tokens before.tokens)
    (hdropped : ∀ row ∈ after.tokens, ∀ entry ∈ new, ¬ entry.Deletes prims row)
    (huse : ∀ entry ∈ new, ∀ tokenHash, entry.useOf prims tokenHash = none) :
    TokensMove prims now new before after := by
  intro hnodup
  refine ⟨(htokens.map _).nodup hnodup, fun row hrow => ?_⟩
  exact .kept (htokens.subset hrow) (.refl row) rfl (hdropped row hrow) fun entry hentry =>
    huse entry hentry row.tokenHash

theorem tokensMove_of_retains {drops : TokenRow → Prop} (hretains : Retains drops before after)
    (hdeletes : ∀ entry ∈ new, ∀ row, entry.Deletes prims row → drops row)
    (huse : ∀ entry ∈ new, ∀ tokenHash, entry.useOf prims tokenHash = none) :
    TokensMove prims now new before after :=
  tokensMove_of_sublist hretains.tokens (fun row hrow entry hentry hdeleted =>
    hretains.dropped row hrow (hdeletes entry hentry row hdeleted)) huse

theorem nodup_slideToken (hnodup : (before.tokens.map TokenRow.tokenHash).Nodup) :
    ((before.slideToken tokenHash now idle).tokens.map TokenRow.tokenHash).Nodup := by
  have hsame : (before.slideToken tokenHash now idle).tokens.map TokenRow.tokenHash =
      before.tokens.map TokenRow.tokenHash := Rows.map_updateWhere fun _ => rfl
  rw [hsame]
  exact hnodup

/-- The token a join has found, where hashes are unique. -/
theorem eq_of_tokenJoin (hnodup : (before.tokens.map TokenRow.tokenHash).Nodup)
    (hjoin : before.tokenJoin tokenHash = some join) (hrow : row ∈ before.tokens)
    (hhash : row.tokenHash = tokenHash) : row = join.token := by
  obtain ⟨token, htoken, rfl⟩ := Option.map_eq_some_iff.mp hjoin
  have hfound : token.tokenHash = tokenHash := by simpa using List.find?_some htoken
  exact Rows.eq_of_key hnodup hrow (List.mem_of_find?_eq_some htoken) (hhash.trans hfound.symm)

/-- A slid row is the old one but for its times; the other rows stay. -/
theorem mem_slideToken (hrow : row ∈ (before.slideToken tokenHash now idle).tokens) :
    ∃ old ∈ before.tokens, row.SameToken old ∧
      ((old.tokenHash ≠ tokenHash ∧ row = old) ∨
        old.tokenHash = tokenHash ∧ row.idleExpiresAt = idle) := by
  obtain ⟨old, hold, rfl⟩ := List.mem_map.mp hrow
  by_cases hhash : old.tokenHash = tokenHash
  · rw [if_pos (decide_eq_true hhash)]
    exact ⟨old, hold, ⟨rfl, rfl, rfl, rfl, rfl⟩, .inr ⟨hhash, rfl⟩⟩
  rw [if_neg (by simpa using hhash)]
  exact ⟨old, hold, .refl old, .inl ⟨hhash, rfl⟩⟩

theorem tokenGood_of_verdict (hjoin : before.tokenJoin tokenHash = some join)
    (hverdict : join.verdict now = .ok) :
    before.TokenGood join.token ((join.user.map Prod.fst).getD .operator) now := by
  obtain ⟨token, htoken, rfl⟩ := Option.map_eq_some_iff.mp hjoin
  unfold TokenJoin.verdict at hverdict
  split at hverdict
  · cases hverdict
  rename_i hdevice
  split at hverdict
  · cases hverdict
  rename_i huser
  split at hverdict
  · cases hverdict
  rename_i hfresh
  split at hverdict
  · cases hverdict
  rename_i hused
  obtain ⟨device, hdevice, hactive⟩ := Option.map_eq_some_iff.mp (not_not.mp hdevice)
  obtain ⟨_, hjoined, huserActive⟩ := Option.map_eq_some_iff.mp (not_not.mp huser)
  obtain ⟨user, huser, rfl⟩ := Option.map_eq_some_iff.mp hjoined
  refine ⟨⟨device, hdevice, hactive⟩, ⟨user, huser, huserActive, ?_⟩, not_le.mp hfresh,
    not_le.mp hused⟩
  dsimp only
  rw [huser]
  rfl

/-- The first call of `h_verify` leaves the idle window as it is. -/
theorem tokensMove_touched {info : TokenInfo}
    (htouched : TokenVerified tokenHash now 0 before (.ok, some info) after) :
    TokensMove prims now [] before after := by
  intro hnodup
  obtain ⟨join, idle, hjoin, hverdict, hidle, -, rfl⟩ := htouched.slid_of_ok rfl
  refine ⟨nodup_slideToken hnodup, fun row hrow => ?_⟩
  obtain ⟨old, hold, hsame, hcases⟩ := mem_slideToken hrow
  refine .kept hold hsame ?_ (fun _ hentry => nomatch hentry) fun _ hentry => nomatch hentry
  rcases hcases with ⟨-, rfl⟩ | ⟨hhash, hslid⟩
  · rfl
  obtain rfl := eq_of_tokenJoin hnodup hjoin hold hhash
  exact hslid.trans hidle

/-- After a slide the token is found again, with the new times. -/
theorem tokenJoin_slideToken (hjoin : before.tokenJoin tokenHash = some join) :
    (before.slideToken tokenHash now idle).tokenJoin tokenHash = some { join with
        token := { join.token with lastVerifiedAt := some now, idleExpiresAt := idle } } := by
  obtain ⟨token, htoken, rfl⟩ := Option.map_eq_some_iff.mp hjoin
  have hfound : ((before.slideToken tokenHash now idle).tokens.find?
      fun row => row.tokenHash = tokenHash) =
        some { token with lastVerifiedAt := some now, idleExpiresAt := idle } := by
    refine (Rows.find?_updateWhere ?_).trans ?_
    · exact fun _ => rfl
    rw [htoken]
    exact congrArg some (if_pos (List.find?_some htoken))
  unfold tokenJoin
  rw [hfound]
  rfl

section

variable (hpassed : TokenPassed prims now verified before after)

include hpassed

/-- What both calls of `h_verify` have found, and what they have written. -/
theorem Tables.TokenPassed.joined :
    ∃ join idle slid, before.tokenJoin (prims.sha256 verified.token.toList) = some join ∧
      join.verdict now = .ok ∧
      slid = min (now + tokensIdleTtlS verified.role) join.token.expiresAt ∧
      verified.userId = (join.info slid).userId ∧ verified.handle = (join.info slid).handle ∧
      verified.role = (join.info slid).role ∧
      after = (before.slideToken (prims.sha256 verified.token.toList) now idle).slideToken
        (prims.sha256 verified.token.toList) now slid := by
  obtain ⟨first, last, middle, hfirst, hlast, huser, hhandle, hrole⟩ := hpassed.passed
  obtain ⟨join, idle, hjoin, hverdict, hidle, hinfo, rfl⟩ := hfirst.slid_of_ok rfl
  obtain ⟨again, slid, hagain, -, hslid, hinfoAgain, rfl⟩ := hlast.slid_of_ok rfl
  obtain rfl := Option.some.inj hinfo
  obtain rfl := Option.some.inj hinfoAgain
  obtain rfl := Option.some.inj ((tokenJoin_slideToken hjoin).symm.trans hagain)
  have hpositive : 0 < tokensIdleTtlS (join.info idle).role := by
    cases (join.info idle).role <;> decide
  rw [if_pos hpositive] at hslid
  refine ⟨join, idle, slid, hjoin, hverdict, ?_, huser, hhandle, hrole, rfl⟩
  rw [hrole]
  exact hslid

/-- The token that a verification has found good, and what is reported about it. -/
theorem Tables.TokenPassed.found :
    ∃ row ∈ before.tokens, row.tokenHash = prims.sha256 verified.token.toList ∧
      before.TokenGood row verified.role now ∧
      (row.userId.length ≤ storeIdMax → verified.userId = row.userId) ∧
      (row.handle.length ≤ storeIdMax → verified.handle = row.handle) := by
  obtain ⟨join, idle, slid, hjoin, hverdict, -, huser, hhandle, hrole, -⟩ := hpassed.joined
  obtain ⟨token, htoken, hmade⟩ := Option.map_eq_some_iff.mp hjoin
  obtain rfl : token = join.token := congrArg TokenJoin.token hmade
  have hhash : join.token.tokenHash = prims.sha256 verified.token.toList := by
    simpa using List.find?_some htoken
  refine ⟨join.token, List.mem_of_find?_eq_some htoken, hhash, ?_, ?_, ?_⟩
  · rw [hrole]
    exact tokenGood_of_verdict hjoin hverdict
  · intro hlength
    exact huser.trans (if_pos hlength)
  · intro hlength
    exact hhandle.trans (if_pos hlength)

/-- A verification slides the idle window of the token it has found good. -/
theorem tokensMove_verified :
    TokensMove prims now [.api (.tokenVerified verified)] before after := by
  intro hnodup
  obtain ⟨join, idle, slid, hjoin, hverdict, hslid, -, -, hrole, rfl⟩ := hpassed.joined
  refine ⟨nodup_slideToken (nodup_slideToken hnodup), fun row hrow => ?_⟩
  obtain ⟨between, hbetween, hsame, hcases⟩ := mem_slideToken hrow
  obtain ⟨old, hold, hsameOld, hcasesOld⟩ := mem_slideToken hbetween
  by_cases hhash : old.tokenHash = prims.sha256 verified.token.toList
  · have hmoved := hcases.resolve_left fun hother => hother.1 (hsameOld.tokenHash.trans hhash)
    obtain rfl := eq_of_tokenJoin hnodup hjoin hold hhash
    refine .used hold (hsame.trans hsameOld) rfl hhash.symm hpassed.at_ ?_ ?_
    · rw [hrole]
      exact tokenGood_of_verdict hjoin hverdict
    · rw [hmoved.2, hslid, hsame.expiresAt, hsameOld.expiresAt]
  · obtain ⟨-, rfl⟩ := hcasesOld.resolve_right fun hother => hhash hother.1
    obtain ⟨-, rfl⟩ := hcases.resolve_right fun hother => hhash hother.1
    refine .kept hold (.refl _) rfl ?_ ?_
    · intro entry hentry
      obtain rfl := List.mem_singleton.mp hentry
      exact id
    intro entry hentry
    obtain rfl := List.mem_singleton.mp hentry
    exact if_neg (Ne.symm hhash)

end

/-- An exchange adds one token. -/
theorem tokensMove_minted {minted : Minted}
    (hminted : TokenMinted prims env now minted before after) :
    TokensMove prims now [.api (.tokenMinted minted)] before after := by
  intro hnodup
  obtain ⟨code, used, hused, -, -, hinserted⟩ := hminted.code
  have htokens : used.tokens = before.tokens := by
    rw [hused.written]
    rfl
  obtain ⟨hnew, rfl⟩ := insertToken_eq_some hinserted
  rw [htokens] at hnew
  refine ⟨?_, fun row hrow => ?_⟩
  · show ((used.tokens ++ [_]).map TokenRow.tokenHash).Nodup
    rw [htokens]
    refine Rows.nodup_append hnodup fun other hother hsame => ?_
    exact List.any_eq_false.mp hnew other hother (decide_eq_true hsame)
  · have hrow : row ∈ used.tokens ++ [mintedRow prims minted] := hrow
    rw [htokens] at hrow
    rcases List.mem_append.mp hrow with hold | hadded
    · refine .kept hold (.refl row) rfl ?_ ?_
      · intro entry hentry
        obtain rfl := List.mem_singleton.mp hentry
        exact id
      · intro entry hentry
        obtain rfl := List.mem_singleton.mp hentry
        rfl
    · refine .minted rfl (List.mem_singleton.mp hadded) hminted.ids ?_
      rw [hminted.expiresAt, hminted.issuedAt]

end Moves

/-! ## Requests, frames and steps -/

variable {config : AuthdConfig}

section Served

variable {nowUnix : ℤ}

theorem RequestView.tokens {before after : Tables} {effect : Option ApiEffect}
    (hview : RequestView prims env nowUnix before effect after) :
    TokensMove prims nowUnix (effect.toList.map LogEntry.api) before after := by
  have hquiet : ∀ {drops : TokenRow → Prop}, Retains drops before after →
      TokensMove prims nowUnix [] before after := fun hretains =>
    tokensMove_of_retains hretains (fun _ hentry => nomatch hentry) fun _ hentry =>
      nomatch hentry
  have hdropped : ∀ {drops : TokenRow → Prop} {effect : ApiEffect},
      Retains drops before after →
      (∀ row, effect.Deletes prims row → drops row) →
      (∀ tokenHash, LogEntry.useOf prims tokenHash (.api effect) = none) →
      TokensMove prims nowUnix [.api effect] before after := by
    intro drops effect hretains hdeletes huse
    refine tokensMove_of_retains hretains ?_ ?_
    · intro entry hentry
      obtain rfl := List.mem_singleton.mp hentry
      exact hdeletes
    intro entry hentry
    obtain rfl := List.mem_singleton.mp hentry
    exact huse
  cases hview with
  | unchanged => exact hquiet (SameCredentials.retains ⟨rfl, rfl⟩)
  | enrolled henrolled => exact hquiet henrolled.credentials.retains
  | redeemed hredeemed => exact hquiet hredeemed.credentials.retains
  | codeLost hused =>
    rw [hused.written]
    intro hnodup
    exact ⟨hnodup, fun row hrow => .kept hrow (.refl row) rfl (fun _ hentry => nomatch hentry)
      fun _ hentry => nomatch hentry⟩
  | minted hminted => exact tokensMove_minted hminted
  | touched htouched => exact tokensMove_touched htouched
  | verified hpassed => exact tokensMove_verified hpassed
  | tokenDeleted | handleTokensDeleted | userTokensDeleted =>
    refine hdropped retains_deleteTokens (fun row hdeletes => ?_) fun _ => rfl
    simpa [ApiEffect.Deletes] using hdeletes
  | deviceRevoked hrevoked => exact hdropped hrevoked.retains (fun _ => id) fun _ => rfl
  | userDisabled hset => exact hdropped hset.retains (fun _ huser => ⟨rfl, huser⟩) fun _ => rfl
  | userEnabled hset => exact hdropped hset.retains (fun _ => False.elim) fun _ => rfl
  | codesReplaced hreplaced => exact hquiet hreplaced.credentials.retains
  | @codeSpent _ _ _ _ revokeAll _ hspent =>
    cases revokeAll with
    | true => exact hdropped hspent.retains (fun _ => id) fun _ => rfl
    | false => exact hquiet hspent.retains
  | failureNoted hnoted => exact hquiet hnoted.credentials.retains

theorem FrameView.tokens {env : FrameEnv} {shared : Shared} {conn : Conn} {io : ConnIo}
    {served : Served} {serial : ℕ} (hview : FrameView prims config env shared conn io served) :
    TokensMove prims shared.nowUnix (served.events.map (LogEntry.conn serial)) shared.tables
      served.shared.tables := by
  have huse : ∀ entry ∈ served.events.map (LogEntry.conn serial), ∀ tokenHash,
      entry.useOf prims tokenHash = none := by
    intro entry hentry tokenHash
    obtain ⟨report, -, rfl⟩ := List.mem_map.mp hentry
    rfl
  have hplain : served.shared.tables.tokens = shared.tables.tokens →
      (∀ commit, .rotation commit ∉ served.events) →
      TokensMove prims shared.nowUnix (served.events.map (LogEntry.conn serial)) shared.tables
        served.shared.tables := by
    intro htokens hnone
    refine tokensMove_of_sublist (htokens ▸ List.Sublist.refl _) (fun row _ entry hentry => ?_) huse
    obtain ⟨report, hreport, rfl⟩ := List.mem_map.mp hentry
    cases report with
    | rotation commit => exact absurd hreport (hnone commit)
    | _ => exact id
  cases hview.effect with
  | kept htables hevents => exact hplain (by rw [htables]) fun _ hmem => nomatch hevents _ hmem
  | issued _ _ _ _ hstored hevents htables =>
    obtain ⟨-, rfl⟩ := insertLoginCode_eq_some hstored
    refine hplain ?_ ?_
    · rcases htables with htables | htables
      · rw [htables]
      · rw [htables]
        rfl
    · rcases hevents with hevents | hevents <;> simp [hevents]
  | rotated _ _ hstored hevents =>
    obtain ⟨current, hrotated⟩ := hstored
    refine tokensMove_of_retains hrotated.retains ?_ huse
    rw [hevents]
    intro entry hentry row hdeleted
    obtain rfl := List.mem_singleton.mp hentry
    exact hdeleted

/-- A request that reports a token good has found it so. -/
theorem RequestView.passed_of_effect {before after : Tables}
    (hview : RequestView prims env nowUnix before (some (.tokenVerified verified)) after) :
    TokenPassed prims nowUnix verified before after := by
  generalize heffect : some (ApiEffect.tokenVerified verified) = effect at hview
  cases hview with
  | verified hpassed =>
    cases heffect
    exact hpassed
  | codeSpent => split at heffect <;> cases heffect
  | _ => cases heffect

end Served

namespace Daemon

variable {before after : Daemon} {event : LoopEvent}

/-- What a step does to the tokens, and what it has put into the log. -/
theorem StepView.tokens (hview : StepView prims config before event after) :
    ∃ new, after.log = before.log ++ new ∧
      TokensMove prims before.now new before.tables after.tables := by
  have hnone : ∀ {target : Tables}, List.Sublist target.tokens before.tables.tokens →
      TokensMove prims before.now [] before.tables target := fun htokens =>
    tokensMove_of_sublist htokens (fun _ _ _ hentry => nomatch hentry) fun _ hentry =>
      nomatch hentry
  cases hview.store with
  | kept htables hlog =>
    exact ⟨[], by rw [hlog, List.append_nil], hnone (htables ▸ List.Sublist.refl _)⟩
  | swept htables hlog =>
    exact ⟨[], by rw [hlog, List.append_nil], htables ▸ hnone List.filter_sublist⟩
  | frame _ _ _ hframe hafter =>
    subst hafter
    exact ⟨_, rfl, hframe.tokens⟩
  | line hrequest hlog => exact ⟨_, hlog, hrequest.tokens⟩

end Daemon

end MldsaAuth.Authd
