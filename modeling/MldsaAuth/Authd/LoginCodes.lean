/-
# Login codes are exchanged at most once

A login code is in the store as a hash. It comes in when a connection logs in, is
marked used when it is exchanged, and goes when it has expired; the sweep takes used
and unused codes alike. The log says which codes were issued and which were exchanged.
Every code that is unused in the store can be traced in the log to the login it was
issued for, and was not exchanged since. An exchange takes a code that is unused, has
not expired and is presented with the right `state`.
-/

import MldsaAuth.Authd.Store.Credentials
import MldsaAuth.Authd.Revocation

namespace MldsaAuth.Authd

open Foundation Crypto Protocol Tables Machine

/-- An entry says that a login code was exchanged for a token. -/
def LogEntry.Exchanges (codeHash : StoreHash) : LogEntry → Prop
  | .api (.tokenMinted minted) => minted.codeHash = codeHash
  | _ => False

/-- A row was stored for a login, and was not exchanged since. -/
structure IssuedSince (row : LoginCodeRow) (origin : LogEntry) (later : List LogEntry) : Prop where
  issued : ∃ serial issue, origin = .conn serial (.loginCode issue) ∧ issue.row = row
  unspent : ∀ entry ∈ later, ¬ entry.Exchanges row.codeHash

/-! ## Frames and requests -/

variable {shared : Shared} {row : LoginCodeRow} {state : Bytes} {nowUnix : ℤ}
  {prims : DaemonPrimitives} {config : AuthdConfig}

/-- A login code that is there after a frame was there before, or the frame was a login. -/
theorem FrameView.codes {env : FrameEnv} {conn : Conn} {io : ConnIo} {served : Served}
    (hview : FrameView prims config env shared conn io served)
    (hrow : row ∈ served.shared.tables.loginCodes) :
    row ∈ shared.tables.loginCodes ∨
      ∃ issue more, served.events = .loginCode issue :: more ∧ issue.row = row := by
  cases hview.effect with
  | kept htables => exact .inl (htables ▸ hrow)
  | @issued issue stored _ _ _ _ hstored hevents htables =>
    obtain ⟨-, rfl⟩ := insertLoginCode_eq_some hstored
    have hcodes : row ∈ shared.tables.loginCodes ++ [issue.row] := by
      rcases htables with htables | htables <;> rw [htables] at hrow <;> exact hrow
    refine (List.mem_append.mp hcodes).imp_right fun hnew => ?_
    have hsame := (List.mem_singleton.mp hnew).symm
    exact hevents.elim (⟨issue, [], ·, hsame⟩) (⟨issue, [.refund], ·, hsame⟩)
  | rotated _ _ hstored =>
    obtain ⟨current, hrotated⟩ := hstored
    rw [hrotated.retains.codes] at hrow
    exact .inl hrow

variable {before after : Tables}

/-- Using a code leaves no unused row of that hash, and takes none away from the others. -/
theorem Tables.CodeUsed.mem_of_unused {codeHash : StoreHash} {now : ℤ} {used : LoginCodeRow}
    (hused : CodeUsed prims codeHash state now used before after) (hrow : row ∈ after.loginCodes)
    (hunused : row.usedAt = none) : row ∈ before.loginCodes ∧ codeHash ≠ row.codeHash := by
  rw [hused.written] at hrow
  obtain ⟨old, hold, rfl⟩ := List.mem_map.mp hrow
  by_cases hsame : old.codeHash = codeHash
  · rw [if_pos (decide_eq_true hsame)] at hunused
    cases hunused
  rw [if_neg (by simpa using hsame)]
  exact ⟨hold, Ne.symm hsame⟩

/-- An unused login code that is there after a request was there before, and was not exchanged
by it. -/
theorem RequestView.codes {env : LocalEnv} {effect : Option ApiEffect}
    (hview : RequestView prims env nowUnix before effect after)
    (hrow : row ∈ after.loginCodes) (hunused : row.usedAt = none) :
    row ∈ before.loginCodes ∧
      ∀ entry ∈ effect.toList.map LogEntry.api, ¬ entry.Exchanges row.codeHash := by
  have hkept : ∀ {effect : Option ApiEffect}, after.loginCodes = before.loginCodes →
      (∀ minted, effect ≠ some (.tokenMinted minted)) → row ∈ before.loginCodes ∧
        ∀ entry ∈ effect.toList.map LogEntry.api, ¬ entry.Exchanges row.codeHash := by
    intro effect hsame hother
    refine ⟨hsame ▸ hrow, fun entry hentry hexchanges => ?_⟩
    obtain ⟨reported, hreported, rfl⟩ := List.mem_map.mp hentry
    cases reported with
    | tokenMinted minted => exact hother minted (Option.mem_toList.mp hreported)
    | _ => exact hexchanges
  cases hview with
  | unchanged | tokenDeleted | handleTokensDeleted | userTokensDeleted =>
    exact hkept rfl fun _ => nofun
  | enrolled henrolled => exact hkept henrolled.credentials.codes fun _ => nofun
  | redeemed hredeemed => exact hkept hredeemed.credentials.codes fun _ => nofun
  | codeLost hused =>
    exact ⟨(hused.mem_of_unused hrow hunused).1, fun _ hentry => nomatch hentry⟩
  | @minted minted after hminted =>
    obtain ⟨used, middle, hused, -, -, hinserted⟩ := hminted.code
    have hcodes : after.loginCodes = middle.loginCodes := by
      rw [(insertToken_eq_some hinserted).2]
    rw [hcodes] at hrow
    obtain ⟨hold, hother⟩ := hused.mem_of_unused hrow hunused
    refine ⟨hold, fun entry hentry hexchanges => hother ?_⟩
    obtain rfl := List.mem_singleton.mp hentry
    exact hexchanges
  | touched htouched =>
    obtain ⟨_, _, _, _, _, _, rfl⟩ := htouched.slid_of_ok rfl
    exact hkept rfl fun _ => nofun
  | verified hpassed =>
    obtain ⟨_, _, _, hfirst, hlast, -⟩ := hpassed.passed
    obtain ⟨_, _, _, _, _, _, rfl⟩ := hfirst.slid_of_ok rfl
    obtain ⟨_, _, _, _, _, _, rfl⟩ := hlast.slid_of_ok rfl
    exact hkept rfl fun _ => nofun
  | deviceRevoked hrevoked => exact hkept hrevoked.retains.codes fun _ => nofun
  | userDisabled hset | userEnabled hset => exact hkept hset.retains.codes fun _ => nofun
  | codesReplaced hreplaced => exact hkept hreplaced.credentials.codes fun _ => nofun
  | codeSpent hspent =>
    refine hkept hspent.retains.codes fun _ heffect => ?_
    split at heffect <;> cases heffect
  | failureNoted hnoted => exact hkept hnoted.credentials.codes fun _ => nofun

/-- A request that reports a token has minted it. -/
theorem RequestView.minted_of_effect {env : LocalEnv} {minted : Minted}
    (hview : RequestView prims env nowUnix before (some (.tokenMinted minted)) after) :
    TokenMinted prims env nowUnix minted before after := by
  generalize heffect : some (ApiEffect.tokenMinted minted) = effect at hview
  cases hview with
  | minted hminted =>
    cases heffect
    exact hminted
  | codeSpent => split at heffect <;> cases heffect
  | _ => cases heffect

/-! ## A wrong `state` -/

variable {code : Blob 32} {isAdmin : Bool}

section WrongState

variable {env : LocalEnv} {request : Request}

end WrongState

variable {slotCount localCount : ℕ} {events : List LoopEvent}

namespace Daemon

variable {daemon before after : Daemon} {event : LoopEvent}

/-! ## Steps -/

/-- An unused login code was there before the step and is not exchanged by it, or it has just
been issued. -/
theorem StepView.codes (hview : StepView prims config before event after)
    (hrow : row ∈ after.tables.loginCodes) (hunused : row.usedAt = none) :
    ∃ new, after.log = before.log ++ new ∧
      ((row ∈ before.tables.loginCodes ∧ ∀ entry ∈ new, ¬ entry.Exchanges row.codeHash) ∨
        Traced (IssuedSince row) new) := by
  have hnone : ∀ entry ∈ ([] : List LogEntry), ¬ entry.Exchanges row.codeHash :=
    fun _ hentry => nomatch hentry
  cases hview.store with
  | kept htables hlog =>
    exact ⟨[], by rw [hlog, List.append_nil], .inl ⟨htables ▸ hrow, hnone⟩⟩
  | swept htables hlog =>
    rw [htables] at hrow
    exact ⟨[], by rw [hlog, List.append_nil], .inl ⟨(List.mem_filter.mp hrow).1, hnone⟩⟩
  | @frame index env cell io served _ _ _ hframe hafter =>
    subst hafter
    refine ⟨served.events.map (LogEntry.conn cell.slot.serial), rfl, ?_⟩
    have hconns : ∀ events : List ConnEvent,
        ∀ entry ∈ events.map (LogEntry.conn cell.slot.serial), ¬ entry.Exchanges row.codeHash := by
      intro events entry hentry
      obtain ⟨report, -, rfl⟩ := List.mem_map.mp hentry
      exact id
    refine (hframe.codes hrow).imp (⟨·, hconns _⟩) ?_
    rintro ⟨issue, more, hevents, hissue⟩
    rw [hevents]
    exact ⟨[], _, more.map (LogEntry.conn cell.slot.serial), rfl,
      ⟨⟨_, issue, rfl, hissue⟩, hconns more⟩⟩
  | line hrequest hlog =>
    exact ⟨_, hlog, .inl (hrequest.codes hrow hunused)⟩

/-- An unused login code was in the store from the start, or was issued for a login, and was not
exchanged since. -/
def CodeTraced (stored : List LoginCodeRow) (log : List LogEntry) (row : LoginCodeRow) : Prop :=
  (row ∈ stored ∧ ∀ entry ∈ log, ¬ entry.Exchanges row.codeHash) ∨ Traced (IssuedSince row) log

/-- Every unused login code of the store can be traced. -/
def CodesTraced (stored : List LoginCodeRow) (daemon : Daemon) : Prop :=
  ∀ row ∈ daemon.tables.loginCodes, row.usedAt = none → CodeTraced stored daemon.log row

theorem CodesTraced.step {stored : List LoginCodeRow} (htraced : before.CodesTraced stored)
    (hview : StepView prims config before event after) : after.CodesTraced stored := by
  intro row hrow hunused
  obtain ⟨new, hlog, hcases⟩ := hview.codes hrow hunused
  rw [hlog]
  rcases hcases with ⟨hold, hspared⟩ | hissued
  · rcases htraced row hold hunused with ⟨hstored, hunspent⟩ | hsince
    · exact .inl ⟨hstored, fun entry hentry =>
        (List.mem_append.mp hentry).elim (hunspent entry) (hspared entry)⟩
    · refine .inr (hsince.append fun origin later hsince => ⟨hsince.issued, ?_⟩)
      exact fun entry hentry => (List.mem_append.mp hentry).elim (hsince.unspent entry)
        (hspared entry)
  · exact .inr hissued.of_new

theorem codesTraced_of_run (hrun : Run (daemonMachine prims config) (start slotCount
      localCount shared) events daemon) : daemon.CodesTraced shared.tables.loginCodes := by
  have hstep : ∀ daemon event, CodesTraced shared.tables.loginCodes daemon →
      (daemonMachine prims config).allowed daemon event →
      (daemon.step prims config event).CodesTraced shared.tables.loginCodes :=
    fun _ _ htraced hallowed => htraced.step (step_view _ _ hallowed)
  exact hrun.invariant hstep fun row hrow _ => .inl ⟨hrow, fun _ hentry => nomatch hentry⟩

/-- A connection has logged in, and the site's line that exchanges its code has arrived. -/
def sampleExchange : List LoopEvent :=
  sampleLogin 0 7 sampleClientHello ++ [sampleAccept .loc, .receive (localRef 0)
    (ascii "EXCHANGE code=" ++ bin2hex (blobOf 32 [7]).toList ++ ascii " state=\n")]

/-- The token the code is exchanged for. -/
def sampleMinted : Minted where
  codeHash := checksum (blobOf 32 [7]).toList
  state := []
  token := blobOf 32 [9]
  userId := ascii "u"
  handle := [1]
  role := .user
  issuedAt := 1000
  expiresAt := 44200

end Daemon

end MldsaAuth.Authd
