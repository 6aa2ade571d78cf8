/-
# Disabling users and the credentials they hold

Disabling a user or revoking a device takes the tokens along, but not the login codes
that have been issued and not been exchanged. An exchange asks neither for the status
of the user nor for that of the device. So a code that is redeemable when its user is
disabled can still be exchanged, and once the user is enabled again the token is good.
As long as nobody is cut off while a code of theirs is redeemable, tokens are minted
for active devices of active users only, and nothing from before a DISABLE-USER is
good for anything after it.
-/

import MldsaAuth.Authd.Tokens

namespace MldsaAuth.Authd

open Foundation Crypto Protocol Tables Machine

variable {prims : DaemonPrimitives} {userId handle : Bytes}

namespace Tables

variable {change : StoreChange} {before after : Tables}

/-- A handle is found, with its device, its key and its user active. -/
def Live (tables : Tables) (userId handle : Bytes) : Prop :=
  ∃ key, tables.lookupActive handle = some key ∧ key.userId = userId

theorem Live.kept (hlive : before.Live userId handle) (hkeeps : Keeps change before after)
    (hspares : ∀ key, key.userId = userId → change.spares handle key) :
    after.Live userId handle := by
  obtain ⟨key, hlookup, huser⟩ := hlive
  exact ⟨key, hkeeps.active handle key hlookup (hspares key huser), huser⟩

/-- A rotation ends no device and no user. -/
theorem KeyRotated.keepsLive {rotation : Rotation} {now : ℤ} {current : KeyRow}
    (hrotated : KeyRotated prims rotation now current before after) (hwf : before.WellFormed)
    (hlive : before.Live userId handle) : after.Live userId handle := by
  by_cases hother : handle = rotation.handle
  · subst hother
    obtain ⟨key, hlookup, rfl⟩ := hlive
    obtain ⟨row, user, -, huser, rfl⟩ := lookupActive_eq_some_iff.mp hlookup
    obtain ⟨husers, hdevices, -⟩ := hrotated.rows
    obtain ⟨next, hnext, -⟩ := hrotated.activeKeyOf
    have hsame : after.activeUserOf rotation.handle = before.activeUserOf rotation.handle := by
      unfold activeUserOf deviceOf userOf
      rw [husers, hdevices]
    exact ⟨_, lookupActive_eq_some_iff.mpr ⟨next, user, hnext, hsame.trans huser, rfl⟩, rfl⟩
  · exact hlive.kept (hrotated.evolves hwf).2 fun _ _ => hother

end Tables

/-- An effect cuts off a user or a device: it revokes the device, disables the user or revokes
all devices of the user. -/
def ApiEffect.Cuts (userId handle : Bytes) : ApiEffect → Prop
  | .deviceRevoked other => handle = other
  | .userDisabled other | .devicesRevoked other => userId = other
  | _ => False

variable {effect : ApiEffect}

theorem ApiEffect.closes_of_cuts {conn : Conn} (hcuts : effect.Cuts conn.userId conn.handle) :
    effect.closes conn = true := by
  cases effect with
  | deviceRevoked | userDisabled | devicesRevoked => exact beq_iff_eq.mpr hcuts
  | _ => exact hcuts.elim

theorem ApiEffect.spares_of_uncut {key : ActiveKey} (huncut : ¬ effect.Cuts userId handle)
    (huser : key.userId = userId) : effect.change.spares handle key := by
  subst huser
  cases effect with
  | deviceRevoked => exact huncut
  | userDisabled => exact huncut
  | devicesRevoked => exact huncut
  | _ => trivial

/-- A login code was issued, and its user was not disabled since. -/
structure IssuedUncut (row : LoginCodeRow) (origin : LogEntry) (later : List LogEntry) : Prop where
  issued : ∃ serial issue, origin = .conn serial (.loginCode issue) ∧ issue.row = row
  uncut : .api (.userDisabled row.userId) ∉ later

variable {slotCount localCount : ℕ} {shared : Shared} {events : List LoopEvent}

namespace Daemon

variable {config : AuthdConfig} {daemon before after : Daemon} {event : LoopEvent}

/-! ## One step -/

/-- A step that does not cut off a user and a handle leaves them live. -/
theorem StepView.live (hview : StepView prims config before event after)
    (hwf : before.tables.WellFormed) (hlive : before.tables.Live userId handle)
    (huncut : ∀ effect, after.log = before.log ++ [.api effect] → ¬ effect.Cuts userId handle) :
    after.tables.Live userId handle := by
  cases hview.store with
  | kept htables => exact htables ▸ hlive
  | swept htables =>
    have hevolves : Evolves .harmless before.tables (before.tables.swept before.now) :=
      evolves_of_accounts rfl rfl rfl
    exact htables ▸ hlive.kept (hevolves hwf).2 fun _ _ => trivial
  | @frame _ _ _ _ served _ _ _ hframe hafter =>
    subst hafter
    by_cases hrotates : ∃ commit, .rotation commit ∈ served.events
    · obtain ⟨commit, hcommit⟩ := hrotates
      obtain ⟨-, -, ⟨current, hrotated⟩, -⟩ := hframe.committed_of_mem hcommit
      exact hrotated.keepsLive hwf hlive
    have hevolves : Evolves .harmless before.tables served.shared.tables :=
      hframe.evolves fun commit hcommit => absurd ⟨commit, hcommit⟩ hrotates
    exact hlive.kept (hevolves hwf).2 fun _ _ => trivial
  | @line _ effect hrequest hlog =>
    refine hlive.kept (hrequest.evolves hwf).2 fun key huser => ?_
    cases effect with
    | none => trivial
    | some effect => exact effect.spares_of_uncut (huncut effect hlog) huser

/-! ## Whole runs -/

/-- A login code that an exchange would still take. -/
structure Redeemable (daemon : Daemon) (row : LoginCodeRow) : Prop where
  stored : row ∈ daemon.tables.loginCodes
  unused : row.usedAt = none
  fresh : daemon.now < row.expiresAt

/-- The clock does not go back. -/
def Forward (daemon : Daemon) : LoopEvent → Prop
  | .tick _ nowUnix => daemon.now ≤ nowUnix
  | _ => True

/-- A step cuts nobody off while a login code of theirs could be exchanged. -/
def SparesCodes (prims : DaemonPrimitives) (config : AuthdConfig) (daemon : Daemon)
    (event : LoopEvent) : Prop :=
  ∀ effect, (daemon.step prims config event).log = daemon.log ++ [.api effect] →
    ∀ row, daemon.Redeemable row → ¬ effect.Cuts row.userId row.handle

theorem now_le_step (hallowed : daemon.allowed event) (hforward : daemon.Forward event) :
    daemon.now ≤ (daemon.step prims config event).now := by
  rw [now_step hallowed]
  cases event with
  | tick => exact hforward
  | _ => exact le_refl _

/-- Genuine connections and redeemable codes are of active devices and users, and no user was
disabled since a code of theirs was issued. -/
structure Unhindered (daemon : Daemon) : Prop where
  attributed : daemon.Attributed
  conns : ∀ index cell, daemon.cell index = some cell → cell.conn.Genuine →
    daemon.tables.Live cell.conn.userId cell.conn.handle
  codes : ∀ row, daemon.Redeemable row → daemon.tables.Live row.userId row.handle
  traced : ∀ row, daemon.Redeemable row → Traced (IssuedUncut row) daemon.log

/-- A genuine connection is one that no answer of the step has closed. -/
theorem uncut_of_genuine {index : ℕ} {next : Cell} (hresting : before.Resting)
    (hview : StepView prims config before event after)
    (hnext : after.cell index = some next) (hgenuine : next.conn.Genuine) (effect : ApiEffect)
    (hanswer : after.log = before.log ++ [.api effect]) :
    ¬ effect.Cuts next.conn.userId next.conn.handle := by
  intro hcuts
  obtain ⟨-, -, hcells⟩ := hview.store.answered hanswer
  obtain ⟨-, hspared⟩ := spared_of_genuine hresting hcells hnext hgenuine
  exact Bool.noConfusion (hspared.symm.trans (effect.closes_of_cuts hcuts))

/-- A code that is redeemable after a step was so before, or was issued to a live connection. -/
theorem Unhindered.redeemable {row : LoginCodeRow} (hunhindered : before.Unhindered)
    (hview : StepView prims config before event after) (hclock : before.now ≤ after.now)
    (hrow : after.Redeemable row) :
    before.Redeemable row ∨
      ∃ new, after.log = before.log ++ new ∧ Traced (IssuedSince row) new ∧
        (∀ effect, .api effect ∉ new) ∧ before.tables.Live row.userId row.handle := by
  obtain ⟨new, hlog, ⟨hold, -⟩ | hissued⟩ := hview.codes hrow.stored hrow.unused
  · exact .inl ⟨hold, hrow.unused, hclock.trans_lt hrow.fresh⟩
  refine .inr ⟨new, hlog, hissued, ?_, ?_⟩
  · intro effect heffect
    obtain ⟨first, origin, later, hsplit, ⟨serial, issue, rfl, -⟩, -⟩ := hissued
    rw [hview.store.eq_of_mem_api hlog heffect] at hsplit
    have hentry : .conn serial (.loginCode issue) ∈ [LogEntry.api effect] :=
      hsplit ▸ List.mem_append_right first List.mem_cons_self
    cases List.mem_singleton.mp hentry
  · obtain ⟨first, origin, later, rfl, ⟨serial, issue, rfl, rfl⟩, -⟩ := hissued
    obtain ⟨reported, hreported, hreports⟩ := hview.appended
    obtain rfl := List.append_cancel_left (hreported.symm.trans hlog)
    obtain ⟨env, index, cell, served, hserved, -, hreport⟩ :=
      hreports serial _ (List.mem_append_right _ List.mem_cons_self)
    obtain ⟨io, -, hframe⟩ := hserved.view
    obtain ⟨hstage, hgenuine, -, hissue, -⟩ := hframe.issued_of_mem hreport
    have hopened := genuine_of_opened (⟨.inl hstage, hgenuine⟩ : Conn.Genuine _)
    rw [hopened] at hstage hgenuine hissue
    rw [hissue.userId, hissue.handle]
    exact hunhindered.conns index cell hserved.cellAt ⟨.inl hstage, hgenuine⟩

theorem Unhindered.step (hunhindered : before.Unhindered)
    (hview : StepView prims config before event after) (hclock : before.now ≤ after.now)
    (hspares : ∀ effect, after.log = before.log ++ [.api effect] →
      ∀ row, before.Redeemable row → ¬ effect.Cuts row.userId row.handle) : after.Unhindered where
  attributed := hunhindered.attributed.step hview
  conns index next hnext hgenuine := by
    have hlive : before.tables.Live next.conn.userId next.conn.handle := by
      rcases hview.genuine hunhindered.attributed.resting hnext hgenuine with
        ⟨cell, hcell, hbefore, hhandle, huser⟩ | ⟨key, hlookup, huser⟩
      · rw [hhandle, huser]
        exact hunhindered.conns index cell hcell hbefore
      · exact ⟨key, hlookup, huser⟩
    exact hview.live hunhindered.attributed.wellFormed hlive
      (uncut_of_genuine hunhindered.attributed.resting hview hnext hgenuine)
  codes row hrow := by
    rcases hunhindered.redeemable hview hclock hrow with hbefore | ⟨new, hlog, -, hnone, hlive⟩
    · exact hview.live hunhindered.attributed.wellFormed (hunhindered.codes row hbefore)
        fun effect hanswer => hspares effect hanswer row hbefore
    refine hview.live hunhindered.attributed.wellFormed hlive fun effect hanswer => ?_
    obtain rfl := List.append_cancel_left (hlog.symm.trans hanswer)
    exact absurd List.mem_cons_self (hnone effect)
  traced row hrow := by
    rcases hunhindered.redeemable hview hclock hrow with hbefore | ⟨new, hlog, htraced, hnone, -⟩
    · obtain ⟨new, hlog, -⟩ := hview.appended
      rw [hlog]
      refine (hunhindered.traced row hbefore).append fun origin later hsince =>
        ⟨hsince.issued, fun hentry => ?_⟩
      refine (List.mem_append.mp hentry).elim hsince.uncut fun hnew => ?_
      rw [hview.store.eq_of_mem_api hlog hnew] at hlog
      exact hspares _ hlog row hbefore rfl
    · rw [hlog]
      obtain ⟨first, origin, later, rfl, hsince⟩ := htraced
      refine Traced.of_new ⟨first, origin, later, rfl, hsince.issued, fun hentry => ?_⟩
      exact hnone _ (List.mem_append_right _ (List.mem_cons_of_mem _ hentry))

/-- The daemon with a clock that does not go back, while nobody is cut off who has a redeemable
login code. -/
def sparingMachine (prims : DaemonPrimitives) (config : AuthdConfig) : Machine Daemon LoopEvent :=
  (daemonMachine prims config).restrict fun daemon event =>
    daemon.Forward event ∧ daemon.SparesCodes prims config event

theorem unhindered_of_run (hwf : shared.tables.WellFormed) (hcodes : shared.tables.loginCodes = [])
    (hrun : Run (sparingMachine prims config) (start slotCount localCount shared) events daemon) :
    daemon.Unhindered := by
  have hstep : ∀ daemon event, Unhindered daemon →
      (sparingMachine prims config).allowed daemon event →
      (daemon.step prims config event).Unhindered := by
    rintro daemon event hunhindered ⟨hallowed, hforward, hspares⟩
    exact hunhindered.step (step_view _ _ hallowed) (now_le_step hallowed hforward) hspares
  have hattributed := attributed_start slotCount localCount hwf
  have hnone : ∀ row, ¬ (start slotCount localCount shared).Redeemable row := fun row hrow =>
    absurd (hcodes ▸ hrow.stored : row ∈ []) List.not_mem_nil
  refine hrun.invariant hstep ⟨hattributed, ?_, fun row hrow => absurd hrow (hnone row),
    fun row hrow => absurd hrow (hnone row)⟩
  intro index cell hcell hgenuine
  have hfree := hattributed.resting index cell hcell (free_of_cell_start hcell)
  exact absurd hgenuine (not_genuine_of_free hfree)

/-- In every run, tokens go back to the exchange that has minted them. -/
theorem tokensTraced_of_run (htokens : shared.tables.tokens = [])
    (hrun : Run (daemonMachine prims config) (start slotCount localCount shared) events daemon) :
    daemon.TokensTraced prims fun _ _ _ => True := by
  have hstep : ∀ daemon event, TokensTraced prims (fun _ _ _ => True) daemon →
      (daemonMachine prims config).allowed daemon event →
      (daemon.step prims config event).TokensTraced prims fun _ _ _ => True :=
    fun _ _ htraced hallowed => htraced.step
      ⟨fun _ _ _ _ _ _ _ _ _ => trivial, fun _ _ _ _ _ _ _ _ _ _ _ _ _ => trivial,
        fun _ => trivial⟩ (step_view _ _ hallowed)
  have hnone : (start slotCount localCount shared).tables.tokens = [] := htokens
  refine hrun.invariant hstep ⟨?_, ?_⟩
  · rw [hnone]
    exact List.nodup_nil
  rw [hnone]
  exact fun _ hrow => nomatch hrow

/-- The code an exchange takes is redeemable. -/
theorem redeemable_of_minted {env : LocalEnv} {minted : Minted} {tables : Tables}
    (hminted : TokenMinted prims env daemon.now minted daemon.tables tables) :
    ∃ row, daemon.Redeemable row ∧ row.codeHash = minted.codeHash ∧
      minted.userId = row.userId ∧ minted.handle = row.handle := by
  obtain ⟨row, used, hused, huser, hhandle, -⟩ := hminted.code
  have hhash : row.codeHash = minted.codeHash := by simpa using List.find?_some hused.found
  exact ⟨row, ⟨List.mem_of_find?_eq_some hused.found, hused.unused, hused.fresh⟩, hhash, huser,
    hhandle⟩

/-- While nobody is cut off who has a redeemable login code, tokens are minted for active devices
of active users, and a token that is found good was minted, for a login code that was issued,
after its user was last disabled. -/
theorem credentials_cut_off {slotCount localCount : ℕ} {shared : Shared}
    {events : List LoopEvent} {event : LoopEvent} (hwf : shared.tables.WellFormed)
    (hcodes : shared.tables.loginCodes = []) (htokens : shared.tables.tokens = [])
    (hrun : Run (sparingMachine prims config) (start slotCount localCount shared) events daemon)
    (hallowed : (sparingMachine prims config).allowed daemon event) :
    (∀ minted, (daemon.step prims config event).log =
        daemon.log ++ [.api (.tokenMinted minted)] →
      (∃ device, daemon.tables.deviceOf minted.handle = some device ∧
        device.userId = minted.userId ∧ device.status = .active) ∧
      ∃ user, daemon.tables.userOf minted.userId = some user ∧ user.status = .active) ∧
    ∀ verified, (daemon.step prims config event).log =
        daemon.log ++ [.api (.tokenVerified verified)] →
      ∃ first serial issue second minted third,
        daemon.log = first ++ .conn serial (.loginCode issue) :: second ++
          .api (.tokenMinted minted) :: third ∧
        prims.sha256 minted.token.toList = prims.sha256 verified.token.toList ∧
        minted.userId = verified.userId ∧ minted.handle = verified.handle ∧
        issue.row.codeHash = minted.codeHash ∧ issue.row.userId = verified.userId ∧
        .api (.userDisabled verified.userId) ∉ second ++ third := by
  have hview := step_view prims config hallowed.1
  constructor
  · intro minted hanswer
    obtain ⟨env, hrequest, -⟩ := hview.store.answered hanswer
    obtain ⟨row, hrow, -, huser, hhandle⟩ := redeemable_of_minted hrequest.minted_of_effect
    obtain ⟨key, hlookup, hkey⟩ := (unhindered_of_run hwf hcodes hrun).codes row hrow
    obtain ⟨stored, user, -, hactive, rfl⟩ := lookupActive_eq_some_iff.mp hlookup
    obtain ⟨device, hdevice, hstatus, hfound, huserActive⟩ := activeUserOf_eq_some_iff.mp hactive
    have howner : device.userId = row.userId := (userId_of_userOf hfound).symm.trans hkey
    rw [huser, hhandle]
    exact ⟨⟨device, hdevice, howner, hstatus⟩, user, howner ▸ hfound, huserActive⟩
  · intro verified hanswer
    obtain ⟨env, hrequest, -⟩ := hview.store.answered hanswer
    obtain ⟨token, htoken, hhash, -, huserId, hhandleId⟩ := hrequest.passed_of_effect.found
    obtain ⟨earlier, origin, third, hlog, hsince⟩ :=
      (tokensTraced_of_run htokens hrun.unrestrict).traced token htoken
    obtain ⟨minted, rfl, hminted, hids, -⟩ := hsince.minted
    have hidsOk := Bool.and_eq_true_iff.mp hids
    have howner : verified.userId = minted.userId :=
      (huserId (hminted.userId ▸ length_of_idOk hidsOk.1)).trans hminted.userId
    have hdevice : verified.handle = minted.handle :=
      (hhandleId (hminted.handle ▸ length_of_idOk hidsOk.2)).trans hminted.handle
    obtain ⟨past, reached, line, tables, hpast, rfl, hexchange⟩ := minted_at hrun hlog
    obtain ⟨row, hrow, hcode, huser, -⟩ := redeemable_of_minted hexchange
    obtain ⟨first, origin, second, hsplit, ⟨serial, issue, rfl, rfl⟩, huncut⟩ :=
      (unhindered_of_run hwf hcodes hpast).traced row hrow
    have hissued : verified.userId = issue.row.userId := howner.trans huser
    refine ⟨first, serial, issue, second, minted, third, ?_, hminted.tokenHash.symm.trans hhash,
      howner.symm, hdevice.symm, hcode, hissued.symm, fun hentry => ?_⟩
    · rw [hlog, hsplit]
    rw [hissued] at hentry
    refine (List.mem_append.mp hentry).elim huncut fun hlater => ?_
    refine hsince.undeleted _ hlater ?_
    exact hminted.userId.trans huser

/-- A run without readings of the clock whose log cuts nobody off. -/
theorem run_sparing (hrun : Run (daemonMachine prims config) before events after)
    (hclock : ∀ event ∈ events, ∀ nowMs nowUnix, event ≠ .tick nowMs nowUnix)
    (huncut : ∀ effect, .api effect ∈ after.log → ∀ userId handle, ¬ effect.Cuts userId handle) :
    Run (sparingMachine prims config) before events after := by
  refine hrun.restrict fun earlier event later reached hevents hpast hlater => ⟨?_, ?_⟩
  · have hmem : event ∈ events := hevents ▸ List.mem_append_right _ List.mem_cons_self
    cases event with
    | tick nowMs nowUnix => exact absurd rfl (hclock _ hmem nowMs nowUnix)
    | _ => trivial
  · intro effect hanswer row _
    refine huncut effect ((log_grows hlater).subset ?_) _ _
    rw [step_daemonMachine, hanswer]
    exact List.mem_append_right _ List.mem_cons_self

/-- The token of a login is good, and was minted since its user was last disabled. -/
theorem credentials_cut_off_sampleVerify :
    ∃ minted third, .api (.tokenMinted minted) :: third <:+ (sampleDaemon sampleVerify).log ∧
      minted.userId = ascii "u" ∧ .api (.userDisabled (ascii "u")) ∉ third := by
  have hanswer : ((sampleDaemon sampleVerify).step .sample sampleConfig
      (.serve (localRef 0) (sampleServe 0 9))).log =
        (sampleDaemon sampleVerify).log ++ [.api (.tokenVerified sampleVerified)] := by
    decide +kernel
  have hrun : Run (sparingMachine .sample sampleConfig) (start 2 2 sampleShared)
      sampleVerify (sampleDaemon sampleVerify) := by
    refine run_sparing run_sampleVerify.unrestrict ?_ ?_
    · have hticks : (sampleVerify.all fun event => match event with
          | .tick _ _ => false
          | _ => true) = true := by decide +kernel
      rintro event hevent nowMs nowUnix rfl
      exact Bool.noConfusion (List.all_eq_true.mp hticks _ hevent)
    · have hminted : ∀ entry ∈ (sampleDaemon sampleVerify).log, entry.kind = none →
          entry = .api (.tokenMinted sampleMinted) := by decide +kernel
      intro effect hentry userId handle
      cases hminted _ hentry rfl
      exact id
  have hallowed : (sparingMachine .sample sampleConfig).allowed (sampleDaemon sampleVerify)
      (.serve (localRef 0) (sampleServe 0 9)) := by
    refine ⟨by decide +kernel, trivial, fun effect hlog row _ => ?_⟩
    cases List.append_cancel_left (hanswer.symm.trans hlog)
    exact id
  obtain ⟨first, serial, issue, second, minted, third, hlog, -, huser, -, -, -, huncut⟩ :=
    (credentials_cut_off (by decide +kernel) rfl rfl hrun hallowed).2 sampleVerified hanswer
  refine ⟨minted, third, ?_, huser, fun hentry => huncut (List.mem_append_right _ hentry)⟩
  rw [hlog]
  exact List.suffix_append _ _

/-- After a login its user is disabled, and the site exchanges the code; the user is enabled
again, and the site's line that verifies the token has arrived. -/
def sampleResurrected : List LoopEvent :=
  sampleLogin 0 7 sampleClientHello ++ [sampleAccept .loc] ++
    sampleLine 0 0 (ascii "DISABLE-USER user=75") ++
    sampleLine 0 9 (ascii "EXCHANGE code=" ++ bin2hex (blobOf 32 [7]).toList ++ ascii " state=") ++
    sampleLine 0 0 (ascii "ENABLE-USER user=75") ++
    [.receive (localRef 0) (ascii "VERIFY token=" ++ bin2hex (blobOf 32 [9]).toList ++ ascii "\n")]

/-- The code is exchanged while its user is disabled, and the token is good once the user is
enabled again. -/
theorem verified_sampleResurrected :
    Run (daemonMachine .sample sampleConfig) (start 2 2 sampleShared) sampleResurrected
        (sampleDaemon sampleResurrected) ∧
      (sampleDaemon (sampleResurrected.take 12)).tables.Disabled (ascii "u") ∧
      (sampleDaemon (sampleResurrected.take 13)).log =
        (sampleDaemon (sampleResurrected.take 12)).log ++ [.api (.tokenMinted sampleMinted)] ∧
      ((sampleDaemon sampleResurrected).step .sample sampleConfig
          (.serve (localRef 0) (sampleServe 0 9))).log =
        (sampleDaemon sampleResurrected).log ++ [.api (.tokenVerified sampleVerified)] := by
  refine ⟨.of_allAllowed (by decide +kernel), ?_, by decide +kernel, by decide +kernel⟩
  have hdisabled : ((sampleDaemon (sampleResurrected.take 12)).tables.userOf (ascii "u")).any
      (fun user => decide (user.status = .disabled)) = true := by decide +kernel
  obtain ⟨user, huser, hstatus⟩ := (Option.any_eq_true _ _).mp hdisabled
  exact ⟨user, huser, of_decide_eq_true hstatus⟩

end Daemon

end MldsaAuth.Authd
