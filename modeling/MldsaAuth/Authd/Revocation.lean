/-
# Revocation and the connections that are open

Revoking a device, disabling a user and revoking all devices of a user take effect in
the store and close the connections they are about. A connection that has not named an
identity yet is not closed; what it may still do is decided by the store when it does.
So nobody gets anything for a revoked device any more, nobody for a disabled user until
the user is enabled, and the connections that were closed never again.

The proofs rest on three facts about one step: who is pinned to a genuine key was so
before or has just been looked up, whoever gets a login code or a rotation is pinned to
a genuine key, and revoked devices and disabled users are never found by a lookup.
-/

import MldsaAuth.Authd.LoginKeys

namespace MldsaAuth.Authd

open Foundation Crypto Protocol Tables ConnStage Machine

/-- A connection is past its ClientHello and pinned to a key of its handle. -/
structure Conn.Genuine (conn : Conn) : Prop where
  stage : conn.stage = .awaitCa ∨ conn.stage = .serving
  decoy : conn.decoy = false

/-- The user and the handle a connection has obtained a login code or a rotation for. -/
def ConnEvent.obtained : ConnEvent → Option (Bytes × Bytes)
  | .loginCode issue => some (issue.row.userId, issue.row.handle)
  | .rotation commit => some (commit.userId, commit.handle)
  | _ => none

/-- What was obtained, for an entry of the log. -/
def LogEntry.obtained : LogEntry → Option (Bytes × Bytes)
  | .conn _ event => event.obtained
  | .api _ => none

/-! ## Frames -/

variable {effect : ApiEffect} {report : ConnEvent} {prims : DaemonPrimitives} {config : AuthdConfig}

section Served

variable {env : FrameEnv} {shared : Shared} {conn : Conn} {io : ConnIo} {served : Served}

/-- A genuine connection was so before the frame, or its handle has just been looked up. -/
theorem FrameView.genuine (hview : FrameView prims config env shared conn io served)
    (hgenuine : served.conn.Genuine) :
    (conn.Genuine ∧ served.conn.handle = conn.handle ∧ served.conn.userId = conn.userId) ∨
      ∃ key, shared.tables.lookupActive served.conn.handle = some key ∧
        key.userId = served.conn.userId := by
  have hkept : ∀ {stage : ConnStage}, conn.stage = stage → stage = .awaitCa ∨ stage = .serving →
      conn.SameIdentity served.conn →
      (conn.Genuine ∧ served.conn.handle = conn.handle ∧ served.conn.userId = conn.userId) := by
    rintro stage rfl hstage hidentity
    exact ⟨⟨hstage, hidentity.decoy.symm.trans hgenuine.decoy⟩, hidentity.handle, hidentity.userId⟩
  have hnever : ∀ {stage : ConnStage}, served.conn.stage = stage → stage ≠ .awaitCa →
      stage ≠ .serving → False := by
    rintro stage rfl hauth hserving
    exact hgenuine.stage.elim hauth hserving
  cases hview with
  | hello hstage hview =>
    cases hview with
    | malformed hconn =>
      exact (hnever (hconn ▸ hstage) noConfusion noConfusion).elim
    | @pinned handle pin hpin _ hgreeted =>
      have hidentity := hgreeted.identity
      obtain ⟨key, hlookup, rfl⟩ := hpin (hidentity.decoy.symm.trans hgenuine.decoy)
      exact .inr ⟨key, hidentity.handle.symm ▸ hlookup, hidentity.userId.symm⟩
  | auth hstage hview =>
    cases hview with
    | refused hidentity | issued hidentity => exact .inl (hkept hstage (.inl rfl) hidentity)
  | record hstage hview =>
    cases hview with
    | closed hidentity | rotated hidentity => exact .inl (hkept hstage (.inr rfl) hidentity)
  | late hstage hconn =>
    exact (hnever (hconn ▸ hstage) noConfusion noConfusion).elim

/-- Whoever obtains something is genuine, and obtains it for its own user and handle. -/
theorem FrameView.obtained {owner : Bytes × Bytes}
    (hview : FrameView prims config env shared conn io served) (hreport : report ∈ served.events)
    (hobtained : report.obtained = some owner) :
    conn.Genuine ∧ owner = (conn.userId, conn.handle) := by
  cases report with
  | serverHello | refund => cases hobtained
  | loginCode =>
    obtain ⟨hstage, hdecoy, -, hissued, -⟩ := hview.issued_of_mem hreport
    refine ⟨⟨.inl hstage, hdecoy⟩, ?_⟩
    rw [← Option.some.inj hobtained, hissued.userId, hissued.handle]
  | rotation =>
    obtain ⟨hstage, hcommit, -⟩ := hview.committed_of_mem hreport
    refine ⟨⟨.inr hstage, hcommit.genuine⟩, ?_⟩
    rw [← Option.some.inj hobtained, hcommit.userId, hcommit.handle]

/-! ## Requests -/

/-- What the tables are like after a request that revokes or disables. -/
theorem RequestView.cutsOff {line : LocalEnv} {nowUnix : ℤ} {before after : Tables}
    (hview : RequestView prims line nowUnix before (some effect) after) :
    (∀ handle, effect = .deviceRevoked handle → after.Revoked handle) ∧
      (∀ userId, effect = .userDisabled userId → after.Disabled userId) ∧
      ∀ userId, effect = .devicesRevoked userId → before.activeDevices userId ≤ 1024 →
        after.activeDevices userId = 0 := by
  generalize hreported : some effect = reported at hview
  cases hview with
  | deviceRevoked hrevoked =>
    cases hreported
    refine ⟨?_, fun _ => nofun, fun _ => nofun⟩
    rintro _ ⟨⟩
    exact hrevoked.revoked
  | userDisabled hset =>
    cases hreported
    refine ⟨fun _ => nofun, ?_, fun _ => nofun⟩
    rintro _ ⟨⟩
    exact hset.disabled
  | codeSpent hspent =>
    split at hreported
    · cases hreported
      rename_i hall
      refine ⟨fun _ => nofun, fun _ => nofun, ?_⟩
      rintro _ ⟨⟩ hguard
      exact (hall ▸ hspent).allRevoked hguard
    · cases hreported
  | _ =>
    cases hreported <;> exact ⟨fun _ => nofun, fun _ => nofun, fun _ => nofun⟩

end Served

variable {bars : Bytes → Bytes → Prop} {userId : Bytes} {events : List LoopEvent}
  {rest : List LogEntry} {next cell : Cell} {new : List LogEntry} {handles : Bytes → Prop}

namespace Daemon

variable {daemon before after : Daemon} {event : LoopEvent} {index : ℕ}

/-! ## Steps -/

variable {conn : Conn}

theorem not_genuine_of_free (hfree : conn.stage = .free) : ¬ conn.Genuine := by
  rintro ⟨hstage, -⟩
  rw [hfree] at hstage
  exact hstage.elim noConfusion noConfusion

/-- The record a frame is served with is genuine only if it was so before. -/
theorem genuine_of_opened {bound : Bool} (hgenuine : (conn.opened bound).Genuine) :
    conn.opened bound = conn := by
  refine (conn.opened_cases bound).resolve_right ?_
  rintro ⟨hawait, -⟩
  have hstage := hgenuine.stage
  rw [hawait] at hstage
  exact hstage.elim noConfusion noConfusion

/-- A connection that is genuine after a step was so before, or its handle was found. -/
theorem StepView.genuine (hview : StepView prims config before event after)
    (hresting : before.Resting) (hnext : after.cell index = some next)
    (hgenuine : next.conn.Genuine) :
    (∃ cell, before.cell index = some cell ∧ cell.conn.Genuine ∧
        next.conn.handle = cell.conn.handle ∧ next.conn.userId = cell.conn.userId) ∨
      ∃ key, before.tables.lookupActive next.conn.handle = some key ∧
        key.userId = next.conn.userId := by
  obtain ⟨cell, hcell, hmove⟩ := hview.cell_move hnext
  cases hmove with
  | plain hmove =>
    cases hmove with
    | kept => exact .inl ⟨_, hcell, hgenuine, rfl, rfl⟩
    | touched | drained => exact .inl ⟨cell, hcell, hgenuine, rfl, rfl⟩
    | closed | overwritten =>
      exact absurd hgenuine (not_genuine_of_free Conn.stage_cleared)
  | opened _ hfree =>
    exact absurd hgenuine (not_genuine_of_free (hresting index cell hcell hfree))
  | served _ hserved =>
    obtain ⟨io, -, hframe⟩ := hserved.view
    refine (hframe.genuine hgenuine).imp_left ?_
    rintro ⟨hbefore, hhandle, huser⟩
    have hsame := genuine_of_opened hbefore
    rw [hsame] at hbefore hhandle huser
    exact ⟨cell, hcell, hbefore, hhandle, huser⟩
  | revoked => exact absurd hgenuine (not_genuine_of_free Conn.stage_cleared)

/-- What holds in every state: primary keys are unique, serial numbers are in order, free slots
have unused records, and a genuine connection is of the user its handle is enrolled for. -/
structure Attributed (daemon : Daemon) : Prop where
  wellFormed : daemon.tables.WellFormed
  numbered : daemon.Numbered
  resting : daemon.Resting
  owns : ∀ index cell, daemon.cell index = some cell → cell.conn.Genuine →
    daemon.tables.Owns cell.conn.userId cell.conn.handle

theorem attributed_start (slotCount localCount : ℕ) {shared : Shared}
    (hwf : shared.tables.WellFormed) : (start slotCount localCount shared).Attributed where
  wellFormed := hwf
  numbered := numbered_start
  resting := resting_start
  owns index cell hcell hgenuine := by
    have hfree := resting_start index cell hcell (free_of_cell_start hcell)
    exact absurd hgenuine (not_genuine_of_free hfree)

/-- A step keeps devices, users and who owns which handle. -/
theorem StoreMove.keeps (hmove : StoreMove prims config before event after)
    (hwf : before.tables.WellFormed) :
    ∃ change, Tables.Keeps change before.tables after.tables ∧
      ∀ userId, change.enables userId → after.log = before.log ++ [.api (.userEnabled userId)] := by
  cases hmove with
  | kept htables =>
    exact ⟨.harmless, htables ▸ .refl _, fun _ henables => henables.elim⟩
  | swept htables =>
    have hevolves : Tables.Evolves .harmless before.tables (before.tables.swept before.now) :=
      evolves_of_accounts rfl rfl rfl
    exact ⟨.harmless, htables ▸ (hevolves hwf).2, fun _ henables => henables.elim⟩
  | frame _ _ _ hview hafter =>
    subst hafter
    have hevolves : Tables.Evolves ⟨fun _ _ => False, fun _ => False⟩ _ _ :=
      hview.evolves fun _ _ _ _ hspares => hspares.elim
    exact ⟨_, (hevolves hwf).2, fun _ henables => henables.elim⟩
  | @line env effect hview hlog =>
    refine ⟨_, (hview.evolves hwf).2, fun userId henables => ?_⟩
    cases effect with
    | none => exact henables.elim
    | some effect =>
      cases effect with
      | userEnabled other =>
        obtain rfl : userId = other := henables
        exact hlog
      | _ => exact henables.elim

theorem Attributed.step (hattributed : before.Attributed)
    (hview : StepView prims config before event after) : after.Attributed where
  wellFormed := hview.store.wellFormed hattributed.wellFormed
  numbered := hattributed.numbered.step hview
  resting := hattributed.resting.step hview
  owns index next hnext hgenuine := by
    obtain ⟨change, hkeeps, -⟩ := hview.store.keeps hattributed.wellFormed
    rcases hview.genuine hattributed.resting hnext hgenuine with
      ⟨cell, hcell, hbefore, hhandle, huser⟩ | ⟨key, hlookup, huser⟩
    · rw [hhandle, huser]
      exact hkeeps.owns (hattributed.owns index cell hcell hbefore)
    rw [← huser]
    exact hkeeps.owns (owns_of_lookupActive hlookup)

/-! ## Bars -/

/-- No lookup finds, and no genuine connection is of, a user and handle that are barred. -/
structure Barred (bars : Bytes → Bytes → Prop) (daemon : Daemon) : Prop where
  lookups : ∀ handle key, daemon.tables.lookupActive handle = some key → ¬ bars key.userId handle
  conns : ∀ index cell, daemon.cell index = some cell → cell.conn.Genuine →
    ¬ bars cell.conn.userId cell.conn.handle

/-- As long as no lookup finds what is barred, no connection comes to it. -/
theorem Barred.step (hbarred : before.Barred bars)
    (hview : StepView prims config before event after) (hresting : before.Resting)
    (hlookups : ∀ handle key, after.tables.lookupActive handle = some key →
      ¬ bars key.userId handle) : after.Barred bars where
  lookups := hlookups
  conns index next hnext hgenuine := by
    rcases hview.genuine hresting hnext hgenuine with
      ⟨cell, hcell, hbefore, hhandle, huser⟩ | ⟨key, hlookup, huser⟩
    · rw [hhandle, huser]
      exact hbarred.conns index cell hcell hbefore
    rw [← huser]
    exact hbarred.lookups _ key hlookup

/-- What is barred is not obtained. -/
theorem Barred.not_obtained (hbarred : before.Barred bars) {env : ServeEnv} {served : Served}
    {handle : Bytes} (hserved : FrameServed prims config before env index cell served)
    (hreport : report ∈ served.events) (hobtained : report.obtained = some (userId, handle)) :
    ¬ bars userId handle := by
  obtain ⟨io, -, hframe⟩ := hserved.view
  obtain ⟨hgenuine, hsame⟩ := hframe.obtained hreport hobtained
  have hopened := genuine_of_opened hgenuine
  rw [hopened] at hgenuine hsame
  obtain ⟨rfl, rfl⟩ := Prod.mk.inj hsame
  exact hbarred.conns index cell hserved.cellAt hgenuine

/-- An entry says that something barred was obtained. -/
def Obtains (bars : Bytes → Bytes → Prop) (entry : LogEntry) : Prop :=
  ∃ userId handle, entry.obtained = some (userId, handle) ∧ bars userId handle

theorem Barred.appended (hbarred : before.Barred bars)
    (hnew : ∀ serial report, .conn serial report ∈ new → ∃ env index cell served,
      FrameServed prims config before env index cell served ∧ cell.slot.serial = serial ∧
      report ∈ served.events) : ∀ entry ∈ new, ¬ Obtains bars entry := by
  rintro entry hentry ⟨userId, handle, hobtained, hbars⟩
  cases entry with
  | api => cases hobtained
  | conn serial report =>
    obtain ⟨env, index, cell, served, hserved, -, hreport⟩ := hnew serial report hentry
    exact hbarred.not_obtained hserved hreport hobtained hbars

theorem log_grows_step (hallowed : (daemonMachine prims config).allowed daemon event) :
    daemon.log <+: ((daemonMachine prims config).step daemon event).log :=
  (step_view prims config hallowed).log_grows

section

variable (hrun : Run (daemonMachine prims config) before events after)

include hrun

/-- Handles that are revoked stay barred for good. -/
theorem revoked_bars (hattributed : before.Attributed)
    (hrevoked : ∀ handle, handles handle → before.tables.Revoked handle)
    (hbarred : before.Barred fun _ handle => handles handle)
    (hrest : after.log = before.log ++ rest) :
    ∀ entry ∈ rest, ¬ Obtains (fun _ handle => handles handle) entry := by
  refine (hrun.barred_since Daemon.log
    (fun daemon => daemon.Attributed ∧ (∀ handle, handles handle → daemon.tables.Revoked handle) ∧
      daemon.Barred fun _ handle => handles handle)
    (fun _ => False) (Obtains fun _ handle => handles handle) ?_ (fun _ _ => log_grows_step)
    ⟨hattributed, hrevoked, hbarred⟩ hrest fun _ _ => id).2
  rintro daemon event ⟨hattributed, hrevoked, hbarred⟩ hallowed
  have hview := step_view prims config hallowed
  obtain ⟨new, hlog, hnew⟩ := hview.appended
  obtain ⟨change, hkeeps, -⟩ := hview.store.keeps hattributed.wellFormed
  have hstill : ∀ handle, handles handle → (daemon.step prims config event).tables.Revoked handle :=
    fun handle hhandle => hkeeps.revoked (hrevoked handle hhandle)
  refine ⟨new, hlog, .inr ⟨⟨hattributed.step hview, hstill, ?_⟩, hbarred.appended hnew⟩⟩
  refine hbarred.step hview hattributed.resting fun handle key hlookup hhandle => ?_
  exact not_revoked_of_active (isSome_activeUserOf_of_lookupActive hlookup) (hstill handle hhandle)

/-- A disabled user is barred until the user is enabled. -/
theorem disabled_bars (hattributed : before.Attributed) (hdisabled : before.tables.Disabled userId)
    (hbarred : before.Barred fun owner _ => owner = userId) (hrest : after.log = before.log ++ rest)
    (henabled : .api (.userEnabled userId) ∉ rest) :
    ∀ entry ∈ rest, ¬ Obtains (fun owner _ => owner = userId) entry := by
  refine (hrun.barred_since Daemon.log
    (fun daemon => daemon.Attributed ∧ daemon.tables.Disabled userId ∧
      daemon.Barred fun owner _ => owner = userId)
    (fun entry => entry = .api (.userEnabled userId)) (Obtains fun owner _ => owner = userId) ?_
    (fun _ _ => log_grows_step) ⟨hattributed, hdisabled, hbarred⟩ hrest
    fun entry hentry heq => henabled (heq ▸ hentry)).2
  rintro daemon event ⟨hattributed, hdisabled, hbarred⟩ hallowed
  have hview := step_view prims config hallowed
  obtain ⟨new, hlog, hnew⟩ := hview.appended
  obtain ⟨change, hkeeps, henables⟩ := hview.store.keeps hattributed.wellFormed
  refine ⟨new, hlog, ?_⟩
  by_cases hchange : change.enables userId
  · have hsame := List.append_cancel_left (hlog.symm.trans (henables userId hchange))
    exact .inl ⟨_, hsame ▸ List.mem_singleton_self _, rfl⟩
  have hstill := hkeeps.disabled hdisabled hchange
  refine .inr ⟨⟨hattributed.step hview, hstill, ?_⟩, hbarred.appended hnew⟩
  refine hbarred.step hview hattributed.resting fun handle key hlookup howner => ?_
  refine not_disabled_of_active (isSome_activeUserOf_of_lookupActive hlookup) ?_ hstill
  exact howner ▸ owns_of_lookupActive hlookup

/-- A serial number whose connection is closed never appears again. -/
theorem closed_bars {serial : ℕ} (hnumber : serial < before.accepted)
    (hclosed : ∀ index cell, before.cell index = some cell → cell.slot.state ≠ .free →
      cell.slot.serial ≠ serial) (hrest : after.log = before.log ++ rest) :
    ∀ report, .conn serial report ∉ rest := by
  have hbarred := (hrun.barred_since Daemon.log
    (fun daemon => serial < daemon.accepted ∧ ∀ index cell, daemon.cell index = some cell →
      cell.slot.state ≠ .free → cell.slot.serial ≠ serial)
    (fun _ => False) (fun entry => ∃ report, entry = .conn serial report) ?_
    (fun _ _ => log_grows_step) ⟨hnumber, hclosed⟩ hrest fun _ _ => id).2
  · exact fun report hentry => hbarred _ hentry ⟨report, rfl⟩
  rintro daemon event ⟨hnumber, hclosed⟩ hallowed
  have hview := step_view prims config hallowed
  obtain ⟨new, hlog, hnew⟩ := hview.appended
  refine ⟨new, hlog, .inr ⟨⟨Nat.lt_of_lt_of_le hnumber hview.accepted_le, ?_⟩, ?_⟩⟩
  · intro index next hnext hopen
    obtain ⟨cell, hcell, hmove⟩ := hview.cell_move hnext
    rcases hmove.numbered hopen with ⟨hbefore, hsame⟩ | ⟨hsame, -⟩
    · rw [hsame]
      exact hclosed index cell hcell hbefore
    · omega
  · rintro entry hentry ⟨report, rfl⟩
    obtain ⟨env, index, cell, served, hserved, hserial, -⟩ := hnew serial report hentry
    have hopen : cell.slot.state ≠ .free := by
      rw [hserved.active]
      exact SlotState.noConfusion
    exact hclosed index cell hserved.cellAt hopen hserial

end

/-! ## Answers -/

/-- The step at which a request reports an effect carries the request out, and closes the
connections the effect is about. -/
theorem StoreMove.answered (hmove : StoreMove prims config before event after)
    (hanswer : after.log = before.log ++ [.api effect]) :
    ∃ env, RequestView prims env before.now before.tables (some effect) after.tables ∧
      ∀ index, after.cell index = (before.cell index).map (Cell.closeIf effect.closes) := by
  cases hmove with
  | kept _ hlog | swept _ hlog => simp [hlog] at hanswer
  | @frame index env cell io served _ _ _ _ hafter =>
    subst hafter
    have hevents : served.events.map (LogEntry.conn cell.slot.serial) = [.api effect] :=
      List.append_cancel_left hanswer
    have hmem := hevents.symm ▸ List.mem_singleton_self (LogEntry.api effect)
    obtain ⟨report, -, hreport⟩ := List.mem_map.mp hmem
    cases hreport
  | @line env reported hview hlog hcells =>
    rw [hlog] at hanswer
    have hreported := List.append_cancel_left hanswer
    cases reported with
    | none => cases hreported
    | some =>
      cases hreported
      exact ⟨env.line, hview, hcells⟩

/-- A step that reports what a request did reports nothing else. -/
theorem StoreMove.eq_of_mem_api (hmove : StoreMove prims config before event after)
    (hlog : after.log = before.log ++ new) (hentry : .api effect ∈ new) : new = [.api effect] := by
  cases hmove with
  | kept => simp_all
  | swept => simp_all
  | frame _ _ _ _ hafter =>
    subst hafter
    obtain rfl := List.append_cancel_left hlog
    obtain ⟨report, -, hreport⟩ := List.mem_map.mp hentry
    cases hreport
  | line _ hreported =>
    obtain rfl := List.append_cancel_left (hreported.symm.trans hlog)
    obtain ⟨other, hother, heq⟩ := List.mem_map.mp hentry
    cases heq
    rw [Option.mem_toList.mp hother]
    rfl

/-- A connection that is genuine after an answer was not closed by it. -/
theorem spared_of_genuine (hresting : before.Resting)
    (hcells : ∀ index, after.cell index = (before.cell index).map (Cell.closeIf effect.closes))
    (hnext : after.cell index = some next) (hgenuine : next.conn.Genuine) :
    before.cell index = some next ∧ effect.closes next.conn = false := by
  rw [hcells index] at hnext
  obtain ⟨cell, hcell, rfl⟩ := Option.map_eq_some_iff.mp hnext
  unfold Cell.closeIf at hgenuine ⊢
  split at hgenuine
  · rename_i hmeets
    have hopen : cell.slot.state ≠ .free := fun hfree => hmeets.1 (hresting index cell hcell hfree)
    unfold Cell.close at hgenuine
    rw [if_neg hopen] at hgenuine
    exact absurd hgenuine (not_genuine_of_free Conn.stage_cleared)
  · rename_i hspared
    rw [if_neg hspared]
    refine ⟨hcell, Bool.eq_false_iff.mpr fun hmeets => hspared ⟨?_, hmeets⟩⟩
    exact fun hfree => not_genuine_of_free hfree hgenuine

/-- After an answer that revokes devices, no connection is left for them. -/
theorem barred_of_revoked (hattributed : before.Attributed)
    (hcells : ∀ index, after.cell index = (before.cell index).map (Cell.closeIf effect.closes))
    (hrevoked : ∀ handle, handles handle → after.tables.Revoked handle)
    (hcloses : ∀ conn : Conn, before.tables.Owns conn.userId conn.handle → handles conn.handle →
      effect.closes conn = true) : after.Barred fun _ handle => handles handle where
  lookups handle key hlookup hhandle :=
    not_revoked_of_active (isSome_activeUserOf_of_lookupActive hlookup) (hrevoked handle hhandle)
  conns index next hnext hgenuine hhandle := by
    obtain ⟨hbefore, hspared⟩ := spared_of_genuine hattributed.resting hcells hnext hgenuine
    have howns := hattributed.owns index next hbefore hgenuine
    exact Bool.noConfusion (hspared.symm.trans (hcloses next.conn howns hhandle))

/-- After an answer that disables a user, no connection is left for them. -/
theorem barred_of_disabled (hresting : before.Resting)
    (hcells : ∀ index, after.cell index =
      (before.cell index).map (Cell.closeIf (ApiEffect.userDisabled userId).closes))
    (hdisabled : after.tables.Disabled userId) : after.Barred fun owner _ => owner = userId where
  lookups handle key hlookup howner :=
    not_disabled_of_active (isSome_activeUserOf_of_lookupActive hlookup)
      (howner ▸ owns_of_lookupActive hlookup) hdisabled
  conns index next hnext hgenuine howner := by
    obtain ⟨-, hspared⟩ := spared_of_genuine hresting hcells hnext hgenuine
    exact beq_eq_false_iff_ne.mp hspared howner

/-- The connections an answer is about are closed. -/
theorem serial_ne_of_closes (hattributed : before.Attributed)
    (hcells : ∀ index, after.cell index = (before.cell index).map (Cell.closeIf effect.closes))
    (hcell : before.cell index = some cell) (hused : cell.conn.stage ≠ .free)
    (hcloses : effect.closes cell.conn = true) :
    ∀ other next, after.cell other = some next → next.slot.state ≠ .free →
      next.slot.serial ≠ cell.slot.serial := by
  intro other next hnext hopen hserial
  rw [hcells other] at hnext
  obtain ⟨source, hsource, rfl⟩ := Option.map_eq_some_iff.mp hnext
  have hcellOpen : cell.slot.state ≠ .free := fun hfree =>
    hused (hattributed.resting index cell hcell hfree)
  unfold Cell.closeIf at hopen hserial
  split at hopen
  · unfold Cell.close at hopen
    split at hopen
    · rename_i hfree
      exact hopen hfree
    · exact hopen rfl
  · rename_i hspared
    rw [if_neg hspared] at hserial
    obtain rfl := hattributed.numbered.distinct other index source cell hsource hcell hopen
      hcellOpen hserial
    obtain rfl := Option.some.inj (hsource.symm.trans hcell)
    exact hspared ⟨hused, hcloses⟩

theorem Attributed.run (hattributed : before.Attributed)
    (hrun : Run (daemonMachine prims config) before events after) : after.Attributed :=
  hrun.invariant (fun daemon event hattributed hallowed =>
      (hattributed.step (step_view prims config hallowed) :
        (daemon.step prims config event).Attributed)) hattributed

/-- Once a request that revokes or disables has been answered, nobody obtains anything for a
revoked device, or for a disabled user before the user is enabled, and no connection the
request was about is heard of again. A connection that is pinned to the decoy under a handle of
the user has no user of its own: it obtains nothing either, but such a request need not close
it. -/
theorem nothing_obtained_after_answer {slotCount localCount : ℕ} {shared : Shared}
    {events later : List LoopEvent} {effect : ApiEffect} {rest : List LogEntry}
    (hwf : shared.tables.WellFormed)
    (hrun : Run (daemonMachine prims config) (start slotCount localCount shared) events before)
    (hallowed : before.allowed event)
    (hanswer : (before.step prims config event).log = before.log ++ [.api effect])
    (hlater : Run (daemonMachine prims config) (before.step prims config event) later after)
    (hrest : after.log = (before.step prims config event).log ++ rest) :
    (∀ handle, effect = .deviceRevoked handle →
      ∀ entry ∈ rest, ¬ Obtains (fun _ other => other = handle) entry) ∧
    (∀ userId, effect = .userDisabled userId → .api (.userEnabled userId) ∉ rest →
      ∀ entry ∈ rest, ¬ Obtains (fun owner _ => owner = userId) entry) ∧
    (∀ userId, effect = .devicesRevoked userId → before.tables.activeDevices userId ≤ 1024 →
      ∀ entry ∈ rest, ¬ Obtains (fun _ handle => before.tables.Owns userId handle) entry) ∧
    ∀ index cell, before.cell index = some cell → cell.conn.stage ≠ .free →
      effect.closes cell.conn = true → ∀ report, .conn cell.slot.serial report ∉ rest := by
  have hattributed := (attributed_start slotCount localCount hwf).run hrun
  have hview := step_view prims config hallowed
  have hnext := hattributed.step hview
  obtain ⟨env, hrequest, hcells⟩ := hview.store.answered hanswer
  obtain ⟨hdevice, huser, hdevices⟩ := hrequest.cutsOff
  refine ⟨?_, ?_, ?_, ?_⟩
  · rintro handle rfl
    have hrevoked : ∀ other, other = handle →
        (before.step prims config event).tables.Revoked other := by
      rintro other rfl
      exact hdevice other rfl
    refine revoked_bars hlater hnext hrevoked ?_ hrest
    exact barred_of_revoked hattributed hcells hrevoked fun conn _ hhandle =>
      beq_iff_eq.mpr hhandle
  · rintro userId rfl henabled
    have hdisabled := huser userId rfl
    exact disabled_bars hlater hnext hdisabled
      (barred_of_disabled hattributed.resting hcells hdisabled) hrest henabled
  · rintro userId rfl hguard
    obtain ⟨change, hkeeps, -⟩ := hview.store.keeps hattributed.wellFormed
    have hrevoked : ∀ handle, before.tables.Owns userId handle →
        (before.step prims config event).tables.Revoked handle := fun handle howns =>
      revoked_of_activeDevices (hdevices userId rfl hguard) (hkeeps.owns howns)
    refine revoked_bars hlater hnext hrevoked ?_ hrest
    refine barred_of_revoked hattributed hcells hrevoked fun conn howner howns => ?_
    obtain ⟨row, hrow, huserId⟩ := howns
    obtain ⟨other, hother, hotherId⟩ := howner
    obtain rfl := Option.some.inj (hrow.symm.trans hother)
    exact beq_iff_eq.mpr (hotherId.symm.trans huserId)
  · intro index cell hcell hused hcloses
    have hopen : cell.slot.state ≠ .free := fun hfree =>
      hused (hattributed.resting index cell hcell hfree)
    refine closed_bars hlater ?_ (serial_ne_of_closes hattributed hcells hcell hused hcloses) hrest
    exact Nat.lt_of_lt_of_le (hattributed.numbered.accepted index cell hcell hopen)
      hview.accepted_le

/-- A client has greeted, and the administrator's line that disables its user has arrived. -/
def sampleAsked : List LoopEvent :=
  sampleGreeting ++ [.receive (localRef 0) (ascii "DISABLE-USER user=75\n")]

/-- The line is served, and another connection for the handle comes in. -/
def sampleCutOff : List LoopEvent :=
  sampleAsked ++ .serve (localRef 0) (sampleServe 0 0) :: sampleLogin 0 7 sampleClientHello

/-- When its user is disabled, the client is not heard of again, and a new connection for the
handle obtains nothing. -/
theorem nothing_obtained_after_answer_disableUser :
    (sampleDaemon sampleCutOff).log.length = 3 ∧
      ∀ entry ∈ (sampleDaemon sampleCutOff).log.drop 2,
        ¬ Obtains (fun owner _ => owner = ascii "u") entry ∧ ∀ report, entry ≠ .conn 0 report := by
  have hwf : sampleShared.tables.WellFormed := by decide +kernel
  have hrun : Run (daemonMachine .sample sampleConfig) (start 2 2 sampleShared)
      sampleAsked (sampleDaemon sampleAsked) := .of_allAllowed (by decide +kernel)
  have hlater : Run (daemonMachine .sample sampleConfig)
      ((sampleDaemon sampleAsked).step .sample sampleConfig
        (.serve (localRef 0) (sampleServe 0 0)))
      (sampleLogin 0 7 sampleClientHello) (sampleDaemon sampleCutOff) := by
    rw [sampleCutOff, sampleDaemon_append, List.foldl_cons, step_daemonMachine]
    exact .of_allAllowed (by decide +kernel)
  have hanswer : ((sampleDaemon sampleAsked).step .sample sampleConfig
      (.serve (localRef 0) (sampleServe 0 0))).log =
        (sampleDaemon sampleAsked).log ++ [.api (.userDisabled (ascii "u"))] := by decide +kernel
  have hrest : (sampleDaemon sampleCutOff).log = ((sampleDaemon sampleAsked).step .sample
      sampleConfig (.serve (localRef 0) (sampleServe 0 0))).log ++
        (sampleDaemon sampleCutOff).log.drop 2 := by decide +kernel
  obtain ⟨-, huser, -, hclosed⟩ := nothing_obtained_after_answer hwf hrun (by decide +kernel)
    hanswer hlater hrest
  refine ⟨by decide +kernel, fun entry hentry => ⟨?_, ?_⟩⟩
  · exact huser _ rfl (by decide +kernel) entry hentry
  rintro report rfl
  have hcell : ((sampleDaemon sampleAsked).cell 0).any (fun cell =>
      decide (cell.conn.stage ≠ .free ∧ cell.slot.serial = 0 ∧
        (ApiEffect.userDisabled (ascii "u")).closes cell.conn = true)) = true := by
    decide +kernel
  obtain ⟨cell, hcell, hmeets⟩ := (Option.any_eq_true _ _).mp hcell
  obtain ⟨hused, hserial, hcloses⟩ := of_decide_eq_true hmeets
  exact hclosed 0 cell hcell hused hcloses report (hserial ▸ hentry)

/-- A connection is accepted, the user is disabled and enabled again, and then the connection
logs in. -/
def sampleReenabled : List LoopEvent :=
  [sampleAccept .proto, sampleAccept .loc] ++ sampleLine 0 0 (ascii "DISABLE-USER user=75") ++
    sampleLine 0 0 (ascii "ENABLE-USER user=75") ++ sampleFrame 0 0 sampleClientHello.bytes ++
    sampleFrame 0 7 (sampleAuth sampleClientHello)

/-- The connection was there before the user was disabled, and obtains a login code. -/
theorem obtains_sampleReenabled :
    Run (daemonMachine .sample sampleConfig) (start 2 2 sampleShared) sampleReenabled
        (sampleDaemon sampleReenabled) ∧
      (sampleDaemon (sampleReenabled.take 4)).log = [.api (.userDisabled (ascii "u"))] ∧
      ((sampleDaemon (sampleReenabled.take 4)).cell 0).map (fun cell => cell.slot.serial) = some 0 ∧
      ∃ report, .conn 0 report ∈ (sampleDaemon sampleReenabled).log ∧
        report.obtained = some (ascii "u", [1]) := by
  refine ⟨.of_allAllowed (by decide +kernel), by decide +kernel, by decide +kernel, ?_⟩
  have hissued : ((sampleDaemon sampleReenabled).log.any fun entry => match entry with
      | .conn serial report =>
        decide (serial = 0 ∧ report.obtained = some (ascii "u", [1]))
      | .api _ => false) = true := by decide +kernel
  obtain ⟨entry, hentry, hobtained⟩ := List.any_eq_true.mp hissued
  cases entry with
  | api => cases hobtained
  | conn serial report =>
    obtain ⟨rfl, hreport⟩ := of_decide_eq_true hobtained
    exact ⟨report, hentry, hreport⟩

/-! ## Active keys -/

variable {handle : Bytes} {key : ActiveKey} {slotCount localCount : ℕ} {shared : Shared}

/-- The entries that may end a lookup of a handle which found a key. -/
def endsLookup (handle : Bytes) (key : ActiveKey) : LogEntry → Bool
  | .conn _ (.rotation commit) => commit.handle = handle
  | .api (.deviceRevoked other) => other = handle
  | .api (.userDisabled userId) | .api (.devicesRevoked userId) => userId = key.userId
  | _ => false

/-- A record that awaits its ClientAuth after a frame did so before, or was pinned just now. -/
theorem pinned_of_frame {env : FrameEnv} {io : ConnIo} {served : Served}
    (hview : FrameView prims config env shared conn io served)
    (hstage : served.conn.stage = .awaitCa) (hgenuine : served.conn.decoy = false) :
    PinCurrent shared.tables served.conn ∨
      conn.stage = .awaitCa ∧ conn.SameIdentity served.conn := by
  cases hview with
  | hello hawait hview =>
    cases hview with
    | malformed hconn => cases (hconn ▸ hawait).symm.trans hstage
    | pinned hpin _ hgreeted =>
      have hidentity := hgreeted.identity
      obtain ⟨key, hlookup, rfl⟩ := hpin (hidentity.decoy.symm.trans hgenuine)
      refine .inl ⟨key, ?_, hidentity.pinPk.symm, hidentity.userId.symm⟩
      rwa [hidentity.handle]
  | auth hawait hview =>
    cases hview with
    | refused hidentity | issued hidentity => exact .inr ⟨hawait, hidentity⟩
  | record _ hview =>
    cases hview with
    | closed _ _ hclosing => cases hclosing.symm.trans hstage
    | rotated _ _ _ _ hend =>
      cases hend with
      | acknowledged _ hend | dropped _ hend => cases hend.symm.trans hstage
  | late hclosing hconn => cases (hconn ▸ hclosing).symm.trans hstage

/-- A step keeps the lookup of a handle unless it logs an entry that ends it. -/
theorem StoreMove.active (hmove : StoreMove prims config before event after)
    (hwf : before.tables.WellFormed) (hlookup : before.tables.lookupActive handle = some key)
    (hlog : after.log = before.log ++ new) (hnone : ∀ entry ∈ new, ¬ endsLookup handle key entry) :
    after.tables.lookupActive handle = some key := by
  cases hmove with
  | kept htables | swept htables => exact htables ▸ hlookup
  | @frame _ _ cell _ served _ _ _ hview hafter =>
    subst hafter
    obtain rfl : served.events.map (LogEntry.conn cell.slot.serial) = new :=
      List.append_cancel_left hlog
    have hevolves : Evolves (.sparing handle) before.tables served.shared.tables :=
      hview.evolves fun commit hcommit other _ hspares hother =>
        hnone _ (List.mem_map_of_mem hcommit) (decide_eq_true (hother.symm.trans hspares))
    exact (hevolves hwf).2.active handle key hlookup rfl
  | @line _ effect hview hentries =>
    obtain rfl := List.append_cancel_left (hentries.symm.trans hlog)
    refine (hview.evolves hwf).2.active handle key hlookup ?_
    cases effect with
    | none => trivial
    | some effect =>
      have hspared := hnone _ (List.mem_singleton_self _)
      cases effect with
      | deviceRevoked | userDisabled | devicesRevoked =>
        exact fun hsame => hspared (decide_eq_true hsame.symm)
      | _ => trivial

variable (prims config) in
/-- At a moment of a run, while the connection of a serial number was open, the lookup of a
handle found the key and the user. -/
def OnceActive (first : Daemon) (events : List LoopEvent) (serial : ℕ) (handle : Bytes)
    (pk : SigPublicKey) (userId : Bytes) : Prop :=
  ∃ past reached key index cell, past <+: events ∧
    Run (daemonMachine prims config) first past reached ∧
    reached.tables.lookupActive handle = some key ∧ key.pk = pk ∧ key.userId = userId ∧
    reached.cell index = some cell ∧ cell.slot.state ≠ .free ∧ cell.slot.serial = serial

theorem OnceActive.append {first : Daemon} {serial : ℕ} {pk : SigPublicKey}
    (honce : OnceActive prims config first events serial handle pk userId) :
    OnceActive prims config first (events ++ [event]) serial handle pk userId := by
  obtain ⟨past, reached, key, index, cell, hpast, hreached⟩ := honce
  exact ⟨past, reached, key, index, cell, hpast.trans (List.prefix_append _ _), hreached⟩

/-- A connection that awaits its ClientAuth is pinned to a key that was active in its life. -/
theorem onceActive_of_awaitCa (hrun : Run (daemonMachine prims config)
      (start slotCount localCount shared) events daemon) (hcell : daemon.cell index = some cell)
    (hstage : cell.conn.stage = .awaitCa) (hgenuine : cell.conn.decoy = false) :
    OnceActive prims config (start slotCount localCount shared) events cell.slot.serial
      cell.conn.handle cell.conn.pinPk cell.conn.userId := by
  induction hrun generalizing index cell with
  | nil => cases (resting_start index cell hcell (free_of_cell_start hcell)).symm.trans hstage
  | @snoc past before event hrun hallowed ih =>
    have hview := step_view prims config hallowed
    obtain ⟨old, hold, hmove⟩ := hview.cell_move hcell
    -- only a ClientHello pins, and it pins what the lookup finds at that moment
    cases hmove with
    | plain hmove =>
      cases hmove with
      | kept => exact (ih hold hstage hgenuine).append
      | touched _ hsame => exact hsame.serial ▸ (ih hold hstage hgenuine).append
      | drained =>
        have honce := ih hold hstage hgenuine
        rw [← serial_drainSlot] at honce
        exact honce.append
      | closed | overwritten => cases hstage
    | opened _ hfree =>
      have hresting : before.Resting := hrun.invariant
        (fun _ _ hresting hallowed => hresting.step (step_view _ _ hallowed)) resting_start
      cases (hresting index old hold hfree).symm.trans hstage
    | served _ hserved =>
      obtain ⟨io, -, hframe⟩ := hserved.view
      rcases pinned_of_frame hframe hstage hgenuine with
        ⟨key, hlookup, hpk, huser⟩ | ⟨hawait, hidentity⟩
      · have hopen : old.slot.state ≠ .free := by simp [hserved.active]
        exact ⟨past, before, key, index, old, List.prefix_append _ _, hrun, hlookup, hpk, huser,
          hold, hopen, rfl⟩
      have hdecoy := hidentity.decoy.symm.trans hgenuine
      have hopened := genuine_of_opened ⟨.inl hawait, hdecoy⟩
      rw [hopened] at hawait hidentity hdecoy
      have honce := ih hold hawait hdecoy
      rw [← hidentity.handle, ← hidentity.pinPk, ← hidentity.userId] at honce
      exact honce.append
    | revoked => cases hstage

/-- In every run, a login code is issued for a key that was the active one of the code's handle
and user at a moment of the connection's life. -/
theorem login_key_once_active
    (hrun : Run (daemonMachine prims config) (start slotCount localCount shared) events daemon) :
    ∀ serial issue, .conn serial (.loginCode issue) ∈ daemon.log →
      OnceActive prims config (start slotCount localCount shared) events serial
        issue.row.handle issue.pk issue.row.userId := by
  induction hrun with
  | nil => exact fun _ _ hentry => nomatch hentry
  | @snoc past before event hrun hallowed ih =>
    intro serial issue hentry
    have hview := step_view prims config hallowed
    rcases hview.reported hentry with hold | ⟨_, index, cell, served, hserved, rfl, hissue⟩
    · exact (ih serial issue hold).append
    obtain ⟨io, -, hframe⟩ := hserved.view
    obtain ⟨hstage, hgenuine, -, hissued, -⟩ := hframe.issued_of_mem hissue
    rw [hissued.handle, hissued.pk, hissued.userId]
    have hopened := genuine_of_opened ⟨.inl hstage, hgenuine⟩
    rw [hopened] at hstage hgenuine ⊢
    exact (onceActive_of_awaitCa hrun hserved.cellAt hstage hgenuine).append

/-- The code of a login is issued for a key that was active. -/
theorem login_key_once_active_sampleLogin :
    (sampleDaemon (sampleLogin 0 7 sampleClientHello)).reports 0 .loginCode = 1 ∧
      ∀ serial issue, .conn serial (.loginCode issue) ∈
        (sampleDaemon (sampleLogin 0 7 sampleClientHello)).log →
        OnceActive .sample sampleConfig (start 2 2 sampleShared)
          (sampleLogin 0 7 sampleClientHello) serial issue.row.handle issue.pk issue.row.userId :=
  ⟨by decide +kernel, login_key_once_active run_sampleLogin⟩

end Daemon

end MldsaAuth.Authd
