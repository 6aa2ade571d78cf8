/-
# What a connection causes at most once

The rate limiter prices one signature for each connection and gives the price back
once, because a connection signs, logs in and rotates at most once. Its stage says
what it may still do; a stage only moves forward while the slot is open, and the slot
serves nothing any more once it drains. The one way back is a record that is reset
under an open slot, which is what closing a local slot of the same number does.
-/

import MldsaAuth.Authd.Isolation

namespace MldsaAuth.Authd

open Foundation Crypto Protocol ConnStage

/-- What a connection may cause. -/
inductive ReportKind where
  | serverHello
  | loginCode
  | refund
  | rotation
deriving DecidableEq, Repr

/-- The kind of what was reported. -/
def ConnEvent.kind : ConnEvent → ReportKind
  | .serverHello => .serverHello
  | .loginCode _ => .loginCode
  | .refund => .refund
  | .rotation _ => .rotation

/-- The kind of what a connection caused, for an entry of the log. -/
def LogEntry.kind : LogEntry → Option ReportKind
  | .conn _ event => some event.kind
  | .api _ => none

/-- A record can still lead to a report of a kind. -/
def Conn.mayReport (conn : Conn) : ReportKind → Prop
  | .serverHello => conn.stage = .awaitCh
  | .loginCode | .refund => conn.stage = .awaitCh ∨ conn.stage = .awaitCa
  | .rotation => conn.stage = .awaitCh ∨ (conn.stage ≠ .closing ∧ conn.rotated = false)

theorem Conn.mayReport_of_awaitCh (conn : Conn) (hstage : conn.stage = .awaitCh)
    (kind : ReportKind) : conn.mayReport kind := by
  cases kind with
  | serverHello => exact hstage
  | loginCode | refund | rotation => exact .inl hstage

/-- How serving a frame uses up what its record may report: each kind at most once, only if
the record allowed it, and then never again; what is allowed afterwards was allowed before. -/
structure UsesUp (conn : Conn) (served : Served) (kind : ReportKind) : Prop where
  once : served.events.countP (fun event => event.kind = kind) ≤ 1
  allowed : (∃ event ∈ served.events, event.kind = kind) → conn.mayReport kind
  spent : (∃ event ∈ served.events, event.kind = kind) → served.action = .continue_ →
    ¬ served.conn.mayReport kind
  kept : served.action = .continue_ → served.conn.mayReport kind → conn.mayReport kind

variable {conn : Conn} {served : Served} {kind : ReportKind}

theorem UsesUp.of_silent (hevents : served.events = [])
    (hkept : served.action = .continue_ → served.conn.mayReport kind → conn.mayReport kind) :
    UsesUp conn served kind where
  once := by rw [hevents]; exact Nat.zero_le 1
  allowed := by rw [hevents]; rintro ⟨_, hevent, -⟩; cases hevent
  spent := by rw [hevents]; rintro ⟨_, hevent, -⟩; cases hevent
  kept := hkept

theorem UsesUp.of_closed (haction : served.action = .close) (hevents : served.events = []) :
    UsesUp conn served kind :=
  .of_silent hevents fun hcontinue => EvAction.noConfusion (haction.symm.trans hcontinue)

variable {shared : Shared}

theorem HelloView.usesUp (hview : HelloView shared conn served) (hstage : conn.stage = .awaitCh)
    (kind : ReportKind) : UsesUp conn served kind := by
  have hall : conn.mayReport kind := conn.mayReport_of_awaitCh hstage kind
  cases hview with
  | malformed _ haction hevents => exact .of_closed haction hevents
  | pinned _ _ hgreeted =>
    cases hgreeted.ending with
    | refused haction _ hevents => exact .of_closed haction hevents
    | asked haction _ hevents =>
      refine ⟨by rw [hevents]; exact List.countP_le_length, fun _ => hall, fun _ hcontinue => ?_,
        fun _ _ => hall⟩
      exact EvAction.noConfusion (haction.symm.trans hcontinue)
    | sent _ hsent hevents =>
      refine ⟨by rw [hevents]; exact List.countP_le_length, fun _ => hall, ?_, fun _ _ => hall⟩
      rw [hevents]
      rintro ⟨event, hevent, rfl⟩ - hmay
      obtain rfl := List.mem_singleton.mp hevent
      exact noConfusion (hsent.symm.trans hmay)

variable {env : FrameEnv} {io : ConnIo} {prims : DaemonPrimitives} {config : AuthdConfig}

theorem AuthView.usesUp (hview : AuthView prims config env shared conn io served)
    (hstage : conn.stage = .awaitCa) (kind : ReportKind) : UsesUp conn served kind := by
  have hkept : ∀ {stage : ConnStage}, served.conn.stage = stage → stage ≠ .awaitCh →
      served.conn.rotated = conn.rotated → served.conn.mayReport kind →
      conn.mayReport kind := by
    intro stage hnext hne hrotated hmay
    cases kind with
    | serverHello => exact absurd (hnext.symm.trans hmay) hne
    | loginCode | refund => exact .inr hstage
    | rotation =>
      rcases hmay with hmay | hmay
      · exact absurd (hnext.symm.trans hmay) hne
      · exact .inr ⟨by rw [hstage]; exact noConfusion, hrotated.symm.trans hmay.2⟩
  cases hview with
  | refused _ hrotated hnext hevents =>
    exact .of_silent hevents fun _ => hkept hnext noConfusion hrotated
  | @issued issue stored _ hrotated _ _ _ hend =>
    have hallowed : kind = .loginCode ∨ kind = .refund → conn.mayReport kind := by
      rintro (rfl | rfl)
      · exact .inr hstage
      · exact .inr hstage
    cases hend with
    | dropped haction _ hevents =>
      refine ⟨by rw [hevents]; exact List.countP_le_length, ?_,
        fun _ hcontinue => EvAction.noConfusion (haction.symm.trans hcontinue),
        fun hcontinue => EvAction.noConfusion (haction.symm.trans hcontinue)⟩
      rw [hevents]
      rintro ⟨event, hevent, hkind⟩
      obtain rfl := List.mem_singleton.mp hevent
      exact hallowed (.inl hkind.symm)
    | serving _ hnext hevents =>
      have hkinds : ∀ event ∈ served.events, event.kind = .loginCode ∨ event.kind = .refund := by
        rcases hevents with hevents | hevents <;> simp [hevents, ConnEvent.kind]
      refine ⟨?_, ?_, ?_, fun _ => hkept hnext noConfusion hrotated⟩
      · rcases hevents with hevents | hevents <;> rw [hevents] <;> cases kind <;>
          simp [ConnEvent.kind]
      · rintro ⟨event, hevent, rfl⟩
        exact hallowed (hkinds event hevent)
      · rintro ⟨event, hevent, rfl⟩ - hmay
        rcases hkinds event hevent with hkind | hkind <;> rw [hkind] at hmay <;>
          rcases hmay with hmay | hmay <;>
          exact noConfusion (hnext.symm.trans hmay)

/-- A session that has rotated has nothing left to report. -/
theorem RotateEnd.spent (hend : RotateEnd served) (hcontinue : served.action = .continue_)
    (kind : ReportKind) : ¬ served.conn.mayReport kind := by
  cases hend with
  | dropped haction => exact EvAction.noConfusion (haction.symm.trans hcontinue)
  | acknowledged _ hstage hrotated =>
    intro hmay
    cases kind with
    | serverHello => exact noConfusion (hstage.symm.trans hmay)
    | loginCode | refund =>
      exact hmay.elim (fun hch => noConfusion (hstage.symm.trans hch))
        fun hca => noConfusion (hstage.symm.trans hca)
    | rotation =>
      exact hmay.elim (fun hch => noConfusion (hstage.symm.trans hch))
        fun hfresh => Bool.noConfusion (hrotated.symm.trans hfresh.2)

theorem RecordView.usesUp (hview : RecordView prims env shared conn served)
    (hstage : conn.stage = .serving) (kind : ReportKind) : UsesUp conn served kind := by
  cases hview with
  | closed _ haction _ hevents => exact .of_closed haction hevents
  | @rotated commit _ hevents hcommit _ hend =>
    refine ⟨by rw [hevents]; exact List.countP_le_length, ?_, ?_, ?_⟩
    · rw [hevents]
      rintro ⟨event, hevent, rfl⟩
      obtain rfl := List.mem_singleton.mp hevent
      exact .inr ⟨by rw [hstage]; exact noConfusion, hcommit.fresh⟩
    · rw [hevents]
      rintro ⟨event, hevent, rfl⟩ hcontinue
      obtain rfl := List.mem_singleton.mp hevent
      exact hend.spent hcontinue .rotation
    · exact fun hcontinue hmay => absurd hmay (hend.spent hcontinue kind)

/-- What a frame reports is used up. -/
theorem FrameView.usesUp (hview : FrameView prims config env shared conn io served)
    (kind : ReportKind) : UsesUp conn served kind := by
  cases hview with
  | hello hstage hview | auth hstage hview | record hstage hview => exact hview.usesUp hstage kind
  | late _ _ haction hevents => exact .of_closed haction hevents

variable {cell next : Cell} {serial : ℕ} {slotCount localCount : ℕ}

namespace Daemon

variable {daemon before after : Daemon} {event : LoopEvent} {index : ℕ}

/-! ## Serial numbers -/

/-- Serial numbers are given out in order, and no two open connections share one. -/
structure Numbered (daemon : Daemon) : Prop where
  accepted : ∀ index cell, daemon.cell index = some cell → cell.slot.state ≠ .free →
    cell.slot.serial < daemon.accepted
  distinct : ∀ first second cell other, daemon.cell first = some cell →
    daemon.cell second = some other → cell.slot.state ≠ .free → other.slot.state ≠ .free →
    cell.slot.serial = other.slot.serial → first = second
  logged : ∀ serial event, .conn serial event ∈ daemon.log → serial < daemon.accepted

theorem free_of_cell_start (hcell : (start slotCount localCount shared).cell index = some cell) :
    cell.slot.state = .free := by
  have hslot : (List.replicate slotCount (Slot.blank .proto))[index]? = some cell.slot :=
    (cell_eq_some_iff.mp hcell).1
  rw [List.eq_of_mem_replicate (List.mem_of_getElem? hslot)]
  rfl

theorem numbered_start : (start slotCount localCount shared).Numbered where
  accepted index cell hcell hopen := absurd (free_of_cell_start hcell) hopen
  distinct _ _ cell other hcell _ hopen := absurd (free_of_cell_start hcell) hopen
  logged serial event hentry := by cases hentry

theorem StepView.accepted_le (hview : StepView prims config before event after) :
    before.accepted ≤ after.accepted := by
  cases hview with
  | plain hplain => exact hplain.accepted.ge
  | opened hopened => exact hopened.accepted ▸ Nat.le_succ _
  | openedLocal _ _ _ haccepted => exact haccepted ▸ Nat.le_succ _
  | swept | frame => exact Nat.le_refl _
  | line => exact accepted_putLineServed.ge

/-- A slot that is open after a step was open before under the same number, or has just been
given a new one. -/
theorem CellMove.numbered (hmove : CellMove prims config before event after index cell next)
    (hopen : next.slot.state ≠ .free) :
    (cell.slot.state ≠ .free ∧ next.slot.serial = cell.slot.serial) ∨
      (next.slot.serial = before.accepted ∧ after.accepted = before.accepted + 1 ∧
        ∀ other, other ≠ index → after.cell other = before.cell other) := by
  cases hmove with
  | plain hmove =>
    cases hmove with
    | kept | overwritten => exact .inl ⟨hopen, rfl⟩
    | touched _ hsame => exact .inl ⟨fun hfree => hopen (hsame.free.mpr hfree), hsame.serial⟩
    | drained =>
      refine .inl ⟨fun hfree => hopen (free_drainSlot.mpr hfree), ?_⟩
      exact serial_drainSlot
    | closed => exact absurd rfl hopen
  | opened _ _ haccepted hothers => exact .inr ⟨rfl, haccepted, hothers⟩
  | served _ hserved =>
    refine .inl ⟨?_, rfl⟩
    rw [hserved.active]
    exact SlotState.noConfusion
  | revoked => exact absurd rfl hopen

/-- What a step adds to the log about connections comes from a frame of an open one. -/
theorem StepView.appended (hview : StepView prims config before event after) :
    ∃ new, after.log = before.log ++ new ∧ ∀ serial report, .conn serial report ∈ new →
      ∃ env index cell served, FrameServed prims config before env index cell served ∧
        cell.slot.serial = serial ∧ report ∈ served.events := by
  have hnone : ∀ serial report, LogEntry.conn serial report ∈ ([] : List LogEntry) →
      ∃ env index cell served, FrameServed prims config before env index cell served ∧
        cell.slot.serial = serial ∧ report ∈ served.events := fun _ _ hentry => nomatch hentry
  cases hview with
  | plain hplain => exact ⟨[], by rw [hplain.log, List.append_nil], hnone⟩
  | opened hopened => exact ⟨[], by rw [hopened.log, List.append_nil], hnone⟩
  | openedLocal _ hlog => exact ⟨[], by rw [hlog, List.append_nil], hnone⟩
  | swept => exact ⟨[], (List.append_nil _).symm, hnone⟩
  | @frame env index cell served hserved =>
    refine ⟨_, rfl, fun serial report hentry => ?_⟩
    obtain ⟨other, hother, heq⟩ := List.mem_map.mp hentry
    cases heq
    exact ⟨env, index, cell, served, hserved, rfl, hother⟩
  | line =>
    refine ⟨_, log_putLineServed, fun serial report hentry => ?_⟩
    obtain ⟨_, -, heq⟩ := List.mem_map.mp hentry
    cases heq

/-- A report is an old one, or comes from a frame of an open connection. -/
theorem StepView.reported {report : ConnEvent} (hview : StepView prims config before event after)
    (hentry : .conn serial report ∈ after.log) :
    .conn serial report ∈ before.log ∨
      ∃ env index cell served, FrameServed prims config before env index cell served ∧
        cell.slot.serial = serial ∧ report ∈ served.events := by
  obtain ⟨new, hlog, hnew⟩ := hview.appended
  rw [hlog] at hentry
  exact (List.mem_append.mp hentry).imp_right (hnew serial report)

theorem Numbered.step (hnumbered : before.Numbered)
    (hview : StepView prims config before event after) : after.Numbered where
  accepted index next hnext hopen := by
    obtain ⟨cell, hcell, hmove⟩ := hview.cell_move hnext
    rcases hmove.numbered hopen with ⟨hbefore, hserial⟩ | ⟨hserial, haccepted, -⟩
    · rw [hserial]
      exact Nat.lt_of_lt_of_le (hnumbered.accepted index cell hcell hbefore) hview.accepted_le
    rw [hserial, haccepted]
    exact Nat.lt_succ_self _
  distinct first second next other hnext hother hopen hopenOther hserial := by
    by_contra hne
    obtain ⟨cell, hcell, hmove⟩ := hview.cell_move hnext
    obtain ⟨cell', hcell', hmove'⟩ := hview.cell_move hother
    -- A number that was just given out is larger than that of every other open connection.
    rcases hmove.numbered hopen with ⟨hbefore, hsame⟩ | ⟨hnew, -, hothers⟩
    · rcases hmove'.numbered hopenOther with ⟨hbefore', hsame'⟩ | ⟨hnew, -, hothers⟩
      · rw [hsame, hsame'] at hserial
        exact hne (hnumbered.distinct first second cell cell' hcell hcell' hbefore hbefore' hserial)
      · have hlt := hnumbered.accepted first next (hothers first hne ▸ hnext) hopen
        omega
    · have hlt := hnumbered.accepted second other (hothers second (Ne.symm hne) ▸ hother) hopenOther
      omega
  logged serial report hentry := by
    refine Nat.lt_of_lt_of_le ?_ hview.accepted_le
    rcases hview.reported hentry with hold | ⟨_, index, cell, _, hserved, rfl, -⟩
    · exact hnumbered.logged serial report hold
    refine hnumbered.accepted index cell hserved.cellAt ?_
    rw [hserved.active]
    exact SlotState.noConfusion

/-! ## Reports -/

/-- An entry says that a connection caused something. -/
def reportOf (serial : ℕ) (kind : ReportKind) : LogEntry → Bool
  | .conn number event => number = serial && event.kind = kind
  | .api _ => false

/-- How often a connection has caused something. -/
def reports (daemon : Daemon) (serial : ℕ) (kind : ReportKind) : ℕ :=
  daemon.log.countP (reportOf serial kind)

/-- No connection has caused anything twice. -/
def OncePerConnection (daemon : Daemon) : Prop :=
  ∀ serial kind, daemon.reports serial kind ≤ 1

theorem reports_of_log (hlog : after.log = before.log) :
    after.reports serial kind = before.reports serial kind := by rw [reports, hlog, reports]

theorem countP_reportOf_map {number : ℕ} {events : List ConnEvent} :
    (events.map (LogEntry.conn number)).countP (reportOf serial kind) =
      if number = serial then events.countP (fun event => event.kind = kind) else 0 := by
  rw [List.countP_map]
  by_cases hserial : number = serial
  · rw [if_pos hserial]
    exact List.countP_congr fun event _ => by simp [reportOf, hserial]
  rw [if_neg hserial]
  exact List.countP_eq_zero.mpr fun event _ => by simp [reportOf, hserial]

theorem reports_putServed {slot : Slot} :
    (daemon.putServed config index slot served).reports serial kind =
      daemon.reports serial kind +
        if slot.serial = serial then served.events.countP (fun event => event.kind = kind)
        else 0 := by
  show (daemon.log ++ served.events.map (LogEntry.conn slot.serial)).countP _ = _
  rw [List.countP_append, countP_reportOf_map]
  rfl

/-- Either nothing was reported, or one frame was served. -/
theorem StepView.reports_or_frame (hview : StepView prims config before event after) :
    (∀ serial kind, after.reports serial kind = before.reports serial kind) ∨
      ∃ env index cell served, FrameServed prims config before env index cell served ∧
        after = before.putServed config index cell.slot served := by
  cases hview with
  | plain hplain => exact .inl fun _ _ => reports_of_log hplain.log
  | opened hopened => exact .inl fun _ _ => reports_of_log hopened.log
  | openedLocal _ hlog => exact .inl fun _ _ => reports_of_log hlog
  | swept => exact .inl fun _ _ => rfl
  | @frame env index cell served hserved =>
    exact .inr ⟨env, index, cell, served, hserved, rfl⟩
  | line =>
    refine .inl fun serial kind => ?_
    rw [reports, log_putLineServed, List.countP_append, List.countP_map]
    exact congrArg _ (List.countP_eq_zero.mpr fun effect _ => Bool.noConfusion)

/-- A connection can still cause something: its slot is active, and its record, once the slot
points at it, allows it. -/
def Cell.mayReport (cell : Cell) (kind : ReportKind) : Prop :=
  cell.slot.state = .active ∧ (cell.slot.bound = true → cell.conn.mayReport kind)

/-- What a connection can still cause it has not caused yet, and nothing was caused twice. A
slot that points at its record finds it in use. -/
structure Rationed (daemon : Daemon) : Prop where
  numbered : daemon.Numbered
  used : ∀ index cell, daemon.cell index = some cell → cell.slot.state ≠ .free →
    cell.slot.bound = true → cell.conn.stage ≠ .free
  unspent : ∀ index cell kind, daemon.cell index = some cell → cell.mayReport kind →
    daemon.reports cell.slot.serial kind = 0
  once : daemon.OncePerConnection

theorem Numbered.reports_accepted (hnumbered : daemon.Numbered) (kind : ReportKind) :
    daemon.reports daemon.accepted kind = 0 := by
  refine List.countP_eq_zero.mpr fun entry hentry => ?_
  cases entry with
  | api => exact Bool.noConfusion
  | conn serial event =>
    have hlt := hnumbered.logged serial event hentry
    simp [reportOf, Nat.ne_of_lt hlt]

theorem rationed_start : (start slotCount localCount shared).Rationed where
  numbered := numbered_start
  used _ _ hcell hopen := absurd (free_of_cell_start hcell) hopen
  unspent _ _ _ hcell hmay :=
    SlotState.noConfusion ((free_of_cell_start hcell).symm.trans hmay.1)
  once _ _ := Nat.zero_le 1

/-- A frame is served with the record as it is, if the slot points at it. -/
theorem Rationed.opened_eq (hrationed : daemon.Rationed) (hcell : daemon.cell index = some cell)
    (hactive : cell.slot.state = .active) (hbound : cell.slot.bound = true) :
    cell.conn.opened cell.slot.bound = cell.conn := by
  have hopen : cell.slot.state ≠ .free := by
    rw [hactive]
    exact SlotState.noConfusion
  refine if_neg ?_
  rintro (hunbound | hfree)
  · exact Bool.noConfusion (hbound.symm.trans hunbound)
  · exact hrationed.used index cell hcell hopen hbound hfree

variable {env : ServeEnv}

/-- What a frame reports its connection was still allowed to cause. -/
theorem Rationed.usesUp (hrationed : daemon.Rationed)
    (hserved : FrameServed prims config daemon env index cell served) (kind : ReportKind) :
    UsesUp (cell.conn.opened cell.slot.bound) served kind ∧
      ((cell.conn.opened cell.slot.bound).mayReport kind → cell.mayReport kind) := by
  obtain ⟨payload, io, -, rfl⟩ := hserved.result
  refine ⟨onFrame_view.usesUp kind, fun hmay => ⟨hserved.active, fun hbound => ?_⟩⟩
  rwa [hrationed.opened_eq hserved.cellAt hserved.active hbound] at hmay

theorem continue_of_active {nowMs : ℕ}
    (hactive : (cell.afterFrame config nowMs served).slot.state = .active) :
    served.action = .continue_ := by
  cases haction : served.action with
  | continue_ => rfl
  | close =>
    have hdraining : (if served.action = .close then SlotState.draining
      else cell.slot.state) = .active := hactive
    rw [if_pos haction] at hdraining
    cases hdraining

section

variable (hrationed : before.Rationed)

include hrationed

section

variable (hquiet : ¬ before.ClosesOverLive prims event)

include hquiet

section

variable (hcell : before.cell index = some cell)

include hcell

/-- When a local slot closes over a cell, the slot of the cell does not point at the record. -/
theorem Rationed.unbound_of_overwritten (hopen : cell.slot.state ≠ .free)
    (hlocal : before.ClosesLocal prims event index) : cell.slot.bound = false := by
  refine Bool.eq_false_iff.mpr fun hbound => ?_
  have hused := hrationed.used index cell hcell hopen hbound
  exact hquiet ⟨index, hlocal, cell, hcell, hused⟩

/-- What a connection can cause after a step it could cause before, unless it was accepted in
this step. -/
theorem Rationed.mayReport
    (hmove : CellMove prims config before event (before.step prims config event) index cell next)
    (hmay : next.mayReport kind) :
    (cell.mayReport kind ∧ next.slot.serial = cell.slot.serial) ∨
      next.slot.serial = before.accepted := by
  obtain ⟨hactive, hrecord⟩ := hmay
  cases hmove with
  | plain hmove =>
    cases hmove with
    | kept => exact .inl ⟨⟨hactive, hrecord⟩, rfl⟩
    | touched _ hsame =>
      exact .inl ⟨⟨hsame.active hactive, fun hbound => hrecord (hsame.bound.trans hbound)⟩,
        hsame.serial⟩
    | drained => exact absurd hactive inactive_drainSlot
    | closed => cases hactive
    | overwritten hlocal =>
      have hopen : cell.slot.state ≠ .free := fun hfree =>
        SlotState.noConfusion (hfree.symm.trans hactive)
      have hunbound := hrationed.unbound_of_overwritten hquiet hcell hopen hlocal
      exact .inl ⟨⟨hactive, fun hbound => Bool.noConfusion (hunbound.symm.trans hbound)⟩, rfl⟩
  | opened => exact .inr rfl
  | served _ hserved =>
    obtain ⟨huses, hallowed⟩ := hrationed.usesUp hserved kind
    exact .inl ⟨hallowed (huses.kept (continue_of_active hactive) (hrecord rfl)), rfl⟩
  | revoked => cases hactive

/-- A slot that points at its record still finds it in use. -/
theorem Rationed.used_step
    (hmove : CellMove prims config before event (before.step prims config event) index cell next)
    (hopen : next.slot.state ≠ .free) (hbound : next.slot.bound = true) :
    next.conn.stage ≠ .free := by
  cases hmove with
  | plain hmove =>
    cases hmove with
    | kept => exact hrationed.used index cell hcell hopen hbound
    | touched _ hsame =>
      exact hrationed.used index cell hcell (fun hfree => hopen (hsame.free.mpr hfree))
        (hsame.bound.symm.trans hbound)
    | drained =>
      exact hrationed.used index cell hcell (fun hfree => hopen (free_drainSlot.mpr hfree))
        (bound_drainSlot.symm.trans hbound)
    | closed => exact absurd rfl hopen
    | overwritten hlocal =>
      have hunbound := hrationed.unbound_of_overwritten hquiet hcell hopen hlocal
      exact Bool.noConfusion (hunbound.symm.trans hbound)
  | opened => cases hbound
  | served _ hserved =>
    obtain ⟨payload, io, -, rfl⟩ := hserved.result
    exact onFrame_view.used
  | revoked => exact absurd rfl hopen

end

end

/-- What a served frame adds to the reports. -/
theorem Rationed.once_putServed (hserved : FrameServed prims config before env index cell served) :
    (before.putServed config index cell.slot served).OncePerConnection := by
  intro serial kind
  rw [reports_putServed]
  obtain ⟨huses, hallowed⟩ := hrationed.usesUp hserved kind
  by_cases hserial : cell.slot.serial = serial
  · rw [if_pos hserial]
    by_cases hreported : ∃ event ∈ served.events, event.kind = kind
    · have hnone := hrationed.unspent index cell kind hserved.cellAt
        (hallowed (huses.allowed hreported))
      rw [← hserial, hnone, Nat.zero_add]
      exact huses.once
    · have hzero : served.events.countP (fun event => event.kind = kind) = 0 :=
        List.countP_eq_zero.mpr fun event hevent hkind =>
          hreported ⟨event, hevent, of_decide_eq_true hkind⟩
      rw [hzero]
      exact hrationed.once serial kind
  · rw [if_neg hserial]
    exact hrationed.once serial kind

theorem Rationed.unspent_putServed (hserved : FrameServed prims config before env index cell served)
    {other : ℕ} (hnext : (before.putServed config index cell.slot served).cell other = some next)
    (hmay : next.mayReport kind) (hbefore : before.reports next.slot.serial kind = 0) :
    (before.putServed config index cell.slot served).reports next.slot.serial kind = 0 := by
  rw [reports_putServed, hbefore, Nat.zero_add]
  refine ite_eq_right_iff.mpr fun hserial => ?_
  by_cases heq : other = index
  · -- The connection that was served has nothing left of a kind it has just reported.
    subst heq
    obtain rfl := Option.some.inj ((cell_putServed_self hserved.cellAt).symm.trans hnext)
    obtain ⟨huses, -⟩ := hrationed.usesUp hserved kind
    refine List.countP_eq_zero.mpr fun event hevent hkind => ?_
    refine huses.spent ⟨event, hevent, of_decide_eq_true hkind⟩ ?_ (hmay.2 rfl)
    exact continue_of_active hmay.1
  · rw [cell_putServed_of_ne heq] at hnext
    have hactive : cell.slot.state ≠ .free := hserved.active ▸ SlotState.noConfusion
    have hopen : next.slot.state ≠ .free := hmay.1 ▸ SlotState.noConfusion
    exact absurd (hrationed.numbered.distinct index other cell next hserved.cellAt hnext hactive
      hopen hserial).symm heq

theorem Rationed.step (hallowed : before.allowed event)
    (hquiet : ¬ before.ClosesOverLive prims event) : (before.step prims config event).Rationed := by
  have hview := step_view prims config hallowed
  have hnumbered := hrationed.numbered.step hview
  have hused : ∀ index next, (before.step prims config event).cell index = some next →
      next.slot.state ≠ .free → next.slot.bound = true → next.conn.stage ≠ .free := by
    intro index next hnext hopen hbound
    obtain ⟨cell, hcell, hmove⟩ := hview.cell_move hnext
    exact hrationed.used_step hquiet hcell hmove hopen hbound
  have hbefore : ∀ index next kind, (before.step prims config event).cell index = some next →
      next.mayReport kind → before.reports next.slot.serial kind = 0 := by
    intro index next kind hnext hmay
    obtain ⟨cell, hcell, hmove⟩ := hview.cell_move hnext
    rcases hrationed.mayReport hquiet hcell hmove hmay with ⟨hcould, hserial⟩ | hnew
    · rw [hserial]
      exact hrationed.unspent index cell kind hcell hcould
    rw [hnew]
    exact hrationed.numbered.reports_accepted kind
  rcases hview.reports_or_frame with hsame | ⟨env, index, cell, served, hserved, hafter⟩
  · refine ⟨hnumbered, hused, fun index next kind hnext hmay => ?_, fun serial kind => ?_⟩
    · rw [hsame]
      exact hbefore index next kind hnext hmay
    · rw [hsame]
      exact hrationed.once serial kind
  · rw [hafter] at hnumbered hused hbefore ⊢
    exact ⟨hnumbered, hused, fun other next kind hnext hmay =>
      hrationed.unspent_putServed hserved hnext hmay (hbefore other next kind hnext hmay),
      hrationed.once_putServed hserved⟩

end

/-- The daemon, as long as no local slot closes over a connection record in use. -/
def quietMachine (prims : DaemonPrimitives) (config : AuthdConfig) : Machine Daemon LoopEvent :=
  (daemonMachine prims config).restrict fun daemon event =>
    ¬ daemon.ClosesOverLive prims event

/-- In every state of every run in which no local slot closes over a connection record in use,
no connection has caused more than one ServerHello, one login code, one refund and one
rotation. -/
theorem oncePerConnection_of_quiet {slotCount localCount : ℕ} {shared : Shared}
    {events : List LoopEvent}
    (hrun : Machine.Run (quietMachine prims config) (start slotCount localCount shared) events
      daemon) : daemon.OncePerConnection := by
  have hstep : ∀ daemon event, daemon.Rationed → (quietMachine prims config).allowed daemon event →
      (daemon.step prims config event).Rationed := fun _ _ hrationed hallowed =>
    hrationed.step hallowed.1 hallowed.2
  exact (hrun.invariant hstep rationed_start).once

theorem not_closesOverLive_of_target (htarget : ∀ index, event.target ≠ some (localRef index)) :
    ¬ daemon.ClosesOverLive prims event := by
  rintro ⟨index, hlocal, -⟩
  exact htarget index hlocal.target

theorem run_sampleLogin :
    Machine.Run (daemonMachine .sample sampleConfig) (start 2 2 sampleShared)
      (sampleLogin 0 7 sampleClientHello) (sampleDaemon (sampleLogin 0 7 sampleClientHello)) :=
  .of_allAllowed (by decide +kernel)

/-- A login signs and issues once. -/
theorem oncePerConnection_sampleLogin :
    (sampleDaemon (sampleLogin 0 7 sampleClientHello)).reports 0 .loginCode = 1 ∧
      (sampleDaemon (sampleLogin 0 7 sampleClientHello)).OncePerConnection := by
  refine ⟨by decide +kernel, oncePerConnection_of_quiet (run_sampleLogin.restrict ?_)⟩
  have hprotos : ∀ event ∈ sampleLogin 0 7 sampleClientHello,
      event.target.all (fun ref => ref.kind = .proto) = true := by decide +kernel
  intro earlier event later reached hevents _ _
  refine not_closesOverLive_of_target fun index htarget => ?_
  have hproto := hprotos event (hevents ▸ List.mem_append_right _ List.mem_cons_self)
  rw [htarget] at hproto
  cases hproto

/-- The site connects and closes while a client is in its handshake; the client starts over. -/
def sampleRestart : List LoopEvent :=
  sampleGreeting ++ .close (localRef 0) :: sampleFrame 0 0 sampleClientHello.bytes

/-- One connection is answered with two ServerHellos. -/
theorem not_oncePerConnection_sampleRestart :
    Machine.Run (daemonMachine .sample sampleConfig) (start 2 2 sampleShared) sampleRestart
        (sampleDaemon sampleRestart) ∧
      ¬ (sampleDaemon sampleRestart).OncePerConnection := by
  refine ⟨.of_allAllowed (by decide +kernel), fun honce => ?_⟩
  have htwice : (sampleDaemon sampleRestart).reports 0 .serverHello = 2 := by decide +kernel
  have hle := honce 0 .serverHello
  omega

end Daemon

end MldsaAuth.Authd
