/-
# The key a login code is issued to

A connection is pinned to a key when its ClientHello arrives and gets its login code
when its ClientAuth verifies under that key. In between the store may change in every
way. Revoking and disabling close the connections they are about, enrolling leaves
active keys alone; only a rotation of the handle's key by another connection goes
unnoticed. Without one, the pinned key is still the active one when the code is issued.
-/

import MldsaAuth.Authd.OncePerConnection
import MldsaAuth.Authd.StoreSteps

namespace MldsaAuth.Authd

open Foundation Crypto Protocol Tables

/-- When the code was issued, the key its connection authenticated with was the active key of
the handle, with the device and the user active, and the code is for that user. -/
def LoginIssue.Current (issue : LoginIssue) : Prop :=
  ∃ key, issue.active = some key ∧ key.pk = issue.pk ∧ key.userId = issue.row.userId

variable {slotCount localCount : ℕ} {shared : Shared} {conn : Conn} {cell : Cell}

namespace Daemon

variable {prims : DaemonPrimitives} {config : AuthdConfig} {daemon before after : Daemon}
  {event : LoopEvent} {index : ℕ}

/-! ## Records of free slots -/

/-- The record of a free slot is not in use. -/
def Resting (daemon : Daemon) : Prop :=
  ∀ index cell, daemon.cell index = some cell → cell.slot.state = .free → cell.conn.stage = .free

theorem resting_start : (start slotCount localCount shared).Resting := by
  intro index cell hcell _
  have hconn := (cell_eq_some_iff.mp hcell).2
  have hblank : cell.conn = .blank := List.eq_of_mem_replicate (List.mem_of_getElem? hconn)
  rw [hblank]
  rfl

theorem Resting.step (hresting : before.Resting)
    (hview : StepView prims config before event after) : after.Resting := by
  intro index next hnext hfree
  obtain ⟨cell, hcell, hmove⟩ := hview.cell_move hnext
  cases hmove with
  | plain hmove =>
    cases hmove with
    | kept => exact hresting index _ hcell hfree
    | touched _ hsame => exact hresting index cell hcell (hsame.free.mp hfree)
    | drained => exact hresting index cell hcell (free_drainSlot.mp hfree)
    | closed | overwritten => exact Conn.stage_cleared
  | opened => cases hfree
  | served _ hserved => exact absurd hfree (Cell.afterFrame_open hserved.active)
  | revoked => exact Conn.stage_cleared

/-! ## Lookups of pinned keys -/

/-- What the handle's lookup finds is what a connection is pinned to. -/
def PinCurrent (tables : Tables) (conn : Conn) : Prop :=
  ∃ key, tables.lookupActive conn.handle = some key ∧ key.pk = conn.pinPk ∧ key.userId = conn.userId

/-- A rotation commits while a connection of its handle awaits its ClientAuth. -/
def RotatesOverLogin (prims : DaemonPrimitives) (config : AuthdConfig) (daemon : Daemon)
    (event : LoopEvent) : Prop :=
  ∃ serial commit index cell,
    (daemon.step prims config event).log = daemon.log ++ [.conn serial (.rotation commit)] ∧
    daemon.cell index = some cell ∧ cell.conn.stage = .awaitCa ∧ cell.conn.decoy = false ∧
    cell.conn.handle = commit.handle

/-- Connections that await their ClientAuth are pinned to active keys, and every login code
went to one. -/
structure Pinned (daemon : Daemon) : Prop where
  wellFormed : daemon.tables.WellFormed
  resting : daemon.Resting
  current : ∀ index cell, daemon.cell index = some cell → cell.conn.stage = .awaitCa →
    cell.conn.decoy = false → PinCurrent daemon.tables cell.conn
  issued : ∀ serial issue, .conn serial (.loginCode issue) ∈ daemon.log → issue.Current

theorem pinned_start (hwf : shared.tables.WellFormed) :
    (start slotCount localCount shared).Pinned where
  wellFormed := hwf
  resting := resting_start
  current index cell hcell hstage := by
    have hfree := resting_start index cell hcell (free_of_cell_start hcell)
    exact ConnStage.noConfusion (hfree.symm.trans hstage)
  issued serial issue hentry := by cases hentry

/-- A request that leaves a connection open spares the lookup the connection is pinned to. -/
theorem spares_of_not_closes {effect : Option ApiEffect} {key : ActiveKey}
    (huser : key.userId = conn.userId)
    (hopen : (effect.any fun effect => effect.closes conn) = false) :
    (effectChange effect).spares conn.handle key := by
  cases effect with
  | none => trivial
  | some effect =>
    have hcloses : effect.closes conn = false := hopen
    cases effect with
    | deviceRevoked =>
      intro hsame
      simp [ApiEffect.closes, hsame] at hcloses
    | userDisabled | devicesRevoked =>
      intro hsame
      simp [ApiEffect.closes, ← huser, hsame] at hcloses
    | _ => trivial

/-- A cell that is in use after a request was not closed by it. -/
theorem not_closes_of_closeIf (condition : Conn → Bool) (hopen : cell.slot.state ≠ .free)
    (hused : cell.conn.stage ≠ .free) (hnext : (cell.closeIf condition).conn.stage ≠ .free) :
    condition cell.conn = false := by
  refine Bool.eq_false_iff.mpr fun hmeets => hnext ?_
  unfold Cell.closeIf Cell.close
  rw [if_pos ⟨hused, hmeets⟩, if_neg hopen]
  exact Conn.stage_cleared

/-- A connection that a step leaves as it is stays pinned to an active key. -/
theorem Pinned.current_kept (hpinned : before.Pinned)
    (hview : StepView prims config before event after)
    (hrotates : ∀ serial commit, after.log = before.log ++ [.conn serial (.rotation commit)] →
      ∀ index cell, before.cell index = some cell → cell.conn.stage = .awaitCa →
      cell.conn.decoy = false → cell.conn.handle ≠ commit.handle) {next : Cell}
    (hcell : before.cell index = some cell) (hnext : after.cell index = some next)
    (hsame : next.conn = cell.conn) (hstage : cell.conn.stage = .awaitCa)
    (hgenuine : cell.conn.decoy = false) : PinCurrent after.tables next.conn := by
  rw [hsame]
  obtain ⟨key, hlookup, hpk, huser⟩ := hpinned.current index cell hcell hstage hgenuine
  have hused : cell.conn.stage ≠ .free := by
    rw [hstage]
    exact ConnStage.noConfusion
  refine ⟨key, ?_, hpk, huser⟩
  have hkeeps : ∀ {change : StoreChange}, Evolves change before.tables after.tables →
      change.spares cell.conn.handle key → after.tables.lookupActive cell.conn.handle = some key :=
    fun hevolves hspares => (hevolves hpinned.wellFormed).2.active _ key hlookup hspares
  cases hview.store with
  | kept htables => rwa [htables]
  | swept htables =>
    rw [htables]
    exact hlookup
  | @frame target env served_cell io served hevent hserved _ hframe hafter =>
    subst hafter
    have hevolves : Evolves (.sparing cell.conn.handle) before.tables
        served.shared.tables := by
      refine hframe.evolves fun commit hrotation other _ hspares hother => ?_
      refine hrotates served_cell.slot.serial commit ?_ index cell hcell hstage hgenuine
        (hspares.symm.trans hother)
      show before.log ++ served.events.map _ = _
      rw [(hframe.committed_of_mem hrotation).2.2.2]
      rfl
    exact hkeeps hevolves rfl
  | @line env effect hrequest hlog hcells =>
    refine hkeeps hrequest.evolves (spares_of_not_closes huser ?_)
    have hopen : cell.slot.state ≠ .free := fun hfree =>
      hused (hpinned.resting index cell hcell hfree)
    refine not_closes_of_closeIf (fun conn => effect.any fun effect => effect.closes conn) hopen
      hused ?_
    have hclosed := hcells index
    rw [hcell, hnext] at hclosed
    rw [← Option.some.inj hclosed, hsame]
    exact hused

/-- A connection that awaits its ClientAuth after a frame is pinned to an active key, if it was
so before. -/
theorem pinCurrent_of_frame {env : FrameEnv} {io : ConnIo} {served : Served}
    (hview : FrameView prims config env shared conn io served) (hwf : shared.tables.WellFormed)
    (hbefore : conn.stage = .awaitCa → conn.decoy = false → PinCurrent shared.tables conn)
    (hstage : served.conn.stage = .awaitCa) (hgenuine : served.conn.decoy = false) :
    PinCurrent served.shared.tables served.conn := by
  cases hview with
  | hello hawait hview =>
    cases hview with
    | malformed hconn =>
      rw [hconn, hawait] at hstage
      cases hstage
    | @pinned handle pin hpin htables hgreeted =>
      have hidentity := hgreeted.identity
      obtain ⟨key, hlookup, rfl⟩ := hpin (hidentity.decoy.symm.trans hgenuine)
      refine ⟨key, ?_, hidentity.pinPk.symm, hidentity.userId.symm⟩
      rw [htables, hidentity.handle]
      exact hlookup
  | auth hawait hview =>
    have hsame : ∀ {conn' : Conn} {tables : Tables}, conn.SameIdentity conn' →
        PinCurrent tables conn → PinCurrent tables conn' := by
      rintro conn' tables hidentity ⟨key, hlookup, hpk, huser⟩
      exact ⟨key, hidentity.handle ▸ hlookup, hpk.trans hidentity.pinPk.symm,
        huser.trans hidentity.userId.symm⟩
    cases hview with
    | refused hidentity _ _ _ htables =>
      rw [htables]
      exact hsame hidentity (hbefore hawait (hidentity.decoy.symm.trans hgenuine))
    | issued hidentity _ hdecoy _ hstored hend =>
      cases hend with
      | serving _ hserving => cases hserving.symm.trans hstage
      | dropped _ _ _ htables =>
        obtain ⟨key, hlookup, hpk, huser⟩ := hbefore hawait hdecoy
        have hevolves : Evolves .harmless _ _ := evolves_insertLoginCode hstored
        rw [htables]
        exact hsame hidentity ⟨key, (hevolves hwf).2.active _ key hlookup trivial, hpk, huser⟩
  | record _ hview =>
    cases hview with
    | closed _ _ hclosing => cases hclosing.symm.trans hstage
    | rotated _ _ _ _ hend =>
      cases hend with
      | acknowledged _ hserving => cases hserving.symm.trans hstage
      | dropped _ hclosing => cases hclosing.symm.trans hstage
  | late hclosing hconn =>
    rw [hconn, hclosing] at hstage
    cases hstage

/-- The record a frame is served with is pinned to an active key, if it awaits its
ClientAuth. -/
theorem Pinned.current_opened (hpinned : before.Pinned) (hcell : before.cell index = some cell)
    (hstage : (cell.conn.opened cell.slot.bound).stage = .awaitCa)
    (hgenuine : (cell.conn.opened cell.slot.bound).decoy = false) :
    PinCurrent before.tables (cell.conn.opened cell.slot.bound) := by
  rcases cell.conn.opened_cases cell.slot.bound with hsame | ⟨hawait, -⟩
  · rw [hsame] at hstage hgenuine ⊢
    exact hpinned.current index cell hcell hstage hgenuine
  · exact ConnStage.noConfusion (hawait.symm.trans hstage)

/-- Every change of accounts keeps the primary keys unique. -/
theorem StoreMove.wellFormed (hmove : StoreMove prims config before event after)
    (hwf : before.tables.WellFormed) : after.tables.WellFormed := by
  cases hmove with
  | kept htables => rwa [htables]
  | swept htables => exact htables ▸ ⟨hwf.users, hwf.devices, hwf.keys⟩
  | frame _ _ _ hview hafter =>
    subst hafter
    have hevolves : Evolves ⟨fun _ _ => False, fun _ => False⟩ _ _ :=
      hview.evolves fun _ _ _ _ hspares => hspares.elim
    exact (hevolves hwf).1
  | line hview => exact (hview.evolves hwf).1

theorem Pinned.step (hpinned : before.Pinned) (hallowed : before.allowed event)
    (hquiet : ¬ before.RotatesOverLogin prims config event) :
    (before.step prims config event).Pinned := by
  have hview := step_view prims config hallowed
  refine ⟨hview.store.wellFormed hpinned.wellFormed, hpinned.resting.step hview, ?_, ?_⟩
  · intro index next hnext hstage hgenuine
    obtain ⟨cell, hcell, hmove⟩ := hview.cell_move hnext
    have hrotates : ∀ serial commit, (before.step prims config event).log =
        before.log ++ [.conn serial (.rotation commit)] →
        ∀ index cell, before.cell index = some cell → cell.conn.stage = .awaitCa →
          cell.conn.decoy = false → cell.conn.handle ≠ commit.handle :=
      fun serial commit hlog other cell hcell hstage hgenuine hsame =>
        hquiet ⟨serial, commit, other, cell, hlog, hcell, hstage, hgenuine, hsame⟩
    cases hmove with
    | plain hmove =>
      cases hmove with
      | kept | touched | drained =>
        exact hpinned.current_kept hview hrotates hcell hnext rfl hstage hgenuine
      | closed => cases hstage
      | overwritten => cases hstage
    | opened _ hfree =>
      have hresting := hpinned.resting index cell hcell hfree
      exact ConnStage.noConfusion (hresting.symm.trans hstage)
    | served _ hserved hafter =>
      rw [hafter]
      obtain ⟨io, -, hframe⟩ := hserved.view
      exact pinCurrent_of_frame hframe hpinned.wellFormed (hpinned.current_opened hcell) hstage
        hgenuine
    | revoked => cases hstage
  · intro serial issue hentry
    rcases hview.reported hentry with hold | ⟨_, target, cell, served, hserved, -, hissue⟩
    · exact hpinned.issued serial issue hold
    obtain ⟨io, -, hframe⟩ := hserved.view
    obtain ⟨hstage, hgenuine, -, hissued, -⟩ := hframe.issued_of_mem hissue
    obtain ⟨key, hlookup, hpk, huser⟩ := hpinned.current_opened hserved.cellAt hstage hgenuine
    exact ⟨key, hissued.active.trans hlookup, hpk.trans hissued.pk.symm,
      huser.trans hissued.userId.symm⟩

/-- In every state of every run in which no rotation commits while a connection of its handle
awaits its ClientAuth, every login code was issued to the then active key of its handle, with
device and user active. -/
theorem login_codes_current {slotCount localCount : ℕ} {shared : Shared}
    {events : List LoopEvent} (hwf : shared.tables.WellFormed)
    (hrun : Machine.Run ((daemonMachine prims config).restrict fun daemon event =>
        ¬ daemon.RotatesOverLogin prims config event)
      (start slotCount localCount shared) events daemon) :
    ∀ serial issue, .conn serial (.loginCode issue) ∈ daemon.log → issue.Current := by
  have hstep : ∀ daemon event, daemon.Pinned →
      ((daemonMachine prims config).restrict fun daemon event =>
        ¬ daemon.RotatesOverLogin prims config event).allowed daemon event →
      (daemon.step prims config event).Pinned :=
    fun _ _ hpinned hallowed => hpinned.step hallowed.1 hallowed.2
  exact (hrun.invariant hstep (pinned_start hwf)).issued

/-- A run that logs no rotation commits none over a login. -/
theorem not_rotatesOverLogin {events : List LoopEvent}
    (hrun : Machine.Run (daemonMachine prims config) (daemon.step prims config event) events after)
    (hlog : ∀ entry ∈ after.log, entry.kind ≠ some .rotation) :
    ¬ daemon.RotatesOverLogin prims config event := by
  rintro ⟨serial, commit, -, -, hrotated, -⟩
  refine hlog (.conn serial (.rotation commit)) ((log_grows hrun).subset ?_) rfl
  rw [hrotated]
  exact List.mem_append_right _ (List.mem_singleton_self _)

/-- The code of a login goes to the active key. -/
theorem login_codes_current_sampleLogin :
    (sampleDaemon (sampleLogin 0 7 sampleClientHello)).reports 0 .loginCode = 1 ∧
      ∀ serial issue, .conn serial (.loginCode issue) ∈
        (sampleDaemon (sampleLogin 0 7 sampleClientHello)).log → issue.Current := by
  have hwf : sampleShared.tables.WellFormed := by decide +kernel
  refine ⟨by decide +kernel, login_codes_current hwf (run_sampleLogin.restrict ?_)⟩
  exact fun earlier event later reached _ _ hrest =>
    not_rotatesOverLogin hrest (by decide +kernel)

/-- Two connections of one handle: the second logs in and rotates between the ClientHello and
the ClientAuth of the first. -/
def sampleOvertaken : List LoopEvent :=
  sampleAccept .proto :: sampleFrame 0 0 sampleClientHello.bytes ++
    sampleLogin 1 7 { sampleClientHello with nonce := blobOf 32 [3] } ++
    sampleFrame 1 0 (sampleRotate { sampleClientHello with nonce := blobOf 32 [3] }) ++
    sampleFrame 0 8 (sampleAuth sampleClientHello)

/-- A login code under a key that is not the active one. -/
def overtaken : LogEntry → Bool
  | .conn _ (.loginCode issue) => issue.active.map ActiveKey.pk ≠ some issue.pk
  | _ => false

/-- The first connection gets a login code under the key that was superseded. -/
theorem not_current_sampleOvertaken :
    Machine.Run (daemonMachine .sample sampleConfig) (start 2 2 sampleShared) sampleOvertaken
        (sampleDaemon sampleOvertaken) ∧
      ∃ serial issue, .conn serial (.loginCode issue) ∈ (sampleDaemon sampleOvertaken).log ∧
        ¬ issue.Current := by
  refine ⟨.of_allAllowed (by decide +kernel), ?_⟩
  have hstale : (sampleDaemon sampleOvertaken).log.any overtaken = true := by decide +kernel
  obtain ⟨entry, hentry, hdiffers⟩ := List.any_eq_true.mp hstale
  unfold overtaken at hdiffers
  split at hdiffers
  · rename_i serial issue
    refine ⟨serial, issue, hentry, ?_⟩
    rintro ⟨key, hactive, hpk, -⟩
    rw [hactive] at hdiffers
    exact of_decide_eq_true hdiffers (congrArg some hpk)
  · cases hdiffers

end Daemon

end MldsaAuth.Authd
