/-
# Connections and the steps about other slots

A step that is about one slot should leave every other connection alone: its handshake,
session, pin and stage, and the bytes in its buffers. The one exception is a
revocation, which closes the connections of a handle or a user. The close callback
finds the connection record by the number of the slot alone, and the local slots are
numbered like the protocol slots; so a step leaves the others alone exactly when it
does not close a local slot of which the number belongs to a record in use.
-/

import MldsaAuth.Authd.FrameView
import MldsaAuth.Authd.LoopSteps

namespace MldsaAuth.Authd

open Foundation Crypto Protocol ConnStage

variable {shared : Shared} {conn : Conn}

/-- A frame that was served leaves its record in use. -/
theorem FrameView.used {prims : DaemonPrimitives} {config : AuthdConfig} {env : FrameEnv}
    {io : ConnIo} {served : Served} (hview : FrameView prims config env shared conn io served) :
    served.conn.stage ≠ .free := by
  have hused : ∀ {stage : ConnStage}, served.conn.stage = stage → stage ≠ .free →
      served.conn.stage ≠ .free := fun hstage hne hfree => hne (hstage.symm.trans hfree)
  cases hview with
  | hello hstage hview =>
    cases hview with
    | malformed hconn => exact hused (hconn ▸ hstage) noConfusion
    | pinned hpin htables hgreeted =>
      cases hgreeted.ending with
      | refused _ hend | asked _ hend | sent _ hend => exact hused hend noConfusion
  | auth hstage hview =>
    cases hview with
    | refused _ _ hend => exact hused hend noConfusion
    | issued _ _ _ _ _ hend =>
      cases hend with
      | dropped _ hend | serving _ hend => exact hused hend noConfusion
  | record hstage hview =>
    cases hview with
    | closed _ _ hend => exact hused hend noConfusion
    | rotated _ _ _ _ hend =>
      cases hend with
      | acknowledged _ hend | dropped _ hend => exact hused hend noConfusion
  | late hstage hconn => exact hused (hconn ▸ hstage) noConfusion

theorem Conn.stage_cleared : conn.cleared.stage = .free := rfl

theorem Conn.cleared_cleared : conn.cleared.cleared = conn.cleared := rfl

namespace Daemon

variable {prims : DaemonPrimitives} {config : AuthdConfig} {daemon before after : Daemon}
  {event : LoopEvent} {index : ℕ}

/-! ## Records that are not in use -/

/-- A record that is not in use holds nothing: resetting it once more changes nothing. -/
def Tidy (daemon : Daemon) : Prop :=
  ∀ index cell, daemon.cell index = some cell → cell.conn.stage = .free →
    cell.conn.cleared = cell.conn

theorem tidy_start {slotCount localCount : ℕ} : (start slotCount localCount shared).Tidy := by
  intro index cell hcell _
  have hconn := (cell_eq_some_iff.mp hcell).2
  have hblank : cell.conn = .blank := List.eq_of_mem_replicate (List.mem_of_getElem? hconn)
  rw [hblank]
  rfl

theorem Tidy.step (htidy : daemon.Tidy) (hallowed : daemon.allowed event) :
    (daemon.step prims config event).Tidy := by
  intro index next hnext hfree
  obtain ⟨cell, hcell, hmove⟩ := (step_view _ _ hallowed).cell_move hnext
  have hbefore := htidy index cell hcell
  cases hmove with
  | plain hmove =>
    cases hmove with
    | kept | touched | drained => exact hbefore hfree
    | closed | overwritten => exact Conn.cleared_cleared
  | opened => exact hbefore hfree
  | served hevent hserved =>
    obtain ⟨payload, io, -, rfl⟩ := hserved.result
    exact absurd hfree onFrame_view.used
  | revoked => exact Conn.cleared_cleared

/-! ## Isolation -/

/-- The part of a connection that other slots' steps have to leave alone: its record, which
holds handshake, session, pin and stage, and its buffers. A local connection has no record. -/
structure ConnView where
  record : Option Conn
  io : ConnIo
deriving DecidableEq

/-- What there is in a slot. -/
def view (daemon : Daemon) (ref : SlotRef) : Option ConnView :=
  match ref.kind with
  | .proto => (daemon.cell ref.index).map fun cell =>
    { record := some cell.conn, io := cell.slot.io }
  | .loc => (daemon.slotAt ref).map fun slot => { record := none, io := slot.io }

/-- A request that was answered OK closed an open connection of the handle or user it was
about. -/
structure ClosedByRevocation (before after : Daemon) (ref : SlotRef) : Prop where
  proto : ref.kind = .proto
  matched : ∃ cell effect, before.cell ref.index = some cell ∧ cell.slot.state ≠ .free ∧
    effect.closes cell.conn = true ∧ after.log = before.log ++ [.api effect] ∧
    after.cell ref.index = some cell.closed

/-- A step about one slot leaves every other one alone, but for revocations. -/
def Isolated (prims : DaemonPrimitives) (config : AuthdConfig) (daemon : Daemon)
    (event : LoopEvent) : Prop :=
  ∀ ref, event.target = some ref → ∀ other, other ≠ ref →
    (daemon.step prims config event).view other = daemon.view other ∨
      ClosedByRevocation daemon (daemon.step prims config event) other

/-- An event closes a local slot while the connection record of the same number is in use. -/
def ClosesOverLive (prims : DaemonPrimitives) (daemon : Daemon) (event : LoopEvent) : Prop :=
  ∃ index, daemon.ClosesLocal prims event index ∧
    ∃ cell, daemon.cell index = some cell ∧ cell.conn.stage ≠ .free

theorem view_proto :
    daemon.view (protoRef index) =
      (daemon.cell index).map fun cell => { record := some cell.conn, io := cell.slot.io } := rfl

/-- A step that closes a local slot serves nothing. -/
theorem StepView.plain_of_closesLocal (hview : StepView prims config before event after)
    (hlocal : before.ClosesLocal prims event index) : PlainStep prims before event after := by
  cases hview with
  | plain hplain => exact hplain
  | opened | openedLocal | swept => exact absurd hlocal (not_closesLocal_of_none rfl)
  | frame | line => exact absurd hlocal not_closesLocal_serve

/-- A cell that a step is not about keeps record and buffers, unless a revocation closes it or
a local slot closes over it. -/
theorem CellMove.untouched {cell next : Cell}
    (hmove : CellMove prims config before event after index cell next) (hslot : event.target ≠ none)
    (hself : event.target ≠ some (protoRef index)) (hcell : before.cell index = some cell)
    (hnext : after.cell index = some next) (htidy : before.Tidy)
    (hquiet : before.ClosesLocal prims event index → cell.conn.stage = .free) :
    (next.conn = cell.conn ∧ next.slot.io = cell.slot.io) ∨
      ClosedByRevocation before after (protoRef index) := by
  cases hmove with
  | plain hmove =>
    cases hmove with
    | kept => exact .inl ⟨rfl, rfl⟩
    | touched hproto | closed hproto => exact absurd hproto hself
    | drained => exact .inl ⟨rfl, io_drainSlot⟩
    | overwritten hlocal => exact .inl ⟨htidy index cell hcell (hquiet hlocal), rfl⟩
  | opened hevent =>
    rw [hevent] at hslot
    exact absurd rfl hslot
  | served hevent =>
    rw [hevent] at hself
    exact absurd rfl hself
  | revoked hlog hopen hused hmeets =>
    exact .inr ⟨rfl, cell, _, hcell, hopen, hmeets, hlog, hnext⟩

theorem StepView.view_proto (hview : StepView prims config before event after)
    (hslot : event.target ≠ none) (hself : event.target ≠ some (protoRef index))
    (htidy : before.Tidy)
    (hquiet : before.ClosesLocal prims event index →
      ∀ cell, before.cell index = some cell → cell.conn.stage = .free) :
    after.view (protoRef index) = before.view (protoRef index) ∨
      ClosedByRevocation before after (protoRef index) := by
  have hrel := hview.cells index
  show (after.cell index).map _ = (before.cell index).map _ ∨ _
  cases hcell : before.cell index with
  | none =>
    rw [hcell] at hrel
    generalize hnext : after.cell index = reached at hrel
    cases hrel with
    | none => exact .inl rfl
  | some cell =>
    rw [hcell] at hrel
    generalize hnext : after.cell index = reached at hrel
    cases hrel with
    | some hmove =>
      refine (hmove.untouched hslot hself hcell hnext htidy
        fun hlocal => hquiet hlocal cell hcell).imp_left ?_
      rintro ⟨hconn, hio⟩
      rw [Option.map_some, Option.map_some, hconn, hio]

theorem StepView.view_local (hview : StepView prims config before event after)
    (hslot : event.target ≠ none) (hself : event.target ≠ some (localRef index)) :
    after.view (localRef index) = before.view (localRef index) := by
  have hio : (after.slotAt (localRef index)).map Slot.io =
      (before.slotAt (localRef index)).map Slot.io := by
    cases hview with
    | plain hplain => exact hplain.locals index hself
    | opened | openedLocal | swept => exact absurd rfl hslot
    | frame => rfl
    | line => rw [slotAt_putLineServed_of_ne fun heq => hself (congrArg some heq.symm)]
  have hmap : ∀ found : Option Slot,
      found.map (fun slot => ({ record := none, io := slot.io } : ConnView)) =
        (found.map Slot.io).map fun io => { record := none, io := io } := by
    intro found
    rw [Option.map_map]
    rfl
  show Option.map _ _ = Option.map _ _
  rw [hmap, hmap, hio]

/-- In every state the daemon can reach, a step about one slot leaves every other connection
alone exactly when it does not close a local slot over a connection record in use. -/
theorem isolated_iff_not_closesOverLive {slotCount localCount : ℕ} {shared : Shared}
    {events : List LoopEvent}
    (hrun : Machine.Run (daemonMachine prims config) (start slotCount localCount shared) events
      daemon) (hallowed : (daemonMachine prims config).allowed daemon event) :
    daemon.Isolated prims config event ↔ ¬ daemon.ClosesOverLive prims event := by
  have htidy : daemon.Tidy := hrun.invariant (fun _ _ htidy hstep => htidy.step hstep) tidy_start
  have hview := step_view prims config hallowed
  constructor
  · rintro hisolated ⟨index, hlocal, cell, hcell, hused⟩
    have hplain := hview.plain_of_closesLocal hlocal
    rcases hisolated _ hlocal.target (protoRef index) protoRef_ne_localRef with hsame | hrevoked
    · have hcells : (daemon.step prims config event).cell index =
          some cell.overwritten := by rw [hplain.overwrites index hlocal, hcell]; rfl
      rw [Daemon.view_proto, Daemon.view_proto, hcells, hcell] at hsame
      have hconn : cell.conn.cleared = cell.conn :=
        Option.some.inj (congrArg ConnView.record (Option.some.inj hsame))
      exact hused (hconn ▸ Conn.stage_cleared)
    · obtain ⟨_, effect, -, -, -, hlog, -⟩ := hrevoked.matched
      have hsame := hlog.symm.trans hplain.log
      simp at hsame
  · intro hnot ref htarget other hne
    have hslot : event.target ≠ none := by rw [htarget]; exact Option.some_ne_none ref
    have hself : event.target ≠ some other := by
      rw [htarget]
      exact fun heq => hne (Option.some.inj heq).symm
    obtain ⟨kind, index⟩ := other
    cases kind with
    | proto =>
      refine hview.view_proto hslot hself htidy fun hlocal cell hcell => ?_
      exact Classical.not_not.mp fun hused => hnot ⟨index, hlocal, cell, hcell, hused⟩
    | loc => exact .inl (hview.view_local hslot hself)

/-- A client has sent its ClientHello, and the site has connected. -/
def sampleGreeting : List LoopEvent :=
  sampleAccept .proto :: sampleFrame 0 0 sampleClientHello.bytes ++ [sampleAccept .loc]

theorem run_sampleGreeting :
    Machine.Run (daemonMachine .sample sampleConfig) (start 2 2 sampleShared) sampleGreeting
      (sampleDaemon sampleGreeting) :=
  .of_allAllowed (by decide +kernel)

/-- When the client goes away, the site's connection is left alone. -/
theorem isolated_close_proto :
    (sampleDaemon sampleGreeting).Isolated .sample sampleConfig (.close (protoRef 0)) := by
  have hallowed : (daemonMachine .sample sampleConfig).allowed (sampleDaemon sampleGreeting)
      (.close (protoRef 0)) := trivial
  refine (isolated_iff_not_closesOverLive run_sampleGreeting hallowed).mpr ?_
  rintro ⟨index, hlocal, -⟩
  cases hlocal.target

/-- When the site closes its connection, the client's handshake is lost. -/
theorem not_isolated_close_local :
    Machine.Run (daemonMachine .sample sampleConfig) (start 2 2 sampleShared) sampleGreeting
        (sampleDaemon sampleGreeting) ∧
      ¬ (sampleDaemon sampleGreeting).Isolated .sample sampleConfig (.close (localRef 0)) := by
  refine ⟨run_sampleGreeting, fun hisolated => ?_⟩
  have hlost : ((sampleDaemon sampleGreeting).step .sample sampleConfig
        (.close (localRef 0))).view (protoRef 0) ≠
      (sampleDaemon sampleGreeting).view (protoRef 0) := by
    decide +kernel
  have hlog : ((sampleDaemon sampleGreeting).step .sample sampleConfig
        (.close (localRef 0))).log.length = (sampleDaemon sampleGreeting).log.length := by
    decide +kernel
  rcases hisolated _ rfl (protoRef 0) protoRef_ne_localRef with hsame | hrevoked
  · exact hlost hsame
  obtain ⟨_, effect, -, -, -, hreported, -⟩ := hrevoked.matched
  rw [hreported, List.length_append, List.length_singleton] at hlog
  omega

end Daemon

end MldsaAuth.Authd
