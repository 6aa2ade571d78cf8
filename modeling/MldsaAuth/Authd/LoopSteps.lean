/-
# What one step of the daemon does

Most steps are about one slot and leave the store and the log alone; they are
described by what they do to each cell. The others are named: a connection was
accepted, the store was swept, a frame was served, a line was served. Every invariant
of the daemon is proved from this description.
-/

import MldsaAuth.Authd.LoopView

namespace MldsaAuth.Authd

open Foundation Crypto Protocol

/-- The slot an event is about. -/
def LoopEvent.target : LoopEvent → Option SlotRef
  | .receive ref _ | .serve ref _ | .written ref _ | .close ref => some ref
  | .accept _ | .stop | .tick _ _ | .sweep _ => none

/-- An event closes the slot it is about: at once, over input that does not fit, or with the last
byte that was queued. -/
def LoopEvent.shuts (prims : DaemonPrimitives) (slot : Slot) : LoopEvent → Prop
  | .close _ => True
  | .receive _ data => (slot.io.push prims data).1 ≠ .ok
  | .written _ count => (slot.io.sent count).pending = 0 ∧ slot.state = .draining
  | .accept _ | .serve _ _ | .stop | .tick _ _ | .sweep _ => False

/-- A slot still belongs to the same connection, and is not active again once it was
draining. -/
structure Slot.Same (old new : Slot) : Prop where
  serial : new.serial = old.serial
  bound : new.bound = old.bound
  free : new.state = .free ↔ old.state = .free
  active : new.state = .active → old.state = .active

variable {old slot : Slot} {cell : Cell} {ref : SlotRef} {shared : Shared} {other : ℕ}
  {served : LineServed} {io : ConnIo} {relation : Cell → Cell → Prop} {env : ServeEnv}

namespace Daemon

variable {prims : DaemonPrimitives} {config : AuthdConfig} {daemon before after : Daemon}
  {event : LoopEvent} {index : ℕ}

/-- An event closes an open local slot. -/
structure ClosesLocal (prims : DaemonPrimitives) (before : Daemon) (event : LoopEvent)
    (index : ℕ) : Prop where
  target : event.target = some (localRef index)
  opened : ∃ slot, before.slotAt (localRef index) = some slot ∧ slot.state ≠ .free ∧
    event.shuts prims slot

variable (prims : DaemonPrimitives) (before : Daemon) (event : LoopEvent) (index : ℕ) in
/-- What a step that serves nothing does to a cell. -/
inductive PlainMove : Cell → Cell → Prop
  | kept {cell : Cell} : PlainMove cell cell
  | touched {cell : Cell} {slot : Slot} (htarget : event.target = some (protoRef index))
      (hsame : cell.slot.Same slot) : PlainMove cell (cell.withSlot slot)
  | drained {cell : Cell} (hevent : event = .stop) :
      PlainMove cell (cell.withSlot (drainSlot cell.slot))
  | closed {cell : Cell} (htarget : event.target = some (protoRef index))
      (hopen : cell.slot.state ≠ .free) : PlainMove cell cell.closed
  | overwritten {cell : Cell} (hlocal : before.ClosesLocal prims event index) :
      PlainMove cell cell.overwritten

/-- A step that serves nothing: log and store are as before. A local slot keeps its buffers
unless the step is about it, and when it closes, the record of its number is reset. -/
structure PlainStep (prims : DaemonPrimitives) (before : Daemon) (event : LoopEvent)
    (after : Daemon) : Prop where
  cells : ∀ index, Option.Rel (PlainMove prims before event index) (before.cell index)
    (after.cell index)
  locals : ∀ index, event.target ≠ some (localRef index) →
    (after.slotAt (localRef index)).map Slot.io = (before.slotAt (localRef index)).map Slot.io
  overwrites : ∀ index, before.ClosesLocal prims event index →
    after.cell index = (before.cell index).map Cell.overwritten
  log : after.log = before.log
  store : after.shared.store = before.shared.store
  accepted : after.accepted = before.accepted

theorem PlainStep.of_kept (hcells : ∀ index, after.cell index = before.cell index)
    (hlocals : ∀ index, after.slotAt (localRef index) = before.slotAt (localRef index))
    (hlog : after.log = before.log) (hstore : after.shared.store = before.shared.store)
    (haccepted : after.accepted = before.accepted)
    (hstays : ∀ index, ¬before.ClosesLocal prims event index) :
    PlainStep prims before event after where
  cells index := by
    rw [hcells index]
    cases before.cell index with
    | none => exact .none
    | some => exact .some .kept
  locals index _ := by rw [hlocals index]
  overwrites index hlocal := absurd hlocal (hstays index)
  log := hlog
  store := hstore
  accepted := haccepted

theorem PlainStep.refl (hstays : ∀ index, ¬daemon.ClosesLocal prims event index) :
    PlainStep prims daemon event daemon :=
  .of_kept (fun _ => rfl) (fun _ => rfl) rfl rfl rfl hstays

/-- Serving closes no slot by itself. -/
theorem not_closesLocal_serve : ¬daemon.ClosesLocal prims (.serve ref env) index :=
  fun hlocal => hlocal.opened.elim fun _ hslot => hslot.2.2

theorem not_closesLocal_of_none (htarget : event.target = none) :
    ¬daemon.ClosesLocal prims event index :=
  fun hlocal => Option.some_ne_none _ (hlocal.target.symm.trans htarget)

theorem not_closesLocal_of_missing (htarget : event.target = some ref)
    (hnone : daemon.slotAt ref = none) : ¬daemon.ClosesLocal prims event index := by
  rintro ⟨hlocal, slot, hslot, -⟩
  rw [← Option.some.inj (htarget.symm.trans hlocal), hnone] at hslot
  cases hslot

theorem rel_map (change : Cell → Cell) (hcell : after.cell index = (before.cell index).map change)
    (hmove : ∀ cell, before.cell index = some cell → relation cell (change cell)) :
    Option.Rel relation (before.cell index) (after.cell index) := by
  rw [hcell]
  cases hfound : before.cell index with
  | none => exact .none
  | some cell => exact .some (hmove cell hfound)

theorem rel_same (hcell : after.cell index = before.cell index)
    (hsame : ∀ cell, relation cell cell) :
    Option.Rel relation (before.cell index) (after.cell index) :=
  rel_map id (by rw [hcell, Option.map_id, id]) fun cell _ => hsame cell

theorem slot_of_cell (hold : daemon.slotAt (protoRef index) = some old)
    (hcell : daemon.cell index = some cell) : cell.slot = old :=
  Option.some.inj ((cell_eq_some_iff.mp hcell).1.symm.trans hold)

/-- Another slot of the same connection takes a slot's place. -/
theorem plainStep_setSlot (htarget : event.target = some ref) (hold : daemon.slotAt ref = some old)
    (hsame : old.Same slot) (hstays : event.shuts prims old → old.state = .free) :
    PlainStep prims daemon event (daemon.setSlot ref slot) where
  cells other := by
    by_cases heq : protoRef other = ref
    · subst heq
      refine rel_map (Cell.withSlot slot) cell_setSlot_self ?_
      intro cell hcell
      exact .touched htarget (slot_of_cell hold hcell ▸ hsame)
    · exact rel_same (cell_setSlot_of_ne heq) fun _ => .kept
  locals other hne := by
    rw [slotAt_setSlot_of_ne]
    rintro rfl
    exact hne htarget
  overwrites other hlocal := by
    obtain ⟨hother, found, hfound, hopen, hshuts⟩ := hlocal
    obtain rfl := Option.some.inj (htarget.symm.trans hother)
    obtain rfl := Option.some.inj (hold.symm.trans hfound)
    exact absurd (hstays hshuts) hopen
  log := apart_setSlot.log
  store := apart_setSlot.store
  accepted := apart_setSlot.accepted

/-- What closing an open slot does to the cell of its number. -/
theorem cell_setSlot_closeSlot (hold : daemon.slotAt ref = some old) (hopen : slot.state ≠ .free) :
    ((daemon.setSlot ref slot).closeSlot prims ref).cell ref.index =
      (daemon.cell ref.index).map
        (if ref.kind = .proto then Cell.closed else Cell.overwritten) := by
  have hset : (daemon.setSlot ref slot).slotAt ref = some slot := slotAt_setSlot_self hold
  obtain ⟨kind, index⟩ := ref
  cases kind with
  | proto =>
    rw [if_pos rfl]
    refine cell_closeSlot_self.trans ?_
    rw [show (daemon.setSlot { kind := .proto, index := index } slot).cell index = _ from
      cell_setSlot_self, Option.map_map]
    refine Option.map_congr ?_
    intro cell _
    exact if_neg hopen
  | loc =>
    rw [if_neg SlotKind.noConfusion]
    exact (cell_closeSlot_local hset hopen).trans
      (congrArg _ (cell_setSlot_of_ne protoRef_ne_localRef))

/-- A slot is closed, perhaps after another slot of the same connection took its place. -/
theorem plainStep_closeSlot (htarget : event.target = some ref)
    (hold : daemon.slotAt ref = some old) (hsame : old.Same slot) (hshuts : event.shuts prims old) :
    PlainStep prims daemon event ((daemon.setSlot ref slot).closeSlot prims ref) := by
  have hset : (daemon.setSlot ref slot).slotAt ref = some slot := slotAt_setSlot_self hold
  by_cases hfree : slot.state = .free
  · rw [closeSlot_of_free hset hfree]
    exact plainStep_setSlot htarget hold hsame fun _ => hsame.free.mp hfree
  have hopen : old.state ≠ .free := fun holdFree => hfree (hsame.free.mpr holdFree)
  have hapart : Apart daemon ((daemon.setSlot ref slot).closeSlot prims ref) :=
    apart_setSlot.trans apart_closeSlot
  refine ⟨?_, ?_, ?_, hapart.log, hapart.store, hapart.accepted⟩
  · intro other
    by_cases hindex : other = ref.index
    · subst hindex
      refine rel_map _ (cell_setSlot_closeSlot hold hfree) ?_
      intro cell hcell
      obtain ⟨kind, index⟩ := ref
      cases kind with
      | proto =>
        refine .closed htarget ?_
        rw [slot_of_cell hold hcell]
        exact hopen
      | loc => exact .overwritten ⟨htarget, old, hold, hopen, hshuts⟩
    · refine rel_same ((cell_closeSlot_of_ne hindex).trans (cell_setSlot_of_ne ?_)) fun _ => .kept
      rintro rfl
      exact hindex rfl
  · intro other hne
    have hother : localRef other ≠ ref := by
      rintro rfl
      exact hne htarget
    rw [slotAt_closeSlot_of_ne hother, slotAt_setSlot_of_ne hother]
  · intro other hlocal
    obtain rfl := Option.some.inj (htarget.symm.trans hlocal.target)
    exact cell_setSlot_closeSlot hold hfree

/-! ## Events that serve nothing -/

/-- The part of the shared state that is not the store may change at the same time. -/
theorem PlainStep.withShared (hplain : PlainStep prims before event after)
    (hstore : shared.store = before.shared.store) :
    PlainStep prims before event { after with shared := shared } :=
  ⟨hplain.cells, hplain.locals, hplain.overwrites, hplain.log, hstore, hplain.accepted⟩

theorem same_onAddr : slot.Same (onAddr prims shared slot).2.1 := by
  unfold onAddr
  split
  · exact ⟨rfl, rfl, Iff.rfl, id⟩
  split
  · exact ⟨rfl, rfl, Iff.rfl, id⟩
  · split <;> exact ⟨rfl, rfl, Iff.rfl, id⟩

theorem store_onAddr : (onAddr prims shared slot).2.2.store = shared.store := by
  unfold onAddr
  split
  · rfl
  split
  · rfl
  · split <;> rfl

theorem plainStep_settleAddr (htarget : event.target = some ref)
    (hold : daemon.slotAt ref = some old) (hsame : old.Same slot) (hopen : slot.state ≠ .free)
    (hstays : ¬event.shuts prims old) :
    PlainStep prims daemon event (daemon.settleAddr prims ref slot) := by
  unfold settleAddr
  have hset : ∀ (shared : Shared) (other : Slot),
      ({ daemon with shared := shared } : Daemon).setSlot ref other =
        { daemon.setSlot ref other with shared := shared } := by
    intro shared other
    unfold setSlot
    cases ref.kind <;> rfl
  have haddr : ({ slot with addrSettled := true } : Slot).Same
      (onAddr prims daemon.shared { slot with addrSettled := true }).2.1 := same_onAddr
  dsimp only
  rw [hset]
  refine PlainStep.withShared (plainStep_setSlot htarget hold ?_
    fun hshuts => absurd hshuts hstays) store_onAddr
  split
  · refine ⟨haddr.serial.trans hsame.serial, haddr.bound.trans hsame.bound, ?_,
      fun hdraining => SlotState.noConfusion hdraining⟩
    constructor
    · intro hdraining
      cases hdraining
    intro hfree
    exact absurd (hsame.free.mpr hfree) hopen
  · exact ⟨haddr.serial.trans hsame.serial, haddr.bound.trans hsame.bound,
      haddr.free.trans hsame.free, fun hactive => hsame.active (haddr.active hactive)⟩

theorem plainStep_receive {data : Bytes} (hactive : daemon.isActive ref = true) :
    PlainStep prims daemon (.receive ref data) (daemon.receive prims ref data) := by
  unfold isActive at hactive
  unfold receive
  cases hslot : daemon.slotAt ref with
  | none => rw [hslot] at hactive; cases hactive
  | some slot =>
    rw [hslot] at hactive
    have hstate : slot.state = .active := by simpa using hactive
    have hopen : slot.state ≠ .free := by rw [hstate]; decide
    dsimp only
    split
    · rename_i io hpush
      have hstays : ¬(LoopEvent.receive ref data).shuts prims slot :=
        not_not.mpr (congrArg Prod.fst hpush)
      split
      · exact plainStep_settleAddr rfl hslot ⟨rfl, rfl, Iff.rfl, id⟩ hopen hstays
      · exact plainStep_setSlot rfl hslot ⟨rfl, rfl, Iff.rfl, id⟩ fun hshuts => absurd hshuts hstays
    · rename_i status io hnot hpush
      refine plainStep_closeSlot rfl hslot ⟨rfl, rfl, Iff.rfl, id⟩ fun hok => ?_
      exact hnot ((congrArg Prod.fst hpush).symm.trans hok)

theorem plainStep_written {count : ℕ} :
    PlainStep prims daemon (.written ref count) (daemon.written prims ref count) := by
  unfold written
  cases hslot : daemon.slotAt ref with
  | none => exact .refl fun _ => not_closesLocal_of_missing rfl hslot
  | some =>
    dsimp only
    split_ifs with hdone
    · exact plainStep_closeSlot rfl hslot ⟨rfl, rfl, Iff.rfl, id⟩ hdone
    · exact plainStep_setSlot rfl hslot ⟨rfl, rfl, Iff.rfl, id⟩ fun hshuts => absurd hshuts hdone

theorem setSlot_self (hslot : daemon.slotAt ref = some slot) :
    daemon.setSlot ref slot = daemon := by
  obtain ⟨kind, index⟩ := ref
  unfold slotAt pool at hslot
  unfold setSlot
  cases kind <;> dsimp only at hslot ⊢
  all_goals
    obtain ⟨hlt, hget⟩ := List.getElem?_eq_some_iff.mp hslot
    rw [← hget, List.set_getElem_self]

theorem plainStep_close : PlainStep prims daemon (.close ref) (daemon.closeSlot prims ref) := by
  cases hslot : daemon.slotAt ref with
  | none =>
    rw [closeSlot_of_none hslot]
    exact .refl fun _ => not_closesLocal_of_missing rfl hslot
  | some slot =>
    have hclose : PlainStep prims daemon (.close ref)
        ((daemon.setSlot ref slot).closeSlot prims ref) :=
      plainStep_closeSlot rfl hslot ⟨rfl, rfl, Iff.rfl, id⟩ trivial
    rwa [setSlot_self hslot] at hclose

theorem slotAt_stop : daemon.stop.slotAt ref = (daemon.slotAt ref).map drainSlot := by
  obtain ⟨kind, index⟩ := ref
  cases kind <;> exact List.getElem?_map

theorem io_drainSlot : (drainSlot slot).io = slot.io := by
  unfold drainSlot
  split <;> rfl

theorem serial_drainSlot : (drainSlot slot).serial = slot.serial := by
  unfold drainSlot
  split <;> rfl

theorem bound_drainSlot : (drainSlot slot).bound = slot.bound := by
  unfold drainSlot
  split <;> rfl

theorem inactive_drainSlot : (drainSlot slot).state ≠ .active := by
  unfold drainSlot
  split
  · exact SlotState.noConfusion
  · assumption

theorem free_drainSlot : (drainSlot slot).state = .free ↔ slot.state = .free := by
  unfold drainSlot
  split_ifs with hactive
  · rw [hactive]
    constructor <;> (intro hfree; cases hfree)
  · exact Iff.rfl

theorem plainStep_stop : PlainStep prims daemon .stop daemon.stop where
  cells index := by
    refine rel_map (fun cell => cell.withSlot (drainSlot cell.slot)) ?_ fun cell _ => .drained rfl
    unfold cell
    rw [slotAt_stop]
    cases daemon.slotAt (protoRef index) with
    | none => rfl
    | some =>
      show daemon.conns[index]?.map _ = (daemon.conns[index]?.map _).map _
      rw [Option.map_map]
      rfl
  locals index _ := by
    rw [slotAt_stop, Option.map_map]
    exact Option.map_congr fun slot _ => io_drainSlot
  overwrites index hlocal := absurd hlocal (not_closesLocal_of_none rfl)
  log := rfl
  store := rfl
  accepted := rfl

/-! ## Every step -/

/-- A frame of a protocol connection was taken from its buffers and served. -/
structure FrameServed (prims : DaemonPrimitives) (config : AuthdConfig) (before : Daemon)
    (env : ServeEnv) (index : ℕ) (cell : Cell) (served : Served) : Prop where
  cellAt : before.cell index = some cell
  active : cell.slot.state = .active
  result : ∃ payload io, cell.slot.io.nextFrame = (some payload, io) ∧
    served = onFrame prims config env.frame cell.slot.bound cell.slot.addrAdmitted
      (before.shared.withFaults env.faults) cell.conn io payload

/-- A line of a local connection was taken from its buffers and served. -/
structure LineTaken (prims : DaemonPrimitives) (config : AuthdConfig) (before : Daemon)
    (env : ServeEnv) (index : ℕ) (slot : Slot) (io : ConnIo) (served : LineServed) : Prop where
  slotAt : before.slotAt (localRef index) = some slot
  active : slot.state = .active
  result : ∃ line, slot.io.nextLine = (some line, io) ∧
    served = localapiOnLine prims config env.line slot.isAdmin
      (before.shared.withFaults env.faults) line

/-- A connection was accepted into a free protocol slot. -/
structure Opened (config : AuthdConfig) (before : Daemon) (listener : Listener) (index : ℕ)
    (after : Daemon) : Prop where
  free : ∃ slot, before.slotAt (protoRef index) = some slot ∧ slot.state = .free
  self : after.cell index =
    (before.cell index).map (Cell.withSlot (before.acceptedSlot config listener))
  others : ∀ other, other ≠ index → after.cell other = before.cell other
  log : after.log = before.log
  store : after.shared.store = before.shared.store
  accepted : after.accepted = before.accepted + 1

variable (prims : DaemonPrimitives) (config : AuthdConfig) (before : Daemon) in
/-- Every outcome of a step. -/
inductive StepView : LoopEvent → Daemon → Prop
  | plain {event : LoopEvent} {after : Daemon} (hplain : PlainStep prims before event after) :
      StepView event after
  | opened {listener : Listener} {index : ℕ} {after : Daemon}
      (hopened : Opened config before listener index after) : StepView (.accept listener) after
  | openedLocal {listener : Listener} {after : Daemon}
      (hcells : ∀ index, after.cell index = before.cell index) (hlog : after.log = before.log)
      (hstore : after.shared.store = before.shared.store)
      (haccepted : after.accepted = before.accepted + 1) : StepView (.accept listener) after
  | swept {faults : List Bool} {nextSweepMs : ℕ} :
      StepView (.sweep faults)
        { before with
          shared := (Shared.run
            { before.shared.withFaults faults with nextSweepMs := nextSweepMs }
            (storeSweep before.shared.nowUnix)).2 }
  | frame {env : ServeEnv} {index : ℕ} {cell : Cell} {served : Served}
      (hserved : FrameServed prims config before env index cell served) :
      StepView (.serve (protoRef index) env) (before.putServed config index cell.slot served)
  | line {env : ServeEnv} {index : ℕ} {slot : Slot} {io : ConnIo} {served : LineServed}
      (hserved : LineTaken prims config before env index slot io served) :
      StepView (.serve (localRef index) env)
        (before.putLineServed prims config index slot io served)

theorem takeSlot_free {kind : SlotKind} (htake : daemon.takeSlot kind = some index) :
    ∃ slot, daemon.slotAt { kind := kind, index := index } = some slot ∧ slot.state = .free := by
  unfold takeSlot at htake
  obtain ⟨hlt, hfree, -⟩ := List.findIdx?_eq_some_iff_getElem.mp htake
  exact ⟨_, List.getElem?_eq_getElem hlt, by simpa using hfree⟩

theorem stepView_accept {listener : Listener} :
    StepView prims config daemon (.accept listener) (daemon.accept config listener) := by
  unfold accept
  split
  · exact .plain (.refl fun _ => not_closesLocal_of_none rfl)
  cases htake : daemon.takeSlot listener.kind with
  | none => exact .plain (.refl fun _ => not_closesLocal_of_none rfl)
  | some =>
    have hfree := takeSlot_free htake
    dsimp only
    cases hkind : listener.kind with
    | proto =>
      rw [hkind] at hfree
      exact .opened ⟨hfree, cell_setSlot_self,
        fun other hne => cell_setSlot_of_ne (protoRef_ne hne), rfl, rfl, rfl⟩
    | loc =>
      refine .openedLocal ?_ rfl rfl rfl
      intro other
      exact cell_setSlot_of_ne protoRef_ne_localRef

theorem active_slot (hactive : daemon.isActive ref = true) (hslot : daemon.slotAt ref = some slot) :
    slot.state = .active := by
  unfold isActive at hactive
  rw [hslot] at hactive
  simpa using hactive

theorem stepView_serveFrame (hactive : daemon.isActive (protoRef index) = true) :
    StepView prims config daemon (.serve (protoRef index) env)
      (daemon.serveFrame prims config env index) := by
  unfold serveFrame
  cases hslot : daemon.slots[index]? with
  | none => exact .plain (.refl fun _ => not_closesLocal_serve)
  | some slot =>
    have hat : daemon.slotAt (protoRef index) = some slot := hslot
    have hstate := active_slot hactive hat
    dsimp only
    split
    · exact .plain (plainStep_setSlot rfl hat ⟨rfl, rfl, Iff.rfl, id⟩ False.elim)
    rename_i payload io hframe
    cases hconn : daemon.conns[index]? with
    | none =>
      refine .plain (plainStep_setSlot rfl hat ⟨rfl, rfl, ?_, fun _ => hstate⟩ False.elim)
      rw [hstate]
      constructor
      · intro hdraining
        cases hdraining
      intro hfree
      cases hfree
    | some conn =>
      have hcell : daemon.cell index = some ⟨slot, conn⟩ := cell_eq_some_iff.mpr ⟨hat, hconn⟩
      exact .frame ⟨hcell, hstate, payload, io, hframe, rfl⟩

theorem stepView_serveLine (hactive : daemon.isActive (localRef index) = true) :
    StepView prims config daemon (.serve (localRef index) env)
      (daemon.serveLine prims config env index) := by
  unfold serveLine
  cases hslot : daemon.localSlots[index]? with
  | none => exact .plain (.refl fun _ => not_closesLocal_serve)
  | some slot =>
    have hat : daemon.slotAt (localRef index) = some slot := hslot
    have hstate := active_slot hactive hat
    dsimp only
    split
    · exact .plain (plainStep_setSlot rfl hat ⟨rfl, rfl, Iff.rfl, id⟩ False.elim)
    rename_i line io hline
    exact .line ⟨hat, hstate, line, hline, rfl⟩

/-- Every allowed step is one of those described. -/
theorem step_view (prims : DaemonPrimitives) (config : AuthdConfig)
    (hallowed : daemon.allowed event) :
    StepView prims config daemon event (daemon.step prims config event) := by
  cases event with
  | accept listener => exact stepView_accept
  | receive => exact .plain (plainStep_receive hallowed)
  | serve ref =>
    obtain ⟨kind, index⟩ := ref
    cases kind with
    | proto => exact stepView_serveFrame hallowed
    | loc => exact stepView_serveLine hallowed
  | written => exact .plain plainStep_written
  | close => exact .plain plainStep_close
  | stop => exact .plain plainStep_stop
  | tick =>
    exact .plain (.of_kept (fun _ => rfl) (fun _ => rfl) rfl rfl rfl
      fun _ => not_closesLocal_of_none rfl)
  | sweep faults =>
    show StepView prims config daemon _ (daemon.maybeSweep faults)
    unfold maybeSweep
    split
    · exact .plain (.refl fun _ => not_closesLocal_of_none rfl)
    · exact .swept

/-! ## Cells after something was served -/

/-- A cell of which a frame has been served. -/
def Cell.afterFrame (config : AuthdConfig) (nowMs : ℕ) (cell : Cell) (served : Served) : Cell where
  slot :=
    { servedSlot config nowMs cell.slot served.io.consumeFrame served.action with bound := true }
  conn := served.conn

theorem Cell.afterFrame_open {nowMs : ℕ} {served : Served} (hactive : cell.slot.state = .active) :
    (cell.afterFrame config nowMs served).slot.state ≠ .free := by
  show (if served.action = .close then SlotState.draining else cell.slot.state) ≠ .free
  rw [hactive]
  split <;> exact SlotState.noConfusion

theorem cell_putServed_self {found : Cell} {served : Served}
    (hcell : daemon.cell index = some found) :
    (daemon.putServed config index found.slot served).cell index =
      some (found.afterFrame config daemon.shared.nowMs served) := by
  obtain ⟨hslot, hconn⟩ := cell_eq_some_iff.mp hcell
  have hat : daemon.slots[index]? = some found.slot := hslot
  obtain ⟨hltSlots, -⟩ := List.getElem?_eq_some_iff.mp hat
  obtain ⟨hltConns, -⟩ := List.getElem?_eq_some_iff.mp hconn
  exact cell_eq_some_iff.mpr ⟨List.getElem?_set_self hltSlots, List.getElem?_set_self hltConns⟩

theorem cell_putServed_of_ne {served : Served} (hne : other ≠ index) :
    (daemon.putServed config index slot served).cell other = daemon.cell other :=
  cell_congr (List.getElem?_set_ne (Ne.symm hne)) (List.getElem?_set_ne (Ne.symm hne))

theorem slotAt_local_afterLine :
    (daemon.afterLine prims served).slotAt (localRef index) = daemon.slotAt (localRef index) := by
  unfold afterLine
  cases served.effect with
  | none => rfl
  | some => exact slotAt_local_closeMatching

theorem slotAt_putLineServed_self (hold : daemon.slotAt (localRef index) = some old) :
    (daemon.putLineServed prims config index slot io served).slotAt (localRef index) =
      some (servedSlot config daemon.shared.nowMs slot (io.queue served.reply).2.consumeLine
        .continue_) :=
  slotAt_setSlot_self (slotAt_local_afterLine.trans hold)

theorem slotAt_putLineServed_of_ne (hne : localRef other ≠ localRef index) :
    (daemon.putLineServed prims config index slot io served).slotAt (localRef other) =
      daemon.slotAt (localRef other) :=
  (slotAt_setSlot_of_ne hne).trans slotAt_local_afterLine

theorem cell_putLineServed :
    (daemon.putLineServed prims config index slot io served).cell other =
      (daemon.cell other).map
        (Cell.closeIf fun conn => served.effect.any fun effect => effect.closes conn) := by
  refine (cell_setSlot_of_ne protoRef_ne_localRef).trans ?_
  unfold afterLine
  cases served.effect with
  | none =>
    show daemon.cell other = _
    cases daemon.cell other with
    | none => rfl
    | some => exact congrArg some (if_neg fun hmeets => Bool.noConfusion hmeets.2).symm
  | some => exact cell_closeMatching

/-- What handling a line leaves in log and store. -/
theorem apart_afterLine :
    Apart
      { daemon with
        shared := served.shared
        log := daemon.log ++ served.effect.toList.map LogEntry.api }
      (daemon.afterLine prims served) := by
  unfold afterLine
  cases served.effect with
  | none => exact .rfl
  | some effect => exact apart_closeMatching prims effect.closes _

theorem log_putLineServed :
    (daemon.putLineServed prims config index slot io served).log =
      daemon.log ++ served.effect.toList.map LogEntry.api :=
  apart_setSlot.log.trans apart_afterLine.log

theorem store_putLineServed :
    (daemon.putLineServed prims config index slot io served).shared.store = served.shared.store :=
  apart_setSlot.store.trans apart_afterLine.store

theorem accepted_putLineServed :
    (daemon.putLineServed prims config index slot io served).accepted = daemon.accepted :=
  apart_setSlot.accepted.trans apart_afterLine.accepted

/-! ## One cell in one step -/

variable (prims : DaemonPrimitives) (config : AuthdConfig) (before : Daemon) (event : LoopEvent)
  (after : Daemon) (index : ℕ) in
/-- Everything that can happen to a cell in one step. -/
inductive CellMove : Cell → Cell → Prop
  | plain {cell next : Cell} (hmove : PlainMove prims before event index cell next) :
      CellMove cell next
  | opened {cell : Cell} {listener : Listener} (hevent : event = .accept listener)
      (hfree : cell.slot.state = .free) (haccepted : after.accepted = before.accepted + 1)
      (hothers : ∀ other, other ≠ index → after.cell other = before.cell other) :
      CellMove cell (cell.withSlot (before.acceptedSlot config listener))
  | served {cell : Cell} {env : ServeEnv} {served : Served}
      (hevent : event = .serve (protoRef index) env)
      (hserved : FrameServed prims config before env index cell served)
      (hafter : after = before.putServed config index cell.slot served) :
      CellMove cell (cell.afterFrame config before.shared.nowMs served)
  | revoked {cell : Cell} {effect : ApiEffect} (hlog : after.log = before.log ++ [.api effect])
      (hopen : cell.slot.state ≠ .free) (hused : cell.conn.stage ≠ .free)
      (hmeets : effect.closes cell.conn = true) : CellMove cell cell.closed

theorem rel_cells_same (hcell : after.cell index = before.cell index) :
    Option.Rel (CellMove prims config before event after index) (before.cell index)
      (after.cell index) :=
  rel_same hcell fun _ => .plain .kept

theorem closeIf_move (hlog : after.log = before.log ++ served.effect.toList.map LogEntry.api) :
    CellMove prims config before event after index cell
      (cell.closeIf fun conn => served.effect.any fun effect => effect.closes conn) := by
  unfold Cell.closeIf
  split_ifs with hmeets
  · unfold Cell.close
    split_ifs with hopen
    · exact .plain .kept
    cases heffect : served.effect with
    | none =>
      rw [heffect] at hmeets
      cases hmeets.2
    | some =>
      rw [heffect] at hlog hmeets
      exact .revoked hlog hopen hmeets.1 hmeets.2
  · exact .plain .kept

/-- Every cell moves by one of these moves. -/
theorem StepView.cells (hview : StepView prims config before event after) (index : ℕ) :
    Option.Rel (CellMove prims config before event after index) (before.cell index)
      (after.cell index) := by
  cases hview with
  | plain hplain =>
    have hrel := hplain.cells index
    generalize before.cell index = found at hrel ⊢
    generalize after.cell index = reached at hrel ⊢
    cases hrel with
    | none => exact .none
    | some hmove => exact .some (.plain hmove)
  | @opened listener opened _ hopened =>
    by_cases heq : index = opened
    · subst heq
      refine rel_map _ hopened.self ?_
      intro cell hcell
      obtain ⟨slot, hslot, hfree⟩ := hopened.free
      exact .opened rfl (slot_of_cell hslot hcell ▸ hfree) hopened.accepted hopened.others
    · exact rel_cells_same (hopened.others index heq)
  | openedLocal hcells => exact rel_cells_same (hcells index)
  | swept => exact rel_cells_same rfl
  | @frame env target cell served hserved =>
    by_cases heq : index = target
    · subst heq
      rw [cell_putServed_self hserved.cellAt, hserved.cellAt]
      exact .some (.served rfl hserved rfl)
    · exact rel_cells_same (cell_putServed_of_ne heq)
  | line =>
    exact rel_map _ cell_putLineServed fun cell _ => closeIf_move log_putLineServed

/-- Every cell after a step comes from the cell before it by one of these moves. -/
theorem StepView.cell_move {next : Cell} (hview : StepView prims config before event after)
    (hnext : after.cell index = some next) :
    ∃ cell, before.cell index = some cell ∧
      CellMove prims config before event after index cell next := by
  have hrel := hview.cells index
  rw [hnext] at hrel
  generalize before.cell index = found at hrel ⊢
  cases hrel with
  | some hmove => exact ⟨_, rfl, hmove⟩

end Daemon

end MldsaAuth.Authd
