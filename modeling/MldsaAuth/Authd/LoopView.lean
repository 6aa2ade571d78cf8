/-
# What the operations of the loop do to slots and records

A cell is a protocol slot with the connection record of its number. Most operations
are about one slot; closing a slot resets the record of its number, and closing all
connections that match a condition does so cell by cell. The lemmas below say for
each operation what becomes of every slot and every record, so that later proofs
never unfold the loop.
-/

import MldsaAuth.Authd.Evloop

namespace MldsaAuth.Authd

open Foundation Crypto Protocol

variable {index : ℕ} {condition : Conn → Bool} {old : Slot} {otherIndex first second : ℕ}

namespace Daemon

variable {prims : DaemonPrimitives} {config : AuthdConfig} {daemon : Daemon} {ref other : SlotRef}
  {slot : Slot}

/-! ## Slots -/

theorem slotAt_setSlot_of_ne (hne : other ≠ ref) :
    (daemon.setSlot ref slot).slotAt other = daemon.slotAt other := by
  obtain ⟨kind, index⟩ := ref
  obtain ⟨otherKind, otherIndex⟩ := other
  unfold slotAt setSlot pool
  cases kind <;> cases otherKind <;> dsimp only
  all_goals
    rw [List.getElem?_set_ne]
    rintro rfl
    exact hne rfl

theorem slotAt_setSlot_self (hold : daemon.slotAt ref = some old) :
    (daemon.setSlot ref slot).slotAt ref = some slot := by
  obtain ⟨kind, index⟩ := ref
  unfold slotAt pool at hold
  unfold slotAt setSlot pool
  cases kind <;> dsimp only at hold ⊢
  all_goals
    obtain ⟨hlt, -⟩ := List.getElem?_eq_some_iff.mp hold
    rw [List.getElem?_set_self hlt]

theorem slotAt_setSlot_none (hnone : daemon.slotAt ref = none) :
    (daemon.setSlot ref slot).slotAt ref = none := by
  obtain ⟨kind, index⟩ := ref
  unfold slotAt pool at hnone
  unfold slotAt setSlot pool
  cases kind <;> dsimp only at hnone ⊢
  all_goals
    rw [List.getElem?_eq_none_iff] at hnone ⊢
    rwa [List.length_set]

@[simp]
theorem conns_setSlot : (daemon.setSlot ref slot).conns = daemon.conns := by
  obtain ⟨kind, index⟩ := ref
  cases kind <;> rfl

@[simp]
theorem slotAt_releaseAddr : (daemon.releaseAddr prims slot).slotAt ref = daemon.slotAt ref := by
  unfold releaseAddr
  split <;> rfl

@[simp]
theorem conns_releaseAddr : (daemon.releaseAddr prims slot).conns = daemon.conns := by
  unfold releaseAddr
  split <;> rfl

@[simp]
theorem slotAt_resetConn : (daemon.resetConn index).slotAt ref = daemon.slotAt ref := by
  unfold resetConn
  split <;> rfl

theorem conns_resetConn_of_ne (hne : otherIndex ≠ index) :
    (daemon.resetConn index).conns[otherIndex]? = daemon.conns[otherIndex]? := by
  unfold resetConn
  split
  · rfl
  · exact List.getElem?_set_ne (Ne.symm hne)

theorem conns_resetConn_self :
    (daemon.resetConn index).conns[index]? = daemon.conns[index]?.map Conn.cleared := by
  unfold resetConn
  cases hconn : daemon.conns[index]? with
  | none => exact hconn
  | some =>
    obtain ⟨hlt, -⟩ := List.getElem?_eq_some_iff.mp hconn
    dsimp only
    rw [List.getElem?_set_self hlt, Conn.reset_fst, Option.map_some]

theorem slotAt_freeSlot_of_ne (hne : other ≠ ref) :
    (daemon.freeSlot ref).slotAt other = daemon.slotAt other := by
  have hset : (daemon.freeSlot ref).slotAt other =
      (daemon.setSlot ref (.blank ref.kind)).slotAt other := by
    unfold freeSlot
    obtain ⟨kind, index⟩ := ref
    cases kind <;> rfl
  rw [hset, slotAt_setSlot_of_ne hne]

theorem slotAt_freeSlot_self (hold : daemon.slotAt ref = some old) :
    (daemon.freeSlot ref).slotAt ref = some (.blank ref.kind) := by
  have hset : (daemon.freeSlot ref).slotAt ref =
      (daemon.setSlot ref (.blank ref.kind)).slotAt ref := by
    unfold freeSlot
    obtain ⟨kind, index⟩ := ref
    cases kind <;> rfl
  rw [hset, slotAt_setSlot_self hold]

@[simp]
theorem conns_freeSlot : (daemon.freeSlot ref).conns = daemon.conns := by
  obtain ⟨kind, index⟩ := ref
  cases kind <;> rfl

/-! ## Closing -/

/-- Every outcome of `evloop_close_slot`. -/
inductive CloseView (prims : DaemonPrimitives) (daemon : Daemon) (ref : SlotRef) : Daemon → Prop
  | missing (hnone : daemon.slotAt ref = none) : CloseView prims daemon ref daemon
  | already {slot : Slot} (hslot : daemon.slotAt ref = some slot) (hfree : slot.state = .free) :
      CloseView prims daemon ref daemon
  | closed {slot : Slot} (hslot : daemon.slotAt ref = some slot) (hopen : slot.state ≠ .free) :
      CloseView prims daemon ref
        (((daemon.resetConn ref.index).releaseAddr prims slot).freeSlot ref)

theorem closeSlot_view (prims : DaemonPrimitives) (daemon : Daemon) (ref : SlotRef) :
    CloseView prims daemon ref (daemon.closeSlot prims ref) := by
  unfold closeSlot
  cases hslot : daemon.slotAt ref with
  | none => exact .missing hslot
  | some slot =>
    dsimp only
    split_ifs with hfree
    · exact .already hslot hfree
    exact .closed hslot hfree

theorem closeSlot_of_none (hnone : daemon.slotAt ref = none) :
    daemon.closeSlot prims ref = daemon := by
  unfold closeSlot
  rw [hnone]

theorem closeSlot_of_free (hslot : daemon.slotAt ref = some slot) (hfree : slot.state = .free) :
    daemon.closeSlot prims ref = daemon := by
  unfold closeSlot
  rw [hslot]
  exact if_pos hfree

theorem closeSlot_of_open (hslot : daemon.slotAt ref = some slot) (hopen : slot.state ≠ .free) :
    daemon.closeSlot prims ref =
      ((daemon.resetConn ref.index).releaseAddr prims slot).freeSlot ref := by
  unfold closeSlot
  rw [hslot]
  exact if_neg hopen

theorem slotAt_closeSlot_of_ne (hne : other ≠ ref) :
    (daemon.closeSlot prims ref).slotAt other = daemon.slotAt other := by
  have hview := closeSlot_view prims daemon ref
  generalize daemon.closeSlot prims ref = after at hview ⊢
  cases hview with
  | missing | already => rfl
  | closed => rw [slotAt_freeSlot_of_ne hne, slotAt_releaseAddr, slotAt_resetConn]

theorem conns_closeSlot_of_ne (hne : index ≠ ref.index) :
    (daemon.closeSlot prims ref).conns[index]? = daemon.conns[index]? := by
  have hview := closeSlot_view prims daemon ref
  generalize daemon.closeSlot prims ref = after at hview ⊢
  cases hview with
  | missing | already => rfl
  | closed => rw [conns_freeSlot, conns_releaseAddr, conns_resetConn_of_ne hne]

theorem slotAt_closeSlot_self (hslot : daemon.slotAt ref = some slot) :
    (daemon.closeSlot prims ref).slotAt ref =
      some (if slot.state = .free then slot else .blank ref.kind) := by
  split_ifs with hfree
  · rw [closeSlot_of_free hslot hfree, hslot]
  · rw [closeSlot_of_open hslot hfree]
    have hkept : ((daemon.resetConn ref.index).releaseAddr prims slot).slotAt ref = some slot := by
      rw [slotAt_releaseAddr, slotAt_resetConn, hslot]
    exact slotAt_freeSlot_self hkept

theorem conns_closeSlot_self (hslot : daemon.slotAt ref = some slot) (hopen : slot.state ≠ .free) :
    (daemon.closeSlot prims ref).conns[ref.index]? = daemon.conns[ref.index]?.map Conn.cleared := by
  rw [closeSlot_of_open hslot hopen, conns_freeSlot, conns_releaseAddr, conns_resetConn_self]

/-! ## Cells -/

/-- The protocol slot of a number. -/
def protoRef (index : ℕ) : SlotRef := { kind := .proto, index := index }

/-- The local slot of a number. -/
def localRef (index : ℕ) : SlotRef := { kind := .loc, index := index }

/-- A protocol slot with the connection record of its number. -/
structure Cell where
  slot : Slot
  conn : Conn

/-- The slot of a cell is replaced. -/
def Cell.withSlot (slot : Slot) (cell : Cell) : Cell := { cell with slot := slot }

/-- The record of a cell is reset. -/
def Cell.overwritten (cell : Cell) : Cell := { cell with conn := cell.conn.cleared }

/-- A closed cell. -/
def Cell.closed (cell : Cell) : Cell := { slot := .blank .proto, conn := cell.conn.cleared }

/-- A cell of which the slot has been closed, unless it was free. -/
def Cell.close (cell : Cell) : Cell := if cell.slot.state = .free then cell else cell.closed

/-- A cell is closed if its record is in use and meets a condition. -/
def Cell.closeIf (condition : Conn → Bool) (cell : Cell) : Cell :=
  if cell.conn.stage ≠ .free ∧ condition cell.conn = true then cell.close else cell

/-- The cell of a number. -/
def cell (daemon : Daemon) (index : ℕ) : Option Cell :=
  (daemon.slotAt (protoRef index)).bind fun slot =>
    daemon.conns[index]?.map fun conn => { slot := slot, conn := conn }

theorem cell_eq_some_iff {found : Cell} :
    daemon.cell index = some found ↔
      daemon.slotAt (protoRef index) = some found.slot ∧
        daemon.conns[index]? = some found.conn := by
  unfold cell
  constructor
  · intro hcell
    obtain ⟨slot, hslot, hmap⟩ := Option.bind_eq_some_iff.mp hcell
    obtain ⟨conn, hconn, rfl⟩ := Option.map_eq_some_iff.mp hmap
    exact ⟨hslot, hconn⟩
  · rintro ⟨hslot, hconn⟩
    rw [hslot, hconn]
    rfl

theorem cell_congr {after : Daemon}
    (hslot : after.slotAt (protoRef index) = daemon.slotAt (protoRef index))
    (hconn : after.conns[index]? = daemon.conns[index]?) :
    after.cell index = daemon.cell index := by
  unfold cell
  rw [hslot, hconn]

theorem protoRef_ne (hne : first ≠ second) :
    protoRef first ≠ protoRef second := fun heq => hne (congrArg SlotRef.index heq)

theorem protoRef_ne_localRef : protoRef first ≠ localRef second :=
  fun heq => by cases congrArg SlotRef.kind heq

theorem cell_setSlot_of_ne (hne : protoRef index ≠ ref) :
    (daemon.setSlot ref slot).cell index = daemon.cell index :=
  cell_congr (slotAt_setSlot_of_ne hne) (by rw [conns_setSlot])

theorem cell_setSlot_self :
    (daemon.setSlot (protoRef index) slot).cell index =
      (daemon.cell index).map (Cell.withSlot slot) := by
  unfold cell
  rw [conns_setSlot]
  cases hold : daemon.slotAt (protoRef index) with
  | none => rw [slotAt_setSlot_none hold]; rfl
  | some =>
    rw [slotAt_setSlot_self hold]
    cases daemon.conns[index]? with
    | none => rfl
    | some => rfl

/-! ## Closing one slot -/

theorem cell_closeSlot_of_ne (hne : index ≠ ref.index) :
    (daemon.closeSlot prims ref).cell index = daemon.cell index :=
  cell_congr (slotAt_closeSlot_of_ne fun heq => hne (congrArg SlotRef.index heq))
    (conns_closeSlot_of_ne hne)

theorem cell_closeSlot_self :
    (daemon.closeSlot prims (protoRef index)).cell index = (daemon.cell index).map Cell.close := by
  cases hslot : daemon.slotAt (protoRef index) with
  | none =>
    rw [closeSlot_of_none hslot]
    unfold cell
    rw [hslot]
    rfl
  | some slot =>
    unfold cell
    rw [slotAt_closeSlot_self hslot, hslot]
    by_cases hfree : slot.state = .free
    · rw [if_pos hfree, closeSlot_of_free hslot hfree]
      cases daemon.conns[index]? with
      | none => rfl
      | some => exact congrArg some (if_pos hfree).symm
    · rw [if_neg hfree, show (daemon.closeSlot prims (protoRef index)).conns[index]? = _ from
        conns_closeSlot_self hslot hfree]
      show Option.map _ (Option.map _ daemon.conns[index]?) = _
      cases daemon.conns[index]? with
      | none => rfl
      | some => exact congrArg some (if_neg hfree).symm

/-- Closing a local slot that is open resets the record of its number. -/
theorem cell_closeSlot_local (hslot : daemon.slotAt (localRef index) = some slot)
    (hopen : slot.state ≠ .free) :
    (daemon.closeSlot prims (localRef index)).cell index =
      (daemon.cell index).map Cell.overwritten := by
  unfold cell
  rw [slotAt_closeSlot_of_ne protoRef_ne_localRef,
    show (daemon.closeSlot prims (localRef index)).conns[index]? = _ from
      conns_closeSlot_self hslot hopen]
  show Option.bind _ (fun _ => Option.map _ (Option.map _ daemon.conns[index]?)) = _
  cases daemon.slotAt (protoRef index) with
  | none => rfl
  | some =>
    cases daemon.conns[index]? with
    | none => rfl
    | some => rfl

/-! ## Closing what matches -/

theorem cell_closeMatchingAt_of_ne (hne : otherIndex ≠ index) :
    (daemon.closeMatchingAt prims condition index).cell otherIndex = daemon.cell otherIndex := by
  unfold closeMatchingAt
  split
  · rfl
  split
  · exact cell_closeSlot_of_ne hne
  · rfl

theorem cell_closeMatchingAt_self :
    (daemon.closeMatchingAt prims condition index).cell index =
      (daemon.cell index).map (Cell.closeIf condition) := by
  have hclose : (daemon.closeSlot prims { kind := .proto, index := index }).cell index =
      (daemon.cell index).map Cell.close := cell_closeSlot_self
  unfold closeMatchingAt
  cases hcell : daemon.cell index with
  | none =>
    rw [hcell] at hclose
    cases daemon.conns[index]? with
    | none => exact hcell
    | some =>
      dsimp only
      split
      · exact hclose
      · exact hcell
  | some =>
    rw [(cell_eq_some_iff.mp hcell).2]
    dsimp only
    unfold Option.map Cell.closeIf
    split
    · rw [hclose, hcell]
      rfl
    · exact hcell

theorem cell_foldl_closeMatchingAt {indices : List ℕ} (hnodup : indices.Nodup) :
    (indices.foldl (closeMatchingAt prims condition) daemon).cell index =
      if index ∈ indices then (daemon.cell index).map (Cell.closeIf condition)
      else daemon.cell index := by
  induction indices generalizing daemon with
  | nil => rfl
  | cons head rest ih =>
    obtain ⟨hhead, hrest⟩ := List.nodup_cons.mp hnodup
    rw [List.foldl_cons, ih hrest]
    by_cases heq : index = head
    · subst heq
      rw [if_neg hhead, if_pos List.mem_cons_self, cell_closeMatchingAt_self]
    rw [cell_closeMatchingAt_of_ne heq]
    simp only [List.mem_cons, heq, false_or]

/-- `close_matching` closes the cells that match and touches no other. -/
theorem cell_closeMatching :
    (daemon.closeMatching prims condition).cell index =
      (daemon.cell index).map (Cell.closeIf condition) := by
  unfold closeMatching
  rw [cell_foldl_closeMatchingAt List.nodup_range]
  split_ifs with hout
  · rfl
  have hnone : daemon.cell index = none := by
    cases hcell : daemon.cell index with
    | none => rfl
    | some found =>
      obtain ⟨hslot, hconn⟩ := cell_eq_some_iff.mp hcell
      have hslots : daemon.slots[index]? = some found.slot := hslot
      obtain ⟨hltSlots, -⟩ := List.getElem?_eq_some_iff.mp hslots
      obtain ⟨hltConns, -⟩ := List.getElem?_eq_some_iff.mp hconn
      exact absurd (List.mem_range.mpr (lt_min hltConns hltSlots)) hout
  rw [hnone]
  rfl

/-- What closing slots leaves alone. -/
structure Apart (before after : Daemon) : Prop where
  log : after.log = before.log
  store : after.shared.store = before.shared.store
  nowUnix : after.shared.nowUnix = before.shared.nowUnix
  accepted : after.accepted = before.accepted

theorem Apart.rfl : Apart daemon daemon :=
  ⟨Eq.refl _, Eq.refl _, Eq.refl _, Eq.refl _⟩

theorem Apart.trans {first second third : Daemon} (hfirst : Apart first second)
    (hsecond : Apart second third) : Apart first third :=
  ⟨hsecond.log.trans hfirst.log, hsecond.store.trans hfirst.store,
    hsecond.nowUnix.trans hfirst.nowUnix, hsecond.accepted.trans hfirst.accepted⟩

theorem apart_setSlot : Apart daemon (daemon.setSlot ref slot) := by
  obtain ⟨kind, index⟩ := ref
  cases kind <;> exact ⟨rfl, rfl, rfl, rfl⟩

theorem apart_resetConn : Apart daemon (daemon.resetConn index) := by
  unfold resetConn
  split <;> exact ⟨rfl, rfl, rfl, rfl⟩

theorem apart_releaseAddr : Apart daemon (daemon.releaseAddr prims slot) := by
  unfold releaseAddr
  split <;> exact ⟨rfl, rfl, rfl, rfl⟩

theorem apart_freeSlot : Apart daemon (daemon.freeSlot ref) := by
  obtain ⟨kind, index⟩ := ref
  cases kind <;> exact ⟨rfl, rfl, rfl, rfl⟩

theorem apart_closeSlot : Apart daemon (daemon.closeSlot prims ref) := by
  have hview := closeSlot_view prims daemon ref
  generalize daemon.closeSlot prims ref = after at hview ⊢
  cases hview with
  | missing | already => exact .rfl
  | closed => exact (apart_resetConn.trans apart_releaseAddr).trans apart_freeSlot

theorem apart_closeMatchingAt : Apart daemon (daemon.closeMatchingAt prims condition index) := by
  unfold closeMatchingAt
  split
  · exact .rfl
  split
  · exact apart_closeSlot
  · exact .rfl

theorem apart_closeMatching (prims : DaemonPrimitives) (condition : Conn → Bool)
    (daemon : Daemon) : Apart daemon (daemon.closeMatching prims condition) := by
  unfold closeMatching
  generalize List.range (min daemon.conns.length daemon.slots.length) = indices
  induction indices generalizing daemon with
  | nil => exact .rfl
  | cons index rest ih => exact apart_closeMatchingAt.trans (ih _)

theorem slotAt_local_closeMatching :
    (daemon.closeMatching prims condition).slotAt (localRef index) =
      daemon.slotAt (localRef index) := by
  unfold closeMatching
  generalize List.range (min daemon.conns.length daemon.slots.length) = indices
  induction indices generalizing daemon with
  | nil => rfl
  | cons head rest ih =>
    refine ih.trans ?_
    unfold closeMatchingAt
    split
    · rfl
    split
    · exact slotAt_closeSlot_of_ne fun heq => protoRef_ne_localRef heq.symm
    · rfl

end Daemon

end MldsaAuth.Authd
