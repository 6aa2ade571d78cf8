/-
# The ledger as a map

A ledger in which no two slots are held under one id is a partial map from
handshake ids to entries. Each ledger function either reads that map at one id,
changes it at one id, or drops the entries whose deadline has come. The views
below say which, once per function; everything later reasons about the map.
-/

import MldsaAuth.Protocol.Ledger
import Mathlib.Logic.Function.Basic

namespace MldsaAuth.Protocol

open Foundation Function

variable {store next : PendingStore} {id other : HandshakeId} {now sweepNow : ℕ}
  {thClientAuth : Digest}

namespace PendingEntry

variable {entry : PendingEntry}

theorem key_eq_some : entry.key = some id ↔ entry.state ≠ .free ∧ entry.handshakeId = id := by
  unfold key
  split <;> simp_all

@[simp]
theorem key_blank : blank.key = none := rfl

@[simp]
theorem expired_iff : entry.expired now = true ↔ entry.deadlineMs ≤ now := by
  simp [expired]

@[simp]
theorem expired_eq_false_iff : entry.expired now = false ↔ now < entry.deadlineMs := by
  simp [expired]

end PendingEntry

variable {found value : PendingEntry} {index : ℕ}

namespace PendingStore

/-- A usable store in which an id has at most one slot. Its lifetime setting is a
64-bit number. -/
structure WellFormed (store : PendingStore) : Prop where
  usable : store.storeUsable = true
  ttlBound : store.ttlMs ≤ uint64Max
  unique : Slots.UniqueKeys PendingEntry.key store.slots

/-- The map a store represents. -/
def entry (store : PendingStore) (id : HandshakeId) : Option PendingEntry :=
  Slots.entryOf PendingEntry.key id store.slots

/-- The map of the second store is the map of the first, changed at one id. -/
structure Updated (store next : PendingStore) (id : HandshakeId)
    (value : Option PendingEntry) : Prop where
  wellFormed : next.WellFormed
  ttlMs : next.ttlMs = store.ttlMs
  entry : next.entry = update store.entry id value

/-- A freshly initialised store is a well-formed empty map. -/
theorem wellFormed_of_storeInitCommon {external : Bool} {capacity : ℕ} {ttlMs : UInt64}
    (hinit : storeInitCommon external capacity ttlMs = (.ok, store)) :
    store.WellFormed ∧ store.entry = fun _ => none := by
  unfold storeInitCommon at hinit
  split at hinit
  · simp at hinit
  rename_i hvalid
  push Not at hvalid
  obtain ⟨hcapacity, hlimit, httl⟩ := hvalid
  obtain ⟨-, rfl⟩ := Prod.mk.inj hinit
  have hblank : ∀ (index : ℕ) (found : PendingEntry),
      (List.replicate capacity PendingEntry.blank)[index]? = some found → found.key = none := by
    intro index found hat
    rw [List.eq_of_mem_replicate (List.mem_of_getElem? hat), PendingEntry.key_blank]
  refine ⟨⟨?_, ?_, ?_⟩, ?_⟩
  · have hpositive : 0 < ttlMs.toNat := by
      rw [Nat.pos_iff_ne_zero]
      intro hzero
      exact httl (UInt64.toNat_inj.mp hzero)
    simp only [storeUsable, List.length_replicate, Bool.and_eq_true, decide_eq_true_eq]
    exact ⟨⟨hcapacity, hlimit⟩, hpositive⟩
  · have hlt := ttlMs.toNat_lt
    simp only [uint64Max]
    omega
  · intro first second firstEntry secondEntry wanted hfirst hsecond hfirstKey hsecondKey
    rw [hblank first firstEntry hfirst] at hfirstKey
    cases hfirstKey
  · funext id
    apply Slots.entryOf_eq_none_iff.mpr
    intro index found hat
    rw [hblank index found hat]
    simp

theorem handshakeId_of_entry (hentry : store.entry id = some found) : found.handshakeId = id :=
  (PendingEntry.key_eq_some.mp (Slots.key_of_entryOf hentry)).2

theorem state_ne_free_of_entry (hentry : store.entry id = some found) : found.state ≠ .free :=
  (PendingEntry.key_eq_some.mp (Slots.key_of_entryOf hentry)).1

theorem storeUsable_of_same_shape (husable : store.storeUsable = true)
    (hlength : next.slots.length = store.slots.length) (hexternal : next.external = store.external)
    (httl : next.ttlMs = store.ttlMs) : next.storeUsable = true := by
  simpa [storeUsable, hlength, hexternal, httl] using husable

/-! ## Overwriting one slot -/

/-- Replacing the entry of an id by another entry of that id, or freeing it,
changes the map at that id only. -/
theorem updated_setSlot (hwf : store.WellFormed) (hat : store.slots[index]? = some found)
    (hkey : found.key = some id) (hvalue : value.key = some id ∨ value.key = none) :
    Updated store (store.setSlot index value) id
      (if value.key = some id then some value else none) := by
  have hunique : Slots.UniqueKeys PendingEntry.key (store.slots.set index value) := by
    apply hwf.unique.set
    intro wanted position other hnext hposition hother
    rcases hvalue with hvalue | hvalue
    · rw [hvalue] at hnext
      exact hwf.unique _ _ _ _ wanted hposition hat hother (hkey.trans hnext)
    rw [hvalue] at hnext
    cases hnext
  refine ⟨⟨?_, hwf.ttlBound, hunique⟩, rfl, ?_⟩
  · exact storeUsable_of_same_shape hwf.usable (by simp [setSlot]) rfl rfl
  funext wanted
  by_cases hwanted : wanted = id
  · subst hwanted
    rw [update_self]
    split_ifs with hnew
    · exact Slots.entryOf_set_self hunique (List.getElem?_eq_some_iff.mp hat).1 hnew
    exact Slots.entryOf_set_free hwf.unique hat hkey (hvalue.resolve_left hnew)
  · rw [update_of_ne hwanted]
    refine Slots.entryOf_set_of_ne hwf.unique hat ?_ ?_
    · rw [hkey]
      simpa using Ne.symm hwanted
    · rcases hvalue with hvalue | hvalue <;> rw [hvalue] <;> simp [Ne.symm hwanted]

/-- Filling a free slot under an absent id changes the map at that id only. -/
theorem updated_setSlot_free (hwf : store.WellFormed) (hat : store.slots[index]? = some found)
    (hfree : found.key = none) (habsent : store.entry id = none) (hvalue : value.key = some id) :
    Updated store (store.setSlot index value) id (some value) := by
  have hunique : Slots.UniqueKeys PendingEntry.key (store.slots.set index value) := by
    apply hwf.unique.set
    intro wanted position other hnext hposition hother
    rw [hvalue] at hnext
    cases hnext
    exact absurd hother (Slots.entryOf_eq_none_iff.mp habsent position other hposition)
  refine ⟨⟨?_, hwf.ttlBound, hunique⟩, rfl, ?_⟩
  · exact storeUsable_of_same_shape hwf.usable (by simp [setSlot]) rfl rfl
  funext wanted
  by_cases hwanted : wanted = id
  · subst hwanted
    rw [update_self]
    exact Slots.entryOf_set_self hunique (List.getElem?_eq_some_iff.mp hat).1 hvalue
  rw [update_of_ne hwanted]
  refine Slots.entryOf_set_of_ne hwf.unique hat ?_ ?_
  · rw [hfree]
    simp
  rw [hvalue]
  simpa using Ne.symm hwanted

/-! ## Sweeping -/

theorem wellFormed_sweep (hwf : store.WellFormed) (now : ℕ) : (store.sweep now).WellFormed := by
  unfold sweep
  rw [if_pos hwf.usable]
  refine ⟨?_, hwf.ttlBound, hwf.unique.clear PendingEntry.key_blank⟩
  exact storeUsable_of_same_shape hwf.usable (by simp [Slots.clear]) rfl rfl

@[simp]
theorem ttlMs_sweep : (store.sweep now).ttlMs = store.ttlMs := by
  unfold sweep
  split <;> rfl

theorem deadline_sweep (store : PendingStore) (sweepNow now : ℕ) :
    (store.sweep sweepNow).deadline now = store.deadline now := by
  simp [deadline]

section

variable (hwf : store.WellFormed)

include hwf

/-- A sweep drops exactly the entries whose deadline has come. -/
theorem entry_sweep (now : ℕ) (id : HandshakeId) :
    (store.sweep now).entry id =
      (store.entry id).filter fun found => decide (now < found.deadlineMs) := by
  unfold sweep entry
  rw [if_pos hwf.usable]
  rw [Slots.entryOf_clear hwf.unique PendingEntry.key_blank]
  cases hentry : Slots.entryOf PendingEntry.key id store.slots with
  | none => rfl
  | some found =>
    have hused : found.state ≠ .free := state_ne_free_of_entry (show store.entry id = _ from hentry)
    by_cases hlive : now < found.deadlineMs
    · rw [Option.filter_some_pos (by simp [hlive]), Option.filter_some_pos (by simpa using hlive)]
    rw [Option.filter_some_neg (by simpa [hused] using hlive),
      Option.filter_some_neg (by simpa using hlive)]

theorem entry_sweep_of_lt (hentry : store.entry id = some found)
    (hlive : now < found.deadlineMs) : (store.sweep now).entry id = some found := by
  rw [entry_sweep hwf, hentry, Option.filter_some_pos (by simpa using hlive)]

/-- Only an entry that has expired is gone after a sweep. -/
theorem deadline_le_of_swept (habsent : (store.sweep now).entry id = none)
    (hentry : store.entry id = some found) : found.deadlineMs ≤ now := by
  by_contra hlive
  rw [entry_sweep_of_lt hwf hentry (not_le.mp hlive)] at habsent
  cases habsent

theorem entry_of_entry_sweep (hentry : (store.sweep now).entry id = some found) :
    store.entry id = some found ∧ now < found.deadlineMs := by
  rw [entry_sweep hwf, Option.filter_eq_some_iff] at hentry
  simpa using hentry

/-! ## What each function does to the map -/

variable (store : PendingStore) (id : HandshakeId) (now : ℕ) in
/-- Every outcome of the common prologue of the functions on one entry. -/
inductive LocatedView : Located → Prop where
  | absent (habsent : store.entry id = none) : LocatedView (.refused .notFound store)
  | expired {found : PendingEntry} {next : PendingStore} (hentry : store.entry id = some found)
      (hexpired : found.deadlineMs ≤ now) (hfreed : Updated store next id none) :
      LocatedView (.refused .expired next)
  | consumed {found : PendingEntry} (hentry : store.entry id = some found)
      (hlive : now < found.deadlineMs) (hstate : found.state = .consumed) :
      LocatedView (.refused .consumed store)
  | authLimited {found : PendingEntry} (hentry : store.entry id = some found)
      (hlive : now < found.deadlineMs) (hstate : found.state = .authLimited) :
      LocatedView (.refused .authLimit store)
  | live {index : ℕ} {found : PendingEntry} (hentry : store.entry id = some found)
      (hlive : now < found.deadlineMs) (hstate : found.state = .active)
      (hreplaced : ∀ value : PendingEntry, value.key = some id →
        Updated store (store.setSlot index value) id (some value))
      (hfreed : Updated store (store.setSlot index .blank) id none) :
      LocatedView (.live index found)

theorem locate_view (id : HandshakeId) (now : ℕ) :
    LocatedView store id now (store.locate id now) := by
  unfold locate
  rw [if_pos hwf.usable]
  cases hslot : store.findSlot id with
  | none => exact .absent (Slots.slotOf_eq_none_iff.mp hslot)
  | some index =>
    obtain ⟨found, hat, hkey, hentry⟩ := Slots.slotOf_eq_some hslot
    have hgetD : store.slots.getD index .blank = found := by
      simp [List.getD, hat]
    have hreplaced : ∀ value : PendingEntry, value.key = some id →
        Updated store (store.setSlot index value) id (some value) := by
      intro value hvalue
      simpa [hvalue] using updated_setSlot hwf hat hkey (Or.inl hvalue)
    have hfreed : Updated store (store.setSlot index .blank) id none := by
      simpa using updated_setSlot hwf hat hkey (Or.inr PendingEntry.key_blank)
    simp only [hgetD]
    split_ifs with hexpired
    · exact .expired hentry (by simpa using hexpired) hfreed
    have hbefore : now < found.deadlineMs := by simpa using hexpired
    cases hstate : found.state with
    | free => exact absurd hstate (state_ne_free_of_entry hentry)
    | active => exact .live hentry hbefore hstate hreplaced hfreed
    | consumed => exact .consumed hentry hbefore hstate
    | authLimited => exact .authLimited hentry hbefore hstate

end

/-- The entry an insertion creates. -/
def fresh (store : PendingStore) (id : HandshakeId) (thClientAuth : Digest) (now : ℕ) :
    PendingEntry where
  state := .active
  handshakeId := id
  thClientAuth := thClientAuth
  deadlineMs := store.deadline now
  failureCount := 0

variable (store : PendingStore) (id : HandshakeId) (thClientAuth : Digest) (sweepNow now : ℕ) in
/-- Every outcome of an insertion into a usable store. -/
inductive InsertView : PendingStatus × PendingStore → Prop where
  | duplicate {found : PendingEntry} (hentry : store.entry id = some found)
      (hlive : sweepNow < found.deadlineMs) : InsertView (.invalidArg, store.sweep sweepNow)
  | full (habsent : (store.sweep sweepNow).entry id = none)
      (hfull : ∀ slot ∈ store.slots, slot.state ≠ .free ∧ sweepNow < slot.deadlineMs) :
      InsertView (.full, store.sweep sweepNow)
  | inserted {next : PendingStore} (habsent : (store.sweep sweepNow).entry id = none)
      (hupdated : Updated (store.sweep sweepNow) next id (some (store.fresh id thClientAuth now))) :
      InsertView (.ok, next)

/-- Without a free slot after a sweep, every slot is in use and in time. -/
private theorem inUse_of_findIdx?_sweep (hwf : store.WellFormed) {now : ℕ}
    (hnone : (store.sweep now).slots.findIdx? (fun entry => entry.state = .free) = none) :
    ∀ slot ∈ store.slots, slot.state ≠ .free ∧ now < slot.deadlineMs := by
  intro slot hslot
  simp only [List.findIdx?_eq_none_iff, sweep, hwf.usable, if_true, Slots.clear, List.mem_map,
    forall_exists_index, and_imp, forall_apply_eq_imp_iff₂, decide_eq_false_iff_not] at hnone
  have hkept := hnone slot hslot
  split at hkept
  · exact absurd rfl hkept
  rename_i hdrop
  exact ⟨hkept, by simpa [hkept] using hdrop⟩

theorem insert_view (hwf : store.WellFormed) (id : HandshakeId) (thClientAuth : Digest)
    (sweepNow now : ℕ) :
    InsertView store id thClientAuth sweepNow now (store.insert id thClientAuth sweepNow now) := by
  have hswept : (store.sweep sweepNow).WellFormed := wellFormed_sweep hwf sweepNow
  unfold insert
  rw [if_pos hwf.usable]
  dsimp only
  cases hslot : (store.sweep sweepNow).findSlot id with
  | some =>
    obtain ⟨found, -, -, hentry⟩ := Slots.slotOf_eq_some hslot
    obtain ⟨hbefore, hlive⟩ := entry_of_entry_sweep hwf hentry
    exact .duplicate hbefore hlive
  | none =>
    have habsent : (store.sweep sweepNow).entry id = none := Slots.slotOf_eq_none_iff.mp hslot
    cases hfree : (store.sweep sweepNow).slots.findIdx? fun entry => entry.state = .free with
    | none => exact .full habsent (inUse_of_findIdx?_sweep hwf hfree)
    | some index =>
      obtain ⟨hlt, hstate, -⟩ := List.findIdx?_eq_some_iff_getElem.mp hfree
      rw [deadline_sweep]
      have hblank : (store.sweep sweepNow).slots[index].key = none := by
        simpa [PendingEntry.key] using hstate
      have hkey : (store.fresh id thClientAuth now).key = some id := rfl
      exact .inserted habsent (updated_setSlot_free hswept (List.getElem?_eq_getElem hlt)
        hblank habsent hkey)

end PendingStore

end MldsaAuth.Protocol
