/-
# Devices and the history of their keys

The store is there to say which key speaks for a device. Here a registry is no more
than that: devices with their owner and status, and every key any device ever had with
what became of it. It changes in three ways: a device is enrolled with its first key, a
key takes the place of the active one, and a device is revoked with its key. Whatever
is reached by these, an active device has one active key and a revoked one has none, no
key serves twice, and what has ended does not come back.
-/

import MldsaAuth.Authd.Store.Tables
import Mathlib.Logic.Relation

namespace MldsaAuth.Authd

open Foundation Rows

/-- A device of a registry. -/
structure RegisteredDevice (Handle User : Type) where
  handle : Handle
  user : User
  status : DeviceStatus

/-- A key of a registry, with the label it is filed under. -/
structure RegisteredKey (Handle Key Label : Type) where
  keyId : ℕ
  handle : Handle
  key : Key
  label : Label
  status : KeyStatus

/-- Devices and keys in the order in which they came. -/
structure Registry (Handle User Key Label : Type) where
  devices : List (RegisteredDevice Handle User)
  keys : List (RegisteredKey Handle Key Label)

namespace Registry

variable {Handle User Key Label : Type}

/-- Every device and key is still there, with the same owner, and has changed its status at
most from active to something else. -/
structure Descends (before after : Registry Handle User Key Label) : Prop where
  devices : ∀ device ∈ before.devices, ∃ later ∈ after.devices,
    later.handle = device.handle ∧ later.user = device.user ∧
      (later.status = device.status ∨ device.status = .active)
  keys : ∀ entry ∈ before.keys, ∃ later ∈ after.keys,
    later.keyId = entry.keyId ∧ later.handle = entry.handle ∧ later.key = entry.key ∧
      (later.status = entry.status ∨ entry.status = .active)

section Order

variable {before after : Registry Handle User Key Label}

theorem Descends.refl (registry : Registry Handle User Key Label) : Descends registry registry where
  devices := fun device hdevice => ⟨device, hdevice, rfl, rfl, .inl rfl⟩
  keys := fun entry hentry => ⟨entry, hentry, rfl, rfl, rfl, .inl rfl⟩

/-- A status that may only leave one value does so at most once. -/
theorem status_trans {Status : Type} {first second third active : Status}
    (hfirst : second = first ∨ first = active) (hsecond : third = second ∨ second = active) :
    third = first ∨ first = active := by
  rcases hfirst with rfl | hfirst
  · exact hsecond
  · exact .inr hfirst

theorem Descends.trans {middle : Registry Handle User Key Label} (hfirst : Descends before middle)
    (hsecond : Descends middle after) : Descends before after := by
  constructor
  · intro device hdevice
    obtain ⟨reached, hreached, hhandle, huser, hstatus⟩ := hfirst.devices device hdevice
    obtain ⟨later, hlater, hhandle', huser', hstatus'⟩ := hsecond.devices reached hreached
    exact ⟨later, hlater, hhandle'.trans hhandle, huser'.trans huser, status_trans hstatus hstatus'⟩
  · intro entry hentry
    obtain ⟨reached, hreached, hid, hhandle, hkey, hstatus⟩ := hfirst.keys entry hentry
    obtain ⟨later, hlater, hid', hhandle', hkey', hstatus'⟩ := hsecond.keys reached hreached
    exact ⟨later, hlater, hid'.trans hid, hhandle'.trans hhandle, hkey'.trans hkey,
      status_trans hstatus hstatus'⟩

end Order

variable [DecidableEq Handle]

/-- Whether a key is an active one of a handle. -/
def serves (handle : Handle) (entry : RegisteredKey Handle Key Label) : Bool :=
  decide (entry.handle = handle) && decide (entry.status = .active)

variable {handle : Handle} {entry : RegisteredKey Handle Key Label}

theorem serves_eq_true_iff :
    serves handle entry = true ↔ entry.handle = handle ∧ entry.status = .active := by
  simp [serves]

variable (registry : Registry Handle User Key Label)

/-- The number of active keys of a handle. -/
def activeKeys (handle : Handle) : ℕ :=
  registry.keys.countP (serves handle)

/-- Add a device with its first key. -/
def enroll (handle : Handle) (user : User)
    (keyId : ℕ) (key : Key) (label : Label) : Registry Handle User Key Label where
  devices := registry.devices ++ [⟨handle, user, .active⟩]
  keys := registry.keys ++ [⟨keyId, handle, key, label, .active⟩]

/-- Supersede the key with the given id by a new one. -/
def rotate (handle : Handle) (current keyId : ℕ)
    (key : Key) (label : Label) : Registry Handle User Key Label where
  devices := registry.devices
  keys := Rows.updateWhere (fun entry => entry.keyId = current)
    (fun entry => { entry with status := .superseded }) registry.keys ++
      [⟨keyId, handle, key, label, .active⟩]

/-- Revoke a device and its active key. -/
def revoke (handle : Handle) : Registry Handle User Key Label where
  devices := Rows.updateWhere (fun device => device.handle = handle)
    (fun device => { device with status := .revoked }) registry.devices
  keys := Rows.updateWhere (serves handle) (fun entry => { entry with status := .revoked })
    registry.keys

/-- One change. The keys that may come are those of a set, filed under their labels. -/
inductive Step (known : Set Key) (labelOf : Key → Label)
    (registry : Registry Handle User Key Label) : Registry Handle User Key Label → Prop
  | enroll (handle : Handle) (user : User) (keyId : ℕ) (key : Key)
      (hhandle : ∀ device ∈ registry.devices, device.handle ≠ handle)
      (hid : ∀ entry ∈ registry.keys, entry.keyId ≠ keyId)
      (hkey : ∀ entry ∈ registry.keys, entry.key ≠ key) (hknown : key ∈ known) :
      Step known labelOf registry (registry.enroll handle user keyId key (labelOf key))
  | rotate (handle : Handle) (current : RegisteredKey Handle Key Label) (keyId : ℕ) (key : Key)
      (hcurrent : current ∈ registry.keys) (hserves : serves handle current = true)
      (hid : ∀ entry ∈ registry.keys, entry.keyId ≠ keyId)
      (hkey : ∀ entry ∈ registry.keys, entry.key ≠ key) (hknown : key ∈ known) :
      Step known labelOf registry (registry.rotate handle current.keyId keyId key (labelOf key))
  | revoke (handle : Handle) : Step known labelOf registry (registry.revoke handle)

/-- What holds of a registry at all times. -/
structure Sound (known : Set Key) (labelOf : Key → Label)
    (registry : Registry Handle User Key Label) : Prop where
  handles : (registry.devices.map RegisteredDevice.handle).Nodup
  ids : (registry.keys.map RegisteredKey.keyId).Nodup
  keys : (registry.keys.map RegisteredKey.key).Nodup
  owned : ∀ entry ∈ registry.keys, ∃ device ∈ registry.devices, device.handle = entry.handle
  counted : ∀ device ∈ registry.devices,
    registry.activeKeys device.handle = if device.status = .active then 1 else 0
  filed : ∀ entry ∈ registry.keys, entry.key ∈ known ∧ entry.label = labelOf entry.key

variable {known : Set Key} {labelOf : Key → Label}
  {before after registry : Registry Handle User Key Label}

/-! ## Enrolling -/

/-- A handle without a device has no key. -/
theorem Sound.activeKeys_eq_zero (hsound : Sound known labelOf registry)
    (hhandle : ∀ device ∈ registry.devices, device.handle ≠ handle) :
    registry.activeKeys handle = 0 := by
  refine List.countP_eq_zero.mpr fun entry hentry hserves => ?_
  obtain ⟨device, hdevice, hdeviceHandle⟩ := hsound.owned entry hentry
  exact hhandle device hdevice (hdeviceHandle.trans (serves_eq_true_iff.mp hserves).1)

theorem Sound.activeKeys_le (hsound : Sound known labelOf registry) (handle : Handle) :
    registry.activeKeys handle ≤ 1 := by
  by_cases hdevice : ∃ device ∈ registry.devices, device.handle = handle
  · obtain ⟨device, hdevice, rfl⟩ := hdevice
    rw [hsound.counted device hdevice]
    split <;> decide
  rw [hsound.activeKeys_eq_zero fun device hmem hsame => hdevice ⟨device, hmem, hsame⟩]
  exact Nat.zero_le 1

theorem serves_active (handle owner : Handle) (keyId : ℕ) (key : Key) (label : Label) :
    serves handle (⟨keyId, owner, key, label, .active⟩ : RegisteredKey Handle Key Label) =
      decide (owner = handle) := by
  simp [serves]

theorem activeKeys_enroll (registry : Registry Handle User Key Label) (handle owner : Handle)
    (user : User) (keyId : ℕ) (key : Key) (label : Label) :
    (registry.enroll owner user keyId key label).activeKeys handle =
      registry.activeKeys handle + if owner = handle then 1 else 0 := by
  unfold activeKeys enroll
  rw [List.countP_append, List.countP_singleton, serves_active]
  simp only [decide_eq_true_eq]

section

variable (hsound : Sound known labelOf registry)

include hsound

variable {keyId : ℕ} {key : Key}

theorem Sound.enroll {user : User} (hhandle : ∀ device ∈ registry.devices, device.handle ≠ handle)
    (hid : ∀ entry ∈ registry.keys, entry.keyId ≠ keyId)
    (hkey : ∀ entry ∈ registry.keys, entry.key ≠ key) (hknown : key ∈ known) :
    Sound known labelOf (registry.enroll handle user keyId key (labelOf key)) where
  handles := nodup_append hsound.handles hhandle
  ids := nodup_append hsound.ids hid
  keys := nodup_append hsound.keys hkey
  owned := by
    intro entry hentry
    rcases List.mem_append.mp hentry with hold | hnew
    · obtain ⟨device, hdevice, howner⟩ := hsound.owned entry hold
      exact ⟨device, List.mem_append_left _ hdevice, howner⟩
    obtain rfl := List.mem_singleton.mp hnew
    exact ⟨_, List.mem_append_right _ (List.mem_singleton.mpr rfl), rfl⟩
  counted := by
    intro device hdevice
    rw [activeKeys_enroll]
    rcases List.mem_append.mp hdevice with hold | hnew
    · rw [if_neg (hhandle device hold).symm, Nat.add_zero]
      exact hsound.counted device hold
    obtain rfl := List.mem_singleton.mp hnew
    rw [if_pos rfl, hsound.activeKeys_eq_zero hhandle]
    rfl
  filed := by
    intro entry hentry
    rcases List.mem_append.mp hentry with hold | hnew
    · exact hsound.filed entry hold
    obtain rfl := List.mem_singleton.mp hnew
    exact ⟨hknown, rfl⟩

/-! ## Rotating -/

variable {current : RegisteredKey Handle Key Label}

section

variable (hcurrent : current ∈ registry.keys)

include hcurrent

/-- An entry that serves a handle is the handle's only active one. -/
theorem Sound.activeKeys_eq_one
    (hserves : serves handle current = true) : registry.activeKeys handle = 1 := by
  have hpos : 0 < registry.activeKeys handle := List.countP_pos_iff.mpr ⟨current, hcurrent, hserves⟩
  have hle := hsound.activeKeys_le handle
  omega

theorem activeKeys_rotate {owner : Handle} (hserves : serves owner current = true) (handle : Handle)
    (keyId : ℕ) (key : Key) (label : Label) :
    (registry.rotate owner current.keyId keyId key label).activeKeys handle =
      registry.activeKeys handle := by
  unfold activeKeys rotate
  rw [List.countP_append, List.countP_singleton, serves_active]
  by_cases howner : owner = handle
  · -- the superseded key was the only active one, and the new one takes its place
    subst howner
    have hlt : (updateWhere (fun entry => decide (entry.keyId = current.keyId))
        (fun entry => { entry with status := .superseded }) registry.keys).countP (serves owner) <
        registry.keys.countP (serves owner) := by
      refine countP_updateWhere_lt ?_ ⟨current, hcurrent, decide_eq_true rfl, hserves⟩
      exact fun _ _ => by simp [serves]
    have hone := hsound.activeKeys_eq_one hcurrent hserves
    unfold activeKeys at hone
    rw [decide_eq_true rfl, if_pos rfl]
    omega
  · rw [decide_eq_false howner, if_neg Bool.false_ne_true, Nat.add_zero]
    refine countP_updateWhere_of_same fun entry hentry hsame => ?_
    have hentry : entry = current := eq_of_key hsound.ids hentry hcurrent (of_decide_eq_true hsame)
    subst hentry
    simp [serves, (serves_eq_true_iff.mp hserves).1, howner]

theorem Sound.rotate (hserves : serves handle current = true)
    (hid : ∀ entry ∈ registry.keys, entry.keyId ≠ keyId)
    (hkey : ∀ entry ∈ registry.keys, entry.key ≠ key) (hknown : key ∈ known) :
    Sound known labelOf (registry.rotate handle current.keyId keyId key (labelOf key)) where
  handles := hsound.handles
  ids := by
    refine nodup_append (nodup_updateWhere hsound.ids fun _ => rfl) ?_
    exact forall_updateWhere (fun entry hentry _ => hid entry hentry)
      fun entry hentry _ => hid entry hentry
  keys := by
    refine nodup_append (nodup_updateWhere hsound.keys fun _ => rfl) ?_
    exact forall_updateWhere (fun entry hentry _ => hkey entry hentry)
      fun entry hentry _ => hkey entry hentry
  owned := by
    refine List.forall_mem_append.mpr ⟨forall_updateWhere ?_ ?_, List.forall_mem_singleton.mpr ?_⟩
    · exact fun entry hentry _ => hsound.owned entry hentry
    · exact fun entry hentry _ => hsound.owned entry hentry
    · obtain ⟨device, hdevice, howner⟩ := hsound.owned current hcurrent
      exact ⟨device, hdevice, howner.trans (serves_eq_true_iff.mp hserves).1⟩
  counted := by
    intro device hdevice
    rw [activeKeys_rotate hsound hcurrent hserves]
    exact hsound.counted device hdevice
  filed := by
    refine List.forall_mem_append.mpr
      ⟨forall_updateWhere ?_ ?_, List.forall_mem_singleton.mpr ⟨hknown, rfl⟩⟩
    · exact fun entry hentry _ => hsound.filed entry hentry
    · exact fun entry hentry _ => hsound.filed entry hentry

end

end

/-! ## Revoking -/

theorem activeKeys_revoke (registry : Registry Handle User Key Label) (owner handle : Handle) :
    (registry.revoke owner).activeKeys handle =
      if handle = owner then 0 else registry.activeKeys handle := by
  unfold activeKeys revoke
  dsimp only
  split_ifs with hsame
  · subst hsame
    refine List.countP_eq_zero.mpr (forall_updateWhere ?_ ?_)
    · exact fun entry _ hserves => by rw [hserves]; exact Bool.false_ne_true
    · exact fun entry _ _ => by simp [serves]
  · refine countP_updateWhere_of_same fun entry _ hserves => ?_
    simp [serves, (serves_eq_true_iff.mp hserves).1, Ne.symm hsame]

theorem Sound.revoke (hsound : Sound known labelOf registry) (handle : Handle) :
    Sound known labelOf (registry.revoke handle) where
  handles := nodup_updateWhere hsound.handles fun _ => rfl
  ids := nodup_updateWhere hsound.ids fun _ => rfl
  keys := nodup_updateWhere hsound.keys fun _ => rfl
  owned := by
    have hkept : ∀ entry ∈ registry.keys,
        ∃ device ∈ (registry.revoke handle).devices, device.handle = entry.handle := by
      intro entry hentry
      obtain ⟨device, hdevice, howner⟩ := hsound.owned entry hentry
      refine ⟨_, List.mem_map_of_mem hdevice, ?_⟩
      split <;> exact howner
    exact forall_updateWhere (fun entry hentry _ => hkept entry hentry)
      fun entry hentry _ => hkept entry hentry
  counted := by
    refine forall_updateWhere ?_ ?_
    · intro device hdevice hother
      rw [activeKeys_revoke, if_neg (of_decide_eq_false hother)]
      exact hsound.counted device hdevice
    intro device _ hsame
    rw [activeKeys_revoke, if_pos (of_decide_eq_true hsame)]
    rfl
  filed := forall_updateWhere (fun entry hentry _ => hsound.filed entry hentry)
    fun entry hentry _ => hsound.filed entry hentry

/-! ## Runs -/

/-- Every change keeps the registry sound. -/
theorem Step.sound (hstep : Step known labelOf before after)
    (hsound : Sound known labelOf before) : Sound known labelOf after := by
  cases hstep with
  | enroll handle user keyId key hhandle hid hkey hknown =>
    exact hsound.enroll hhandle hid hkey hknown
  | rotate handle current keyId key hcurrent hserves hid hkey hknown =>
    exact hsound.rotate hcurrent hserves hid hkey hknown
  | revoke handle => exact hsound.revoke handle

/-- Every change keeps what there was and does not bring back what has ended. -/
theorem Step.descends (hstep : Step known labelOf before after)
    (hsound : Sound known labelOf before) : Descends before after := by
  cases hstep with
  | enroll =>
    exact ⟨fun device hdevice => ⟨device, List.mem_append_left _ hdevice, rfl, rfl, .inl rfl⟩,
      fun entry hentry => ⟨entry, List.mem_append_left _ hentry, rfl, rfl, rfl, .inl rfl⟩⟩
  | rotate handle current keyId key hcurrent hserves =>
    refine ⟨fun device hdevice => ⟨device, hdevice, rfl, rfl, .inl rfl⟩, fun entry hentry => ?_⟩
    refine ⟨_, List.mem_append_left _ (List.mem_map_of_mem hentry), ?_⟩
    split_ifs with hsame
    · have hentry : entry = current :=
        eq_of_key hsound.ids hentry hcurrent (of_decide_eq_true hsame)
      subst hentry
      exact ⟨rfl, rfl, rfl, .inr (serves_eq_true_iff.mp hserves).2⟩
    · exact ⟨rfl, rfl, rfl, .inl rfl⟩
  | revoke handle =>
    constructor
    · intro device hdevice
      refine ⟨_, List.mem_map_of_mem hdevice, ?_⟩
      split
      · refine ⟨rfl, rfl, ?_⟩
        cases hstatus : device.status with
        | active => exact .inr rfl
        | revoked => exact .inl rfl
      · exact ⟨rfl, rfl, .inl rfl⟩
    · intro entry hentry
      refine ⟨_, List.mem_map_of_mem hentry, ?_⟩
      split_ifs with hserves
      · exact ⟨rfl, rfl, rfl, .inr (serves_eq_true_iff.mp hserves).2⟩
      · exact ⟨rfl, rfl, rfl, .inl rfl⟩

/-- Any number of changes. -/
abbrev Steps (known : Set Key) (labelOf : Key → Label)
    (before after : Registry Handle User Key Label) : Prop :=
  Relation.ReflTransGen (Step known labelOf) before after

theorem Steps.sound (hsteps : Steps known labelOf before after)
    (hsound : Sound known labelOf before) : Sound known labelOf after := by
  induction hsteps with
  | refl => exact hsound
  | tail _ hstep ih => exact hstep.sound ih

theorem Steps.descends (hsteps : Steps known labelOf before after)
    (hsound : Sound known labelOf before) : Descends before after := by
  induction hsteps with
  | refl => exact .refl _
  | tail hsteps hstep ih => exact ih.trans (hstep.descends (Steps.sound hsteps hsound))

/-! ## Chains -/

variable (registry)

/-- The keys of a handle in the order in which they came. -/
def history (handle : Handle) : List (RegisteredKey Handle Key Label) :=
  registry.keys.filter fun entry => entry.handle = handle

/-- The keys of each handle form a chain: all but the last were superseded. -/
def Linked : Prop :=
  ∀ handle, ∀ entry ∈ (registry.history handle).dropLast, entry.status = .superseded

variable {registry}

theorem mem_history :
    entry ∈ registry.history handle ↔ entry ∈ registry.keys ∧ entry.handle = handle := by
  simp [history]

theorem history_concat {keys : List (RegisteredKey Handle Key Label)}
    {devices : List (RegisteredDevice Handle User)} :
    (⟨devices, keys ++ [entry]⟩ : Registry Handle User Key Label).history handle =
      (⟨devices, keys⟩ : Registry Handle User Key Label).history handle ++
        if entry.handle = handle then [entry] else [] := by
  unfold history
  rw [List.filter_append, List.filter_singleton]
  simp only [Bool.cond_decide]

variable (registry)

theorem history_enroll (handle owner : Handle)
    (user : User) (keyId : ℕ) (key : Key) (label : Label) :
    (registry.enroll owner user keyId key label).history handle =
      registry.history handle ++
        if owner = handle then [⟨keyId, owner, key, label, .active⟩] else [] :=
  history_concat

theorem history_rotate (handle owner : Handle) (current keyId : ℕ) (key : Key) (label : Label) :
    (registry.rotate owner current keyId key label).history handle =
      updateWhere (fun entry => entry.keyId = current)
        (fun entry => { entry with status := .superseded }) (registry.history handle) ++
        if owner = handle then [⟨keyId, owner, key, label, .active⟩] else [] := by
  refine history_concat.trans ?_
  congr 1
  exact filter_updateWhere fun _ => rfl

theorem history_revoke (handle owner : Handle) :
    (registry.revoke owner).history handle =
      updateWhere (serves owner) (fun entry => { entry with status := .revoked })
        (registry.history handle) :=
  filter_updateWhere fun _ => rfl

variable {registry}

/-- A handle without a device has no history. -/
theorem Sound.history_eq_nil (hsound : Sound known labelOf registry)
    (hhandle : ∀ device ∈ registry.devices, device.handle ≠ handle) :
    registry.history handle = [] := by
  refine List.filter_eq_nil_iff.mpr fun entry hentry hsame => ?_
  obtain ⟨device, hdevice, hdeviceHandle⟩ := hsound.owned entry hentry
  exact hhandle device hdevice (hdeviceHandle.trans (of_decide_eq_true hsame))

variable {current : RegisteredKey Handle Key Label}

/-- The active key of a handle is the last one. -/
theorem Linked.history_eq (hlinked : registry.Linked) (hcurrent : current ∈ registry.keys)
    (hserves : serves handle current = true) :
    ∃ earlier, registry.history handle = earlier ++ [current] ∧
      ∀ entry ∈ earlier, entry.status = .superseded := by
  obtain ⟨hhandle, hactive⟩ := serves_eq_true_iff.mp hserves
  have hmem : current ∈ registry.history handle := mem_history.mpr ⟨hcurrent, hhandle⟩
  have hsplit := List.dropLast_append_getLast (List.ne_nil_of_mem hmem)
  refine ⟨_, ?_, hlinked handle⟩
  rw [← hsplit] at hmem
  rcases List.mem_append.mp hmem with hearlier | hlast
  · have hsuperseded := hlinked handle current hearlier
    rw [hactive] at hsuperseded
    cases hsuperseded
  rw [List.mem_singleton.mp hlast]
  exact hsplit.symm

theorem Step.linked (hstep : Step known labelOf before after)
    (hsound : Sound known labelOf before) (hlinked : before.Linked) : after.Linked := by
  intro handle
  cases hstep with
  | enroll owner user keyId key hhandle =>
    rw [history_enroll]
    split_ifs with hsame
    · subst hsame
      rw [hsound.history_eq_nil hhandle]
      exact fun _ hentry => absurd hentry List.not_mem_nil
    · rw [List.append_nil]
      exact hlinked handle
  | rotate owner current keyId key hcurrent hserves =>
    rw [history_rotate]
    split
    · -- the superseded key was the last of the chain, and another one follows it now
      rename_i hsame
      subst hsame
      obtain ⟨earlier, hhistory, hearlier⟩ := hlinked.history_eq hcurrent hserves
      rw [List.dropLast_concat, hhistory]
      refine forall_updateWhere (fun entry hentry hother => ?_) fun _ _ _ => rfl
      rcases List.mem_append.mp hentry with hold | hlast
      · exact hearlier entry hold
      rw [List.mem_singleton.mp hlast] at hother
      simp at hother
    · rw [List.append_nil]
      unfold updateWhere
      rw [← List.map_dropLast]
      refine forall_updateWhere (fun entry hentry _ => ?_) fun _ _ _ => rfl
      exact hlinked handle entry hentry
  | revoke =>
    rw [history_revoke]
    unfold updateWhere
    rw [← List.map_dropLast]
    refine forall_updateWhere (fun entry hentry _ => hlinked handle entry hentry) ?_
    intro entry hentry hserves
    have hactive := (serves_eq_true_iff.mp hserves).2
    rw [hlinked handle entry hentry] at hactive
    cases hactive

theorem Steps.linked (hsteps : Steps known labelOf before after)
    (hsound : Sound known labelOf before) (hlinked : before.Linked) : after.Linked := by
  induction hsteps with
  | refl => exact hlinked
  | tail hsteps hstep ih => exact hstep.linked (Steps.sound hsteps hsound) ih

/-- The replacements of a handle's keys: each key with the one that came after it. -/
def replacements (registry : Registry Handle User Key Label) (handle : Handle) : List (Key × Key) :=
  Rows.links ((registry.history handle).map RegisteredKey.key)

theorem replacements_enroll (hsound : Sound known labelOf registry) {owner : Handle}
    (hhandle : ∀ device ∈ registry.devices, device.handle ≠ owner) (user : User) (keyId : ℕ)
    (key : Key) (label : Label) (handle : Handle) :
    (registry.enroll owner user keyId key label).replacements handle =
      registry.replacements handle := by
  unfold replacements
  rw [history_enroll]
  split_ifs with hsame
  · subst hsame
    rw [hsound.history_eq_nil hhandle]
    rfl
  · rw [List.append_nil]

theorem replacements_revoke (registry : Registry Handle User Key Label) (owner handle : Handle) :
    (registry.revoke owner).replacements handle = registry.replacements handle := by
  unfold replacements
  rw [history_revoke]
  exact congrArg links (map_updateWhere fun _ => rfl)

/-- A rotation adds a replacement to the chain of its handle. -/
theorem replacements_rotate (hlinked : registry.Linked) {owner : Handle}
    (hcurrent : current ∈ registry.keys) (hserves : serves owner current = true) (keyId : ℕ)
    (key : Key) (label : Label) (handle : Handle) :
    (registry.rotate owner current.keyId keyId key label).replacements handle =
      registry.replacements handle ++ if owner = handle then [(current.key, key)] else [] := by
  have hkept : ∀ entry : RegisteredKey Handle Key Label,
      RegisteredKey.key { entry with status := .superseded } = entry.key := fun _ => rfl
  unfold replacements
  rw [history_rotate, List.map_append, map_updateWhere hkept]
  split_ifs with hsame
  · subst hsame
    obtain ⟨earlier, hhistory, -⟩ := hlinked.history_eq hcurrent hserves
    rw [List.map_singleton, links_concat, hhistory]
    simp
  · rw [List.map_nil, List.append_nil, List.append_nil]

end Registry

end MldsaAuth.Authd
