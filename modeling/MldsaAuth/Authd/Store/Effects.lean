/-
# What store operations leave alone

Whatever an operation does, and wherever it fails, devices and users stay, a device
keeps its user, a revoked device stays revoked, and an active key, device and user
stay what they are unless the operation is there to change them. One relation says
this for all operations; its parameter says which lookups an operation may end and
which users it may enable. It holds for each statement, and from there for programs
by composition. The key ids, handles and user ids of the tables are primary keys;
that they have no duplicates is part of what is kept.
-/

import MldsaAuth.Authd.Store.Specs

namespace MldsaAuth.Authd

open Foundation Crypto Rows

variable {row : DeviceRow} {before after tables : Tables}

namespace Tables

/-- The primary keys of the account tables have no duplicates. -/
structure WellFormed (tables : Tables) : Prop where
  users : (tables.users.map UserRow.userId).Nodup
  devices : (tables.devices.map DeviceRow.handle).Nodup
  keys : (tables.deviceKeys.map KeyRow.keyId).Nodup

instance (tables : Tables) : Decidable tables.WellFormed :=
  decidable_of_iff ((tables.users.map UserRow.userId).Nodup ∧
      (tables.devices.map DeviceRow.handle).Nodup ∧ (tables.deviceKeys.map KeyRow.keyId).Nodup)
    ⟨fun h => ⟨h.1, h.2.1, h.2.2⟩, fun h => ⟨h.users, h.devices, h.keys⟩⟩

/-- The device of a handle is there and revoked. -/
def Revoked (tables : Tables) (handle : Bytes) : Prop :=
  ∃ row, tables.deviceOf handle = some row ∧ row.status = .revoked

/-- A user is there and disabled. -/
def Disabled (tables : Tables) (userId : Bytes) : Prop :=
  ∃ row, tables.userOf userId = some row ∧ row.status = .disabled

/-- A handle is enrolled for a user. -/
def Owns (tables : Tables) (userId handle : Bytes) : Prop :=
  ∃ row, tables.deviceOf handle = some row ∧ row.userId = userId

variable {handle userId : Bytes} {key : ActiveKey}

theorem userId_of_userOf {row : UserRow} (hrow : tables.userOf userId = some row) :
    row.userId = userId := by
  simpa using List.find?_some hrow

theorem handle_of_deviceOf (hrow : tables.deviceOf handle = some row) : row.handle = handle := by
  simpa using List.find?_some hrow

theorem handle_of_activeKeyOf {row : KeyRow} (hrow : tables.activeKeyOf handle = some row) :
    row.handle = handle ∧ row.status = .active := by
  simpa using List.find?_some hrow

/-- An active user of a handle: the device and the user are both there and active. -/
theorem activeUserOf_eq_some_iff {user : UserRow} :
    tables.activeUserOf handle = some user ↔
      ∃ device, tables.deviceOf handle = some device ∧ device.status = .active ∧
        tables.userOf device.userId = some user ∧ user.status = .active := by
  unfold activeUserOf
  constructor
  · intro hfound
    obtain ⟨device, hdevice, hrest⟩ := Option.bind_eq_some_iff.mp hfound
    split at hrest
    · rename_i hactive
      obtain ⟨huser, hstatus⟩ := Option.filter_eq_some_iff.mp hrest
      exact ⟨device, hdevice, hactive, huser, by simpa using hstatus⟩
    · cases hrest
  · rintro ⟨device, hdevice, hactive, huser, hstatus⟩
    rw [hdevice, Option.bind_some, if_pos hactive, huser]
    simp [hstatus]

theorem lookupActive_eq_some_iff :
    tables.lookupActive handle = some key ↔
      ∃ row user, tables.activeKeyOf handle = some row ∧
        tables.activeUserOf handle = some user ∧
        key = { pk := row.pk, userId := user.userId, role := user.role } := by
  unfold lookupActive
  constructor
  · intro hfound
    obtain ⟨row, hrow, hrest⟩ := Option.bind_eq_some_iff.mp hfound
    obtain ⟨user, huser, hkey⟩ := Option.map_eq_some_iff.mp hrest
    exact ⟨row, user, hrow, huser, hkey.symm⟩
  · rintro ⟨row, user, hrow, huser, rfl⟩
    rw [hrow, Option.bind_some, huser, Option.map_some]

/-- A lookup that finds something finds the user the handle is enrolled for. -/
theorem owns_of_lookupActive (hlookup : tables.lookupActive handle = some key) :
    tables.Owns key.userId handle := by
  obtain ⟨row, user, -, huser, rfl⟩ := lookupActive_eq_some_iff.mp hlookup
  obtain ⟨device, hdevice, -, hrow, -⟩ := activeUserOf_eq_some_iff.mp huser
  exact ⟨device, hdevice, (userId_of_userOf hrow).symm⟩

theorem not_revoked_of_active (hactive : (tables.activeUserOf handle).isSome = true) :
    ¬ tables.Revoked handle := by
  rintro ⟨row, hrow, hrevoked⟩
  obtain ⟨user, huser⟩ := Option.isSome_iff_exists.mp hactive
  obtain ⟨device, hdevice, hstatus, -⟩ := activeUserOf_eq_some_iff.mp huser
  rw [hdevice] at hrow
  obtain rfl := Option.some.inj hrow
  rw [hstatus] at hrevoked
  cases hrevoked

theorem not_disabled_of_active (hactive : (tables.activeUserOf handle).isSome = true)
    (howns : tables.Owns userId handle) : ¬ tables.Disabled userId := by
  rintro ⟨row, hrow, hdisabled⟩
  obtain ⟨owned, howned, rfl⟩ := howns
  obtain ⟨user, huser⟩ := Option.isSome_iff_exists.mp hactive
  obtain ⟨device, hdevice, -, huserRow, hstatus⟩ := activeUserOf_eq_some_iff.mp huser
  rw [hdevice] at howned
  obtain rfl := Option.some.inj howned
  rw [huserRow] at hrow
  obtain rfl := Option.some.inj hrow
  rw [hstatus] at hdisabled
  cases hdisabled

theorem isSome_activeUserOf_of_lookupActive (hlookup : tables.lookupActive handle = some key) :
    (tables.activeUserOf handle).isSome = true := by
  obtain ⟨row, user, -, huser, -⟩ := lookupActive_eq_some_iff.mp hlookup
  rw [huser]
  rfl

end Tables

/-! ## The relation -/

/-- What an operation is there to change: the lookups it spares, and the users it may
enable. -/
structure StoreChange where
  spares : Bytes → Tables.ActiveKey → Prop
  enables : Bytes → Prop

namespace StoreChange

/-- No lookup ends and no user is enabled. -/
def harmless : StoreChange where
  spares := fun _ _ => True
  enables := fun _ => False

/-- Only the lookup of one handle may end. -/
def ofHandle (handle : Bytes) : StoreChange where
  spares := fun other _ => other ≠ handle
  enables := fun _ => False

/-- Every lookup but that of one handle may end. -/
def sparing (handle : Bytes) : StoreChange where
  spares := fun other _ => other = handle
  enables := fun _ => False

/-- Only lookups that find one user may end. -/
def ofUser (userId : Bytes) : StoreChange where
  spares := fun _ key => key.userId ≠ userId
  enables := fun _ => False

/-- One user may be enabled. -/
def enabling (userId : Bytes) : StoreChange where
  spares := fun _ _ => True
  enables := fun other => other = userId

end StoreChange

variable {pk newPk : SigPublicKey} {reason hsid : Option Bytes} {«by» event : Bytes}
  {current : KeyRow} {ticketHash : StoreHash} {codeId : ℕ} {dropTokens : Bool}
  {rotation : Rotation} {middle : Tables} {pkFp : StoreHash} {disabledAt : Option ℤ}
  {role : StoreRole} {enrollment : Enrollment} {guard : ℕ} {expiresAt : ℤ}

namespace Tables

variable {change : StoreChange}

/-- What stays when an operation makes a change. -/
structure Keeps (change : StoreChange) (before after : Tables) : Prop where
  device : ∀ handle row, before.deviceOf handle = some row →
    ∃ next, after.deviceOf handle = some next ∧ next.userId = row.userId ∧
      (row.status = .revoked → next.status = .revoked)
  user : ∀ userId row, before.userOf userId = some row →
    ∃ next, after.userOf userId = some next ∧ next.role = row.role ∧
      (row.status = .disabled → ¬ change.enables userId → next.status = .disabled)
  active : ∀ handle key, before.lookupActive handle = some key → change.spares handle key →
    after.lookupActive handle = some key

/-- The change is within what the operation is there for, and the primary keys stay unique. -/
def Evolves (change : StoreChange) (before after : Tables) : Prop :=
  before.WellFormed → after.WellFormed ∧ Keeps change before after

theorem Keeps.refl (tables : Tables) : Keeps change tables tables where
  device := fun _ row hrow => ⟨row, hrow, rfl, id⟩
  user := fun _ row hrow => ⟨row, hrow, rfl, fun hdisabled _ => hdisabled⟩
  active := fun _ _ hlookup _ => hlookup

theorem Keeps.trans (hfirst : Keeps change before middle) (hsecond : Keeps change middle after) :
    Keeps change before after where
  device := by
    intro handle row hrow
    obtain ⟨next, hnext, huser, hrevoked⟩ := hfirst.device handle row hrow
    obtain ⟨last, hlast, huserLast, hrevokedLast⟩ := hsecond.device handle next hnext
    exact ⟨last, hlast, huserLast.trans huser, hrevokedLast ∘ hrevoked⟩
  user := by
    intro userId row hrow
    obtain ⟨next, hnext, hrole, hdisabled⟩ := hfirst.user userId row hrow
    obtain ⟨last, hlast, hroleLast, hdisabledLast⟩ := hsecond.user userId next hnext
    exact ⟨last, hlast, hroleLast.trans hrole, fun hrowDisabled henables =>
      hdisabledLast (hdisabled hrowDisabled henables) henables⟩
  active := fun handle key hlookup hspares =>
    hsecond.active handle key (hfirst.active handle key hlookup hspares) hspares

instance : Std.Refl (Evolves change) := ⟨fun tables hwf => ⟨hwf, .refl tables⟩⟩

instance : IsTrans Tables (Evolves change) where
  trans _ _ _ hfirst hsecond hwf :=
    let ⟨hmiddle, hkeeps⟩ := hfirst hwf
    let ⟨hafter, hkeepsLast⟩ := hsecond hmiddle
    ⟨hafter, hkeeps.trans hkeepsLast⟩

/-- A change that spares fewer of the lookups there are and enables more allows more. -/
theorem Evolves.mono {wider : StoreChange} (hevolves : Evolves change before after)
    (hspares : before.WellFormed → ∀ handle key, before.lookupActive handle = some key →
      wider.spares handle key → change.spares handle key)
    (henables : ∀ userId, change.enables userId → wider.enables userId) :
    Evolves wider before after := by
  intro hwf
  obtain ⟨hafter, hkeeps⟩ := hevolves hwf
  refine ⟨hafter, hkeeps.device, ?_, ?_⟩
  · intro userId row hrow
    obtain ⟨next, hnext, hrole, hdisabled⟩ := hkeeps.user userId row hrow
    exact ⟨next, hnext, hrole, fun hrowDisabled hnot =>
      hdisabled hrowDisabled fun henabled => hnot (henables userId henabled)⟩
  · intro handle key hlookup hspared
    exact hkeeps.active handle key hlookup (hspares hwf handle key hlookup hspared)

section

variable (hkeeps : Keeps change before after)

include hkeeps

theorem Keeps.revoked {handle : Bytes}
    (hrevoked : before.Revoked handle) : after.Revoked handle := by
  obtain ⟨row, hrow, hstatus⟩ := hrevoked
  obtain ⟨next, hnext, -, hkept⟩ := hkeeps.device handle row hrow
  exact ⟨next, hnext, hkept hstatus⟩

theorem Keeps.owns {userId handle : Bytes}
    (howns : before.Owns userId handle) : after.Owns userId handle := by
  obtain ⟨row, hrow, rfl⟩ := howns
  obtain ⟨next, hnext, huser, -⟩ := hkeeps.device handle row hrow
  exact ⟨next, hnext, huser⟩

theorem Keeps.disabled {userId : Bytes} (hdisabled : before.Disabled userId)
    (henables : ¬ change.enables userId) : after.Disabled userId := by
  obtain ⟨row, hrow, hstatus⟩ := hdisabled
  obtain ⟨next, hnext, -, hkept⟩ := hkeeps.user userId row hrow
  exact ⟨next, hnext, hkept hstatus henables⟩

end

/-- What a change of rows must do for the lookups it spares. -/
theorem Keeps.of_rows
    (hdevice : ∀ handle row, before.deviceOf handle = some row →
      ∃ next, after.deviceOf handle = some next ∧ next.userId = row.userId ∧
        (row.status = .revoked → next.status = .revoked) ∧
        (row.status = .active → next.status = .active ∨ ∀ key, ¬ change.spares handle key))
    (huser : ∀ userId row, before.userOf userId = some row →
      ∃ next, after.userOf userId = some next ∧ next.role = row.role ∧
        (row.status = .disabled → ¬ change.enables userId → next.status = .disabled) ∧
        (row.status = .active → next.status = .active ∨
          ∀ handle key, key.userId = userId → ¬ change.spares handle key))
    (hkey : ∀ handle row, before.activeKeyOf handle = some row →
      (∃ next, after.activeKeyOf handle = some next ∧ next.pk = row.pk) ∨
        ∀ key, ¬ change.spares handle key) : Keeps change before after where
  device := by
    intro handle row hrow
    obtain ⟨next, hnext, hsame, hrevoked, -⟩ := hdevice handle row hrow
    exact ⟨next, hnext, hsame, hrevoked⟩
  user := by
    intro userId row hrow
    obtain ⟨next, hnext, hrole, hdisabled, -⟩ := huser userId row hrow
    exact ⟨next, hnext, hrole, hdisabled⟩
  active := by
    intro handle key hlookup hspares
    obtain ⟨row, user, hrow, hactive, rfl⟩ := lookupActive_eq_some_iff.mp hlookup
    obtain ⟨device, hdeviceRow, hdeviceActive, huserRow, huserActive⟩ :=
      activeUserOf_eq_some_iff.mp hactive
    obtain ⟨nextDevice, hnextDevice, howner, -, hstillActive⟩ := hdevice handle device hdeviceRow
    obtain ⟨nextUser, hnextUser, hrole, -, hstillUser⟩ := huser device.userId user huserRow
    have hdeviceKept := (hstillActive hdeviceActive).resolve_right fun hnever => hnever _ hspares
    have huserKept := (hstillUser huserActive).resolve_right fun hnever =>
      hnever handle _ (userId_of_userOf huserRow) hspares
    obtain ⟨nextKey, hnextKey, hpk⟩ := (hkey handle row hrow).resolve_right
      fun hnever => hnever _ hspares
    refine lookupActive_eq_some_iff.mpr ⟨nextKey, nextUser, hnextKey,
      activeUserOf_eq_some_iff.mpr ⟨nextDevice, hnextDevice, hdeviceKept, ?_, huserKept⟩, ?_⟩
    · rw [howner]
      exact hnextUser
    · rw [hpk, hrole, userId_of_userOf hnextUser, userId_of_userOf huserRow]

/-! ## Statements -/

variable {handle userId : Bytes} {now : ℤ}

theorem device_rows_append {more : List DeviceRow}
    (hdevices : after.devices = before.devices ++ more) (handle : Bytes) (row : DeviceRow)
    (hrow : before.deviceOf handle = some row) :
    ∃ next, after.deviceOf handle = some next ∧ next.userId = row.userId ∧
      (row.status = .revoked → next.status = .revoked) ∧
      (row.status = .active → next.status = .active ∨ ∀ key, ¬ change.spares handle key) := by
  refine ⟨row, ?_, rfl, id, Or.inl⟩
  unfold deviceOf at hrow ⊢
  rw [hdevices]
  exact find?_append_of_some hrow

theorem user_rows_append {more : List UserRow} (husers : after.users = before.users ++ more)
    (userId : Bytes) (row : UserRow) (hrow : before.userOf userId = some row) :
    ∃ next, after.userOf userId = some next ∧ next.role = row.role ∧
      (row.status = .disabled → ¬ change.enables userId → next.status = .disabled) ∧
      (row.status = .active → next.status = .active ∨
        ∀ handle key, key.userId = userId → ¬ change.spares handle key) := by
  refine ⟨row, ?_, rfl, fun hdisabled _ => hdisabled, Or.inl⟩
  unfold userOf at hrow ⊢
  rw [husers]
  exact find?_append_of_some hrow

theorem key_rows_append {more : List KeyRow} (hkeys : after.deviceKeys = before.deviceKeys ++ more)
    (handle : Bytes) (row : KeyRow) (hrow : before.activeKeyOf handle = some row) :
    (∃ next, after.activeKeyOf handle = some next ∧ next.pk = row.pk) ∨
      ∀ key, ¬ change.spares handle key := by
  refine Or.inl ⟨row, ?_, rfl⟩
  unfold activeKeyOf at hrow ⊢
  rw [hkeys]
  exact find?_append_of_some hrow

theorem device_rows_same (hdevices : after.devices = before.devices) :
    after.devices = before.devices ++ [] := by rw [hdevices, List.append_nil]

theorem user_rows_same (husers : after.users = before.users) :
    after.users = before.users ++ [] := by rw [husers, List.append_nil]

theorem key_rows_same (hkeys : after.deviceKeys = before.deviceKeys) :
    after.deviceKeys = before.deviceKeys ++ [] := by rw [hkeys, List.append_nil]

/-- Statements on the other tables change no account. -/
theorem evolves_of_accounts (husers : after.users = before.users)
    (hdevices : after.devices = before.devices) (hkeys : after.deviceKeys = before.deviceKeys) :
    Evolves change before after := by
  intro hwf
  refine ⟨⟨husers ▸ hwf.users, hdevices ▸ hwf.devices, hkeys ▸ hwf.keys⟩, ?_⟩
  exact .of_rows (device_rows_append (device_rows_same hdevices))
    (user_rows_append (user_rows_same husers)) (key_rows_append (key_rows_same hkeys))

theorem evolves_insertUser {row : UserRow} (hinsert : before.insertUser row = some after) :
    Evolves change before after := by
  obtain ⟨hnew, rfl⟩ := insertUser_eq_some hinsert
  intro hwf
  refine ⟨⟨?_, hwf.devices, hwf.keys⟩, ?_⟩
  · refine nodup_append hwf.users ?_
    intro other hother hsame
    exact List.any_eq_false.mp hnew other hother (decide_eq_true hsame)
  exact .of_rows (device_rows_append (device_rows_same rfl)) (user_rows_append rfl)
    (key_rows_append (key_rows_same rfl))

theorem evolves_insertDevice (hinsert : before.insertDevice row = some after) :
    Evolves change before after := by
  obtain ⟨hnew, -, rfl⟩ := insertDevice_eq_some hinsert
  intro hwf
  refine ⟨⟨hwf.users, ?_, hwf.keys⟩, ?_⟩
  · refine nodup_append hwf.devices ?_
    intro other hother hsame
    exact List.any_eq_false.mp hnew other hother (decide_eq_true hsame)
  exact .of_rows (device_rows_append rfl) (user_rows_append (user_rows_same rfl))
    (key_rows_append (key_rows_same rfl))

private theorem le_foldl_max (rows : List KeyRow) (start : ℕ) :
    start ≤ rows.foldl (fun largest row => max largest row.keyId) start ∧
      ∀ row ∈ rows, row.keyId ≤ rows.foldl (fun largest row => max largest row.keyId) start := by
  induction rows generalizing start with
  | nil => simp
  | cons head tail ih =>
    obtain ⟨hstart, htail⟩ := ih (max start head.keyId)
    refine ⟨le_trans (le_max_left _ _) hstart, ?_⟩
    intro row hrow
    rcases List.mem_cons.mp hrow with rfl | hrow
    · exact le_trans (le_max_right _ _) hstart
    · exact htail row hrow

theorem keyId_lt_nextKeyId {row : KeyRow} (hrow : row ∈ tables.deviceKeys) :
    row.keyId < tables.nextKeyId :=
  Nat.lt_succ_of_le ((le_foldl_max tables.deviceKeys 0).2 row hrow)

theorem evolves_insertKey (hinsert : before.insertKey handle pk pkFp now = some after) :
    Evolves change before after := by
  obtain ⟨-, -, rfl⟩ := insertKey_eq_some hinsert
  intro hwf
  refine ⟨⟨hwf.users, hwf.devices, ?_⟩, ?_⟩
  · exact nodup_append hwf.keys fun other hother =>
      Nat.ne_of_lt (keyId_lt_nextKeyId hother)
  exact .of_rows (device_rows_append (device_rows_same rfl))
    (user_rows_append (user_rows_same rfl)) (key_rows_append rfl)

/-- An update of user rows that keeps id and role. -/
theorem evolves_updateUsers {condition : UserRow → Bool} {update : UserRow → UserRow}
    (hid : ∀ row, (update row).userId = row.userId) (hrole : ∀ row, (update row).role = row.role)
    (hdisabled : ∀ row, condition row = true → row.status = .disabled →
      ¬ change.enables row.userId → (update row).status = .disabled)
    (hactive : ∀ row, condition row = true → row.status = .active →
      (update row).status = .active ∨
        ∀ handle key, key.userId = row.userId → ¬ change.spares handle key) :
    Evolves change before { before with users := updateWhere condition update before.users } := by
  intro hwf
  refine ⟨⟨?_, hwf.devices, hwf.keys⟩, .of_rows (device_rows_append (device_rows_same rfl)) ?_
    (key_rows_append (key_rows_same rfl))⟩
  · show ((updateWhere condition update before.users).map UserRow.userId).Nodup
    rw [map_updateWhere hid]
    exact hwf.users
  intro userId row hrow
  obtain rfl := userId_of_userOf hrow
  refine ⟨if condition row then update row else row, ?_, ?_⟩
  · unfold userOf at hrow ⊢
    rw [find?_updateWhere fun other => by rw [hid], hrow, Option.map_some]
  by_cases hcondition : condition row = true
  · rw [if_pos hcondition]
    exact ⟨hrole row, hdisabled row hcondition, hactive row hcondition⟩
  rw [if_neg hcondition]
  exact ⟨rfl, fun hrowDisabled _ => hrowDisabled, Or.inl⟩

/-- An update of device rows that keeps handle and user and revives none. -/
theorem evolves_updateDevices {condition : DeviceRow → Bool} {update : DeviceRow → DeviceRow}
    (hhandle : ∀ row, (update row).handle = row.handle)
    (huser : ∀ row, (update row).userId = row.userId)
    (hrevoked : ∀ row, row.status = .revoked → (update row).status = .revoked)
    (hactive : ∀ row, condition row = true → row.status = .active →
      (update row).status = .active ∨ ∀ key, ¬ change.spares row.handle key) :
    Evolves change before
      { before with devices := updateWhere condition update before.devices } := by
  intro hwf
  refine ⟨⟨hwf.users, ?_, hwf.keys⟩, .of_rows ?_ (user_rows_append (user_rows_same rfl))
    (key_rows_append (key_rows_same rfl))⟩
  · show ((updateWhere condition update before.devices).map DeviceRow.handle).Nodup
    rw [map_updateWhere hhandle]
    exact hwf.devices
  intro handle row hrow
  obtain rfl := handle_of_deviceOf hrow
  refine ⟨if condition row then update row else row, ?_, ?_⟩
  · unfold deviceOf at hrow ⊢
    rw [find?_updateWhere fun other => by rw [hhandle], hrow, Option.map_some]
  by_cases hcondition : condition row = true
  · rw [if_pos hcondition]
    exact ⟨huser row, hrevoked row, hactive row hcondition⟩
  rw [if_neg hcondition]
  exact ⟨rfl, id, Or.inl⟩

/-- An update of key rows of one handle. -/
theorem evolves_updateKeys {condition : KeyRow → Bool} {update : KeyRow → KeyRow}
    (hid : ∀ row, (update row).keyId = row.keyId)
    (hhandle : ∀ row, (update row).handle = row.handle)
    (honly : before.WellFormed → ∀ row ∈ before.deviceKeys, condition row = true →
      row.handle = handle) :
    Evolves (.ofHandle handle) before
      { before with deviceKeys := updateWhere condition update before.deviceKeys } := by
  intro hwf
  refine ⟨⟨hwf.users, hwf.devices, ?_⟩, .of_rows (device_rows_append (device_rows_same rfl))
    (user_rows_append (user_rows_same rfl)) ?_⟩
  · show ((updateWhere condition update before.deviceKeys).map KeyRow.keyId).Nodup
    rw [map_updateWhere hid]
    exact hwf.keys
  intro other row hrow
  by_cases hother : other = handle
  · exact Or.inr fun _ hspares => hspares hother
  refine Or.inl ⟨row, ?_, rfl⟩
  unfold activeKeyOf at hrow ⊢
  rw [← hrow]
  refine find?_updateWhere_of_disjoint ?_ ?_
  · intro changed hchanged hcondition
    have hsame := honly hwf changed hchanged hcondition
    simp [hsame, Ne.symm hother]
  intro changed hchanged hcondition
  have hsame := honly hwf changed hchanged hcondition
  simp [hhandle, hsame, Ne.symm hother]

theorem evolves_disableUser :
    Evolves (.ofUser userId) before (before.setUserStatus userId .disabled disabledAt reason) := by
  refine evolves_updateUsers (fun _ => rfl) (fun _ => rfl) (fun _ _ _ _ => rfl) ?_
  intro row hrow _
  refine Or.inr fun _ key hkey hspares => hspares ?_
  rw [hkey]
  simpa using hrow

theorem evolves_enableUser :
    Evolves (.enabling userId) before (before.setUserStatus userId .active disabledAt reason) := by
  refine evolves_updateUsers (fun _ => rfl) (fun _ => rfl) ?_ (fun _ _ _ => Or.inl rfl)
  intro row hrow _ henables
  have hsame : row.userId = userId := by simpa using hrow
  exact absurd hsame henables

theorem evolves_revokeDevice :
    Evolves (.ofHandle handle) before (before.revokeDevice handle «by» reason now) := by
  refine evolves_updateDevices (fun _ => rfl) (fun _ => rfl) (fun _ _ => rfl) ?_
  intro row hrow _
  exact Or.inr fun _ hspares => hspares (by simpa using hrow)

theorem evolves_revokeKey : Evolves (.ofHandle handle) before (before.revokeKey handle now) := by
  refine evolves_updateKeys (fun _ => rfl) (fun _ => rfl) ?_
  intro _ row _ hrow
  rw [Bool.and_eq_true] at hrow
  simpa using hrow.1

/-- The key that is superseded is the active one of its handle, because key ids are unique. -/
theorem evolves_supersedeKey (hcurrent : before.activeKeyOf handle = some current) :
    Evolves (.ofHandle handle) before (before.supersedeKey current.keyId now hsid) := by
  refine evolves_updateKeys (fun _ => rfl) (fun _ => rfl) ?_
  intro hwf row hrow hid
  have hmem : current ∈ before.deviceKeys := List.mem_of_find?_eq_some hcurrent
  obtain rfl := eq_of_key hwf.keys hrow hmem (by simpa using hid)
  exact (handle_of_activeKeyOf hcurrent).1

theorem evolves_touchDevice : Evolves change before (before.touchDevice handle now) :=
  evolves_updateDevices (fun _ => rfl) (fun _ => rfl) (fun _ hrevoked => hrevoked)
    fun _ _ hactive => Or.inl hactive

theorem evolves_setRecovery {failures : ℕ → ℕ} {lockedUntil : ℤ → ℤ} :
    Evolves change before (before.setRecovery userId failures lockedUntil) :=
  evolves_updateUsers (fun _ => rfl) (fun _ => rfl) (fun _ _ hdisabled _ => hdisabled)
    fun _ _ hactive => Or.inl hactive

/-! ## Operations -/

section Operations

variable {prims : DaemonPrimitives}

theorem Evolves.trans (hfirst : Evolves change before middle)
    (hsecond : Evolves change middle after) : Evolves change before after :=
  IsTrans.trans _ _ _ hfirst hsecond

theorem evolves_audited {detail : Bytes} {user device : Option Bytes} :
    Evolves change before (before.audited prims event user device detail now) :=
  evolves_of_accounts rfl rfl rfl

theorem evolves_deleteTokens {condition : TokenRow → Bool} :
    Evolves change before (before.deleteTokens condition) :=
  evolves_of_accounts rfl rfl rfl

theorem evolves_spendTicket : Evolves change before (before.spendTicket ticketHash now) :=
  evolves_of_accounts rfl rfl rfl

theorem evolves_spendRecoveryCode :
    Evolves change before (before.spendRecoveryCode codeId userId now) :=
  evolves_of_accounts rfl rfl rfl

theorem UserAdded.evolves (hadded : UserAdded prims userId role now before after) :
    Evolves change before after := by
  obtain ⟨added, hinsert, rfl⟩ := hadded
  exact (evolves_insertUser hinsert).trans evolves_audited

theorem evolves_dropUserTokens :
    Evolves change before (before.dropUserTokens dropTokens userId) := by
  unfold dropUserTokens
  split
  · exact evolves_deleteTokens
  · exact refl before

theorem StatusSet.evolves {status : UserStatus}
    (hset : StatusSet prims userId status «by» reason dropTokens event now before after) (hstatus
      : ∀ disabledAt reason, Evolves change before (before.setUserStatus userId status disabledAt
      reason)) : Evolves change before after := by
  rw [hset.written]
  exact ((hstatus _ _).trans evolves_dropUserTokens).trans evolves_audited

theorem DeviceEnrolled.evolves (henrolled : DeviceEnrolled prims enrollment now before after) :
    Evolves change before after := by
  obtain ⟨added, keyed, hadded, hkeyed, rfl⟩ := henrolled.written
  exact ((evolves_insertDevice hadded).trans (evolves_insertKey hkeyed)).trans evolves_audited

theorem EnrolledEx.evolves {later : ℤ} {idempotent : Bool}
    (henrolled : EnrolledEx prims enrollment role now later before idempotent after) :
    Evolves change before after := by
  unfold EnrolledEx at henrolled
  split at henrolled
  · rw [henrolled]
    exact refl before
  obtain ⟨ready, ⟨-, rfl⟩ | hadded, hdevice⟩ := henrolled
  · exact hdevice.evolves
  · exact hadded.evolves.trans hdevice.evolves

theorem TicketRedeemed.evolves {label : Option Bytes}
    (hredeemed : TicketRedeemed prims ticketHash userId handle pk label now before after) :
    Evolves change before after := by
  obtain rfl | ⟨-, hdevice⟩ := hredeemed
  · exact refl after
  · exact evolves_spendTicket.trans hdevice.evolves

theorem KeyRotated.evolves (hrotated : KeyRotated prims rotation now current before after) :
    Evolves (.ofHandle rotation.handle) before after := by
  obtain ⟨keyed, user, hkeyed, rfl⟩ := hrotated.written
  refine ((evolves_supersedeKey hrotated.replaced).trans (evolves_insertKey hkeyed)).trans ?_
  cases rotation.dropTokens <;> exact evolves_of_accounts rfl rfl rfl

theorem DeviceRevoked.evolves (hrevoked : DeviceRevoked prims handle «by» reason now before after) :
    Evolves (.ofHandle handle) before after := by
  rw [hrevoked.written]
  exact ((evolves_revokeDevice.trans evolves_revokeKey).trans evolves_deleteTokens).trans
    evolves_audited

/-- A lookup of the device of a row finds the user of the row, because handles are unique. -/
theorem WellFormed.user_of_row {key : ActiveKey} (hwf : before.WellFormed)
    (hrow : row ∈ before.devices) (hlookup : before.lookupActive row.handle = some key) :
    key.userId = row.userId := by
  obtain ⟨device, hdevice, huser⟩ := owns_of_lookupActive hlookup
  have hsame := eq_of_key hwf.devices (List.mem_of_find?_eq_some hdevice) hrow
    (handle_of_deviceOf hdevice)
  rw [← huser, hsame]

theorem DevicesRevoked.evolves (hrevoked : DevicesRevoked prims userId now guard before after) :
    Evolves (.ofUser userId) before after := by
  induction hrevoked with
  | exhausted => exact refl _
  | done => exact refl _
  | @next guard before middle after row hrow hdevice hrest ih =>
    refine Evolves.trans (hdevice.evolves.mono ?_ fun _ henables => henables) ih
    rintro hwf other key hlookup hspares rfl
    have huser : row.userId = userId := by
      have := List.find?_some hrow
      simp_all
    exact hspares ((hwf.user_of_row (List.mem_of_find?_eq_some hrow) hlookup).trans huser)

theorem insertRecoveryCodes_accounts (start : Tables) (userId : Bytes) (now : ℤ)
    (pwhashStrs : List Bytes) :
    (start.insertRecoveryCodes userId now pwhashStrs).users = start.users ∧
      (start.insertRecoveryCodes userId now pwhashStrs).devices = start.devices ∧
      (start.insertRecoveryCodes userId now pwhashStrs).deviceKeys = start.deviceKeys := by
  induction pwhashStrs generalizing start with
  | nil => exact ⟨rfl, rfl, rfl⟩
  | cons pwhashStr rest ih => exact ih (start.insertRecoveryCode userId pwhashStr now)

theorem CodesReplaced.evolves {pwhashStrs : List Bytes}
    (hreplaced : CodesReplaced prims userId pwhashStrs now before after) :
    Evolves change before after := by
  rw [hreplaced.written]
  have haccounts := (before.supersedeRecoveryCodes userId now).insertRecoveryCodes_accounts
    userId now pwhashStrs
  exact evolves_of_accounts haccounts.1 haccounts.2.1 haccounts.2.2

theorem insertTicket_evolves {row : TicketRow} (hinsert : before.insertTicket row = some after) :
    Evolves change before after := by
  obtain rfl := (insertTicket_eq_some hinsert).2
  exact evolves_of_accounts rfl rfl rfl

theorem CodeSpent.evolves {revokeAll : Bool}
    (hspent : CodeSpent prims codeId userId ticketHash now expiresAt revokeAll before after) :
    Evolves (if revokeAll then .ofUser userId else .harmless) before after := by
  obtain ⟨ticketed, revoked, hticketed, hrevoked, rfl⟩ := hspent.written
  have hstart : ∀ change, Evolves change before ticketed := fun change =>
    (evolves_spendRecoveryCode.trans evolves_setRecovery).trans (insertTicket_evolves hticketed)
  cases revokeAll with
  | true => exact ((hstart _).trans (DevicesRevoked.evolves hrevoked)).trans evolves_audited
  | false =>
    obtain rfl : revoked = ticketed := hrevoked
    exact (hstart _).trans evolves_audited

theorem FailureNoted.evolves {lockSeconds : ℤ} {locked : Bool}
    (hnoted : FailureNoted prims userId now lockSeconds before locked after) :
    Evolves change before after := by
  unfold FailureNoted at hnoted
  split at hnoted
  · rw [hnoted]
    exact (evolves_setRecovery.trans evolves_setRecovery).trans evolves_audited
  rw [hnoted]
  exact evolves_setRecovery.trans evolves_audited

/-! ## What a success guarantees -/

theorem DeviceRevoked.revoked (hrevoked : DeviceRevoked prims handle «by» reason now before after) :
    after.Revoked handle := by
  have hthere : ∃ row ∈ before.devices, decide (row.handle = handle) = true := by
    simpa using hrevoked.known
  have hfound : ∃ row : DeviceRow,
      (before.revokeDevice handle «by» reason now).deviceOf handle =
        some
          { row with
            status := .revoked
            revokedAt := some now
            revokedBy := some «by»
            revokedReason := reason } :=
    find?_updateWhere_self (fun _ => rfl) hthere
  obtain ⟨row, hrow⟩ := hfound
  rw [hrevoked.written]
  exact ⟨_, hrow, rfl⟩

theorem StatusSet.disabled
    (hset : StatusSet prims userId .disabled «by» reason dropTokens event now before after) :
    after.Disabled userId := by
  have hthere : ∃ row ∈ before.users, decide (row.userId = userId) = true := by
    simpa using hset.known
  have hfound : ∃ row : UserRow,
      (before.setUserStatus userId .disabled (some now) reason).userOf userId =
        some { row with status := .disabled, disabledAt := some now, disabledReason := reason } :=
    find?_updateWhere_self (fun _ => rfl) hthere
  obtain ⟨row, hrow⟩ := hfound
  rw [hset.written]
  unfold dropUserTokens
  split <;> exact ⟨_, hrow, rfl⟩

/-- An inserted key is the active one of its handle. -/
theorem activeKeyOf_insertKey (hinsert : before.insertKey handle pk pkFp now = some after) :
    ∃ row, after.activeKeyOf handle = some row ∧ row.pk = pk := by
  obtain ⟨-, hnone, rfl⟩ := insertKey_eq_some hinsert
  unfold activeKeyOf at hnone ⊢
  dsimp only
  rw [List.find?_append, hnone, Option.none_or]
  exact ⟨_, List.find?_cons_of_pos (by simp), rfl⟩

/-- A rotation leaves users and devices as they are. -/
theorem KeyRotated.rows (hrotated : KeyRotated prims rotation now current before after) :
    after.users = before.users ∧ after.devices = before.devices ∧
      ∃ keyed, (before.supersedeKey current.keyId now rotation.hsid).insertKey rotation.handle
        rotation.newPk (fingerprint prims rotation.newPk) now = some keyed ∧
        after.deviceKeys = keyed.deviceKeys := by
  obtain ⟨keyed, owner, hkeyed, rfl⟩ := hrotated.written
  have haccounts : keyed.users = before.users ∧ keyed.devices = before.devices := by
    obtain rfl := (insertKey_eq_some hkeyed).2.2
    exact ⟨rfl, rfl⟩
  cases rotation.dropTokens <;> exact ⟨haccounts.1, haccounts.2, keyed, hkeyed, rfl⟩

theorem KeyRotated.activeKeyOf (hrotated : KeyRotated prims rotation now current before after) :
    ∃ row, after.activeKeyOf rotation.handle = some row ∧ row.pk = rotation.newPk := by
  obtain ⟨-, -, keyed, hkeyed, hkeys⟩ := hrotated.rows
  obtain ⟨row, hrow, hpk⟩ := activeKeyOf_insertKey hkeyed
  refine ⟨row, ?_, hpk⟩
  rw [← hrow]
  unfold Tables.activeKeyOf
  rw [hkeys]

/-- The number of active devices of a user. -/
def activeDevices (tables : Tables) (userId : Bytes) : ℕ :=
  tables.devices.countP fun row => row.userId = userId && row.status = .active

/-- Revoking an active device of a user leaves fewer of them. -/
theorem activeDevices_lt (hrow : row ∈ before.devices)
    (hactive : (row.userId = userId && row.status = .active) = true)
    (hrevoked : DeviceRevoked prims row.handle «by» reason now before after) :
    after.activeDevices userId < before.activeDevices userId := by
  have hdevices : after.devices = (before.revokeDevice row.handle «by» reason now).devices := by
    rw [hrevoked.written]
    rfl
  unfold activeDevices
  rw [hdevices]
  exact countP_updateWhere_lt (by simp) ⟨row, hrow, by simp, hactive⟩

/-- With a large enough guard, revoking all devices of a user leaves none active. -/
theorem DevicesRevoked.all (hrevoked : DevicesRevoked prims userId now guard before after)
    (hguard : before.activeDevices userId ≤ guard) : after.activeDevices userId = 0 := by
  induction hrevoked with
  | exhausted => exact Nat.le_zero.mp hguard
  | done hnone => exact List.countP_eq_zero.mpr fun row hrow => List.find?_eq_none.mp hnone row hrow
  | @next guard before middle after row hrow hdevice hrest ih =>
    have hactive := List.find?_some hrow
    have hlt := activeDevices_lt (List.mem_of_find?_eq_some hrow) hactive hdevice
    exact ih (by omega)

/-- Without active devices of a user, the user's handles are revoked. -/
theorem revoked_of_activeDevices (hnone : after.activeDevices userId = 0)
    (howns : after.Owns userId handle) : after.Revoked handle := by
  obtain ⟨row, hrow, huser⟩ := howns
  refine ⟨row, hrow, ?_⟩
  have hinactive := List.countP_eq_zero.mp hnone row (List.mem_of_find?_eq_some hrow)
  cases hstatus : row.status with
  | active => simp [huser, hstatus] at hinactive
  | revoked => rfl

/-- Spending a recovery code with `revoke=all` leaves no active device of the user, unless the
guard runs out. -/
theorem CodeSpent.allRevoked
    (hspent : CodeSpent prims codeId userId ticketHash now expiresAt true before after)
    (hguard : before.activeDevices userId ≤ 1024) : after.activeDevices userId = 0 := by
  obtain ⟨ticketed, revoked, hticketed, hrevoked, rfl⟩ := hspent.written
  have hdevices : ticketed.devices = before.devices := (insertTicket_eq_some hticketed).2 ▸ rfl
  have hsame : ticketed.activeDevices userId = before.activeDevices userId := by
    unfold activeDevices
    rw [hdevices]
  have hall : DevicesRevoked prims userId now 1024 ticketed revoked := hrevoked
  exact hall.all (hsame.trans_le hguard)

end Operations

end Tables

end MldsaAuth.Authd
