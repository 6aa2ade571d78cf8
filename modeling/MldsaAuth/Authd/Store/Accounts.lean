/-
# The store keeps a registry

What the device and key tables say is a registry, and every operation of the store
changes it by enrolling, rotating and revoking or leaves it alone, whether it succeeds
or fails at any of its statements. So the tables are sound after any sequence of
operations, and what was in them before is still there. The one thing to be assumed is
that the keys presented to the store have different fingerprints.
-/

import MldsaAuth.Authd.Store.Registry
import MldsaAuth.Authd.Store.StoreOp
import MldsaAuth.Authd.Store.Effects

namespace MldsaAuth.Authd

open Foundation Crypto Foundation.Machine Tables Registry

/-- A device row as a device of a registry. -/
def DeviceRow.registered (row : DeviceRow) : RegisteredDevice Bytes Bytes :=
  ⟨row.handle, row.userId, row.status⟩

/-- A key row as a key of a registry. -/
def KeyRow.registered (row : KeyRow) : RegisteredKey Bytes SigPublicKey StoreHash :=
  ⟨row.keyId, row.handle, row.pk, row.pkFp, row.status⟩

variable {enrollment : Enrollment} {userId : Bytes} {tables : Tables} {«by» : Bytes}
  {reason : Option Bytes} {prims : DaemonPrimitives} {before after : Tables}
  {known : Set SigPublicKey}

namespace Tables

/-- The registry the tables hold. -/
def registry (tables : Tables) : Registry Bytes Bytes SigPublicKey StoreHash where
  devices := tables.devices.map DeviceRow.registered
  keys := tables.deviceKeys.map KeyRow.registered

variable {now : ℤ}

theorem registry_touchDevice (tables : Tables) (handle : Bytes) (now : ℤ) :
    (tables.touchDevice handle now).registry = tables.registry := by
  unfold registry touchDevice
  congr 1
  exact Rows.map_updateWhere fun _ => rfl

variable {handle : Bytes}

theorem registry_revoke :
    ((tables.revokeDevice handle «by» reason now).revokeKey handle now).registry =
      tables.registry.revoke handle := by
  unfold registry revokeDevice revokeKey revoke
  congr 1
  · exact Rows.map_updateWhere_comm (fun _ => rfl) fun _ => rfl
  · exact Rows.map_updateWhere_comm (fun _ => rfl) fun _ => rfl

/-- A key that is not on record is new to the registry. -/
theorem key_ne_of_pkExists {pk : SigPublicKey} (hunused : tables.pkExists pk = false) :
    ∀ entry ∈ tables.registry.keys, entry.key ≠ pk := by
  intro entry hentry hsame
  obtain ⟨row, hrow, rfl⟩ := List.mem_map.mp hentry
  exact List.any_eq_false.mp hunused row hrow (decide_eq_true hsame)

theorem keyId_ne_of_nextKeyId : ∀ entry ∈ tables.registry.keys, entry.keyId ≠ tables.nextKeyId := by
  intro entry hentry
  obtain ⟨row, hrow, rfl⟩ := List.mem_map.mp hentry
  exact (keyId_lt_nextKeyId hrow).ne

section

variable (henrolled : DeviceEnrolled prims enrollment now before after)

include henrolled

theorem DeviceEnrolled.registry_eq :
    after.registry = before.registry.enroll enrollment.handle enrollment.userId before.nextKeyId
      enrollment.pk (fingerprint prims enrollment.pk) := by
  obtain ⟨added, keyed, hadded, hkeyed, rfl⟩ := henrolled.written
  obtain ⟨-, -, rfl⟩ := insertDevice_eq_some hadded
  obtain ⟨-, -, rfl⟩ := insertKey_eq_some hkeyed
  unfold registry audited enroll
  simp only [List.map_append]
  rfl

theorem DeviceEnrolled.handle_new :
    ∀ device ∈ before.registry.devices, device.handle ≠ enrollment.handle := by
  obtain ⟨added, keyed, hadded, -, -⟩ := henrolled.written
  obtain ⟨hhandle, -, -⟩ := insertDevice_eq_some hadded
  intro device hdevice hsame
  obtain ⟨row, hrow, rfl⟩ := List.mem_map.mp hdevice
  exact List.any_eq_false.mp hhandle row hrow (decide_eq_true hsame)

theorem DeviceEnrolled.registry (hknown : enrollment.pk ∈ known) :
    Step known (fingerprint prims) before.registry after.registry :=
  henrolled.registry_eq ▸ .enroll _ _ _ _ henrolled.handle_new keyId_ne_of_nextKeyId
    (key_ne_of_pkExists henrolled.unused) hknown

end

section Rotated

variable {rotation : Rotation} {current : KeyRow}

section

variable (hrotated : KeyRotated prims rotation now current before after)

include hrotated

/-- The key that was replaced is the active one of the handle. -/
theorem KeyRotated.serving :
    current.registered ∈ before.registry.keys ∧ serves rotation.handle current.registered = true :=
  ⟨List.mem_map_of_mem (List.mem_of_find?_eq_some hrotated.replaced),
    serves_eq_true_iff.mpr (handle_of_activeKeyOf hrotated.replaced)⟩

theorem KeyRotated.registry_eq :
    after.registry = before.registry.rotate rotation.handle current.keyId
      (before.supersedeKey current.keyId now rotation.hsid).nextKeyId rotation.newPk
      (fingerprint prims rotation.newPk) := by
  obtain ⟨-, hdevices, keyed, hkeyed, hkeys⟩ := hrotated.rows
  obtain ⟨-, -, rfl⟩ := insertKey_eq_some hkeyed
  unfold registry rotate
  rw [hdevices, hkeys, List.map_append]
  congr 2
  exact Rows.map_updateWhere_comm (fun _ => rfl) fun _ => rfl

theorem KeyRotated.registry (hknown : rotation.newPk ∈ known) :
    Step known (fingerprint prims) before.registry after.registry := by
  obtain ⟨hcurrent, hserves⟩ := hrotated.serving
  refine hrotated.registry_eq ▸ .rotate rotation.handle current.registered _ rotation.newPk
    hcurrent hserves ?_ (key_ne_of_pkExists hrotated.unused) hknown
  intro entry hentry
  obtain ⟨row, hrow, rfl⟩ := List.mem_map.mp hentry
  -- superseding keeps the ids, so the next one is beyond that of every row
  have hkept := @keyId_lt_nextKeyId (before.supersedeKey current.keyId now rotation.hsid) _
    (List.mem_map_of_mem hrow)
  split at hkept <;> exact hkept.ne

end

end Rotated

theorem DeviceRevoked.registry_eq
    (hrevoked : DeviceRevoked prims handle «by» reason now before after) :
    after.registry = before.registry.revoke handle :=
  hrevoked.written ▸ registry_revoke

theorem DeviceRevoked.registry
    (hrevoked : DeviceRevoked prims handle «by» reason now before after) :
    Step known (fingerprint prims) before.registry after.registry :=
  hrevoked.registry_eq ▸ .revoke handle

theorem DevicesRevoked.registry {guard : ℕ}
    (hrevoked : DevicesRevoked prims userId now guard before after) :
    Steps known (fingerprint prims) before.registry after.registry := by
  induction hrevoked with
  | exhausted => exact .refl
  | done => exact .refl
  | next _ hrevoked _ ih => exact .head hrevoked.registry ih

theorem registry_congr (hdevices : after.devices = before.devices)
    (hkeys : after.deviceKeys = before.deviceKeys) : after.registry = before.registry := by
  unfold registry
  rw [hdevices, hkeys]

theorem CodesReplaced.registry {pwhashStrs : List Bytes}
    (hreplaced : CodesReplaced prims userId pwhashStrs now before after) :
    after.registry = before.registry := by
  obtain ⟨-, hdevices, hkeys⟩ :=
    insertRecoveryCodes_accounts (before.supersedeRecoveryCodes userId now) userId now pwhashStrs
  exact hreplaced.written ▸ registry_congr hdevices hkeys

theorem CodeSpent.registry {codeId : ℕ} {ticketHash : StoreHash} {expiresAt : ℤ} {revokeAll : Bool}
    (hspent : CodeSpent prims codeId userId ticketHash now expiresAt revokeAll before after) :
    Steps known (fingerprint prims) before.registry after.registry := by
  obtain ⟨ticketed, revoked, hticketed, hrevoked, rfl⟩ := hspent.written
  have hstart : ticketed.registry = before.registry := (insertTicket_eq_some hticketed).2 ▸ rfl
  have hend : (revoked.audited prims (ascii "recovery-use") (some userId) none (ascii "ok")
    now).registry = revoked.registry := rfl
  rw [hend, ← hstart]
  cases revokeAll with
  | true => exact hrevoked.registry
  | false => obtain rfl := hrevoked; exact .refl

theorem UserReady.registry {role : StoreRole}
    (hready : UserReady prims userId role now before after) : after.registry = before.registry :=
  registry_congr hready.devices.1 hready.devices.2

theorem FailureNoted.registry {lockSeconds : ℤ} {locked : Bool}
    (hnoted : FailureNoted prims userId now lockSeconds before locked after) :
    after.registry = before.registry := by
  cases locked with
  | true | false => exact hnoted ▸ rfl

/-- In a sound registry a new key cannot meet the fingerprint of another one. -/
theorem FingerprintClash.absurd (hclash : FingerprintClash prims enrollment now before after)
    (hids : (idOk enrollment.handle && idOk enrollment.userId) = true)
    (hsound : Sound known (fingerprint prims) before.registry)
    (hhash : Set.InjOn (fingerprint prims) known) (hknown : enrollment.pk ∈ known) : False := by
  obtain ⟨row, hrow, hlabel⟩ := List.any_eq_true.mp (hclash.clashes hids).recorded
  obtain ⟨hrowKnown, hfiled⟩ := hsound.filed row.registered (List.mem_map_of_mem hrow)
  have hsame : row.pk = enrollment.pk :=
    hhash hrowKnown hknown (hfiled.symm.trans (of_decide_eq_true hlabel))
  exact List.any_eq_false.mp hclash.unused row hrow (decide_eq_true hsame)

end Tables

/-! ## Every operation -/

namespace StoreOp

variable {op : StoreOp}

/-- The key a call presents to the store. -/
def presented : StoreOp → Option SigPublicKey
  | enrollDevice enrollment _ => some enrollment.pk
  | enrollDeviceEx enrollment _ _ _ => some enrollment.pk
  | enrollViaTicket _ _ _ pk _ _ => some pk
  | rotateKey rotation _ => some rotation.newPk
  | _ => none

theorem steps_of_eq (hsame : after.registry = before.registry) :
    Steps known (fingerprint prims) before.registry after.registry :=
  hsame ▸ .refl

/-- What a successful call has done is a change of the registry. -/
theorem Applied.registry (happlied : op.Applied prims before after)
    (hknown : ∀ pk, op.presented = some pk → pk ∈ known) :
    Steps known (fingerprint prims) before.registry after.registry := by
  cases op with
  | addUser userId role now =>
    have hready : UserReady prims userId role now before after := .inr happlied
    exact steps_of_eq hready.registry
  | disableUser | enableUser => exact steps_of_eq (happlied.written ▸ rfl)
  | enrollDevice =>
    cases happlied with
    | enrolled hwritten => exact .single (hwritten.registry (hknown _ rfl))
    | idempotent => exact .refl
  | enrollDeviceEx =>
    obtain ⟨_, hview⟩ := happlied
    cases hview with
    | idempotent => exact .refl
    | enrolled hready hwritten =>
      exact hready.registry ▸ .single (hwritten.registry (hknown _ rfl))
  | enrollViaTicket =>
    cases happlied with
    | idempotent => exact .refl
    | enrolled _ hwritten => exact .single (hwritten.registry (hknown _ rfl))
  | rotateKey =>
    obtain ⟨current, hrotated⟩ := happlied
    exact .single (hrotated.registry (hknown _ rfl))
  | revokeDevice => exact .single happlied.registry
  | touchLastSeen handle now =>
    exact steps_of_eq (happlied ▸ registry_touchDevice before handle now)
  | addToken row =>
    have hinsert : before.insertToken row = some after := happlied
    obtain rfl := (insertToken_eq_some hinsert).2
    exact .refl
  | verifyToken =>
    obtain ⟨_, hverified⟩ := happlied
    cases hverified <;> exact .refl
  | deleteToken | deleteTokensForHandle | deleteTokensForUser | sweep =>
    exact steps_of_eq (happlied ▸ rfl)
  | addLoginCode row =>
    have hinsert : before.insertLoginCode row = some after := happlied
    obtain rfl := (insertLoginCode_eq_some hinsert).2
    exact .refl
  | consumeLoginCodeEx =>
    obtain ⟨_, hconsumed⟩ := happlied
    cases hconsumed <;> exact .refl
  | recoveryReplace => exact steps_of_eq happlied.registry
  | recoveryConsumeEx => exact happlied.registry
  | recoveryNoteFailure =>
    obtain ⟨_, hview⟩ := happlied
    exact steps_of_eq hview.noted.registry

/-- A refused call leaves a sound registry alone. -/
theorem Refused.registry {status : StoreStatus} (hrefused : op.Refused prims status before after)
    (hsound : Sound known (fingerprint prims) before.registry)
    (hhash : Set.InjOn (fingerprint prims) known)
    (hknown : ∀ pk, op.presented = some pk → pk ∈ known) : after.registry = before.registry := by
  cases hrefused with
  | unchanged => rfl
  | mismatch _ _ hwritten => exact hwritten.written ▸ rfl
  | stray _ hwritten => exact hwritten.written ▸ rfl
  | clash hop _ hids hwritten =>
    subst hop
    exact (hwritten.absurd hids hsound hhash (hknown _ rfl)).elim

end StoreOp

/-- Every step of the store is a change of the registry it keeps. -/
theorem steps_storeMachine (hhash : Set.InjOn (fingerprint prims) known) {conn : Connection Tables}
    {call : StoreCall} (hknown : ∀ pk, call.op.presented = some pk → pk ∈ known)
    (hsound : Sound known (fingerprint prims) conn.tables.registry) :
    Steps known (fingerprint prims) conn.tables.registry
      ((storeMachine prims).step conn call).tables.registry := by
  obtain ⟨outcome, hsettles⟩ := settles_step
  cases outcome with
  | ok => exact StoreOp.Applied.registry hsettles hknown
  | error =>
    exact StoreOp.steps_of_eq (StoreOp.Refused.registry hsettles hsound hhash hknown)

theorem steps_of_run (hhash : Set.InjOn (fingerprint prims) known) {start final : Connection Tables}
    {events : List StoreCall} (hrun : Run (storeMachine prims) start events final)
    (hknown : ∀ call ∈ events, ∀ pk, call.op.presented = some pk → pk ∈ known)
    (hsound : Sound known (fingerprint prims) start.tables.registry) :
    Steps known (fingerprint prims) start.tables.registry final.tables.registry := by
  induction hrun with
  | nil => exact .refl
  | snoc hrun _ ih =>
    have hsteps := ih fun call hcall => hknown call (List.mem_append_left _ hcall)
    have hlast := hknown _ (List.mem_append_right _ (List.mem_singleton.mpr rfl))
    exact hsteps.trans (steps_storeMachine hhash hlast (Steps.sound hsteps hsound))

/-! ## What the tables satisfy -/

namespace Tables

/-- The number of active keys of a handle. -/
def activeKeys (tables : Tables) (handle : Bytes) : ℕ :=
  tables.deviceKeys.countP fun row => row.handle = handle && row.status = .active

/-- An active device has exactly one active key and a revoked one has none; no handle has two
active keys or two devices; and a public key stands in the table once. -/
structure AccountsSound (tables : Tables) : Prop where
  active : ∀ row ∈ tables.devices, row.status = .active ↔ tables.activeKeys row.handle = 1
  revoked : ∀ row ∈ tables.devices, row.status = .revoked ↔ tables.activeKeys row.handle = 0
  single : ∀ handle, tables.activeKeys handle ≤ 1
  handles : (tables.devices.map DeviceRow.handle).Nodup
  pks : (tables.deviceKeys.map KeyRow.pk).Nodup

/-- Every device and key is still there, for the same user and handle; a device can only have
been revoked, and only an active key can have been superseded or revoked. -/
structure AccountsKept (before after : Tables) : Prop where
  devices : ∀ row ∈ before.devices, ∃ later ∈ after.devices,
    later.handle = row.handle ∧ later.userId = row.userId ∧
      (later.status = row.status ∨ row.status = .active ∧ later.status = .revoked)
  keys : ∀ row ∈ before.deviceKeys, ∃ later ∈ after.deviceKeys,
    later.keyId = row.keyId ∧ later.handle = row.handle ∧ later.pk = row.pk ∧
      (later.status = row.status ∨
        row.status = .active ∧ (later.status = .superseded ∨ later.status = .revoked))

theorem activeKeys_registry (tables : Tables) (handle : Bytes) :
    tables.registry.activeKeys handle = tables.activeKeys handle :=
  List.countP_map

/-- A sound registry has what `AccountsSound` asks of the tables. -/
theorem accountsSound_of_registry
    (hsound : Sound known (fingerprint prims) tables.registry) : tables.AccountsSound := by
  have hcounted : ∀ row ∈ tables.devices,
      tables.activeKeys row.handle = if row.status = .active then 1 else 0 := by
    intro row hrow
    rw [← activeKeys_registry]
    exact hsound.counted row.registered (List.mem_map_of_mem hrow)
  refine ⟨?_, ?_, ?_, ?_, ?_⟩
  · intro row hrow
    rw [hcounted row hrow]
    cases row.status <;> decide
  · intro row hrow
    rw [hcounted row hrow]
    cases row.status <;> decide
  · intro handle
    rw [← activeKeys_registry]
    exact hsound.activeKeys_le handle
  · have hhandles := hsound.handles
    unfold registry at hhandles
    rwa [List.map_map] at hhandles
  · have hkeys := hsound.keys
    unfold registry at hkeys
    rwa [List.map_map] at hkeys

theorem accountsKept_of_registry (hdescends : Descends before.registry after.registry) :
    before.AccountsKept after := by
  constructor
  · intro row hrow
    obtain ⟨_, hmem, hhandle, huser, hstatus⟩ :=
      hdescends.devices row.registered (List.mem_map_of_mem hrow)
    obtain ⟨later, hlater, rfl⟩ := List.mem_map.mp hmem
    refine ⟨later, hlater, hhandle, huser, ?_⟩
    rcases hstatus with hsame | hactive
    · exact .inl hsame
    have hactive : row.status = .active := hactive
    cases hlast : later.status with
    | active => exact .inl hactive.symm
    | revoked => exact .inr ⟨hactive, rfl⟩
  · intro row hrow
    obtain ⟨_, hmem, hid, hhandle, hkey, hstatus⟩ :=
      hdescends.keys row.registered (List.mem_map_of_mem hrow)
    obtain ⟨later, hlater, rfl⟩ := List.mem_map.mp hmem
    refine ⟨later, hlater, hid, hhandle, hkey, ?_⟩
    rcases hstatus with hsame | hactive
    · exact .inl hsame
    have hactive : row.status = .active := hactive
    cases hlast : later.status with
    | active => exact .inl hactive.symm
    | superseded => exact .inr ⟨hactive, .inl rfl⟩
    | revoked => exact .inr ⟨hactive, .inr rfl⟩

end Tables

theorem sound_fresh : Sound known (fingerprint prims) fresh.registry where
  handles := List.nodup_nil
  ids := List.nodup_nil
  keys := List.nodup_nil
  owned := fun _ hentry => absurd hentry List.not_mem_nil
  counted := fun _ hdevice => absurd hdevice List.not_mem_nil
  filed := fun _ hentry => absurd hentry List.not_mem_nil

/-- After any sequence of store operations, succeeding or failing at any statement, the accounts
are sound, and whatever came before is still there and has only moved on. The keys presented
to the store are assumed to have different fingerprints. -/
theorem accounts_of_run (prims : DaemonPrimitives) {first second : List StoreCall}
    {middle final : Connection Tables}
    (hhash : Set.InjOn (fingerprint prims)
      {pk | ∃ call ∈ first ++ second, call.op.presented = some pk})
    (hfirst : Run (storeMachine prims) freshStore first middle)
    (hsecond : Run (storeMachine prims) middle second final) :
    final.tables.AccountsSound ∧ middle.tables.AccountsKept final.tables := by
  have hbefore : Sound _ (fingerprint prims) middle.tables.registry :=
    Steps.sound
      (steps_of_run hhash hfirst
        (fun call hcall pk hpk => ⟨call, List.mem_append_left _ hcall, hpk⟩) sound_fresh)
      sound_fresh
  have hsteps := steps_of_run hhash hsecond
    (fun call hcall pk hpk => ⟨call, List.mem_append_right _ hcall, hpk⟩) hbefore
  exact ⟨accountsSound_of_registry (Steps.sound hsteps hbefore),
    accountsKept_of_registry (Steps.descends hsteps hbefore)⟩

/-- A user is added and a device enrolled, at the second attempt, whose key is then rotated. -/
def sampleHistory : List StoreCall :=
  [⟨.addUser (ascii "alice") .user 0, []⟩,
    ⟨.enrollDevice StoreOp.laptop 1, [false, false, false, true]⟩,
    ⟨.enrollDevice StoreOp.laptop 2, []⟩,
    ⟨.rotateKey ⟨ascii "laptop", List.Vector.replicate 1952 2, none, none, true⟩ 3, []⟩]

/-- Its device is revoked. -/
def sampleRevocation : StoreCall := ⟨.revokeDevice (ascii "laptop") [] none 4, []⟩

/-- The store after the history and before the revocation. -/
def sampleStore : Connection Tables := sampleHistory.foldl (storeMachine .sample).step freshStore

theorem injOn_sampleHistory : Set.InjOn (fingerprint .sample)
    {pk | ∃ call ∈ sampleHistory ++ [sampleRevocation], call.op.presented = some pk} := by
  have hkeys : ∀ pk,
      (∃ call ∈ sampleHistory ++ [sampleRevocation], call.op.presented = some pk) →
      pk = List.Vector.replicate 1952 1 ∨ pk = List.Vector.replicate 1952 2 := by
    rintro pk ⟨call, hcall, hpk⟩
    simp only [sampleHistory, List.cons_append, List.nil_append, List.mem_cons,
      List.not_mem_nil, or_false] at hcall
    rcases hcall with rfl | rfl | rfl | rfl | rfl
    · cases hpk
    · exact .inl (Option.some.inj hpk).symm
    · exact .inl (Option.some.inj hpk).symm
    · exact .inr (Option.some.inj hpk).symm
    · cases hpk
  have hdiffer : fingerprint .sample (List.Vector.replicate 1952 1) ≠
      fingerprint .sample (List.Vector.replicate 1952 2) := by
    decide +kernel
  intro one hone other hother hsame
  rcases hkeys one hone with rfl | rfl <;> rcases hkeys other hother with rfl | rfl
  · rfl
  · exact absurd hsame hdiffer
  · exact absurd hsame.symm hdiffer
  · rfl

theorem accounts_of_run_sampleHistory :
    sampleStore.tables.deviceKeys.map KeyRow.status = [.superseded, .active] ∧
      ((storeMachine .sample).step sampleStore sampleRevocation).tables.AccountsSound ∧
      sampleStore.tables.AccountsKept
        ((storeMachine .sample).step sampleStore sampleRevocation).tables := by
  refine ⟨by decide +kernel, ?_⟩
  have hfirst : Run (storeMachine .sample) freshStore sampleHistory sampleStore :=
    Run.of_allowed fun _ _ _ => trivial
  have hsecond : Run (storeMachine .sample) sampleStore [sampleRevocation]
      ((storeMachine .sample).step sampleStore sampleRevocation) := Run.single trivial
  exact accounts_of_run .sample injOn_sampleHistory hfirst hsecond

end MldsaAuth.Authd
