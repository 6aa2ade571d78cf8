/-
# Recovery with a code

`h_recovery_use` trades a recovery code for an enrollment ticket. The first part says what the
`revoke=all` loop of the store does as a whole: it revokes the devices of some handles, with
their keys and their tokens, and leaves every other row alone. The second part is a view of
the handler that keeps what a request found and how many password hashes it computed. The
third asks when a successful `revoke=all` leaves the user without a way in.
-/

import MldsaAuth.Authd.Evloop
import MldsaAuth.Authd.RequestView
import MldsaAuth.Authd.Store.StoreOp

namespace MldsaAuth.Authd

open Foundation Crypto Foundation.Program Rows

/-! ## Revoking all devices -/

/-- A device row as the `revoke=all` loop leaves it. -/
def DeviceRow.recovered (now : ℤ) (row : DeviceRow) : DeviceRow :=
  { row with
    status := .revoked
    revokedAt := some now
    revokedBy := some (ascii "recovery")
    revokedReason := some (ascii "recovery revoke=all") }

/-- A key row as the loop leaves it. -/
def KeyRow.recovered (now : ℤ) (row : KeyRow) : KeyRow :=
  { row with status := .revoked, validTo := some now }

variable {handle : Bytes} {codeId : ℕ} {userId : Bytes} {prims : DaemonPrimitives}

namespace Tables

variable {now : ℤ} {before middle after : Tables}

/-- The devices of some handles are revoked, with their keys and their tokens. -/
def revokeHandles (tables : Tables) (handles : List Bytes) (now : ℤ) : Tables :=
  { tables with
    devices := Rows.updateWhere (fun row => row.handle ∈ handles) (DeviceRow.recovered now)
      tables.devices
    deviceKeys := Rows.updateWhere (fun row => row.handle ∈ handles && row.status = .active)
      (KeyRow.recovered now) tables.deviceKeys
    tokens := tables.tokens.filter fun row => row.handle ∉ handles }

/-- The handles that audit rows report as revoked. -/
def revokedIn (rows : List AuditRow) : List (Option Bytes) :=
  (rows.filter fun row => row.event = ascii "device-revoke").map AuditRow.handle

/-- The devices of some handles were revoked, with one audit row for each. -/
def HandlesRevoked (now : ℤ) (handles : List Bytes) (before after : Tables) : Prop :=
  ∃ added : List AuditRow, revokedIn added = handles.map some ∧
    after = { before.revokeHandles handles now with audit := before.audit ++ added }

theorem handlesRevoked_nil : HandlesRevoked now [] before before := by
  refine ⟨[], rfl, ?_⟩
  unfold revokeHandles updateWhere
  simp

theorem DeviceRevoked.handlesRevoked (hrevoked : DeviceRevoked prims handle (ascii "recovery")
      (some (ascii "recovery revoke=all")) now before after) :
    HandlesRevoked now [handle] before after := by
  rw [hrevoked.written]
  unfold HandlesRevoked revokeHandles audited deleteHandleTokens deleteTokens revokeKey revokeDevice
  simp only [List.mem_singleton, decide_not]
  exact ⟨[_], rfl, rfl⟩

theorem revokedIn_append {first second : List AuditRow} :
    revokedIn (first ++ second) = revokedIn first ++ revokedIn second := by
  unfold revokedIn
  rw [List.filter_append, List.map_append]

theorem HandlesRevoked.append {first second : List Bytes}
    (hfirst : HandlesRevoked now first before middle)
    (hsecond : HandlesRevoked now second middle after) :
    HandlesRevoked now (first ++ second) before after := by
  obtain ⟨earlier, hearlier, rfl⟩ := hfirst
  obtain ⟨later, hlater, rfl⟩ := hsecond
  refine ⟨earlier ++ later, ?_, ?_⟩
  · rw [revokedIn_append, hearlier, hlater, List.map_append]
  unfold revokeHandles
  have hdevice : ∀ row : DeviceRow, (row.recovered now).recovered now = row.recovered now :=
    fun _ => rfl
  have hkey : ∀ row : KeyRow, (row.recovered now).recovered now = row.recovered now :=
    fun _ => rfl
  dsimp only
  rw [updateWhere_updateWhere hdevice, updateWhere_updateWhere hkey,
    List.filter_filter, List.append_assoc]
  simp only [List.mem_append, not_or, Bool.decide_or, Bool.decide_and, Bool.and_comm,
    Bool.and_or_distrib_left]

/-- An active device of a user. -/
def ActiveDevice (tables : Tables) (userId handle : Bytes) : Prop :=
  ∃ row ∈ tables.devices, row.handle = handle ∧ row.userId = userId ∧ row.status = .active

/-- Revoking one active device of a user leaves one fewer. -/
theorem activeDevices_succ {row : DeviceRow} (hnodup : (before.devices.map DeviceRow.handle).Nodup)
    (hrow : row ∈ before.devices) (hactive : (row.userId = userId && row.status = .active) = true)
    (hrevoked : HandlesRevoked now [row.handle] before after) :
    after.activeDevices userId + 1 = before.activeDevices userId := by
  obtain ⟨added, -, rfl⟩ := hrevoked
  have hcount := @Rows.countP_updateWhere_add DeviceRow (fun other => other.handle ∈ [row.handle])
    (DeviceRow.recovered now) before.devices
    (fun other => other.userId = userId && other.status = .active)
    fun other _ => by simp [DeviceRow.recovered]
  have hone := @Rows.countP_key DeviceRow before.devices row
    (fun other => other.userId = userId && other.status = .active) Bytes _ _ hnodup hrow hactive
  simp only [List.mem_singleton] at hcount
  rw [hone] at hcount
  unfold activeDevices revokeHandles
  simpa only [List.mem_singleton] using hcount

/-- The loop revokes active devices of the user, each once, until none is left or the guard has
run out. -/
structure RevokedInTurn (userId : Bytes) (guard : ℕ) (handles : List Bytes)
    (before after : Tables) : Prop where
  active : ∀ handle ∈ handles, before.ActiveDevice userId handle
  counted : after.activeDevices userId + handles.length = before.activeDevices userId
  bounded : handles.length ≤ guard
  ended : after.activeDevices userId = 0 ∨ handles.length = guard

theorem HandlesRevoked.handles {handles : List Bytes}
    (hrevoked : HandlesRevoked now handles before after) :
    after.devices.map DeviceRow.handle = before.devices.map DeviceRow.handle := by
  obtain ⟨added, -, rfl⟩ := hrevoked
  exact map_updateWhere fun _ => rfl

variable {handles : List Bytes}

/-- What is active after some devices were revoked was active before. -/
theorem HandlesRevoked.active_of_active (hrevoked : HandlesRevoked now handles before after)
    (hactive : after.ActiveDevice userId handle) : before.ActiveDevice userId handle := by
  obtain ⟨added, -, rfl⟩ := hrevoked
  obtain ⟨row, hrow, hhandle, huser, hstatus⟩ := hactive
  obtain ⟨source, hsource, rfl⟩ := List.mem_map.mp hrow
  refine ⟨source, hsource, ?_⟩
  split at hstatus
  · cases hstatus
  rename_i hkept
  rw [if_neg hkept] at hhandle huser
  exact ⟨hhandle, huser, hstatus⟩

theorem DevicesRevoked.inTurn {guard : ℕ}
    (hrevoked : DevicesRevoked prims userId now guard before after)
    (hnodup : (before.devices.map DeviceRow.handle).Nodup) :
    ∃ handles, HandlesRevoked now handles before after ∧
      RevokedInTurn userId guard handles before after := by
  induction hrevoked with
  | exhausted =>
    exact ⟨[], handlesRevoked_nil, fun _ hhandle => absurd hhandle List.not_mem_nil, rfl,
      le_rfl, .inr rfl⟩
  | done hnone =>
    refine ⟨[], handlesRevoked_nil, fun _ hhandle => absurd hhandle List.not_mem_nil, rfl,
      Nat.zero_le _, .inl ?_⟩
    exact List.countP_eq_zero.mpr fun row hrow => List.find?_eq_none.mp hnone row hrow
  | @next guard before middle after row hrow hdevice hrest ih =>
    have hmem := List.mem_of_find?_eq_some hrow
    have hactive := List.find?_some hrow
    have hone := hdevice.handlesRevoked
    have hsucc := activeDevices_succ hnodup hmem hactive hone
    obtain ⟨handles, hmore, hturn⟩ := ih (hone.handles ▸ hnodup)
    refine ⟨row.handle :: handles, hone.append hmore, ?_, ?_, ?_, ?_⟩
    · refine List.forall_mem_cons.mpr ⟨⟨row, hmem, rfl, by simpa using hactive⟩, ?_⟩
      exact fun handle hhandle => hone.active_of_active (hturn.active handle hhandle)
    · have := hturn.counted
      rw [List.length_cons]
      omega
    · exact Nat.succ_le_succ hturn.bounded
    · exact hturn.ended.imp_right (congrArg Nat.succ)

/-- The tables after a recovery code was spent and the devices of some handles were revoked. -/
def recovered (tables : Tables) (codeId : ℕ) (ticket : TicketRow) (handles : List Bytes) : Tables :=
  { ((tables.spendRecoveryCode codeId ticket.userId ticket.issuedAt).setRecovery ticket.userId
      (fun _ => 0) fun _ => 0).revokeHandles handles ticket.issuedAt with
    enrollTickets := tables.enrollTickets ++ [ticket] }

variable {ticketHash : StoreHash} {expiresAt : ℤ}

/-- Spending a code with `revoke=all`, as a whole. -/
theorem CodeSpent.closed
    (hspent : CodeSpent prims codeId userId ticketHash now expiresAt true before after)
    (hnodup : (before.devices.map DeviceRow.handle).Nodup) :
    ∃ handles added,
      RevokedInTurn userId 1024 handles before (before.revokeHandles handles now) ∧
      revokedIn added = handles.map some ∧
      after =
        { before.recovered codeId ⟨ticketHash, userId, now, expiresAt, none⟩ handles with
          audit := before.audit ++ added } := by
  obtain ⟨ticketed, revoked, hticketed, hrevoked, rfl⟩ := hspent.written
  obtain rfl := (insertTicket_eq_some hticketed).2
  have hall : DevicesRevoked prims userId now 1024 _ revoked := hrevoked
  obtain ⟨handles, ⟨added, hevents, rfl⟩, hturn⟩ := hall.inTurn hnodup
  refine ⟨handles, added ++ [_], ⟨hturn.active, hturn.counted, hturn.bounded, hturn.ended⟩, ?_,
    Tables.ext rfl rfl rfl rfl rfl rfl rfl (List.append_assoc _ _ _)⟩
  rw [revokedIn_append, hevents]
  exact List.append_nil _

/-! ## Locking a user out -/

/-- The rows of all users but one, the audit log aside. -/
def ofOthers (tables : Tables) (userId : Bytes) : Tables where
  users := tables.users.filter fun row => row.userId ≠ userId
  devices := tables.devices.filter fun row => row.userId ≠ userId
  deviceKeys := tables.deviceKeys.filter fun row => !tables.deviceOwnedBy row.handle userId
  loginCodes := tables.loginCodes.filter fun row => row.userId ≠ userId
  tokens := tables.tokens.filter fun row => row.userId ≠ userId
  recoveryCodes := tables.recoveryCodes.filter fun row => row.userId ≠ userId
  enrollTickets := tables.enrollTickets.filter fun row => row.userId ≠ userId
  audit := []

/-- A user is left without an active device, an active key or a token, nobody else's rows have
changed, and the audit log reports every device that was active as revoked, each once. -/
structure LockedOut (userId : Bytes) (before after : Tables) : Prop where
  devices : ∀ handle, ¬after.ActiveDevice userId handle
  keys : ∀ row ∈ after.deviceKeys, after.deviceOwnedBy row.handle userId = true →
    row.status ≠ .active
  tokens : ∀ row ∈ after.tokens, row.userId ≠ userId
  others : after.ofOthers userId = before.ofOthers userId
  audit : ∃ added, after.audit = before.audit ++ added ∧
    (revokedIn added).Perm ((before.devices.filter fun row =>
      row.userId = userId && row.status = .active).map fun row => some row.handle)

/-- The loop reaches everything of a user: there are no more active devices than its guard, the
tokens of the user are those of the active devices, and so are the active keys. -/
structure WithinReach (userId : Bytes) (tables : Tables) : Prop where
  devices : tables.activeDevices userId ≤ 1024
  keys : ∀ row ∈ tables.deviceKeys, row.status = .active →
    tables.deviceOwnedBy row.handle userId = true → tables.ActiveDevice userId row.handle
  tokens : ∀ row ∈ tables.tokens, row.userId = userId ↔ tables.ActiveDevice userId row.handle

instance (tables : Tables) (userId handle : Bytes) :
    Decidable (tables.ActiveDevice userId handle) :=
  inferInstanceAs (Decidable (∃ row ∈ tables.devices,
    row.handle = handle ∧ row.userId = userId ∧ row.status = .active))

instance (userId : Bytes) (tables : Tables) : Decidable (WithinReach userId tables) :=
  decidable_of_iff (tables.activeDevices userId ≤ 1024 ∧
      (∀ row ∈ tables.deviceKeys, row.status = .active →
        tables.deviceOwnedBy row.handle userId = true → tables.ActiveDevice userId row.handle) ∧
      ∀ row ∈ tables.tokens, row.userId = userId ↔ tables.ActiveDevice userId row.handle)
    ⟨fun h => ⟨h.1, h.2.1, h.2.2⟩, fun h => ⟨h.devices, h.keys, h.tokens⟩⟩

theorem activeDevices_eq_zero_iff :
    before.activeDevices userId = 0 ↔ ∀ handle, ¬before.ActiveDevice userId handle := by
  refine List.countP_eq_zero.trans ⟨?_, ?_⟩
  · rintro hnone handle ⟨row, hrow, -, huser, hstatus⟩
    exact hnone row hrow (by simp [huser, hstatus])
  intro hnone row hrow hactive
  exact hnone row.handle ⟨row, hrow, rfl, by simpa using hactive⟩

theorem deviceOwnedBy_revokeHandles {tables : Tables} :
    (tables.revokeHandles handles now).deviceOwnedBy handle userId =
      tables.deviceOwnedBy handle userId := by
  have hfound : (tables.revokeHandles handles now).deviceOf handle =
      (tables.deviceOf handle).map fun row =>
        if decide (row.handle ∈ handles) then row.recovered now else row :=
    find?_updateWhere fun _ => rfl
  unfold deviceOwnedBy
  rw [hfound, Option.any_map]
  congr 1
  funext row
  split <;> rfl

theorem ActiveDevice.owned (hactive : before.ActiveDevice userId handle)
    (hnodup : (before.devices.map DeviceRow.handle).Nodup) :
    before.deviceOwnedBy handle userId = true := by
  obtain ⟨row, hrow, rfl, huser, -⟩ := hactive
  have hfound : before.deviceOf row.handle = some row := by
    cases hother : before.deviceOf row.handle with
    | none => exact absurd (decide_eq_true rfl) (List.find?_eq_none.mp hother row hrow)
    | some =>
      exact congrArg some (eq_of_key hnodup (List.mem_of_find?_eq_some hother) hrow
        (handle_of_deviceOf hother))
  unfold deviceOwnedBy
  rw [hfound]
  exact decide_eq_true huser

/-- If revoking leaves nothing active, it reached every device that was. -/
theorem mem_of_activeDevices (hnone : (before.revokeHandles handles now).activeDevices userId = 0)
    (hactive : before.ActiveDevice userId handle) : handle ∈ handles := by
  obtain ⟨row, hrow, rfl, huser, hstatus⟩ := hactive
  by_contra hmissed
  refine activeDevices_eq_zero_iff.mp hnone row.handle ⟨row, ?_, rfl, huser, hstatus⟩
  exact List.mem_map.mpr ⟨row, hrow, if_neg (by simpa using hmissed)⟩

/-- Then it went through the active devices, one by one. -/
theorem RevokedInTurn.perm {guard : ℕ}
    (hturn : RevokedInTurn userId guard handles before (before.revokeHandles handles now))
    (hnodup : (before.devices.map DeviceRow.handle).Nodup)
    (hnone : (before.revokeHandles handles now).activeDevices userId = 0) :
    handles.Perm ((before.devices.filter fun row =>
      row.userId = userId && row.status = .active).map DeviceRow.handle) := by
  refine (List.Subperm.perm_of_length_le
    (List.subperm_of_subset ?_ fun handle hhandle => ?_) ?_).symm
  · exact hnodup.sublist (List.filter_sublist.map _)
  · obtain ⟨row, hrow, rfl⟩ := List.mem_map.mp hhandle
    obtain ⟨hrow, hactive⟩ := List.mem_filter.mp hrow
    exact mem_of_activeDevices hnone ⟨row, hrow, rfl, by simpa using hactive⟩
  · rw [List.length_map, ← List.countP_eq_length_filter]
    have hcounted := hturn.counted
    rw [hnone, Nat.zero_add] at hcounted
    exact hcounted.le

/-- Recovery of one user changes no row of another, except for tokens on the handles. -/
theorem ofOthers_recovered {ticket : TicketRow} {added : List AuditRow}
    (hnodup : (before.devices.map DeviceRow.handle).Nodup)
    (hactive : ∀ handle ∈ handles, before.ActiveDevice ticket.userId handle)
    (htokens : ∀ row ∈ before.tokens, row.handle ∈ handles → row.userId = ticket.userId) :
    ofOthers { before.recovered codeId ticket handles with audit := before.audit ++ added }
      ticket.userId = before.ofOthers ticket.userId := by
  have howned : ∀ handle ∈ handles, before.deviceOwnedBy handle ticket.userId = true :=
    fun handle hhandle => (hactive handle hhandle).owned hnodup
  refine Tables.ext ?_ ?_ ?_ rfl ?_ ?_ ?_ rfl
  · refine filter_updateWhere_of_disjoint ?_ ?_ <;> simp
  · have huser : ∀ row ∈ before.devices, row.handle ∈ handles → row.userId = ticket.userId := by
      intro row hrow hhandle
      obtain ⟨other, hother, hsame, huser, -⟩ := hactive row.handle hhandle
      exact eq_of_key hnodup hrow hother hsame.symm ▸ huser
    refine filter_updateWhere_of_disjoint ?_ ?_
    · intro row hrow hhandle
      simpa using huser row hrow (of_decide_eq_true hhandle)
    intro row hrow hhandle
    have hsame : (row.recovered ticket.issuedAt).userId = ticket.userId :=
      huser row hrow (of_decide_eq_true hhandle)
    simpa using hsame
  · have howners : ∀ row ∈ updateWhere (fun row : KeyRow => row.handle ∈ handles &&
        row.status = .active) (KeyRow.recovered ticket.issuedAt) before.deviceKeys,
        (!(before.revokeHandles handles ticket.issuedAt).deviceOwnedBy row.handle ticket.userId) =
          !before.deviceOwnedBy row.handle ticket.userId :=
      fun row _ => congrArg Bool.not deviceOwnedBy_revokeHandles
    refine (List.filter_congr howners).trans (filter_updateWhere_of_disjoint ?_ ?_)
    · intro row _ hcondition
      simp only [Bool.and_eq_true, decide_eq_true_eq] at hcondition
      simp [howned row.handle hcondition.1]
    intro row _ hcondition
    simp only [Bool.and_eq_true, decide_eq_true_eq] at hcondition
    simp [KeyRow.recovered, howned row.handle hcondition.1]
  · refine (List.filter_filter ..).trans (List.filter_congr fun row hrow => ?_)
    by_cases hhandle : row.handle ∈ handles
    · simp [htokens row hrow hhandle]
    · simp [hhandle]
  · refine filter_updateWhere_of_disjoint ?_ ?_ <;> simp
  · refine (List.filter_append ..).trans ?_
    simp [ofOthers]

/-- Spending a code with `revoke=all` locks the user out exactly if the loop reaches everything
of the user. -/
theorem CodeSpent.lockedOut_iff
    (hspent : CodeSpent prims codeId userId ticketHash now expiresAt true before after)
    (hnodup : (before.devices.map DeviceRow.handle).Nodup) :
    LockedOut userId before after ↔ WithinReach userId before := by
  obtain ⟨handles, added, hturn, hadded, rfl⟩ := hspent.closed hnodup
  have hcounted := hturn.counted
  have hbounded := hturn.bounded
  refine ⟨fun hout => ?_, fun hreach => ?_⟩
  · have hnone : (before.revokeHandles handles now).activeDevices userId = 0 :=
      activeDevices_eq_zero_iff.mpr hout.devices
    refine ⟨by omega, ?_, ?_⟩
    · intro row hrow hstatus howned
      by_contra hinactive
      have hkept : row.handle ∉ handles := fun hmem => hinactive (hturn.active _ hmem)
      refine hout.keys row (List.mem_map.mpr ⟨row, hrow, if_neg (by simp [hkept])⟩) ?_ hstatus
      exact deviceOwnedBy_revokeHandles.trans howned
    · intro row hrow
      refine ⟨fun huser => ?_, fun hactive => ?_⟩
      · by_contra hinactive
        refine hout.tokens row (List.mem_filter.mpr ⟨hrow, ?_⟩) huser
        exact decide_eq_true fun hmem => hinactive (hturn.active _ hmem)
      by_contra hother
      have hrow' : row ∈ (before.ofOthers userId).tokens :=
        List.mem_filter.mpr ⟨hrow, decide_eq_true hother⟩
      rw [← hout.others] at hrow'
      have hkept := (List.mem_filter.mp (List.mem_filter.mp hrow').1).2
      exact of_decide_eq_true hkept (mem_of_activeDevices hnone hactive)
  · have hnone : (before.revokeHandles handles now).activeDevices userId = 0 := by
      have := hreach.devices
      rcases hturn.ended with hnone | hlength
      · exact hnone
      · omega
    refine ⟨activeDevices_eq_zero_iff.mp hnone, ?_, ?_, ?_, added, rfl, ?_⟩
    · refine forall_updateWhere ?_ ?_
      · intro row hrow hkept howned hstatus
        have howned' : before.deviceOwnedBy row.handle userId = true :=
          deviceOwnedBy_revokeHandles.symm.trans howned
        have hmem := mem_of_activeDevices hnone (hreach.keys row hrow hstatus howned')
        simp [hmem, hstatus] at hkept
      · intro row _ _ _ hstatus
        cases hstatus
    · intro row hrow huser
      obtain ⟨hold, hkept⟩ := List.mem_filter.mp hrow
      exact of_decide_eq_true hkept (mem_of_activeDevices hnone ((hreach.tokens row hold).mp huser))
    · refine ofOthers_recovered hnodup hturn.active fun row hrow hmem => ?_
      exact (hreach.tokens row hrow).mpr (hturn.active _ hmem)
    · have hperm := (hturn.perm hnodup hnone).map some
      rwa [List.map_map, ← hadded] at hperm

end Tables

/-! ## The view of the handler -/

section View

variable {config : AuthdConfig} {env : LocalEnv} {nowUnix : ℤ}
  {isAdmin : Bool} {request : Request} {before after : Tables} {typed : Bytes}

theorem atomically_storeRecoveryLockState {now : ℤ} :
    Atomically before
      (fun value after => after = before ∧ ∃ user, before.userOf userId = some user ∧
        value = (decide (now < user.recoveryLockedUntil), user.recoveryLockedUntil))
      (storeRecoveryLockState userId now) := by
  refine .require_bind fun _ => .read_bind rfl ?_
  dsimp only
  split
  · exact .fail
  rename_i user huser
  exact .pure ⟨rfl, user, huser, rfl⟩

/-- A typed text opens a recovery code. -/
def RecoveryCodeRow.Opens (prims : DaemonPrimitives) (row : RecoveryCodeRow) (typed : Bytes) :
    Prop :=
  ∃ canonical, base32Normalize typed = some canonical ∧
    prims.pwhashVerify row.pwhashStr canonical = true

/-- A recovery code of a user that was not used yet. -/
structure Tables.UnusedCode (tables : Tables) (userId : Bytes) (row : RecoveryCodeRow) : Prop where
  there : row ∈ tables.recoveryCodes
  userId : row.userId = userId
  unused : row.usedAt = none

/-- What a search through the codes of a user has found. -/
def Tables.Matched (prims : DaemonPrimitives) (tables : Tables) (userId typed : Bytes) :
    Option ℕ → Prop
  | none => ∀ row, tables.UnusedCode userId row → ¬row.Opens prims typed
  | some codeId => ∃ row, tables.UnusedCode userId row ∧ row.codeId = codeId ∧ row.Opens prims typed

theorem matched_find {canonical : Bytes} (hcanonical : base32Normalize typed = some canonical)
    {rows : List RecoveryCodeRow} (hrows : ∀ row, row ∈ rows ↔ before.UnusedCode userId row) :
    before.Matched prims userId typed
      ((rows.find? fun row => prims.pwhashVerify row.pwhashStr canonical).map
        RecoveryCodeRow.codeId) := by
  cases hfound : rows.find? fun row => prims.pwhashVerify row.pwhashStr canonical with
  | none =>
    rintro row hrow ⟨other, hother, hopens⟩
    obtain rfl := Option.some.inj (hcanonical.symm.trans hother)
    exact List.find?_eq_none.mp hfound row ((hrows row).mpr hrow) hopens
  | some row =>
    have hrow := (hrows row).mp (List.mem_of_find?_eq_some hfound)
    have hopens : prims.pwhashVerify row.pwhashStr canonical = true :=
      @List.find?_some _ (fun row : RecoveryCodeRow =>
        prims.pwhashVerify row.pwhashStr canonical) _ _ hfound
    exact ⟨row, hrow, rfl, canonical, hcanonical, hopens⟩

theorem atomically_recoveryFindMatch :
    Atomically before
      (fun value after => after = before ∧ before.Matched prims userId typed value.1)
      (recoveryFindMatch prims userId typed) := by
  unfold recoveryFindMatch
  split
  · rename_i hnone
    refine .pure ⟨rfl, ?_⟩
    rintro row - ⟨canonical, hcanonical, -⟩
    rw [hnone] at hcanonical
    cases hcanonical
  · rename_i canonical hcanonical
    have hlisted : Atomically before
        (fun rows after => after = before ∧ ∀ row, row ∈ rows ↔ before.UnusedCode userId row)
        (storeListUnusedRecoveryCodes userId) := by
      refine .require_bind fun _ => .statement ⟨rfl, fun row => ?_⟩
      rw [List.mem_reverse, List.mem_filter, Bool.and_eq_true, decide_eq_true_eq,
        Option.isNone_iff_eq_none]
      exact ⟨fun h => ⟨h.1, h.2.1, h.2.2⟩, fun h => ⟨h.there, h.userId, h.unused⟩⟩
    refine hlisted.bind_return ?_
    rintro rows after ⟨rfl, hrows⟩
    refine ⟨rfl, ?_⟩
    dsimp only
    rw [head?_drop_takeWhile]
    exact matched_find hcanonical hrows

/-- A request that gets as far as the recovery codes: the user is there, active and not locked,
and may be recovered over this socket. -/
structure RecoveryAttempt (nowUnix : ℤ) (isAdmin : Bool) (request : Request) (before : Tables)
    (userId typed : Bytes) (revokeAll : Bool) (user : UserRow) : Prop where
  asksUser : request.getId (ascii "user") = some userId
  asksCode : request.kvGet (ascii "code") = some typed
  asksRevoke : revokeOption (request.kvGet (ascii "revoke")) = some revokeAll
  known : before.userOf userId = some user
  active : user.status = .active
  permitted : user.role = .user ∨ isAdmin = true
  unlocked : user.recoveryLockedUntil ≤ nowUnix

/-- The reply to a recovery that succeeded. -/
def recoveryReply (config : AuthdConfig) (env : LocalEnv) (nowUnix : ℤ) (userId : Bytes)
    (revokeAll : Bool) (tried : ℕ) : Reply where
  text := ascii "OK ticket=" ++ bin2hex env.ticket.toList ++ ascii " expires=" ++
    signedDecimal (nowUnix + config.ticketTtlS) ++ ascii "\n"
  kdfCalls := tried
  effect := if revokeAll then some (.devicesRevoked userId) else none

variable (prims : DaemonPrimitives) (config : AuthdConfig) (env : LocalEnv) (nowUnix : ℤ)
  (isAdmin : Bool) (request : Request) (before : Tables) in
/-- Every outcome of `h_recovery_use`. -/
inductive RecoveryUseView : Except Refusal Reply → Tables → Prop
  /-- no code was looked at -/
  | refused {refusal : Refusal} (hkdf : refusal.kdfCalls = 0) :
      RecoveryUseView (.error refusal) before
  /-- no code matched, and the failure was counted, unless counting it failed -/
  | rejected {userId typed : Bytes} {revokeAll : Bool} {user : UserRow} {tried : ℕ} {after : Tables}
      (hattempt : RecoveryAttempt nowUnix isAdmin request before userId typed revokeAll user)
      (hmatched : before.Matched prims userId typed none)
      (hnoted : after = before ∨ ∃ locked, Tables.FailureView prims userId nowUnix
        config.lockThreshold config.lockSeconds before locked after) :
      RecoveryUseView (.error { code := .invalid, kdfCalls := tried }) after
  /-- a code matched and could not be spent -/
  | unspent {userId typed : Bytes} {revokeAll : Bool} {user : UserRow} {codeId : ℕ}
      {refusal : Refusal}
      (hattempt : RecoveryAttempt nowUnix isAdmin request before userId typed revokeAll user)
      (hmatched : before.Matched prims userId typed (some codeId)) :
      RecoveryUseView (.error refusal) before
  | spent {userId typed : Bytes} {revokeAll : Bool} {user : UserRow} {codeId tried : ℕ}
      {after : Tables}
      (hattempt : RecoveryAttempt nowUnix isAdmin request before userId typed revokeAll user)
      (hmatched : before.Matched prims userId typed (some codeId))
      (hspent : Tables.CodeSpent prims codeId userId (prims.sha256 env.ticket.toList) nowUnix
        (nowUnix + config.ticketTtlS) revokeAll before after) :
      RecoveryUseView (.ok (recoveryReply config env nowUnix userId revokeAll tried)) after

theorem ends_recoveryUser_view :
    Ends before
      (fun outcome after => after = before ∧
        match outcome with
        | .ok _ => ∃ user, before.userOf userId = some user ∧ user.status = .active ∧
            (user.role = .user ∨ isAdmin = true)
        | .error refusal => refusal.kdfCalls = 0)
      (recoveryUser isAdmin userId) := by
  refine ends_call_bind atomically_storeGetUser (fun _ => ⟨rfl, rfl⟩) ?_
  rintro ⟨role, status⟩ after ⟨rfl, user, huser, hvalue⟩
  obtain ⟨rfl, rfl⟩ := Prod.mk.inj hvalue
  refine ends_check_bind ⟨rfl, rfl⟩ fun hactive => ?_
  cases hpermitted : decide (user.role = .user) || isAdmin with
  | false => exact .fail ⟨rfl, rfl⟩
  | true => exact .pure ⟨rfl, user, huser, of_decide_eq_true hactive, by simpa using hpermitted⟩

theorem hRecoveryUse_view :
    Ends before (RecoveryUseView prims config env nowUnix isAdmin request before)
      (hRecoveryUse prims config env nowUnix isAdmin request) := by
  refine ends_check_bind (.refused rfl) fun _ => ?_
  refine ends_field_bind (.refused rfl) fun userId huserId => ?_
  refine ends_field_bind (.refused rfl) fun typed htyped => ?_
  refine ends_field_bind (.refused rfl) fun revokeAll hrevokeAll => ?_
  refine ends_recoveryUser_view.bind ?_ ?_
  · rintro refusal after ⟨rfl, hkdf⟩
    exact .refused hkdf
  rintro ⟨⟩ after ⟨rfl, user, huser, hactive, hpermitted⟩
  refine ends_call_bind atomically_storeRecoveryLockState (fun _ => .refused rfl) ?_
  rintro ⟨locked, until_⟩ reached ⟨rfl, other, hother, hvalue⟩
  obtain rfl := Option.some.inj (huser.symm.trans hother)
  obtain ⟨rfl, rfl⟩ := Prod.mk.inj hvalue
  refine ends_check_bind (.refused rfl) fun hunlocked => ?_
  have hattempt : RecoveryAttempt nowUnix isAdmin request reached userId typed revokeAll user :=
    ⟨huserId, (Option.filter_eq_some_iff.mp htyped).1, hrevokeAll, huser, hactive, hpermitted,
      by simpa using hunlocked⟩
  refine ends_call_bind atomically_recoveryFindMatch (fun _ => .refused rfl) ?_
  rintro ⟨matched, tried⟩ found ⟨rfl, hmatched⟩
  cases matched with
  | none =>
    refine .mapStatus (ends_callAttempt_atomically atomically_storeRecoveryNoteFailure_view ?_ ?_)
    · exact fun _ => ends_refuse (.rejected hattempt hmatched (.inl rfl))
    exact fun locked after hnoted =>
      ends_refuse (.rejected hattempt hmatched (.inr ⟨locked, hnoted⟩))
  | some =>
    refine .mapStatus (ends_call_bind atomically_storeRecoveryConsumeEx ?_ ?_)
    · exact fun _ => .unspent hattempt hmatched
    · exact fun _ after hspent => .pure (.spent hattempt hmatched hspent)

/-- RECOVERY-USE is served by its handler on both sockets. -/
theorem handleLine_recoveryUse {nowMs : ℕ} {line : Bytes}
    (hparse : parseRequest line = some request) (hcmd : request.cmd = ascii "RECOVERY-USE") :
    handleLine prims config env nowMs nowUnix isAdmin line =
      hRecoveryUse prims config env nowUnix isAdmin request := by
  unfold handleLine handleRequest
  rw [hparse]
  dsimp only
  rw [hcmd]
  cases isAdmin <;> rfl

/-- A RECOVERY-USE with `revoke=all` that is answered OK locks the user out exactly if the loop
reaches everything of the user. Handles are the primary key of the devices. -/
theorem handleLine_lockedOut_iff {nowMs : ℕ} {line : Bytes} {conn : Connection Tables}
    {reply : Reply} (hparse : parseRequest line = some request)
    (hcmd : request.cmd = ascii "RECOVERY-USE") (huser : request.getId (ascii "user") = some userId)
    (hall : request.kvGet (ascii "revoke") = some (ascii "all"))
    (hok : (handleLine prims config env nowMs nowUnix isAdmin line conn).1 = .ok reply)
    (hnodup : (conn.tables.devices.map DeviceRow.handle).Nodup) :
    Tables.LockedOut userId conn.tables
        (handleLine prims config env nowMs nowUnix isAdmin line conn).2.tables ↔
      Tables.WithinReach userId conn.tables := by
  rw [handleLine_recoveryUse hparse hcmd] at hok ⊢
  have hview := (@hRecoveryUse_view prims config env nowUnix isAdmin request
    conn.tables).reached conn rfl
  generalize hRecoveryUse prims config env nowUnix isAdmin request conn = run at hview hok ⊢
  rw [hok] at hview
  generalize run.2.tables = after at hview ⊢
  cases hview with
  | spent hattempt hmatched hspent =>
    obtain rfl := Option.some.inj (huser.symm.trans hattempt.asksUser)
    have hrevoke := hattempt.asksRevoke
    rw [hall] at hrevoke
    obtain rfl := Option.some.inj hrevoke
    exact hspent.lockedOut_iff hnodup

end View

/-- A user with a device, a token for it and a recovery code. -/
def sampleEnrolled : List StoreCall :=
  [⟨.addUser (ascii "alice") .user 0, []⟩,
    ⟨.enrollDevice StoreOp.laptop 1, []⟩,
    ⟨.addToken ⟨blobOf 32 [3], ascii "alice", ascii "laptop", none, 4, 604, 304, none⟩, []⟩,
    ⟨.recoveryReplace (ascii "alice") [ascii "ABCDEFGHABCDEFGH"] 5, []⟩]

/-- The same, where the device was revoked before the login code was exchanged for the token. -/
def sampleStale : List StoreCall :=
  [⟨.addUser (ascii "alice") .user 0, []⟩,
    ⟨.enrollDevice StoreOp.laptop 1, []⟩,
    ⟨.addLoginCode ⟨blobOf 32 [1], ascii "alice", ascii "laptop", none, blobOf 32 [2], 2, 62, none⟩,
      []⟩,
    ⟨.revokeDevice (ascii "laptop") (ascii "local-api") none 3, []⟩,
    ⟨.consumeLoginCodeEx (blobOf 32 [1]) (blobOf 32 [2]) 4, []⟩,
    ⟨.addToken ⟨blobOf 32 [3], ascii "alice", ascii "laptop", none, 4, 604, 304, none⟩, []⟩,
    ⟨.recoveryReplace (ascii "alice") [ascii "ABCDEFGHABCDEFGH"] 5, []⟩]

/-- The store after some calls. -/
def storeAfter (calls : List StoreCall) : Connection Tables :=
  calls.foldl (storeMachine .sample).step freshStore

/-- The user recovers, and asks for all devices to be revoked. -/
def sampleRecovery : Bytes :=
  ascii "RECOVERY-USE user=616c696365 code=ABCDEFGHABCDEFGH revoke=all"

/-- That request, parsed. -/
def sampleRequest : Request where
  cmd := ascii "RECOVERY-USE"
  pairs := [(ascii "user", ascii "616c696365"), (ascii "code", ascii "ABCDEFGHABCDEFGH"),
    (ascii "revoke", ascii "all")]

/-- What comes of the recovery. -/
def recoveredAfter (calls : List StoreCall) : Except Refusal Reply × Connection Tables :=
  handleLine .sample sampleConfig (sampleServe 0 0).line 0 6 false sampleRecovery (storeAfter calls)

theorem handleLine_lockedOut_iff_sampleEnrolled :
    Tables.WithinReach (ascii "alice") (storeAfter sampleEnrolled).tables ∧
      Tables.LockedOut (ascii "alice") (storeAfter sampleEnrolled).tables
        (recoveredAfter sampleEnrolled).2.tables := by
  have hreach : Tables.WithinReach (ascii "alice") (storeAfter sampleEnrolled).tables := by
    decide +kernel
  have hreply : (recoveredAfter sampleEnrolled).1 =
      .ok (recoveryReply sampleConfig (sampleServe 0 0).line 6 (ascii "alice") true 1) := by
    decide +kernel
  have hparse : parseRequest sampleRecovery = some sampleRequest := by decide +kernel
  have huser : sampleRequest.getId (ascii "user") = some (ascii "alice") := by decide +kernel
  have hall : sampleRequest.kvGet (ascii "revoke") = some (ascii "all") := by decide +kernel
  have hnodup : ((storeAfter sampleEnrolled).tables.devices.map DeviceRow.handle).Nodup := by
    decide +kernel
  exact ⟨hreach, (handleLine_lockedOut_iff hparse rfl huser hall hreply hnodup).mpr hreach⟩

/-- The token of a device that had been revoked before outlives the recovery. -/
theorem token_left_sampleStale :
    Machine.Run (storeMachine .sample) freshStore sampleStale (storeAfter sampleStale) ∧
      (recoveredAfter sampleStale).1 =
        .ok (recoveryReply sampleConfig (sampleServe 0 0).line 6 (ascii "alice") true 1) ∧
      (∃ row ∈ (recoveredAfter sampleStale).2.tables.tokens, row.userId = ascii "alice") ∧
      ¬Tables.LockedOut (ascii "alice") (storeAfter sampleStale).tables
        (recoveredAfter sampleStale).2.tables := by
  have hleft : ∃ row ∈ (recoveredAfter sampleStale).2.tables.tokens,
      row.userId = ascii "alice" := by decide +kernel
  refine ⟨.of_allowed fun _ _ _ => trivial, by decide +kernel, hleft, fun hout => ?_⟩
  obtain ⟨row, hrow, huser⟩ := hleft
  exact hout.tokens row hrow huser

end MldsaAuth.Authd
