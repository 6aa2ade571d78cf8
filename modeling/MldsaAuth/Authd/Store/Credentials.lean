/-
# Login codes and tokens under the operations of the store

The operations on accounts leave login codes alone. Tokens they leave alone or drop,
those of a device that is revoked or rotated and those of a user who is disabled; they
never add one or change one. Only the exchange of a login code and the verification of
a token do that.
-/

import MldsaAuth.Authd.Store.Effects

namespace MldsaAuth.Authd

open Foundation Crypto

variable {drops : TokenRow → Prop} {role : StoreRole} {pk : SigPublicKey} {enrollment : Enrollment}
  {ticketHash : StoreHash} {«by» : Bytes} {reason : Option Bytes} {dropTokens : Bool}

namespace Tables

variable {before middle after : Tables} {prims : DaemonPrimitives} {userId handle : Bytes} {now : ℤ}

/-- Login codes and tokens are as they were. -/
structure SameCredentials (before after : Tables) : Prop where
  codes : after.loginCodes = before.loginCodes
  tokens : after.tokens = before.tokens

/-- Login codes are as they were, and tokens too, but for some that were dropped. -/
structure Retains (drops : TokenRow → Prop) (before after : Tables) : Prop where
  codes : after.loginCodes = before.loginCodes
  tokens : List.Sublist after.tokens before.tokens
  dropped : ∀ row ∈ after.tokens, ¬ drops row

theorem SameCredentials.trans (hfirst : SameCredentials before middle)
    (hsecond : SameCredentials middle after) : SameCredentials before after :=
  ⟨hsecond.codes.trans hfirst.codes, hsecond.tokens.trans hfirst.tokens⟩

theorem SameCredentials.retains (hsame : SameCredentials before after) :
    Retains (fun _ => False) before after :=
  ⟨hsame.codes, hsame.tokens ▸ List.Sublist.refl _, fun _ _ => id⟩

theorem Retains.trans {more : TokenRow → Prop} (hfirst : Retains drops before middle)
    (hsecond : Retains more middle after) :
    Retains (fun row => drops row ∨ more row) before after where
  codes := hsecond.codes.trans hfirst.codes
  tokens := hsecond.tokens.trans hfirst.tokens
  dropped row hrow := by
    rintro (hdrops | hmore)
    · exact hfirst.dropped row (hsecond.tokens.subset hrow) hdrops
    · exact hsecond.dropped row hrow hmore

theorem Retains.mono {fewer : TokenRow → Prop} (hretains : Retains drops before after)
    (hfewer : ∀ row, fewer row → drops row) : Retains fewer before after :=
  ⟨hretains.codes, hretains.tokens, fun row hrow hdrops =>
    hretains.dropped row hrow (hfewer row hdrops)⟩

theorem retains_deleteTokens {condition : TokenRow → Bool} :
    Retains (fun row => condition row = true) before (before.deleteTokens condition) where
  codes := rfl
  tokens := List.filter_sublist
  dropped row hrow := by simpa using (List.mem_filter.mp hrow).2

/-! ## Enrollment and recovery -/

theorem UserAdded.credentials (hadded : UserAdded prims userId role now before after) :
    SameCredentials before after := by
  obtain ⟨added, hinsert, rfl⟩ := hadded
  obtain rfl := (insertUser_eq_some hinsert).2
  exact ⟨rfl, rfl⟩

theorem credentials_insertDevice {row : DeviceRow}
    (hinsert : before.insertDevice row = some after) : SameCredentials before after := by
  obtain rfl := (insertDevice_eq_some hinsert).2.2
  exact ⟨rfl, rfl⟩

theorem credentials_insertKey {pkFp : StoreHash}
    (hinsert : before.insertKey handle pk pkFp now = some after) :
    SameCredentials before after := by
  obtain rfl := (insertKey_eq_some hinsert).2.2
  exact ⟨rfl, rfl⟩

theorem credentials_insertTicket {row : TicketRow}
    (hinsert : before.insertTicket row = some after) : SameCredentials before after := by
  obtain rfl := (insertTicket_eq_some hinsert).2
  exact ⟨rfl, rfl⟩

theorem DeviceEnrolled.credentials (henrolled : DeviceEnrolled prims enrollment now before after) :
    SameCredentials before after := by
  obtain ⟨added, keyed, hadded, hkeyed, rfl⟩ := henrolled.written
  exact ((credentials_insertDevice hadded).trans (credentials_insertKey hkeyed)).trans ⟨rfl, rfl⟩

theorem EnrolledEx.credentials {later : ℤ} {idempotent : Bool}
    (henrolled : EnrolledEx prims enrollment role now later before idempotent after) :
    SameCredentials before after := by
  unfold EnrolledEx at henrolled
  split at henrolled
  · rw [henrolled]
    exact ⟨rfl, rfl⟩
  obtain ⟨ready, ⟨-, rfl⟩ | hadded, hdevice⟩ := henrolled
  · exact hdevice.credentials
  · exact hadded.credentials.trans hdevice.credentials

theorem TicketRedeemed.credentials {label : Option Bytes}
    (hredeemed : TicketRedeemed prims ticketHash userId handle pk label now before after) :
    SameCredentials before after := by
  obtain rfl | ⟨-, hdevice⟩ := hredeemed
  · exact ⟨rfl, rfl⟩
  · exact ⟨hdevice.credentials.codes, hdevice.credentials.tokens⟩

theorem credentials_insertRecoveryCodes (start : Tables) (userId : Bytes) (now : ℤ)
    (pwhashStrs : List Bytes) :
    SameCredentials start (start.insertRecoveryCodes userId now pwhashStrs) := by
  induction pwhashStrs generalizing start with
  | nil => exact ⟨rfl, rfl⟩
  | cons pwhashStr rest ih =>
    have hrest := ih (start.insertRecoveryCode userId pwhashStr now)
    exact ⟨hrest.codes, hrest.tokens⟩

theorem CodesReplaced.credentials {pwhashStrs : List Bytes}
    (hreplaced : CodesReplaced prims userId pwhashStrs now before after) :
    SameCredentials before after := by
  rw [hreplaced.written]
  have hinserted := credentials_insertRecoveryCodes (before.supersedeRecoveryCodes userId now)
    userId now pwhashStrs
  exact ⟨hinserted.codes, hinserted.tokens⟩

theorem FailureNoted.credentials {lockSeconds : ℤ} {locked : Bool}
    (hnoted : FailureNoted prims userId now lockSeconds before locked after) :
    SameCredentials before after := by
  unfold FailureNoted at hnoted
  split at hnoted
  · exact hnoted ▸ ⟨rfl, rfl⟩
  · exact hnoted ▸ ⟨rfl, rfl⟩

/-! ## Revocation and rotation -/

theorem DeviceRevoked.retains (hrevoked : DeviceRevoked prims handle «by» reason now before after) :
    Retains (fun row => row.handle = handle) before after := by
  rw [hrevoked.written]
  refine ⟨rfl, List.filter_sublist, fun row hrow => ?_⟩
  simpa using (List.mem_filter.mp hrow).2

theorem DevicesRevoked.retains {guard : ℕ}
    (hrevoked : DevicesRevoked prims userId now guard before after) :
    Retains (fun _ => False) before after := by
  induction hrevoked with
  | exhausted | done => exact SameCredentials.retains ⟨rfl, rfl⟩
  | next _ hdevice _ ih => exact (hdevice.retains.trans ih).mono fun _ hnever => hnever.elim

theorem CodeSpent.retains {codeId : ℕ} {expiresAt : ℤ} {revokeAll : Bool}
    (hspent : CodeSpent prims codeId userId ticketHash now expiresAt revokeAll before after) :
    Retains (fun _ => False) before after := by
  obtain ⟨ticketed, revoked, hticketed, hrevoked, rfl⟩ := hspent.written
  have hinserted := credentials_insertTicket hticketed
  have hstart : SameCredentials before ticketed := ⟨hinserted.codes, hinserted.tokens⟩
  cases revokeAll with
  | true =>
    have hall : DevicesRevoked prims userId now 1024 ticketed revoked := hrevoked
    have hretains : Retains (fun _ => False) before revoked :=
      (hstart.retains.trans hall.retains).mono fun _ => False.elim
    exact ⟨hretains.codes, hretains.tokens, hretains.dropped⟩
  | false =>
    obtain rfl : revoked = ticketed := hrevoked
    exact ⟨hstart.codes, hstart.retains.tokens, fun _ _ => id⟩

theorem StatusSet.retains {status : UserStatus} {event : Bytes}
    (hset : StatusSet prims userId status «by» reason dropTokens event now before after) :
    Retains (fun row => dropTokens = true ∧ row.userId = userId) before after := by
  rw [hset.written]
  unfold dropUserTokens
  cases dropTokens with
  | true =>
    refine ⟨rfl, List.filter_sublist, ?_⟩
    rintro row hrow ⟨-, huser⟩
    exact (by simpa using (List.mem_filter.mp hrow).2 : row.userId ≠ userId) huser
  | false => exact ⟨rfl, List.Sublist.refl _, fun _ _ hdrops => Bool.noConfusion hdrops.1⟩

theorem KeyRotated.retains {rotation : Rotation} {current : KeyRow}
    (hrotated : KeyRotated prims rotation now current before after) :
    Retains (fun row => rotation.dropTokens = true ∧ row.handle = rotation.handle) before
      after := by
  obtain ⟨keyed, user, hkeyed, rfl⟩ := hrotated.written
  have hsame := credentials_insertKey hkeyed
  cases rotation.dropTokens with
  | true =>
    refine ⟨hsame.codes, List.filter_sublist.trans (hsame.tokens ▸ List.Sublist.refl _), ?_⟩
    rintro row hrow ⟨-, hhandle⟩
    exact (by simpa using (List.mem_filter.mp hrow).2 : row.handle ≠ rotation.handle) hhandle
  | false =>
    exact ⟨hsame.codes, hsame.tokens ▸ List.Sublist.refl _, fun _ _ hdrops =>
      Bool.noConfusion hdrops.1⟩

end Tables

end MldsaAuth.Authd
