/-
# The sweep and what is accepted after it

The sweep deletes the tokens, login codes and enrollment tickets that have expired. A
store and the same store after a sweep differ in rows that no check accepts any more,
and no operation of the store brings such a row back to life. So the two stores, given
the same calls at later times, answer alike: the same tokens verify, the same login
codes are exchanged and the same tickets are redeemed. The two runs are compared
statement by statement, whichever statements fail. The hashes of the credentials that
are issued later are taken to be new, as hashes of random numbers are.
-/

import MldsaAuth.Authd.Store.StoreOp
import MldsaAuth.Foundation.Mirror
import MldsaAuth.Foundation.Shed

namespace MldsaAuth.Authd

open Foundation Crypto Foundation.Program Rows

/-- For each kind of credential, the hashes of those that are gone. -/
structure Gone where
  tokens : StoreHash → Bool
  codes : StoreHash → Bool
  tickets : StoreHash → Bool

variable {tables : Tables}

namespace Tables

/-- The tables without the credentials that are gone. -/
def shed (gone : Gone) (tables : Tables) : Tables :=
  { tables with
    tokens := Rows.shed TokenRow.tokenHash gone.tokens tables.tokens
    loginCodes := Rows.shed LoginCodeRow.codeHash gone.codes tables.loginCodes
    enrollTickets := Rows.shed TicketRow.ticketHash gone.tickets tables.enrollTickets }

/-- What is gone had expired at a time. -/
def Lapsed (time : ℤ) (gone : Gone) (tables : Tables) : Prop :=
  (∀ row ∈ tables.tokens, gone.tokens row.tokenHash = true →
      row.expiresAt ≤ time ∨ row.idleExpiresAt ≤ time) ∧
    (∀ row ∈ tables.loginCodes, gone.codes row.codeHash = true → row.expiresAt ≤ time) ∧
    ∀ row ∈ tables.enrollTickets, gone.tickets row.ticketHash = true → row.expiresAt ≤ time

/-- The second tables are the first ones without some credentials that had expired. -/
def Sheds (time : ℤ) (gone : Gone) (first second : Tables) : Prop :=
  first.Lapsed time gone ∧ second = first.shed gone

/-- The hashes of credentials are primary keys. -/
structure CredentialsKeyed (tables : Tables) : Prop where
  tokens : (tables.tokens.map TokenRow.tokenHash).Nodup
  codes : (tables.loginCodes.map LoginCodeRow.codeHash).Nodup
  tickets : (tables.enrollTickets.map TicketRow.ticketHash).Nodup

/-- What a sweep deletes. -/
def lapsing (tables : Tables) (now : ℤ) : Gone where
  tokens wanted := tables.tokens.any fun row =>
    decide (row.tokenHash = wanted) && (row.expiresAt ≤ now || row.idleExpiresAt ≤ now)
  codes wanted := tables.loginCodes.any fun row =>
    decide (row.codeHash = wanted) && decide (row.expiresAt ≤ now)
  tickets wanted := tables.enrollTickets.any fun row =>
    decide (row.ticketHash = wanted) && decide (row.expiresAt ≤ now)

/-- A sweep sheds what has expired. -/
theorem sheds_swept (hkeyed : tables.CredentialsKeyed) (now : ℤ) :
    Sheds now (tables.lapsing now) tables (tables.swept now) := by
  refine ⟨⟨?_, ?_, ?_⟩, ?_⟩
  · intro row hrow hgone
    obtain ⟨other, hother, hmeets⟩ := List.any_eq_true.mp hgone
    simp only [Bool.and_eq_true, decide_eq_true_eq, Bool.or_eq_true] at hmeets
    exact eq_of_key hkeyed.tokens hother hrow hmeets.1 ▸ hmeets.2
  · intro row hrow hgone
    obtain ⟨other, hother, hmeets⟩ := List.any_eq_true.mp hgone
    simp only [Bool.and_eq_true, decide_eq_true_eq] at hmeets
    exact eq_of_key hkeyed.codes hother hrow hmeets.1 ▸ hmeets.2
  · intro row hrow hgone
    obtain ⟨other, hother, hmeets⟩ := List.any_eq_true.mp hgone
    simp only [Bool.and_eq_true, decide_eq_true_eq] at hmeets
    exact eq_of_key hkeyed.tickets hother hrow hmeets.1 ▸ hmeets.2
  · ext1
    case tokens => exact filter_eq_shed hkeyed.tokens
    case loginCodes => exact filter_eq_shed hkeyed.codes
    case enrollTickets => exact filter_eq_shed hkeyed.tickets
    all_goals rfl

end Tables

/-! ## Statements -/

variable {change : Tables → Tables} {event : Bytes} {time : ℤ} {gone : Gone}

section Statements

variable {Value : Type}

/-- Two programs end alike on tables and on what is left of them without credentials that had
expired. -/
abbrev Alike (time : ℤ) (gone : Gone) (same : Value → Value → Prop)
    (program : StoreProgram Value) : Prop :=
  Mirrored (Tables.Sheds time gone) same program program

theorem alike_query {read : Tables → Value} (hread : read ∘ Tables.shed gone = read) :
    Alike time gone Eq (query read) := by
  refine .statement ?_
  rintro left _ ⟨hlapsed, rfl⟩
  exact ⟨(congrFun hread left).symm, hlapsed, rfl⟩

theorem alike_exec (hchange : change ∘ Tables.shed gone = Tables.shed gone ∘ change)
    (hlapsed : ∀ tables : Tables, tables.Lapsed time gone → (change tables).Lapsed time gone) :
    Alike time gone Eq (exec change) := by
  refine .statement ?_
  rintro left _ ⟨hleft, rfl⟩
  exact ⟨rfl, hlapsed left hleft, congrFun hchange left⟩

theorem alike_execCount {count : Tables → ℕ} {same : ℕ → ℕ → Prop}
    (hcount : ∀ tables, same (count tables) (count (tables.shed gone)))
    (hchange : change ∘ Tables.shed gone = Tables.shed gone ∘ change)
    (hlapsed : ∀ tables : Tables, tables.Lapsed time gone → (change tables).Lapsed time gone) :
    Alike time gone same (execCount change count) := by
  refine .statement ?_
  rintro left _ ⟨hleft, rfl⟩
  exact ⟨hcount left, hlapsed left hleft, congrFun hchange left⟩

/-- An insertion of a row that nothing on record stands against. -/
theorem alike_insert {barred : Tables → Bool} {next : Tables → Tables}
    (hbarred : barred ∘ Tables.shed gone = barred)
    (hnext : next ∘ Tables.shed gone = Tables.shed gone ∘ next)
    (hlapsed : ∀ tables : Tables, tables.Lapsed time gone → (next tables).Lapsed time gone) :
    Alike time gone Eq
      (insert fun tables => if barred tables then none else some (next tables)) := by
  refine .statement ?_
  rintro left _ ⟨hleft, rfl⟩
  dsimp only
  rw [show barred (left.shed gone) = barred left from congrFun hbarred left]
  cases barred left with
  | true => exact ⟨rfl, hleft, rfl⟩
  | false => exact ⟨rfl, hlapsed left hleft, congrFun hnext left⟩

theorem alike_auditAppend (prims : DaemonPrimitives) {userId handle : Option Bytes} {detail : Bytes}
    {now : ℤ} : Alike time gone Eq (auditAppend prims event userId handle detail now) := by
  have hhead : Alike time gone Eq auditHead := by
    refine .bind_eq (alike_query rfl) fun last => ?_
    cases last with
    | none => exact .pure rfl
    | some => exact .bind_eq .require fun _ => .bind_eq .require fun _ => .pure rfl
  refine .bind_eq hhead fun found => ?_
  dsimp only
  split
  · exact .fail _
  · exact alike_exec rfl fun _ h => h

end Statements

/-! ## Operations that know nothing of credentials -/

variable {handle : Bytes}

section Accounts

variable (prims : DaemonPrimitives)

theorem alike_addUserLocked (userId : Bytes) (role : StoreRole) (now : ℤ) :
    Alike time gone Eq (addUserLocked prims userId role now) :=
  .bind_eq (alike_insert rfl rfl fun _ h => h) fun _ => .bind_eq .require fun _ =>
    alike_auditAppend prims

theorem alike_insertDevice {row : DeviceRow} :
    Alike time gone Eq (insert fun tables => tables.insertDevice row) :=
  alike_insert rfl rfl fun _ h => h

theorem alike_insertKey {pk : SigPublicKey} {pkFp : StoreHash} {now : ℤ} :
    Alike time gone Eq (insert fun tables => tables.insertKey handle pk pkFp now) :=
  alike_insert rfl rfl fun _ h => h

theorem alike_enrollDeviceLocked (enrollment : Enrollment) (now : ℤ) :
    Alike time gone Eq (enrollDeviceLocked prims enrollment now) := by
  refine .bind_eq (alike_query rfl) fun current => ?_
  cases current with
  | some key =>
    show Alike time gone Eq (enrollKnownHandle prims enrollment key now)
    unfold enrollKnownHandle
    split
    · exact .bind_eq (alike_query rfl) fun _ => .pure rfl
    · exact .bind_eq (alike_auditAppend prims) fun _ => .pure rfl
  | none =>
    refine .bind_eq (alike_query rfl) fun used => ?_
    split
    · exact .pure rfl
    refine .bind_eq alike_insertDevice fun deviceAdded => ?_
    split
    · refine .bind_eq alike_insertKey fun keyAdded => ?_
      split
      · exact .bind_eq (alike_auditAppend prims) fun _ => .pure rfl
      · exact .pure rfl
    · exact .pure rfl

theorem alike_storeAddUser (userId : Bytes) (role : StoreRole) (now : ℤ) :
    Alike time gone Eq (storeAddUser prims userId role now) :=
  .bind_eq .require fun _ => .transaction
    (.bind_eq (alike_addUserLocked prims userId role now) fun _ => .pure rfl)

theorem alike_storeEnrollDevice (enrollment : Enrollment) (now : ℤ) :
    Alike time gone Eq (storeEnrollDevice prims enrollment now) := by
  refine .bind_eq .require fun _ => .transaction
    (.bind_eq (alike_enrollDeviceLocked prims enrollment now) fun outcome => ?_)
  cases outcome with
  | enrolled | idempotent | conflict => exact .pure rfl

theorem alike_storeEnrollDeviceEx (enrollment : Enrollment) (role : StoreRole) (now later : ℤ) :
    Alike time gone Eq (storeEnrollDeviceEx prims enrollment role now later) := by
  refine .bind_eq .require fun _ => .transaction (.bind_eq (alike_query rfl) fun _ =>
    .bind_eq (.onlyIf (alike_addUserLocked prims _ role now)) fun _ =>
      .bind_eq (alike_enrollDeviceLocked prims enrollment later) fun outcome => ?_)
  cases outcome with
  | enrolled | idempotent => exact .pure rfl
  | conflict => exact .fail _

theorem alike_storeTouchLastSeen (handle : Bytes) (now : ℤ) :
    Alike time gone Eq (storeTouchLastSeen handle now) :=
  .bind_eq .require fun _ => alike_exec rfl fun _ h => h

theorem alike_insertRecoveryCodes {userId : Bytes} {now : ℤ} {pwhashStrs : List Bytes} :
    Alike time gone Eq (insertRecoveryCodes userId now pwhashStrs) := by
  induction pwhashStrs with
  | nil => exact .pure rfl
  | cons pwhashStr rest ih =>
    exact .bind_eq (alike_exec rfl fun _ h => h) fun _ => ih

theorem alike_storeRecoveryReplace (userId : Bytes) (pwhashStrs : List Bytes) (now : ℤ) :
    Alike time gone Eq (storeRecoveryReplace prims userId pwhashStrs now) :=
  .bind_eq .require fun _ => .transaction (.bind_eq (alike_query rfl) fun _ =>
    .bind_eq .require fun _ =>
      .bind_eq (alike_execCount (fun _ => rfl) rfl fun _ h => h) fun _ =>
        .bind_eq alike_insertRecoveryCodes fun _ =>
          .bind_eq (alike_auditAppend prims) fun _ => .pure rfl)

theorem alike_storeRecoveryNoteFailure (userId : Bytes) (now : ℤ) (threshold : ℕ)
    (lockSeconds : ℤ) :
    Alike time gone Eq (storeRecoveryNoteFailure prims userId now threshold lockSeconds) := by
  refine .bind_eq .require fun _ => .transaction (.bind_eq
    (alike_execCount (fun _ => rfl) rfl fun _ h => h) fun _ =>
      .bind_eq .require fun _ => .bind_eq (alike_query rfl) fun found => ?_)
  cases found with
  | none => exact .fail _
  | some =>
    dsimp only
    split
    · exact .bind_eq (.bind_eq (alike_exec rfl fun _ h => h) fun _ =>
        alike_auditAppend prims) fun _ => .pure rfl
    · exact .bind_eq (alike_auditAppend prims) fun _ => .pure rfl

end Accounts

/-! ## Operations that drop tokens -/

variable {condition : TokenRow → Bool} {dropTokens : Bool}

section Dropping

variable (prims : DaemonPrimitives)

theorem Tables.shed_deleteTokens (condition : TokenRow → Bool) (tables : Tables) :
    (tables.shed gone).deleteTokens condition = (tables.deleteTokens condition).shed gone :=
  Tables.ext rfl rfl rfl rfl shed_filter.symm rfl rfl rfl

theorem Tables.Lapsed.deleteTokens (hlapsed : tables.Lapsed time gone)
    (condition : TokenRow → Bool) : (tables.deleteTokens condition).Lapsed time gone :=
  ⟨fun row hrow => hlapsed.1 row (List.mem_filter.mp hrow).1, hlapsed.2⟩

theorem alike_deleteTokens :
    Alike time gone Eq (exec fun tables => tables.deleteTokens condition) :=
  alike_exec (funext (Tables.shed_deleteTokens condition)) fun _ h => h.deleteTokens condition

/-- How many tokens are dropped is all that a sweep before may change. -/
theorem alike_deleteTokensWhere : Alike time gone (fun _ _ => True) (deleteTokensWhere condition) :=
  alike_execCount (fun _ => trivial) (funext (Tables.shed_deleteTokens condition))
    fun _ h => h.deleteTokens condition

theorem alike_storeSetUserStatus (userId : Bytes) {status : UserStatus} {«by» : Bytes}
    {reason : Option Bytes} {now : ℤ} :
    Alike time gone Eq (storeSetUserStatus prims userId status «by» reason dropTokens event now) :=
  .bind_eq .require fun _ => .transaction (.bind_eq
    (alike_execCount (fun _ => rfl) rfl fun _ h => h) fun _ =>
      .bind_eq .require fun _ => .bind_eq (.onlyIf alike_deleteTokens) fun _ =>
        .bind_eq (alike_auditAppend prims) fun _ => .pure rfl)

theorem alike_dropHandleTokens :
    Alike time gone (fun _ _ => True) (dropHandleTokens handle dropTokens) := by
  unfold dropHandleTokens
  split
  · exact alike_deleteTokensWhere
  · exact .pure trivial

theorem alike_userOfHandle : Alike time gone Eq (userOfHandle handle) := by
  refine .bind_eq (alike_query rfl) fun device => ?_
  cases device with
  | none => exact .fail _
  | some => exact .bind_eq .require fun _ => .pure rfl

variable {rotation : Rotation} {now : ℤ}

theorem alike_replaceKey : Alike time gone (fun _ _ => True) (replaceKey prims rotation now) := by
  refine .bind_eq (alike_query rfl) fun _ => .bind_eq .require fun _ =>
    .bind_eq (alike_query rfl) fun found => ?_
  cases found with
  | none => exact .fail _
  | some =>
    exact .bind_eq .require fun _ => .bind_eq .require fun _ =>
      .bind_eq (alike_query rfl) fun _ => .bind_eq .require fun _ =>
        .bind_eq (alike_exec rfl fun _ h => h) fun _ =>
          .bind_eq alike_insertKey fun _ => .bind_eq .require fun _ => alike_dropHandleTokens

theorem alike_storeRotateKey :
    Alike time gone (fun _ _ => True) (storeRotateKey prims rotation now) := by
  refine .bind_eq .require fun _ => .transaction (.bind (alike_replaceKey prims) fun _ _ _ => ?_)
  refine .bind alike_userOfHandle.attempt fun user other hagree => ?_
  rw [hagree.eq]
  exact .bind_eq (alike_auditAppend prims) fun _ => .pure trivial

theorem alike_revokeDeviceLocked (handle «by» : Bytes) (reason : Option Bytes) (now : ℤ) :
    Alike time gone Eq (revokeDeviceLocked prims handle «by» reason now) :=
  .bind_eq (alike_execCount (fun _ => rfl) rfl fun _ h => h) fun _ =>
    .bind_eq .require fun _ =>
      .bind_eq (alike_exec rfl fun _ h => h) fun _ =>
        .bind_eq alike_deleteTokens fun _ => alike_auditAppend prims

theorem alike_storeRevokeDevice (handle «by» : Bytes) (reason : Option Bytes) (now : ℤ) :
    Alike time gone Eq (storeRevokeDevice prims handle «by» reason now) :=
  .bind_eq .require fun _ => .transaction
    (.bind_eq (alike_revokeDeviceLocked prims handle «by» reason now) fun _ => .pure rfl)

theorem alike_revokeAllDevices (userId : Bytes) (now : ℤ) (guard : ℕ) :
    Alike time gone Eq (revokeAllDevices prims userId now guard) := by
  induction guard with
  | zero => exact .pure rfl
  | succ guard ih =>
    refine .bind_eq (alike_query rfl) fun found => ?_
    cases found with
    | none => exact .pure rfl
    | some =>
      exact .bind_eq .require fun _ => .bind_eq (alike_revokeDeviceLocked prims _ _ _ _)
        fun _ => .bind_eq ih fun _ => .pure rfl

theorem alike_storeSweep (now : ℤ) : Alike time gone (fun _ _ => True) (storeSweep now) := by
  have hcodes : Alike time gone (fun _ _ => True)
      (execCount (fun tables => tables.sweepLoginCodes now)
        fun tables => tables.loginCodes.countP fun row => row.expiresAt ≤ now) :=
    alike_execCount (fun _ => trivial)
      (funext fun _ => Tables.ext rfl rfl rfl shed_filter.symm rfl rfl rfl rfl)
      fun _ hlapsed =>
        ⟨hlapsed.1, fun row hrow => hlapsed.2.1 row (List.mem_filter.mp hrow).1, hlapsed.2.2⟩
  have htickets : Alike time gone (fun _ _ => True)
      (execCount (fun tables => tables.sweepTickets now)
        fun tables => tables.enrollTickets.countP fun row => row.expiresAt ≤ now) :=
    alike_execCount (fun _ => trivial)
      (funext fun _ => Tables.ext rfl rfl rfl rfl rfl rfl shed_filter.symm rfl)
      fun _ hlapsed =>
        ⟨hlapsed.1, hlapsed.2.1, fun row hrow => hlapsed.2.2 row (List.mem_filter.mp hrow).1⟩
  exact .transaction (.bind alike_deleteTokensWhere fun _ _ _ =>
    .bind hcodes fun _ _ _ => .bind htickets fun _ _ _ => .pure trivial)

end Dropping

/-! ## Operations on credentials -/

variable {now : ℤ} {ticketHash tokenHash : StoreHash}

section Credentials

variable (prims : DaemonPrimitives)

theorem alike_storeAddToken {row : TokenRow} (hkept : gone.tokens row.tokenHash = false) :
    Alike time gone Eq (storeAddToken row) := by
  refine .bind_eq .require fun _ => .transaction (.bind_eq (alike_insert ?_ ?_ ?_) fun _ =>
    .bind_eq .require fun _ => .pure rfl)
  · exact funext fun _ => any_shed fun other hother => of_decide_eq_true hother ▸ hkept
  · exact funext fun _ => Tables.ext rfl rfl rfl rfl (shed_concat hkept).symm rfl rfl rfl
  · exact fun _ hlapsed => ⟨forall_gone_concat hlapsed.1 hkept, hlapsed.2⟩

theorem alike_storeAddLoginCode {row : LoginCodeRow} (hkept : gone.codes row.codeHash = false) :
    Alike time gone Eq (storeAddLoginCode row) := by
  refine .bind_eq .require fun _ => .transaction (.bind_eq (alike_insert ?_ ?_ ?_) fun _ =>
    .bind_eq .require fun _ => .pure rfl)
  · exact funext fun _ => any_shed fun other hother => of_decide_eq_true hother ▸ hkept
  · exact funext fun _ => Tables.ext rfl rfl rfl (shed_concat hkept).symm rfl rfl rfl rfl
  · exact fun _ hlapsed => ⟨hlapsed.1, forall_gone_concat hlapsed.2.1 hkept, hlapsed.2.2⟩

theorem alike_insertTicket {row : TicketRow} (hkept : gone.tickets row.ticketHash = false) :
    Alike time gone Eq (insert fun tables => tables.insertTicket row) := by
  refine alike_insert ?_ ?_ ?_
  · exact funext fun _ => any_shed fun other hother => of_decide_eq_true hother ▸ hkept
  · exact funext fun _ => Tables.ext rfl rfl rfl rfl rfl rfl (shed_concat hkept).symm rfl
  · exact fun _ hlapsed => ⟨hlapsed.1, hlapsed.2.1, forall_gone_concat hlapsed.2.2 hkept⟩

theorem alike_storeRecoveryConsumeEx (codeId : ℕ) (userId : Bytes)
    (hkept : gone.tickets ticketHash = false) (now expiresAt : ℤ) (revokeAll : Bool) :
    Alike time gone Eq
      (storeRecoveryConsumeEx prims codeId userId ticketHash now expiresAt revokeAll) := by
  have hrevoke : Alike time gone Eq (revokeDevicesIf prims userId now revokeAll) := by
    unfold revokeDevicesIf
    split
    · exact alike_revokeAllDevices prims userId now 1024
    · exact .pure rfl
  exact .bind_eq .require fun _ => .transaction (.bind_eq
    (alike_execCount (fun _ => rfl) rfl fun _ h => h) fun _ =>
      .bind_eq .require fun _ =>
        .bind_eq (alike_exec rfl fun _ h => h) fun _ =>
          .bind_eq (alike_insertTicket hkept) fun _ => .bind_eq .require fun _ =>
            .bind_eq hrevoke fun _ => .bind_eq (alike_auditAppend prims) fun _ =>
              .pure rfl)

theorem alike_slideToken (hkept : gone.tokens tokenHash = false) (now idle : ℤ) :
    Alike time gone Eq (exec fun tables => tables.slideToken tokenHash now idle) := by
  refine alike_exec (funext fun tables => ?_) fun tables hlapsed => ?_
  · have hhash : ∀ row : TokenRow,
        { row with lastVerifiedAt := some now, idleExpiresAt := idle }.tokenHash =
          row.tokenHash := fun _ => rfl
    exact Tables.ext rfl rfl rfl rfl (shed_updateWhere hhash).symm rfl rfl rfl
  · refine ⟨forall_updateWhere (fun row hrow _ => hlapsed.1 row hrow) ?_, hlapsed.2⟩
    intro row hrow hmatch hgone
    have hstays : gone.tokens row.tokenHash = false := of_decide_eq_true hmatch ▸ hkept
    rw [hstays] at hgone
    cases hgone

theorem alike_spendTicket (hkept : gone.tickets ticketHash = false) (now : ℤ) :
    Alike time gone Eq (execCount (fun tables => tables.spendTicket ticketHash now) fun tables =>
        tables.enrollTickets.countP fun other =>
          other.ticketHash = ticketHash && other.usedAt.isNone) := by
  refine alike_execCount (fun tables => ?_) (funext fun tables => ?_) fun tables hlapsed => ?_
  · refine (countP_shed fun row hmeets => ?_).symm
    simp only [Bool.and_eq_true, decide_eq_true_eq] at hmeets
    exact hmeets.1 ▸ hkept
  · have hhash : ∀ row : TicketRow,
        { row with usedAt := some now }.ticketHash = row.ticketHash := fun _ => rfl
    exact Tables.ext rfl rfl rfl rfl rfl rfl (shed_updateWhere hhash).symm rfl
  · exact ⟨hlapsed.1, hlapsed.2.1, forall_updateWhere
      (fun row hrow _ => hlapsed.2.2 row hrow) fun row hrow _ => hlapsed.2.2 row hrow⟩

theorem alike_useLoginCode {codeHash : StoreHash} :
    Alike time gone Eq (exec fun tables => tables.useLoginCode codeHash now) := by
  refine alike_exec (funext fun tables => ?_) fun tables hlapsed => ?_
  · have hhash : ∀ row : LoginCodeRow,
        { row with usedAt := some now }.codeHash = row.codeHash := fun _ => rfl
    exact Tables.ext rfl rfl rfl (shed_updateWhere hhash).symm rfl rfl rfl rfl
  exact ⟨hlapsed.1, forall_updateWhere (fun row hrow _ => hlapsed.2.1 row hrow)
    fun row hrow _ => hlapsed.2.1 row hrow, hlapsed.2.2⟩

/-- A token that is gone is unknown to the store that was swept, and expired to the other. -/
theorem Tables.Lapsed.tokenJoin (hlapsed : tables.Lapsed time gone) (hlater : time ≤ now)
    (hgone : gone.tokens tokenHash = true) :
    (tables.shed gone).tokenJoin tokenHash = none ∧
      ∀ join, tables.tokenJoin tokenHash = some join → join.verdict now ≠ .ok := by
  constructor
  · have hfind : ((tables.shed gone).tokens.find? fun row => row.tokenHash = tokenHash) = none :=
      find?_shed_eq_none fun row hrow => of_decide_eq_true hrow ▸ hgone
    unfold Tables.tokenJoin
    rw [hfind]
    rfl
  · intro join hjoin
    obtain ⟨row, hrow, rfl⟩ := Option.map_eq_some_iff.mp hjoin
    have hmatch := List.find?_some hrow
    have hexpired := hlapsed.1 row (List.mem_of_find?_eq_some hrow)
      (of_decide_eq_true hmatch ▸ hgone)
    unfold TokenJoin.verdict
    dsimp only
    split_ifs with hdevice huser hexpires hidle
    · exact TokenVerdict.noConfusion
    · exact TokenVerdict.noConfusion
    · exact TokenVerdict.noConfusion
    · exact TokenVerdict.noConfusion
    · omega

/-- A token that is gone had expired, so at a later time it verifies on neither side. -/
theorem alike_storeVerifyToken (hlater : time ≤ now) (tokenHash : StoreHash) (idleTtl : ℕ) :
    Alike time gone (fun first second => decide (first.1 = .ok) = decide (second.1 = .ok))
      (storeVerifyToken tokenHash now idleTtl) := by
  cases hgone : gone.tokens tokenHash with
  | false =>
    have hjoin : ∀ tables : Tables,
        (tables.shed gone).tokenJoin tokenHash = tables.tokenJoin tokenHash := by
      intro tables
      have hfind : ((tables.shed gone).tokens.find? fun row => row.tokenHash = tokenHash) =
          tables.tokens.find? fun row => row.tokenHash = tokenHash :=
        find?_shed fun row hrow => of_decide_eq_true hrow ▸ hgone
      unfold Tables.tokenJoin
      rw [hfind]
      rfl
    refine .bind_eq (alike_query (funext hjoin)) fun found => ?_
    cases found with
    | none => exact .pure rfl
    | some =>
      dsimp only
      split
      · exact .bind_eq (alike_slideToken hgone now _) fun _ => .pure rfl
      · exact .pure rfl
  | true =>
    have hread : Alike time gone
        (fun found known => known = none ∧
          ∀ join, found = some join → TokenJoin.verdict join now ≠ .ok)
        (query fun tables => tables.tokenJoin tokenHash) := by
      refine .statement ?_
      rintro left _ ⟨hlapsed, rfl⟩
      exact ⟨hlapsed.tokenJoin hlater hgone, hlapsed, rfl⟩
    refine .bind hread ?_
    rintro found _ ⟨rfl, hdead⟩
    cases found with
    | none => exact .pure rfl
    | some join =>
      dsimp only
      rw [if_neg (hdead join rfl)]
      exact .pure (by simp [hdead join rfl])

/-- Whether a call that has ended has accepted what it was given. -/
def acceptedBy {Value : Type} (good : Value → Bool) (outcome : Except StoreStatus Value) : Bool :=
  outcome.toOption.any good

/-- A login code that is gone had expired, so at a later time neither side exchanges it. One may
fail where the other does not know the code: the ids of a row are checked before its times. -/
theorem alike_storeConsumeLoginCodeEx (hlater : time ≤ now) (codeHash stateHash : StoreHash) :
    Alike time gone
      (fun first second => acceptedBy (fun result => result.1 = .ok) first =
        acceptedBy (fun result => result.1 = .ok) second)
      (storeConsumeLoginCodeEx codeHash stateHash now).attempt := by
  cases hgone : gone.codes codeHash with
  | false =>
    have hread : Alike time gone Eq (query fun tables =>
        tables.loginCodes.find? fun row => row.codeHash = codeHash) :=
      alike_query <| funext fun _ =>
        find?_shed fun row hrow => of_decide_eq_true hrow ▸ hgone
    have hsame : Alike time gone Eq (storeConsumeLoginCodeEx codeHash stateHash now) := by
      refine .transaction (.bind_eq hread fun found => ?_)
      cases found with
      | none => exact .pure rfl
      | some =>
        refine .bind_eq .require fun _ => .bind_eq .require fun _ => ?_
        split_ifs
        · exact .pure rfl
        · exact .pure rfl
        · exact .pure rfl
        · exact .bind_eq alike_useLoginCode fun _ => .pure rfl
    exact hsame.attempt.mono fun _ _ hagree => by rw [hagree.eq]
  | true =>
    have hread : Alike time gone
        (fun found known => known = none ∧
          ∀ row : LoginCodeRow, found = some row → row.expiresAt ≤ now)
        (query fun tables => tables.loginCodes.find? fun row => row.codeHash = codeHash) := by
      refine .statement ?_
      rintro left _ ⟨hlapsed, rfl⟩
      refine ⟨⟨?_, fun row hrow => ?_⟩, hlapsed, rfl⟩
      · exact find?_shed_eq_none fun row hrow => of_decide_eq_true hrow ▸ hgone
      have hmatch := List.find?_some hrow
      have hexpired := hlapsed.2.1 row (List.mem_of_find?_eq_some hrow)
        (of_decide_eq_true hmatch ▸ hgone)
      omega
    refine .transaction_undone rfl (.bind_attempt hread (fun _ => ⟨rfl, trivial, trivial⟩) ?_)
    rintro found _ ⟨rfl, hexpired⟩
    cases found with
    | none => exact .pure ⟨rfl, trivial, trivial⟩
    | some row =>
      cases huser : decide (row.userId.length ≤ storeIdMax) with
      | false =>
        simp only [huser]
        exact fun _ _ hmirrors => ⟨⟨rfl, trivial, trivial⟩, hmirrors⟩
      | true =>
        cases hhandle : decide (row.handle.length ≤ storeIdMax) with
        | false =>
          simp only [huser, hhandle]
          exact fun _ _ hmirrors => ⟨⟨rfl, trivial, trivial⟩, hmirrors⟩
        | true =>
          simp only [huser, hhandle, if_pos (hexpired row rfl)]
          cases row.usedAt.isSome with
          | true | false => exact fun _ _ hmirrors => ⟨⟨rfl, trivial, trivial⟩, hmirrors⟩

/-- A ticket that is gone had expired, so at a later time neither side finds it. -/
theorem alike_storeEnrollViaTicket (hlater : time ≤ now) (ticketHash : StoreHash)
    (expectUser handle : Bytes) (pk : SigPublicKey) (label : Option Bytes) :
    Alike time gone Eq (storeEnrollViaTicket prims ticketHash expectUser handle pk label now) := by
  refine .bind_eq .require fun _ => .transaction ?_
  cases hgone : gone.tickets ticketHash with
  | true =>
    have hread : Alike time gone (fun found known => found = none ∧ known = none)
        (query fun tables => tables.enrollTickets.find? fun row =>
          row.ticketHash = ticketHash && row.usedAt.isNone && decide (now < row.expiresAt)) := by
      refine .statement ?_
      rintro left _ ⟨hlapsed, rfl⟩
      refine ⟨⟨List.find?_eq_none.mpr fun row hrow hmeets => ?_, ?_⟩, hlapsed, rfl⟩
      · simp only [Bool.and_eq_true, decide_eq_true_eq] at hmeets
        have hexpired := hlapsed.2.2 row hrow (hmeets.1.1 ▸ hgone)
        omega
      refine find?_shed_eq_none fun row hmeets => ?_
      simp only [Bool.and_eq_true, decide_eq_true_eq] at hmeets
      exact hmeets.1.1 ▸ hgone
    refine .bind hread ?_
    rintro _ _ ⟨rfl, rfl⟩
    exact .fail _
  | false =>
    have hmatch : ∀ row : TicketRow, row.ticketHash = ticketHash →
        gone.tickets row.ticketHash = false := fun row hrow => hrow ▸ hgone
    refine .bind_eq (alike_query <| funext fun _ => find?_shed fun row hmeets => ?_) fun found => ?_
    · simp only [Bool.and_eq_true, decide_eq_true_eq] at hmeets
      exact hmatch row hmeets.1.1
    cases found with
    | none => exact .fail _
    | some =>
      refine .bind_eq .require fun _ => .bind_eq .require fun _ =>
        .bind_eq (alike_query rfl) fun user => ?_
      cases user with
      | none => exact .fail _
      | some =>
        refine .bind_eq .require fun _ => .bind_eq (alike_spendTicket hgone now) fun _ =>
          .bind_eq .require fun _ =>
            .bind_eq (alike_enrollDeviceLocked prims _ now) fun outcome => ?_
        cases outcome with
        | enrolled | idempotent => exact .pure rfl
        | conflict => exact .fail _

end Credentials

/-! ## Any calls after a sweep -/

namespace StoreOp

variable (prims : DaemonPrimitives)

/-- The readings of the wall clock a call takes. -/
def readings : StoreOp → List ℤ
  | addUser _ _ now => [now]
  | disableUser _ _ _ now => [now]
  | enableUser _ _ now => [now]
  | enrollDevice _ now => [now]
  | enrollDeviceEx _ _ now later => [now, later]
  | enrollViaTicket _ _ _ _ _ now => [now]
  | rotateKey _ now => [now]
  | revokeDevice _ _ _ now => [now]
  | touchLastSeen _ now => [now]
  | addToken _ => []
  | verifyToken _ now _ => [now]
  | deleteToken _ => []
  | deleteTokensForHandle _ _ => []
  | deleteTokensForUser _ => []
  | addLoginCode _ => []
  | consumeLoginCodeEx _ _ now => [now]
  | recoveryReplace _ _ now => [now]
  | recoveryConsumeEx _ _ _ now _ _ => [now]
  | recoveryNoteFailure _ now _ _ => [now]
  | sweep now => [now]

/-- The hash of a credential that a call issues is none of those on record. -/
def IssuesNew (tables : Tables) : StoreOp → Prop
  | addToken row => ∀ other ∈ tables.tokens, other.tokenHash ≠ row.tokenHash
  | addLoginCode row => ∀ other ∈ tables.loginCodes, other.codeHash ≠ row.codeHash
  | recoveryConsumeEx _ _ ticketHash _ _ _ =>
    ∀ other ∈ tables.enrollTickets, other.ticketHash ≠ ticketHash
  | _ => True

/-- Whether a program's outcome is that the call was accepted. -/
def accepting {Value : Type} (program : StoreProgram Value) (good : Value → Bool) :
    StoreProgram Bool := do
  let outcome ← program.attempt
  return acceptedBy good outcome

/-- Run a call and say whether it was accepted: it succeeded and, for a token or a login code,
the verdict is `ok`. -/
def accepted : StoreOp → StoreProgram Bool
  | verifyToken tokenHash now idleTtl =>
    accepting (storeVerifyToken tokenHash now idleTtl) fun result => result.1 = .ok
  | consumeLoginCodeEx codeHash stateHash now =>
    accepting (storeConsumeLoginCodeEx codeHash stateHash now) fun result => result.1 = .ok
  | op => accepting (op.run prims) fun _ => true

/-- Which of the calls in a row are accepted. -/
def acceptances : List StoreOp → Connection Tables → List Bool
  | [], _ => []
  | op :: rest, conn =>
    acceptedBy id (op.accepted prims conn).1 :: acceptances rest (op.accepted prims conn).2

variable {prims}

theorem alike_accepting {Value : Type} {same : Value → Value → Prop} {good : Value → Bool}
    {program : StoreProgram Value} (hprogram : Alike time gone same program)
    (hgood : ∀ first second, same first second → good first = good second) :
    Alike time gone Eq (accepting program good) := by
  refine .bind hprogram.attempt fun first second hagree => .pure ?_
  match first, second, hagree with
  | .ok value, .ok other, hsame => exact hgood value other hsame
  | .error _, .error _, _ => rfl

/-- A hash that is on no row is not among those that lapse. -/
theorem not_lapsing {Row : Type} {rows : List Row} {hash : Row → StoreHash} {wanted : StoreHash}
    {expired : Row → Bool} (hnew : ∀ other ∈ rows, hash other ≠ wanted) :
    (rows.any fun row => decide (hash row = wanted) && expired row) = false := by
  rw [List.any_eq_false]
  intro row hrow hmeets
  rw [Bool.and_eq_true, decide_eq_true_eq] at hmeets
  exact hnew row hrow hmeets.1

/-- Each call is accepted or not alike, with and without what a sweep deletes, and leaves
stores that differ in no more than that. -/
theorem alike_accepted {op : StoreOp} (hlater : ∀ now ∈ op.readings, time ≤ now)
    (hnew : op.IssuesNew tables) : Alike time (tables.lapsing time) Eq (op.accepted prims) := by
  cases op with
  | addUser userId role now =>
    exact alike_accepting (alike_storeAddUser prims userId role now) fun _ _ _ => rfl
  | disableUser | enableUser =>
    exact alike_accepting (alike_storeSetUserStatus prims _) fun _ _ _ => rfl
  | enrollDevice enrollment now =>
    exact alike_accepting (alike_storeEnrollDevice prims enrollment now) fun _ _ _ => rfl
  | enrollDeviceEx enrollment role now later =>
    exact alike_accepting (alike_storeEnrollDeviceEx prims enrollment role now later).ignoring
      fun _ _ _ => rfl
  | enrollViaTicket ticketHash expectUser handle pk label now =>
    exact alike_accepting (alike_storeEnrollViaTicket prims
      (hlater now List.mem_cons_self) ticketHash expectUser handle pk label) fun _ _ _ => rfl
  | rotateKey =>
    exact alike_accepting (alike_storeRotateKey prims).ignoring fun _ _ _ => rfl
  | revokeDevice handle «by» reason now =>
    exact alike_accepting (alike_storeRevokeDevice prims handle «by» reason now) fun _ _ _ => rfl
  | touchLastSeen handle now =>
    exact alike_accepting (alike_storeTouchLastSeen handle now) fun _ _ _ => rfl
  | addToken =>
    exact alike_accepting (alike_storeAddToken (not_lapsing hnew)) fun _ _ _ => rfl
  | verifyToken tokenHash now idleTtl =>
    exact alike_accepting (alike_storeVerifyToken (hlater now List.mem_cons_self) tokenHash
      idleTtl) fun _ _ hsame => hsame
  | deleteToken =>
    exact alike_accepting alike_deleteTokensWhere.ignoring fun _ _ _ => rfl
  | deleteTokensForHandle | deleteTokensForUser =>
    exact alike_accepting (Mirrored.bind_eq .require fun _ => alike_deleteTokensWhere).ignoring
      fun _ _ _ => rfl
  | addLoginCode =>
    exact alike_accepting (alike_storeAddLoginCode (not_lapsing hnew)) fun _ _ _ => rfl
  | consumeLoginCodeEx codeHash stateHash now =>
    exact .bind (alike_storeConsumeLoginCodeEx (hlater now List.mem_cons_self) codeHash
      stateHash) fun _ _ hsame => .pure hsame
  | recoveryReplace userId pwhashStrs now =>
    exact alike_accepting (alike_storeRecoveryReplace prims userId pwhashStrs now).ignoring
      fun _ _ _ => rfl
  | recoveryConsumeEx codeId userId ticketHash now expiresAt revokeAll =>
    exact alike_accepting (alike_storeRecoveryConsumeEx prims codeId userId (not_lapsing hnew)
      now expiresAt revokeAll).ignoring fun _ _ _ => rfl
  | recoveryNoteFailure userId now threshold lockSeconds =>
    exact alike_accepting
      (alike_storeRecoveryNoteFailure prims userId now threshold lockSeconds).ignoring
        fun _ _ _ => rfl
  | sweep now => exact alike_accepting (alike_storeSweep now).ignoring fun _ _ _ => rfl

/-- Calls in a row are accepted alike on connections that differ in what a sweep deletes. -/
theorem acceptances_eq_of_mirrors {ops : List StoreOp}
    (hlater : ∀ op ∈ ops, ∀ now ∈ op.readings, time ≤ now) (hnew : ∀ op ∈ ops, op.IssuesNew tables)
    {left right : Connection Tables}
    (hmirrors : left.Mirrors (Tables.Sheds time (tables.lapsing time)) right) :
    acceptances prims ops right = acceptances prims ops left := by
  induction ops generalizing left right with
  | nil => rfl
  | cons op rest ih =>
    have hstep : Alike time (tables.lapsing time) Eq (op.accepted prims) :=
      alike_accepted (hlater op List.mem_cons_self) (hnew op List.mem_cons_self)
    obtain ⟨hagree, hreached⟩ := hstep left right hmirrors
    unfold acceptances
    rw [hagree.eq, ih (fun other hother => hlater other (List.mem_cons_of_mem op hother))
      (fun other hother => hnew other (List.mem_cons_of_mem op hother)) hreached]

end StoreOp

/-- A sweep decides no later acceptance: whatever calls follow, at the time of the sweep or
later, those that verify a token, exchange a login code or redeem a ticket are accepted exactly
when they would have been without the sweep, and so is every other call. Statements of the sweep
and of the calls may fail, at the same places with and without the sweep. -/
theorem sweep_decides_no_acceptance (prims : DaemonPrimitives) {swept later : ℤ}
    (htimes : swept ≤ later) {tables : Tables} (hkeyed : tables.CredentialsKeyed)
    (sweepFaults faults : List Bool) {ops : List StoreOp}
    (hlater : ∀ op ∈ ops, ∀ now ∈ op.readings, later ≤ now)
    (hnew : ∀ op ∈ ops, op.IssuesNew tables) :
    StoreOp.acceptances prims ops
        ⟨(storeSweep swept ⟨tables, none, sweepFaults⟩).2.tables, none, faults⟩ =
      StoreOp.acceptances prims ops ⟨tables, none, faults⟩ := by
  have hsweep := (atomically_storeSweep swept).reached ⟨tables, none, sweepFaults⟩ rfl
  generalize storeSweep swept ⟨tables, none, sweepFaults⟩ = run at hsweep ⊢
  obtain ⟨outcome, reached⟩ := run
  cases outcome with
  | error => rw [show reached.tables = tables from hsweep]
  | ok counts =>
    refine StoreOp.acceptances_eq_of_mirrors
      (fun op hop now hnow => htimes.trans (hlater op hop now hnow)) hnew
      ⟨?_, .none, rfl⟩
    show Tables.Sheds swept (tables.lapsing swept) tables reached.tables
    rw [show reached.tables = tables.swept swept from hsweep]
    exact Tables.sheds_swept hkeyed swept

/-- A store with one user and two tokens, of which the first expires at ten. -/
def sampleSweepable : Tables where
  users := [Tables.newUser [1] .user 0]
  devices := [Tables.newDevice ⟨[2], [1], Blob.zero 1952, [], [], none⟩ 0]
  deviceKeys := []
  loginCodes := []
  tokens := [10, 50].map fun expiresAt =>
    { tokenHash := blobOf 32 [UInt8.ofNat expiresAt]
      userId := [1]
      handle := [2]
      handshakeId := none
      issuedAt := 0
      expiresAt := expiresAt
      idleExpiresAt := expiresAt
      lastVerifiedAt := none }
  recoveryCodes := []
  enrollTickets := []
  audit := []

/-- Swept at twenty, the sample refuses its first token at thirty and accepts its second one, as
it would have done anyway. -/
theorem sweep_decides_no_acceptance_sampleSweepable : let ops : List StoreOp :=
      [.verifyToken (blobOf 32 [10]) 30 5, .verifyToken (blobOf 32 [50]) 30 5, .sweep 40,
        .verifyToken (blobOf 32 [50]) 41 5]
    (sampleSweepable.swept 20).tokens.length = 1 ∧
      StoreOp.acceptances .sample ops ⟨sampleSweepable, none, []⟩ = [false, true, true, false] ∧
      StoreOp.acceptances .sample ops
          ⟨(storeSweep 20 ⟨sampleSweepable, none, []⟩).2.tables, none, []⟩ =
        StoreOp.acceptances .sample ops ⟨sampleSweepable, none, []⟩ :=
  ⟨by decide, by decide, @sweep_decides_no_acceptance .sample 20 30 (by decide) sampleSweepable
    ⟨by decide, by decide, by decide⟩ [] [] _ (by decide) (by simp [StoreOp.IssuesNew])⟩

end MldsaAuth.Authd
