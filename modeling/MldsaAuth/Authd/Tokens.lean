/-
# Tokens are accepted while they are good

A verification that answers OK for a token rests on the history of the token: an
exchange has returned it, for the user and the handle of a login; nothing has deleted
it since; and it was used often enough. The history is read off the log. Every token of
the store can be traced to the exchange that minted it, and the row of the store agrees
with what the log says about the time since.

The idle window is slid by the lifetime of the user's role, and a token is minted with
the lifetimes of the role that the exchange has looked up. They are the same role when
no statement of the store fails.
-/

import MldsaAuth.Authd.Exchange
import MldsaAuth.Authd.TokenSteps

namespace MldsaAuth.Authd

open Foundation Crypto Protocol Tables Machine

variable (prims : DaemonPrimitives)

/-- The times at which a token was found good, in their order. -/
def useTimes (tokenHash : StoreHash) (entries : List LogEntry) : List ℤ :=
  entries.filterMap (LogEntry.useOf prims tokenHash)

/-- A row was minted, and was not deleted since; `paced` is what is known about the time since. -/
structure MintedSince (paced : Minted → List LogEntry → TokenRow → Prop) (row : TokenRow)
    (origin : LogEntry) (later : List LogEntry) : Prop where
  minted : ∃ minted, origin = .api (.tokenMinted minted) ∧
    row.SameToken (mintedRow prims minted) ∧
    (idOk minted.userId && idOk minted.handle) = true ∧
    minted.expiresAt = minted.issuedAt + tokensTtlS minted.role ∧ paced minted later row
  undeleted : ∀ entry ∈ later, ¬ entry.Deletes prims row

/-- The times of use are closer to each other than the idle lifetime, and so is the end of the
idle window to the last of them. -/
structure Steady (minted : Minted) (later : List LogEntry) (row : TokenRow) : Prop where
  gaps : List.IsChain (fun first second : ℤ => second < first + tokensIdleTtlS minted.role)
    (minted.issuedAt :: useTimes prims row.tokenHash later)
  window : ∀ last ∈ (minted.issuedAt :: useTimes prims row.tokenHash later).getLast?,
    row.idleExpiresAt ≤ last + tokensIdleTtlS minted.role

variable {minted : Minted} {later : List LogEntry} {row : TokenRow} {slotCount localCount : ℕ}
  {shared : Shared} {events : List LoopEvent} {handle : Bytes} {old : TokenRow} {now : ℤ}
  {condition : Daemon → LoopEvent → Prop} {earlier : List LogEntry}

namespace Daemon

variable {prims : DaemonPrimitives} {config : AuthdConfig} {daemon before after : Daemon}
  {event : LoopEvent}

/-! ## Tracing tokens -/

/-- Token hashes are unique, and every token of the store can be traced to its exchange. -/
structure TokensTraced (prims : DaemonPrimitives)
    (paced : Minted → List LogEntry → TokenRow → Prop) (daemon : Daemon) : Prop where
  unique : (daemon.tables.tokens.map TokenRow.tokenHash).Nodup
  traced : ∀ row ∈ daemon.tables.tokens, Traced (MintedSince prims paced row) daemon.log

/-- What is known about the time since a token was minted goes on holding when the token is kept
or used, and holds when it is minted. -/
structure Paces (prims : DaemonPrimitives) (daemon : Daemon)
    (paced : Minted → List LogEntry → TokenRow → Prop) : Prop where
  kept : ∀ minted later new old row, paced minted later old → row.SameToken old →
    row.idleExpiresAt = old.idleExpiresAt →
    (∀ entry ∈ new, entry.useOf prims old.tokenHash = none) → paced minted (later ++ new) row
  used : ∀ minted later old row verified, .api (.tokenMinted minted) ∈ daemon.log →
    old.SameToken (mintedRow prims minted) → paced minted later old → row.SameToken old →
    prims.sha256 verified.token.toList = old.tokenHash → verified.at_ = daemon.now →
    daemon.tables.TokenGood old verified.role daemon.now →
    row.idleExpiresAt ≤ daemon.now + tokensIdleTtlS verified.role →
    paced minted (later ++ [.api (.tokenVerified verified)]) row
  minted : ∀ minted, paced minted [] (mintedRow prims minted)

theorem TokensTraced.step {paced : Minted → List LogEntry → TokenRow → Prop}
    (htraced : before.TokensTraced prims paced) (hpaces : before.Paces prims paced)
    (hview : StepView prims config before event after) : after.TokensTraced prims paced := by
  obtain ⟨new, hlog, hmove⟩ := hview.tokens
  obtain ⟨hunique, hfate⟩ := hmove htraced.unique
  refine ⟨hunique, fun row hrow => ?_⟩
  rw [hlog]
  cases hfate row hrow with
  | @kept old hold hsame hidle hspared hunused =>
    refine (htraced.traced old hold).append fun origin later hsince => ?_
    obtain ⟨minted, horigin, hminted, hids, hexpires, hpaced⟩ := hsince.minted
    refine ⟨⟨minted, horigin, hsame.trans hminted, hids, hexpires,
      hpaces.kept minted later new old row hpaced hsame hidle hunused⟩, ?_⟩
    intro entry hentry hdeletes
    rw [hsame.deletes_iff] at hdeletes
    exact (List.mem_append.mp hentry).elim (hsince.undeleted entry · hdeletes)
      (hspared entry · hdeletes)
  | @used old verified hold hsame hnew hhash hat hgood hidle =>
    subst hnew
    obtain ⟨earlier, origin, later, horiginal, hsince⟩ := htraced.traced old hold
    obtain ⟨minted, rfl, hminted, hids, hexpires, hpaced⟩ := hsince.minted
    have hentry : .api (.tokenMinted minted) ∈ before.log := by
      rw [horiginal]
      exact List.mem_append_right _ List.mem_cons_self
    refine ⟨earlier, _, later ++ [.api (.tokenVerified verified)], ?_, ⟨minted, rfl,
      hsame.trans hminted, hids, hexpires, ?_⟩, ?_⟩
    · rw [horiginal, List.append_assoc, List.cons_append]
    · exact hpaces.used minted later old row verified hentry hminted hpaced hsame hhash hat
        hgood (hidle ▸ min_le_left _ _)
    · intro entry hentry hdeletes
      rw [hsame.deletes_iff] at hdeletes
      rcases List.mem_append.mp hentry with hearlier | hlast
      · exact hsince.undeleted entry hearlier hdeletes
      obtain rfl := List.mem_singleton.mp hlast
      exact hdeletes
  | @minted minted hnew hrow hids hexpires =>
    subst hnew hrow
    refine Traced.of_new ⟨[], _, [], rfl, ⟨minted, rfl, .refl _, hids, hexpires,
      hpaces.minted minted⟩, fun _ hentry => nomatch hentry⟩

/-! ## Roles -/

theorem userOf_kept {change : StoreChange} {source target : Tables} {userId : Bytes}
    (hkeeps : Keeps change source target) (hknown : (source.userOf userId).isSome = true) :
    (target.userOf userId).isSome = true := by
  obtain ⟨user, huser⟩ := Option.isSome_iff_exists.mp hknown
  obtain ⟨next, hnext, -⟩ := hkeeps.user userId user huser
  rw [hnext]
  rfl

/-- The users of genuine connections and of login codes are known. -/
structure UsersKnown (daemon : Daemon) : Prop where
  attributed : daemon.Attributed
  conns : ∀ index cell, daemon.cell index = some cell → cell.conn.Genuine →
    (daemon.tables.userOf cell.conn.userId).isSome = true
  codes : ∀ row ∈ daemon.tables.loginCodes, row.usedAt = none →
    (daemon.tables.userOf row.userId).isSome = true

theorem userOf_of_lookupActive {tables : Tables} {key : ActiveKey}
    (hlookup : tables.lookupActive handle = some key) :
    (tables.userOf key.userId).isSome = true := by
  obtain ⟨row, user, -, huser, rfl⟩ := lookupActive_eq_some_iff.mp hlookup
  obtain ⟨device, -, -, hrow, -⟩ := activeUserOf_eq_some_iff.mp huser
  rw [userId_of_userOf hrow, hrow]
  rfl

theorem UsersKnown.step (hknown : before.UsersKnown)
    (hview : StepView prims config before event after) : after.UsersKnown := by
  obtain ⟨change, hkeeps, -⟩ := hview.store.keeps hknown.attributed.wellFormed
  refine ⟨hknown.attributed.step hview, fun index next hnext hgenuine => ?_,
    fun row hrow hunused => ?_⟩
  · refine userOf_kept hkeeps ?_
    rcases hview.genuine hknown.attributed.resting hnext hgenuine with
      ⟨cell, hcell, hbefore, -, huser⟩ | ⟨key, hlookup, huser⟩
    · exact huser ▸ hknown.conns index cell hcell hbefore
    · exact huser ▸ userOf_of_lookupActive hlookup
  · refine userOf_kept hkeeps ?_
    obtain ⟨new, hlog, ⟨hold, -⟩ | hissued⟩ := hview.codes hrow hunused
    · exact hknown.codes row hold hunused
    obtain ⟨first, origin, later, rfl, ⟨serial, issue, rfl, rfl⟩, -⟩ := hissued
    obtain ⟨new, hnew, hreports⟩ := hview.appended
    obtain rfl := List.append_cancel_left (hnew.symm.trans hlog)
    obtain ⟨env, index, cell, served, hserved, -, hreport⟩ :=
      hreports serial _ (List.mem_append_right _ List.mem_cons_self)
    obtain ⟨io, -, hframe⟩ := hserved.view
    obtain ⟨hstage, hgenuine, -, hissued, -⟩ := hframe.issued_of_mem hreport
    have hopened := genuine_of_opened (⟨.inl hstage, hgenuine⟩ : Conn.Genuine _)
    rw [hopened] at hstage hgenuine hissued
    rw [hissued.userId]
    exact hknown.conns index cell hserved.cellAt ⟨.inl hstage, hgenuine⟩

/-! ## Stores that do not fail -/

/-- No statement of the store fails while an event is served. -/
def Faultless : LoopEvent → Prop
  | .serve _ env => env.faults = []
  | .sweep faults => faults = []
  | _ => True

instance decidableFaultless : DecidablePred Faultless
  | .serve _ env => inferInstanceAs (Decidable (env.faults = []))
  | .sweep faults => inferInstanceAs (Decidable (faults = []))
  | .accept _ | .receive _ _ | .written _ _ | .close _ | .stop | .tick _ _ => .isTrue trivial

theorem steady_kept {new : List LogEntry} (hsteady : Steady prims minted later old)
    (hsame : row.SameToken old) (hidle : row.idleExpiresAt = old.idleExpiresAt)
    (hunused : ∀ entry ∈ new, entry.useOf prims old.tokenHash = none) :
    Steady prims minted (later ++ new) row := by
  have huses : useTimes prims row.tokenHash (later ++ new) =
      useTimes prims old.tokenHash later := by
    unfold useTimes
    rw [hsame.tokenHash, List.filterMap_append, List.filterMap_eq_nil_iff.mpr hunused,
      List.append_nil]
  refine ⟨?_, ?_⟩
  · rw [huses]
    exact hsteady.gaps
  rw [huses, hidle]
  exact hsteady.window

/-- A use before the idle window is over follows the last one in time. -/
theorem gaps_append_of_steady (hsteady : Steady prims minted later row)
    (hfresh : now < row.idleExpiresAt) :
    List.IsChain (fun first second : ℤ => second < first + tokensIdleTtlS minted.role)
      ((minted.issuedAt :: useTimes prims row.tokenHash later) ++ [now]) := by
  rw [List.isChain_append]
  refine ⟨hsteady.gaps, .singleton _, fun last hlast next hnext => ?_⟩
  obtain rfl : now = next := by simpa using hnext
  exact hfresh.trans_le (hsteady.window last hlast)

theorem steady_used {verified : Verified} (hsteady : Steady prims minted later old)
    (hsame : row.SameToken old) (hhash : prims.sha256 verified.token.toList = old.tokenHash)
    (hat : verified.at_ = now) (hrole : verified.role = minted.role)
    (hfresh : now < old.idleExpiresAt)
    (hidle : row.idleExpiresAt ≤ now + tokensIdleTtlS verified.role) :
    Steady prims minted (later ++ [.api (.tokenVerified verified)]) row := by
  have huses : minted.issuedAt :: useTimes prims row.tokenHash
      (later ++ [.api (.tokenVerified verified)]) =
      (minted.issuedAt :: useTimes prims old.tokenHash later) ++ [now] := by
    have huse : LogEntry.useOf prims old.tokenHash (.api (.tokenVerified verified)) = some now := by
      rw [← hat]
      exact if_pos hhash
    unfold useTimes
    rw [hsame.tokenHash, List.filterMap_append, List.filterMap_cons_some huse,
      List.filterMap_nil, List.cons_append]
  refine ⟨?_, ?_⟩
  · rw [huses]
    exact gaps_append_of_steady hsteady hfresh
  rw [huses]
  intro last hlast
  rw [List.getLast?_concat] at hlast
  obtain rfl : now = last := Option.some.inj hlast
  rw [← hrole]
  exact hidle

theorem steady_minted (minted : Minted) : Steady prims minted [] (mintedRow prims minted) := by
  refine ⟨.singleton _, fun last hlast => ?_⟩
  obtain rfl : minted.issuedAt = last := by simpa [useTimes] using hlast
  exact le_refl _

/-- Users are known, a token's role is that of its user, and tokens were used in time. -/
structure Accountable (prims : DaemonPrimitives) (daemon : Daemon) : Prop where
  known : daemon.UsersKnown
  roles : ∀ minted, .api (.tokenMinted minted) ∈ daemon.log →
    ∃ user, daemon.tables.userOf minted.userId = some user ∧ user.role = minted.role
  tokens : daemon.TokensTraced prims (Steady prims)

theorem Accountable.paces (haccountable : daemon.Accountable prims) :
    daemon.Paces prims (Steady prims) where
  kept _ _ _ _ _ hsteady hsame hidle hunused := steady_kept hsteady hsame hidle hunused
  used minted later old row verified hentry hminted hsteady hsame hhash hat hgood hidle := by
    obtain ⟨known, hknown, hrole⟩ := haccountable.roles minted hentry
    obtain ⟨user, huser, -, hverified⟩ := hgood.user
    rw [hminted.userId] at huser
    obtain rfl := Option.some.inj (hknown.symm.trans huser)
    exact steady_used hsteady hsame hhash hat (hverified.symm.trans hrole) hgood.used hidle
  minted := steady_minted

/-- The user of a token that is being minted has the token's role. -/
theorem UsersKnown.role_of_minted (hknown : before.UsersKnown)
    (hview : StepView prims config before event after) (hfaultless : Faultless event)
    (hanswer : after.log = before.log ++ [.api (.tokenMinted minted)]) :
    ∃ user, before.tables.userOf minted.userId = some user ∧ user.role = minted.role := by
  obtain ⟨env, hrequest, -⟩ := hview.store.answered hanswer
  obtain ⟨code, used, hused, huser, -⟩ := hrequest.minted_of_effect.code
  obtain ⟨user, hfound⟩ := Option.isSome_iff_exists.mp
    (hknown.codes code (List.mem_of_find?_eq_some hused.found) hused.unused)
  rw [← huser] at hfound
  refine ⟨user, hfound, ?_⟩
  cases hview with
  | plain hplain => simp [hplain.log] at hanswer
  | opened hopened => simp [hopened.log] at hanswer
  | openedLocal _ hlog => simp [hlog] at hanswer
  | swept => simp at hanswer
  | frame =>
    have hevents := List.append_cancel_left hanswer
    have hmem := hevents.symm ▸ List.mem_singleton_self (LogEntry.api (.tokenMinted minted))
    obtain ⟨report, -, hreport⟩ := List.mem_map.mp hmem
    cases hreport
  | @line serve index slot io served hserved =>
    rw [log_putLineServed] at hanswer
    have hreported := List.append_cancel_left hanswer
    obtain ⟨line, -, rfl⟩ := hserved.result
    have heffect : (localapiOnLine prims config serve.line slot.isAdmin
        (before.shared.withFaults serve.faults) line).effect = some (.tokenMinted minted) := by
      generalize (localapiOnLine prims config serve.line slot.isAdmin
        (before.shared.withFaults serve.faults) line).effect = effect at hreported ⊢
      cases effect with
      | none => cases hreported
      | some =>
        cases hreported
        rfl
    have hclean : (before.shared.withFaults serve.faults).store.conn.faults = [] := hfaultless
    have hrole := role_localapiOnLine_faultless hclean heffect
    have hsame : (before.shared.withFaults serve.faults).tables.userOf minted.userId =
        some user := hfound
    rw [hsame] at hrole
    exact hrole.symm

theorem Accountable.step (haccountable : before.Accountable prims)
    (hview : StepView prims config before event after) (hfaultless : Faultless event) :
    after.Accountable prims where
  known := haccountable.known.step hview
  roles minted hentry := by
    obtain ⟨change, hkeeps, -⟩ := hview.store.keeps haccountable.known.attributed.wellFormed
    have hbefore : ∃ user, before.tables.userOf minted.userId = some user ∧
        user.role = minted.role := by
      obtain ⟨new, hlog, -⟩ := hview.appended
      rw [hlog] at hentry
      rcases List.mem_append.mp hentry with hold | hnew
      · exact haccountable.roles minted hold
      rw [hview.store.eq_of_mem_api hlog hnew] at hlog
      exact haccountable.known.role_of_minted hview hfaultless hlog
    obtain ⟨user, huser, hrole⟩ := hbefore
    obtain ⟨next, hnext, hkept, -⟩ := hkeeps.user minted.userId user huser
    exact ⟨next, hnext, hkept.trans hrole⟩
  tokens := haccountable.tokens.step haccountable.paces hview

/-- The daemon with a store of which no statement fails. -/
def faultlessMachine (prims : DaemonPrimitives) (config : AuthdConfig) : Machine Daemon LoopEvent :=
  (daemonMachine prims config).restrict fun _ event => Faultless event

instance decidableFaultlessAllowed (event : LoopEvent) :
    Decidable ((faultlessMachine prims config).allowed daemon event) :=
  inferInstanceAs (Decidable (daemon.allowed event ∧ Faultless event))

theorem accountable_of_run (hwf : shared.tables.WellFormed) (hcodes : shared.tables.loginCodes = [])
    (htokens : shared.tables.tokens = [])
    (hrun : Run (faultlessMachine prims config) (start slotCount localCount shared) events daemon) :
    daemon.Accountable prims := by
  have hstep : ∀ daemon event, Accountable prims daemon →
      (faultlessMachine prims config).allowed daemon event →
      (daemon.step prims config event).Accountable prims :=
    fun _ _ haccountable hallowed => haccountable.step (step_view _ _ hallowed.1) hallowed.2
  have hattributed := attributed_start slotCount localCount hwf
  have hnone : (start slotCount localCount shared).tables.tokens = [] := htokens
  refine hrun.invariant hstep ⟨⟨hattributed, ?_, ?_⟩, (fun _ hentry => nomatch hentry), ?_, ?_⟩
  · intro index cell hcell hgenuine
    have hfree := hattributed.resting index cell hcell (free_of_cell_start hcell)
    exact absurd hgenuine (not_genuine_of_free hfree)
  · intro row hrow
    exact absurd (hcodes ▸ hrow : row ∈ []) List.not_mem_nil
  · rw [hnone]
    exact List.nodup_nil
  · rw [hnone]
    exact fun _ hrow => nomatch hrow

/-- A device that is revoked stays so. -/
theorem revoked_of_run (hrun : Run (daemonMachine prims config) before events after)
    (hattributed : before.Attributed) (hrevoked : before.tables.Revoked handle) :
    after.tables.Revoked handle := by
  have hstep : ∀ daemon event, Attributed daemon ∧ daemon.tables.Revoked handle →
      (daemonMachine prims config).allowed daemon event →
      (daemon.step prims config event).Attributed ∧
        (daemon.step prims config event).tables.Revoked handle := by
    rintro daemon event ⟨hattributed, hrevoked⟩ hallowed
    have hview := step_view prims config hallowed
    obtain ⟨change, hkeeps, -⟩ := hview.store.keeps hattributed.wellFormed
    exact ⟨hattributed.step hview, hkeeps.revoked hrevoked⟩
  exact (hrun.invariant hstep ⟨hattributed, hrevoked⟩).2

/-- The exchange that an entry of the log is about, and the state it was served in. -/
theorem minted_at (hrun : Run ((daemonMachine prims config).restrict condition) (start
      slotCount localCount shared) events daemon)
    (hlog : daemon.log = earlier ++ .api (.tokenMinted minted) :: later) :
    ∃ past reached env tables,
      Run ((daemonMachine prims config).restrict condition)
        (start slotCount localCount shared) past reached ∧ reached.log = earlier ∧
      TokenMinted prims env reached.now minted reached.tables tables := by
  have hgrows : ∀ (daemon : Daemon) (event : LoopEvent),
      daemon.allowed event ∧ condition daemon event →
      daemon.log <+: (daemon.step prims config event).log :=
    fun _ _ hallowed => log_grows_step hallowed.1
  obtain ⟨past, event, rest, reached, first, more, -, hpast, hallowed, hstep, rfl⟩ :=
    hrun.logged_at Daemon.log hgrows rfl hlog
  have hview := step_view prims config hallowed.1
  have hlogged : (reached.step prims config event).log =
      reached.log ++ (first ++ .api (.tokenMinted minted) :: more) := hstep
  have hnew := hview.store.eq_of_mem_api hlogged (List.mem_append_right first List.mem_cons_self)
  rw [hnew] at hlogged
  have hfirst : first = [] := by
    have hlength := congrArg List.length hnew
    rw [List.length_append, List.length_cons, List.length_singleton] at hlength
    exact List.length_eq_zero_iff.mp (by omega)
  obtain ⟨env, hrequest, -⟩ := hview.store.answered hlogged
  refine ⟨past, reached, env, _, hpast, ?_, hrequest.minted_of_effect⟩
  rw [hfirst, List.append_nil]

/-- The login behind a token: its code was issued before the token was minted. -/
theorem issued_of_minted (hcodes : shared.tables.loginCodes = [])
    (hrun : Run ((daemonMachine prims config).restrict condition)
      (start slotCount localCount shared) events daemon)
    (hlog : daemon.log = earlier ++ .api (.tokenMinted minted) :: later) :
    ∃ serial issue, .conn serial (.loginCode issue) ∈ earlier ∧
      issue.row.codeHash = minted.codeHash ∧ issue.row.userId = minted.userId ∧
      issue.row.handle = minted.handle := by
  obtain ⟨past, reached, env, tables, hpast, rfl, hminted⟩ := minted_at hrun hlog
  obtain ⟨row, used, hused, huser, hhandle, -⟩ := hminted.code
  have hhash : row.codeHash = minted.codeHash := by simpa using List.find?_some hused.found
  rcases codesTraced_of_run hpast.unrestrict row (List.mem_of_find?_eq_some hused.found)
      hused.unused with ⟨hstored, -⟩ | ⟨before, origin, after, hsplit, ⟨serial, issue, rfl, rfl⟩, -⟩
  · rw [hcodes] at hstored
    cases hstored
  refine ⟨serial, issue, ?_, hhash, huser.symm, hhandle.symm⟩
  rw [hsplit]
  exact List.mem_append_right _ List.mem_cons_self

/-- No exchange has returned another token of the same hash. -/
def Distinct (prims : DaemonPrimitives) (daemon : Daemon) (token : Blob 32) : Prop :=
  ∀ minted, .api (.tokenMinted minted) ∈ daemon.log →
    prims.sha256 minted.token.toList = prims.sha256 token.toList → minted.token = token

/-- A verification that answers OK, in a run with a store that does not fail: the token was
returned by an exchange and not deleted since, its device has never been revoked and is active
like its user, its lifetime is not over, it was used often enough, and user, handle and role are
those of the login it goes back to. -/
theorem verified_of_history {slotCount localCount : ℕ} {shared : Shared} {events : List LoopEvent}
    {event : LoopEvent} {verified : Verified} (hwf : shared.tables.WellFormed)
    (hcodes : shared.tables.loginCodes = []) (htokens : shared.tables.tokens = [])
    (hrun : Run (faultlessMachine prims config) (start slotCount localCount shared) events daemon)
    (hallowed : (faultlessMachine prims config).allowed daemon event)
    (hanswer : (daemon.step prims config event).log =
      daemon.log ++ [.api (.tokenVerified verified)])
    (hdistinct : daemon.Distinct prims verified.token) :
    verified.at_ = daemon.now ∧
    (∃ device, daemon.tables.deviceOf verified.handle = some device ∧ device.status = .active) ∧
    (∃ user, daemon.tables.userOf verified.userId = some user ∧ user.status = .active ∧
      user.role = verified.role) ∧
    (∀ past rest reached, events = past ++ rest →
      Run (faultlessMachine prims config) (start slotCount localCount shared) past
        reached → ¬ reached.tables.Revoked verified.handle) ∧
    ∃ earlier minted later, daemon.log = earlier ++ .api (.tokenMinted minted) :: later ∧
      minted.token = verified.token ∧
      (∀ entry ∈ later, ¬ entry.Deletes prims (mintedRow prims minted)) ∧
      daemon.now < minted.issuedAt + tokensTtlS verified.role ∧
      List.IsChain (fun first second : ℤ => second < first + tokensIdleTtlS verified.role)
        (minted.issuedAt :: useTimes prims (prims.sha256 verified.token.toList) later ++
          [daemon.now]) ∧
      minted.userId = verified.userId ∧ minted.handle = verified.handle ∧
      minted.role = verified.role ∧
      ∃ serial issue, .conn serial (.loginCode issue) ∈ earlier ∧
        issue.row.codeHash = minted.codeHash ∧ issue.row.userId = verified.userId ∧
        issue.row.handle = verified.handle := by
  have haccountable := accountable_of_run hwf hcodes htokens hrun
  have hview := step_view prims config hallowed.1
  obtain ⟨env, hrequest, -⟩ := hview.store.answered hanswer
  have hpassed := hrequest.passed_of_effect
  obtain ⟨row, hrow, hhash, hgood, huserId, hhandle⟩ := hpassed.found
  obtain ⟨earlier, origin, later, hlog, hsince⟩ := haccountable.tokens.traced row hrow
  obtain ⟨minted, rfl, hminted, hids, hexpires, hsteady⟩ := hsince.minted
  have hentry : .api (.tokenMinted minted) ∈ daemon.log := by
    rw [hlog]
    exact List.mem_append_right _ List.mem_cons_self
  have huser : verified.userId = minted.userId := by
    refine (huserId ?_).trans hminted.userId
    rw [hminted.userId]
    exact length_of_idOk (Bool.and_eq_true_iff.mp hids).1
  have hdevice : verified.handle = minted.handle := by
    refine (hhandle ?_).trans hminted.handle
    rw [hminted.handle]
    exact length_of_idOk (Bool.and_eq_true_iff.mp hids).2
  obtain ⟨user, hfound, hactive, hrole⟩ := hgood.user
  obtain ⟨device, hdeviceAt, hdeviceActive⟩ := hgood.device
  rw [show row.userId = minted.userId from hminted.userId] at hfound
  rw [show row.handle = minted.handle from hminted.handle] at hdeviceAt
  have hroles : minted.role = verified.role := by
    obtain ⟨known, hknown, hknownRole⟩ := haccountable.roles minted hentry
    obtain rfl := Option.some.inj (hfound.symm.trans hknown)
    exact hknownRole.symm.trans hrole
  obtain ⟨serial, issue, hissue, hcode, howner, hbound⟩ := issued_of_minted hcodes hrun hlog
  refine ⟨hpassed.at_, ⟨device, hdevice ▸ hdeviceAt, hdeviceActive⟩,
    ⟨user, huser ▸ hfound, hactive, hrole⟩, ?_, earlier, minted, later, hlog, ?_, ?_, ?_, ?_,
    huser.symm, hdevice.symm, hroles, serial, issue, hissue, hcode, huser ▸ howner,
    hdevice ▸ hbound⟩
  · rintro past rest reached rfl hpast hrevoked
    obtain ⟨middle, hfirst, hsecond⟩ := hrun.split
    obtain rfl : middle = reached := hfirst.target_eq.trans hpast.target_eq.symm
    have hattributed := (attributed_start slotCount localCount hwf).run hpast.unrestrict
    obtain ⟨found, hat, hstatus⟩ := revoked_of_run hsecond.unrestrict hattributed hrevoked
    rw [hdevice, hdeviceAt] at hat
    obtain rfl := Option.some.inj hat
    cases hdeviceActive.symm.trans hstatus
  · exact hdistinct minted hentry (hminted.tokenHash.symm.trans hhash)
  · intro entry hlater hdeletes
    exact hsince.undeleted entry hlater (hminted.deletes_iff.mpr hdeletes)
  · rw [← hroles, ← hexpires]
    exact hgood.fresh.trans_eq hminted.expiresAt
  · rw [← hroles, ← hhash]
    exact gaps_append_of_steady hsteady hgood.used

/-- After the exchange, the site's line that verifies the token has arrived. -/
def sampleVerify : List LoopEvent :=
  sampleExchange ++ [.serve (localRef 0) (sampleServe 0 9), .receive (localRef 0)
    (ascii "VERIFY token=" ++ bin2hex (blobOf 32 [9]).toList ++ ascii "\n")]

/-- What the verification reports. -/
def sampleVerified : Verified where
  token := blobOf 32 [9]
  userId := ascii "u"
  handle := [1]
  role := .user
  at_ := 1000

theorem run_sampleVerify :
    Run (faultlessMachine .sample sampleConfig) (start 2 2 sampleShared) sampleVerify
      (sampleDaemon sampleVerify) :=
  .of_allAllowed (by decide +kernel)

/-- The token of a login is found good, and goes back to the login. -/
theorem verified_of_history_sampleVerify :
    ∃ serial issue, .conn serial (.loginCode issue) ∈ (sampleDaemon sampleVerify).log ∧
      issue.row.userId = ascii "u" ∧ issue.row.handle = [1] := by
  have hdistinct : (sampleDaemon sampleVerify).Distinct .sample sampleVerified.token := by
    have hall : ∀ entry ∈ (sampleDaemon sampleVerify).log, entry.kind = none →
        entry = .api (.tokenMinted sampleMinted) := by decide +kernel
    intro minted hentry _
    cases hall _ hentry rfl
    rfl
  obtain ⟨-, -, -, -, earlier, minted, later, hlog, -, -, -, -, -, -, -, serial, issue, hissue,
      -, huser, hhandle⟩ :=
    verified_of_history (by decide +kernel) rfl rfl run_sampleVerify
      (by decide +kernel : (faultlessMachine .sample sampleConfig).allowed _
        (.serve (localRef 0) (sampleServe 0 9)))
      (by decide +kernel : ((sampleDaemon sampleVerify).step .sample sampleConfig
        (.serve (localRef 0) (sampleServe 0 9))).log =
          (sampleDaemon sampleVerify).log ++ [.api (.tokenVerified sampleVerified)]) hdistinct
  refine ⟨serial, issue, ?_, huser, hhandle⟩
  rw [hlog]
  exact List.mem_append_left _ hissue

end Daemon

end MldsaAuth.Authd
