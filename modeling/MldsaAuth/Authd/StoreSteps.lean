/-
# What one step of the daemon does to the store

The store changes in three kinds of steps: when it is swept, when a frame is served and
when a request is served. Each comes with the view of what was done and with what was
logged about it. From the log one can read which lookups of active keys a step may have
ended and which users it may have enabled; everything else about accounts stays.
-/

import MldsaAuth.Authd.LoopMoves
import MldsaAuth.Authd.RequestView

namespace MldsaAuth.Authd

open Foundation Crypto Protocol Tables

/-! ## Accounts -/

/-- What an effect is there to change about accounts. -/
def ApiEffect.change : ApiEffect → StoreChange
  | .deviceRevoked handle => .ofHandle handle
  | .userDisabled userId | .devicesRevoked userId => .ofUser userId
  | .userEnabled userId => .enabling userId
  | _ => .harmless

/-- What a request may change about accounts. -/
def effectChange (effect : Option ApiEffect) : StoreChange :=
  effect.elim .harmless ApiEffect.change

variable {change : StoreChange} {before after : Tables}

theorem evolves_insertToken {row : TokenRow}
    (hinsert : before.insertToken row = some after) : Evolves change before after := by
  unfold insertToken at hinsert
  split at hinsert
  · cases hinsert
  obtain rfl := Option.some.inj hinsert
  exact evolves_of_accounts rfl rfl rfl

theorem evolves_insertLoginCode {row : LoginCodeRow}
    (hinsert : before.insertLoginCode row = some after) : Evolves change before after := by
  unfold insertLoginCode at hinsert
  split at hinsert
  · cases hinsert
  obtain rfl := Option.some.inj hinsert
  exact evolves_of_accounts rfl rfl rfl

theorem Tables.TokenVerified.evolves
    {tokenHash : StoreHash} {now : ℤ} {idleTtl : ℕ} {result : TokenVerdict × Option TokenInfo}
    (hverified : TokenVerified tokenHash now idleTtl before result after) :
    Evolves change before after := by
  cases hverified with
  | unknown | refused => exact refl before
  | slid => exact evolves_of_accounts rfl rfl rfl

/-- A request changes no more about accounts than what it reports. -/
theorem RequestView.evolves {prims : DaemonPrimitives} {env : LocalEnv} {nowUnix : ℤ}
    {effect : Option ApiEffect} (hview : RequestView prims env nowUnix before effect after) :
    Evolves (effectChange effect) before after := by
  cases hview with
  | unchanged => exact refl before
  | enrolled henrolled => exact henrolled.evolves
  | redeemed hredeemed => exact hredeemed.evolves
  | codeLost hused =>
    rw [hused.written]
    exact evolves_of_accounts rfl rfl rfl
  | minted hminted =>
    obtain ⟨row, used, hused, -, -, hinserted⟩ := hminted.code
    refine Evolves.trans ?_ (evolves_insertToken hinserted)
    rw [hused.written]
    exact evolves_of_accounts rfl rfl rfl
  | touched htouched => exact htouched.evolves
  | verified hpassed =>
    obtain ⟨first, last, middle, hfirst, hsecond, -⟩ := hpassed.passed
    exact hfirst.evolves.trans hsecond.evolves
  | tokenDeleted | handleTokensDeleted | userTokensDeleted => exact evolves_deleteTokens
  | deviceRevoked hrevoked => exact hrevoked.evolves
  | userDisabled hset => exact hset.evolves fun _ _ => evolves_disableUser
  | userEnabled hset => exact hset.evolves fun _ _ => evolves_enableUser
  | codesReplaced hreplaced => exact hreplaced.evolves
  | @codeSpent _ _ _ _ revokeAll _ hspent =>
    cases revokeAll with
    | true | false => exact hspent.evolves
  | failureNoted hnoted => exact hnoted.evolves

/-- A record is served as it is, or from the beginning. -/
theorem Conn.opened_cases (conn : Conn) (bound : Bool) :
    conn.opened bound = conn ∨
      (conn.opened bound).stage = .awaitCh ∧ (bound = false ∨ conn.stage = .free) := by
  unfold Conn.opened
  split_ifs with hfresh
  · exact .inr ⟨rfl, hfresh⟩
  · exact .inl rfl

/-- What a frame reports and does to the tables: nothing, a login code, or a rotation. -/
inductive FrameEffect (prims : DaemonPrimitives) (config : AuthdConfig) (env : FrameEnv)
    (shared : Shared) (conn : Conn) (io : ConnIo) (served : Served) : Prop
  | kept (htables : served.shared.tables = shared.tables)
      (hevents : ∀ report ∈ served.events, report = .serverHello)
  | issued {issue : LoginIssue} {stored : Tables} (hstage : conn.stage = .awaitCa)
      (hgenuine : conn.decoy = false) (hidentity : conn.SameIdentity served.conn)
      (hissued : IssuedFor prims config env shared conn io issue)
      (hstored : shared.tables.insertLoginCode issue.row = some stored)
      (hevents : served.events = [.loginCode issue] ∨ served.events = [.loginCode issue, .refund])
      (htables : served.shared.tables = stored ∨
        served.shared.tables = stored.touchDevice conn.handle env.storeNow)
  | rotated {commit : RotationCommit} (hstage : conn.stage = .serving)
      (hcommit : CommittedBy prims env conn commit)
      (hstored : shared.tables.Commits prims commit shared.nowUnix served.shared.tables)
      (hevents : served.events = [.rotation commit])

variable {prims : DaemonPrimitives} {config : AuthdConfig}

namespace FrameView

variable {env : FrameEnv} {shared : Shared} {conn : Conn} {io : ConnIo} {served : Served}

section

variable (hview : FrameView prims config env shared conn io served)

include hview

theorem effect : FrameEffect prims config env shared conn io served := by
  cases hview with
  | hello _ hview =>
    cases hview with
    | malformed _ _ hevents htables => exact .kept htables (by simp [hevents])
    | pinned _ htables hgreeted =>
      refine .kept htables ?_
      cases hgreeted.ending with
      | refused _ _ hevents | asked _ _ hevents | sent _ _ hevents => simp [hevents]
  | auth hstage hview =>
    cases hview with
    | refused _ _ _ hevents htables => exact .kept htables (by simp [hevents])
    | issued hidentity _ hgenuine hissued hstored hend =>
      cases hend with
      | dropped _ _ hevents htables =>
        exact .issued hstage hgenuine hidentity hissued hstored (.inl hevents) (.inl htables)
      | serving _ _ hevents htables =>
        exact .issued hstage hgenuine hidentity hissued hstored hevents htables
  | record hstage hview =>
    cases hview with
    | closed _ _ _ hevents htables => exact .kept htables (by simp [hevents])
    | rotated _ hevents hcommit hstored => exact .rotated hstage hcommit hstored hevents
  | late _ _ _ hevents htables => exact .kept htables (by simp [hevents])

/-- A login code is reported only for a ClientAuth of a genuine handle. -/
theorem issued_of_mem {issue : LoginIssue} (hissue : .loginCode issue ∈ served.events) :
    conn.stage = .awaitCa ∧ conn.decoy = false ∧ conn.SameIdentity served.conn ∧
      IssuedFor prims config env shared conn io issue ∧
      ∃ stored, shared.tables.insertLoginCode issue.row = some stored ∧
        (served.shared.tables = stored ∨
          served.shared.tables = stored.touchDevice conn.handle env.storeNow) := by
  cases hview.effect with
  | kept _ hevents => cases hevents _ hissue
  | @issued other stored hstage hgenuine hidentity hissued hstored hevents htables =>
    obtain rfl : issue = other := by
      rcases hevents with hevents | hevents <;> simpa [hevents] using hissue
    exact ⟨hstage, hgenuine, hidentity, hissued, stored, hstored, htables⟩
  | rotated _ _ _ hevents => simp [hevents] at hissue

/-- A rotation is reported only for a record of a session, and then nothing else is. -/
theorem committed_of_mem {commit : RotationCommit} (hrotation : .rotation commit ∈ served.events) :
    conn.stage = .serving ∧ CommittedBy prims env conn commit ∧
      shared.tables.Commits prims commit shared.nowUnix served.shared.tables ∧
      served.events = [.rotation commit] := by
  cases hview.effect with
  | kept _ hevents => cases hevents _ hrotation
  | issued _ _ _ _ _ hevents =>
    rcases hevents with hevents | hevents <;> simp [hevents] at hrotation
  | @rotated other hstage hcommit hstored hevents =>
    obtain rfl : commit = other := by simpa [hevents] using hrotation
    exact ⟨hstage, hcommit, hstored, hevents⟩

/-- A frame ends at most the lookups of a handle whose key it rotates. -/
theorem evolves
    (hspares : ∀ commit, .rotation commit ∈ served.events →
      ∀ handle key, change.spares handle key → handle ≠ commit.handle) :
    Evolves change shared.tables served.shared.tables := by
  cases hview.effect with
  | kept htables =>
    rw [htables]
    exact refl _
  | issued _ _ _ _ hstored _ htables =>
    rcases htables with htables | htables
    · exact htables ▸ evolves_insertLoginCode hstored
    · exact htables ▸ (evolves_insertLoginCode hstored).trans evolves_touchDevice
  | @rotated commit _ _ hstored hevents =>
    obtain ⟨current, hrotated⟩ := hstored
    refine hrotated.evolves.mono (fun _ handle key _ => ?_) fun _ henables => henables.elim
    exact hspares commit (by rw [hevents]; exact List.mem_singleton_self _) handle key

end

end FrameView

/-! ## Steps -/

namespace Daemon

variable {daemon before after : Daemon} {event : LoopEvent} {index : ℕ}

/-- The tables of the store. -/
def tables (daemon : Daemon) : Tables := daemon.shared.tables

/-- The wall clock of the loop. -/
def now (daemon : Daemon) : ℤ := daemon.shared.nowUnix

theorem LoopMove.now {ref : SlotRef} (hmove : LoopMove prims config ref before after) :
    after.now = before.now := by
  cases hmove with
  | slot => exact apart_setSlot.nowUnix
  | closed => exact apart_closeSlot.nowUnix
  | around hclock => exact hclock

theorem StepMoves.now {ref : SlotRef} (hmoves : StepMoves prims config ref before after) :
    after.now = before.now := by
  cases hmoves with
  | moved hmoves =>
    exact hmoves.invariant (fun _ _ hmove hnow => hmove.now.trans hnow) rfl
  | settled =>
    refine apart_setSlot.nowUnix.trans ?_
    unfold onAddr
    split
    · rfl
    split
    · rfl
    split <;> rfl

/-- Only the loop's reading of the clock moves the time. -/
theorem now_step (hallowed : daemon.allowed event) :
    (daemon.step prims config event).now =
      match event with
      | .tick _ nowUnix => nowUnix
      | _ => daemon.now := by
  cases event with
  | receive | serve | written | close => exact (step_moves hallowed rfl).now
  | accept listener =>
    show (daemon.accept config listener).now = _
    unfold accept
    split
    · rfl
    split
    · rfl
    dsimp only
    split <;> exact apart_setSlot.nowUnix
  | stop | tick => rfl
  | sweep faults =>
    show (daemon.maybeSweep faults).now = daemon.now
    unfold maybeSweep
    split <;> rfl

/-- Everything a step can do to the store. -/
inductive StoreMove (prims : DaemonPrimitives) (config : AuthdConfig) (before : Daemon)
    (event : LoopEvent) (after : Daemon) : Prop
  | kept (htables : after.tables = before.tables) (hlog : after.log = before.log)
  | swept (htables : after.tables = before.tables.swept before.now)
      (hlog : after.log = before.log) (hcells : ∀ index, after.cell index = before.cell index)
  | frame {index : ℕ} {env : ServeEnv} {cell : Cell} {io : ConnIo} {served : Served}
      (hevent : event = .serve (protoRef index) env)
      (hserved : FrameServed prims config before env index cell served)
      (hio : loginState io = loginState cell.slot.io)
      (hview : FrameView prims config env.frame before.shared (cell.conn.opened cell.slot.bound)
        io served)
      (hafter : after = before.putServed config index cell.slot served)
  | line {env : ServeEnv} {effect : Option ApiEffect}
      (hview : RequestView prims env.line before.now before.tables effect after.tables)
      (hlog : after.log = before.log ++ effect.toList.map LogEntry.api)
      (hcells : ∀ index, after.cell index = (before.cell index).map
        (Cell.closeIf fun conn => effect.any fun effect => effect.closes conn))

theorem loginState_nextFrame {io next : ConnIo} {payload : Option Bytes}
    (hnext : io.nextFrame = (payload, next)) : loginState next = loginState io := by
  have hheader : loginState io.noteHeader.2 = loginState io := by
    unfold ConnIo.noteHeader
    split
    · rfl
    split
    · rfl
    dsimp only
    split <;> rfl
  have hframe : loginState io.nextFrame.2 = loginState io := by
    unfold ConnIo.nextFrame
    split
    · rfl
    generalize io.noteHeader = noted at hheader ⊢
    obtain ⟨status, reached⟩ := noted
    cases status with
    | ok =>
      dsimp only
      split <;> exact hheader
    | _ => exact hheader
  rw [hnext] at hframe
  exact hframe

/-- What serving a frame of a connection did. -/
theorem FrameServed.view {env : ServeEnv} {cell : Cell} {served : Served}
    (hserved : FrameServed prims config before env index cell served) :
    ∃ io, loginState io = loginState cell.slot.io ∧
      FrameView prims config env.frame before.shared (cell.conn.opened cell.slot.bound) io
        served := by
  obtain ⟨payload, io, hframe, rfl⟩ := hserved.result
  exact ⟨io, loginState_nextFrame hframe, onFrame_view.of_shared rfl rfl⟩

theorem StepView.store (hview : StepView prims config before event after) :
    StoreMove prims config before event after := by
  cases hview with
  | plain hplain =>
    exact .kept (by unfold tables Shared.tables; rw [hplain.store]) hplain.log
  | opened hopened =>
    exact .kept (by unfold tables Shared.tables; rw [hopened.store]) hopened.log
  | openedLocal _ hlog hstore =>
    exact .kept (by unfold tables Shared.tables; rw [hstore]) hlog
  | @swept faults nextSweepMs =>
    rcases Shared.run_atomically
        { before.shared.withFaults faults with nextSweepMs := nextSweepMs }
        (atomically_storeSweep before.shared.nowUnix) with ⟨_, _, hsame⟩ | ⟨_, _, hswept⟩
    · exact .kept hsame rfl
    · exact .swept hswept rfl fun _ => rfl
  | @frame env index cell served hserved =>
    obtain ⟨io, hio, hframe⟩ := hserved.view
    exact .frame rfl hserved hio hframe rfl
  | @line env index slot io served hserved =>
    have hlocal : RequestView prims env.line before.now before.tables served.effect
        (before.putLineServed prims config index slot io served).tables := by
      obtain ⟨line, -, rfl⟩ := hserved.result
      unfold tables Shared.tables
      rw [store_putLineServed]
      exact @localapiOnLine_view prims config env.line line
        (before.shared.withFaults env.faults) slot.isAdmin
    exact .line hlocal log_putLineServed fun _ => cell_putLineServed

theorem step_store (hallowed : daemon.allowed event) :
    StoreMove prims config daemon event (daemon.step prims config event) :=
  (step_view _ _ hallowed).store

/-- The log only grows. -/
theorem StepView.log_grows (hview : StepView prims config before event after) :
    before.log <+: after.log := by
  cases hview with
  | plain hplain => exact hplain.log ▸ List.prefix_rfl
  | opened hopened => exact hopened.log ▸ List.prefix_rfl
  | openedLocal _ hlog => exact hlog ▸ List.prefix_rfl
  | swept => exact List.prefix_rfl
  | frame => exact List.prefix_append _ _
  | line => exact log_putLineServed ▸ List.prefix_append _ _

theorem log_grows {events : List LoopEvent}
    (hrun : Machine.Run (daemonMachine prims config) before events after) :
    before.log <+: after.log := by
  have hstep : ∀ (daemon : Daemon) (event : LoopEvent), daemon.allowed event →
      daemon.log <+: (daemon.step prims config event).log := fun daemon event hallowed =>
    (step_view prims config hallowed).log_grows
  refine hrun.preorder (fun first second => first.log <+: second.log)
    (fun _ => List.prefix_rfl) ?_ hstep
  exact fun _ _ _ hfirst hsecond => hfirst.trans hsecond

end Daemon

end MldsaAuth.Authd
