/-
# What serving a frame can do

A frame is served by the stage of its connection. A ClientHello pins a key to the
connection and asks for one ServerHello; a ClientAuth may be retried, refused, or
leads to one stored login code; a record inside the session either closes the
connection or commits one rotation. The views below say this once for each handler,
together with what becomes of the tables.
-/

import MldsaAuth.Authd.Conn
import MldsaAuth.Authd.Store.Effects

namespace MldsaAuth.Authd

open Foundation Crypto Protocol

variable {prims : DaemonPrimitives} {config : AuthdConfig} {env : FrameEnv} {shared : Shared}
  {conn : Conn} {io : ConnIo} {payload : Bytes}

/-- The tables of the store. -/
def Shared.tables (shared : Shared) : Tables := shared.store.conn.tables

/-- A connection still stands for the same handle, user and key. -/
structure Conn.SameIdentity (old new : Conn) : Prop where
  handle : new.handle = old.handle
  userId : new.userId = old.userId
  decoy : new.decoy = old.decoy
  pinPk : new.pinPk = old.pinPk
  pinSet : new.pinSet = old.pinSet

theorem Conn.SameIdentity.trans {first second third : Conn} (hfirst : first.SameIdentity second)
    (hsecond : second.SameIdentity third) : first.SameIdentity third where
  handle := hsecond.handle.trans hfirst.handle
  userId := hsecond.userId.trans hfirst.userId
  decoy := hsecond.decoy.trans hfirst.decoy
  pinPk := hsecond.pinPk.trans hfirst.pinPk
  pinSet := hsecond.pinSet.trans hfirst.pinSet

/-! ## Waiting for a ClientHello -/

/-- How far the answer to a ClientHello came. -/
inductive HelloEnd (served : Served) : Prop
  | refused (haction : served.action = .close) (hstage : served.conn.stage = .awaitCh)
      (hevents : served.events = [])
  | asked (haction : served.action = .close) (hstage : served.conn.stage = .awaitCh)
      (hevents : served.events = [.serverHello])
  | sent (haction : served.action = .continue_) (hstage : served.conn.stage = .awaitCa)
      (hevents : served.events = [.serverHello])

/-- A pinned connection was answered, and stands for the same identity. -/
structure Greeted (conn : Conn) (served : Served) : Prop where
  identity : conn.SameIdentity served.conn
  rotated : served.conn.rotated = conn.rotated
  ending : HelloEnd served

variable {middle : Conn} {served : Served}

theorem Greeted.of_same (hgreeted : Greeted middle served) (hsame : conn.SameIdentity middle)
    (hrotated : middle.rotated = conn.rotated) : Greeted conn served :=
  ⟨hsame.trans hgreeted.identity, hgreeted.rotated.trans hrotated, hgreeted.ending⟩

theorem greeted_sendServerHello (hstage : conn.stage = .awaitCh) :
    Greeted conn (sendServerHello prims env shared conn io) := by
  unfold sendServerHello
  dsimp only
  split
  · split
    · exact ⟨⟨rfl, rfl, rfl, rfl, rfl⟩, rfl, .sent rfl rfl rfl⟩
    · exact ⟨⟨rfl, rfl, rfl, rfl, rfl⟩, rfl, .asked rfl hstage rfl⟩
  · exact ⟨⟨rfl, rfl, rfl, rfl, rfl⟩, rfl, .asked rfl hstage rfl⟩

theorem tables_sendServerHello :
    (sendServerHello prims env shared conn io).shared.tables = shared.tables := by
  unfold sendServerHello
  dsimp only
  split
  · split <;> rfl
  · rfl

theorem greeted_acceptClientHello (hstage : conn.stage = .awaitCh) :
    Greeted conn (acceptClientHello prims config env shared conn io payload) := by
  unfold acceptClientHello
  dsimp only
  split
  · split
    · refine Greeted.of_same (greeted_sendServerHello ?_) ⟨rfl, rfl, rfl, rfl, rfl⟩ rfl
      exact hstage
    · exact ⟨⟨rfl, rfl, rfl, rfl, rfl⟩, rfl, .refused rfl hstage rfl⟩
  · exact ⟨⟨rfl, rfl, rfl, rfl, rfl⟩, rfl, .refused rfl hstage rfl⟩

theorem tables_acceptClientHello :
    (acceptClientHello prims config env shared conn io payload).shared.tables = shared.tables := by
  unfold acceptClientHello
  dsimp only
  split
  · split
    · exact tables_sendServerHello
    · rfl
  · rfl

/-- A pin that is not the decoy's is what the handle's lookup gives. -/
def Pin.ResolvedIn (pin : Pin) (tables : Tables) (handle : Bytes) : Prop :=
  pin.decoy = false → ∃ key, tables.lookupActive handle = some key ∧
    pin = { pk := key.pk, userId := key.userId, decoy := false }

/-- Every outcome of `on_client_hello`. -/
inductive HelloView (shared : Shared) (conn : Conn) (served : Served) : Prop
  | malformed (hconn : served.conn = conn) (haction : served.action = .close)
      (hevents : served.events = []) (htables : served.shared.tables = shared.tables)
  | pinned {handle : Bytes} {pin : Pin} (hpin : pin.ResolvedIn shared.tables handle)
      (htables : served.shared.tables = shared.tables)
      (hgreeted : Greeted (conn.pinTo handle pin) served)

/-- A store operation that is applied as a whole or not at all. -/
theorem Shared.run_atomically (shared : Shared) {Value : Type} {program : StoreProgram Value}
    {goal : Value → Tables → Prop} (hprogram : Program.Atomically shared.tables goal program) :
    (∃ status, (shared.run program).1 = .error status ∧
        (shared.run program).2.tables = shared.tables) ∨
      ∃ value, (shared.run program).1 = .ok value ∧ goal value (shared.run program).2.tables := by
  cases houtcome : (shared.run program).1 with
  | error status => exact .inl ⟨status, rfl, hprogram.kept_of_error houtcome⟩
  | ok value => exact .inr ⟨value, rfl, hprogram.goal_of_ok houtcome⟩

theorem Shared.tables_run_of_reads (shared : Shared) {Value : Type} {program : StoreProgram Value}
    (hreads : Reads program) : (shared.run program).2.tables = shared.tables := by
  rcases shared.run_atomically (hreads shared.tables) with ⟨_, _, hsame⟩ | ⟨_, _, hsame⟩
  · exact hsame
  · exact hsame

/-- The key that is resolved for a handle is the active one, or the decoy's. -/
theorem resolvePin_spec {handle : Bytes} :
    (resolvePin shared handle).2.tables = shared.tables ∧
      (resolvePin shared handle).1.ResolvedIn shared.tables handle := by
  have hlookup := shared.run_atomically (atomically_storeLookupActive handle)
  unfold resolvePin
  generalize shared.run (storeLookupActive handle) = run at hlookup ⊢
  obtain ⟨outcome, reached⟩ := run
  rcases hlookup with ⟨status, rfl, htables⟩ | ⟨key, rfl, htables, hkey⟩
  · exact ⟨htables, fun hdecoy => by cases hdecoy⟩
  · exact ⟨htables, fun _ => ⟨key, hkey, rfl⟩⟩

theorem onClientHello_view (hstage : conn.stage = .awaitCh) :
    HelloView shared conn (onClientHello prims config env shared conn io payload) := by
  unfold onClientHello
  split
  · exact .malformed rfl rfl rfl rfl
  refine .pinned resolvePin_spec.2 (tables_acceptClientHello.trans resolvePin_spec.1)
    (greeted_acceptClientHello ?_)
  exact hstage

/-! ## Waiting for a ClientAuth -/

/-- How far the answer to a ClientAuth came once a login code was stored. -/
inductive IssueEnd (env : FrameEnv) (handle : Bytes) (issue : LoginIssue) (stored : Tables)
    (served : Served) : Prop
  | dropped (haction : served.action = .close) (hstage : served.conn.stage = .awaitCa)
      (hevents : served.events = [.loginCode issue]) (htables : served.shared.tables = stored)
  | serving (haction : served.action = .continue_) (hstage : served.conn.stage = .serving)
      (hevents : served.events = [.loginCode issue] ∨ served.events = [.loginCode issue, .refund])
      (htables : served.shared.tables = stored ∨
        served.shared.tables = stored.touchDevice handle env.storeNow)

/-- A login code for what a connection stands for. -/
structure IssuedFor (prims : DaemonPrimitives) (config : AuthdConfig) (env : FrameEnv)
    (shared : Shared) (conn : Conn) (io : ConnIo) (issue : LoginIssue) : Prop where
  pk : issue.pk = conn.pinPk
  active : issue.active = shared.tables.lookupActive conn.handle
  state : issue.state = loginState io
  codeHash : issue.row.codeHash = prims.sha256 env.code.toList
  userId : issue.row.userId = conn.userId
  handle : issue.row.handle = conn.handle
  stateHash : issue.row.stateHash = prims.sha256 issue.state
  issuedAt : issue.row.issuedAt = shared.nowUnix
  expiresAt : issue.row.expiresAt = shared.nowUnix + config.codeTtlS
  unused : issue.row.usedAt = none

/-- Every outcome of `on_client_auth`. -/
inductive AuthView (prims : DaemonPrimitives) (config : AuthdConfig) (env : FrameEnv)
    (shared : Shared) (conn : Conn) (io : ConnIo) (served : Served) : Prop
  | refused (hidentity : conn.SameIdentity served.conn)
      (hrotated : served.conn.rotated = conn.rotated) (hstage : served.conn.stage = .awaitCa)
      (hevents : served.events = []) (htables : served.shared.tables = shared.tables)
  | issued {issue : LoginIssue} {stored : Tables} (hidentity : conn.SameIdentity served.conn)
      (hrotated : served.conn.rotated = conn.rotated) (hgenuine : conn.decoy = false)
      (hissued : IssuedFor prims config env shared conn io issue)
      (hstored : shared.tables.insertLoginCode issue.row = some stored)
      (hend : IssueEnd env conn.handle issue stored served)

/-- What `issue_login_code` leaves of the connection. -/
structure KeepsConn (conn : Conn) (served : Served) : Prop where
  identity : conn.SameIdentity served.conn
  rotated : served.conn.rotated = conn.rotated
  stage : served.conn.stage = conn.stage

theorem KeepsConn.of_same (hkeeps : KeepsConn middle served)
    (hsame : KeepsConn conn { served with conn := middle }) : KeepsConn conn served :=
  ⟨hsame.identity.trans hkeeps.identity, hkeeps.rotated.trans hsame.rotated,
    hkeeps.stage.trans hsame.stage⟩

/-- Every outcome of `issue_login_code`. -/
inductive CodeView (prims : DaemonPrimitives) (config : AuthdConfig) (env : FrameEnv)
    (shared : Shared) (conn : Conn) (io : ConnIo) (served : Served) : Prop
  | failed (haction : served.action = .close) (hevents : served.events = [])
      (htables : served.shared.tables = shared.tables)
  | stored {issue : LoginIssue} (hissued : IssuedFor prims config env shared conn io issue)
      (hstored : shared.tables.insertLoginCode issue.row = some served.shared.tables)
      (hevents : served.events = [.loginCode issue])

theorem keepsConn_storeLoginCode :
    KeepsConn conn (storeLoginCode prims config env shared conn io) := by
  unfold storeLoginCode
  dsimp only
  split
  · exact ⟨⟨rfl, rfl, rfl, rfl, rfl⟩, rfl, rfl⟩
  split
  · exact ⟨⟨rfl, rfl, rfl, rfl, rfl⟩, rfl, rfl⟩
  · exact ⟨⟨rfl, rfl, rfl, rfl, rfl⟩, rfl, rfl⟩

theorem keepsConn_issueLoginCode :
    KeepsConn conn (issueLoginCode prims config env shared conn io) := by
  unfold issueLoginCode
  split
  · exact ⟨⟨rfl, rfl, rfl, rfl, rfl⟩, rfl, rfl⟩
  dsimp only
  split
  · exact keepsConn_storeLoginCode.of_same ⟨⟨rfl, rfl, rfl, rfl, rfl⟩, rfl, rfl⟩
  · exact ⟨⟨rfl, rfl, rfl, rfl, rfl⟩, rfl, rfl⟩

theorem rotationDue_keeps : (rotationDue config shared conn).2.tables = shared.tables ∧
    (rotationDue config shared conn).2.nowUnix = shared.nowUnix := by
  have hsame := shared.tables_run_of_reads (reads_storeActiveKeyAge conn.handle)
  have hnow : (shared.run (storeActiveKeyAge conn.handle)).2.nowUnix = shared.nowUnix := rfl
  unfold rotationDue
  split
  · exact ⟨rfl, rfl⟩
  generalize shared.run (storeActiveKeyAge conn.handle) = run at hsame hnow ⊢
  obtain ⟨outcome, reached⟩ := run
  cases outcome with
  | ok | error => exact ⟨hsame, hnow⟩

theorem storeLoginCode_view :
    CodeView prims config env shared conn io (storeLoginCode prims config env shared conn io) := by
  have hdue : (rotationDue config shared conn).2.tables = shared.tables ∧
      (rotationDue config shared conn).2.nowUnix = shared.nowUnix := rotationDue_keeps
  unfold storeLoginCode
  dsimp only
  generalize rotationDue config shared conn = due at hdue ⊢
  have hadd := due.2.run_atomically
    (atomically_storeAddLoginCode (loginCodeRow prims config env due.2 conn io))
  generalize due.2.run (storeAddLoginCode (loginCodeRow prims config env due.2 conn io)) = run
    at hadd ⊢
  obtain ⟨outcome, reached⟩ := run
  rcases hadd with ⟨status, rfl, htables⟩ | ⟨value, rfl, hstored⟩
  · exact .failed rfl rfl (htables.trans hdue.1)
  rw [hdue.1] at hstored
  have hissued : IssuedFor prims config env shared conn io
      { row := loginCodeRow prims config env due.2 conn io
        state := loginState io
        pk := conn.pinPk
        active := due.2.tables.lookupActive conn.handle } :=
    ⟨rfl, by rw [hdue.1], rfl, rfl, rfl, rfl, rfl, hdue.2, by rw [← hdue.2]; rfl, rfl⟩
  dsimp only
  split
  · exact .stored hissued hstored rfl
  · exact .stored hissued hstored rfl

variable {reached : Shared} {issue : LoginIssue}

theorem IssuedFor.of_same (hissued : IssuedFor prims config env reached middle io issue)
    (hsame : conn.SameIdentity middle) (htables : reached.tables = shared.tables)
    (hnow : reached.nowUnix = shared.nowUnix) :
    IssuedFor prims config env shared conn io issue where
  pk := hissued.pk.trans hsame.pinPk
  active := by rw [hissued.active, htables, hsame.handle]
  state := hissued.state
  codeHash := hissued.codeHash
  userId := hissued.userId.trans hsame.userId
  handle := hissued.handle.trans hsame.handle
  stateHash := hissued.stateHash
  issuedAt := hissued.issuedAt.trans hnow
  expiresAt := by rw [hissued.expiresAt, hnow]
  unused := hissued.unused

theorem CodeView.of_same (hview : CodeView prims config env reached middle io served)
    (hsame : conn.SameIdentity middle) (htables : reached.tables = shared.tables)
    (hnow : reached.nowUnix = shared.nowUnix) :
    CodeView prims config env shared conn io served := by
  cases hview with
  | failed haction hevents hkept => exact .failed haction hevents (hkept.trans htables)
  | stored hissued hstored hevents =>
    rw [htables] at hstored
    exact .stored (hissued.of_same hsame htables hnow) hstored hevents

theorem issueLoginCode_view :
    CodeView prims config env shared conn io (issueLoginCode prims config env shared conn io) := by
  unfold issueLoginCode
  split
  · exact .failed rfl rfl rfl
  dsimp only
  split
  · exact storeLoginCode_view.of_same ⟨rfl, rfl, rfl, rfl, rfl⟩ rfl rfl
  · exact .failed rfl rfl rfl

variable {addrAdmitted : Bool}

/-- What `on_client_auth` does after a login code is out. -/
theorem startServing_end (hevents : served.events = [.loginCode issue])
    (haction : served.action = .continue_) :
    IssueEnd env served.conn.handle issue served.shared.tables
      (startServing prims env addrAdmitted served) := by
  have htouch := served.shared.run_atomically
    (atomically_storeTouchLastSeen served.conn.handle env.storeNow)
  refine .serving haction rfl ?_ ?_
  · unfold startServing
    dsimp only
    rw [hevents]
    split
    · exact .inr rfl
    · exact .inl rfl
  · have htables : (startServing prims env addrAdmitted served).shared.tables =
        (served.shared.run (storeTouchLastSeen served.conn.handle env.storeNow)).2.tables := by
      unfold startServing
      dsimp only
      split <;> rfl
    rw [htables]
    rcases htouch with ⟨_, _, hsame⟩ | ⟨_, _, htouched⟩
    · exact .inl hsame
    · exact .inr htouched

theorem keepsConn_startServing :
    served.conn.SameIdentity (startServing prims env addrAdmitted served).conn ∧
      (startServing prims env addrAdmitted served).conn.rotated = served.conn.rotated :=
  ⟨⟨rfl, rfl, rfl, rfl, rfl⟩, rfl⟩

/-- The connection serves once its login code is out, and stays as it is otherwise. -/
theorem CodeView.authView (hview : CodeView prims config env shared conn io served)
    (hkeeps : KeepsConn conn served) (hstage : conn.stage = .awaitCa)
    (hgenuine : conn.decoy = false) :
    AuthView prims config env shared conn io
      (if served.action = .continue_ then startServing prims env addrAdmitted served
        else served) := by
  cases hview with
  | failed haction hevents htables =>
    rw [if_neg (by rw [haction]; exact EvAction.noConfusion)]
    exact .refused hkeeps.identity hkeeps.rotated (hkeeps.stage.trans hstage) hevents htables
  | @stored issue hissued hstored hevents =>
    by_cases haction : served.action = .continue_
    · rw [if_pos haction]
      refine .issued (hkeeps.identity.trans keepsConn_startServing.1)
        (keepsConn_startServing.2.trans hkeeps.rotated) hgenuine hissued hstored ?_
      rw [← hkeeps.identity.handle]
      exact startServing_end hevents haction
    · rw [if_neg haction]
      have hclose : served.action = .close := by
        cases hcase : served.action with
        | continue_ => exact absurd hcase haction
        | close => rfl
      exact .issued hkeeps.identity hkeeps.rotated hgenuine hissued hstored
        (.dropped hclose (hkeeps.stage.trans hstage) hevents rfl)

theorem AuthView.of_same (hview : AuthView prims config env reached middle io served)
    (hsame : conn.SameIdentity middle) (hrotated : middle.rotated = conn.rotated)
    (htables : reached.tables = shared.tables) (hnow : reached.nowUnix = shared.nowUnix) :
    AuthView prims config env shared conn io served := by
  cases hview with
  | refused hidentity hrot hstage hevents hkept =>
    exact .refused (hsame.trans hidentity) (hrot.trans hrotated) hstage hevents
      (hkept.trans htables)
  | issued hidentity hrot hgenuine hissued hstored hend =>
    rw [htables] at hstored
    rw [hsame.handle] at hend
    exact .issued (hsame.trans hidentity) (hrot.trans hrotated) (hsame.decoy ▸ hgenuine)
      (hissued.of_same hsame htables hnow) hstored hend

theorem finishClientAuth_view (hstage : conn.stage = .awaitCa) :
    AuthView prims config env shared conn io
      (finishClientAuth prims config env addrAdmitted shared conn io) := by
  unfold finishClientAuth
  dsimp only
  split
  · exact .refused ⟨rfl, rfl, rfl, rfl, rfl⟩ rfl hstage rfl rfl
  split
  · exact .refused ⟨rfl, rfl, rfl, rfl, rfl⟩ rfl hstage rfl rfl
  rename_i hgenuine
  have hdecoy : conn.decoy = false := by
    simpa using fun htrue => hgenuine (.inl htrue)
  refine AuthView.of_same
    (issueLoginCode_view.authView keepsConn_issueLoginCode ?_ ?_) ⟨rfl, rfl, rfl, rfl, rfl⟩
    rfl rfl rfl
  · exact hstage
  · exact hdecoy

theorem onClientAuth_view (hstage : conn.stage = .awaitCa) :
    AuthView prims config env shared conn io
      (onClientAuth prims config env addrAdmitted shared conn io payload) := by
  unfold onClientAuth
  dsimp only
  split
  · refine AuthView.of_same (finishClientAuth_view ?_) ⟨rfl, rfl, rfl, rfl, rfl⟩ rfl rfl rfl
    exact hstage
  · exact .refused ⟨rfl, rfl, rfl, rfl, rfl⟩ rfl hstage rfl rfl

/-! ## Serving records -/

/-- How far the acknowledgement of a rotation came. -/
inductive RotateEnd (served : Served) : Prop
  | acknowledged (haction : served.action = .continue_) (hstage : served.conn.stage = .serving)
      (hrotated : served.conn.rotated = true)
  | dropped (haction : served.action = .close) (hstage : served.conn.stage = .closing)

variable (prims)

/-- A rotation that a connection asked for: it is about the connection's own handle and
handshake, replaces the pinned key, and both its signatures verified. -/
structure CommittedBy (env : FrameEnv) (conn : Conn) (commit : RotationCommit) : Prop where
  fresh : conn.rotated = false
  genuine : conn.decoy = false
  established : conn.hsidSet = true
  handle : commit.handle = conn.handle
  userId : commit.userId = conn.userId
  handshakeId : commit.handshakeId = conn.handshakeId
  pkOld : commit.pkOld = conn.pinPk
  named : commit.msg.handle = conn.handle
  verified : rotateVerified prims env conn commit.pkOld commit.msg = true

/-- The change of the tables when a rotation is committed. -/
def Tables.Commits (commit : RotationCommit) (now : ℤ) (before after : Tables) : Prop :=
  ∃ current, KeyRotated prims commit.request now current before after

/-- Every outcome of `on_record`. -/
inductive RecordView (env : FrameEnv) (shared : Shared) (conn : Conn)
    (served : Served) : Prop
  | closed (hidentity : conn.SameIdentity served.conn) (haction : served.action = .close)
      (hstage : served.conn.stage = .closing) (hevents : served.events = [])
      (htables : served.shared.tables = shared.tables)
  | rotated {commit : RotationCommit} (hidentity : conn.SameIdentity served.conn)
      (hevents : served.events = [.rotation commit]) (hcommit : CommittedBy prims env conn commit)
      (hstored : shared.tables.Commits prims commit shared.nowUnix served.shared.tables)
      (hend : RotateEnd served)

variable {prims}

theorem failWithError_closed {code : AuthmsgErr} :
    RecordView prims env shared conn (failWithError env shared conn io code []) :=
  .closed ⟨rfl, rfl, rfl, rfl, rfl⟩ rfl rfl rfl rfl

/-- What is left to do after a rotation has committed changes no identity and no row. -/
structure Acknowledged (shared : Shared) (conn : Conn) (events : List ConnEvent)
    (served : Served) : Prop where
  identity : conn.SameIdentity served.conn
  events : served.events = events
  shared : served.shared = shared
  ending : RotateEnd served

theorem acknowledged_acknowledgeRotate {msg : RotateMsg} {rotatedAt : ℤ}
    {events : List ConnEvent} (hstage : conn.stage = .serving) :
    Acknowledged shared conn events
      (acknowledgeRotate prims env shared conn io msg rotatedAt events) := by
  unfold acknowledgeRotate
  split
  · exact ⟨⟨rfl, rfl, rfl, rfl, rfl⟩, rfl, rfl, .dropped rfl rfl⟩
  dsimp only
  split
  · exact ⟨⟨rfl, rfl, rfl, rfl, rfl⟩, rfl, rfl, .acknowledged rfl hstage rfl⟩
  · exact ⟨⟨rfl, rfl, rfl, rfl, rfl⟩, rfl, rfl, .dropped rfl rfl⟩

theorem Acknowledged.view {commit : RotationCommit}
    (hack : Acknowledged reached conn [.rotation commit] served)
    (hcommit : CommittedBy prims env conn commit)
    (hstored : shared.tables.Commits prims commit shared.nowUnix reached.tables) :
    RecordView prims env shared conn served :=
  .rotated hack.identity hack.events hcommit (hack.shared.symm ▸ hstored) hack.ending

/-- A statement of the daemon that fails leaves the transaction open, so a rotation is applied as
a whole or not at all. -/
theorem atomically_storeRotateKey {tables : Tables} {rotation : Rotation} {now : ℤ} :
    Program.Atomically tables (fun value after => value.1 = now ∧ ∃ current,
        Tables.KeyRotated prims rotation now current tables after)
      (storeRotateKey prims rotation now) := by
  refine ends_storeRotateKey.mono fun outcome after hview => ?_
  cases hview with
  | rotated hrotated => exact ⟨rfl, _, hrotated⟩
  | failed => rfl
  | stray hstray =>
    obtain ⟨_, hmild⟩ := hstray.ended
    exact absurd hmild Bool.false_ne_true

theorem commitRotate_view {msg : RotateMsg} {pkOld : SigPublicKey}
    (hcommit : CommittedBy prims env conn (conn.rotationCommit pkOld msg))
    (hstage : conn.stage = .serving) :
    RecordView prims env shared conn (commitRotate prims env shared conn io pkOld msg) := by
  have hspec : Program.Atomically shared.tables _
      (storeRotateKey prims (conn.rotationCommit pkOld msg).request shared.nowUnix) :=
    atomically_storeRotateKey
  have hrun := shared.run_atomically hspec
  unfold commitRotate
  dsimp only
  generalize shared.run
    (storeRotateKey prims (conn.rotationCommit pkOld msg).request shared.nowUnix) = run at hrun ⊢
  obtain ⟨outcome, reached⟩ := run
  rcases hrun with ⟨status, rfl, htables⟩ | ⟨⟨rotatedAt, dropped⟩, rfl, -, hstored⟩
  · have hclosed : ∀ code, RecordView prims env shared conn
        (failWithError env reached conn io code []) := fun code =>
      .closed ⟨rfl, rfl, rfl, rfl, rfl⟩ rfl rfl rfl htables
    cases status with
    | errDb => exact hclosed .internal
    | _ => exact hclosed .rejected
  · exact (acknowledged_acknowledgeRotate hstage).view hcommit hstored

theorem onRotate_view {content : Bytes} (hstage : conn.stage = .serving) :
    RecordView prims env shared conn (onRotate prims env shared conn io content) := by
  unfold onRotate
  split
  · exact failWithError_closed
  split
  · exact failWithError_closed
  split
  · exact failWithError_closed
  rename_i hfresh hready _ msg hmsg
  split
  · exact failWithError_closed
  rename_i pkOld hpin
  split_ifs with hnamed
  · have hold : pkOld = conn.pinPk := by
      unfold Conn.pinLookup at hpin
      split at hpin
      · cases hpin
      · exact (Option.some.inj hpin).symm
    refine commitRotate_view ?_ hstage
    exact ⟨by simpa using hfresh, by simpa using fun hdecoy => hready (.inr hdecoy),
      by simpa using fun hunset => hready (.inl hunset), rfl, rfl, rfl, hold, hnamed.1,
      hnamed.2⟩
  · exact failWithError_closed

theorem onContent_view {content : Bytes} (hstage : conn.stage = .serving) :
    RecordView prims env shared conn (onContent prims env shared conn io content) := by
  unfold onContent
  split
  · exact failWithError_closed
  split
  · split
    · exact .closed ⟨rfl, rfl, rfl, rfl, rfl⟩ rfl rfl rfl rfl
    · exact failWithError_closed
  split
  · exact onRotate_view hstage
  · exact failWithError_closed

theorem RecordView.of_session {session : Session}
    (hview : RecordView prims env shared { conn with sess := session } served) :
    RecordView prims env shared conn served := by
  cases hview with
  | closed hidentity haction hstage hevents htables =>
    exact .closed ⟨hidentity.1, hidentity.2, hidentity.3, hidentity.4, hidentity.5⟩ haction
      hstage hevents htables
  | rotated hidentity hevents hcommit hstored hend =>
    exact .rotated ⟨hidentity.1, hidentity.2, hidentity.3, hidentity.4, hidentity.5⟩ hevents
      ⟨hcommit.1, hcommit.2, hcommit.3, hcommit.4, hcommit.5, hcommit.6, hcommit.7, hcommit.8,
        hcommit.9⟩ hstored hend

theorem onRecord_view (hstage : conn.stage = .serving) :
    RecordView prims env shared conn (onRecord prims env shared conn io payload) := by
  unfold onRecord
  split
  · exact failWithError_closed
  dsimp only
  split
  · refine RecordView.of_session (onContent_view ?_)
    exact hstage
  · exact .closed ⟨rfl, rfl, rfl, rfl, rfl⟩ rfl rfl rfl rfl

/-! ## Every frame -/

/-- The record a frame is served with: a record that is free, or that the slot does not point
at yet, is bound first. -/
def Conn.opened (conn : Conn) (bound : Bool) : Conn :=
  if bound = false ∨ conn.stage = .free then
    { conn.cleared with sess := .blank, stage := .awaitCh }
  else conn

/-- Every outcome of `authd_conn_on_frame`, by the stage of the record it is served with. -/
inductive FrameView (prims : DaemonPrimitives) (config : AuthdConfig) (env : FrameEnv)
    (shared : Shared) (conn : Conn) (io : ConnIo) (served : Served) : Prop
  | hello (hstage : conn.stage = .awaitCh) (hview : HelloView shared conn served)
  | auth (hstage : conn.stage = .awaitCa) (hview : AuthView prims config env shared conn io served)
  | record (hstage : conn.stage = .serving) (hview : RecordView prims env shared conn served)
  | late (hstage : conn.stage = .closing) (hconn : served.conn = conn)
      (haction : served.action = .close) (hevents : served.events = [])
      (htables : served.shared.tables = shared.tables)

theorem onStage_view (hused : conn.stage ≠ .free) :
    FrameView prims config env shared conn io
      (onStage prims config env addrAdmitted shared conn io payload) := by
  unfold onStage
  cases hstage : conn.stage with
  | free => exact absurd hstage hused
  | awaitCh => exact .hello hstage (onClientHello_view hstage)
  | awaitCa => exact .auth hstage (onClientAuth_view hstage)
  | serving => exact .record hstage (onRecord_view hstage)
  | closing => exact .late hstage rfl rfl rfl rfl

theorem FrameView.of_shared (hview : FrameView prims config env reached conn io served)
    (htables : reached.tables = shared.tables) (hnow : reached.nowUnix = shared.nowUnix) :
    FrameView prims config env shared conn io served := by
  cases hview with
  | hello hstage hview =>
    refine .hello hstage ?_
    cases hview with
    | malformed hconn haction hevents hkept =>
      exact .malformed hconn haction hevents (hkept.trans htables)
    | pinned hpin hkept hgreeted => exact .pinned (htables ▸ hpin) (hkept.trans htables) hgreeted
  | auth hstage hview =>
    exact .auth hstage (hview.of_same ⟨rfl, rfl, rfl, rfl, rfl⟩ rfl htables hnow)
  | record hstage hview =>
    refine .record hstage ?_
    cases hview with
    | closed hidentity haction hclosing hevents hkept =>
      exact .closed hidentity haction hclosing hevents (hkept.trans htables)
    | rotated hidentity hevents hcommit hstored hend =>
      rw [htables, hnow] at hstored
      exact .rotated hidentity hevents hcommit hstored hend
  | late hstage hconn haction hevents hkept =>
    exact .late hstage hconn haction hevents (hkept.trans htables)

theorem bind_fst {pending : PendingStore} {now : ℕ} :
    (conn.bind pending now).1 = { conn.cleared with sess := .blank, stage := .awaitCh } := by
  unfold Conn.bind
  dsimp only
  rw [Conn.reset_fst]

theorem onFrame_view {bound : Bool} :
    FrameView prims config env shared (conn.opened bound) io
      (onFrame prims config env bound addrAdmitted shared conn io payload) := by
  unfold onFrame Conn.opened
  split_ifs with hbound
  · dsimp only
    rw [bind_fst]
    exact (onStage_view ConnStage.noConfusion).of_shared rfl rfl
  exact onStage_view fun hfree => hbound (.inr hfree)

end MldsaAuth.Authd
