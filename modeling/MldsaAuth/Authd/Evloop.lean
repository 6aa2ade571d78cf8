/-
# The daemon as a machine

Connections live in two pools of slots, one for the protocol listeners and one for
the local sockets; the connection records are a third array. One thread serves them
all. This file embeds the operations of `authd/evloop.c` on one slot (accepting,
taking in bytes, serving one frame or one line, writing, closing) together with the
callbacks of `authd_conn.c` that the daemon wires to them, and makes them the steps of
a machine. The slot of a record is found by its number, whatever its pool: this is
how the close callback is wired. Each accepted connection gets a serial number, and
what the handlers report is logged under it; the program keeps neither.
-/

import MldsaAuth.Authd.LocalApi
import MldsaAuth.Foundation.Machine
import MldsaAuth.Protocol.Calls

namespace MldsaAuth.Authd

open Foundation Crypto Protocol

/-- `slot_state_t`. -/
inductive SlotState where
  | free
  | active
  | draining
deriving DecidableEq, Repr

/-- `slot_kind_t`, the pool of a slot. -/
inductive SlotKind where
  | proto
  | loc
deriving DecidableEq, Repr

/-- A slot by its pool and its number. -/
structure SlotRef where
  kind : SlotKind
  index : ℕ
deriving DecidableEq

/-- `authd_slot_t`. `bound` says whether `user` points at the connection record of the slot's
number. -/
structure Slot where
  state : SlotState
  io : ConnIo
  deadlineMs : ℕ
  isAdmin : Bool
  addrSettled : Bool
  addrAdmitted : Bool
  bound : Bool
  serial : ℕ
deriving DecidableEq

/-- A free slot of a pool. -/
def Slot.blank (kind : SlotKind) : Slot where
  state := .free
  io := if kind = .loc then ConnIo.reset.setMode .line else .reset
  deadlineMs := 0
  isAdmin := false
  addrSettled := false
  addrAdmitted := false
  bound := false
  serial := 0

/-- A listener of the loop. -/
structure Listener where
  kind : SlotKind
  isAdmin : Bool
  ws : Bool
  proxy : Bool
deriving DecidableEq

/-- What was reported: by the connection of a serial number, or by a request that was
answered OK. -/
inductive LogEntry where
  | conn (serial : ℕ) (event : ConnEvent)
  | api (effect : ApiEffect)
deriving DecidableEq

/-- `evloop_t` with the connection records and what the connections share. -/
structure Daemon where
  conns : List Conn
  slots : List Slot
  localSlots : List Slot
  inUse : ℕ
  localInUse : ℕ
  stopping : Bool
  shared : Shared
  accepted : ℕ
  log : List LogEntry
deriving DecidableEq

/-- Whether an effect closes a connection: revoking a device closes those of its handle, and
disabling a user or revoking all their devices those of the user. -/
def ApiEffect.closes : ApiEffect → Conn → Bool
  | deviceRevoked handle, conn => conn.handle == handle
  | userDisabled userId, conn => conn.userId == userId
  | devicesRevoked userId, conn => conn.userId == userId
  | _, _ => false

/-- A deadline that many milliseconds from now, or none. -/
def deadlineAfter (now timeout : ℕ) : ℕ := if 0 < timeout then now + timeout else 0

/-- Which of the next statements of the store fail. -/
def Shared.withFaults (shared : Shared) (faults : List Bool) : Shared :=
  { shared with
    store := { shared.store with conn := { shared.store.conn with faults := faults } } }

namespace Daemon

/-- A daemon that has not accepted anything. -/
def start (slotCount localCount : ℕ) (shared : Shared) : Daemon where
  conns := List.replicate slotCount .blank
  slots := List.replicate slotCount (.blank .proto)
  localSlots := List.replicate localCount (.blank .loc)
  inUse := 0
  localInUse := 0
  stopping := false
  shared := shared
  accepted := 0
  log := []

variable (daemon : Daemon)

/-- The slots of a pool. -/
def pool : SlotKind → List Slot
  | .proto => daemon.slots
  | .loc => daemon.localSlots

/-- A slot. -/
def slotAt (ref : SlotRef) : Option Slot := (daemon.pool ref.kind)[ref.index]?

/-- Replace a slot. -/
def setSlot (ref : SlotRef) (slot : Slot) : Daemon :=
  match ref.kind with
  | .proto => { daemon with slots := daemon.slots.set ref.index slot }
  | .loc => { daemon with localSlots := daemon.localSlots.set ref.index slot }

/-! ## Closing -/

/-- The connection record of a number is reset. -/
def resetConn (index : ℕ) : Daemon :=
  match daemon.conns[index]? with
  | none => daemon
  | some conn =>
    let fresh := conn.reset daemon.shared.pending daemon.shared.nowMs
    { daemon with
      conns := daemon.conns.set index fresh.1
      shared := { daemon.shared with pending := fresh.2 } }

/-- An admitted address is given back to the limiter. -/
def releaseAddr (prims : DaemonPrimitives) (daemon : Daemon) (slot : Slot) : Daemon :=
  if slot.addrAdmitted then
    { daemon with
      shared :=
        { daemon.shared with
          rl := daemon.shared.rl.map fun limiter => limiter.release prims slot.io.clientAddr } }
  else daemon

/-- `authd_conn_on_close`. The record is found by the slot's number alone. -/
def onClose (prims : DaemonPrimitives) (daemon : Daemon) (ref : SlotRef) (slot : Slot) : Daemon :=
  (daemon.resetConn ref.index).releaseAddr prims slot

/-- The end of `evloop_close_slot`: the slot is free again. -/
def freeSlot (daemon : Daemon) (ref : SlotRef) : Daemon :=
  let daemon := daemon.setSlot ref (.blank ref.kind)
  match ref.kind with
  | .proto => { daemon with inUse := daemon.inUse - 1 }
  | .loc => { daemon with localInUse := daemon.localInUse - 1 }

variable (prims : DaemonPrimitives)

/-- `evloop_close_slot`. -/
def closeSlot (daemon : Daemon) (ref : SlotRef) : Daemon :=
  match daemon.slotAt ref with
  | none => daemon
  | some slot =>
    if slot.state = .free then daemon else (daemon.onClose prims ref slot).freeSlot ref

/-- One turn of the loop of `close_matching`. -/
def closeMatchingAt (condition : Conn → Bool) (daemon : Daemon) (index : ℕ) : Daemon :=
  match daemon.conns[index]? with
  | none => daemon
  | some conn =>
    if conn.stage ≠ .free ∧ condition conn = true then
      daemon.closeSlot prims { kind := .proto, index := index }
    else daemon

/-- `close_matching`. -/
def closeMatching (condition : Conn → Bool) (daemon : Daemon) : Daemon :=
  (List.range (min daemon.conns.length daemon.slots.length)).foldl
    (closeMatchingAt prims condition) daemon

/-! ## Accepting -/

/-- `take_slot`. -/
def takeSlot (daemon : Daemon) (kind : SlotKind) : Option ℕ :=
  (daemon.pool kind).findIdx? fun slot => slot.state = .free

/-- The slot of a connection that a listener has just accepted. -/
def acceptedSlot (config : AuthdConfig) (daemon : Daemon) (listener : Listener) : Slot where
  state := .active
  io :=
    (ConnIo.reset.setMode
      (if listener.kind = .loc then .line else if listener.ws then .ws else .frame)).setProxy
      listener.proxy
  deadlineMs := deadlineAfter daemon.shared.nowMs
    (if listener.kind = .loc then config.idleTimeoutMs else config.handshakeTimeoutMs)
  isAdmin := decide (listener.kind = .loc) && listener.isAdmin
  addrSettled := false
  addrAdmitted := false
  bound := false
  serial := daemon.accepted

/-- `accept_ready` for one connection; without a free slot it is refused. -/
def accept (config : AuthdConfig) (daemon : Daemon) (listener : Listener) : Daemon :=
  if daemon.stopping then daemon
  else
    match daemon.takeSlot listener.kind with
    | none => daemon
    | some index =>
      let next := daemon.setSlot { kind := listener.kind, index := index }
        (daemon.acceptedSlot config listener)
      match listener.kind with
      | .proto => { next with inUse := next.inUse + 1, accepted := daemon.accepted + 1 }
      | .loc =>
        { next with localInUse := next.localInUse + 1, accepted := daemon.accepted + 1 }

/-! ## Reading -/

/-- `authd_conn_on_addr`: whether the connection may go on, its slot and the limiter. -/
def onAddr (shared : Shared) (slot : Slot) : EvAction × Slot × Shared :=
  if slot.io.clientAddr = .none then
    (.close, { slot with io := slot.io.wsSilence }, shared)
  else
    match shared.rl with
    | none => (.continue_, slot, shared)
    | some limiter =>
      match limiter.admitAddr prims slot.io.clientAddr shared.nowMs with
      | (.allow, limiter) =>
        (.continue_, { slot with addrAdmitted := true }, { shared with rl := some limiter })
      | (verdict, limiter) =>
        (.close, { slot with io := slot.io.wsRefuse (decide (verdict ≠ .denyTable)) },
          { shared with rl := some limiter })

/-- The part of `slot_readable` that decides the client's address, once it is known. -/
def settleAddr (daemon : Daemon) (ref : SlotRef) (slot : Slot) : Daemon :=
  let settled := onAddr prims daemon.shared { slot with addrSettled := true }
  let next : Daemon := { daemon with shared := settled.2.2 }
  next.setSlot ref
    (if settled.1 = EvAction.close then { settled.2.1 with state := .draining }
      else settled.2.1)

/-- `slot_readable` after a read that returned bytes, up to serving what is complete. -/
def receive (daemon : Daemon) (ref : SlotRef) (data : Bytes) : Daemon :=
  match daemon.slotAt ref with
  | none => daemon
  | some slot =>
    match slot.io.push prims data with
    | (.ok, io) =>
      if slot.addrSettled = false ∧ io.proxySettled = true then
        daemon.settleAddr prims ref { slot with io := io }
      else daemon.setSlot ref { slot with io := io }
    | (_, io) => (daemon.setSlot ref { slot with io := io }).closeSlot prims ref

/-! ## Serving -/

/-- What serving a frame or a line takes from its surroundings. -/
structure ServeEnv where
  frame : FrameEnv
  line : LocalEnv
  faults : List Bool

/-- The slot after a frame or a line has been served. -/
def servedSlot (config : AuthdConfig) (now : ℕ) (slot : Slot) (io : ConnIo) (action : EvAction) :
    Slot :=
  { slot with
    io := io
    deadlineMs := deadlineAfter now config.idleTimeoutMs
    state := if action = .close then .draining else slot.state }

/-- The daemon after a frame of a protocol connection has been served. -/
def putServed (config : AuthdConfig) (daemon : Daemon) (index : ℕ) (slot : Slot)
    (served : Served) : Daemon :=
  { daemon with
    conns := daemon.conns.set index served.conn
    slots := daemon.slots.set index
      { servedSlot config daemon.shared.nowMs slot served.io.consumeFrame served.action with
        bound := true }
    shared := served.shared
    log := daemon.log ++ served.events.map (LogEntry.conn slot.serial) }

/-- `serve_buffered` for one frame of a protocol connection. -/
def serveFrame (config : AuthdConfig) (env : ServeEnv) (daemon : Daemon) (index : ℕ) : Daemon :=
  match daemon.slots[index]? with
  | none => daemon
  | some slot =>
    match slot.io.nextFrame with
    | (none, io) => daemon.setSlot { kind := .proto, index := index } { slot with io := io }
    | (some payload, io) =>
      match daemon.conns[index]? with
      | none =>
        daemon.setSlot { kind := .proto, index := index }
          (servedSlot config daemon.shared.nowMs slot io.consumeFrame .close)
      | some conn =>
        daemon.putServed config index slot
          (onFrame prims config env.frame slot.bound slot.addrAdmitted
            (daemon.shared.withFaults env.faults) conn io payload)

/-- What an OK entails is done: the connections it closes are closed. -/
def afterLine (daemon : Daemon) (served : LineServed) : Daemon :=
  let answered :=
    { daemon with
      shared := served.shared
      log := daemon.log ++ served.effect.toList.map LogEntry.api }
  match served.effect with
  | none => answered
  | some effect => answered.closeMatching prims effect.closes

/-- The daemon after a line of the local API has been handled and the reply queued. -/
def putLineServed (config : AuthdConfig) (daemon : Daemon)
    (index : ℕ) (slot : Slot) (io : ConnIo) (served : LineServed) : Daemon :=
  (daemon.afterLine prims served).setSlot { kind := .loc, index := index }
    (servedSlot config daemon.shared.nowMs slot (io.queue served.reply).2.consumeLine .continue_)

/-- `serve_buffered` for one line of a local connection. -/
def serveLine (config : AuthdConfig) (env : ServeEnv) (daemon : Daemon) (index : ℕ) : Daemon :=
  match daemon.localSlots[index]? with
  | none => daemon
  | some slot =>
    match slot.io.nextLine with
    | (none, io) => daemon.setSlot { kind := .loc, index := index } { slot with io := io }
    | (some line, io) =>
      daemon.putLineServed prims config index slot io
        (localapiOnLine prims config env.line slot.isAdmin
          (daemon.shared.withFaults env.faults) line)

/-- `serve_buffered` for one frame or line. -/
def serve (config : AuthdConfig) (env : ServeEnv) (daemon : Daemon) (ref : SlotRef) : Daemon :=
  match ref.kind with
  | .proto => daemon.serveFrame prims config env ref.index
  | .loc => daemon.serveLine prims config env ref.index

/-! ## Writing, stopping, time -/

/-- `slot_writable` after a write of some bytes; a slot that has drained is closed. -/
def written (daemon : Daemon) (ref : SlotRef) (count : ℕ) : Daemon :=
  match daemon.slotAt ref with
  | none => daemon
  | some slot =>
    let io := slot.io.sent count
    let next := daemon.setSlot ref { slot with io := io }
    if io.pending = 0 ∧ slot.state = .draining then next.closeSlot prims ref else next

/-- The slot of a connection that is to finish what is queued and close. -/
def drainSlot (slot : Slot) : Slot :=
  if slot.state = .active then { slot with state := .draining } else slot

/-- `evloop_stop`. -/
def stop (daemon : Daemon) : Daemon :=
  { daemon with
    stopping := true
    slots := daemon.slots.map drainSlot
    localSlots := daemon.localSlots.map drainSlot }

/-- The main loop reads the clocks. -/
def tick (daemon : Daemon) (nowMs : ℕ) (nowUnix : ℤ) : Daemon :=
  { daemon with shared := { daemon.shared with nowMs := nowMs, nowUnix := nowUnix } }

/-- `TOKEN_SWEEP_INTERVAL_MS`. -/
def tokenSweepIntervalMs : ℕ := 60000

/-- `authd_app_maybe_sweep`. -/
def maybeSweep (daemon : Daemon) (faults : List Bool) : Daemon :=
  if daemon.shared.nextSweepMs ≠ 0 ∧ daemon.shared.nowMs < daemon.shared.nextSweepMs then daemon
  else
    let shared :=
      { daemon.shared.withFaults faults with
        nextSweepMs := daemon.shared.nowMs + tokenSweepIntervalMs }
    { daemon with shared := (shared.run (storeSweep daemon.shared.nowUnix)).2 }

end Daemon

/-! ## The machine -/

/-- What can happen to the daemon between two moments at which nothing is under way. -/
inductive LoopEvent where
  | accept (listener : Listener)
  | receive (ref : SlotRef) (data : Bytes)
  | serve (ref : SlotRef) (env : Daemon.ServeEnv)
  | written (ref : SlotRef) (count : ℕ)
  | close (ref : SlotRef)
  | stop
  | tick (nowMs : ℕ) (nowUnix : ℤ)
  | sweep (faults : List Bool)

/-- One step of the daemon. -/
def Daemon.step (prims : DaemonPrimitives) (config : AuthdConfig) (daemon : Daemon) :
    LoopEvent → Daemon
  | .accept listener => daemon.accept config listener
  | .receive ref data => daemon.receive prims ref data
  | .serve ref env => daemon.serve prims config env ref
  | .written ref count => daemon.written prims ref count
  | .close ref => daemon.closeSlot prims ref
  | .stop => daemon.stop
  | .tick nowMs nowUnix => daemon.tick nowMs nowUnix
  | .sweep faults => daemon.maybeSweep faults

/-- Whether a slot is neither free nor draining. -/
def Daemon.isActive (daemon : Daemon) (ref : SlotRef) : Bool :=
  (daemon.slotAt ref).any fun slot => slot.state = .active

/-- Input is read and served only for active slots; everything else can happen at any time. -/
def Daemon.allowed (daemon : Daemon) : LoopEvent → Prop
  | .receive ref _ => daemon.isActive ref = true
  | .serve ref _ => daemon.isActive ref = true
  | _ => True

instance (daemon : Daemon) : ∀ event, Decidable (daemon.allowed event)
  | .receive ref _ => inferInstanceAs (Decidable (daemon.isActive ref = true))
  | .serve ref _ => inferInstanceAs (Decidable (daemon.isActive ref = true))
  | .accept _ | .written _ _ | .close _ | .stop | .tick _ _ | .sweep _ =>
    inferInstanceAs (Decidable True)

/-- The daemon. Statements of its store that fail leave the transaction open. -/
def daemonMachine (prims : DaemonPrimitives) (config : AuthdConfig) : Machine Daemon LoopEvent where
  step := Daemon.step prims config
  allowed := Daemon.allowed

theorem step_daemonMachine {prims : DaemonPrimitives} {config : AuthdConfig} {daemon : Daemon}
    {event : LoopEvent} :
    (daemonMachine prims config).step daemon event = daemon.step prims config event := rfl

instance (prims : DaemonPrimitives) (config : AuthdConfig) (daemon : Daemon)
    (event : LoopEvent) : Decidable ((daemonMachine prims config).allowed daemon event) :=
  inferInstanceAs (Decidable (daemon.allowed event))

/-! ## A small daemon

One user with one device, whose key is the client's of the sample handshake, for concrete
runs. -/

def sampleConfig : AuthdConfig where
  serverId := [2]
  serverKp := sampleKeypair 2
  padBucket := 256
  rotationDueAgeS := 0
  codeTtlS := 60
  lockThreshold := 5
  lockSeconds := 900
  ticketTtlS := 600
  startedMs := 0
  handshakeTimeoutMs := 10000
  idleTimeoutMs := 60000

def sampleUser : UserRow := Tables.newUser (ascii "u") .user 0

def sampleDevice : DeviceRow :=
  Tables.newDevice ⟨[1], ascii "u", (sampleKeypair 1).publicKey, ascii "site", ascii "local-api",
    none⟩ 0

def sampleKey : KeyRow where
  keyId := 1
  handle := [1]
  pk := (sampleKeypair 1).publicKey
  pkFp := checksum (sampleKeypair 1).publicKey.toList
  status := .active
  validFrom := 0
  validTo := none
  supersededByHsid := none

def sampleTables : Tables where
  users := [sampleUser]
  devices := [sampleDevice]
  deviceKeys := [sampleKey]
  loginCodes := []
  tokens := []
  recoveryCodes := []
  enrollTickets := []
  audit := []

def sampleShared : Shared where
  store :=
    { conn := { tables := sampleTables, saved := none, faults := [] }
      decoyPk := Blob.zero 1952 }
  pending := (PendingStore.storeInitCommon true 4 100000).2
  rl := none
  nowMs := 1
  nowUnix := 1000
  nextSweepMs := 0
  recoveryKdfCalls := 0

/-- A record cipher that hides nothing. -/
def plainAead : Aead where
  encrypt := fun _ _ _ message => some (message ++ List.replicate 16 0)
  decrypt := fun _ _ _ ciphertext => some (ciphertext.take (ciphertext.length - 16))

/-- The surroundings of a step that draws a given code and token. -/
def sampleServe (code token : UInt8) : Daemon.ServeEnv where
  frame :=
    { call := (sampleEnv 2).toCallEnv
      again := (sampleEnv 2).toCallEnv
      aead := plainAead
      code := blobOf 32 [code]
      storeNow := 1000 }
  line :=
    { token := blobOf 32 [token]
      ticket := blobOf 32 [token]
      recoveryCode := fun index => some (blobOf 10 [UInt8.ofNat index], [])
      storeNow := 1000
      storeLater := 1000
      backupOk := true }
  faults := []

/-- A connection is accepted by the raw listener, or by the administrator's socket. -/
def sampleAccept : SlotKind → LoopEvent
  | .proto => .accept { kind := .proto, isAdmin := false, ws := false, proxy := false }
  | .loc => .accept { kind := .loc, isAdmin := true, ws := false, proxy := false }

/-- A frame arrives, is served, and the reply is written. -/
def sampleFrame (index : ℕ) (code : UInt8) (payload : Bytes) : List LoopEvent :=
  [.receive ⟨.proto, index⟩ (beBytes 4 payload.length ++ payload),
    .serve ⟨.proto, index⟩ (sampleServe code 0), .written ⟨.proto, index⟩ 65536]

/-- A line arrives, is served, and the reply is written. -/
def sampleLine (index : ℕ) (token : UInt8) (line : Bytes) : List LoopEvent :=
  [.receive ⟨.loc, index⟩ (line ++ [0x0a]), .serve ⟨.loc, index⟩ (sampleServe 0 token),
    .written ⟨.loc, index⟩ 65536]

/-- The ServerHello that answers a ClientHello. -/
def sampleReply (hello : ClientHello) : Bytes :=
  (sampleServerHello (sampleSig 2 (transcriptHashServerAuth .sample hello.bytes
    (sampleServerHello []).unsignedBytes))).bytes

/-- The ClientAuth after a ClientHello. -/
def sampleAuth (hello : ClientHello) : Bytes :=
  ClientAuth.bytes
    { handshakeId := transcriptHandshakeId .sample hello.bytes (sampleReply hello)
      sig := sampleSig 1 (transcriptHashClientAuth .sample hello.bytes (sampleReply hello)) }

/-- A connection is accepted in the first free slot and logs in. -/
def sampleLogin (index : ℕ) (code : UInt8) (hello : ClientHello) : List LoopEvent :=
  sampleAccept .proto :: sampleFrame index 0 hello.bytes ++
    sampleFrame index code (sampleAuth hello)

/-- The first record of a session, with a given content. -/
def sampleRecord (content : Bytes) : Bytes :=
  recordBytes 0 (sealInner content (innerLenFor content.length 256) ++ List.replicate 16 0)

/-- A ROTATE of the first party's key to the third's, in the session after a ClientHello. -/
def sampleRotate (hello : ClientHello) : Bytes :=
  let subject : RotateSubject :=
    { handshakeId := transcriptHandshakeId .sample hello.bytes (sampleReply hello)
      flags := 0
      handle := [1]
      pkOld := (sampleKeypair 1).publicKey
      pkNew := (sampleKeypair 3).publicKey }
  let sigOld := sampleSig 1 (checksum (subject.hashed .old))
  let sigNew := sampleSig 3 (checksum (subject.hashed .new))
  sampleRecord ([authmsgOpRotate, authmsgVersion, 0, 1, 1] ++ subject.pkNew.toList ++
    (beBytes 2 sigOld.length ++ sigOld) ++ (beBytes 2 sigNew.length ++ sigNew))

/-- The daemon after some events, from two slots in each pool. -/
def sampleDaemon (events : List LoopEvent) : Daemon :=
  events.foldl (daemonMachine .sample sampleConfig).step (.start 2 2 sampleShared)

theorem sampleDaemon_append (earlier later : List LoopEvent) :
    sampleDaemon (earlier ++ later) =
      later.foldl (daemonMachine .sample sampleConfig).step (sampleDaemon earlier) :=
  List.foldl_append

end MldsaAuth.Authd
