/-
# The moves a step is made of

Whatever happens to a connection, the step is made of a few moves: another slot takes
the place of the one it is about, a slot is closed, or the slots stay and the records,
the log and what is shared change. What every move preserves is preserved by every such
step. The verdict on an address, which counts a connection, is a step of its own.
-/

import MldsaAuth.Authd.Link
import MldsaAuth.Authd.LoopSteps
import Mathlib.Logic.Relation

namespace MldsaAuth.Authd

open Foundation Crypto Protocol

/-! ## What a frame callback leaves alone -/

variable {content : Bytes}

namespace ConnIo

variable {first second third io : ConnIo}

/-- Apart from the output the buffers are as they were. -/
def SameInput (before after : ConnIo) : Prop :=
  ∃ out outSent, after = { before with out := out, outSent := outSent }

theorem SameInput.rfl : SameInput io io := ⟨io.out, io.outSent, Eq.refl _⟩

theorem SameInput.trans (hfirst : SameInput first second) (hsecond : SameInput second third) :
    SameInput first third := by
  obtain ⟨_, _, rfl⟩ := hfirst
  obtain ⟨out, outSent, rfl⟩ := hsecond
  exact ⟨out, outSent, Eq.refl _⟩

theorem sameInput_queue (io : ConnIo) (payload : Bytes) : SameInput io (io.queue payload).2 := by
  rcases queue_cases with hqueue | ⟨status, -, hqueue⟩
  · rw [hqueue]
    exact ⟨_, _, Eq.refl _⟩
  rw [hqueue]
  exact .rfl

theorem sameInput_queueSealed {aead : Aead} {now : ℕ} {sess : Session} :
    SameInput io (queueSealed aead now sess io content).2.2 := by
  unfold queueSealed
  dsimp only
  split
  · exact sameInput_queue io _
  · exact .rfl

end ConnIo

/-- A frame callback writes to the output only, does not look at the clock again, and leaves the
limiter alone or gives a token back. -/
structure Served.Spares (prims : DaemonPrimitives) (shared : Shared) (io : ConnIo)
    (served : Served) : Prop where
  input : ConnIo.SameInput io served.io
  clock : served.shared.nowUnix = shared.nowUnix
  limiter : served.shared.rl = shared.rl ∨
    ∃ addr now, served.shared.rl = shared.rl.map fun limiter => limiter.refund prims addr now

variable {payload : Bytes} {prims : DaemonPrimitives}

section Handlers

variable {config : AuthdConfig} {env : FrameEnv} {shared : Shared} {conn : Conn} {io : ConnIo}

open ConnIo

theorem Served.Spares.of_shared {reached : Shared} {served : Served}
    (hspares : Spares prims reached io served) (hclock : reached.nowUnix = shared.nowUnix)
    (hrl : reached.rl = shared.rl) : Spares prims shared io served :=
  ⟨hspares.input, hspares.clock.trans hclock, hrl ▸ hspares.limiter⟩

theorem spares_onClientHello :
    Served.Spares prims shared io (onClientHello prims config env shared conn io payload) := by
  unfold onClientHello
  split
  · exact ⟨.rfl, rfl, .inl rfl⟩
  rename_i ch _
  have hsame : (resolvePin shared ch.id).2.nowUnix = shared.nowUnix ∧
      (resolvePin shared ch.id).2.rl = shared.rl := by
    unfold resolvePin
    split <;> rename_i hrun <;>
      exact ⟨congrArg (Shared.nowUnix ∘ Prod.snd) hrun.symm,
        congrArg (Shared.rl ∘ Prod.snd) hrun.symm⟩
  refine Served.Spares.of_shared ?_ hsame.1 hsame.2
  unfold acceptClientHello sendServerHello
  dsimp only
  split
  · split
    · split
      · split
        · exact ⟨sameInput_queue io _, rfl, .inl rfl⟩
        · exact ⟨sameInput_queue io _, rfl, .inl rfl⟩
      · exact ⟨.rfl, rfl, .inl rfl⟩
    · exact ⟨.rfl, rfl, .inl rfl⟩
  · exact ⟨.rfl, rfl, .inl rfl⟩

theorem spares_storeLoginCode :
    SameInput io (storeLoginCode prims config env shared conn io).io ∧
      (storeLoginCode prims config env shared conn io).shared.nowUnix = shared.nowUnix ∧
      (storeLoginCode prims config env shared conn io).shared.rl = shared.rl := by
  have hdue : (rotationDue config shared conn).2.nowUnix = shared.nowUnix ∧
      (rotationDue config shared conn).2.rl = shared.rl := by
    unfold rotationDue
    split
    · exact ⟨rfl, rfl⟩
    split <;> rename_i hrun <;>
      exact ⟨congrArg (Shared.nowUnix ∘ Prod.snd) hrun.symm,
        congrArg (Shared.rl ∘ Prod.snd) hrun.symm⟩
  unfold storeLoginCode
  dsimp only
  split
  · exact ⟨.rfl, hdue⟩
  split
  · exact ⟨.rfl, hdue⟩
  · exact ⟨sameInput_queueSealed, hdue⟩

theorem spares_issueLoginCode :
    SameInput io (issueLoginCode prims config env shared conn io).io ∧
      (issueLoginCode prims config env shared conn io).shared.nowUnix = shared.nowUnix ∧
      (issueLoginCode prims config env shared conn io).shared.rl = shared.rl := by
  unfold issueLoginCode
  split
  · exact ⟨.rfl, rfl, rfl⟩
  dsimp only
  split
  · exact spares_storeLoginCode
  · exact ⟨.rfl, rfl, rfl⟩

theorem spares_onClientAuth {addrAdmitted : Bool} :
    Served.Spares prims shared io
      (onClientAuth prims config env addrAdmitted shared conn io payload) := by
  unfold onClientAuth finishClientAuth startServing
  dsimp only
  split
  · split
    · exact ⟨.rfl, rfl, .inl rfl⟩
    split
    · exact ⟨.rfl, rfl, .inl rfl⟩
    split
    · refine ⟨spares_issueLoginCode.1, ?_, ?_⟩ <;> dsimp only <;> split
      · exact spares_issueLoginCode.2.1
      · exact spares_issueLoginCode.2.1
      · exact .inr ⟨_, _, congrArg (Option.map _) spares_issueLoginCode.2.2⟩
      · exact .inl spares_issueLoginCode.2.2
    · obtain ⟨hinput, hclock, hrl⟩ := spares_issueLoginCode
      exact ⟨hinput, hclock, .inl hrl⟩
  · exact ⟨.rfl, rfl, .inl rfl⟩

theorem spares_failWithError {code : AuthmsgErr} {events : List ConnEvent} :
    Served.Spares prims shared io (failWithError env shared conn io code events) :=
  ⟨sameInput_queueSealed, rfl, .inl rfl⟩

theorem spares_onRotate :
    Served.Spares prims shared io (onRotate prims env shared conn io content) := by
  unfold onRotate commitRotate acknowledgeRotate
  split
  · exact spares_failWithError
  split
  · exact spares_failWithError
  split
  · exact spares_failWithError
  split
  · exact spares_failWithError
  split
  · dsimp only
    split
    · exact spares_failWithError.of_shared rfl rfl
    · exact spares_failWithError.of_shared rfl rfl
    · split
      · exact spares_failWithError.of_shared rfl rfl
      · split
        · exact ⟨sameInput_queueSealed, rfl, .inl rfl⟩
        · exact ⟨sameInput_queueSealed.trans sameInput_queueSealed, rfl, .inl rfl⟩
  · exact spares_failWithError

theorem spares_onRecord :
    Served.Spares prims shared io (onRecord prims env shared conn io payload) := by
  unfold onRecord onContent
  split
  · exact spares_failWithError
  dsimp only
  split
  · split
    · exact spares_failWithError
    split
    · split
      · exact ⟨.rfl, rfl, .inl rfl⟩
      · exact spares_failWithError
    split
    · exact spares_onRotate
    · exact spares_failWithError
  · exact ⟨.rfl, rfl, .inl rfl⟩

theorem spares_onFrame {bound addrAdmitted : Bool} {payload : Bytes} :
    Served.Spares prims shared io
      (onFrame prims config env bound addrAdmitted shared conn io payload) := by
  have hstage : ∀ (shared : Shared) (conn : Conn), Served.Spares prims shared io
      (onStage prims config env addrAdmitted shared conn io payload) := by
    intro shared conn
    unfold onStage
    split
    · exact spares_onClientHello
    · exact spares_onClientAuth
    · exact spares_onRecord
    · exact ⟨.rfl, rfl, .inl rfl⟩
    · exact ⟨.rfl, rfl, .inl rfl⟩
  unfold onFrame
  split
  · exact (hstage _ _).of_shared rfl rfl
  · exact hstage _ _

theorem shared_localapiOnLine {line : Bytes} {isAdmin : Bool} {env : LocalEnv} :
    (localapiOnLine prims config env isAdmin shared line).shared.nowUnix = shared.nowUnix ∧
      (localapiOnLine prims config env isAdmin shared line).shared.rl = shared.rl := by
  unfold localapiOnLine
  dsimp only
  split <;> exact ⟨rfl, rfl⟩

end Handlers

/-! ## Moves -/

namespace Daemon

variable {config : AuthdConfig} {daemon after : Daemon}
  {ref : SlotRef} {kind : SlotKind} {slot next : Slot}

/-- What serving does to the slot that is served. -/
inductive ServedAt (config : AuthdConfig) (kind : SlotKind) (slot : Slot) : Slot → Prop
  | waits {io : ConnIo} (hnext : slot.io.nextUnit kind = (none, io)) :
      ServedAt config kind slot { slot with io := io }
  | served {unit : Bytes} {taken io : ConnIo} (nowMs : ℕ) (action : EvAction) (bound : Bool)
      (hnext : slot.io.nextUnit kind = (some unit, taken)) (hsame : ConnIo.SameInput taken io) :
      ServedAt config kind slot
        { servedSlot config nowMs slot (io.consumeUnit kind) action with bound := bound }

variable (prims : DaemonPrimitives) (config : AuthdConfig) (kind : SlotKind) (slot : Slot) in
/-- What a step does to the slot it is about, unless it closes it. -/
inductive SlotMove : Slot → Prop
  | pushed {data : Bytes} {status : ConnIoStatus} {io : ConnIo}
      (hpush : slot.io.push prims data = (status, io)) : SlotMove { slot with io := io }
  | served {next : Slot} (hactive : slot.state = .active)
      (hserved : ServedAt config kind slot next) : SlotMove next
  | sent {count : ℕ} : SlotMove { slot with io := slot.io.sent count }

theorem SlotMove.free (hmove : SlotMove prims config kind slot next) :
    next.state = .free ↔ slot.state = .free := by
  cases hmove with
  | pushed | sent => exact Iff.rfl
  | served hactive hserved =>
    cases hserved with
    | waits => exact Iff.rfl
    | served _ action =>
      show (if action = .close then SlotState.draining else slot.state) = .free ↔ _
      rw [hactive]
      split <;> exact iff_of_false nofun nofun

variable (prims : DaemonPrimitives) (config : AuthdConfig) (ref : SlotRef) (daemon : Daemon) in
/-- One move of a step about a slot. -/
inductive LoopMove : Daemon → Prop
  | slot {slot next : Slot} (hslot : daemon.slotAt ref = some slot)
      (hmove : SlotMove prims config ref.kind slot next) : LoopMove (daemon.setSlot ref next)
  | closed {other : SlotRef} : LoopMove (daemon.closeSlot prims other)
  | around {conns : List Conn} {shared : Shared} {log : List LogEntry}
      (hclock : shared.nowUnix = daemon.shared.nowUnix)
      (hlimiter : shared.rl = daemon.shared.rl ∨ ∃ addr now,
        shared.rl = daemon.shared.rl.map fun limiter => limiter.refund prims addr now) :
      LoopMove { daemon with conns := conns, shared := shared, log := log }

/-- Moves about a slot, one after another. -/
def LoopMoves (prims : DaemonPrimitives) (config : AuthdConfig) (ref : SlotRef) :
    Daemon → Daemon → Prop :=
  Relation.ReflTransGen (LoopMove prims config ref)

theorem LoopMoves.single (hmove : LoopMove prims config ref daemon after) :
    LoopMoves prims config ref daemon after := Relation.ReflTransGen.single hmove

/-- What every move preserves. -/
theorem LoopMoves.invariant {property : Daemon → Prop}
    (hmove : ∀ before after, LoopMove prims config ref before after → property before →
      property after)
    (hmoves : LoopMoves prims config ref daemon after) (hdaemon : property daemon) :
    property after := by
  induction hmoves with
  | refl => exact hdaemon
  | tail _ hlast ih => exact hmove _ _ hlast ih

theorem loopMoves_closeMatching {condition : Conn → Bool} :
    LoopMoves prims config ref daemon (daemon.closeMatching prims condition) := by
  unfold closeMatching
  refine List.foldlRecOn _ _ Relation.ReflTransGen.refl fun reached hreached index _ => ?_
  unfold closeMatchingAt
  split
  · exact hreached
  split
  · exact hreached.tail .closed
  · exact hreached

theorem loopMoves_afterLine {served : LineServed}
    (hclock : served.shared.nowUnix = daemon.shared.nowUnix)
    (hlimiter : served.shared.rl = daemon.shared.rl) :
    LoopMoves prims config ref daemon (daemon.afterLine prims served) := by
  have haround : LoopMoves prims config ref daemon
      { daemon with
        shared := served.shared
        log := daemon.log ++ served.effect.toList.map LogEntry.api } :=
    .single (.around hclock (.inl hlimiter))
  unfold afterLine
  dsimp only
  split
  · exact haround
  · exact haround.trans loopMoves_closeMatching

/-- Serving is made of moves, and this is what becomes of the slot. -/
theorem serve_moves {env : ServeEnv} (hslot : daemon.slotAt ref = some slot)
    (hactive : slot.state = .active) :
    LoopMoves prims config ref daemon (daemon.serve prims config env ref) ∧
      ∃ next, (daemon.serve prims config env ref).slotAt ref = some next ∧
        ServedAt config ref.kind slot next := by
  have hmoves : ∀ {next : Slot}, ServedAt config ref.kind slot next →
      LoopMoves prims config ref daemon (daemon.setSlot ref next) :=
    fun hserved => .single (.slot hslot (.served hactive hserved))
  obtain ⟨kind, index⟩ := ref
  cases kind with
  | proto =>
    have hfound : daemon.slots[index]? = some slot := hslot
    show LoopMoves _ _ _ _ (daemon.serveFrame prims config env index) ∧
      ∃ next, (daemon.serveFrame prims config env index).slotAt _ = some next ∧ _
    unfold serveFrame
    rw [hfound]
    dsimp only
    split
    · rename_i io hnext
      exact ⟨hmoves (.waits hnext), _, slotAt_setSlot_self hslot, .waits hnext⟩
    rename_i payload taken hnext
    split
    · have hserved := @ServedAt.served config .proto slot payload taken taken daemon.shared.nowMs
        .close slot.bound hnext .rfl
      exact ⟨hmoves hserved, _, slotAt_setSlot_self hslot, hserved⟩
    rename_i conn _
    have hspares := @spares_onFrame prims config env.frame
      (daemon.shared.withFaults env.faults) conn taken slot.bound slot.addrAdmitted payload
    unfold putServed
    generalize onFrame prims config env.frame _ _ _ conn taken payload = served at hspares ⊢
    have hserved := @ServedAt.served config .proto slot payload taken served.io
      daemon.shared.nowMs served.action true hnext hspares.input
    exact ⟨(hmoves hserved).tail (.around hspares.clock hspares.limiter), _,
      @slotAt_setSlot_self _ daemon ⟨.proto, index⟩ _ hslot, hserved⟩
  | loc =>
    have hfound : daemon.localSlots[index]? = some slot := hslot
    show LoopMoves _ _ _ _ (daemon.serveLine prims config env index) ∧
      ∃ next, (daemon.serveLine prims config env index).slotAt _ = some next ∧ _
    unfold serveLine
    rw [hfound]
    dsimp only
    split
    · rename_i io hnext
      exact ⟨hmoves (.waits hnext), _, slotAt_setSlot_self hslot, .waits hnext⟩
    rename_i line taken hnext
    obtain ⟨hclock, hlimiter⟩ := @shared_localapiOnLine prims config
      (daemon.shared.withFaults env.faults) line slot.isAdmin env.line
    generalize localapiOnLine prims config env.line _ _ line = served at hclock hlimiter ⊢
    have hserved := @ServedAt.served config .loc slot line taken _ daemon.shared.nowMs
      .continue_ slot.bound hnext (ConnIo.sameInput_queue taken served.reply)
    exact ⟨(loopMoves_afterLine hclock hlimiter).tail
        (.slot (slotAt_local_afterLine.trans hslot) (.served hactive hserved)),
      _, slotAt_putLineServed_self hslot, hserved⟩

/-- What a step that is about a slot is made of. -/
inductive StepMoves (prims : DaemonPrimitives) (config : AuthdConfig) (ref : SlotRef)
    (daemon : Daemon) : Daemon → Prop
  | moved {after : Daemon} (hmoves : LoopMoves prims config ref daemon after) :
      StepMoves prims config ref daemon after
  | settled {slot : Slot} {data : Bytes} {io : ConnIo} (hslot : daemon.slotAt ref = some slot)
      (hactive : slot.state = .active) (hpush : slot.io.push prims data = (.ok, io))
      (hunsettled : slot.addrSettled = false) (hproxy : io.proxySettled = true) :
      StepMoves prims config ref daemon (daemon.settleAddr prims ref { slot with io := io })

theorem isActive_iff : daemon.isActive ref = true ↔
    ∃ slot, daemon.slotAt ref = some slot ∧ slot.state = .active := by
  unfold isActive
  cases daemon.slotAt ref with
  | none => simp
  | some => simp

theorem stepMoves_receive {data : Bytes} (hactive : daemon.isActive ref = true) :
    StepMoves prims config ref daemon (daemon.receive prims ref data) := by
  obtain ⟨slot, hslot, hstate⟩ := isActive_iff.mp hactive
  unfold receive
  rw [hslot]
  dsimp only
  split
  · rename_i io hpush
    split_ifs with hsettles
    · exact .settled hslot hstate hpush hsettles.1 hsettles.2
    · exact .moved (.single (.slot hslot (.pushed hpush)))
  · rename_i hpush
    exact .moved ((LoopMoves.single (.slot hslot (.pushed hpush))).tail .closed)

theorem loopMoves_written {count : ℕ} :
    LoopMoves prims config ref daemon (daemon.written prims ref count) := by
  unfold written
  split
  · exact .refl
  rename_i slot hslot
  have hsent : LoopMoves prims config ref daemon
      (daemon.setSlot ref { slot with io := slot.io.sent count }) := .single (.slot hslot .sent)
  dsimp only
  split
  · exact hsent.tail .closed
  · exact hsent

theorem step_moves {event : LoopEvent} (hallowed : daemon.allowed event)
    (htarget : event.target = some ref) :
    StepMoves prims config ref daemon (daemon.step prims config event) := by
  cases event with
  | accept | stop | tick | sweep => cases htarget
  | receive =>
    obtain rfl := Option.some.inj htarget
    exact stepMoves_receive hallowed
  | serve =>
    obtain rfl := Option.some.inj htarget
    obtain ⟨slot, hslot, hactive⟩ := isActive_iff.mp hallowed
    exact .moved (serve_moves hslot hactive).1
  | written =>
    obtain rfl := Option.some.inj htarget
    exact .moved loopMoves_written
  | close => exact .moved (.single .closed)

end Daemon

end MldsaAuth.Authd
