/-
# A turn of the event loop

`evloop_run_once` polls every slot for what it can do next, lets the system calls on the
ready ones happen, serves what is complete and closes what has expired. This file embeds
it over the operations of the daemon: what `poll` reports and what the system calls
return is part of the turn's surroundings, and nothing is reported that was not asked
for. Every turn is a run of the daemon's steps, so whatever holds of those runs holds
between any two turns.
-/

import MldsaAuth.Authd.LoopMoves

namespace MldsaAuth.Authd

open Foundation Crypto Protocol

/-- What `read` returns; no bytes is the end of the stream. -/
inductive ReadResult where
  | bytes (available : Bytes)
  | again
  | failed

/-- What `write` returns. -/
inductive WriteResult where
  | count (count : ℕ)
  | again
  | failed

/-- What `poll` reports for a slot, what the system calls on it return, and the surroundings of
what is served. -/
structure SlotPoll where
  pollIn : Bool
  pollOut : Bool
  pollErr : Bool
  pollHup : Bool
  read : ReadResult
  write : WriteResult
  serves : ℕ → Daemon.ServeEnv

/-- The surroundings of a turn: the connections to accept, and what happens to each slot. -/
structure TurnEnv where
  accepts : List Listener
  polls : SlotRef → SlotPoll

/-- The events `poll` is asked for. -/
structure Requested where
  input : Bool
  output : Bool
deriving DecidableEq

/-- A reply goes out before more is read, and only active slots are read. -/
def Slot.requested (slot : Slot) : Requested :=
  if 0 < slot.io.pending then { input := false, output := true }
  else { input := decide (slot.state = .active), output := false }

variable {condition : Slot → Bool} {serves : ℕ → ServeEnv} {poll : SlotPoll} {Item : Type}
  {operation : Daemon → Item → Daemon} {listener : Listener}

namespace Daemon

/-- The slots of both pools, in the order in which the loop visits them. -/
def refs (daemon : Daemon) : List SlotRef :=
  (List.range daemon.slots.length).map protoRef ++
    (List.range daemon.localSlots.length).map localRef

/-- Close a slot if it meets a condition. -/
def closeIf (prims : DaemonPrimitives) (condition : Slot → Bool) (daemon : Daemon)
    (ref : SlotRef) : Daemon :=
  if (daemon.slotAt ref).any condition then daemon.closeSlot prims ref else daemon

/-- A slot that has nothing left to flush. -/
def drained (slot : Slot) : Bool :=
  decide (slot.state = .draining) && decide (slot.io.pending = 0)

/-- A slot whose deadline has come. -/
def expired (now : ℕ) (slot : Slot) : Bool :=
  decide (slot.state ≠ .free) && decide (slot.deadlineMs ≠ 0) && decide (slot.deadlineMs ≤ now)

/-- The first part of `evloop_run_once`, as far as it changes anything. -/
def closeDrained (prims : DaemonPrimitives) (daemon : Daemon) : Daemon :=
  daemon.refs.foldl (closeIf prims drained) daemon

/-- The last part of `evloop_run_once`. -/
def closeExpired (prims : DaemonPrimitives) (daemon : Daemon) : Daemon :=
  daemon.refs.foldl (closeIf prims (expired daemon.shared.nowMs)) daemon

/-- The poll set: every slot in use. -/
def polled (daemon : Daemon) : List SlotRef :=
  daemon.refs.filter fun ref => (daemon.slotAt ref).any fun slot => decide (slot.state ≠ .free)

/-- What a slot is polled for. -/
def requestedAt (daemon : Daemon) (ref : SlotRef) : Requested :=
  match daemon.slotAt ref with
  | none => { input := false, output := false }
  | some slot => slot.requested

section Turn

variable (prims : DaemonPrimitives) (config : AuthdConfig)

/-- `serve_buffered` on an active slot: until nothing is complete, the slot is to close, or a
reply waits. Each round takes input, so that one unit of fuel for each byte is enough. -/
def serveBuffered (serves : ℕ → ServeEnv) (ref : SlotRef) : ℕ → Daemon → Daemon
  | 0, daemon => daemon
  | fuel + 1, daemon =>
    let served := daemon.serve prims config (serves fuel) ref
    if (daemon.slotAt ref).any (fun slot => slot.io.complete ref.kind) &&
        (served.slotAt ref).any (fun slot =>
          decide (slot.state = .active) && decide (slot.io.pending = 0)) then
      serveBuffered serves ref fuel served
    else served

/-- `serve_buffered`, for the input of a slot. -/
def serveInput (serves : ℕ → ServeEnv) (daemon : Daemon) (ref : SlotRef) : Daemon :=
  match daemon.slotAt ref with
  | none => daemon
  | some slot => serveBuffered prims config serves ref (slot.io.input.length + 1) daemon

/-- `slot_readable`, with the closing that its result asks for. -/
def slotReadable (poll : SlotPoll) (daemon : Daemon) (ref : SlotRef) : Daemon :=
  match daemon.slotAt ref with
  | none => daemon
  | some slot =>
    if slot.state = .free then daemon
    else if slot.io.inRoom = 0 then daemon.closeSlot prims ref
    else
      match poll.read with
      | .again => daemon
      | .failed => daemon.closeSlot prims ref
      | .bytes available =>
        let data := available.take (min slot.io.inRoom readChunk)
        if data = [] then daemon.closeSlot prims ref
        else
          let received := daemon.receive prims ref data
          if received.isActive ref then
            serveInput prims config poll.serves received ref
          else received

/-- `slot_writable`, with the closing that its result asks for. -/
def slotWritable (poll : SlotPoll) (daemon : Daemon) (ref : SlotRef) : Daemon :=
  match daemon.slotAt ref with
  | none => daemon
  | some slot =>
    if slot.io.pending = 0 then
      if slot.state = .draining then daemon.closeSlot prims ref else daemon
    else
      match poll.write with
      | .again => daemon
      | .failed => daemon.closeSlot prims ref
      | .count count => daemon.written prims ref (min count slot.io.pending)

/-- The write of a turn; once the reply has gone out, what is complete is served. -/
def flushSlot (poll : SlotPoll) (daemon : Daemon) (ref : SlotRef) : Daemon :=
  let flushed := slotWritable prims poll daemon ref
  if (flushed.slotAt ref).any (fun slot =>
      decide (slot.state = .active) && decide (slot.io.pending = 0)) then
    serveInput prims config poll.serves flushed ref
  else flushed

/-- An operation that is carried out under a condition. -/
def provided (condition : Bool) (operation : Daemon → Daemon) (daemon : Daemon) : Daemon :=
  if condition then operation daemon else daemon

/-- What a turn does with one slot of the poll set. -/
def turnSlot (poll : SlotPoll) (requested : Requested) (daemon : Daemon) (ref : SlotRef) : Daemon :=
  match daemon.slotAt ref with
  | none => daemon
  | some slot =>
    if slot.state = .free then daemon
    else
      let flushed := provided
        (poll.pollOut && requested.output || poll.pollHup && decide (0 < slot.io.pending))
        (flushSlot prims config poll · ref) daemon
      let read := provided (poll.pollIn && requested.input)
        (slotReadable prims config poll · ref) flushed
      let checked := provided poll.pollErr (closeSlot prims · ref) read
      provided poll.pollHup (closeIf prims (fun slot => slot.io.pending = 0) · ref) checked

/-- `evloop_run_once`. -/
def turn (env : TurnEnv) (daemon : Daemon) : Daemon :=
  let polling := daemon.closeDrained prims
  let accepted := env.accepts.foldl (accept config) polling
  let served := polling.polled.foldl
    (fun daemon ref => turnSlot prims config (env.polls ref) (polling.requestedAt ref) daemon ref)
    accepted
  served.closeExpired prims

end Turn

/-! ## The verdict on an address -/

variable (prims : DaemonPrimitives) (shared : Shared) (slot : Slot) in
/-- What `authd_conn_on_addr` can do. -/
inductive AddrView : EvAction × Slot × Shared → Prop
  | unknown (hnone : slot.io.clientAddr = .none) :
      AddrView (.close, { slot with io := slot.io.wsSilence }, shared)
  | unlimited (hsome : slot.io.clientAddr ≠ .none) (hlimiter : shared.rl = none) :
      AddrView (.continue_, slot, shared)
  | admitted {limiter next : Ratelimit} (hsome : slot.io.clientAddr ≠ .none)
      (hlimiter : shared.rl = some limiter)
      (hresult : limiter.admitAddr prims slot.io.clientAddr shared.nowMs = (.allow, next)) :
      AddrView (.continue_, { slot with addrAdmitted := true }, { shared with rl := some next })
  | refused {limiter next : Ratelimit} {verdict : RatelimitVerdict}
      (hsome : slot.io.clientAddr ≠ .none) (hlimiter : shared.rl = some limiter)
      (hresult : limiter.admitAddr prims slot.io.clientAddr shared.nowMs = (verdict, next))
      (hverdict : verdict ≠ .allow) :
      AddrView (.close, { slot with io := slot.io.wsRefuse (decide (verdict ≠ .denyTable)) },
          { shared with rl := some next })

theorem onAddr_view (prims : DaemonPrimitives) (shared : Shared) (slot : Slot) :
    AddrView prims shared slot (onAddr prims shared slot) := by
  unfold onAddr
  split_ifs with hnone
  · exact .unknown hnone
  split
  · rename_i hlimiter
    exact .unlimited hnone hlimiter
  rename_i limiter hlimiter
  split
  · rename_i next hresult
    exact .admitted hnone hlimiter hresult
  rename_i verdict next hverdict hresult
  exact .refused hnone hlimiter hresult hverdict

/-! ## What an operation leaves alone -/

variable {prims : DaemonPrimitives} {config : AuthdConfig} {before middle after daemon : Daemon}
  {ref other : SlotRef} {slot : Slot}

/-- Every slot is as it was, or it was closed. -/
def Closes (before after : Daemon) : Prop :=
  ∀ ref slot, after.slotAt ref = some slot → before.slotAt ref = some slot ∨ slot = .blank ref.kind

/-- Every slot but one is as it was, or it was closed. -/
def Aside (ref : SlotRef) (before after : Daemon) : Prop :=
  ∀ other slot, other ≠ ref → after.slotAt other = some slot →
    before.slotAt other = some slot ∨ slot = .blank other.kind

theorem Closes.rfl : Closes daemon daemon := fun _ _ hslot => .inl hslot

theorem Closes.trans (hfirst : Closes before middle) (hsecond : Closes middle after) :
    Closes before after := by
  intro ref slot hslot
  rcases hsecond ref slot hslot with hkept | hblank
  · exact hfirst ref slot hkept
  · exact .inr hblank

theorem Closes.aside (hcloses : Closes before after) (ref : SlotRef) : Aside ref before after :=
  fun other slot _ hslot => hcloses other slot hslot

theorem Aside.rfl : Aside ref daemon daemon := Closes.rfl.aside ref

theorem Aside.trans (hfirst : Aside ref before middle) (hsecond : Aside ref middle after) :
    Aside ref before after := by
  intro other slot hne hslot
  rcases hsecond other slot hne hslot with hkept | hblank
  · exact hfirst other slot hne hkept
  · exact .inr hblank

theorem Aside.of_same (hsame : ∀ other, other ≠ ref → after.slotAt other = before.slotAt other) :
    Aside ref before after :=
  fun other _ hne hslot => .inl (hsame other hne ▸ hslot)

theorem aside_setSlot : Aside ref daemon (daemon.setSlot ref slot) :=
  .of_same fun _ hne => slotAt_setSlot_of_ne hne

theorem closes_closeSlot : Closes daemon (daemon.closeSlot prims ref) := by
  intro other slot hslot
  by_cases hne : other = ref
  · subst hne
    cases hold : daemon.slotAt other with
    | none =>
      rw [closeSlot_of_none hold, hold] at hslot
      cases hslot
    | some =>
      rw [slotAt_closeSlot_self hold] at hslot
      obtain rfl := Option.some.inj hslot
      split
      · exact .inl rfl
      · exact .inr rfl
  · rw [slotAt_closeSlot_of_ne hne] at hslot
    exact .inl hslot

theorem closes_closeIf : Closes daemon (closeIf prims condition daemon ref) := by
  unfold closeIf
  split
  · exact closes_closeSlot
  · exact .rfl

theorem closes_foldl (hcloses : ∀ daemon item, Closes daemon (operation daemon item))
    (items : List Item) (daemon : Daemon) : Closes daemon (items.foldl operation daemon) := by
  induction items generalizing daemon with
  | nil => exact .rfl
  | cons item items ih => exact (hcloses daemon item).trans (ih _)

theorem aside_move (hmove : LoopMove prims config ref before after) : Aside ref before after := by
  cases hmove with
  | slot => exact aside_setSlot
  | closed => exact closes_closeSlot.aside ref
  | around => exact .rfl

variable {event : LoopEvent}

/-- A step about one slot closes others at most. -/
theorem aside_step (hallowed : daemon.allowed event)
    (htarget : event.target = some ref) : Aside ref daemon (daemon.step prims config event) := by
  have hmoves := @step_moves prims config daemon ref event hallowed htarget
  generalize daemon.step prims config event = after at hmoves ⊢
  cases hmoves with
  | moved hmoves =>
    exact hmoves.invariant (fun _ _ hmove haside => haside.trans (aside_move hmove)) .rfl
  | settled => exact .of_same fun other hne => slotAt_setSlot_of_ne hne

/-! ## Turns are runs of the daemon -/

/-- A daemon that steps of the daemon lead to. -/
def Reaches (prims : DaemonPrimitives) (config : AuthdConfig) (before after : Daemon) : Prop :=
  ∃ events, (daemonMachine prims config).Run before events after

theorem Reaches.rfl : Reaches prims config daemon daemon := ⟨[], .nil⟩

theorem Reaches.trans (hfirst : Reaches prims config before middle)
    (hsecond : Reaches prims config middle after) : Reaches prims config before after := by
  obtain ⟨first, hfirst⟩ := hfirst
  obtain ⟨second, hsecond⟩ := hsecond
  exact ⟨first ++ second, hfirst.append hsecond⟩

theorem reaches_step (hallowed : daemon.allowed event) :
    Reaches prims config daemon (daemon.step prims config event) := ⟨[event], .single hallowed⟩

/-- A daemon that steps about one slot lead to. -/
def Works (prims : DaemonPrimitives) (config : AuthdConfig) (ref : SlotRef)
    (before after : Daemon) : Prop :=
  ∃ events, ((daemonMachine prims config).restrict
    fun _ event => event.target = some ref).Run before events after

theorem Works.rfl : Works prims config ref daemon daemon := ⟨[], .nil⟩

theorem Works.trans (hfirst : Works prims config ref before middle)
    (hsecond : Works prims config ref middle after) : Works prims config ref before after := by
  obtain ⟨first, hfirst⟩ := hfirst
  obtain ⟨second, hsecond⟩ := hsecond
  exact ⟨first ++ second, hfirst.append hsecond⟩

theorem Works.reaches (hworks : Works prims config ref before after) :
    Reaches prims config before after :=
  hworks.imp fun _ hrun => hrun.unrestrict

theorem Works.aside (hworks : Works prims config ref before after) : Aside ref before after := by
  obtain ⟨events, hrun⟩ := hworks
  refine hrun.preorder _ (fun _ => .rfl) (fun _ _ _ hfirst hsecond => hfirst.trans hsecond) ?_
  intro daemon event hallowed
  exact aside_step hallowed.1 hallowed.2

theorem works_step (hallowed : daemon.allowed event) (htarget : event.target = some ref) :
    Works prims config ref daemon (daemon.step prims config event) :=
  ⟨[event], .single ⟨hallowed, htarget⟩⟩

theorem works_closeSlot : Works prims config ref daemon (daemon.closeSlot prims ref) :=
  @works_step prims config daemon ref (.close ref) trivial (Eq.refl _)

theorem works_closeIf : Works prims config ref daemon (closeIf prims condition daemon ref) := by
  unfold closeIf
  split
  · exact works_closeSlot
  · exact .rfl

theorem reaches_foldl
    (hreaches : ∀ daemon item, Reaches prims config daemon (operation daemon item))
    (items : List Item) (daemon : Daemon) :
    Reaches prims config daemon (items.foldl operation daemon) := by
  induction items generalizing daemon with
  | nil => exact .rfl
  | cons item items ih => exact (hreaches daemon item).trans (ih _)

theorem isActive_of_any (hany : (daemon.slotAt ref).any (fun slot => decide (slot.state = .active)
      && condition slot) = true) : daemon.isActive ref = true := by
  cases hslot : daemon.slotAt ref with
  | none =>
    rw [hslot] at hany
    cases hany
  | some slot =>
    rw [hslot, Option.any_some] at hany
    exact isActive_iff.mpr ⟨slot, hslot, of_decide_eq_true ((Bool.and_eq_true _ _).mp hany).1⟩

theorem works_serveBuffered {fuel : ℕ} (hactive : daemon.isActive ref = true) :
    Works prims config ref daemon (serveBuffered prims config serves ref fuel daemon) := by
  induction fuel generalizing daemon with
  | zero => exact .rfl
  | succ fuel ih =>
    have hserve : Works prims config ref daemon (daemon.serve prims config (serves fuel) ref) :=
      @works_step prims config daemon ref (.serve ref (serves fuel)) hactive (Eq.refl _)
    unfold serveBuffered
    dsimp only
    split_ifs with hgoes
    · exact hserve.trans (ih (isActive_of_any ((Bool.and_eq_true _ _).mp hgoes).2))
    · exact hserve

theorem works_serveInput (hactive : daemon.isActive ref = true) :
    Works prims config ref daemon (serveInput prims config serves daemon ref) := by
  unfold serveInput
  split
  · exact .rfl
  · exact works_serveBuffered hactive

theorem works_slotReadable
    (hactive : ∀ slot, daemon.slotAt ref = some slot → slot.state ≠ .free → slot.state = .active) :
    Works prims config ref daemon (slotReadable prims config poll daemon ref) := by
  unfold slotReadable
  split
  · exact .rfl
  rename_i slot hslot
  split
  · exact .rfl
  rename_i hopen
  split
  · exact works_closeSlot
  split
  · exact .rfl
  · exact works_closeSlot
  · rename_i available _
    dsimp only
    split
    · exact works_closeSlot
    have hreceive := @works_step prims config daemon ref
      (.receive ref (available.take (min slot.io.inRoom readChunk)))
      (isActive_iff.mpr ⟨slot, hslot, hactive slot hslot hopen⟩) (Eq.refl _)
    split_ifs with hserved
    · exact hreceive.trans (works_serveInput hserved)
    · exact hreceive

theorem works_slotWritable :
    Works prims config ref daemon (slotWritable prims poll daemon ref) := by
  unfold slotWritable
  split
  · exact .rfl
  rename_i slot _
  split
  · split
    · exact works_closeSlot
    · exact .rfl
  split
  · exact .rfl
  · exact works_closeSlot
  · rename_i count _
    exact @works_step prims config daemon ref (.written ref (min count slot.io.pending)) trivial
      (Eq.refl _)

theorem works_flushSlot :
    Works prims config ref daemon (flushSlot prims config poll daemon ref) := by
  unfold flushSlot
  dsimp only
  split_ifs with hserves
  · exact works_slotWritable.trans (works_serveInput (isActive_of_any hserves))
  · exact works_slotWritable

theorem works_provided {condition : Bool} {operation : Daemon → Daemon}
    (hreaches : condition = true → Works prims config ref daemon (operation daemon)) :
    Works prims config ref daemon (provided condition operation daemon) := by
  unfold provided
  split_ifs with hholds
  · exact hreaches hholds
  · exact .rfl

/-- A slot that is polled for input has nothing to write. -/
theorem requested_input (hinput : slot.requested.input = true) :
    slot.io.pending = 0 ∧ slot.state = .active ∧ slot.requested.output = false := by
  unfold Slot.requested at hinput ⊢
  split_ifs with hpending
  · rw [if_pos hpending] at hinput
    cases hinput
  rw [if_neg hpending] at hinput
  exact ⟨Nat.eq_zero_of_not_pos hpending, of_decide_eq_true hinput, rfl⟩

/-- Nothing is flushed before a slot is read. -/
theorem provided_flush (hinput : slot.requested.input = true) (operation : Daemon → Daemon) :
    provided (poll.pollOut && slot.requested.output ||
      poll.pollHup && decide (0 < slot.io.pending)) operation daemon = daemon := by
  obtain ⟨hpending, -, houtput⟩ := requested_input hinput
  unfold provided
  rw [houtput, hpending]
  simp

theorem works_turnSlot {requested : Requested}
    (hrequested : ∀ slot, daemon.slotAt ref = some slot → slot.state ≠ .free →
      slot.requested = requested) :
    Works prims config ref daemon (turnSlot prims config poll requested daemon ref) := by
  unfold turnSlot
  split
  · exact .rfl
  rename_i slot hslot
  split_ifs with hopen
  · exact .rfl
  obtain rfl := hrequested slot hslot hopen
  dsimp only
  refine ((Works.trans (works_provided fun _ => works_flushSlot)
    (works_provided fun hread => ?_)).trans (works_provided fun _ => works_closeSlot)).trans
    (works_provided fun _ => works_closeIf)
  have hinput := ((Bool.and_eq_true _ _).mp hread).2
  rw [provided_flush hinput]
  apply works_slotReadable
  intro found hfound _
  obtain rfl := Option.some.inj (hslot.symm.trans hfound)
  exact (requested_input hinput).2.1

/-- A connection is accepted into a slot that was free; the other slots are as they were. -/
theorem slotAt_accept (hslot : (daemon.accept config listener).slotAt ref = some slot) :
    daemon.slotAt ref = some slot ∨
      slot = daemon.acceptedSlot config listener ∧ ref.kind = listener.kind ∧
        ∃ old, daemon.slotAt ref = some old ∧ old.state = .free := by
  unfold accept at hslot
  split at hslot
  · exact .inl hslot
  split at hslot
  · exact .inl hslot
  rename_i index htake
  obtain ⟨old, hold, hfree⟩ := takeSlot_free htake
  have hset : (daemon.setSlot { kind := listener.kind, index := index }
      (daemon.acceptedSlot config listener)).slotAt ref = some slot := by
    dsimp only at hslot
    split at hslot
    · exact hslot
    · exact hslot
  by_cases hne : ref = { kind := listener.kind, index := index }
  · subst hne
    rw [slotAt_setSlot_self hold] at hset
    exact .inr ⟨(Option.some.inj hset).symm, rfl, old, hold, hfree⟩
  rw [slotAt_setSlot_of_ne hne] at hset
  exact .inl hset

/-- Slots that ask for what was noted, as long as they are in use. -/
def Held (requested : SlotRef → Requested) (refs : List SlotRef) (daemon : Daemon) : Prop :=
  ∀ ref ∈ refs, ∀ slot, daemon.slotAt ref = some slot → slot.state ≠ .free →
    slot.requested = requested ref

theorem nodup_refs : daemon.refs.Nodup := by
  unfold refs
  refine List.nodup_append.mpr ⟨?_, ?_, ?_⟩
  · exact List.nodup_range.map fun first second heq => congrArg SlotRef.index heq
  · exact List.nodup_range.map fun first second heq => congrArg SlotRef.index heq
  · intro first hfirst second hsecond
    obtain ⟨index, -, rfl⟩ := List.mem_map.mp hfirst
    obtain ⟨other, -, rfl⟩ := List.mem_map.mp hsecond
    exact protoRef_ne_localRef

/-- A slot in use is not taken by a connection that is accepted. -/
theorem slotAt_accept_of_open (hslot : daemon.slotAt ref = some slot) (hopen : slot.state ≠ .free) :
    (daemon.accept config listener).slotAt ref = some slot := by
  unfold accept
  split
  · exact hslot
  split
  · exact hslot
  rename_i index htake
  obtain ⟨old, hold, hfree⟩ := takeSlot_free htake
  have hne : ref ≠ { kind := listener.kind, index := index } := by
    intro heq
    rw [← heq, hslot] at hold
    exact hopen (Option.some.inj hold ▸ hfree)
  have hset : (daemon.setSlot { kind := listener.kind, index := index }
      (daemon.acceptedSlot config listener)).slotAt ref = some slot :=
    (slotAt_setSlot_of_ne hne).trans hslot
  dsimp only
  split
  · exact hset
  · exact hset

theorem slotAt_accepts_of_open {listeners : List Listener} (hslot : daemon.slotAt ref = some slot)
    (hopen : slot.state ≠ .free) :
    (listeners.foldl (accept config) daemon).slotAt ref = some slot := by
  induction listeners generalizing daemon with
  | nil => exact hslot
  | cons listener listeners ih => exact ih (slotAt_accept_of_open hslot hopen)

theorem mem_polled (hpolled : ref ∈ daemon.polled) :
    ∃ slot, daemon.slotAt ref = some slot ∧ slot.state ≠ .free := by
  have hany := (List.mem_filter.mp hpolled).2
  cases hslot : daemon.slotAt ref with
  | none =>
    rw [hslot] at hany
    cases hany
  | some slot =>
    rw [hslot, Option.any_some] at hany
    exact ⟨slot, rfl, of_decide_eq_true hany⟩

theorem held_accepts (listeners : List Listener) :
    Held daemon.requestedAt daemon.polled (listeners.foldl (accept config) daemon) := by
  intro ref hpolled slot hslot _
  obtain ⟨old, hold, hopen⟩ := mem_polled hpolled
  rw [slotAt_accepts_of_open hold hopen] at hslot
  unfold requestedAt
  rw [hold, Option.some.inj hslot]

/-- Turning to one slot, the others still ask for what was noted. -/
theorem Held.aside {requested : SlotRef → Requested} {refs : List SlotRef}
    (hheld : Held requested (ref :: refs) before) (haside : Aside ref before after)
    (hhead : ref ∉ refs) : Held requested refs after := by
  intro other hother slot hslot hopen
  have hne : other ≠ ref := fun heq => hhead (heq ▸ hother)
  rcases haside other slot hne hslot with hkept | hblank
  · exact hheld other (List.mem_cons_of_mem _ hother) slot hkept hopen
  rw [hblank] at hopen
  exact absurd rfl hopen

/-- The slots of a poll set, one after another. -/
theorem reaches_turnSlots {polls : SlotRef → SlotPoll} {requested : SlotRef → Requested}
    {refs : List SlotRef} (hnodup : refs.Nodup) (hheld : Held requested refs daemon) :
    Reaches prims config daemon
      (refs.foldl (fun daemon ref => turnSlot prims config (polls ref) (requested ref) daemon ref)
        daemon) := by
  induction refs generalizing daemon with
  | nil => exact .rfl
  | cons ref refs ih =>
    obtain ⟨hhead, hrest⟩ := List.nodup_cons.mp hnodup
    have hworks := @works_turnSlot (polls ref) prims config _ _ _ (hheld ref List.mem_cons_self)
    exact hworks.reaches.trans (ih hrest (hheld.aside hworks.aside hhead))

/-- Every turn is a run of the daemon. -/
theorem reaches_turn {env : TurnEnv} :
    Reaches prims config daemon (turn prims config env daemon) := by
  have hdrained : Reaches prims config daemon (daemon.closeDrained prims) :=
    reaches_foldl (fun _ _ => works_closeIf.reaches) _ daemon
  have haccepted : Reaches prims config (daemon.closeDrained prims)
      (env.accepts.foldl (accept config) (daemon.closeDrained prims)) :=
    reaches_foldl
      (fun daemon listener => @reaches_step prims config daemon (.accept listener) trivial) _ _
  have hheld := @held_accepts config (daemon.closeDrained prims) env.accepts
  have hserved := @reaches_turnSlots prims config _ env.polls _ _ (nodup_refs.filter _) hheld
  exact ((hdrained.trans haccepted).trans hserved).trans
    (reaches_foldl (fun _ _ => works_closeIf.reaches) _ _)

end Daemon

/-! ## The loop as a machine -/

/-- What the main loop does: it reads the clocks, sweeps, takes a turn, or is told to stop. -/
inductive TurnEvent where
  | turn (env : TurnEnv)
  | tick (nowMs : ℕ) (nowUnix : ℤ)
  | sweep (faults : List Bool)
  | stop

/-- The main loop, over the turns of the event loop. -/
def loopMachine (prims : DaemonPrimitives) (config : AuthdConfig) : Machine Daemon TurnEvent where
  step daemon
    | .turn env => daemon.turn prims config env
    | .tick nowMs nowUnix => daemon.tick nowMs nowUnix
    | .sweep faults => daemon.maybeSweep faults
    | .stop => daemon.stop
  allowed _ _ := True

/-- Between any two turns the daemon is in a state that its own steps lead to. -/
theorem reaches_of_run {prims : DaemonPrimitives} {config : AuthdConfig} {before after : Daemon}
    {events : List TurnEvent} (hrun : (loopMachine prims config).Run before events after) :
    Daemon.Reaches prims config before after := by
  have hstep : ∀ daemon event, (loopMachine prims config).allowed daemon event →
      Daemon.Reaches prims config daemon ((loopMachine prims config).step daemon event) := by
    intro daemon event _
    cases event with
    | turn env => exact Daemon.reaches_turn
    | tick nowMs nowUnix =>
      exact @Daemon.reaches_step prims config daemon (.tick nowMs nowUnix) trivial
    | sweep faults => exact @Daemon.reaches_step prims config daemon (.sweep faults) trivial
    | stop => exact @Daemon.reaches_step prims config daemon .stop trivial
  exact hrun.preorder _ (fun _ => .rfl) (fun _ _ _ hfirst hsecond => hfirst.trans hsecond) hstep

end MldsaAuth.Authd
