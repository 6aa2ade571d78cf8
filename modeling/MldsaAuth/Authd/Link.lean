/-
# One connection in the event loop

For each slot the loop alternates between two activities: while nothing waits to be
written it reads a chunk and serves what is complete, and while something waits it
writes. This file embeds `slot_readable`, `serve_buffered` and `slot_writable` of
`authd/evloop.c` for one slot as the steps of a machine. What the callbacks decide (the
verdict on the client's address, the reply to a frame or a line, whether to close) is
part of the event, so that whatever holds of the machine's runs holds for any callbacks.
The link also remembers what went through it: the chunks that were read, the frames or
lines that were handed to the callback, the replies that were queued, and the bytes that
were written. The guard states when the loop reads, serves and writes.
-/

import MldsaAuth.Authd.Evloop

namespace MldsaAuth.Authd

open Foundation

/-- `READ_CHUNK`. -/
def readChunk : ℕ := 4096

namespace ConnIo

variable (io : ConnIo)

/-- `conn_io_next_line` or `conn_io_next_frame`, by the slot's pool. -/
def nextUnit : SlotKind → Option Bytes × ConnIo
  | .loc => io.nextLine
  | .proto => io.nextFrame

/-- `conn_io_consume_line` or `conn_io_consume_frame`, by the slot's pool. -/
def consumeUnit : SlotKind → ConnIo
  | .loc => io.consumeLine
  | .proto => io.consumeFrame

/-- A whole frame or line is there to be served. -/
def complete (kind : SlotKind) : Bool := (io.nextUnit kind).1.isSome

/-- The buffers after a callback that queues at most one reply. -/
def answer : Option Bytes → ConnIo
  | none => io
  | some reply => (io.queue reply).2

/-- The reply of a callback, if it was queued. -/
def answered : Option Bytes → List Bytes
  | none => []
  | some reply => if (io.queue reply).1 = .ok then [reply] else []

end ConnIo

/-- A link reads and writes, or only writes, or was closed for an error in its stream. -/
inductive LinkState where
  | active
  | draining
  | broken
deriving DecidableEq, Repr

/-- What `authd_conn_on_addr` decides about a client's address. -/
inductive AddrVerdict where
  | admitted
  | refused (tooManyRequests : Bool)
  | silenced
deriving DecidableEq, Repr

/-- The connection of a slot and what went through it. -/
structure Link where
  kind : SlotKind
  io : ConnIo
  addrSettled : Bool
  state : LinkState
  chunks : List Bytes
  handed : List Bytes
  queued : List Bytes
  wrote : Bytes
deriving DecidableEq

/-- What can happen to a link. -/
inductive LinkEvent where
  | receive (data : Bytes) (verdict : AddrVerdict)
  | serve (reply : Option Bytes) (action : EvAction)
  | written (count : ℕ)
  | drain
deriving DecidableEq

namespace Link

/-- The link of a connection that a listener has just accepted. -/
def accepted (listener : Listener) : Link where
  kind := listener.kind
  io :=
    (ConnIo.reset.setMode
      (if listener.kind = .loc then .line else if listener.ws then .ws else .frame)).setProxy
      listener.proxy
  addrSettled := false
  state := .active
  chunks := []
  handed := []
  queued := []
  wrote := []

/-- The part of `slot_readable` that asks for the verdict on the client's address, once it is
known. -/
def settle (link : Link) : AddrVerdict → Link
  | .admitted => { link with addrSettled := true }
  | .refused tooManyRequests =>
    { link with
      addrSettled := true
      io := link.io.wsRefuse tooManyRequests
      state := .draining }
  | .silenced => { link with addrSettled := true, io := link.io.wsSilence, state := .draining }

/-- `slot_readable` after a read that returned bytes, up to serving what is complete. -/
def receive (prims : DaemonPrimitives) (link : Link) (data : Bytes) (verdict : AddrVerdict) :
    Link :=
  let read := { link with chunks := link.chunks ++ [data] }
  match link.io.push prims data with
  | (.ok, io) =>
    if link.addrSettled = false ∧ io.proxySettled = true then
      settle { read with io := io } verdict
    else { read with io := io }
  | (_, io) => { read with io := io, state := .broken }

/-- One turn of the loop of `serve_buffered`. -/
def serve (link : Link) (reply : Option Bytes) (action : EvAction) : Link :=
  match link.io.nextUnit link.kind with
  | (none, io) => { link with io := io }
  | (some unit, io) =>
    { link with
      io := (io.answer reply).consumeUnit link.kind
      handed := link.handed ++ [unit]
      queued := link.queued ++ io.answered reply
      state := if action = .close then .draining else link.state }

/-- `slot_writable` after a write of some bytes. -/
def written (link : Link) (count : ℕ) : Link :=
  { link with
    io := link.io.sent count
    wrote := link.wrote ++ link.io.pendingBytes.take count }

/-- One step of a link. -/
def step (prims : DaemonPrimitives) (link : Link) : LinkEvent → Link
  | .receive data verdict => link.receive prims data verdict
  | .serve reply action => link.serve reply action
  | .written count => link.written count
  | .drain => { link with state := .draining }

/-- Input is read while nothing waits to be written and everything complete has been served, as
much at a time as there is room for and as a chunk holds. A frame or line is served when the
reply to the one before has gone out. -/
def allowed (link : Link) : LinkEvent → Prop
  | .receive data _ =>
    link.state = .active ∧ link.io.pending = 0 ∧ link.io.complete link.kind = false ∧
      data ≠ [] ∧ data.length ≤ min link.io.inRoom readChunk
  | .serve _ _ =>
    link.state = .active ∧ link.io.complete link.kind = true ∧ link.io.out.length = link.io.outSent
  | .written count => link.state ≠ .broken ∧ 0 < link.io.pending ∧ count ≤ link.io.pending
  | .drain => link.state ≠ .broken

instance (link : Link) : ∀ event, Decidable (link.allowed event)
  | .receive data _ => inferInstanceAs (Decidable (_ ∧ _ ∧ _ ∧ data ≠ [] ∧ _))
  | .serve _ _ => inferInstanceAs (Decidable (_ ∧ _ ∧ _))
  | .written _ => inferInstanceAs (Decidable (_ ∧ _ ∧ _))
  | .drain => inferInstanceAs (Decidable (_ ≠ _))

end Link

/-- A connection in the loop. -/
def linkMachine (prims : DaemonPrimitives) : Machine Link LinkEvent where
  step := Link.step prims
  allowed := Link.allowed

instance (prims : DaemonPrimitives) (link : Link) (event : LinkEvent) :
    Decidable ((linkMachine prims).allowed link event) :=
  inferInstanceAs (Decidable (link.allowed event))

variable {io : ConnIo}

namespace ConnIo

/-- A reply is queued, or the output stays as it is. -/
theorem queue_cases {payload : Bytes} :
    io.queue payload = (.ok, { io with out := io.framed payload, outSent := 0 }) ∨
      ∃ status, status ≠ .ok ∧ io.queue payload = (status, io) := by
  unfold queue
  split_ifs
  · exact .inr ⟨.errArg, nofun, rfl⟩
  · exact .inr ⟨.errBusy, nofun, rfl⟩
  · exact .inr ⟨.errArg, nofun, rfl⟩
  · exact .inl rfl

/-- A callback has queued one reply, or left the output as it is. -/
theorem answer_cases (io : ConnIo) (reply : Option Bytes) :
    (∃ payload, io.answered reply = [payload] ∧
        io.answer reply = { io with out := io.framed payload, outSent := 0 }) ∨
      io.answered reply = [] ∧ io.answer reply = io := by
  cases reply with
  | none => exact .inr ⟨rfl, rfl⟩
  | some payload =>
    unfold answered answer
    dsimp only
    rcases queue_cases with hqueue | ⟨status, hstatus, hqueue⟩
    · rw [hqueue]
      exact .inl ⟨payload, rfl, rfl⟩
    rw [hqueue, if_neg hstatus]
    exact .inr ⟨rfl, rfl⟩

/-- Queueing a reply changes the output only. -/
theorem answer_eq (io : ConnIo) (reply : Option Bytes) :
    ∃ out outSent, io.answer reply = { io with out := out, outSent := outSent } := by
  rcases answer_cases io reply with ⟨payload, -, hanswer⟩ | ⟨-, hanswer⟩
  · exact ⟨_, _, hanswer⟩
  · exact ⟨io.out, io.outSent, hanswer⟩

/-- Writing changes the output only, when there are no WebSocket replies. -/
theorem sent_eq (hmode : io.mode ≠ .ws) (count : ℕ) :
    ∃ out outSent, io.sent count = { io with out := out, outSent := outSent } := by
  have hreply : io.wsReplyPending = false := by
    unfold wsReplyPending
    rw [decide_eq_false hmode, Bool.false_and]
  unfold sent
  rw [hreply]
  simp only [Bool.false_eq_true, if_false]
  split
  · exact ⟨[], 0, rfl⟩
  · exact ⟨io.out, _, rfl⟩

end ConnIo

namespace Link

variable {prims : DaemonPrimitives} {link : Link} {data : Bytes} {verdict : AddrVerdict}

/-- Everything that was read. -/
def stream (link : Link) : Bytes := link.chunks.flatten

theorem receive_of_ok (hpush : link.io.push prims data = (.ok, io)) :
    link.receive prims data verdict =
      if link.addrSettled = false ∧ io.proxySettled = true then
        settle { link with chunks := link.chunks ++ [data], io := io } verdict
      else { link with chunks := link.chunks ++ [data], io := io } := by
  unfold receive
  rw [hpush]

/-- Where no preamble is expected, no verdict is asked for. -/
theorem receive_of_plain (hpush : link.io.push prims data = (.ok, io))
    (hplain : io.proxyOn = false) :
    link.receive prims data verdict =
      { link with chunks := link.chunks ++ [data], io := io } := by
  have hunsettled : io.proxySettled = false := by
    unfold ConnIo.proxySettled
    rw [hplain, Bool.false_and]
  rw [receive_of_ok hpush, if_neg (by simp [hunsettled])]

theorem receive_of_error {status : ConnIoStatus} (hpush : link.io.push prims data = (status, io))
    (hstatus : status ≠ .ok) :
    link.receive prims data verdict =
      { link with chunks := link.chunks ++ [data], io := io, state := .broken } := by
  unfold receive
  rw [hpush]
  cases status with
  | ok => exact absurd rfl hstatus
  | errArg => rfl
  | errOverflow => rfl
  | errProtocol => rfl
  | errBusy => rfl

end Link

end MldsaAuth.Authd
