/-
# Reassembly of one connection's bytes

Every connection has a fixed input buffer and a fixed output buffer. Bytes are pushed
in as they arrive and come out as frames (a 4-byte length and a payload) or, on the
local sockets, as lines; a WebSocket connection first loses its PROXY preamble, its
HTTP request and its WebSocket framing. At most one reply is queued at a time. A
malformed stream poisons the connection. This file embeds `authd/conn_io.c`.
-/

import MldsaAuth.Authd.ProxyV2
import MldsaAuth.Authd.Ws
import MldsaAuth.Protocol.Session

namespace MldsaAuth.Authd

open Foundation Protocol

/-- `conn_io_mode_t`. -/
inductive ConnIoMode where
  | frame
  | line
  | ws
deriving DecidableEq, Repr

/-- `conn_io_status_t`. -/
inductive ConnIoStatus where
  | ok
  | errArg
  | errOverflow
  | errProtocol
  | errBusy
deriving DecidableEq, Repr

/-- `AUTHD_MAX_CONTENT`. -/
def authdMaxContent : ℕ := 9216

/-- `AUTHD_MAX_RECORD`, the record of that content under the largest padding bucket. -/
def authdMaxRecord : ℕ := 12313

/-- `AUTHD_FRAME_MAX`, the larger of the record and the ServerHello maximum. -/
def authdFrameMax : ℕ := 12313

/-- `AUTHD_LINE_MAX`. -/
def authdLineMax : ℕ := 8192

/-- `AUTHD_FRAME_HEADER`. -/
def authdFrameHeader : ℕ := 4

/-- `AUTHD_IN_BUF_BYTES`. -/
def authdInBufBytes : ℕ := authdFrameHeader + authdFrameMax

/-- `AUTHD_OUT_BUF_BYTES`. -/
def authdOutBufBytes : ℕ := wsSrvHdrMax + authdFrameHeader + authdFrameMax

example : authdMaxRecord = innerLenFor authdMaxContent 4096 + sessionOverheadBytes := by decide

/-- `conn_io_t`. The input is what `in` holds up to `in_len`; of the output, `out_sent` bytes
have been written. -/
structure ConnIo where
  mode : ConnIoMode
  proxyOn : Bool
  proxy : ProxyV2
  ws : Ws
  input : Bytes
  frameLen : ℕ
  lineTotal : ℕ
  failed : Bool
  out : Bytes
  outSent : ℕ
deriving DecidableEq

namespace ConnIo

/-- `conn_io_reset`. -/
def reset : ConnIo where
  mode := .frame
  proxyOn := false
  proxy := .blank
  ws := .blank
  input := []
  frameLen := 0
  lineTotal := 0
  failed := false
  out := []
  outSent := 0

variable (io : ConnIo)

/-- `conn_io_set_mode`. -/
def setMode (mode : ConnIoMode) : ConnIo :=
  { io with mode := mode, ws := if mode = .ws then .init else io.ws }

/-- `conn_io_set_proxy`. -/
def setProxy (on : Bool) : ConnIo :=
  if io.mode = .ws then
    { io with proxyOn := on, proxy := if on then .init else io.proxy }
  else io

/-- `conn_io_proxy_settled`. -/
def proxySettled : Bool := io.proxyOn && io.proxy.done

/-- `conn_io_client_addr`. -/
def clientAddr : AuthdAddr := io.proxy.addr

/-- `conn_io_ws_refuse`; whatever was queued is abandoned. -/
def wsRefuse (tooManyRequests : Bool) : ConnIo :=
  if io.mode = .ws then
    { io with out := [], outSent := 0, ws := io.ws.refuse tooManyRequests }
  else io

/-- `conn_io_ws_silence`. -/
def wsSilence : ConnIo :=
  if io.mode = .ws then
    { io with
      out := []
      outSent := 0
      ws := { io.ws with reply := [], replySent := 0, stage := .closed } }
  else io

/-! ## Input -/

/-- `conn_io_in_room`. -/
def inRoom : ℕ := authdInBufBytes - io.input.length

/-- A protocol error, which is sticky. -/
def poison (status : ConnIoStatus) : ConnIoStatus × ConnIo :=
  (status, { io with failed := true })

/-- `note_line_cap`: a line must end within the cap. -/
def noteLineCap : ConnIoStatus × ConnIo :=
  if 0x0a ∈ io.input then (.ok, io)
  else if authdLineMax ≤ io.input.length then io.poison .errProtocol
  else (.ok, io)

/-- `note_header`: read and check the declared length of the frame at the front. While a
WebSocket is still in its upgrade the input is text and is not looked at. -/
def noteHeader : ConnIoStatus × ConnIo :=
  if io.mode = .ws ∧ io.ws.stage = .upgrade then (.ok, io)
  else if io.frameLen ≠ 0 ∨ io.input.length < authdFrameHeader then (.ok, io)
  else
    let length := beNat (io.input.take authdFrameHeader)
    if length = 0 ∨ authdFrameMax < length then io.poison .errProtocol
    else (.ok, { io with frameLen := length })

/-- `ws_sink_in`: data payload is appended to the input, as far as there is room. -/
def wsSinkIn (input : Bytes) (bytes : Bytes) : Option Bytes :=
  if authdInBufBytes - input.length < bytes.length then none else some (input ++ bytes)

/-- `ws_feed`. -/
def wsFeed (bytes : Bytes) : ConnIoStatus × ConnIo :=
  match io.ws.consume wsSinkIn io.input bytes with
  | (.errProtocol, ws, input) => poison { io with ws := ws, input := input } .errProtocol
  | (_, ws, input) => noteHeader { io with ws := ws, input := input }

/-- `end_of_headers`: the length of the header block with its terminator, or zero. -/
def endOfHeaders : Bytes → ℕ
  | [] => 0
  | byte :: rest =>
    if (byte :: rest).take 4 = [0x0d, 0x0a, 0x0d, 0x0a] then 4
    else
      match endOfHeaders rest with
      | 0 => 0
      | length + 1 => length + 2

/-- `push_ws`: the request is staged in the input; what follows it is already WebSocket. -/
def pushWs (prims : DaemonPrimitives) (io : ConnIo) (data : Bytes) : ConnIoStatus × ConnIo :=
  if io.ws.stage ≠ .upgrade then io.wsFeed data
  else if io.inRoom < data.length then io.poison .errOverflow
  else
    let io := { io with input := io.input ++ data }
    let requestLen := endOfHeaders io.input
    if requestLen = 0 then
      if wsUpgradeMax < io.input.length then io.poison .errProtocol else (.ok, io)
    else if wsUpgradeMax < requestLen then io.poison .errProtocol
    else
      match io.ws.upgrade prims (io.input.take requestLen) with
      | (.ok, ws) =>
        let rest := io.input.drop requestLen
        let io := { io with ws := ws, input := [] }
        if rest = [] then (.ok, io) else io.wsFeed rest
      | (_, ws) => poison { io with ws := ws } .errProtocol

/-- The end of `conn_io_push` for raw connections and the local sockets. -/
def noteInput : ConnIoStatus × ConnIo :=
  if io.mode = .line then io.noteLineCap else io.noteHeader

/-- `conn_io_push`. -/
def push (prims : DaemonPrimitives) (io : ConnIo) (data : Bytes) : ConnIoStatus × ConnIo :=
  if io.failed then (.errProtocol, io)
  else if io.mode = .ws then
    if io.proxyOn = true ∧ io.proxy.done = false then
      match io.proxy.consume data with
      | (.err, _, proxy) => poison { io with proxy := proxy } .errProtocol
      | (_, rest, proxy) =>
        if proxy.done then pushWs prims { io with proxy := proxy } rest
        else (.ok, { io with proxy := proxy })
    else io.pushWs prims data
  else if data = [] then io.noteInput
  else if io.inRoom < data.length then io.poison .errOverflow
  else noteInput { io with input := io.input ++ data }

/-- `conn_io_next_line`: the first line without its terminator. -/
def nextLine : Option Bytes × ConnIo :=
  if io.failed = true ∨ io.mode ≠ .line then (none, io)
  else
    match splitLine io.input with
    | none => (none, io)
    | some (line, rest) => (some line, { io with lineTotal := io.input.length - rest.length })

/-- `conn_io_consume_line`. -/
def consumeLine : ConnIo :=
  if io.lineTotal = 0 ∨ io.input.length < io.lineTotal then io
  else { io with input := io.input.drop io.lineTotal, lineTotal := 0 }

/-- `conn_io_next_frame`: the payload of the frame at the front, once it is complete. -/
def nextFrame : Option Bytes × ConnIo :=
  if io.failed then (none, io)
  else
    match io.noteHeader with
    | (.ok, io) =>
      if io.frameLen = 0 ∨ io.input.length < authdFrameHeader + io.frameLen then (none, io)
      else (some ((io.input.drop authdFrameHeader).take io.frameLen), io)
    | (_, io) => (none, io)

/-- `conn_io_consume_frame`. -/
def consumeFrame : ConnIo :=
  if io.frameLen = 0 ∨ io.input.length < authdFrameHeader + io.frameLen then io
  else
    (noteHeader
      { io with input := io.input.drop (authdFrameHeader + io.frameLen), frameLen := 0 }).2

/-! ## Output -/

/-- The bytes a payload is queued as: verbatim on a local socket, otherwise behind its
length, and inside one binary message on a WebSocket. -/
def framed (payload : Bytes) : Bytes :=
  match io.mode with
  | .line => payload
  | .frame => beBytes 4 payload.length ++ payload
  | .ws =>
    wsServerHeader (authdFrameHeader + payload.length) wsOpBinary ++
      (beBytes 4 payload.length ++ payload)

/-- `conn_io_queue`. -/
def queue (payload : Bytes) : ConnIoStatus × ConnIo :=
  if payload = [] ∨ authdFrameMax < payload.length then (.errArg, io)
  else if io.out.length ≠ io.outSent then (.errBusy, io)
  else if authdOutBufBytes < (io.framed payload).length then (.errArg, io)
  else (.ok, { io with out := io.framed payload, outSent := 0 })

/-- `ws_reply_pending`: control and handshake replies go out before a queued reply. -/
def wsReplyPending : Bool :=
  decide (io.mode = .ws) && decide (io.ws.replySent < io.ws.reply.length)

/-- `conn_io_pending`. -/
def pending : ℕ :=
  if io.wsReplyPending then io.ws.reply.length - io.ws.replySent
  else io.out.length - io.outSent

/-- `conn_io_pending_ptr`, as the bytes it points at. -/
def pendingBytes : Bytes :=
  if io.wsReplyPending then io.ws.reply.drop io.ws.replySent else io.out.drop io.outSent

/-- `conn_io_sent`. -/
def sent (count : ℕ) : ConnIo :=
  if io.wsReplyPending then
    let written := io.ws.replySent + min count (io.ws.reply.length - io.ws.replySent)
    if io.ws.reply.length ≤ written then
      { io with ws := { io.ws with reply := [], replySent := 0 } }
    else { io with ws := { io.ws with replySent := written } }
  else
    let written := io.outSent + min count io.pending
    if written = io.out.length then { io with out := [], outSent := 0 }
    else { io with outSent := written }

end ConnIo

end MldsaAuth.Authd
