/-
# The WebSocket layer

The proxy-facing listener speaks WebSocket: an HTTP upgrade request, then masked
client frames whose payload is the daemon's own frame stream. Only a frame's header
and a control payload are staged; data payload goes to a sink as it arrives. Pongs,
close frames and the HTTP answers wait in a reply buffer of their own. This file
embeds the server half of `authd/ws.c`.
-/

import MldsaAuth.Authd.Codecs

namespace MldsaAuth.Authd

open Foundation

/-- `ws_stage_t`. -/
inductive WsStage where
  | upgrade
  | opened
  | closed
deriving DecidableEq, Repr

/-- `ws_status_t`. -/
inductive WsStatus where
  | ok
  | needMore
  | errProtocol
deriving DecidableEq, Repr

/-- `WS_UPGRADE_MAX`. -/
def wsUpgradeMax : ℕ := 4096

/-- `WS_STATE_MAX`. -/
def wsStateMax : ℕ := 64

/-- `WS_CTRL_MAX`. -/
def wsCtrlMax : ℕ := 125

/-- `WS_HDR_MAX`. -/
def wsHdrMax : ℕ := 14

/-- `WS_SRV_HDR_MAX`. -/
def wsSrvHdrMax : ℕ := 10

/-- The opcodes that are known, `WS_OP_*`. -/
def wsOpCont : UInt8 := 0x0
def wsOpBinary : UInt8 := 0x2
def wsOpClose : UInt8 := 0x8
def wsOpPing : UInt8 := 0x9
def wsOpPong : UInt8 := 0xa

/-- `ws_t`. Buffers are held as the bytes written to them so far. -/
structure Ws where
  stage : WsStage
  state : Bytes
  hdr : Bytes
  hdrNeed : ℕ
  payloadLeft : ℕ
  mask : Bytes
  maskOff : ℕ
  opcode : UInt8
  isControl : Bool
  inMessage : Bool
  expectMask : Bool
  ctrl : Bytes
  reply : Bytes
  replySent : ℕ
deriving DecidableEq

namespace Ws

/-- The zeroed layer of a connection that is not a WebSocket. -/
def blank : Ws where
  stage := .upgrade
  state := []
  hdr := []
  hdrNeed := 0
  payloadLeft := 0
  mask := [0, 0, 0, 0]
  maskOff := 0
  opcode := 0
  isControl := false
  inMessage := false
  expectMask := false
  ctrl := []
  reply := []
  replySent := 0

/-- `ws_init`. -/
def init : Ws := { blank with expectMask := true }

end Ws

/-! ## The upgrade request -/

/-- ASCII lower case. -/
def asciiLower (letter : UInt8) : UInt8 :=
  if 0x41 ≤ letter.toNat ∧ letter.toNat ≤ 0x5a then letter + 32 else letter

/-- `ci_eq`. -/
def ciEq (first second : Bytes) : Bool := first.map asciiLower == second.map asciiLower

/-- Space or tab. -/
def isBlank (letter : UInt8) : Bool := letter == 0x20 || letter == 0x09

/-- The bytes without blanks at their end. -/
def trimEnd (bytes : Bytes) : Bytes := (bytes.reverse.dropWhile isBlank).reverse

/-- `has_token`: whether a comma-separated value has this element, in any case. -/
def hasToken (value token : Bytes) : Bool :=
  (value.splitOn 0x2c).any fun element =>
    let trimmed := trimEnd (element.dropWhile isBlank)
    decide (trimmed ≠ []) && ciEq trimmed token

/-- `WS_GUID`. -/
def wsGuid : Bytes := ascii "258EAFA5-E914-47DA-95CA-C5AB0DC85B11"

/-- `ws_accept_key`. -/
def wsAcceptKey (prims : DaemonPrimitives) (key : Bytes) : Option Bytes :=
  if key.length = 24 ∧ (prims.base64Decode key).any (fun raw => raw.length == 16) then
    some (prims.base64Encode (sha1 (key ++ wsGuid)))
  else none

/-- The first query parameter named `state` with a value, or nothing. -/
def stateParam (target : Bytes) : Option Bytes :=
  match target.dropWhile (· ≠ 0x3f) with
  | [] => none
  | _ :: query =>
    ((query.splitOn 0x26).find? fun param =>
      decide (6 < param.length) && decide (param.take 6 = ascii "state=")).map (·.drop 6)

/-- `take_state`: `none` is a state that cannot be used, an absent one is empty. -/
def takeState (target : Bytes) : Option Bytes :=
  match stateParam target with
  | none => some []
  | some value =>
    if value.length ≤ wsStateMax ∧
        value.all (fun letter => 0x21 ≤ letter.toNat ∧ letter.toNat ≤ 0x7e) then
      some value
    else none

/-- The bytes up to the first line feed, without a carriage return at their end, and what
follows it. -/
def splitLine (bytes : Bytes) : Option (Bytes × Bytes) :=
  match bytes.dropWhile (· ≠ 0x0a) with
  | [] => none
  | _ :: rest =>
    let line := bytes.takeWhile (· ≠ 0x0a)
    some (if line.getLast? = some 0x0d then line.dropLast else line, rest)

/-- What the header loop of `ws_upgrade` has seen. -/
structure UpgradeHeaders where
  upgrade : Bool
  connection : Bool
  version : Bool
  key : Option Bytes
deriving DecidableEq

/-- One header line of `ws_upgrade`; a later line overrides an earlier one. -/
def UpgradeHeaders.note (headers : UpgradeHeaders) (name value : Bytes) : UpgradeHeaders :=
  if ciEq name (ascii "Upgrade") then
    { headers with upgrade := hasToken value (ascii "websocket") }
  else if ciEq name (ascii "Connection") then
    { headers with connection := hasToken value (ascii "Upgrade") }
  else if ciEq name (ascii "Sec-WebSocket-Version") then
    { headers with version := decide (value = ascii "13") }
  else if ciEq name (ascii "Sec-WebSocket-Key") then { headers with key := some value }
  else headers

/-- The header loop of `ws_upgrade`, with one unit of fuel for each line. -/
def upgradeHeaders : ℕ → UpgradeHeaders → Bytes → Option UpgradeHeaders
  | 0, headers, _ => some headers
  | fuel + 1, headers, bytes =>
    if bytes = [] then some headers
    else
      match splitLine bytes with
      | none => none
      | some ([], _) => some headers
      | some (line, rest) =>
        match line.dropWhile (· ≠ 0x3a) with
        | [] => none
        | _ :: value =>
          upgradeHeaders fuel
            (headers.note (line.takeWhile (· ≠ 0x3a)) (trimEnd (value.dropWhile isBlank)))
            rest

/-- The target of a well-formed request line `GET target HTTP/1.1`. -/
def requestTarget (line : Bytes) : Option Bytes :=
  if line.length < 14 ∨ line.take 4 ≠ ascii "GET " then none
  else
    match (line.drop 4).dropWhile (· ≠ 0x20) with
    | [] => none
    | _ :: version =>
      if version = ascii "HTTP/1.1" then some ((line.drop 4).takeWhile (· ≠ 0x20)) else none

/-- The answer that completes the upgrade. -/
def switchingProtocols (accept : Bytes) : Bytes :=
  ascii "HTTP/1.1 101 Switching Protocols\r\nUpgrade: websocket\r\nConnection: Upgrade\r\n" ++
    ascii "Sec-WebSocket-Accept: " ++ accept ++ ascii "\r\n\r\n"

/-- The size of the reply buffer. -/
def wsReplyMax : ℕ := wsSrvHdrMax + wsCtrlMax

/-- `ws_upgrade`. A refused request leaves the layer as it is, up to the state it may have
read. -/
def Ws.upgrade (prims : DaemonPrimitives) (ws : Ws) (request : Bytes) : WsStatus × Ws :=
  if request = [] ∨ wsUpgradeMax < request.length then (.errProtocol, ws)
  else
    match splitLine request with
    | none => (.errProtocol, ws)
    | some (line, rest) =>
      match requestTarget line with
      | none => (.errProtocol, ws)
      | some target =>
        match takeState target with
        | none => (.errProtocol, ws)
        | some state =>
          let ws := if stateParam target = none then ws else { ws with state := state }
          match upgradeHeaders rest.length ⟨false, false, false, none⟩ rest with
          | some ⟨true, true, true, some key⟩ =>
            match wsAcceptKey prims key with
            | none => (.errProtocol, ws)
            | some accept =>
              let reply := switchingProtocols accept
              if reply.length < wsReplyMax then
                (.ok, { ws with reply := reply, replySent := 0, stage := .opened })
              else (.errProtocol, ws)
          | _ => (.errProtocol, ws)

/-- `ws_refuse`, for the one code that differs from 503. -/
def Ws.refuse (ws : Ws) (tooManyRequests : Bool) : Ws :=
  { ws with
    reply :=
      ascii "HTTP/1.1 " ++
        (if tooManyRequests then ascii "429 Too Many Requests"
         else ascii "503 Service Unavailable") ++
        ascii "\r\nConnection: close\r\nContent-Length: 0\r\n\r\n"
    replySent := 0
    stage := .closed }

/-! ## Frames -/

/-- `ws_server_header`. -/
def wsServerHeader (payloadLen : ℕ) (opcode : UInt8) : Bytes :=
  let first := 0x80 ||| (opcode &&& 0x0f)
  if payloadLen < 126 then [first, UInt8.ofNat payloadLen]
  else if payloadLen ≤ 0xffff then first :: 126 :: beBytes 2 payloadLen
  else first :: 127 :: beBytes 8 payloadLen

namespace Ws

/-- `queue_ctrl`: a control reply that is still waiting keeps a new one out. -/
def queueCtrl (ws : Ws) (opcode : UInt8) (payload : Bytes) : Ws :=
  if ws.reply.length ≠ ws.replySent then ws
  else
    let payload := payload.take wsCtrlMax
    { ws with reply := wsServerHeader payload.length opcode ++ payload, replySent := 0 }

/-- The header of the frame in progress is not complete yet. -/
def wantsHeader (ws : Ws) : Bool := ws.hdrNeed == 0 || decide (ws.hdr.length < ws.hdrNeed)

/-- What `ws_consume` decides when the second header byte has arrived. -/
def noteHeaderStart (ws : Ws) : Option Ws :=
  let first := ws.hdr.getD 0 0
  let second := ws.hdr.getD 1 0
  let masked : Bool := second &&& 0x80 != 0
  let len7 := (second &&& 0x7f).toNat
  let opcode := first &&& 0x0f
  let isControl : Bool := opcode &&& 0x08 != 0
  if first &&& 0x70 ≠ 0 then none
  else if masked ≠ ws.expectMask then none
  else if isControl = true ∧ (first &&& 0x80 = 0 ∨ 125 < len7) then none
  else if isControl = true ∧
      ¬(opcode = wsOpClose ∨ opcode = wsOpPing ∨ opcode = wsOpPong) then none
  else if isControl = false ∧ ¬(opcode = wsOpBinary ∨ opcode = wsOpCont) then none
  else
    some
      { ws with
        hdrNeed := 2 + (if masked then 4 else 0) +
          (if len7 = 126 then 2 else if len7 = 127 then 8 else 0)
        opcode := opcode
        isControl := isControl }

/-- The header loop of `ws_consume`: one byte at a time until the header is complete. -/
def takeHeader : Ws → Bytes → Option (Ws × Bytes)
  | ws, [] => some (ws, [])
  | ws, byte :: rest =>
    if ws.wantsHeader then
      if wsHdrMax ≤ ws.hdr.length then none
      else
        let ws := { ws with hdr := ws.hdr ++ [byte] }
        if ws.hdr.length = 2 then
          match ws.noteHeaderStart with
          | none => none
          | some ws => takeHeader ws rest
        else takeHeader ws rest
    else some (ws, byte :: rest)

/-- The payload length of a complete header and where its mask starts, if the length is
encoded minimally. -/
def headerLength (ws : Ws) : Option (ℕ × ℕ) :=
  let len7 := (ws.hdr.getD 1 0 &&& 0x7f).toNat
  if len7 = 126 then
    let length := beNat ((ws.hdr.drop 2).take 2)
    if length < 126 then none else some (length, 4)
  else if len7 = 127 then
    let length := beNat ((ws.hdr.drop 2).take 8)
    if length ≤ 0xffff ∨ 2 ^ 63 ≤ length then none else some (length, 10)
  else some (len7, 2)

/-- What `ws_consume` does with a complete header. -/
def headerComplete (ws : Ws) : Option Ws :=
  match ws.headerLength with
  | none => none
  | some (length, offset) =>
    let fin : Bool := ws.hdr.getD 0 0 &&& 0x80 != 0
    if ws.isControl = false ∧
        (ws.opcode = wsOpCont ∧ ws.inMessage = false ∨
          ws.opcode = wsOpBinary ∧ ws.inMessage = true) then none
    else
      some
        { ws with
          payloadLeft := length
          mask := if ws.expectMask then (ws.hdr.drop offset).take 4 else [0, 0, 0, 0]
          maskOff := 0
          ctrl := []
          inMessage := if ws.isControl then ws.inMessage else !fin }

/-- The end of a frame; `true` says that a close frame ends the reading. -/
def frameDone (ws : Ws) : Bool × Ws :=
  if ws.isControl = true ∧ ws.opcode = wsOpClose then
    let code := if 2 ≤ ws.ctrl.length then ws.ctrl.take 2 else []
    (true, { ws.queueCtrl wsOpClose code with stage := .closed, hdr := [], hdrNeed := 0 })
  else
    let ws := if ws.isControl = true ∧ ws.opcode = wsOpPing then ws.queueCtrl wsOpPong ws.ctrl
      else ws
    (false, { ws with hdr := [], hdrNeed := 0, ctrl := [] })

/-- Payload bytes without the mask, which continues where the last piece ended. -/
def unmask (ws : Ws) (bytes : Bytes) : Bytes :=
  bytes.zipIdx.map fun entry => entry.1 ^^^ ws.mask.getD ((ws.maskOff + entry.2) % 4) 0

variable {Sink : Type}

/-- Hand data payload to the sink in pieces of at most 512 bytes; `false` is a refusal. -/
def feedSink (sink : Sink → Bytes → Option Sink) : ℕ → Sink → Bytes → Bool × Sink
  | 0, target, _ => (true, target)
  | fuel + 1, target, bytes =>
    if bytes = [] then (true, target)
    else
      match sink target (bytes.take 512) with
      | none => (false, target)
      | some target => feedSink sink fuel target (bytes.drop 512)

/-- The payload step of `ws_consume`: what arrived of the frame's payload, unmasked, goes to
the control buffer or the sink. -/
def takePayload (sink : Sink → Bytes → Option Sink) (ws : Ws) (target : Sink) (bytes : Bytes) :
    Bool × Ws × Sink :=
  let part := ws.unmask (bytes.take ws.payloadLeft)
  let next :=
    { ws with
      maskOff := (ws.maskOff + part.length) % 4
      payloadLeft := ws.payloadLeft - part.length }
  if ws.isControl then
    if wsCtrlMax < ws.ctrl.length + part.length then (false, ws, target)
    else (true, { next with ctrl := ws.ctrl ++ part }, target)
  else
    let (taken, target) := feedSink sink part.length target part
    (taken, next, target)

/-- One turn of the loop of `ws_consume`, over what is done with the rest. -/
def turn (sink : Sink → Bytes → Option Sink) (recur : Ws → Sink → Bytes → WsStatus × Ws × Sink)
    (ws : Ws) (target : Sink) (bytes : Bytes) : WsStatus × Ws × Sink :=
  if bytes = [] then (.needMore, ws, target)
  else if ws.payloadLeft = 0 ∧ ws.wantsHeader = true then
    match ws.takeHeader bytes with
    | none => (.errProtocol, ws, target)
    | some (ws, rest) =>
      if ws.wantsHeader then (.needMore, ws, target)
      else
        match ws.headerComplete with
        | none => (.errProtocol, ws, target)
        | some ws =>
          if ws.payloadLeft = 0 then
            -- an empty frame still completes
            match ws.frameDone with
            | (true, ws) => (.ok, ws, target)
            | (false, ws) => recur ws target rest
          else recur ws target rest
  else
    match ws.takePayload sink target bytes with
    | (false, ws, target) => (.errProtocol, ws, target)
    | (true, next, target) =>
      if next.payloadLeft ≠ 0 then (.needMore, next, target)
      else
        match next.frameDone with
        | (true, ws) => (.ok, ws, target)
        | (false, next) => recur next target (bytes.drop ws.payloadLeft)

/-- The loop of `ws_consume`, with one unit of fuel for each byte. -/
def consumeLoop (sink : Sink → Bytes → Option Sink) :
    ℕ → Ws → Sink → Bytes → WsStatus × Ws × Sink
  | 0, ws, target, _ => (.needMore, ws, target)
  | fuel + 1, ws, target, bytes => turn sink (consumeLoop sink fuel) ws target bytes

/-- `ws_consume`. -/
def consume (sink : Sink → Bytes → Option Sink) (ws : Ws) (target : Sink) (bytes : Bytes) :
    WsStatus × Ws × Sink :=
  match ws.stage with
  | .closed => (.ok, ws, target)
  | .upgrade => (.errProtocol, ws, target)
  | .opened => ws.consumeLoop sink bytes.length target bytes

end Ws

end MldsaAuth.Authd
