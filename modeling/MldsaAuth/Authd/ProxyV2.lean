/-
# The PROXY preamble

A proxy in front of the daemon states the client's address in a binary preamble
before the client may write a byte. The parser takes the bytes in whatever pieces
they arrive, stages the fixed header and the address block, and counts the rest of
the declared body down without storing it. This file embeds `authd/proxy_v2.c`;
the rendering of an address for the log is left out.
-/

import MldsaAuth.Foundation.Bytes

namespace MldsaAuth.Authd

open Foundation

/-- `authd_addr_t`: the family and as many bytes as it has. -/
inductive AuthdAddr where
  | none
  | v4 (addr : Blob 4)
  | v6 (addr : Blob 16)
deriving DecidableEq

/-- `authd_addr_key`: an IPv4 address, or the upper half of an IPv6 one. -/
def AuthdAddr.key : AuthdAddr → Option Bytes
  | .none => Option.none
  | .v4 addr => some addr.toList
  | .v6 addr => some (addr.toList.take 8)

/-- `proxy_v2_status_t`. -/
inductive ProxyV2Status where
  | needMore
  | ok
  | noAddr
  | err
deriving DecidableEq, Repr

/-- `PROXY_V2_HDR_LEN`. -/
def proxyV2HdrLen : ℕ := 16

/-- `PROXY_V2_LEN_MAX`. -/
def proxyV2LenMax : ℕ := 1024

/-- `PROXY_V2_SIG`. -/
def proxyV2Sig : Bytes :=
  [0x0d, 0x0a, 0x0d, 0x0a, 0x00, 0x0d, 0x0a, 0x51, 0x55, 0x49, 0x54, 0x0a]

/-- `proxy_v2_t`. The staged bytes are the first `have` bytes of the buffer. -/
structure ProxyV2 where
  staged : Bytes
  want : ℕ
  skip : ℕ
  hdrOk : Bool
  done : Bool
  result : ProxyV2Status
  addr : AuthdAddr
deriving DecidableEq

namespace ProxyV2

/-- The zeroed parser of a connection that expects no preamble. -/
def blank : ProxyV2 where
  staged := []
  want := 0
  skip := 0
  hdrOk := false
  done := false
  result := .needMore
  addr := .none

/-- `proxy_v2_init`. -/
def init : ProxyV2 := { blank with want := proxyV2HdrLen }

variable (proxy : ProxyV2)

/-- The version nibble of the header. -/
def version : ℕ := (proxy.staged.getD 12 0).toNat / 16

/-- The command nibble: 0 for LOCAL, 1 for PROXY. -/
def command : ℕ := (proxy.staged.getD 12 0).toNat % 16

/-- The address family nibble. -/
def family : ℕ := (proxy.staged.getD 13 0).toNat / 16

/-- The declared length of everything after the fixed header. -/
def bodyLen : ℕ := beNat ((proxy.staged.drop 14).take 2)

/-- `addr_block_len`. -/
def addrBlockLen : ℕ → ℕ
  | 1 => 12
  | 2 => 36
  | 3 => 216
  | _ => 0

/-- The address block the header announces; only a PROXY command carries one. -/
def blockLen : ℕ :=
  if proxy.command = 1 then addrBlockLen proxy.family else 0

/-- What is checked once the fixed header is there. -/
def headerOk : Bool :=
  decide (proxy.staged.take 12 = proxyV2Sig) && decide (proxy.version = 2) &&
    decide (proxy.command ≤ 1) && decide (proxy.bodyLen ≤ proxyV2LenMax) &&
    decide (proxy.blockLen ≤ proxy.bodyLen)

/-- The bytes at the front of the address block. -/
def sourceAddr (size : ℕ) : Option (Blob size) :=
  (takeBlob size (proxy.staged.drop proxyV2HdrLen)).map Prod.fst

/-- `settle`: the verdict and the address, once header and address block are staged. -/
def settle : ProxyV2Status × AuthdAddr :=
  if proxy.command = 0 then (.noAddr, proxy.addr)
  else if proxy.family = 1 then
    match proxy.sourceAddr 4 with
    | some addr => (.ok, .v4 addr)
    | none => (.noAddr, proxy.addr)
  else if proxy.family = 2 then
    match proxy.sourceAddr 16 with
    | some addr => (.ok, .v6 addr)
    | none => (.noAddr, proxy.addr)
  else (.noAddr, proxy.addr)

/-- Append bytes until the given number is staged; what is left over comes second. -/
def stage (want : ℕ) (data : Bytes) : ProxyV2 × Bytes :=
  let count := want - proxy.staged.length
  ({ proxy with staged := proxy.staged ++ data.take count }, data.drop count)

/-- `proxy_v2_consume` after the fixed header: the address block, then the rest of the body.
Returns the verdict, the unconsumed bytes and the parser. -/
def consumeBody (data : Bytes) : ProxyV2Status × Bytes × ProxyV2 :=
  let (proxy, data) := proxy.stage proxy.want data
  if proxy.staged.length < proxy.want then (.needMore, data, proxy)
  else
    let rest := data.drop proxy.skip
    let proxy := { proxy with skip := proxy.skip - data.length }
    if 0 < proxy.skip then (.needMore, rest, proxy)
    else
      let (result, addr) := proxy.settle
      (result, rest, { proxy with done := true, result := result, addr := addr })

/-- `proxy_v2_consume`. -/
def consume (data : Bytes) : ProxyV2Status × Bytes × ProxyV2 :=
  if proxy.done then (proxy.result, data, proxy)
  else if proxy.hdrOk then proxy.consumeBody data
  else
    let (proxy, data) := proxy.stage proxyV2HdrLen data
    if proxy.staged.length < proxyV2HdrLen then (.needMore, data, proxy)
    else if proxy.headerOk then
      consumeBody
        { proxy with
          want := proxyV2HdrLen + proxy.blockLen
          skip := proxy.bodyLen - proxy.blockLen
          hdrOk := true }
        data
    else (.err, data, { proxy with done := true, result := .err })

end ProxyV2

end MldsaAuth.Authd
