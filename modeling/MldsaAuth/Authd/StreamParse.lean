/-
# One stream, one reading

A peer's bytes reach the frame callback through the preamble, the HTTP request, the
WebSocket framing and the length-prefixed frames, each of them fed by whatever pieces
the loop happens to read and held back while replies are being written. This file states
what the whole stream means when it is read in one pass without any buffer, and shows
that a connection of the loop follows that reading: the address, the URL state and the
frames do not depend on how the stream was cut.
-/

import MldsaAuth.Authd.Pieces

namespace MldsaAuth.Authd

open Foundation ConnIo

/-! ## Frames of a stream -/

/-- The complete frames at the front of a byte string; `none` is a header with an illegal
length. One unit of fuel for each byte. -/
def splitFrames : ℕ → Bytes → Option (List Bytes)
  | 0, _ => some []
  | fuel + 1, bytes =>
    if bytes.length < authdFrameHeader then some []
    else
      let length := beNat (bytes.take authdFrameHeader)
      if length = 0 ∨ authdFrameMax < length then none
      else if bytes.length < authdFrameHeader + length then some []
      else
        (splitFrames fuel (bytes.drop (authdFrameHeader + length))).map
          ((bytes.drop authdFrameHeader).take length :: ·)

/-- The complete frames of a byte string. -/
def framesOf (bytes : Bytes) : Option (List Bytes) := splitFrames bytes.length bytes

/-- A payload behind its length. -/
def prefixed (payload : Bytes) : Bytes := beBytes authdFrameHeader payload.length ++ payload

/-- A size that a frame may have. -/
def FrameFits (payload : Bytes) : Prop := payload ≠ [] ∧ payload.length ≤ authdFrameMax

/-- A header at the front that announces no legal length. -/
def BadHeader (bytes : Bytes) : Prop :=
  authdFrameHeader ≤ bytes.length ∧
    (beNat (bytes.take authdFrameHeader) = 0 ∨ authdFrameMax < beNat (bytes.take authdFrameHeader))

variable {fuel : ℕ} {bytes : Bytes}

theorem splitFrames_fuel (hfuel : bytes.length ≤ fuel) :
    splitFrames (fuel + 1) bytes = splitFrames fuel bytes := by
  induction fuel generalizing bytes with
  | zero =>
    obtain rfl := List.length_eq_zero_iff.mp (Nat.le_zero.mp hfuel)
    rfl
  | succ fuel ih =>
    rw [splitFrames, splitFrames]
    split_ifs with hheader
    · rfl
    dsimp only
    split
    · rfl
    split
    · rfl
    · rw [ih (by rw [List.length_drop]; unfold authdFrameHeader at hheader ⊢; omega)]

theorem splitFrames_of_le (hfuel : bytes.length ≤ fuel) :
    splitFrames fuel bytes = framesOf bytes := by
  induction fuel, hfuel using Nat.le_induction with
  | base => rfl
  | succ fuel hfuel ih => rw [splitFrames_fuel hfuel, ih]

/-- An illegal header stays one, whatever follows. -/
theorem splitFrames_append_of_none (hnone : splitFrames fuel bytes = none) (more : Bytes) :
    splitFrames fuel (bytes ++ more) = none := by
  induction fuel generalizing bytes with
  | zero => cases hnone
  | succ fuel ih =>
    rw [splitFrames] at hnone
    split at hnone
    · cases hnone
    rename_i hheader
    rw [splitFrames, if_neg (by rw [List.length_append]; omega),
      List.take_append_of_le_length (not_lt.mp hheader)]
    dsimp only at hnone ⊢
    split at hnone
    · rename_i hbad
      exact if_pos hbad
    rename_i hgood
    rw [if_neg hgood]
    split at hnone
    · cases hnone
    rename_i hwhole
    rw [if_neg (by rw [List.length_append]; omega),
      List.drop_append_of_le_length (not_lt.mp hwhole), ih (Option.map_eq_none_iff.mp hnone)]
    rfl

theorem framesOf_append_of_none (hnone : framesOf bytes = none) (more : Bytes) :
    framesOf (bytes ++ more) = none := by
  have hlength : bytes.length ≤ (bytes ++ more).length := by
    rw [List.length_append]
    exact Nat.le_add_right _ _
  rw [← splitFrames_of_le hlength] at hnone
  exact splitFrames_append_of_none hnone more

theorem framesOf_of_badHeader (hbad : BadHeader bytes) : framesOf bytes = none := by
  obtain ⟨hheader, hlength⟩ := hbad
  rw [← splitFrames_of_le (Nat.le_succ _), splitFrames, if_neg (not_lt.mpr hheader)]
  exact if_pos hlength

/-- Without a whole frame at the front there is none. -/
theorem framesOf_of_unfinished (hgood : ¬BadHeader bytes)
    (hshort : bytes.length < authdFrameHeader ∨
      bytes.length < authdFrameHeader + beNat (bytes.take authdFrameHeader)) :
    framesOf bytes = some [] := by
  rw [← splitFrames_of_le (Nat.le_succ _), splitFrames]
  split_ifs with hheader
  · rfl
  dsimp only
  rw [if_neg fun hbad => hgood ⟨not_lt.mp hheader, hbad⟩, if_pos (hshort.resolve_left hheader)]

variable {payload : Bytes}

theorem framesOf_prefixed (hfits : FrameFits payload) (rest : Bytes) :
    framesOf (prefixed payload ++ rest) = (framesOf rest).map (payload :: ·) := by
  obtain ⟨hne, hmax⟩ := hfits
  have hpos := List.length_pos_iff.mpr hne
  have hlength : (beBytes authdFrameHeader payload.length).length = authdFrameHeader :=
    length_beBytes _ _
  have hvalue : beNat (beBytes authdFrameHeader payload.length) = payload.length := by
    rw [beNat_beBytes, Nat.mod_eq_of_lt]
    exact lt_of_le_of_lt hmax (by decide)
  have htotal : (prefixed payload ++ rest).length =
      authdFrameHeader + payload.length + rest.length := by
    rw [prefixed, List.length_append, List.length_append, hlength]
  have htake : (prefixed payload ++ rest).take authdFrameHeader =
      beBytes authdFrameHeader payload.length := by
    rw [prefixed, List.append_assoc, List.take_left' hlength]
  have hdrop : (prefixed payload ++ rest).drop authdFrameHeader = payload ++ rest := by
    rw [prefixed, List.append_assoc, List.drop_left' hlength]
  rw [← splitFrames_of_le (Nat.le_succ _), splitFrames, htake, hvalue, htotal,
    if_neg (by omega), if_neg (by omega), if_neg (by omega), ← List.drop_drop, hdrop,
    List.drop_left, List.take_left, splitFrames_of_le (by omega)]

/-- Frames that are sent one after another are read one after another. -/
theorem framesOf_flatMap {payloads : List Bytes} (hfits : ∀ payload ∈ payloads, FrameFits payload)
    (rest : Bytes) :
    framesOf (payloads.flatMap prefixed ++ rest) = (framesOf rest).map (payloads ++ ·) := by
  induction payloads with
  | nil => exact Option.map_id'.symm
  | cons payload payloads ih =>
    rw [List.flatMap_cons, List.append_assoc, framesOf_prefixed (hfits payload List.mem_cons_self),
      ih fun later hlater => hfits later (List.mem_cons_of_mem _ hlater), Option.map_map]
    rfl

/-! ## A stream in one pass -/

/-- What has been read of a WebSocket stream: the preamble, the layer's state up to what it
answers, and the text of the request or, after it, everything the frames carried. -/
structure Intake where
  proxyOn : Bool
  proxy : ProxyV2
  ws : Ws
  held : Bytes

namespace Intake

/-- Before the first byte. -/
def start (proxyOn : Bool) : Intake where
  proxyOn := proxyOn
  proxy := if proxyOn then .init else .blank
  ws := Ws.init.hush
  held := []

/-- WebSocket frames. -/
def feed (intake : Intake) (bytes : Bytes) : Option Intake :=
  (intake.ws.scan intake.held bytes).map fun read =>
    { intake with ws := read.1, held := read.2 }

/-- The HTTP request. -/
def upgrade (prims : DaemonPrimitives) (intake : Intake) (bytes : Bytes) : Option Intake :=
  let text := intake.held ++ bytes
  let requestLen := ConnIo.endOfHeaders text
  if requestLen = 0 then
    if wsUpgradeMax < text.length then none else some { intake with held := text }
  else if wsUpgradeMax < requestLen then none
  else
    match intake.ws.upgrade prims (text.take requestLen) with
    | (.ok, ws) => feed { intake with ws := ws.hush, held := [] } (text.drop requestLen)
    | _ => none

/-- The HTTP request, then WebSocket frames. -/
def request (prims : DaemonPrimitives) (intake : Intake) (bytes : Bytes) : Option Intake :=
  if intake.ws.stage ≠ .upgrade then intake.feed bytes else intake.upgrade prims bytes

/-- The preamble where one is expected, the HTTP request, then WebSocket frames. -/
def push (prims : DaemonPrimitives) (intake : Intake) (bytes : Bytes) : Option Intake :=
  if intake.proxyOn = true ∧ intake.proxy.done = false then
    match intake.proxy.consume bytes with
    | (.err, _, _) => none
    | (_, rest, proxy) =>
      if proxy.done then request prims { intake with proxy := proxy } rest
      else some { intake with proxy := proxy }
  else intake.request prims bytes

/-- The data in which frames are looked for: none before the request is over. -/
def data (intake : Intake) : Bytes := if intake.ws.stage = .upgrade then [] else intake.held

end Intake

/-- What a stream says: the client's address, the URL state and the frames. -/
structure Parsed where
  addr : AuthdAddr
  state : Bytes
  frames : List Bytes
deriving DecidableEq

/-- The reading of a whole stream in one pass; `none` is a protocol error. -/
def parseStream (prims : DaemonPrimitives) (listener : Listener) (stream : Bytes) : Option Parsed :=
  if listener.ws then
    ((Intake.start listener.proxy).push prims stream).bind fun intake =>
      (framesOf intake.data).map fun frames => ⟨intake.proxy.addr, intake.ws.state, frames⟩
  else (framesOf stream).map fun frames => ⟨.none, [], frames⟩

variable {proxyOn : Bool} {prims : DaemonPrimitives} {intake : Intake}

namespace Intake

variable {next : Intake} {first second : Bytes}

theorem feed_append (hready : intake.ws.Ready) (first second : Bytes) :
    intake.feed (first ++ second) = (intake.feed first).bind (·.feed second) := by
  unfold feed
  rw [Ws.scan_append hready]
  cases intake.ws.scan intake.held first with
  | none => rfl
  | some => rfl

/-- What frames leave as it was. -/
theorem feed_eq_some (hready : intake.ws.Ready) (hfeed : intake.feed first = some next) :
    intake.ws.stage ≠ .upgrade ∧ next.ws.stage ≠ .upgrade ∧ intake.held <+: next.held ∧
      next.proxyOn = intake.proxyOn ∧ next.proxy = intake.proxy ∧ next.ws.Ready := by
  unfold feed at hfeed
  obtain ⟨read, hscan, rfl⟩ := Option.map_eq_some_iff.mp hfeed
  obtain ⟨hopen, hstage, hheld, -⟩ := Ws.scan_eq_some hscan
  exact ⟨hopen, hstage, hheld, rfl, rfl, Ws.ready_scan hready hscan⟩

theorem request_of_open (hopen : intake.ws.stage ≠ .upgrade) (bytes : Bytes) :
    intake.request prims bytes = intake.feed bytes := if_pos hopen

theorem request_of_upgrade (hupgrade : ¬intake.ws.stage ≠ .upgrade) (bytes : Bytes) :
    intake.request prims bytes = intake.upgrade prims bytes := if_neg hupgrade

/-- The request is read in two pieces as in one. -/
theorem request_append (hready : intake.ws.Ready) (first second : Bytes) :
    intake.request prims (first ++ second) =
      (intake.request prims first).bind (·.request prims second) := by
  by_cases hopen : intake.ws.stage ≠ .upgrade
  · rw [request_of_open hopen, request_of_open hopen, feed_append hready]
    cases hfeed : intake.feed first with
    | none => rfl
    | some => exact (request_of_open (feed_eq_some hready hfeed).2.1 second).symm
  rw [request_of_upgrade hopen, request_of_upgrade hopen, upgrade, upgrade, ← List.append_assoc]
  have happend := endOfHeaders_append (intake.held ++ first) second
  by_cases hzero : endOfHeaders (intake.held ++ first) = 0
  · rw [if_pos hzero]
    by_cases hlong : wsUpgradeMax < (intake.held ++ first).length
    · -- a request that is already too long stays so
      rw [if_pos hlong, Option.bind_none]
      rcases happend with hsame | ⟨-, hbehind⟩
      · rw [hsame, if_pos hzero, if_pos (by rw [List.length_append]; omega)]
      · rw [if_neg (Nat.ne_zero_of_lt hbehind), if_pos (lt_trans hlong hbehind)]
    · rw [if_neg hlong]
      exact (if_neg hopen).symm
  · have hsame := happend.resolve_right fun hbehind => hzero hbehind.1
    have hwithin := endOfHeaders_le_length (intake.held ++ first)
    rw [hsame, if_neg hzero, if_neg hzero, List.take_append_of_le_length hwithin,
      List.drop_append_of_le_length hwithin]
    split
    · rfl
    rcases Ws.upgrade_cases prims
      ((intake.held ++ first).take (endOfHeaders (intake.held ++ first))) with
      hrefused | ⟨state, accept, hgranted⟩
    · obtain ⟨last, hlast⟩ := hrefused intake.ws
      rw [hlast]
      rfl
    · rw [hgranted]
      dsimp only
      rw [feed_append (by exact hready)]
      cases hfeed : feed _ ((intake.held ++ first).drop _) with
      | none => rfl
      | some =>
        exact (request_of_open (feed_eq_some (by exact hready) hfeed).2.1 second).symm

/-- What reading on leaves as it was. -/
structure Extends (before after : Intake) : Prop where
  proxyOn : after.proxyOn = before.proxyOn
  ready : after.ws.Ready
  stage : before.ws.stage ≠ .upgrade → after.ws.stage ≠ .upgrade
  data : before.data <+: after.data

theorem extends_feed (hready : intake.ws.Ready) (hfeed : intake.feed first = some next) :
    intake.Extends next ∧ next.proxy = intake.proxy := by
  obtain ⟨hopen, hstage, hheld, hon, hproxy, hnext⟩ := feed_eq_some hready hfeed
  refine ⟨⟨hon, hnext, fun _ => hstage, ?_⟩, hproxy⟩
  unfold data
  rwa [if_neg hopen, if_neg hstage]

theorem extends_request (hready : intake.ws.Ready)
    (hrequest : intake.request prims first = some next) :
    intake.Extends next ∧ next.proxy = intake.proxy := by
  by_cases hopen : intake.ws.stage ≠ .upgrade
  · rw [request_of_open hopen] at hrequest
    exact extends_feed hready hrequest
  have hnone : intake.data = [] := if_pos (not_not.mp hopen)
  rw [request_of_upgrade hopen, upgrade] at hrequest
  split at hrequest
  · split at hrequest
    · cases hrequest
    · obtain rfl := Option.some.inj hrequest
      exact ⟨⟨rfl, hready, id, hnone ▸ List.nil_prefix⟩, rfl⟩
  split at hrequest
  · cases hrequest
  rcases Ws.upgrade_cases prims
    ((intake.held ++ first).take (endOfHeaders (intake.held ++ first))) with
    hrefused | ⟨state, accept, hgranted⟩
  · obtain ⟨last, hlast⟩ := hrefused intake.ws
    rw [hlast] at hrequest
    cases hrequest
  · rw [hgranted] at hrequest
    dsimp only at hrequest
    obtain ⟨hextends, hproxy⟩ := extends_feed (by exact hready) hrequest
    exact ⟨⟨hextends.proxyOn, hextends.ready, fun hstage => absurd hstage hopen,
      hnone ▸ List.nil_prefix⟩, hproxy⟩

theorem push_of_settled (hsettled : ¬(intake.proxyOn = true ∧ intake.proxy.done = false))
    (bytes : Bytes) : intake.push prims bytes = intake.request prims bytes := if_neg hsettled

/-- After the preamble there is none, and the request is read in two pieces as in one. -/
theorem push_append_of_settled (hsettled : ¬(intake.proxyOn = true ∧ intake.proxy.done = false))
    (hready : intake.ws.Ready) (first second : Bytes) :
    intake.request prims (first ++ second) =
      (intake.request prims first).bind (·.push prims second) := by
  rw [request_append hready]
  cases hrequest : intake.request prims first with
  | none => rfl
  | some =>
    obtain ⟨hextends, hproxy⟩ := extends_request hready hrequest
    refine (push_of_settled ?_ second).symm
    rwa [hextends.proxyOn, hproxy]

/-- A stream is read in two pieces as in one. -/
theorem push_append (hready : intake.ws.Ready) (first second : Bytes) :
    intake.push prims (first ++ second) = (intake.push prims first).bind (·.push prims second) := by
  by_cases hpreamble : intake.proxyOn = true ∧ intake.proxy.done = false
  · rw [push, push, if_pos hpreamble, if_pos hpreamble, ProxyV2.consume_append hpreamble.2]
    have hstatus := (ProxyV2.consume_shape intake.proxy first).unsettled
    generalize intake.proxy.consume first = reading at hstatus ⊢
    obtain ⟨status, rest, proxy⟩ := reading
    dsimp only at hstatus
    cases hdone : proxy.done with
    | true =>
      rw [ProxyV2.resume_of_done hdone]
      have hsettled : ¬(intake.proxyOn = true ∧ proxy.done = false) := by
        rw [hdone]
        exact fun hopen => nomatch hopen.2
      have hrest := @push_append_of_settled prims { intake with proxy := proxy } hsettled hready
        rest second
      cases status with
      | err => rfl
      | needMore | ok | noAddr => simpa only [hdone, if_true] using hrest
    | false =>
      obtain rfl := (hstatus hdone).1
      have hgoes : intake.proxyOn = true ∧ proxy.done = false := ⟨hpreamble.1, hdone⟩
      simp only [ProxyV2.resume, hdone, Bool.false_eq_true, if_false, Option.bind_some]
      exact (if_pos hgoes).symm
  · rw [push_of_settled hpreamble, push_of_settled hpreamble]
    exact push_append_of_settled hpreamble hready first second

theorem extends_push (hready : intake.ws.Ready) (hpush : intake.push prims first = some next) :
    intake.Extends next := by
  unfold push at hpush
  split at hpush
  · split at hpush
    · cases hpush
    · split at hpush
      · have hextends := (extends_request (by exact hready) hpush).1
        exact ⟨hextends.proxyOn, hextends.ready, hextends.stage, hextends.data⟩
      · obtain rfl := Option.some.inj hpush
        exact ⟨rfl, hready, id, List.prefix_rfl⟩
  · exact (extends_request hready hpush).1

theorem ready_start : (start proxyOn).ws.Ready := fun _ => rfl

end Intake

/-! ## The buffers of a connection -/

variable {listener : Listener}

namespace ConnIo

variable {io : ConnIo} {handed : List Bytes} {data : Bytes}

/-- A length that was noted is the one in the input. -/
def Noted (io : ConnIo) : Prop :=
  io.frameLen = 0 ∨
    authdFrameHeader ≤ io.input.length ∧ io.frameLen = beNat (io.input.take authdFrameHeader) ∧
      ¬BadHeader io.input

/-- The length of the frame at the front is noted as soon as its header is there. -/
def HeaderSeen (io : ConnIo) : Prop :=
  io.input.length < authdFrameHeader ∧ io.frameLen = 0 ∨
    authdFrameHeader ≤ io.input.length ∧ io.frameLen = beNat (io.input.take authdFrameHeader) ∧
      ¬BadHeader io.input

theorem HeaderSeen.noted (hseen : io.HeaderSeen) : io.Noted := hseen.imp And.right id

theorem badHeader_append (hheader : authdFrameHeader ≤ bytes.length) (more : Bytes) :
    BadHeader (bytes ++ more) ↔ BadHeader bytes := by
  unfold BadHeader
  rw [List.take_append_of_le_length hheader, List.length_append]
  constructor
  · exact fun hbad => ⟨hheader, hbad.2⟩
  · exact fun hbad => ⟨le_trans hheader (Nat.le_add_right _ _), hbad.2⟩

variable {next : ConnIo}

/-- More input leaves a noted length true. -/
theorem Noted.append (hnoted : io.Noted) {more : Bytes}
    (hinput : next.input = io.input ++ more) (hlen : next.frameLen = io.frameLen) : next.Noted := by
  rcases hnoted with hzero | ⟨hheader, hvalue, hgood⟩
  · exact .inl (hlen.trans hzero)
  refine .inr ⟨?_, ?_, ?_⟩
  · rw [hinput, List.length_append]
    exact le_trans hheader (Nat.le_add_right _ _)
  · rw [hlen, hvalue, hinput, List.take_append_of_le_length hheader]
  · rw [hinput, badHeader_append hheader]
    exact hgood

/-- Reading a header notes its length or finds it illegal. -/
theorem noteHeader_cases (hnoted : io.Noted) (hopen : ¬(io.mode = .ws ∧ io.ws.stage = .upgrade)) :
    (∃ frameLen, io.noteHeader = (.ok, { io with frameLen := frameLen }) ∧
        HeaderSeen { io with frameLen := frameLen }) ∨
      io.noteHeader = io.poison .errProtocol ∧ BadHeader io.input := by
  unfold noteHeader
  rw [if_neg hopen]
  split_ifs with hskip
  · refine .inl ⟨io.frameLen, rfl, ?_⟩
    rcases hnoted with hzero | hseen
    · exact .inl ⟨hskip.resolve_left fun hne => hne hzero, hzero⟩
    · exact .inr hseen
  · have hheader : authdFrameHeader ≤ io.input.length := not_lt.mp fun hshort => hskip (.inr hshort)
    dsimp only
    split
    · rename_i hbad
      exact .inr ⟨rfl, hheader, hbad⟩
    rename_i hgood
    exact .inl ⟨_, rfl, .inr ⟨hheader, rfl, fun hbad => hgood hbad.2⟩⟩

/-- A connection has read what the one pass has read, up to the frames it has handed over. -/
structure Follows (io : ConnIo) (handed : List Bytes) (intake : Intake) : Prop where
  mode : io.mode = .ws
  proxyOn : intake.proxyOn = io.proxyOn
  proxy : intake.proxy = io.proxy
  ws : intake.ws = io.ws.hush
  held : intake.held = handed.flatMap prefixed ++ io.input
  ready : io.ws.Ready
  fresh : io.ws.stage = .upgrade → handed = [] ∧ io.frameLen = 0
  short : io.ws.stage = .upgrade → io.input.length ≤ wsUpgradeMax
  seen : io.ws.stage ≠ .upgrade → io.HeaderSeen

/-- What a push does: it follows the one pass, or the one pass has met an error too. -/
inductive Pushed (handed : List Bytes) (read : Option Intake) : ConnIoStatus × ConnIo → Prop
  | follows {io : ConnIo} {next : Intake} (hread : read = some next)
      (hopen : io.failed = false) (hfollows : io.Follows handed next) : Pushed handed read (.ok, io)
  | refused {status : ConnIoStatus} {io : ConnIo} (hstatus : status ≠ .ok)
      (hread : read = none) : Pushed handed read (status, io)
  | illegal {status : ConnIoStatus} {io : ConnIo} {next : Intake} (hstatus : status ≠ .ok)
      (hread : read = some next) (hbad : framesOf next.data = none) :
      Pushed handed read (status, io)

theorem wsFeed_of_settled {status : WsStatus} {ws : Ws} {input : Bytes}
    (hconsume : io.ws.consume wsSinkIn io.input data = (status, ws, input))
    (hstatus : status ≠ .errProtocol) :
    io.wsFeed data = noteHeader { io with ws := ws, input := input } := by
  unfold wsFeed
  rw [hconsume]
  cases status with
  | errProtocol => exact absurd rfl hstatus
  | ok => rfl
  | needMore => rfl

section

variable (hfollows : io.Follows handed intake)

include hfollows

theorem Follows.wsFeed (hfailed : io.failed = false) (hopen : io.ws.stage ≠ .upgrade)
    (hhanded : ∀ payload ∈ handed, FrameFits payload)
    (hroom : io.input.length + data.length ≤ authdInBufBytes) :
    Pushed handed (intake.feed data) (io.wsFeed data) := by
  have hscan := Ws.scan_hush io.ws (handed.flatMap prefixed) hroom
  rw [← hfollows.ws, ← hfollows.held] at hscan
  have hready : intake.ws.Ready := hfollows.ws ▸ hfollows.ready
  unfold Intake.feed
  cases hconsume : io.ws.consume wsSinkIn io.input data with
  | mk status read =>
  obtain ⟨ws, input⟩ := read
  rw [hconsume] at hscan
  by_cases herror : status = .errProtocol
  · subst herror
    unfold ConnIo.wsFeed
    rw [hscan, hconsume]
    exact .refused nofun rfl
  have hread : intake.ws.scan intake.held data =
      some (ws.hush, handed.flatMap prefixed ++ input) := by
    rw [hscan]
    cases status with
    | errProtocol => exact absurd rfl herror
    | ok => rfl
    | needMore => rfl
  rw [hread, wsFeed_of_settled hconsume herror]
  obtain ⟨-, hstage, hgrown, -⟩ := Ws.scan_eq_some hread
  have hnext : ws.stage ≠ .upgrade := hstage
  have hnextReady : ws.hush.Ready := Ws.ready_scan hready hread
  rw [hfollows.held, List.prefix_append_right_inj] at hgrown
  obtain ⟨more, hmore⟩ := hgrown
  have hnoted : Noted { io with ws := ws, input := input } :=
    (hfollows.seen hopen).noted.append hmore.symm rfl
  rcases noteHeader_cases hnoted fun hupgrade => hnext hupgrade.2 with
    ⟨frameLen, hnote, hseen⟩ | ⟨hnote, hbad⟩
  · rw [hnote]
    exact .follows rfl hfailed
      { hfollows with
        ws := rfl
        held := rfl
        ready := hnextReady
        fresh := fun hupgrade => absurd hupgrade hnext
        short := fun hupgrade => absurd hupgrade hnext
        seen := fun _ => hseen }
  · rw [hnote]
    refine .illegal nofun rfl ?_
    have hdata : Intake.data { intake with
        ws := ws.hush, held := handed.flatMap prefixed ++ input } =
          handed.flatMap prefixed ++ input := if_neg hnext
    rw [hdata, framesOf_flatMap hhanded, framesOf_of_badHeader hbad]
    rfl

theorem Follows.pushWs (hfailed : io.failed = false)
    (hhanded : ∀ payload ∈ handed, FrameFits payload)
    (hroom : io.input.length + data.length ≤ authdInBufBytes) :
    Pushed handed (intake.request prims data) (io.pushWs prims data) := by
  have hstage : intake.ws.stage = io.ws.stage := hfollows.ws ▸ rfl
  unfold Intake.request Intake.upgrade ConnIo.pushWs
  rw [hstage]
  split
  · rename_i hopen
    exact hfollows.wsFeed hfailed hopen hhanded hroom
  rename_i hupgrade
  obtain ⟨rfl, hlen⟩ := hfollows.fresh (not_not.mp hupgrade)
  have hheld : intake.held = io.input := hfollows.held
  have hfits : ¬io.inRoom < data.length := by
    unfold inRoom
    omega
  rw [if_neg hfits, hheld]
  dsimp only
  split
  · split_ifs with hshort
    · exact .refused nofun rfl
    · exact .follows rfl hfailed
        { hfollows with
          held := rfl
          short := fun _ => not_lt.mp hshort
          seen := fun hopen => absurd hopen hupgrade }
  split
  · exact .refused nofun rfl
  rcases Ws.upgrade_cases prims ((io.input ++ data).take (endOfHeaders (io.input ++ data))) with
    hrefused | ⟨state, accept, hgranted⟩
  · obtain ⟨last, hlast⟩ := hrefused io.ws
    obtain ⟨lastRead, hlastRead⟩ := hrefused intake.ws
    rw [hlast, hlastRead]
    exact .refused nofun rfl
  · rw [hgranted io.ws, hgranted intake.ws, hfollows.ws]
    dsimp only
    generalize hopened : { io.ws with
      stage := .opened, state := state.getD io.ws.state, reply := switchingProtocols accept
      replySent := 0 } = opened
    have hopen : opened.stage = .opened := by rw [← hopened]
    have hready : opened.Ready := by
      rw [← hopened]
      exact hfollows.ready
    have hbase : Follows { io with ws := opened, input := [] } []
        { intake with ws := opened.hush, held := [] } :=
      { hfollows with
        ws := rfl
        held := rfl
        ready := hready
        fresh := fun _ => ⟨rfl, hlen⟩
        short := fun _ => Nat.zero_le _
        seen := fun _ => .inl ⟨Nat.succ_pos 3, hlen⟩ }
    have hhushed : Ws.hush { io.ws.hush with
        stage := .opened, state := state.getD io.ws.hush.state, reply := switchingProtocols accept
        replySent := 0 } = opened.hush := by
      rw [← hopened]
      rfl
    rw [hhushed]
    split_ifs with hnil
    · rw [hnil, Intake.feed, Ws.scan_nil (by exact hopen) (by exact hready)]
      exact .follows rfl hfailed hbase
    refine hbase.wsFeed hfailed (by dsimp only; rw [hopen]; exact nofun) hhanded ?_
    rw [List.length_drop, List.length_append, List.length_nil, Nat.zero_add]
    omega

theorem Follows.push (hfailed : io.failed = false) (hhanded : ∀ payload ∈ handed, FrameFits payload)
    (hroom : io.input.length + data.length ≤ authdInBufBytes) :
    Pushed handed (intake.push prims data) (io.push prims data) := by
  unfold Intake.push ConnIo.push
  rw [if_neg (Bool.eq_false_iff.mp hfailed), if_pos hfollows.mode, hfollows.proxyOn, hfollows.proxy]
  split
  · have hrest := (ProxyV2.consume_shape io.proxy data).le
    generalize io.proxy.consume data = reading at hrest ⊢
    obtain ⟨status, rest, proxy⟩ := reading
    dsimp only at hrest
    have hnext : Follows { io with proxy := proxy } handed { intake with proxy := proxy } :=
      { hfollows with proxy := rfl }
    have hgoes : Pushed handed
        (if proxy.done then Intake.request prims { intake with proxy := proxy } rest
          else some { intake with proxy := proxy })
        (if proxy.done then ConnIo.pushWs prims { io with proxy := proxy } rest
          else (.ok, { io with proxy := proxy })) := by
      split
      · exact hnext.pushWs hfailed hhanded (by dsimp only; omega)
      · exact .follows rfl hfailed hnext
    rw [hfollows.proxyOn] at hgoes
    cases status with
    | err => exact .refused nofun rfl
    | needMore | ok | noAddr => exact hgoes
  · exact hfollows.pushWs hfailed hhanded hroom

/-- The input in which frames are looked for: none while it is the text of a request. -/
def frameInput (io : ConnIo) : Bytes :=
  if io.mode = .ws ∧ io.ws.stage = .upgrade then [] else io.input

/-- A connection between two steps, as far as frames are concerned. -/
structure Framed (io : ConnIo) : Prop where
  text : io.mode = .ws ∧ io.ws.stage = .upgrade → io.frameLen = 0
  seen : ¬(io.mode = .ws ∧ io.ws.stage = .upgrade) → io.HeaderSeen

theorem Follows.framed : io.Framed :=
  ⟨fun hupgrade => (hfollows.fresh hupgrade.2).2,
    fun hopen => hfollows.seen fun hstage => hopen ⟨hfollows.mode, hstage⟩⟩

end

theorem noteHeader_of_framed (hframed : io.Framed) : io.noteHeader = (.ok, io) := by
  unfold noteHeader
  split
  · rfl
  rename_i hopen
  rw [if_pos]
  rcases hframed.seen hopen with ⟨hshort, -⟩ | ⟨hheader, hvalue, hgood⟩
  · exact .inr hshort
  · exact .inl fun hzero => hgood ⟨hheader, .inl (hvalue ▸ hzero)⟩

theorem nextFrame_of_framed (hframed : io.Framed) (hfailed : io.failed = false) :
    io.nextFrame =
      if io.frameLen = 0 ∨ io.input.length < authdFrameHeader + io.frameLen then (none, io)
      else (some ((io.input.drop authdFrameHeader).take io.frameLen), io) := by
  unfold nextFrame
  rw [hfailed, if_neg Bool.false_ne_true, noteHeader_of_framed hframed]

/-- Without a complete frame the input holds none. -/
theorem framesOf_frameInput (hframed : io.Framed) (hfailed : io.failed = false)
    (hnone : io.complete .proto = false) : framesOf io.frameInput = some [] := by
  unfold frameInput
  split_ifs with hopen
  · rfl
  have hnext : ¬¬(io.frameLen = 0 ∨ io.input.length < authdFrameHeader + io.frameLen) := by
    intro hcomplete
    unfold complete nextUnit at hnone
    rw [nextFrame_of_framed hframed hfailed, if_neg hcomplete] at hnone
    cases hnone
  rcases hframed.seen hopen with ⟨hshort, -⟩ | ⟨hheader, hvalue, hgood⟩
  · exact framesOf_of_unfinished (fun hbad => absurd hbad.1 (not_le.mpr hshort)) (.inl hshort)
  refine framesOf_of_unfinished hgood (.inr ?_)
  rcases not_not.mp hnext with hzero | hshort
  · exact absurd ⟨hheader, .inl (hvalue ▸ hzero)⟩ hgood
  · rwa [← hvalue]

/-- A complete frame stands at the front of the input, behind its length. -/
theorem nextFrame_framed (hframed : io.Framed) (hfailed : io.failed = false)
    (hnext : io.nextFrame = (some payload, next)) :
    next = io ∧ ¬(io.mode = .ws ∧ io.ws.stage = .upgrade) ∧ io.frameLen ≠ 0 ∧
      authdFrameHeader + io.frameLen ≤ io.input.length ∧ FrameFits payload ∧
      io.input = prefixed payload ++ io.input.drop (authdFrameHeader + io.frameLen) := by
  rw [nextFrame_of_framed hframed hfailed] at hnext
  split at hnext
  · cases hnext
  rename_i hcomplete
  obtain ⟨hpayload, hsame⟩ := Prod.mk.inj hnext
  obtain rfl := Option.some.inj hpayload
  have hzero : io.frameLen ≠ 0 := fun hzero => hcomplete (.inl hzero)
  have hwhole : authdFrameHeader + io.frameLen ≤ io.input.length :=
    not_lt.mp fun hshort => hcomplete (.inr hshort)
  have hopen : ¬(io.mode = .ws ∧ io.ws.stage = .upgrade) := fun hupgrade =>
    hzero (hframed.text hupgrade)
  rcases hframed.seen hopen with ⟨-, hnone⟩ | ⟨hheader, hvalue, hgood⟩
  · exact absurd hnone hzero
  have hlength : ((io.input.drop authdFrameHeader).take io.frameLen).length = io.frameLen := by
    rw [List.length_take, List.length_drop]
    omega
  have htake : (io.input.take authdFrameHeader).length = authdFrameHeader := by
    rw [List.length_take]
    omega
  refine ⟨hsame.symm, hopen, hzero, hwhole, ⟨?_, ?_⟩, ?_⟩
  · intro hnil
    rw [hnil] at hlength
    exact hzero hlength.symm
  · rw [hlength]
    exact not_lt.mp fun hlong => hgood ⟨hheader, .inr (hvalue ▸ hlong)⟩
  · have hnumber : beBytes authdFrameHeader io.frameLen = io.input.take authdFrameHeader := by
      have hround := beBytes_beNat (io.input.take authdFrameHeader)
      rwa [htake, ← hvalue] at hround
    rw [prefixed, hlength, hnumber, List.append_assoc, ← List.drop_drop, List.take_append_drop,
      List.take_append_drop]

variable {stream : Bytes}

variable (prims : DaemonPrimitives) (listener : Listener) (handed : List Bytes) (stream : Bytes) in
/-- A connection that has read a stream and handed over some of its frames: on the raw listener
the rest is in the input, on the WebSocket listener the one pass leads to the same state. -/
inductive Tracks : ConnIo → Prop
  | raw {io : ConnIo} (hws : listener.ws = false) (hmode : io.mode = .frame)
      (hstream : stream = handed.flatMap prefixed ++ io.input) (hseen : io.HeaderSeen)
      (haddr : io.proxy.addr = .none) (hstate : io.ws.state = []) : Tracks io
  | ws {io : ConnIo} {intake : Intake} (hws : listener.ws = true)
      (hread : (Intake.start listener.proxy).push prims stream = some intake)
      (hfollows : io.Follows handed intake) : Tracks io

theorem Tracks.framed (htracks : Tracks prims listener handed stream io) : io.Framed := by
  cases htracks with
  | raw hws hmode hstream hseen =>
    refine ⟨fun hupgrade => ?_, fun _ => hseen⟩
    rw [hmode] at hupgrade
    exact absurd hupgrade.1 nofun
  | ws hws hread hfollows => exact hfollows.framed

/-- What the one pass says about the stream, from what was handed over and what is left. -/
theorem Tracks.parseStream (htracks : Tracks prims listener handed stream io)
    (hhanded : ∀ payload ∈ handed, FrameFits payload) :
    parseStream prims listener stream =
      (framesOf io.frameInput).map
        fun frames => ⟨io.clientAddr, io.ws.state, handed ++ frames⟩ := by
  unfold Authd.parseStream frameInput clientAddr
  cases htracks with
  | raw hws hmode hstream hseen haddr hstate =>
    have hopen : ¬(io.mode = .ws ∧ io.ws.stage = .upgrade) := by
      rw [hmode]
      exact fun hupgrade => nomatch hupgrade.1
    rw [hws, if_neg Bool.false_ne_true, if_neg hopen, hstream, framesOf_flatMap hhanded, haddr,
      hstate, Option.map_map]
    rfl
  | @ws intake hws hread hfollows =>
    have hstage : intake.ws.stage = io.ws.stage := hfollows.ws ▸ rfl
    have hstate : intake.ws.state = io.ws.state := hfollows.ws ▸ rfl
    rw [hws, if_pos rfl, hread, Option.bind_some, Intake.data, hstage, hfollows.proxy, hstate]
    by_cases hupgrade : io.ws.stage = .upgrade
    · rw [if_pos hupgrade, if_pos ⟨hfollows.mode, hupgrade⟩, (hfollows.fresh hupgrade).1]
      rfl
    rw [if_neg hupgrade, if_neg fun hboth => hupgrade hboth.2, hfollows.held,
      framesOf_flatMap hhanded, Option.map_map]
    rfl

/-- An error of the one pass stays one, whatever follows. -/
theorem parseStream_append_of_none (hnone : Authd.parseStream prims listener stream = none)
    (more : Bytes) : Authd.parseStream prims listener (stream ++ more) = none := by
  unfold Authd.parseStream at hnone ⊢
  split_ifs with hws
  · rw [if_pos hws] at hnone
    rw [Intake.push_append Intake.ready_start]
    cases hread : (Intake.start listener.proxy).push prims stream with
    | none => rfl
    | some intake =>
      rw [hread, Option.bind_some, Option.map_eq_none_iff] at hnone
      have hready := (Intake.extends_push Intake.ready_start hread).ready
      rw [Option.bind_some]
      cases hmore : intake.push prims more with
      | none => rfl
      | some =>
        obtain ⟨rest, hrest⟩ := (Intake.extends_push hready hmore).data
        rw [Option.bind_some, ← hrest, framesOf_append_of_none hnone]
        rfl
  · rw [if_neg hws, Option.map_eq_none_iff] at hnone
    rw [framesOf_append_of_none hnone]
    rfl

section

variable (htracks : Tracks prims listener handed stream io)

include htracks

/-- A push goes on following the one pass, or has met an error of the one pass. -/
theorem Tracks.push (hfailed : io.failed = false) (hhanded : ∀ payload ∈ handed, FrameFits payload)
    (hdata : data ≠ []) (hroom : io.input.length + data.length ≤ authdInBufBytes) :
    (∃ next, io.push prims data = (.ok, next) ∧ next.failed = false ∧
        Tracks prims listener handed (stream ++ data) next) ∨
      ∃ status next, io.push prims data = (status, next) ∧ status ≠ .ok ∧
        Authd.parseStream prims listener (stream ++ data) = none := by
  cases htracks with
  | @ws intake hws hread hfollows =>
    have hpushed := @Follows.push prims _ _ _ _ hfollows hfailed hhanded hroom
    have hboth : (Intake.start listener.proxy).push prims (stream ++ data) =
        intake.push prims data := by
      rw [Intake.push_append Intake.ready_start, hread, Option.bind_some]
    generalize io.push prims data = pushed at hpushed ⊢
    cases hpushed with
    | follows hgoes hopen hnext =>
      exact .inl ⟨_, rfl, hopen, .ws hws (hboth.trans hgoes) hnext⟩
    | refused hstatus hgoes =>
      refine .inr ⟨_, _, rfl, hstatus, ?_⟩
      rw [Authd.parseStream, if_pos hws, hboth, hgoes]
      rfl
    | illegal hstatus hgoes hbad =>
      refine .inr ⟨_, _, rfl, hstatus, ?_⟩
      rw [Authd.parseStream, if_pos hws, hboth, hgoes, Option.bind_some, hbad]
      rfl
  | raw hws hmode hstream hseen haddr hstate =>
    have hfits : ¬io.inRoom < data.length := by
      unfold inRoom
      omega
    have hpush : io.push prims data = noteHeader { io with input := io.input ++ data } := by
      unfold ConnIo.push
      rw [hfailed, if_neg Bool.false_ne_true, if_neg (by rw [hmode]; exact nofun), if_neg hdata,
        if_neg hfits]
      exact if_neg (by dsimp only; rw [hmode]; exact nofun)
    have hopen : ¬(io.mode = .ws ∧ io.ws.stage = .upgrade) := by
      rw [hmode]
      exact fun hupgrade => nomatch hupgrade.1
    have hgrown : stream ++ data = handed.flatMap prefixed ++ (io.input ++ data) := by
      rw [hstream, List.append_assoc]
    have hnoted : Noted { io with input := io.input ++ data } := hseen.noted.append rfl rfl
    rcases noteHeader_cases hnoted hopen with ⟨frameLen, hnote, hseen⟩ | ⟨hnote, hbad⟩
    · exact .inl ⟨_, hpush.trans hnote, hfailed, .raw hws hmode hgrown hseen haddr hstate⟩
    refine .inr ⟨_, _, hpush.trans hnote, nofun, ?_⟩
    rw [Authd.parseStream, hws, if_neg Bool.false_ne_true, hgrown, framesOf_flatMap hhanded,
      framesOf_of_badHeader hbad]
    rfl

/-- The same bytes in the input, under other replies. -/
theorem Tracks.reply (reply : Bytes) (replySent : ℕ) (out : Bytes) (outSent : ℕ) :
    Tracks prims listener handed stream
      { io with
        ws := { io.ws with reply := reply, replySent := replySent }
        out := out
        outSent := outSent } := by
  cases htracks with
  | raw hws hmode hstream hseen haddr hstate => exact .raw hws hmode hstream hseen haddr hstate
  | ws hws hread hfollows =>
    exact .ws hws hread
      { mode := hfollows.mode
        proxyOn := hfollows.proxyOn
        proxy := hfollows.proxy
        ws := hfollows.ws
        held := hfollows.held
        ready := hfollows.ready
        fresh := hfollows.fresh
        short := hfollows.short
        seen := hfollows.seen }

/-- A frame that is handed over leaves the next one at the front, or an error of the one pass. -/
theorem Tracks.consumeFrame
    (hfailed : io.failed = false) (hhanded : ∀ payload ∈ handed, FrameFits payload)
    (hnext : io.nextFrame = (some payload, next)) :
    FrameFits payload ∧
      (io.consumeFrame.failed = false ∧
          Tracks prims listener (handed ++ [payload]) stream io.consumeFrame ∨
        io.consumeFrame.failed = true ∧ Authd.parseStream prims listener stream = none) := by
  obtain ⟨-, hopen, hzero, hwhole, hfits, hinput⟩ := nextFrame_framed htracks.framed hfailed hnext
  refine ⟨hfits, ?_⟩
  have hconsume : io.consumeFrame = (noteHeader
      { io with input := io.input.drop (authdFrameHeader + io.frameLen), frameLen := 0 }).2 := by
    unfold ConnIo.consumeFrame
    exact if_neg (by rw [not_or]; exact ⟨hzero, not_lt.mpr hwhole⟩)
  have hgrown : (handed ++ [payload]).flatMap prefixed ++
      io.input.drop (authdFrameHeader + io.frameLen) = handed.flatMap prefixed ++ io.input := by
    rw [List.flatMap_append, List.flatMap_singleton, List.append_assoc, ← hinput]
  rw [hconsume]
  generalize hrest : io.input.drop (authdFrameHeader + io.frameLen) = rest at hgrown hinput ⊢
  have hnoted : Noted { io with input := rest, frameLen := 0 } := .inl rfl
  rcases noteHeader_cases hnoted hopen with ⟨frameLen, hnote, hseen⟩ | ⟨hnote, hbad⟩
  · refine .inl ⟨by rw [hnote]; exact hfailed, ?_⟩
    rw [hnote]
    cases htracks with
    | raw hws hmode hstream _ haddr hstate =>
      exact .raw hws hmode (hstream.trans hgrown.symm) hseen haddr hstate
    | ws hws hread hfollows =>
      exact .ws hws hread
        { hfollows with
          held := hfollows.held.trans hgrown.symm
          fresh := fun hupgrade => absurd ⟨hfollows.mode, hupgrade⟩ hopen
          short := fun hupgrade => absurd ⟨hfollows.mode, hupgrade⟩ hopen
          seen := fun _ => hseen }
  · refine .inr ⟨by rw [hnote]; rfl, ?_⟩
    rw [htracks.parseStream hhanded, frameInput, if_neg hopen, hinput, framesOf_prefixed hfits,
      framesOf_of_badHeader hbad]
    rfl

end

end ConnIo

/-! ## The runs of a connection -/

variable {verdict : AddrVerdict}

namespace Link

variable {link : Link}

/-- What a connection has established agrees with the one pass, as far as it has come. -/
def Agrees (prims : DaemonPrimitives) (listener : Listener) (link : Link) : Prop :=
  ∀ parsed, parseStream prims listener link.stream = some parsed →
    link.io.clientAddr = parsed.addr ∧ link.io.ws.state = parsed.state ∧
      link.handed <+: parsed.frames

/-- A protocol connection between two steps. -/
structure Parses (prims : DaemonPrimitives) (listener : Listener) (link : Link) : Prop where
  kind : link.kind = .proto
  fits : ∀ payload ∈ link.handed, FrameFits payload
  tracks : link.state = .active → link.io.failed = false →
    ConnIo.Tracks prims listener link.handed link.stream link.io
  failed : link.state = .active → link.io.failed = true →
    parseStream prims listener link.stream = none
  draining : link.state = .draining → link.Agrees prims listener
  broken : link.state = .broken → parseStream prims listener link.stream = none

theorem agrees_of_tracks (hfits : ∀ payload ∈ link.handed, FrameFits payload)
    (htracks : ConnIo.Tracks prims listener link.handed link.stream link.io) :
    link.Agrees prims listener := by
  intro parsed hparse
  rw [htracks.parseStream hfits] at hparse
  obtain ⟨frames, -, rfl⟩ := Option.map_eq_some_iff.mp hparse
  exact ⟨rfl, rfl, List.prefix_append _ _⟩

theorem agrees_of_none (hnone : parseStream prims listener link.stream = none) :
    link.Agrees prims listener := by
  intro parsed hparse
  rw [hnone] at hparse
  cases hparse

theorem Parses.agrees (hparses : link.Parses prims listener) (hopen : link.state ≠ .broken) :
    link.Agrees prims listener := by
  cases hstate : link.state with
  | broken => exact absurd hstate hopen
  | draining => exact hparses.draining hstate
  | active =>
    cases hfailed : link.io.failed with
    | true => exact agrees_of_none (hparses.failed hstate hfailed)
    | false => exact agrees_of_tracks hparses.fits (hparses.tracks hstate hfailed)

theorem push_start_nil : (Intake.start proxyOn).push prims [] = some (Intake.start proxyOn) := by
  cases proxyOn with
  | true => rfl
  | false => rfl

theorem parses_accepted (hproto : listener.kind = .proto) :
    (accepted listener).Parses prims listener := by
  have hkind : listener.kind ≠ .loc := by rw [hproto]; exact nofun
  have hstart : ∀ proxy ws, (setProxy (reset.setMode
      (if ws then .ws else .frame)) proxy).failed = false ∧
      ConnIo.Tracks prims { listener with ws := ws, proxy := proxy } [] []
        (setProxy (reset.setMode (if ws then .ws else .frame)) proxy) := by
    intro proxy ws
    have hseen : reset.HeaderSeen := .inl ⟨Nat.succ_pos 3, rfl⟩
    cases ws with
    | false => exact ⟨by cases proxy <;> rfl, .raw rfl rfl rfl hseen rfl rfl⟩
    | true =>
      refine ⟨by cases proxy <;> rfl, .ws rfl push_start_nil ?_⟩
      cases proxy with
      | true | false => exact ⟨rfl, rfl, rfl, rfl, rfl, fun _ => rfl, fun _ => ⟨rfl, rfl⟩,
          fun _ => Nat.zero_le _, nofun⟩
  obtain ⟨hfailed, htracks⟩ := hstart listener.proxy listener.ws
  have hio : (accepted listener).io =
      (reset.setMode (if listener.ws then .ws else .frame)).setProxy listener.proxy := by
    unfold accepted
    rw [if_neg hkind]
  rw [← hio] at hfailed htracks
  exact ⟨hproto, nofun, fun _ _ => htracks, fun _ hpoisoned => absurd (hfailed.symm.trans hpoisoned)
    nofun, nofun, nofun⟩

/-- Turning a connection away leaves what was established. -/
theorem settle_io :
    (link.settle verdict).io.clientAddr = link.io.clientAddr ∧
      (link.settle verdict).io.ws.state = link.io.ws.state ∧
      (link.settle verdict).handed = link.handed ∧
      (link.settle verdict).stream = link.stream ∧ (link.settle verdict).kind = link.kind := by
  cases verdict with
  | admitted => exact ⟨rfl, rfl, rfl, rfl, rfl⟩
  | refused | silenced =>
    dsimp only [settle, wsRefuse, wsSilence]
    split
    all_goals exact ⟨rfl, rfl, rfl, rfl, rfl⟩

theorem Parses.settle (hparses : link.Parses prims listener) (hactive : link.state = .active)
    (verdict : AddrVerdict) : (link.settle verdict).Parses prims listener := by
  have hopen : link.state ≠ .broken := by simp [hactive]
  obtain ⟨haddr, hstate, hhanded, hstream, hkind⟩ := settle_io
  have hagrees : (link.settle verdict).Agrees prims listener := by
    intro parsed hparse
    rw [hstream] at hparse
    rw [haddr, hstate, hhanded]
    exact hparses.agrees hopen parsed hparse
  cases verdict with
  | admitted => exact ⟨hparses.kind, hparses.fits, hparses.tracks, hparses.failed,
      hparses.draining, hparses.broken⟩
  | refused | silenced =>
    exact ⟨hparses.kind, hparses.fits, nofun, nofun, fun _ => hagrees, nofun⟩

theorem stream_receive {data : Bytes} : (link.chunks ++ [data]).flatten = link.stream ++ data := by
  unfold stream
  rw [List.flatten_append, List.flatten_singleton]

section

variable (hparses : link.Parses prims listener)

include hparses

theorem Parses.receive {data : Bytes} (hallowed : link.allowed (.receive data verdict)) :
    (link.receive prims data verdict).Parses prims listener := by
  obtain ⟨hactive, -, -, hdata, hlength⟩ := hallowed
  have hroom : link.io.input.length + data.length ≤ authdInBufBytes := by
    have hpos := List.length_pos_iff.mpr hdata
    have hwithin := le_trans hlength (min_le_left _ _)
    unfold inRoom at hwithin
    omega
  have hbreaks : ∀ (status : ConnIoStatus) (io : ConnIo), status ≠ .ok →
      link.io.push prims data = (status, io) →
      parseStream prims listener (link.stream ++ data) = none →
      (link.receive prims data verdict).Parses prims listener := by
    intro status io hstatus hpush hnone
    rw [receive_of_error hpush hstatus]
    refine ⟨hparses.kind, hparses.fits, nofun, nofun, nofun, fun _ => ?_⟩
    rw [← hnone]
    exact congrArg _ stream_receive
  cases hfailed : link.io.failed with
  | true =>
    have hpush : link.io.push prims data = (.errProtocol, link.io) := if_pos hfailed
    exact hbreaks .errProtocol link.io nofun hpush
      (parseStream_append_of_none (hparses.failed hactive hfailed) data)
  | false =>
    rcases (hparses.tracks hactive hfailed).push hfailed hparses.fits hdata hroom with
      ⟨io, hpush, hopen, htracks⟩ | ⟨status, io, hpush, hstatus, hnone⟩
    · rw [← stream_receive] at htracks
      have hread : ({ link with chunks := link.chunks ++ [data], io := io } : Link).Parses prims
          listener :=
        ⟨hparses.kind, hparses.fits, fun _ _ => htracks,
          fun _ hpoisoned => absurd (hopen.symm.trans hpoisoned) nofun,
          fun hdraining => absurd (hactive.symm.trans hdraining) nofun,
          fun hbroken => absurd (hactive.symm.trans hbroken) nofun⟩
      rw [receive_of_ok hpush]
      split
      · exact hread.settle hactive verdict
      · exact hread
    · exact hbreaks _ _ hstatus hpush hnone

theorem Parses.serve {reply : Option Bytes}
    {action : EvAction} (hallowed : link.allowed (.serve reply action)) :
    (link.serve reply action).Parses prims listener := by
  obtain ⟨hactive, hcomplete, -⟩ := hallowed
  have hfailed : link.io.failed = false := by
    cases hfailed : link.io.failed with
    | false => rfl
    | true =>
      unfold complete nextUnit at hcomplete
      rw [hparses.kind, nextFrame, if_pos hfailed] at hcomplete
      cases hcomplete
  have htracks := hparses.tracks hactive hfailed
  obtain ⟨payload, hunit⟩ := Option.isSome_iff_exists.mp hcomplete
  have hnext : link.io.nextFrame = (some payload, link.io) := by
    rw [hparses.kind] at hunit
    have hframe : link.io.nextFrame = (some payload, link.io.nextFrame.2) := Prod.ext hunit rfl
    rw [hframe, (nextFrame_framed htracks.framed hfailed hframe).1]
  obtain ⟨out, outSent, hanswer⟩ := answer_eq link.io reply
  have hqueued : ConnIo.Tracks prims listener link.handed link.stream (link.io.answer reply) := by
    rw [hanswer]
    exact htracks.reply link.io.ws.reply link.io.ws.replySent out outSent
  have hlive : (link.io.answer reply).failed = false := by
    rw [hanswer]
    exact hfailed
  have hsame : (link.io.answer reply).nextFrame = (some payload, link.io.answer reply) := by
    rw [nextFrame_of_framed htracks.framed hfailed] at hnext
    rw [nextFrame_of_framed hqueued.framed hlive, hanswer]
    split at hnext
    · cases hnext
    rename_i hwhole
    rw [if_neg hwhole, (Prod.mk.inj hnext).1]
  obtain ⟨hfits, hafter⟩ := hqueued.consumeFrame hlive hparses.fits hsame
  have hserve : link.serve reply action =
      { link with
        io := (link.io.answer reply).consumeFrame
        handed := link.handed ++ [payload]
        queued := link.queued ++ link.io.answered reply
        state := if action = .close then .draining else link.state } := by
    have hnextUnit : link.io.nextUnit link.kind = (some payload, link.io) := by
      rw [hparses.kind]
      exact hnext
    unfold Link.serve
    rw [hnextUnit, hparses.kind]
    rfl
  have hall : ∀ frame ∈ link.handed ++ [payload], FrameFits frame := by
    intro frame hframe
    rcases List.mem_append.mp hframe with hold | hnew
    · exact hparses.fits frame hold
    · exact List.mem_singleton.mp hnew ▸ hfits
  have hopen : (if action = EvAction.close then LinkState.draining else link.state) ≠ .broken := by
    split
    · exact nofun
    rw [hactive]
    exact nofun
  rw [hserve]
  rcases hafter with ⟨hgoes, htracked⟩ | ⟨hpoisoned, hnone⟩
  · exact ⟨hparses.kind, hall, fun _ _ => htracked,
      fun _ hpoisoned => absurd (hgoes.symm.trans hpoisoned) nofun,
      fun _ => agrees_of_tracks hall htracked, fun hbroken => absurd hbroken hopen⟩
  exact ⟨hparses.kind, hall, fun _ hgoes => absurd (hgoes.symm.trans hpoisoned) nofun,
    fun _ _ => hnone, fun _ => agrees_of_none hnone, fun _ => hnone⟩

theorem Parses.written (count : ℕ) : (link.written count).Parses prims listener := by
  obtain ⟨reply, replySent, out, outSent, hsent⟩ := sent_ws_eq
  have hwritten : link.written count =
      { link with
        io := { link.io with
          ws := { link.io.ws with reply := reply, replySent := replySent }
          out := out
          outSent := outSent }
        wrote := link.wrote ++ link.io.pendingBytes.take count } := by
    unfold Link.written
    rw [hsent]
  rw [hwritten]
  exact ⟨hparses.kind, hparses.fits,
    fun hactive hfailed => (hparses.tracks hactive hfailed).reply reply replySent out outSent,
    hparses.failed, hparses.draining, hparses.broken⟩

theorem Parses.step {event : LinkEvent}
    (hallowed : link.allowed event) : (link.step prims event).Parses prims listener := by
  cases event with
  | receive => exact hparses.receive hallowed
  | serve => exact hparses.serve hallowed
  | written count => exact hparses.written count
  | drain =>
    exact ⟨hparses.kind, hparses.fits, nofun, nofun, fun _ => hparses.agrees hallowed, nofun⟩

end

end Link

/-- However the loop reads a stream without a protocol error and writes its replies, a connection
is not broken off, the client address and the URL state are those of the one pass, and the frames
handed over are its frames in order: all of them once nothing complete is left. -/
theorem stream_read_as_in_one_pass {prims : DaemonPrimitives} {listener : Listener}
    (hproto : listener.kind = .proto) {events : List LinkEvent} {link : Link}
    (hrun : (linkMachine prims).Run (Link.accepted listener) events link) {parsed : Parsed}
    (hparse : parseStream prims listener link.stream = some parsed) :
    link.state ≠ .broken ∧ link.io.clientAddr = parsed.addr ∧ link.io.ws.state = parsed.state ∧
      link.handed <+: parsed.frames ∧
      (link.state = .active → link.io.complete .proto = false → link.handed = parsed.frames) := by
  have hparses : link.Parses prims listener :=
    hrun.invariant (fun _ _ hbefore hallowed => Link.Parses.step hbefore hallowed)
      (Link.parses_accepted hproto)
  have hopen : link.state ≠ .broken := by
    intro hbroken
    rw [hparses.broken hbroken] at hparse
    cases hparse
  obtain ⟨haddr, hstate, hframes⟩ := hparses.agrees hopen parsed hparse
  refine ⟨hopen, haddr, hstate, hframes, fun hactive hserved => ?_⟩
  have hfailed : link.io.failed = false := by
    cases hfailed : link.io.failed with
    | false => rfl
    | true =>
      rw [hparses.failed hactive hfailed] at hparse
      cases hparse
  have htracks := hparses.tracks hactive hfailed
  rw [htracks.parseStream hparses.fits,
    framesOf_frameInput htracks.framed hfailed hserved] at hparse
  rw [← Option.some.inj hparse]
  exact (List.append_nil link.handed).symm

/-- The proxy-facing listener with a preamble. -/
def sampleProxied : Listener := { sampleWs with proxy := true }

/-- The preamble for 10.0.0.1, a request with a state, and a frame of one byte. -/
def sampleStream : Bytes :=
  proxyV2Sig ++ [0x21, 0x11, 0, 12, 10, 0, 0, 1, 127, 0, 0, 1, 0, 1, 0, 2] ++ sampleUpgrade ++
    [0x82, 0x85, 0, 0, 0, 0, 0, 0, 0, 1, 7]

/-- The stream in four reads: one ends within the preamble, one within the request and one within
the WebSocket frame; the answer to the upgrade goes out in two writes in between. -/
def sampleReads : List LinkEvent :=
  [.receive (sampleStream.take 20) .admitted,
    .receive ((sampleStream.drop 20).take 60) .admitted,
    .receive ((sampleStream.drop 80).take 96) .admitted,
    .written 100, .written 21,
    .receive (sampleStream.drop 176) .admitted,
    .serve none .continue_]

set_option maxRecDepth 2000 in
theorem stream_read_as_in_one_pass_sampleReads :
    let link := sampleReads.foldl (Link.step sampleWsPrims) (Link.accepted sampleProxied)
    let parsed : Parsed := ⟨.v4 ⟨[10, 0, 0, 1], rfl⟩, ascii "s", [[7]]⟩
    link.stream = sampleStream ∧ link.state = .active ∧ link.io.complete .proto = false ∧
      link.state ≠ .broken ∧ link.io.clientAddr = parsed.addr ∧ link.io.ws.state = parsed.state ∧
      link.handed <+: parsed.frames ∧
      (link.state = .active → link.io.complete .proto = false → link.handed = parsed.frames) := by
  intro link parsed
  have hfacts : (linkMachine sampleWsPrims).AllAllowed (Link.accepted sampleProxied) sampleReads ∧
      parseStream sampleWsPrims sampleProxied sampleStream = some parsed ∧
      link.stream = sampleStream ∧ link.state = .active ∧ link.io.complete .proto = false := by
    decide +kernel
  obtain ⟨hallowed, hparse, hstream, hactive, hserved⟩ := hfacts
  exact ⟨hstream, hactive, hserved,
    stream_read_as_in_one_pass rfl (.of_allAllowed hallowed) (hstream ▸ hparse)⟩

end MldsaAuth.Authd
