/-
# What is written to a WebSocket

A WebSocket connection has two places for output: control replies and answers to the
upgrade wait in the reply buffer of the WebSocket layer, replies of the daemon in the
output buffer, and the reply buffer goes first. Both are written in pieces of any size.
Because the loop reads only when nothing waits, and because a control reply is dropped
while another one waits, no piece ever lands inside another: the bytes on the wire are
one refusal, or the answer to the upgrade and then whole frames, and every reply that
was queued is among them once.
-/

import MldsaAuth.Authd.Link

namespace MldsaAuth.Authd

open Foundation ConnIo

/-- A server frame with its whole payload. -/
def serverFrame (opcode : UInt8) (payload : Bytes) : Bytes :=
  wsServerHeader payload.length opcode ++ payload

/-- What the server puts on the wire in one piece. -/
inductive Segment where
  | refusal (tooManyRequests : Bool)
  | switching (accept : Bytes)
  | pong (payload : Bytes)
  | close (code : Bytes)
  | message (reply : Bytes)
deriving DecidableEq

variable {segment : Segment} {opcode : UInt8} {payload : Bytes}

namespace Segment

/-- The bytes of a segment: an HTTP answer, or a frame with the payload it declares. A reply is
one binary message that holds its length and itself. -/
def bytes : Segment → Bytes
  | refusal tooManyRequests => (Ws.blank.refuse tooManyRequests).reply
  | switching accept => switchingProtocols accept
  | pong payload => serverFrame wsOpPong payload
  | close code => serverFrame wsOpClose code
  | message reply => serverFrame wsOpBinary (beBytes authdFrameHeader reply.length ++ reply)

/-- A frame, rather than an answer to the upgrade request. -/
def IsFrame : Segment → Prop
  | pong _ | close _ | message _ => True
  | refusal _ | switching _ => False

/-- A frame of the WebSocket layer itself. -/
def IsControl : Segment → Prop
  | pong _ | close _ => True
  | _ => False

/-- The reply a segment carries. -/
def reply? : Segment → Option Bytes
  | message reply => some reply
  | _ => none

theorem isFrame_of_isControl (hcontrol : segment.IsControl) : segment.IsFrame := by
  cases segment with
  | refusal | switching => exact hcontrol
  | pong | close | message => trivial

theorem reply?_of_isControl (hcontrol : segment.IsControl) : segment.reply? = none := by
  cases segment with
  | refusal | switching | pong | close => rfl
  | message => cases hcontrol

theorem serverFrame_ne_nil : serverFrame opcode payload ≠ [] := by
  unfold serverFrame wsServerHeader
  dsimp only
  split_ifs
  · exact nofun
  · exact nofun
  · exact nofun

theorem bytes_ne_nil_of_isControl (hcontrol : segment.IsControl) : segment.bytes ≠ [] := by
  cases segment with
  | refusal | switching | message => cases hcontrol
  | pong | close => exact serverFrame_ne_nil

end Segment

/-- The bytes of segments one after another. -/
def wire (segments : List Segment) : Bytes := segments.flatMap Segment.bytes

/-- What a server may say on one connection: nothing, one refusal and nothing else, or the answer
to the upgrade and then frames. -/
inductive Dialogue : List Segment → Prop
  | silent : Dialogue []
  | refused (tooManyRequests : Bool) : Dialogue [.refusal tooManyRequests]
  | opened (accept : Bytes) {frames : List Segment} (hframes : ∀ frame ∈ frames, frame.IsFrame) :
      Dialogue (.switching accept :: frames)

/-! ## The reply buffer -/

variable {first second third before after : Ws}

namespace Ws

variable {Sink : Type} {ws next : Ws}

/-- Stage, state and reply buffer are as they were. -/
structure Calm (before after : Ws) : Prop where
  stage : after.stage = before.stage
  state : after.state = before.state
  reply : after.reply = before.reply
  replySent : after.replySent = before.replySent

/-- The reply buffer is as it was, or it was empty and now holds one control frame. -/
def Replied (before after : Ws) : Prop :=
  (after.reply = before.reply ∧ after.replySent = before.replySent) ∨
    (before.reply.length = before.replySent ∧ after.replySent = 0 ∧
      ∃ segment : Segment, segment.IsControl ∧ after.reply = segment.bytes)

/-- What frames of the peer leave of the state after the upgrade. -/
structure Continues (before after : Ws) : Prop where
  stage : before.stage ≠ .upgrade → after.stage ≠ .upgrade
  state : after.state = before.state
  replied : Replied before after

theorem Calm.rfl : Calm ws ws := ⟨Eq.refl _, Eq.refl _, Eq.refl _, Eq.refl _⟩

theorem Calm.trans (hfirst : Calm first second) (hsecond : Calm second third) : Calm first third :=
  ⟨hsecond.stage.trans hfirst.stage, hsecond.state.trans hfirst.state,
    hsecond.reply.trans hfirst.reply, hsecond.replySent.trans hfirst.replySent⟩

theorem Calm.continues (hcalm : Calm before after) : Continues before after :=
  ⟨fun hstage => hcalm.stage ▸ hstage, hcalm.state, .inl ⟨hcalm.reply, hcalm.replySent⟩⟩

/-- While one control frame waits there is no second one. -/
theorem Replied.trans (hfirst : Replied first second) (hsecond : Replied second third) :
    Replied first third := by
  rcases hsecond with ⟨hreply, hsent⟩ | ⟨hempty, hsent, hcontrol⟩
  · rcases hfirst with ⟨hreply', hsent'⟩ | ⟨hempty', hsent', segment, hcontrol, hreply'⟩
    · exact .inl ⟨hreply.trans hreply', hsent.trans hsent'⟩
    · exact .inr ⟨hempty', hsent.trans hsent', segment, hcontrol, hreply.trans hreply'⟩
  rcases hfirst with ⟨hreply', hsent'⟩ | ⟨-, hsent', segment, hfirst, hreply'⟩
  · exact .inr ⟨by rw [← hreply', ← hsent']; exact hempty, hsent, hcontrol⟩
  rw [hsent', hreply'] at hempty
  exact absurd (List.length_eq_zero_iff.mp hempty) (Segment.bytes_ne_nil_of_isControl hfirst)

theorem Continues.trans (hfirst : Continues first second) (hsecond : Continues second third) :
    Continues first third :=
  ⟨fun hstage => hsecond.stage (hfirst.stage hstage), hsecond.state.trans hfirst.state,
    hfirst.replied.trans hsecond.replied⟩

theorem continues_queueCtrl (hcontrol : ∃ segment : Segment, segment.IsControl ∧ serverFrame
      opcode (payload.take wsCtrlMax) = segment.bytes) :
    Continues ws (ws.queueCtrl opcode payload) := by
  unfold queueCtrl
  split_ifs with hempty
  · exact Calm.rfl.continues
  exact ⟨id, rfl, .inr ⟨not_not.mp hempty, rfl, hcontrol⟩⟩

theorem continues_frameDone : Continues ws ws.frameDone.2 := by
  unfold frameDone
  split
  · have hqueued : Continues ws (ws.queueCtrl wsOpClose
        (if 2 ≤ ws.ctrl.length then ws.ctrl.take 2 else [])) :=
      continues_queueCtrl ⟨.close _, trivial, rfl⟩
    exact ⟨fun _ => nofun, hqueued.state, hqueued.replied⟩
  · dsimp only
    split
    · have hqueued : Continues ws (ws.queueCtrl wsOpPong ws.ctrl) :=
        continues_queueCtrl ⟨.pong _, trivial, rfl⟩
      exact ⟨hqueued.stage, hqueued.state, hqueued.replied⟩
    · exact ⟨id, rfl, .inl ⟨rfl, rfl⟩⟩

theorem calm_noteHeaderStart (hnoted : ws.noteHeaderStart = some next) : Calm ws next := by
  unfold noteHeaderStart at hnoted
  dsimp only at hnoted
  split_ifs at hnoted
  all_goals exact Option.some.inj hnoted ▸ ⟨rfl, rfl, rfl, rfl⟩

theorem calm_takeHeader {bytes rest : Bytes} (htaken : ws.takeHeader bytes = some (next, rest)) :
    Calm ws next := by
  induction bytes generalizing ws with
  | nil =>
    obtain ⟨rfl, -⟩ := Prod.mk.inj (Option.some.inj htaken)
    exact .rfl
  | cons byte bytes ih =>
    unfold takeHeader at htaken
    split at htaken
    · split at htaken
      · cases htaken
      · dsimp only at htaken
        split at htaken
        · split at htaken
          · cases htaken
          · rename_i noted hnoted
            obtain ⟨hstage, hstate, hreply, hsent⟩ :=
              (calm_noteHeaderStart hnoted).trans (ih htaken)
            exact ⟨hstage, hstate, hreply, hsent⟩
        · obtain ⟨hstage, hstate, hreply, hsent⟩ := ih htaken
          exact ⟨hstage, hstate, hreply, hsent⟩
    · obtain ⟨rfl, -⟩ := Prod.mk.inj (Option.some.inj htaken)
      exact .rfl

theorem calm_headerComplete (hcomplete : ws.headerComplete = some next) : Calm ws next := by
  unfold headerComplete at hcomplete
  split at hcomplete
  · cases hcomplete
  dsimp only at hcomplete
  split at hcomplete
  · cases hcomplete
  · exact Option.some.inj hcomplete ▸ ⟨rfl, rfl, rfl, rfl⟩

variable (sink : Sink → Bytes → Option Sink)

theorem calm_takePayload (ws : Ws) (target : Sink)
    (bytes : Bytes) : Calm ws (ws.takePayload sink target bytes).2.1 := by
  unfold takePayload
  dsimp only
  split_ifs
  all_goals exact ⟨rfl, rfl, rfl, rfl⟩

/-- Whatever frames a peer sends, at most one control frame comes to the reply buffer. -/
theorem continues_consumeLoop (fuel : ℕ) (ws : Ws) (target : Sink) (bytes : Bytes) :
    Continues ws (ws.consumeLoop sink fuel target bytes).2.1 := by
  induction fuel generalizing ws target bytes with
  | zero => exact Calm.rfl.continues
  | succ fuel ih =>
    unfold consumeLoop turn
    split
    · exact Calm.rfl.continues
    split
    · split
      · exact Calm.rfl.continues
      · rename_i taken rest htaken
        have hheader := calm_takeHeader htaken
        split
        · exact hheader.continues
        split
        · exact hheader.continues
        rename_i noted hnoted
        have hstarted := (hheader.trans (calm_headerComplete hnoted)).continues
        split
        · have hdone := hstarted.trans continues_frameDone
          split
          · rename_i hframe
            rw [hframe] at hdone
            exact hdone
          rename_i hframe
          rw [hframe] at hdone
          exact hdone.trans (ih _ _ _)
        · exact hstarted.trans (ih _ _ _)
    · have hpayload := (calm_takePayload sink ws target bytes).continues
      split
      · rename_i htaken
        rw [htaken] at hpayload
        exact hpayload
      rename_i htaken
      rw [htaken] at hpayload
      split
      · exact hpayload
      have hdone := hpayload.trans continues_frameDone
      split
      · rename_i hframe
        rw [hframe] at hdone
        exact hdone
      rename_i hframe
      rw [hframe] at hdone
      exact hdone.trans (ih _ _ _)

theorem continues_consume (ws : Ws) (target : Sink)
    (bytes : Bytes) : Continues ws (ws.consume sink target bytes).2.1 := by
  unfold consume
  split
  · exact Calm.rfl.continues
  · exact Calm.rfl.continues
  · exact continues_consumeLoop sink bytes.length ws target bytes

/-- A request is refused whatever the layer's state, or granted with the same answer. -/
theorem upgrade_cases (prims : DaemonPrimitives) (request : Bytes) :
    (∀ ws : Ws, ∃ last, ws.upgrade prims request = (.errProtocol, last)) ∨
      ∃ (state : Option Bytes) (accept : Bytes), ∀ ws : Ws,
        ws.upgrade prims request =
          (.ok,
            { ws with
              state := state.getD ws.state
              reply := switchingProtocols accept
              replySent := 0
              stage := .opened }) := by
  by_cases hsize : request = [] ∨ wsUpgradeMax < request.length
  · exact .inl fun ws => ⟨ws, if_pos hsize⟩
  cases hline : splitLine request with
  | none => exact .inl fun ws => ⟨ws, by simp only [upgrade, if_neg hsize, hline]⟩
  | some split =>
  obtain ⟨line, rest⟩ := split
  cases htarget : requestTarget line with
  | none => exact .inl fun ws => ⟨ws, by simp only [upgrade, if_neg hsize, hline, htarget]⟩
  | some target =>
  cases hstate : takeState target with
  | none => exact .inl fun ws => ⟨ws, by simp only [upgrade, if_neg hsize, hline, htarget, hstate]⟩
  | some state =>
  by_cases hgranted : ∃ key accept,
      upgradeHeaders rest.length ⟨false, false, false, none⟩ rest =
          some ⟨true, true, true, some key⟩ ∧
        wsAcceptKey prims key = some accept ∧ (switchingProtocols accept).length < wsReplyMax
  · obtain ⟨key, accept, hheaders, hkey, hreply⟩ := hgranted
    refine .inr ⟨if stateParam target = none then none else some state, accept, fun ws => ?_⟩
    simp only [upgrade, if_neg hsize, hline, htarget, hstate, hheaders, hkey, if_pos hreply]
    split
    · rfl
    · rfl
  · refine .inl fun ws => ?_
    simp only [upgrade, if_neg hsize, hline, htarget, hstate]
    split
    · rename_i key hheaders
      split
      · exact ⟨_, rfl⟩
      rename_i accept hkey
      exact ⟨_, if_neg fun hreply => hgranted ⟨key, accept, hheaders, hkey, hreply⟩⟩
    · exact ⟨_, rfl⟩

/-- A request that is granted is answered by the upgrade. -/
theorem upgrade_eq_ok {prims : DaemonPrimitives} {request : Bytes}
    (hupgrade : ws.upgrade prims request = (.ok, next)) :
    next.stage = .opened ∧ next.replySent = 0 ∧
      ∃ accept, next.reply = switchingProtocols accept := by
  rcases upgrade_cases prims request with hrefused | ⟨state, accept, hgranted⟩
  · obtain ⟨last, hlast⟩ := hrefused ws
    cases hlast.symm.trans hupgrade
  · obtain rfl := (Prod.mk.inj ((hgranted ws).symm.trans hupgrade)).2
    exact ⟨rfl, rfl, accept, rfl⟩

end Ws

/-! ## Input on a WebSocket -/

variable {count : ℕ} {prims : DaemonPrimitives}

namespace ConnIo

variable {io next : ConnIo} {data : Bytes}

/-- Reading a header notes at most a length. -/
theorem noteHeader_eq_ok (hnote : io.noteHeader = (.ok, next)) :
    ∃ frameLen, next = { io with frameLen := frameLen } := by
  unfold noteHeader at hnote
  split at hnote
  · exact ⟨io.frameLen, (Prod.mk.inj hnote).2.symm⟩
  split at hnote
  · exact ⟨io.frameLen, (Prod.mk.inj hnote).2.symm⟩
  dsimp only at hnote
  split at hnote
  · cases hnote
  · exact ⟨_, (Prod.mk.inj hnote).2.symm⟩

/-- The state of the WebSocket layer that a push which succeeds leaves. -/
inductive WsPushed (before : Ws) : Ws → Prop
  | staged (hstage : before.stage = .upgrade) : WsPushed before before
  | upgraded {after : Ws} (hbefore : before.stage = .upgrade) (hstage : after.stage ≠ .upgrade)
      (hsent : after.replySent = 0) {accept : Bytes}
      (hreply : after.reply = switchingProtocols accept) : WsPushed before after
  | fed {after : Ws} (hbefore : before.stage ≠ .upgrade) (hcontinues : Ws.Continues before after) :
      WsPushed before after

theorem wsFeed_eq_ok (hfeed : io.wsFeed data = (.ok, next)) :
    ∃ ws input frameLen, next = { io with ws := ws, input := input, frameLen := frameLen } ∧
      Ws.Continues io.ws ws := by
  have hcontinues := Ws.continues_consume wsSinkIn io.ws io.input data
  unfold wsFeed at hfeed
  split at hfeed
  · cases hfeed
  rename_i status ws input _ hconsume
  rw [hconsume] at hcontinues
  obtain ⟨frameLen, rfl⟩ := noteHeader_eq_ok hfeed
  exact ⟨ws, input, frameLen, rfl, hcontinues⟩

/-- An upgrade that has been answered keeps its answer while more input comes. -/
theorem wsPushed_upgraded {opened : Ws} (hbefore : before.stage = .upgrade)
    (hstage : opened.stage = .opened) (hsent : opened.replySent = 0) {accept : Bytes}
    (hreply : opened.reply = switchingProtocols accept) (hcontinues : Ws.Continues opened after) :
    WsPushed before after := by
  have hopen : opened.stage ≠ .upgrade := by rw [hstage]; exact nofun
  rcases hcontinues.replied with ⟨hsame, hsentSame⟩ | ⟨hempty, -⟩
  · exact .upgraded hbefore (hcontinues.stage hopen) (hsentSame.trans hsent) (hsame.trans hreply)
  rw [hsent, hreply, List.length_eq_zero_iff] at hempty
  unfold switchingProtocols at hempty
  have hnil := (List.append_eq_nil_iff.mp hempty).2
  cases hnil

theorem pushWs_eq_ok (hpush : io.pushWs prims data = (.ok, next)) :
    ∃ ws input frameLen, next = { io with ws := ws, input := input, frameLen := frameLen } ∧
      WsPushed io.ws ws ∧ (ws.stage = .upgrade → frameLen = io.frameLen) := by
  unfold pushWs at hpush
  split at hpush
  · rename_i hstage
    obtain ⟨ws, input, frameLen, rfl, hcontinues⟩ := wsFeed_eq_ok hpush
    exact ⟨ws, input, frameLen, rfl, .fed hstage hcontinues,
      fun hupgrade => absurd hupgrade (hcontinues.stage hstage)⟩
  rename_i hstage
  have hupgrade : io.ws.stage = .upgrade := not_not.mp hstage
  split at hpush
  · cases hpush
  dsimp only at hpush
  split at hpush
  · split at hpush
    · cases hpush
    · obtain rfl := (Prod.mk.inj hpush).2
      exact ⟨io.ws, io.input ++ data, io.frameLen, rfl, .staged hupgrade, fun _ => rfl⟩
  split at hpush
  · cases hpush
  split at hpush
  · rename_i opened hopened
    obtain ⟨hopenStage, hsent, accept, hreply⟩ := Ws.upgrade_eq_ok hopened
    split at hpush
    · obtain rfl := (Prod.mk.inj hpush).2
      exact ⟨opened, [], io.frameLen, rfl,
        wsPushed_upgraded hupgrade hopenStage hsent hreply Ws.Calm.rfl.continues, fun _ => rfl⟩
    obtain ⟨ws, input, frameLen, rfl, hcontinues⟩ := wsFeed_eq_ok hpush
    refine ⟨ws, input, frameLen, rfl,
      wsPushed_upgraded hupgrade hopenStage hsent hreply hcontinues, fun hstill => ?_⟩
    exact absurd hstill (hcontinues.stage (by rw [hopenStage]; exact nofun))
  · cases hpush

section

variable (hmode : io.mode = .ws)

include hmode

/-- What a push that succeeds does to a WebSocket connection: the preamble is not over and
nothing else has happened, or it is and the rest went to the WebSocket layer. -/
theorem push_ws_eq_ok (hpush : io.push prims data = (.ok, next)) :
    ∃ proxy ws input frameLen,
      next = { io with proxy := proxy, ws := ws, input := input, frameLen := frameLen } ∧
        (ws.stage = .upgrade → frameLen = io.frameLen) ∧
        (ws = io.ws ∧ io.proxyOn = true ∧ proxy.done = false ∨
          WsPushed io.ws ws ∧ (io.proxyOn = true → proxy.done = true)) := by
  unfold push at hpush
  rw [if_pos hmode] at hpush
  split at hpush
  · cases hpush
  split at hpush
  · rename_i hproxy
    split at hpush
    · cases hpush
    rename_i status rest proxy _ _
    split at hpush
    · rename_i hdone
      obtain ⟨ws, input, frameLen, rfl, hpushed, hlen⟩ := pushWs_eq_ok hpush
      exact ⟨proxy, ws, input, frameLen, rfl, hlen, .inr ⟨hpushed, fun _ => hdone⟩⟩
    rename_i hdone
    obtain rfl := (Prod.mk.inj hpush).2
    exact ⟨proxy, io.ws, io.input, io.frameLen, rfl, fun _ => rfl,
      .inl ⟨rfl, hproxy.1, by simpa using hdone⟩⟩
  · rename_i hproxy
    obtain ⟨ws, input, frameLen, rfl, hpushed, hlen⟩ := pushWs_eq_ok hpush
    refine ⟨io.proxy, ws, input, frameLen, rfl, hlen, .inr ⟨hpushed, fun hon => ?_⟩⟩
    cases hdone : io.proxy.done with
    | true => rfl
    | false => exact absurd ⟨hon, hdone⟩ hproxy

/-! ## Output of a WebSocket -/

/-- What waits to be written: the reply buffer, then the output buffer. -/
def unsent (io : ConnIo) : Bytes :=
  io.ws.reply.drop io.ws.replySent ++ io.out.drop io.outSent

/-- No more was written than there is. -/
structure SentWithin (io : ConnIo) : Prop where
  reply : io.ws.replySent ≤ io.ws.reply.length
  out : io.outSent ≤ io.out.length

/-- Without anything pending both buffers have gone out. -/
theorem drop_eq_nil_of_pending (hpending : io.pending = 0) :
    io.ws.reply.length ≤ io.ws.replySent ∧ io.out.length ≤ io.outSent := by
  unfold pending wsReplyPending at hpending
  simp only [hmode, decide_true, Bool.true_and, decide_eq_true_eq] at hpending
  split at hpending
  · omega
  · omega

theorem unsent_eq_nil (hpending : io.pending = 0) : io.unsent = [] := by
  obtain ⟨hreply, hout⟩ := drop_eq_nil_of_pending hmode hpending
  unfold unsent
  rw [List.drop_eq_nil_of_le hreply, List.drop_eq_nil_of_le hout]
  rfl

/-- A write of some bytes takes them off the front of what waits. -/
theorem unsent_sent (hwithin : io.SentWithin) (hcount : count ≤ io.pending) :
    io.pendingBytes.take count ++ (io.sent count).unsent = io.unsent ∧
      (io.sent count).SentWithin := by
  obtain ⟨hreply, hout⟩ := hwithin
  unfold pending at hcount
  unfold pendingBytes sent
  cases hwaits : io.wsReplyPending with
  | true =>
    rw [hwaits, if_pos rfl] at hcount
    simp only [if_true]
    rw [min_eq_left hcount]
    split_ifs with hall
    · have hexact : count = io.ws.reply.length - io.ws.replySent := by omega
      refine ⟨?_, Nat.le_refl 0, hout⟩
      unfold unsent
      rw [List.take_of_length_le (by rw [List.length_drop]; omega)]
      rfl
    · refine ⟨?_, by dsimp only; omega, hout⟩
      unfold unsent
      dsimp only
      rw [← List.append_assoc, ← List.drop_drop, List.take_append_drop]
  | false =>
    have hnone : io.ws.reply.drop io.ws.replySent = [] := by
      unfold wsReplyPending at hwaits
      rw [decide_eq_true hmode, Bool.true_and, decide_eq_false_iff_not] at hwaits
      exact List.drop_eq_nil_of_le (by omega)
    rw [hwaits] at hcount
    simp only [Bool.false_eq_true, if_false] at hcount ⊢
    have hpending : io.pending = io.out.length - io.outSent := by
      unfold pending
      rw [hwaits]
      rfl
    rw [hpending, min_eq_left hcount]
    split_ifs with hall
    · refine ⟨?_, hreply, Nat.le_refl 0⟩
      unfold unsent
      dsimp only
      rw [hnone, List.take_of_length_le (by rw [List.length_drop]; omega)]
      simp
    · refine ⟨?_, hreply, by dsimp only; omega⟩
      unfold unsent
      dsimp only
      rw [hnone, List.nil_append, List.nil_append, ← List.drop_drop, List.take_append_drop]

end

/-- A frame that is complete was announced, so the upgrade is over. -/
theorem nextFrame_eq_some (hnext : io.nextFrame = (some payload, next)) :
    (∃ frameLen, next = { io with frameLen := frameLen }) ∧
      (io.mode = .ws → io.ws.stage = .upgrade → io.frameLen ≠ 0) := by
  unfold nextFrame at hnext
  split at hnext
  · cases hnext
  split at hnext
  · rename_i noted hnoted
    split at hnext
    · cases hnext
    rename_i hcomplete
    obtain ⟨frameLen, hframe⟩ := noteHeader_eq_ok hnoted
    obtain rfl := (Prod.mk.inj hnext).2
    refine ⟨⟨frameLen, hframe⟩, fun hmode hstage hzero => hcomplete (.inl ?_)⟩
    unfold noteHeader at hnoted
    rw [if_pos ⟨hmode, hstage⟩] at hnoted
    rw [← (Prod.mk.inj hnoted).2]
    exact hzero
  · cases hnext

/-- Consuming a frame changes the input only. -/
theorem consumeFrame_eq :
    ∃ input frameLen failed,
      io.consumeFrame = { io with input := input, frameLen := frameLen, failed := failed } := by
  unfold consumeFrame
  split
  · exact ⟨io.input, io.frameLen, io.failed, rfl⟩
  unfold noteHeader
  split
  · exact ⟨_, _, io.failed, rfl⟩
  split
  · exact ⟨_, _, io.failed, rfl⟩
  dsimp only
  split
  · exact ⟨_, _, true, rfl⟩
  · exact ⟨_, _, io.failed, rfl⟩

/-- Writing changes the output only. -/
theorem sent_ws_eq :
    ∃ reply replySent out outSent,
      io.sent count =
        { io with
          ws := { io.ws with reply := reply, replySent := replySent }
          out := out
          outSent := outSent } := by
  unfold sent
  split
  · dsimp only
    split
    · exact ⟨[], 0, io.out, io.outSent, rfl⟩
    · exact ⟨io.ws.reply, _, io.out, io.outSent, rfl⟩
  · dsimp only
    split
    · exact ⟨io.ws.reply, io.ws.replySent, [], 0, rfl⟩
    · exact ⟨io.ws.reply, io.ws.replySent, io.out, _, rfl⟩

/-- On a WebSocket a reply is queued as one binary message. -/
theorem framed_eq_message (hmode : io.mode = .ws) (payload : Bytes) :
    io.framed payload = (Segment.message payload).bytes := by
  unfold framed Segment.bytes serverFrame
  rw [hmode]
  dsimp only
  rw [List.length_append, length_beBytes]
  rfl

end ConnIo

/-! ## What goes through a link -/

variable {chunks : List Bytes}

namespace Link

variable {link : Link} {segments : List Segment}

/-- A WebSocket connection between two steps has said segments: what was written and what waits
are their bytes, and the replies among them are those that were queued. -/
structure Speaks (link : Link) (segments : List Segment) : Prop where
  kind : link.kind = .proto
  mode : link.state ≠ .broken → link.io.mode = .ws
  dialogue : Dialogue segments
  replies : segments.filterMap Segment.reply? = link.queued
  within : link.state ≠ .broken → link.io.SentWithin
  waits : link.state ≠ .broken → link.wrote ++ link.io.unsent = wire segments
  broken : link.state = .broken → link.wrote = wire segments
  upgrade : link.state ≠ .broken → link.io.ws.stage = .upgrade →
    segments = [] ∧ link.io.frameLen = 0
  opened : link.state = .active → link.io.ws.stage ≠ .upgrade →
    ∃ accept frames, segments = .switching accept :: frames ∧ ∀ frame ∈ frames, frame.IsFrame
  unsettled : link.state = .active → link.io.proxyOn = true → link.addrSettled = false →
    link.io.proxy.done = false ∧ link.io.ws.stage = .upgrade

theorem wire_append {first second : List Segment} :
    wire (first ++ second) = wire first ++ wire second := List.flatMap_append

/-- Frames are followed by frames. -/
theorem isFrame_concat {frames : List Segment} (hframes : ∀ frame ∈ frames, frame.IsFrame)
    (hsegment : segment.IsFrame) : ∀ frame ∈ frames ++ [segment], frame.IsFrame := by
  intro frame hframe
  rcases List.mem_append.mp hframe with hold | hnew
  · exact hframes frame hold
  · exact List.mem_singleton.mp hnew ▸ hsegment

/-- A connection that is not broken off has answered the upgrade and then said frames. -/
theorem speaks_opened (accept : Bytes) {frames : List Segment} (hkind : link.kind = .proto)
    (hmode : link.io.mode = .ws) (hopen : link.state ≠ .broken)
    (hstage : link.io.ws.stage ≠ .upgrade) (hframes : ∀ frame ∈ frames, frame.IsFrame)
    (hreplies : frames.filterMap Segment.reply? = link.queued) (hwithin : link.io.SentWithin)
    (hwaits : link.wrote ++ link.io.unsent = wire (.switching accept :: frames))
    (hunsettled : link.state = .active → link.io.proxyOn = true → link.addrSettled = false →
      link.io.proxy.done = false ∧ link.io.ws.stage = .upgrade) :
    link.Speaks (.switching accept :: frames) where
  kind := hkind
  mode := fun _ => hmode
  dialogue := .opened accept hframes
  replies := hreplies
  within := fun _ => hwithin
  waits := fun _ => hwaits
  broken := fun hbroken => absurd hbroken hopen
  upgrade := fun _ hupgrade => absurd hupgrade hstage
  opened := fun _ _ => ⟨accept, frames, rfl, hframes⟩
  unsettled := hunsettled

/-- Input that the WebSocket layer takes leads to the answer to the upgrade, to one control frame,
or to nothing new to say. -/
theorem Speaks.pushed (hspeaks : link.Speaks segments) (hactive : link.state = .active)
    (hpending : link.io.pending = 0) {proxy : ProxyV2} {ws : Ws} {input : Bytes} {frameLen : ℕ}
    {settled : Bool} (hpushed : ConnIo.WsPushed link.io.ws ws)
    (hlen : ws.stage = .upgrade → frameLen = link.io.frameLen)
    (hunsettled : link.io.proxyOn = true → settled = false → proxy.done = false ∧
      ws.stage = .upgrade) :
    ∃ said, ({ link with
          chunks := chunks
          addrSettled := settled
          io := { link.io with
            proxy := proxy, ws := ws, input := input, frameLen := frameLen } } : Link).Speaks
        said := by
  have hopen : link.state ≠ .broken := by simp [hactive]
  have hwithin := hspeaks.within hopen
  have hwaits := hspeaks.waits hopen
  rw [unsent_eq_nil (hspeaks.mode hopen) hpending, List.append_nil] at hwaits
  obtain ⟨hreplySent, houtSent⟩ := drop_eq_nil_of_pending (hspeaks.mode hopen) hpending
  have hdrop : link.io.out.drop link.io.outSent = [] := List.drop_eq_nil_of_le houtSent
  cases hpushed with
  | staged hstage =>
    obtain ⟨hsegments, hframeLen⟩ := hspeaks.upgrade hopen hstage
    exact ⟨segments,
      { hspeaks with
        within := fun _ => ⟨hwithin.reply, hwithin.out⟩
        broken := fun hbroken => absurd hbroken hopen
        upgrade := fun _ _ => ⟨hsegments, (hlen hstage).trans hframeLen⟩
        opened := fun _ hopened => absurd hstage hopened
        unsettled := fun _ => hunsettled }⟩
  | @upgraded _ hbefore hstage hsent accept hreply =>
    obtain ⟨rfl, -⟩ := hspeaks.upgrade hopen hbefore
    refine ⟨[.switching accept], speaks_opened accept hspeaks.kind (hspeaks.mode hopen) hopen
      hstage nofun hspeaks.replies ⟨?_, hwithin.out⟩ ?_ fun _ => hunsettled⟩
    · dsimp only
      rw [hsent]
      exact Nat.zero_le _
    · unfold unsent
      dsimp only
      rw [hwaits, hsent, hdrop, hreply]
      rfl
  | fed hbefore hcontinues =>
    obtain ⟨accept, frames, rfl, hframes⟩ := hspeaks.opened hactive hbefore
    have hreplies : frames.filterMap Segment.reply? = link.queued := hspeaks.replies
    have hstage := hcontinues.stage hbefore
    rcases hcontinues.replied with ⟨hreply, hsent⟩ | ⟨-, hsent, segment, hcontrol, hreply⟩
    · refine ⟨_, speaks_opened accept hspeaks.kind (hspeaks.mode hopen) hopen hstage hframes
        hreplies ⟨by rw [hreply, hsent]; exact hwithin.reply, hwithin.out⟩ ?_ fun _ => hunsettled⟩
      unfold unsent
      dsimp only
      rw [hreply, hsent]
      exact hspeaks.waits hopen
    · refine ⟨_, speaks_opened accept hspeaks.kind (hspeaks.mode hopen) hopen hstage
        (isFrame_concat hframes (Segment.isFrame_of_isControl hcontrol)) ?_ ⟨?_, hwithin.out⟩ ?_
        fun _ => hunsettled⟩
      · rw [List.filterMap_append, hreplies, List.filterMap_cons,
          Segment.reply?_of_isControl hcontrol]
        exact List.append_nil _
      · dsimp only
        rw [hsent]
        exact Nat.zero_le _
      · unfold unsent
        dsimp only
        rw [hwaits, hsent, hdrop, hreply, ← List.cons_append, wire_append, List.append_nil]
        exact congrArg _ (List.append_nil _).symm

/-- A connection that has said nothing may be refused, or closed without a word. -/
theorem Speaks.turnedAway (hspeaks : link.Speaks []) (hopen : link.state ≠ .broken) {io : ConnIo}
    (hmode : io.mode = .ws) (verdict : AddrVerdict) (hverdict : verdict ≠ .admitted) :
    ∃ said, (settle { link with chunks := chunks, io := io } verdict).Speaks said := by
  have hwrote : link.wrote = [] := (List.append_eq_nil_iff.mp (hspeaks.waits hopen)).1
  have hqueued : link.queued = [] := hspeaks.replies.symm
  cases verdict with
  | admitted => exact absurd rfl hverdict
  | refused tooManyRequests =>
    have hio : io.wsRefuse tooManyRequests =
        { io with out := [], outSent := 0, ws := io.ws.refuse tooManyRequests } := if_pos hmode
    refine ⟨[.refusal tooManyRequests], hspeaks.kind, fun _ => ?_, .refused tooManyRequests,
      hqueued.symm, fun _ => ?_, fun _ => ?_, nofun, ?_, nofun, nofun⟩
    · show (io.wsRefuse tooManyRequests).mode = .ws
      rw [hio]
      exact hmode
    · show (io.wsRefuse tooManyRequests).SentWithin
      rw [hio]
      exact ⟨Nat.zero_le _, Nat.le_refl 0⟩
    · show link.wrote ++ (io.wsRefuse tooManyRequests).unsent = _
      rw [hio, hwrote]
      rfl
    · intro _ hstage
      have hclosed : (io.wsRefuse tooManyRequests).ws.stage = .closed := by rw [hio]; rfl
      exact absurd (hclosed.symm.trans hstage) nofun
  | silenced =>
    have hio : io.wsSilence =
        { io with
          out := [], outSent := 0
          ws := { io.ws with reply := [], replySent := 0, stage := .closed } } := if_pos hmode
    refine ⟨[], hspeaks.kind, fun _ => ?_, .silent, hqueued.symm, fun _ => ?_, fun _ => ?_, nofun,
      ?_, nofun, nofun⟩
    · show io.wsSilence.mode = .ws
      rw [hio]
      exact hmode
    · show io.wsSilence.SentWithin
      rw [hio]
      exact ⟨Nat.le_refl 0, Nat.le_refl 0⟩
    · show link.wrote ++ io.wsSilence.unsent = _
      rw [hio, hwrote]
      rfl
    · intro _ hstage
      have hclosed : io.wsSilence.ws.stage = .closed := by rw [hio]
      exact absurd (hclosed.symm.trans hstage) nofun

section

variable (hspeaks : link.Speaks segments)

include hspeaks

theorem Speaks.receive {data : Bytes} {verdict : AddrVerdict}
    (hallowed : link.allowed (.receive data verdict)) :
    ∃ said, (link.receive prims data verdict).Speaks said := by
  obtain ⟨hactive, hpending, -, -, -⟩ := hallowed
  have hopen : link.state ≠ .broken := by simp [hactive]
  cases hpush : link.io.push prims data with
  | mk status io =>
    by_cases hstatus : status = .ok
    · subst hstatus
      obtain ⟨proxy, ws, input, frameLen, rfl, hlen, hpushed⟩ :=
        push_ws_eq_ok (hspeaks.mode hopen) hpush
      rw [receive_of_ok hpush]
      split
      · -- the preamble is over with this read, so nothing has been said yet
        rename_i hsettles
        have hboth := Bool.and_eq_true_iff.mp hsettles.2
        have hon : link.io.proxyOn = true := hboth.1
        have hdone : proxy.done = true := hboth.2
        obtain ⟨-, hstage⟩ := hspeaks.unsettled hactive hon hsettles.1
        obtain ⟨rfl, -⟩ := hspeaks.upgrade hopen hstage
        have hws : ConnIo.WsPushed link.io.ws ws := by
          rcases hpushed with ⟨-, -, hundone⟩ | ⟨hws, -⟩
          · rw [hdone] at hundone
            cases hundone
          · exact hws
        by_cases hverdict : verdict = .admitted
        · subst hverdict
          exact hspeaks.pushed hactive hpending hws hlen nofun
        refine hspeaks.turnedAway hopen ?_ verdict hverdict
        exact hspeaks.mode hopen
      · rename_i hunsettled
        rcases hpushed with ⟨rfl, hon, hundone⟩ | ⟨hws, hdone⟩
        · refine ⟨segments, hspeaks.kind, hspeaks.mode, hspeaks.dialogue, hspeaks.replies,
            fun hstate => ⟨(hspeaks.within hstate).reply, (hspeaks.within hstate).out⟩,
            hspeaks.waits, fun hbroken => absurd hbroken hopen, fun hstate hstage => ?_,
            hspeaks.opened,
            fun hstate _ hsettled => ⟨hundone, (hspeaks.unsettled hstate hon hsettled).2⟩⟩
          obtain ⟨hsegments, hframeLen⟩ := hspeaks.upgrade hstate hstage
          exact ⟨hsegments, (hlen hstage).trans hframeLen⟩
        · refine hspeaks.pushed hactive hpending hws hlen fun hon hsettled => ?_
          refine absurd ⟨hsettled, ?_⟩ hunsettled
          unfold proxySettled
          rw [hon, hdone hon]
          rfl
    · have hwaits := hspeaks.waits hopen
      rw [unsent_eq_nil (hspeaks.mode hopen) hpending, List.append_nil] at hwaits
      rw [receive_of_error hpush hstatus]
      exact ⟨segments, hspeaks.kind, fun hstate => absurd rfl hstate, hspeaks.dialogue,
        hspeaks.replies, fun hstate => absurd rfl hstate, fun hstate => absurd rfl hstate,
        fun _ => hwaits, fun hstate => absurd rfl hstate, nofun, nofun⟩

/-- A reply that is queued becomes the last segment. -/
theorem Speaks.serve {reply : Option Bytes} {action : EvAction}
    (hallowed : link.allowed (.serve reply action)) :
    ∃ said, (link.serve reply action).Speaks said := by
  obtain ⟨hactive, hcomplete, hflushed⟩ := hallowed
  have hopen : link.state ≠ .broken := by simp [hactive]
  have hmode := hspeaks.mode hopen
  have hwithin := hspeaks.within hopen
  have hwaits := hspeaks.waits hopen
  have hdrop : link.io.out.drop link.io.outSent = [] :=
    List.drop_eq_nil_of_le (Nat.le_of_eq hflushed)
  obtain ⟨payload, hpayload⟩ := Option.isSome_iff_exists.mp hcomplete
  obtain ⟨noted, hnoted⟩ : ∃ noted, link.io.nextUnit link.kind = (some payload, noted) :=
    ⟨_, Prod.ext hpayload rfl⟩
  have hframe : link.io.nextFrame = (some payload, noted) := by rw [← hnoted, hspeaks.kind]; rfl
  obtain ⟨⟨frameLen, rfl⟩, hannounced⟩ := nextFrame_eq_some hframe
  have hstage : link.io.ws.stage ≠ .upgrade := fun hupgrade =>
    hannounced hmode hupgrade (hspeaks.upgrade hopen hupgrade).2
  obtain ⟨accept, frames, rfl, hframes⟩ := hspeaks.opened hactive hstage
  have hreplies : frames.filterMap Segment.reply? = link.queued := hspeaks.replies
  have hunsettled := hspeaks.unsettled hactive
  have hstate : (if action = EvAction.close then LinkState.draining else link.state) ≠ .broken := by
    split
    · exact nofun
    · exact hopen
  unfold Link.serve
  rw [hnoted]
  dsimp only
  obtain ⟨input, left, failed, hconsume⟩ := consumeFrame_eq
  have hunit : (answer { link.io with frameLen := frameLen } reply).consumeUnit link.kind =
      { answer { link.io with frameLen := frameLen } reply with
        input := input, frameLen := left, failed := failed } := by
    rw [hspeaks.kind]
    exact hconsume
  rw [hunit]
  rcases answer_cases { link.io with frameLen := frameLen } reply with
    ⟨answer, hanswered, hanswer⟩ | ⟨hanswered, hanswer⟩
  · have hmessage : framed { link.io with frameLen := frameLen } answer =
        (Segment.message answer).bytes := framed_eq_message hmode answer
    rw [hanswered, hanswer, hmessage]
    refine ⟨_, speaks_opened accept hspeaks.kind hmode hstate hstage
      (@isFrame_concat (.message answer) _ hframes trivial) ?_
      ⟨hwithin.reply, Nat.zero_le _⟩ ?_ fun _ => hunsettled⟩
    · rw [List.filterMap_append, hreplies]
      rfl
    · unfold unsent at hwaits ⊢
      rw [hdrop, List.append_nil] at hwaits
      dsimp only
      rw [← List.append_assoc, hwaits, ← List.cons_append, wire_append]
      exact congrArg _ (List.append_nil _).symm
  · rw [hanswered, hanswer, List.append_nil]
    exact ⟨_, speaks_opened accept hspeaks.kind hmode hstate hstage hframes hreplies
      ⟨hwithin.reply, hwithin.out⟩ hwaits fun _ => hunsettled⟩

theorem Speaks.written (hallowed : link.allowed (.written count)) :
    (link.written count).Speaks segments := by
  obtain ⟨hopen, -, hcount⟩ := hallowed
  have hmode := hspeaks.mode hopen
  obtain ⟨hunsent, hwithin⟩ := unsent_sent hmode (hspeaks.within hopen) hcount
  have hwaits := hspeaks.waits hopen
  obtain ⟨reply, replySent, out, outSent, hsent⟩ := sent_ws_eq
  unfold Link.written
  rw [hsent] at hunsent hwithin ⊢
  exact
    { hspeaks with
      mode := fun _ => hmode
      within := fun _ => hwithin
      waits := fun _ => by
        dsimp only
        rw [List.append_assoc, hunsent]
        exact hwaits
      broken := fun hbroken => absurd hbroken hopen }

theorem Speaks.step {event : LinkEvent}
    (hallowed : link.allowed event) : ∃ said, (link.step prims event).Speaks said := by
  cases event with
  | receive => exact hspeaks.receive hallowed
  | serve => exact hspeaks.serve hallowed
  | written => exact ⟨segments, hspeaks.written hallowed⟩
  | drain =>
    have hopen : link.state ≠ .broken := hallowed
    exact ⟨segments,
      { hspeaks with
        mode := fun _ => hspeaks.mode hopen
        within := fun _ => hspeaks.within hopen
        waits := fun _ => hspeaks.waits hopen
        broken := nofun
        upgrade := fun _ => hspeaks.upgrade hopen
        opened := nofun
        unsettled := nofun }⟩

end

end Link

/-- Stand-ins under which a key of the sample request decodes to sixteen bytes. -/
def sampleWsPrims : DaemonPrimitives :=
  { DaemonPrimitives.sample with base64Decode := fun key => some (key.take 16) }

/-- The proxy-facing listener without a preamble. -/
def sampleWs : Listener where
  kind := .proto
  isAdmin := false
  ws := true
  proxy := false

/-- A request to upgrade, with the state `s`. -/
def sampleUpgrade : Bytes :=
  ascii "GET /?state=s HTTP/1.1\r\nUpgrade: websocket\r\nConnection: Upgrade\r\n" ++
    ascii "Sec-WebSocket-Version: 13\r\nSec-WebSocket-Key: AAAAAAAAAAAAAAAAAAAAAA==\r\n\r\n"

/-- A request and one frame of one byte in a single read, a reply of one byte, and a write of
seven bytes. -/
def sampleExchange : List LinkEvent :=
  [.receive (sampleUpgrade ++ [0x82, 0x85, 0, 0, 0, 0, 0, 0, 0, 1, 7]) .admitted,
    .serve (some [9]) .continue_, .written 7]

end MldsaAuth.Authd
