/-
# No connection stalls

Each time the loop polls, an active connection that waits for input has been served
everything it has sent in full, and there is room for the next byte. This holds in all
three framings: a full buffer would hold a complete frame or line, which is served
before input is polled again, and a reply that goes out is followed by serving what was
held back. The two counters of slots in use are exact, so a free slot is found whenever
a counter is below the size of its pool.
-/

import MldsaAuth.Authd.LoopTurn
import MldsaAuth.Authd.StoreSteps
import MldsaAuth.Authd.StreamParse
import MldsaAuth.Authd.LineSplit

namespace MldsaAuth.Authd

open Foundation Foundation.Delimited Crypto Protocol ConnIo Slot

/-! ## Buffers between two operations -/

namespace ConnIo

variable {prims : DaemonPrimitives} {io next : ConnIo} {kind : SlotKind} {data : Bytes}

/-- What a pool's buffers keep to: a length is noted as soon as it is there, the text of a request
stays below its cap, and so does the rest of a line that has not ended. -/
def Sound (io : ConnIo) : SlotKind → Prop
  | .proto =>
    io.mode ≠ .line ∧ io.Framed ∧
      (io.mode = .ws → io.ws.Ready ∧ (io.ws.stage = .upgrade → io.input.length ≤ wsUpgradeMax))
  | .loc => io.mode = .line ∧ (unfinished lineFeed io.input).length < authdLineMax

theorem Sound.sent (hsound : io.Sound kind) (count : ℕ) : (io.sent count).Sound kind := by
  obtain ⟨reply, replySent, out, outSent, hsent⟩ := sent_ws_eq
  rw [hsent]
  cases kind with
  | proto =>
    obtain ⟨hmode, hframed, hws⟩ := hsound
    exact ⟨hmode, ⟨hframed.text, hframed.seen⟩, hws⟩
  | loc => exact hsound

theorem failed_sent {count : ℕ} : (io.sent count).failed = io.failed := by
  obtain ⟨reply, replySent, out, outSent, hsent⟩ := sent_ws_eq
  rw [hsent]

/-- A line that is not complete has not ended. -/
theorem notMem_of_not_complete (hmode : io.mode = .line) (hfailed : io.failed = false)
    (hnone : io.complete .loc = false) : lineFeed ∉ io.input := by
  intro hmem
  obtain ⟨line, more, hnot, hinput⟩ := exists_first hmem
  unfold complete nextUnit at hnone
  rw [nextLine_cons hnot hinput hfailed hmode] at hnone
  cases hnone

/-- Where nothing is complete there is room for another byte. -/
theorem Sound.room (hsound : io.Sound kind) (hfailed : io.failed = false)
    (hnone : io.complete kind = false) : 0 < io.inRoom := by
  have hbuffer : authdLineMax ≤ authdInBufBytes ∧ wsUpgradeMax < authdInBufBytes := by decide
  suffices hlength : io.input.length < authdInBufBytes by
    unfold inRoom
    omega
  cases kind with
  | loc =>
    obtain ⟨hmode, hrest⟩ := hsound
    rw [unfinished_of_notMem (notMem_of_not_complete hmode hfailed hnone)] at hrest
    omega
  | proto =>
    obtain ⟨-, hframed, hws⟩ := hsound
    by_cases hupgrade : io.mode = .ws ∧ io.ws.stage = .upgrade
    · have hshort := (hws hupgrade.1).2 hupgrade.2
      omega
    unfold complete nextUnit at hnone
    rw [nextFrame_of_framed hframed hfailed] at hnone
    have hframe : authdInBufBytes = authdFrameHeader + authdFrameMax := rfl
    rcases hframed.seen hupgrade with ⟨hshort, -⟩ | ⟨hheader, hvalue, hgood⟩
    · omega
    have hmax : io.frameLen ≤ authdFrameMax :=
      not_lt.mp fun hlong => hgood ⟨hheader, .inr (hvalue ▸ hlong)⟩
    by_cases hwaits : io.frameLen = 0 ∨ io.input.length < authdFrameHeader + io.frameLen
    · have hshort := hwaits.resolve_left fun hzero =>
        hgood ⟨hheader, .inl (hvalue ▸ hzero)⟩
      omega
    rw [if_neg hwaits] at hnone
    cases hnone

theorem length_add_le_of_room (hdata : data ≠ []) (hroom : data.length ≤ io.inRoom) :
    io.input.length + data.length ≤ authdInBufBytes := by
  have hpos := List.length_pos_iff.mpr hdata
  unfold inRoom at hroom
  omega

/-- A push on the raw listener, within the room there is. -/
theorem push_frame (hws : io.mode ≠ .ws) (hline : io.mode ≠ .line) (hfailed : io.failed = false)
    (hdata : data ≠ []) (hroom : data.length ≤ io.inRoom) :
    io.push prims data = noteHeader { io with input := io.input ++ data } := by
  unfold push
  rw [hfailed, if_neg Bool.false_ne_true, if_neg hws, if_neg hdata, if_neg (not_lt.mpr hroom)]
  exact if_neg hline

/-- A push within the room keeps the buffers sound. -/
theorem Sound.push (hsound : io.Sound kind) (hfailed : io.failed = false)
    (hnone : io.complete kind = false) (hdata : data ≠ [])
    (hlength : data.length ≤ min io.inRoom readChunk) (hpush : io.push prims data = (.ok, next)) :
    next.failed = false ∧ next.Sound kind := by
  have hroom := le_trans hlength (min_le_left _ _)
  have hchunk := le_trans hlength (min_le_right _ _)
  cases kind with
  | loc =>
    obtain ⟨hmode, hrest⟩ := hsound
    rw [push_line hmode hfailed hdata hroom] at hpush
    unfold noteLineCap at hpush
    split at hpush
    · rename_i hmem
      obtain rfl := (Prod.mk.inj hpush).2
      refine ⟨hfailed, hmode, ?_⟩
      have hdataMem : lineFeed ∈ data := (List.mem_append.mp hmem).resolve_left
        (notMem_of_not_complete hmode hfailed hnone)
      have hline : readChunk ≤ authdLineMax := by decide
      exact lt_of_lt_of_le (length_unfinished_append_lt hdataMem) (le_trans hchunk hline)
    · rename_i hnot
      split at hpush
      · cases hpush
      rename_i hshort
      obtain rfl := (Prod.mk.inj hpush).2
      exact ⟨hfailed, hmode, lt_of_le_of_lt length_unfinished_le (not_le.mp hshort)⟩
  | proto =>
    obtain ⟨hmode, hframed, hws⟩ := hsound
    by_cases hwsMode : io.mode = .ws
    · obtain ⟨hready, hshort⟩ := hws hwsMode
      have hfollows : io.Follows []
          { proxyOn := io.proxyOn, proxy := io.proxy, ws := io.ws.hush, held := io.input } :=
        { mode := hwsMode
          proxyOn := rfl
          proxy := rfl
          ws := rfl
          held := rfl
          ready := hready
          fresh := fun hupgrade => ⟨rfl, hframed.text ⟨hwsMode, hupgrade⟩⟩
          short := hshort
          seen := fun hopen => hframed.seen fun hupgrade => hopen hupgrade.2 }
      have hpushed := @Follows.push prims _ _ _ data hfollows hfailed nofun
        (length_add_le_of_room hdata hroom)
      rw [hpush] at hpushed
      cases hpushed with
      | follows hread hopen hnext =>
        refine ⟨hopen, ?_, hnext.framed, fun _ => ⟨hnext.ready, hnext.short⟩⟩
        rw [hnext.mode]
        exact nofun
      | refused hstatus | illegal hstatus => exact absurd rfl hstatus
    · have hopen : ¬(io.mode = .ws ∧ io.ws.stage = .upgrade) := fun hupgrade =>
        hwsMode hupgrade.1
      rw [push_frame hwsMode hmode hfailed hdata hroom] at hpush
      have hnoted : Noted { io with input := io.input ++ data } :=
        (hframed.seen hopen).noted.append rfl rfl
      rcases noteHeader_cases hnoted hopen with ⟨frameLen, hnote, hseen⟩ | ⟨hnote, -⟩
      · obtain rfl := (Prod.mk.inj (hnote.symm.trans hpush)).2
        exact ⟨hfailed, hmode, ⟨fun hupgrade => absurd hupgrade hopen, fun _ => hseen⟩,
          fun hmodeWs => absurd hmodeWs hwsMode⟩
      · exact absurd (congrArg Prod.fst (hnote.symm.trans hpush)) nofun

/-- Without a complete frame or line, looking for one changes nothing. -/
theorem Sound.nextUnit_of_none (hsound : io.Sound kind) (hfailed : io.failed = false)
    (hnext : io.nextUnit kind = (none, next)) : next = io := by
  cases kind with
  | proto =>
    change io.nextFrame = _ at hnext
    rw [nextFrame_of_framed hsound.2.1 hfailed] at hnext
    split at hnext
    · exact (Prod.mk.inj hnext).2.symm
    · cases hnext
  | loc =>
    change io.nextLine = _ at hnext
    unfold nextLine at hnext
    split at hnext
    · exact (Prod.mk.inj hnext).2.symm
    split at hnext
    · exact (Prod.mk.inj hnext).2.symm
    · cases hnext

theorem nextUnit_of_failed (hfailed : io.failed = true) : io.nextUnit kind = (none, io) := by
  cases kind with
  | proto =>
    change io.nextFrame = _
    unfold nextFrame
    rw [if_pos hfailed]
  | loc =>
    change io.nextLine = _
    unfold nextLine
    rw [if_pos (by simp [hfailed])]

/-- Taking a frame or line from the front keeps the buffers sound, and they get shorter. -/
theorem Sound.consume {unit : Bytes} {taken : ConnIo} (hsound : io.Sound kind)
    (hfailed : io.failed = false) (hnext : io.nextUnit kind = (some unit, taken))
    (hsame : SameInput taken next) (hlive : (next.consumeUnit kind).failed = false) :
    (next.consumeUnit kind).Sound kind ∧
      (next.consumeUnit kind).input.length < io.input.length := by
  obtain ⟨out, outSent, rfl⟩ := hsame
  cases kind with
  | proto =>
    obtain ⟨hmode, hframed, hws⟩ := hsound
    change io.nextFrame = _ at hnext
    obtain ⟨rfl, hopen, hzero, hwhole, -, -⟩ := nextFrame_framed hframed hfailed hnext
    have hwaits : ¬(taken.frameLen = 0 ∨
        taken.input.length < authdFrameHeader + taken.frameLen) := fun hwaits =>
      hwaits.elim hzero (not_lt.mpr hwhole)
    change (consumeFrame _).failed = false at hlive
    change Sound (consumeFrame _) .proto ∧ (consumeFrame _).input.length < _
    unfold consumeFrame at hlive ⊢
    rw [if_neg (by exact hwaits)] at hlive ⊢
    dsimp only at hlive ⊢
    have hnoted : Noted { taken with
        out := out, outSent := outSent, frameLen := 0
        input := taken.input.drop (authdFrameHeader + taken.frameLen) } := .inl rfl
    have hheader : 0 < authdFrameHeader := by decide
    rcases noteHeader_cases hnoted hopen with ⟨frameLen, hnote, hseen⟩ | ⟨hnote, -⟩
    · rw [hnote]
      refine ⟨⟨hmode, ⟨fun hupgrade => absurd hupgrade hopen, fun _ => hseen⟩, ?_⟩, ?_⟩
      · exact fun hmodeWs => ⟨(hws hmodeWs).1, fun hstage => absurd ⟨hmodeWs, hstage⟩ hopen⟩
      show (taken.input.drop _).length < _
      rw [List.length_drop]
      omega
    · rw [hnote] at hlive
      cases hlive
  | loc =>
    obtain ⟨hmode, hrest⟩ := hsound
    change io.nextLine = _ at hnext
    have hmem : lineFeed ∈ io.input := by
      by_contra hnot
      rw [nextLine_of_notMem hnot] at hnext
      cases hnext
    obtain ⟨line, more, hnot, hinput⟩ := exists_first hmem
    rw [nextLine_cons hnot hinput hfailed hmode] at hnext
    obtain rfl := (Prod.mk.inj hnext).2
    change Sound (consumeLine _) .loc ∧ (consumeLine _).input.length < _
    rw [consumeLine_cons (by exact hinput) (by rfl)]
    rw [hinput, unfinished_cons hnot] at hrest
    refine ⟨⟨hmode, hrest⟩, ?_⟩
    show more.length < _
    rw [hinput, List.length_append, List.length_cons]
    omega

end ConnIo

/-! ## Slots in a turn -/

/-- An active connection whose buffers are sound. -/
def Slot.Tidy (kind : SlotKind) (slot : Slot) : Prop :=
  slot.state = .active → slot.io.failed = false → slot.io.Sound kind

/-- An active connection that has been served all it can be. -/
def Slot.Rests (kind : SlotKind) (slot : Slot) : Prop :=
  slot.state = .active → slot.io.failed = false →
    slot.io.Sound kind ∧ (slot.io.pending = 0 → slot.io.complete kind = false)

variable {kind : SlotKind} {slot : Slot}

theorem Slot.Rests.tidy (hrests : slot.Rests kind) :
    slot.Tidy kind := fun hactive hfailed => (hrests hactive hfailed).1

theorem Slot.rests_of_inactive (hstate : slot.state ≠ .active) :
    slot.Rests kind := fun hactive => absurd hactive hstate

theorem Slot.rests_blank : (blank kind).Rests kind :=
  rests_of_inactive nofun

variable {property : Slot → Prop} {serves : ℕ → ServeEnv} {shared : Shared} {poll : SlotPoll}
  {listener : Listener} {slotCount localCount : ℕ}

namespace Daemon

variable {prims : DaemonPrimitives} {config : AuthdConfig} {before after daemon : Daemon}
  {ref : SlotRef} {slot : Slot}

/-- What holds of the slot of a number, if there is one. -/
def At (ref : SlotRef) (property : Slot → Prop) (daemon : Daemon) : Prop :=
  ∀ slot, daemon.slotAt ref = some slot → property slot

theorem At.of_slot (hslot : daemon.slotAt ref = some slot) (hproperty : property slot) :
    At ref property daemon := by
  intro found hfound
  exact Option.some.inj (hslot.symm.trans hfound) ▸ hproperty

theorem At.closes (hrests : At ref (Slot.Rests ref.kind) before) (hcloses : Closes before after) :
    At ref (Slot.Rests ref.kind) after := by
  intro slot hslot
  rcases hcloses ref slot hslot with hkept | rfl
  · exact hrests slot hkept
  · exact rests_blank

variable {kind : SlotKind}

/-- A round of serving leaves the slot at rest, or its input is shorter. -/
theorem serve_round {next : Slot} (htidy : slot.Tidy kind)
    (hactive : slot.state = .active) (hserved : ServedAt config kind slot next) :
    (slot.io.complete kind = false → next.Rests kind) ∧
      (next.state = .active → next.io.failed = false → next.io.Sound kind ∧
        (slot.io.complete kind = true → next.io.input.length < slot.io.input.length)) := by
  cases hserved with
  | @waits io hnext =>
    have hnone : slot.io.complete kind = false := by
      unfold complete
      rw [hnext]
      rfl
    by_cases hfailed : slot.io.failed = true
    · rw [nextUnit_of_failed hfailed] at hnext
      obtain rfl := (Prod.mk.inj hnext).2
      exact ⟨fun _ _ hlive => absurd (hlive.symm.trans hfailed) Bool.false_ne_true,
        fun _ hlive => absurd (hlive.symm.trans hfailed) Bool.false_ne_true⟩
    · have hlive : slot.io.failed = false := Bool.eq_false_iff.mpr hfailed
      have hsound := htidy hactive hlive
      obtain rfl := hsound.nextUnit_of_none hlive hnext
      exact ⟨fun _ _ _ => ⟨hsound, fun _ => hnone⟩, fun _ _ => ⟨hsound, fun hcomplete =>
          absurd (hnone.symm.trans hcomplete) Bool.false_ne_true⟩⟩
  | served _ _ _ hnext hsame =>
    have hcomplete : slot.io.complete kind = true := by
      unfold complete
      rw [hnext]
      rfl
    have hlive : slot.io.failed = false := by
      by_contra hfailed
      rw [nextUnit_of_failed (Bool.eq_true_of_not_eq_false hfailed)] at hnext
      cases hnext
    refine ⟨fun hnone => absurd (hnone.symm.trans hcomplete) Bool.false_ne_true, fun _ hafter => ?_⟩
    obtain ⟨hsound, hshorter⟩ := (htidy hactive hlive).consume hlive hnext hsame hafter
    exact ⟨hsound, fun _ => hshorter⟩

section

variable (hslot : daemon.slotAt ref = some slot)

include hslot

theorem any_waiting : (daemon.slotAt ref).any (fun slot =>
      decide (slot.state = .active) && decide (slot.io.pending = 0)) = true ↔
      slot.state = .active ∧ slot.io.pending = 0 := by
  rw [hslot, Option.any_some, Bool.and_eq_true, decide_eq_true_iff, decide_eq_true_iff]

/-- Serving what is buffered, with fuel for every byte, leaves the slot at rest. -/
theorem rests_serveBuffered {fuel : ℕ} (hactive : slot.state = .active) (htidy : slot.Tidy ref.kind)
    (hfuel : slot.io.failed = false → slot.io.input.length < fuel) :
    At ref (Slot.Rests ref.kind) (serveBuffered prims config serves ref fuel daemon) := by
  induction fuel generalizing daemon slot with
  | zero =>
    refine .of_slot hslot fun _ hlive => ?_
    exact absurd (hfuel hlive) (Nat.not_lt_zero _)
  | succ fuel ih =>
    obtain ⟨-, next, hnext, hserved⟩ :=
      @serve_moves prims config daemon ref slot (serves fuel) hslot hactive
    obtain ⟨hrests, hround⟩ := serve_round htidy hactive hserved
    unfold serveBuffered
    dsimp only
    rw [hslot, Option.any_some]
    by_cases hcomplete : slot.io.complete ref.kind = true
    · rw [hcomplete, Bool.true_and]
      split_ifs with hwaits
      · obtain ⟨hactiveNext, -⟩ := (any_waiting hnext).mp hwaits
        refine ih hnext hactiveNext (fun hstate hlive => (hround hstate hlive).1) fun hlive => ?_
        have hshorter := (hround hactiveNext hlive).2 hcomplete
        -- a slot that fails while it is served was live before
        have hbefore : slot.io.failed = false := by
          by_contra hfailed
          unfold complete at hcomplete
          rw [nextUnit_of_failed (Bool.eq_true_of_not_eq_false hfailed)] at hcomplete
          cases hcomplete
        have hbytes := hfuel hbefore
        omega
      · refine .of_slot hnext fun hstate hlive => ⟨(hround hstate hlive).1, fun hpending => ?_⟩
        exact absurd ((any_waiting hnext).mpr ⟨hstate, hpending⟩) hwaits
    · rw [Bool.eq_false_of_not_eq_true hcomplete, Bool.false_and, if_neg Bool.false_ne_true]
      exact .of_slot hnext (hrests (Bool.eq_false_of_not_eq_true hcomplete))

theorem rests_serveInput (hactive : slot.state = .active) (htidy : slot.Tidy ref.kind) :
    At ref (Slot.Rests ref.kind) (serveInput prims config serves daemon ref) := by
  unfold serveInput
  rw [hslot]
  exact rests_serveBuffered hslot hactive htidy fun _ => Nat.lt_succ_self _

end

/-- Where the verdict is to go on, the buffers are as they were. -/
theorem io_onAddr (hcontinue : (onAddr prims shared slot).1 ≠ .close) :
    (onAddr prims shared slot).2.1.io = slot.io := by
  have hview := onAddr_view prims shared slot
  generalize onAddr prims shared slot = settled at hview hcontinue ⊢
  cases hview with
  | unknown | refused => exact absurd rfl hcontinue
  | unlimited => rfl
  | admitted => rfl

/-- Reading leaves the buffers of a slot at rest sound. -/
theorem tidy_receive {data : Bytes} (hslot : daemon.slotAt ref = some slot)
    (hrests : slot.Rests ref.kind) (hactive : slot.state = .active) (hpending : slot.io.pending = 0)
    (hdata : data ≠ []) (hlength : data.length ≤ min slot.io.inRoom readChunk) :
    At ref (Slot.Tidy ref.kind) (daemon.receive prims ref data) := by
  unfold receive
  rw [hslot]
  dsimp only
  split
  · rename_i io hpush
    have hlive : slot.io.failed = false := by
      by_contra hfailed
      unfold push at hpush
      rw [if_pos (Bool.eq_true_of_not_eq_false hfailed)] at hpush
      cases hpush
    obtain ⟨hsound, hnone⟩ := hrests hactive hlive
    obtain ⟨-, hafter⟩ := hsound.push hlive (hnone hpending) hdata hlength hpush
    split
    · unfold settleAddr
      refine .of_slot (slotAt_setSlot_self (by exact hslot)) ?_
      split_ifs with hcontinue
      · exact fun hstate => nomatch hstate
      have hio := io_onAddr hcontinue
      intro _ _
      rw [hio]
      exact hafter
    · exact .of_slot (slotAt_setSlot_self hslot) fun _ _ => hafter
  · intro found hfound
    rw [slotAt_closeSlot_self (slotAt_setSlot_self hslot)] at hfound
    obtain rfl := Option.some.inj hfound
    split_ifs with hfree
    · exact absurd (hfree.symm.trans hactive) nofun
    · exact rests_blank.tidy

theorem rests_slotReadable (hslot : daemon.slotAt ref = some slot) (hrests : slot.Rests ref.kind)
    (hactive : slot.state = .active) (hpending : slot.io.pending = 0) :
    At ref (Slot.Rests ref.kind) (slotReadable prims config poll daemon ref) := by
  have hsame : At ref (Slot.Rests ref.kind) daemon := .of_slot hslot hrests
  have hclosed : At ref (Slot.Rests ref.kind) (daemon.closeSlot prims ref) :=
    hsame.closes closes_closeSlot
  unfold slotReadable
  rw [hslot]
  dsimp only
  split
  · exact hsame
  split
  · exact hclosed
  split
  · exact hsame
  · exact hclosed
  rename_i available _
  split
  · exact hclosed
  rename_i hdata
  have htidy := @tidy_receive prims daemon ref slot _ hslot hrests hactive hpending hdata
    (List.length_take_le _ _)
  split_ifs with hserved
  · obtain ⟨next, hnext, hstate⟩ := isActive_iff.mp hserved
    exact rests_serveInput hnext hstate (htidy next hnext)
  intro next hnext
  exact rests_of_inactive fun hstate => hserved (isActive_iff.mpr ⟨next, hnext, hstate⟩)

theorem tidy_slotWritable {poll : SlotPoll} (htidy : At ref (Slot.Tidy ref.kind) daemon) :
    At ref (Slot.Tidy ref.kind) (slotWritable prims poll daemon ref) := by
  have hclosed : ∀ {daemon : Daemon}, At ref (Slot.Tidy ref.kind) daemon →
      At ref (Slot.Tidy ref.kind) (daemon.closeSlot prims ref) := by
    intro daemon htidy slot hslot
    rcases closes_closeSlot ref slot hslot with hkept | rfl
    · exact htidy slot hkept
    · exact rests_blank.tidy
  unfold slotWritable
  split
  · exact htidy
  rename_i slot hslot
  split
  · split
    · exact hclosed htidy
    · exact htidy
  split
  · exact htidy
  · exact hclosed htidy
  · rename_i count _
    unfold written
    rw [hslot]
    dsimp only
    have hsent : At ref (Slot.Tidy ref.kind)
        (daemon.setSlot ref { slot with io := slot.io.sent (min count slot.io.pending) }) := by
      refine .of_slot (slotAt_setSlot_self hslot) fun hactive hlive => ?_
      exact (htidy slot hslot hactive (failed_sent.symm.trans hlive)).sent _
    split
    · exact hclosed hsent
    · exact hsent

/-- Once the reply has gone out, what was held back is served. -/
theorem rests_flushSlot (hrests : At ref (Slot.Rests ref.kind) daemon) :
    At ref (Slot.Rests ref.kind) (flushSlot prims config poll daemon ref) := by
  have htidy := @tidy_slotWritable prims daemon ref poll fun slot hslot => (hrests slot hslot).tidy
  unfold flushSlot
  dsimp only
  split_ifs with hserves
  · obtain ⟨next, hnext, hstate⟩ := isActive_iff.mp (isActive_of_any hserves)
    exact rests_serveInput hnext hstate (htidy next hnext)
  intro next hnext hstate hlive
  refine ⟨htidy next hnext hstate hlive, fun hpending => ?_⟩
  exact absurd ((any_waiting hnext).mpr ⟨hstate, hpending⟩) hserves

theorem At.provided {condition : Bool} {operation : Daemon → Daemon}
    (hbefore : At ref property daemon)
    (hafter : condition = true → At ref property (operation daemon)) :
    At ref property (provided condition operation daemon) := by
  unfold Daemon.provided
  split_ifs with hholds
  · exact hafter hholds
  · exact hbefore

/-- What a turn does with a slot leaves it at rest. -/
theorem rests_turnSlot {requested : Requested}
    (hrequested : ∀ slot, daemon.slotAt ref = some slot → slot.state ≠ .free →
      slot.requested = requested) (hrests : At ref (Slot.Rests ref.kind) daemon) :
    At ref (Slot.Rests ref.kind) (turnSlot prims config poll requested daemon ref) := by
  unfold turnSlot
  split
  · exact hrests
  rename_i slot hslot
  split_ifs with hopen
  · exact hrests
  obtain rfl := hrequested slot hslot hopen
  dsimp only
  have hread : At ref (Slot.Rests ref.kind)
      (Daemon.provided (poll.pollIn && slot.requested.input) (slotReadable prims config poll · ref)
        (Daemon.provided (poll.pollOut && slot.requested.output ||
          poll.pollHup && decide (0 < slot.io.pending)) (flushSlot prims config poll · ref)
          daemon)) := by
    refine At.provided (hrests.provided fun _ => rests_flushSlot hrests) fun hinput => ?_
    have hpolled := ((Bool.and_eq_true _ _).mp hinput).2
    obtain ⟨hpending, hactive, -⟩ := requested_input hpolled
    rw [provided_flush hpolled]
    exact rests_slotReadable hslot (hrests slot hslot) hactive hpending
  have hchecked : At ref (Slot.Rests ref.kind)
      (Daemon.provided poll.pollErr (closeSlot prims · ref) _) :=
    hread.provided fun _ => hread.closes closes_closeSlot
  exact hchecked.provided fun _ => hchecked.closes closes_closeIf

/-- Every slot is at rest. -/
def Rested (daemon : Daemon) : Prop := ∀ ref, At ref (Slot.Rests ref.kind) daemon

theorem Rested.closes (hrested : Rested before) (hcloses : Closes before after) : Rested after :=
  fun ref => (hrested ref).closes hcloses

theorem rests_acceptedSlot : (daemon.acceptedSlot config listener).Rests listener.kind := by
  obtain ⟨kind, isAdmin, ws, proxy⟩ := listener
  intro _ _
  have hheader : 0 < authdFrameHeader := by decide
  have hline : 0 < authdLineMax := by decide
  cases kind with
  | loc => exact ⟨⟨rfl, hline⟩, fun _ => rfl⟩
  | proto =>
    cases ws with
    | true =>
      exact ⟨⟨nofun, ⟨fun _ => rfl, fun _ => .inl ⟨hheader, rfl⟩⟩,
        fun _ => ⟨fun _ => rfl, fun _ => Nat.zero_le _⟩⟩, fun _ => rfl⟩
    | false =>
      exact ⟨⟨nofun, ⟨nofun, fun _ => .inl ⟨hheader, rfl⟩⟩, nofun⟩, fun _ => rfl⟩

theorem rested_accept (hrested : Rested daemon) : Rested (daemon.accept config listener) := by
  intro ref slot hslot
  rcases slotAt_accept hslot with hkept | ⟨rfl, hkind, -⟩
  · exact hrested ref slot hkept
  rw [hkind]
  exact rests_acceptedSlot

theorem rested_accepts (listeners : List Listener) (hrested : Rested daemon) :
    Rested (listeners.foldl (accept config) daemon) := by
  induction listeners generalizing daemon with
  | nil => exact hrested
  | cons listener listeners ih => exact ih (rested_accept hrested)

/-- The slots of a poll set, one after another. -/
theorem rested_turnSlots {polls : SlotRef → SlotPoll} {requested : SlotRef → Requested}
    {refs : List SlotRef} (hnodup : refs.Nodup) (hheld : Held requested refs daemon)
    (hrested : Rested daemon) :
    Rested (refs.foldl (fun daemon ref =>
      turnSlot prims config (polls ref) (requested ref) daemon ref) daemon) := by
  induction refs generalizing daemon with
  | nil => exact hrested
  | cons ref refs ih =>
    obtain ⟨hhead, hrest⟩ := List.nodup_cons.mp hnodup
    have haside := (@works_turnSlot (polls ref) prims config _ _ _
      (hheld ref List.mem_cons_self)).aside
    refine ih hrest (hheld.aside haside hhead) fun other => ?_
    by_cases hother : other = ref
    · subst hother
      exact rests_turnSlot (hheld other List.mem_cons_self) (hrested other)
    intro slot hslot
    rcases haside other slot hother hslot with hkept | rfl
    · exact hrested other slot hkept
    · exact rests_blank

theorem rested_turn {env : TurnEnv} (hrested : Rested daemon) :
    Rested (turn prims config env daemon) := by
  have hpolling : Rested (daemon.closeDrained prims) :=
    hrested.closes (closes_foldl (fun _ _ => closes_closeIf) _ daemon)
  have hserved := @rested_turnSlots prims config _ env.polls _ _
    (nodup_refs.filter _) (held_accepts env.accepts)
    (@rested_accepts config _ env.accepts hpolling)
  exact hserved.closes (closes_foldl (fun _ _ => closes_closeIf) _ _)

theorem rested_start : Rested (start slotCount localCount shared) := by
  rintro ⟨kind, index⟩ slot hslot
  cases kind with
  | proto | loc =>
    obtain rfl := List.eq_of_mem_replicate (List.mem_of_getElem? hslot)
    exact rests_blank

theorem rested_stop : Rested daemon.stop := by
  intro ref slot hslot
  rw [slotAt_stop] at hslot
  obtain ⟨old, -, rfl⟩ := Option.map_eq_some_iff.mp hslot
  exact rests_of_inactive inactive_drainSlot

/-! ## The counters of slots in use -/

/-- `in_use` or `local_in_use`, by the pool. -/
def counter (daemon : Daemon) : SlotKind → ℕ
  | .proto => daemon.inUse
  | .loc => daemon.localInUse

/-- A slot of a pool is taken. -/
def taken (slot : Slot) : Bool := decide (slot.state ≠ .free)

theorem taken_eq_true : taken slot = true ↔ slot.state ≠ .free := decide_eq_true_iff

/-- Each counter is the number of slots of its pool that are not free. -/
def Counted (daemon : Daemon) : Prop :=
  ∀ kind, daemon.counter kind = (daemon.pool kind).countP taken

theorem counter_setSlot : (daemon.setSlot ref slot).counter kind = daemon.counter kind := by
  unfold setSlot
  cases ref.kind <;> cases kind <;> rfl

theorem pool_setSlot_of_ne (hne : kind ≠ ref.kind) :
    (daemon.setSlot ref slot).pool kind = daemon.pool kind := by
  obtain ⟨refKind, index⟩ := ref
  cases refKind <;> cases kind
  · exact absurd rfl hne
  · rfl
  · rfl
  · exact absurd rfl hne

theorem pool_setSlot_self :
    (daemon.setSlot ref slot).pool ref.kind = (daemon.pool ref.kind).set ref.index slot := by
  obtain ⟨kind, index⟩ := ref
  cases kind <;> rfl

/-- Replacing a slot moves a count over its pool by what the two slots count. -/
theorem countP_setSlot (counts : Slot → Bool) {old : Slot} (hold : daemon.slotAt ref = some old) :
    ((daemon.setSlot ref slot).pool ref.kind).countP counts + (if counts old then 1 else 0) =
      (daemon.pool ref.kind).countP counts + if counts slot then 1 else 0 := by
  obtain ⟨hindex, hget⟩ := List.getElem?_eq_some_iff.mp hold
  rw [pool_setSlot_self, List.countP_set hindex, hget]
  have hone : (if counts old then 1 else 0) ≤ (daemon.pool ref.kind).countP counts := by
    split_ifs with hcounts
    · exact List.countP_pos_iff.mpr ⟨old, List.mem_of_getElem? hold, hcounts⟩
    · exact Nat.zero_le _
  omega

theorem Counted.setSlot {old : Slot} (hcounted : Counted daemon)
    (hold : daemon.slotAt ref = some old) (hsame : old.state = .free ↔ slot.state = .free) :
    Counted (daemon.setSlot ref slot) := by
  intro kind
  rw [counter_setSlot, hcounted kind]
  by_cases hkind : kind = ref.kind
  · subst hkind
    have hcount := @countP_setSlot daemon ref slot taken old hold
    have htaken : taken old = taken slot := decide_eq_decide.mpr (not_congr hsame)
    rw [htaken] at hcount
    omega
  · rw [pool_setSlot_of_ne hkind]

theorem Counted.of_same (hcounted : Counted before) (hslots : after.slots = before.slots)
    (hlocal : after.localSlots = before.localSlots) (hinUse : after.inUse = before.inUse)
    (hlocalInUse : after.localInUse = before.localInUse) : Counted after := by
  intro kind
  cases kind with
  | proto => exact hinUse.trans ((hcounted .proto).trans (by rw [pool, pool, hslots]))
  | loc => exact hlocalInUse.trans ((hcounted .loc).trans (by rw [pool, pool, hlocal]))

theorem Counted.freeSlot (hcounted : Counted daemon) (hslot : daemon.slotAt ref = some slot)
    (hopen : slot.state ≠ .free) : Counted (daemon.freeSlot ref) := by
  have hcount := @countP_setSlot daemon ref (.blank ref.kind) taken slot hslot
  have hblank : ¬taken (blank ref.kind) = true := by
    rw [taken_eq_true]
    exact not_not.mpr rfl
  rw [if_pos (taken_eq_true.mpr hopen), if_neg hblank] at hcount
  intro kind
  have hbefore := hcounted kind
  obtain ⟨refKind, index⟩ := ref
  cases refKind with
  | proto =>
    cases kind with
    | proto =>
      change daemon.inUse - 1 = _
      change daemon.inUse = _ at hbefore
      rw [hbefore]
      exact (Nat.eq_sub_of_add_eq hcount).symm
    | loc => exact hbefore
  | loc =>
    cases kind with
    | proto => exact hbefore
    | loc =>
      change daemon.localInUse - 1 = _
      change daemon.localInUse = _ at hbefore
      rw [hbefore]
      exact (Nat.eq_sub_of_add_eq hcount).symm

theorem Counted.closeSlot (hcounted : Counted daemon) : Counted (daemon.closeSlot prims ref) := by
  unfold Daemon.closeSlot
  split
  · exact hcounted
  rename_i slot hslot
  split_ifs with hopen
  · exact hcounted
  have hclosing : Counted (daemon.onClose prims ref slot) := by
    unfold onClose resetConn releaseAddr
    apply hcounted.of_same
    all_goals split <;> split <;> rfl
  refine hclosing.freeSlot ?_ hopen
  unfold onClose
  rw [slotAt_releaseAddr, slotAt_resetConn, hslot]

theorem Counted.accept (hcounted : Counted daemon) : Counted (daemon.accept config listener) := by
  unfold Daemon.accept
  split
  · exact hcounted
  split
  · exact hcounted
  rename_i index htake
  obtain ⟨old, hold, hfree⟩ := takeSlot_free htake
  have hcount := @countP_setSlot daemon { kind := listener.kind, index := index }
    (daemon.acceptedSlot config listener) taken old hold
  have hold : ¬taken old = true := by
    rw [taken_eq_true]
    exact not_not.mpr hfree
  have hnew : taken (daemon.acceptedSlot config listener) = true := taken_eq_true.mpr nofun
  rw [if_neg hold, if_pos hnew, Nat.add_zero] at hcount
  intro kind
  have hbefore := hcounted kind
  obtain ⟨listenerKind, isAdmin, ws, proxy⟩ := listener
  cases listenerKind with
  | proto =>
    cases kind with
    | proto => exact (congrArg (· + 1) hbefore).trans hcount.symm
    | loc => exact hbefore
  | loc =>
    cases kind with
    | proto => exact hbefore
    | loc => exact (congrArg (· + 1) hbefore).trans hcount.symm

theorem Counted.move (hmove : LoopMove prims config ref before after) (hcounted : Counted before) :
    Counted after := by
  cases hmove with
  | slot hslot hmove => exact hcounted.setSlot hslot hmove.free.symm
  | closed => exact hcounted.closeSlot
  | around => exact hcounted.of_same rfl rfl rfl rfl

theorem Counted.moves (hmoves : StepMoves prims config ref before after)
    (hcounted : Counted before) : Counted after := by
  cases hmoves with
  | moved hmoves => exact hmoves.invariant (fun _ _ => Counted.move) hcounted
  | @settled slot _ io hslot hactive =>
    unfold settleAddr
    have hsettled := @same_onAddr { slot with io := io, addrSettled := true } before.shared prims
    refine Counted.setSlot (hcounted.of_same rfl rfl rfl rfl) (by exact hslot) ?_
    split
    · exact iff_of_false (by rw [hactive]; exact nofun) nofun
    · exact hsettled.free.symm

theorem Counted.stop (hcounted : Counted daemon) : Counted daemon.stop := by
  have hdrained : taken ∘ drainSlot = taken := by
    funext slot
    exact decide_eq_decide.mpr (not_congr free_drainSlot)
  intro kind
  cases kind with
  | proto =>
    show daemon.inUse = (daemon.slots.map drainSlot).countP taken
    rw [List.countP_map, hdrained]
    exact hcounted .proto
  | loc =>
    show daemon.localInUse = (daemon.localSlots.map drainSlot).countP taken
    rw [List.countP_map, hdrained]
    exact hcounted .loc

theorem Counted.step {event : LoopEvent} (hcounted : Counted daemon)
    (hallowed : daemon.allowed event) : Counted (daemon.step prims config event) := by
  cases event with
  | accept => exact hcounted.accept
  | receive | serve | written | close => exact hcounted.moves (step_moves hallowed rfl)
  | stop => exact hcounted.stop
  | tick => exact hcounted.of_same rfl rfl rfl rfl
  | sweep faults =>
    show Counted (daemon.maybeSweep faults)
    unfold maybeSweep
    split
    · exact hcounted
    · exact hcounted.of_same rfl rfl rfl rfl

theorem counted_start : Counted (start slotCount localCount shared) := by
  have hblank : ∀ kind, taken (blank kind) = false := fun _ => rfl
  intro kind
  cases kind with
  | proto =>
    show 0 = (List.replicate slotCount (blank .proto)).countP taken
    rw [List.countP_replicate, hblank, if_neg Bool.false_ne_true]
  | loc =>
    show 0 = (List.replicate localCount (blank .loc)).countP taken
    rw [List.countP_replicate, hblank, if_neg Bool.false_ne_true]

theorem Counted.reaches (hcounted : Counted before) (hreaches : Reaches prims config before after) :
    Counted after := by
  obtain ⟨events, hrun⟩ := hreaches
  exact hrun.invariant (fun _ _ hcounted hallowed => hcounted.step hallowed) hcounted

/-- Below the size of its pool, a counter that is exact says that a slot is free. -/
theorem Counted.takeSlot (hcounted : Counted daemon)
    (hbelow : daemon.counter kind < (daemon.pool kind).length) :
    (daemon.takeSlot kind).isSome = true := by
  by_contra hnone
  have hall : ∀ slot ∈ daemon.pool kind, taken slot = true := by
    intro slot hmem
    rw [taken_eq_true]
    intro hfree
    unfold Daemon.takeSlot at hnone
    rw [List.findIdx?_isSome] at hnone
    exact hnone (List.any_eq_true.mpr ⟨slot, hmem, decide_eq_true hfree⟩)
  rw [hcounted kind, List.countP_eq_length.mpr hall] at hbelow
  exact lt_irrefl _ hbelow

end Daemon

open Daemon

variable {prims : DaemonPrimitives} {config : AuthdConfig} {daemon : Daemon}

theorem rested_of_run {events : List TurnEvent}
    (hrun : (loopMachine prims config).Run (start slotCount localCount shared) events daemon) :
    Rested daemon := by
  have hstep : ∀ daemon event, Rested daemon → (loopMachine prims config).allowed daemon event →
      Rested ((loopMachine prims config).step daemon event) := by
    intro daemon event hrested _
    cases event with
    | turn env =>
      show Rested (daemon.turn prims config env)
      exact rested_turn hrested
    | tick nowMs nowUnix =>
      show Rested (daemon.tick nowMs nowUnix)
      exact hrested.closes fun _ _ hslot => .inl hslot
    | sweep faults =>
      show Rested (daemon.maybeSweep faults)
      unfold maybeSweep
      split
      · exact hrested
      · exact hrested.closes fun _ _ hslot => .inl hslot
    | stop => exact rested_stop
  exact hrun.invariant hstep rested_start

/-- Each time the loop polls, an active slot that has not failed and has nothing to write holds no
complete frame or line and has room for another byte. The counters are the numbers of slots in use,
also while connections are accepted, so that below the size of its pool a free slot is found. -/
theorem polls_without_stall {slotCount localCount : ℕ} {shared : Shared} {events : List TurnEvent}
    (hrun : (loopMachine prims config).Run (start slotCount localCount shared) events daemon) :
    (∀ ref slot, (daemon.closeDrained prims).slotAt ref = some slot → slot.state = .active →
      slot.io.failed = false → slot.io.pending = 0 →
        slot.io.complete ref.kind = false ∧ 0 < slot.io.inRoom) ∧
      ∀ (listeners : List Listener) (kind : SlotKind),
        let accepting := listeners.foldl (accept config) (daemon.closeDrained prims)
        accepting.counter kind =
            (accepting.pool kind).countP (fun slot => decide (slot.state ≠ .free)) ∧
          (accepting.counter kind < (accepting.pool kind).length →
            (accepting.takeSlot kind).isSome = true) := by
  have hrested : Rested (daemon.closeDrained prims) :=
    (rested_of_run hrun).closes (closes_foldl (fun _ _ => closes_closeIf) _ daemon)
  have hdrained : Reaches prims config daemon (daemon.closeDrained prims) :=
    reaches_foldl (fun _ _ => works_closeIf.reaches) _ daemon
  have hcounted : Counted (daemon.closeDrained prims) :=
    (counted_start.reaches (reaches_of_run hrun)).reaches hdrained
  constructor
  · intro ref slot hslot hactive hlive hpending
    obtain ⟨hsound, hserved⟩ := hrested ref slot hslot hactive hlive
    exact ⟨hserved hpending, hsound.room hlive (hserved hpending)⟩
  intro listeners kind
  have haccepting := hcounted.reaches (reaches_foldl
    (fun daemon listener => @reaches_step prims config daemon (.accept listener) trivial)
    listeners _)
  exact ⟨haccepting kind, haccepting.takeSlot⟩

/-- A turn in which a slot is read and all that is queued for it is written. -/
def sampleTurn (accepts : List Listener) (available : Bytes) : TurnEvent :=
  .turn
    { accepts := accepts
      polls := fun _ =>
        { pollIn := true, pollOut := true, pollErr := false, pollHup := false
          read := if available = [] then .again else .bytes available
          write := .count 65536
          serves := fun _ => sampleServe 0 0 } }

/-- A local client sends two requests and the start of a third at once, and waits. -/
def sampleTurns : List TurnEvent :=
  [sampleTurn [{ kind := .loc, isAdmin := true, ws := false, proxy := false }] [],
    sampleTurn [] (ascii "PING\nPING\nPI"), sampleTurn [] [], sampleTurn [] []]

/-- The daemon after these turns, as the loop polls again. -/
def samplePolling : Daemon :=
  (sampleTurns.foldl (loopMachine .sample sampleConfig).step (start 2 2 sampleShared)).closeDrained
    .sample

theorem polls_without_stall_sampleTurns :
    ∃ slot, samplePolling.slotAt (localRef 0) = some slot ∧ slot.state = .active ∧
      slot.io.input = ascii "PI" ∧ slot.io.complete .loc = false ∧ 0 < slot.io.inRoom ∧
      samplePolling.counter .loc = 1 ∧ (samplePolling.takeSlot .loc).isSome = true := by
  have hrun : (loopMachine .sample sampleConfig).Run (start 2 2 sampleShared) sampleTurns
      (sampleTurns.foldl (loopMachine .sample sampleConfig).step (start 2 2 sampleShared)) :=
    .of_allowed fun _ _ _ => trivial
  have hfacts : (samplePolling.slotAt (localRef 0)).any (fun slot =>
      decide (slot.state = .active ∧ slot.io.failed = false ∧ slot.io.pending = 0 ∧
        slot.io.input = ascii "PI")) = true ∧
      samplePolling.counter .loc = 1 ∧
      samplePolling.counter .loc < (samplePolling.pool .loc).length := by
    decide +kernel
  obtain ⟨hpolls, hcounted⟩ := polls_without_stall hrun
  have hfree := (hcounted [] .loc).2
  rw [List.foldl_nil] at hfree
  change samplePolling.counter .loc < (samplePolling.pool .loc).length →
    (samplePolling.takeSlot .loc).isSome = true at hfree
  change ∀ ref slot, samplePolling.slotAt ref = some slot → _ at hpolls
  generalize samplePolling = polling at hfacts hfree hpolls ⊢
  obtain ⟨hany, hcounter, hbelow⟩ := hfacts
  obtain ⟨slot, hslot, hholds⟩ := (Option.any_eq_true _ _).mp hany
  obtain ⟨hactive, hlive, hpending, hinput⟩ := of_decide_eq_true hholds
  obtain ⟨hserved, hroom⟩ := hpolls _ slot hslot hactive hlive hpending
  exact ⟨slot, hslot, hactive, hinput, hserved, hroom, hcounter, hfree hbelow⟩

end MldsaAuth.Authd
