/-
# The preamble in pieces

The PROXY preamble arrives in pieces of any size. Two pieces amount to their concatenation, so
the verdict, the address and the number of bytes taken depend on the stream only, and they are
what the layout of a preamble says.
-/

import MldsaAuth.Authd.ProxyV2
import Mathlib.Data.List.Induction

namespace MldsaAuth.Authd

open Foundation

variable {want count : ℕ} {status : ProxyV2Status} {rest : Bytes} {next : ProxyV2}

namespace ProxyV2

variable {proxy : ProxyV2} {first second : Bytes}

/-- What is still short after the first piece is staged from the second one. -/
theorem stage_append_of_short (hshort : proxy.staged.length + first.length ≤ want) :
    proxy.stage want (first ++ second) = (proxy.stage want first).1.stage want second := by
  have hfirst : first.length ≤ want - proxy.staged.length := by omega
  have hleft : want - (proxy.staged.length + first.length) =
      want - proxy.staged.length - first.length := by omega
  unfold stage
  simp only [List.take_append, List.drop_append, List.take_of_length_le hfirst,
    List.drop_of_length_le hfirst, List.length_append, List.append_assoc, hleft, List.nil_append]

/-- Once enough is staged the second piece is left over. -/
theorem stage_append_of_full (hfull : want ≤ proxy.staged.length + first.length) :
    proxy.stage want (first ++ second) =
      ((proxy.stage want first).1, (proxy.stage want first).2 ++ second) := by
  have hcount : want - proxy.staged.length ≤ first.length := by omega
  unfold stage
  dsimp only
  rw [List.take_append_of_le_length hcount, List.drop_append_of_le_length hcount]

/-- With enough staged, nothing is taken. -/
theorem stage_of_full (hfull : want ≤ proxy.staged.length) (data : Bytes) :
    proxy.stage want data = (proxy, data) := by
  unfold stage
  rw [Nat.sub_eq_zero_of_le hfull]
  simp only [List.take_zero, List.append_nil, List.drop_zero]

theorem length_staged_stage (proxy : ProxyV2) (want : ℕ) (data : Bytes) :
    (proxy.stage want data).1.staged.length =
      proxy.staged.length + min (want - proxy.staged.length) data.length := by
  simp [stage]

theorem stage_snd_of_short {data : Bytes} (hshort : proxy.staged.length + data.length ≤ want) :
    (proxy.stage want data).2 = [] :=
  List.drop_of_length_le (by omega)

/-- The rest of a reading that has stopped before the end of the preamble, or after it. -/
def resume (reading : ProxyV2Status × Bytes × ProxyV2) (data : Bytes) :
    ProxyV2Status × Bytes × ProxyV2 :=
  if reading.2.2.done then (reading.1, reading.2.1 ++ data, reading.2.2)
  else reading.2.2.consume data

theorem resume_of_done (hdone : next.done = true) (data : Bytes) :
    resume (status, rest, next) data = (status, rest ++ data, next) := if_pos hdone

theorem resume_of_open (hopen : next.done = false) (hheader : next.hdrOk = true) (data : Bytes) :
    resume (status, rest, next) data = next.consumeBody data := by
  simp only [resume, consume, hopen, hheader, Bool.false_eq_true, if_false, if_true]

theorem consumeBody_of_short (hshort : proxy.staged.length + first.length < proxy.want) :
    proxy.consumeBody first = (.needMore, [], (proxy.stage proxy.want first).1) := by
  have hstaged := length_staged_stage proxy proxy.want first
  have hleft : (proxy.stage proxy.want first).2 = [] := stage_snd_of_short hshort.le
  have hwant : (proxy.stage proxy.want first).1.want = proxy.want := rfl
  unfold consumeBody
  dsimp only
  rw [if_pos (by omega), hleft]

theorem consumeBody_of_full (hfull : proxy.want ≤ proxy.staged.length + first.length) :
    proxy.consumeBody first = let staged := proxy.stage proxy.want first
      if 0 < proxy.skip - staged.2.length then
        (.needMore, staged.2.drop proxy.skip,
          { staged.1 with skip := proxy.skip - staged.2.length })
      else
        (staged.1.settle.1, staged.2.drop proxy.skip,
          { staged.1 with
            skip := proxy.skip - staged.2.length
            done := true
            result := staged.1.settle.1
            addr := staged.1.settle.2 }) := by
  have hstaged := length_staged_stage proxy proxy.want first
  have hwant : (proxy.stage proxy.want first).1.want = proxy.want := rfl
  unfold consumeBody
  dsimp only
  rw [if_neg (by omega)]
  rfl

/-- A body is read in two pieces as in one. -/
theorem consumeBody_append (hopen : proxy.done = false) (hheader : proxy.hdrOk = true) :
    proxy.consumeBody (first ++ second) = resume (proxy.consumeBody first) second := by
  by_cases hshort : proxy.staged.length + first.length < proxy.want
  · rw [consumeBody_of_short hshort, resume_of_open (by exact hopen) (by exact hheader)]
    unfold consumeBody
    rw [stage_append_of_short hshort.le]
    rfl
  · have hfull : proxy.want ≤ proxy.staged.length + first.length := by omega
    have hboth : proxy.want ≤ proxy.staged.length + (first ++ second).length := by
      rw [List.length_append]
      omega
    rw [consumeBody_of_full hfull, consumeBody_of_full hboth, stage_append_of_full hfull]
    have hlength : proxy.want ≤ (proxy.stage proxy.want first).1.staged.length := by
      rw [length_staged_stage]
      omega
    have hwant : (proxy.stage proxy.want first).1.want = proxy.want := rfl
    have hdone : (proxy.stage proxy.want first).1.done = false := hopen
    have hhdr : (proxy.stage proxy.want first).1.hdrOk = true := hheader
    generalize proxy.stage proxy.want first = staged at hlength hwant hdone hhdr ⊢
    obtain ⟨next, rest⟩ := staged
    dsimp only at hlength hwant hdone hhdr ⊢
    rw [← hwant] at hlength
    by_cases hskip : rest.length < proxy.skip
    · -- the skipping goes on in the second piece
      have hleft : 0 < proxy.skip - rest.length := by omega
      have hdrop : rest.drop proxy.skip = [] := List.drop_of_length_le hskip.le
      rw [if_pos hleft, resume_of_open (by exact hdone) (by exact hhdr), List.drop_append,
        hdrop, List.nil_append, List.length_append, ← Nat.sub_sub]
      have hbody := @consumeBody_of_full
        { next with skip := proxy.skip - rest.length } second (by dsimp only; omega)
      rw [hbody, stage_of_full (by exact hlength)]
      rfl
    · have hskipped : proxy.skip - rest.length = 0 := by omega
      have hskippedBoth : proxy.skip - (rest ++ second).length = 0 := by
        rw [List.length_append]
        omega
      rw [hskipped, hskippedBoth, if_neg (lt_irrefl 0), if_neg (lt_irrefl 0),
        List.drop_append_of_le_length (by omega)]
      rfl

/-- The preamble is read in two pieces as in one. -/
theorem consume_append (hopen : proxy.done = false) :
    proxy.consume (first ++ second) = resume (proxy.consume first) second := by
  by_cases hheader : proxy.hdrOk = true
  · simp only [consume, hopen, Bool.false_eq_true, if_false, hheader, if_true]
    exact consumeBody_append hopen hheader
  have hplain : proxy.hdrOk = false := Bool.eq_false_iff.mpr hheader
  have hstaged := length_staged_stage proxy proxyV2HdrLen first
  have hunfold : ∀ data, proxy.consume data =
      let staged := proxy.stage proxyV2HdrLen data
      if staged.1.staged.length < proxyV2HdrLen then (.needMore, staged.2, staged.1)
      else if staged.1.headerOk then
        consumeBody
          { staged.1 with
            want := proxyV2HdrLen + staged.1.blockLen
            skip := staged.1.bodyLen - staged.1.blockLen
            hdrOk := true }
          staged.2
      else (.err, staged.2, { staged.1 with done := true, result := .err }) := by
    intro data
    simp only [consume, hopen, hplain, Bool.false_eq_true, if_false]
  by_cases hshort : proxy.staged.length + first.length < proxyV2HdrLen
  · have hnext : (proxy.stage proxyV2HdrLen first).1.done = false := hopen
    have hnextPlain : (proxy.stage proxyV2HdrLen first).1.hdrOk = false := hplain
    have hstill : (proxy.stage proxyV2HdrLen first).1.staged.length < proxyV2HdrLen := by omega
    rw [hunfold first, hunfold (first ++ second), stage_append_of_short hshort.le]
    dsimp only
    rw [if_pos hstill, resume, hnext]
    simp only [consume, hnext, hnextPlain, Bool.false_eq_true, if_false]
  · have hfull : proxyV2HdrLen ≤ proxy.staged.length + first.length := by omega
    rw [hunfold first, hunfold (first ++ second), stage_append_of_full hfull]
    dsimp only
    have hnot : ¬(proxy.stage proxyV2HdrLen first).1.staged.length < proxyV2HdrLen := by omega
    rw [if_neg hnot, if_neg hnot]
    split
    · exact consumeBody_append hopen rfl
    · rfl

/-- What a reading leaves: an open preamble has taken everything and wants more, a settled one
keeps its verdict. -/
structure Shape (data : Bytes) (reading : ProxyV2Status × Bytes × ProxyV2) : Prop where
  le : reading.2.1.length ≤ data.length
  unsettled : reading.2.2.done = false → reading.1 = .needMore ∧ reading.2.1 = []
  settled : reading.2.2.done = true → reading.2.2.result = reading.1

theorem consume_shape (proxy : ProxyV2) (data : Bytes) : Shape data (proxy.consume data) := by
  have hbody : ∀ (body : ProxyV2) (data : Bytes), body.done = false →
      Shape data (body.consumeBody data) := by
    intro body data hopen
    by_cases hshort : body.staged.length + data.length < body.want
    · rw [consumeBody_of_short hshort]
      exact ⟨Nat.zero_le _, fun _ => ⟨rfl, rfl⟩, fun hdone => nomatch hopen.symm.trans hdone⟩
    have hle : (body.stage body.want data).2.length ≤ data.length := by
      rw [stage, List.length_drop]
      exact Nat.sub_le _ _
    rw [consumeBody_of_full (not_lt.mp hshort)]
    dsimp only
    split
    · refine ⟨(List.length_drop.trans_le (Nat.sub_le _ _)).trans hle, fun _ => ⟨rfl, ?_⟩,
        fun hdone => nomatch hopen.symm.trans hdone⟩
      exact List.drop_of_length_le (by omega)
    · exact ⟨(List.length_drop.trans_le (Nat.sub_le _ _)).trans hle, nofun, fun _ => rfl⟩
  unfold consume
  split
  · rename_i hdone
    exact ⟨le_rfl, fun hopen => (nomatch hopen.symm.trans hdone), fun _ => rfl⟩
  rename_i hopen
  have hopen : proxy.done = false := Bool.eq_false_iff.mpr hopen
  split
  · exact hbody proxy data hopen
  dsimp only
  split
  · rename_i hshort
    rw [length_staged_stage] at hshort
    have hnone : (proxy.stage proxyV2HdrLen data).2 = [] := stage_snd_of_short (by omega)
    rw [hnone]
    exact ⟨Nat.zero_le _, fun _ => ⟨rfl, rfl⟩, fun hdone => nomatch hopen.symm.trans hdone⟩
  have hle : (proxy.stage proxyV2HdrLen data).2.length ≤ data.length := by
    rw [stage, List.length_drop]
    exact Nat.sub_le _ _
  split
  · have hrest := hbody { (proxy.stage proxyV2HdrLen data).1 with
        want := proxyV2HdrLen + (proxy.stage proxyV2HdrLen data).1.blockLen
        skip := (proxy.stage proxyV2HdrLen data).1.bodyLen -
          (proxy.stage proxyV2HdrLen data).1.blockLen
        hdrOk := true } (proxy.stage proxyV2HdrLen data).2 hopen
    exact ⟨hrest.le.trans hle, hrest.unsettled, hrest.settled⟩
  · exact ⟨hle, nofun, fun _ => rfl⟩

/-! ## Any pieces -/

/-- One call after another: the last verdict, the bytes taken so far, and the parser. -/
def consumeAll (pieces : List Bytes) : ProxyV2Status × ℕ × ProxyV2 :=
  pieces.foldl (fun (_, used, proxy) data =>
    let (status, rest, proxy) := proxy.consume data
    (status, used + (data.length - rest.length), proxy)) (.needMore, 0, init)

/-- Any pieces amount to their concatenation. -/
theorem consumeAll_eq (pieces : List Bytes) :
    consumeAll pieces = ((init.consume pieces.flatten).1,
      pieces.flatten.length - (init.consume pieces.flatten).2.1.length,
      (init.consume pieces.flatten).2.2) := by
  induction pieces using List.reverseRecOn with
  | nil => rfl
  | append_singleton pieces data ih =>
    have hshape := consume_shape init pieces.flatten
    rw [consumeAll, List.foldl_append, ← consumeAll, ih, List.flatten_append,
      List.flatten_singleton, consume_append rfl]
    generalize init.consume pieces.flatten = reading at hshape ⊢
    obtain ⟨status, rest, proxy⟩ := reading
    dsimp only [List.foldl_cons, List.foldl_nil] at hshape ⊢
    cases hdone : proxy.done with
    | true =>
      rw [resume_of_done hdone, consume, if_pos hdone, hshape.settled hdone]
      have hle := hshape.le
      simp only [List.length_append, Nat.sub_self, Nat.add_zero, Nat.add_sub_add_right]
    | false =>
      have hafter := (consume_shape proxy data).le
      obtain ⟨-, hrest⟩ := hshape.unsettled hdone
      obtain rfl : rest = [] := hrest
      rw [resume, if_neg (by rw [hdone]; exact nofun), List.length_append, List.length_nil,
        Nat.sub_zero, Nat.add_sub_assoc hafter]

/-! ## The layout -/

section Layout

variable {stream : Bytes}

variable (stream)

/-- The command, the address family and the length of the body that a stream announces. -/
def commandOf : ℕ := (stream.getD 12 0).toNat % 16
def familyOf : ℕ := (stream.getD 13 0).toNat / 16
def bodyLenOf : ℕ := beNat ((stream.drop 14).take 2)

/-- A fixed header of the published layout, within the limits of the daemon. -/
@[mk_iff]
structure HeaderFits : Prop where
  whole : 16 ≤ stream.length
  sig : stream.take 12 = proxyV2Sig
  version : (stream.getD 12 0).toNat / 16 = 2
  command : commandOf stream ≤ 1
  body : bodyLenOf stream ≤ proxyV2LenMax
  block : commandOf stream = 1 → addrBlockLen (familyOf stream) ≤ bodyLenOf stream

/-- A stream that begins with a whole preamble. -/
def Accepted : Prop :=
  HeaderFits stream ∧ 16 + bodyLenOf stream ≤ stream.length

variable {stream}

theorem getD_take {index : ℕ} (hlt : index < count) :
    (stream.take count).getD index 0 = stream.getD index 0 := by
  simp only [List.getD_eq_getElem?_getD, List.getElem?_take, if_pos hlt]

/-- What is staged of the stream says the same. -/
theorem fields_eq (hstaged : proxy.staged = stream.take count) (hcount : 16 ≤ count) :
    proxy.command = commandOf stream ∧ proxy.family = familyOf stream ∧
      proxy.bodyLen = bodyLenOf stream := by
  have hmin : min 2 (count - 14) = 2 := by omega
  unfold command family bodyLen commandOf familyOf bodyLenOf
  rw [hstaged, getD_take (by omega), getD_take (by omega), List.drop_take, List.take_take, hmin]
  exact ⟨rfl, rfl, rfl⟩

theorem headerOk_iff (hstaged : proxy.staged = stream.take 16) (hwhole : 16 ≤ stream.length) :
    proxy.headerOk = true ↔ HeaderFits stream := by
  obtain ⟨hcommand, hfamily, hbody⟩ := fields_eq hstaged le_rfl
  have hblock : proxy.blockLen ≤ bodyLenOf stream ↔ (commandOf stream = 1 →
      addrBlockLen (familyOf stream) ≤ bodyLenOf stream) := by
    unfold blockLen
    rw [hcommand, hfamily]
    split <;> simp_all
  simp only [headerOk, Bool.and_eq_true, decide_eq_true_eq, headerFits_iff, hbody, hblock,
    hcommand, version, hstaged, List.take_take, getD_take (show 12 < 16 by decide), hwhole,
    true_and, and_assoc]
  rfl

theorem sourceAddr_eq {count size : ℕ} (hstaged : proxy.staged = stream.take count)
    (hsize : 16 + size ≤ count) (hlength : 16 + size ≤ stream.length) :
    ∃ addr, proxy.sourceAddr size = some addr ∧ addr.toList = (stream.drop 16).take size := by
  have hdrop : (proxy.staged.drop proxyV2HdrLen).take size = (stream.drop 16).take size := by
    rw [hstaged, proxyV2HdrLen, List.drop_take, List.take_take, min_eq_left (by omega)]
  have hle : size ≤ (proxy.staged.drop proxyV2HdrLen).length := by
    rw [hstaged, proxyV2HdrLen, List.length_drop, List.length_take]
    omega
  refine ⟨⟨(proxy.staged.drop proxyV2HdrLen).take size, by simpa using hle⟩, ?_, hdrop⟩
  rw [sourceAddr, takeBlob, dif_pos hle]
  rfl

/-- A stream announces an IPv4 or an IPv6 address. -/
abbrev Addressed (stream : Bytes) : Prop :=
  commandOf stream = 1 ∧ (familyOf stream = 1 ∨ familyOf stream = 2)

/-- The verdict on a whole preamble, and the address it establishes. -/
structure Establishes (stream : Bytes) (status : ProxyV2Status) (addr : AuthdAddr) : Prop where
  status : status = if Addressed stream then .ok else .noAddr
  v4 : ∀ source, addr = .v4 source ↔ commandOf stream = 1 ∧ familyOf stream = 1 ∧
    source.toList = (stream.drop 16).take 4
  v6 : ∀ source, addr = .v6 source ↔ commandOf stream = 1 ∧ familyOf stream = 2 ∧
    source.toList = (stream.drop 16).take 16

theorem establishes_settle (hstaged : proxy.staged = stream.take count)
    (hcount : 16 + proxy.blockLen = count) (haddr : proxy.addr = .none)
    (haccepted : Accepted stream) : Establishes stream proxy.settle.1 proxy.settle.2 := by
  obtain ⟨hfits, hwhole⟩ := haccepted
  obtain ⟨hcommand, hfamily, -⟩ := fields_eq hstaged (by omega)
  have hblock := hfits.block
  have hknown := hfits.command
  unfold blockLen at hcount
  rw [hcommand, hfamily] at hcount
  unfold settle
  rw [hcommand, hfamily, haddr]
  by_cases hlocal : commandOf stream = 0
  · rw [if_pos hlocal]
    exact ⟨(if_neg (by omega)).symm, fun _ => ⟨nofun, fun hsource => by omega⟩,
      fun _ => ⟨nofun, fun hsource => by omega⟩⟩
  have hproxy : commandOf stream = 1 := by omega
  have hfit := hblock hproxy
  rw [if_pos hproxy] at hcount
  rw [if_neg hlocal]
  by_cases hfour : familyOf stream = 1
  · rw [hfour, addrBlockLen] at hcount hfit
    obtain ⟨source, hsource, hbytes⟩ :=
      @sourceAddr_eq proxy stream count 4 hstaged (by omega) (by omega)
    rw [if_pos hfour, hsource]
    refine ⟨(if_pos ⟨hproxy, .inl hfour⟩).symm, fun other => ⟨fun hsame => ?_, fun hother => ?_⟩,
      fun _ => ⟨nofun, fun hsource => by omega⟩⟩
    · exact AuthdAddr.v4.inj hsame ▸ ⟨hproxy, hfour, hbytes⟩
    · exact congrArg _ (Blob.toList_injective (hbytes.trans hother.2.2.symm))
  rw [if_neg hfour]
  by_cases hsix : familyOf stream = 2
  · rw [hsix, addrBlockLen] at hcount hfit
    obtain ⟨source, hsource, hbytes⟩ :=
      @sourceAddr_eq proxy stream count 16 hstaged (by omega) (by omega)
    rw [if_pos hsix, hsource]
    refine ⟨(if_pos ⟨hproxy, .inr hsix⟩).symm, fun _ => ⟨nofun, fun hsource => by omega⟩,
      fun other => ⟨fun hsame => ?_, fun hother => ?_⟩⟩
    · exact AuthdAddr.v6.inj hsame ▸ ⟨hproxy, hsix, hbytes⟩
    · exact congrArg _ (Blob.toList_injective (hbytes.trans hother.2.2.symm))
  · rw [if_neg hsix]
    exact ⟨(if_neg (by omega)).symm, fun _ => ⟨nofun, fun hsource => by omega⟩,
      fun _ => ⟨nofun, fun hsource => by omega⟩⟩

/-- Every outcome of reading a stream from its start. -/
inductive StreamView (stream : Bytes) (reading : ProxyV2Status × Bytes × ProxyV2) : Prop
  | wants (hshort : ¬Accepted stream) (hheader : 16 ≤ stream.length → HeaderFits stream)
      (hstatus : reading.1 = .needMore) (haddr : reading.2.2.addr = .none)
  | malformed (hwhole : 16 ≤ stream.length) (hbad : ¬HeaderFits stream)
      (hstatus : reading.1 = .err) (haddr : reading.2.2.addr = .none)
  | settled (haccepted : Accepted stream)
      (hrest : reading.2.1 = stream.drop (16 + bodyLenOf stream))
      (hsettled : Establishes stream reading.1 reading.2.2.addr)

theorem StreamView.verdict {reading : ProxyV2Status × Bytes × ProxyV2}
    (hview : StreamView stream reading) :
    (reading.1 = .ok ↔ Accepted stream ∧ Addressed stream) ∧
      (reading.1 = .noAddr ↔ Accepted stream ∧ ¬Addressed stream) ∧
      (reading.1 = .err ↔ 16 ≤ stream.length ∧ ¬HeaderFits stream) := by
  cases hview with
  | wants hshort hheader hstatus =>
    rw [hstatus]
    exact ⟨⟨nofun, fun hok => absurd hok.1 hshort⟩, ⟨nofun, fun hno => absurd hno.1 hshort⟩,
      ⟨nofun, fun hbad => absurd (hheader hbad.1) hbad.2⟩⟩
  | malformed hwhole hbad hstatus =>
    rw [hstatus]
    exact ⟨⟨nofun, fun hok => absurd hok.1.1 hbad⟩, ⟨nofun, fun hno => absurd hno.1.1 hbad⟩,
      ⟨fun _ => ⟨hwhole, hbad⟩, fun _ => rfl⟩⟩
  | settled haccepted _ hsettled =>
    rw [hsettled.status]
    split_ifs with haddressed
    · exact ⟨⟨fun _ => ⟨haccepted, haddressed⟩, fun _ => rfl⟩,
        ⟨nofun, fun hno => absurd haddressed hno.2⟩, ⟨nofun, fun hbad => absurd haccepted.1 hbad.2⟩⟩
    · exact ⟨⟨nofun, fun hok => absurd hok.2 haddressed⟩,
        ⟨fun _ => ⟨haccepted, haddressed⟩, fun _ => rfl⟩,
        ⟨nofun, fun hbad => absurd haccepted.1 hbad.2⟩⟩

/-- A whole header is followed by its body. -/
theorem consumeBody_view {header body : ProxyV2} (hwhole : 16 ≤ stream.length)
    (hstaged : header.staged = stream.take 16) (hok : header.headerOk = true)
    (haddr : header.addr = .none)
    (hbody : body = { header with
      want := proxyV2HdrLen + header.blockLen
      skip := header.bodyLen - header.blockLen
      hdrOk := true }) : StreamView stream (body.consumeBody (stream.drop 16)) := by
  have hfits := (headerOk_iff hstaged hwhole).mp hok
  obtain ⟨hcommand, hfamily, hlen⟩ := fields_eq hstaged le_rfl
  have hblock : header.blockLen ≤ bodyLenOf stream := by
    have hle := hfits.block
    unfold blockLen
    rw [hcommand, hfamily]
    split_ifs with hproxy
    · exact hle hproxy
    · exact Nat.zero_le _
  have hlength : body.staged.length = 16 := by
    rw [hbody, hstaged, List.length_take]
    omega
  have hwant : body.want = 16 + header.blockLen := by rw [hbody]; rfl
  have hskip : body.skip = bodyLenOf stream - header.blockLen := by rw [hbody, ← hlen]
  by_cases hshort : body.staged.length + (stream.drop 16).length < body.want
  · rw [consumeBody_of_short hshort]
    refine .wants (fun haccepted => ?_) (fun _ => hfits) rfl (hbody ▸ haddr)
    have hall := haccepted.2
    rw [List.length_drop] at hshort
    omega
  · rw [consumeBody_of_full (not_lt.mp hshort)]
    have hrest : (body.stage body.want (stream.drop 16)).2 =
        stream.drop (16 + header.blockLen) := by
      unfold stage
      dsimp only
      rw [hlength, hwant, Nat.add_sub_cancel_left, List.drop_drop]
    have htaken : (body.stage body.want (stream.drop 16)).1.staged =
        stream.take (16 + header.blockLen) := by
      unfold stage
      dsimp only
      rw [hlength, hwant, Nat.add_sub_cancel_left, hbody, hstaged, List.take_add]
    have hnone : (body.stage body.want (stream.drop 16)).1.addr = .none := by
      rw [stage, hbody]
      exact haddr
    dsimp only
    rw [hrest, List.length_drop, List.drop_drop, hskip]
    rw [List.length_drop] at hshort
    split
    · refine .wants (fun haccepted => ?_) (fun _ => hfits) rfl hnone
      have hall := haccepted.2
      omega
    have haccepted : Accepted stream := ⟨hfits, by omega⟩
    refine .settled haccepted (by dsimp only; congr 1; omega) ?_
    refine establishes_settle htaken ?_ hnone haccepted
    have hfields := fields_eq htaken (by omega)
    unfold blockLen
    rw [hfields.1, hfields.2.1, hcommand, hfamily]

theorem consume_view (stream : Bytes) : StreamView stream (init.consume stream) := by
  let header : ProxyV2 := { init with staged := stream.take 16 }
  have hconsume : init.consume stream =
      if header.staged.length < 16 then (.needMore, stream.drop 16, header)
      else if header.headerOk then
        consumeBody
          { header with
            want := proxyV2HdrLen + header.blockLen
            skip := header.bodyLen - header.blockLen
            hdrOk := true }
          (stream.drop 16)
      else (.err, stream.drop 16, { header with done := true, result := .err }) := rfl
  have hlength : header.staged.length = min 16 stream.length := List.length_take
  rw [hconsume]
  split
  · exact .wants (fun haccepted => absurd haccepted.1.whole (by omega)) (by omega) rfl rfl
  have hwhole : 16 ≤ stream.length := by omega
  split_ifs with hok
  · exact consumeBody_view hwhole rfl hok rfl rfl
  exact .malformed hwhole (fun hfits => hok ((headerOk_iff rfl hwhole).mpr hfits)) rfl rfl

/-- The verdict, the address and the number of bytes taken depend on the stream, not on how it is
split; the verdict and the address are those of the layout; and a settled parser takes nothing. -/
theorem preamble_in_pieces (pieces : List Bytes) :
    consumeAll pieces = consumeAll [pieces.flatten] ∧
      ((consumeAll pieces).1 = .ok ↔ Accepted pieces.flatten ∧ Addressed pieces.flatten) ∧
      ((consumeAll pieces).1 = .noAddr ↔ Accepted pieces.flatten ∧ ¬Addressed pieces.flatten) ∧
      ((consumeAll pieces).1 = .err ↔
        16 ≤ pieces.flatten.length ∧ ¬HeaderFits pieces.flatten) ∧
      (Accepted pieces.flatten → (consumeAll pieces).2.1 = 16 + bodyLenOf pieces.flatten) ∧
      (∀ source, (consumeAll pieces).2.2.addr = .v4 source ↔
        Accepted pieces.flatten ∧ commandOf pieces.flatten = 1 ∧ familyOf pieces.flatten = 1 ∧
          source.toList = (pieces.flatten.drop 16).take 4) ∧
      (∀ source, (consumeAll pieces).2.2.addr = .v6 source ↔
        Accepted pieces.flatten ∧ commandOf pieces.flatten = 1 ∧ familyOf pieces.flatten = 2 ∧
          source.toList = (pieces.flatten.drop 16).take 16) ∧
      ((consumeAll pieces).1 ≠ .needMore → ∀ data,
        (consumeAll pieces).2.2.consume data =
          ((consumeAll pieces).1, data, (consumeAll pieces).2.2)) := by
  have hshape := consume_shape init pieces.flatten
  have hview := consume_view pieces.flatten
  rw [consumeAll_eq, consumeAll_eq, List.flatten_singleton]
  generalize pieces.flatten = stream at hshape hview ⊢
  generalize init.consume stream = reading at hshape hview ⊢
  dsimp only
  obtain ⟨hok, hnoAddr, herr⟩ := hview.verdict
  refine ⟨rfl, hok, hnoAddr, herr, ?_, ?_, ?_, fun hsettled data => ?_⟩
  · intro haccepted
    cases hview with
    | wants hshort => exact absurd haccepted hshort
    | malformed _ hbad => exact absurd haccepted.1 hbad
    | settled _ hrest =>
      have hwhole := haccepted.2
      rw [hrest, List.length_drop]
      omega
  · intro source
    cases hview with
    | wants hshort _ _ haddr => simp [hshort, haddr]
    | malformed _ hbad _ haddr => simp [Accepted, hbad, haddr]
    | settled haccepted _ hsettled =>
      rw [hsettled.v4]
      exact (and_iff_right haccepted).symm
  · intro source
    cases hview with
    | wants hshort _ _ haddr => simp [hshort, haddr]
    | malformed _ hbad _ haddr => simp [Accepted, hbad, haddr]
    | settled haccepted _ hsettled =>
      rw [hsettled.v6]
      exact (and_iff_right haccepted).symm
  · cases hdone : reading.2.2.done with
    | false => exact absurd (hshape.unsettled hdone).1 hsettled
    | true => rw [consume, if_pos hdone, hshape.settled hdone]

end Layout

end ProxyV2

end MldsaAuth.Authd
