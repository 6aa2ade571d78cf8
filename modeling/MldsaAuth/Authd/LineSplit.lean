/-
# Requests on the local sockets

A local connection is a stream of requests, one to a line, and a line may have at most
8192 bytes with its line feed. The specification cuts the whole stream at its line feeds
and refuses it at the first line that is too long. The loop hands out exactly the lines
of what it has read, however the stream was cut into reads, but it looks for an overlong
line only when what it holds has no line feed at all. A line that is too long therefore
passes when the read that brings its 8193rd byte also brings its line feed, and whether
it does depends on how the stream was cut.
-/

import MldsaAuth.Authd.Link
import MldsaAuth.Foundation.Delimited
import Mathlib.Data.List.TakeWhile

namespace MldsaAuth.Authd

open Foundation Foundation.Delimited ConnIo

/-- The line feed. -/
def lineFeed : UInt8 := 0x0a

/-- A line without a carriage return at its end. -/
def chomp (line : Bytes) : Bytes := if line.getLast? = some 0x0d then line.dropLast else line

/-- The line, with its line feed, is not longer than `AUTHD_LINE_MAX`. -/
def LineFits (line : Bytes) : Prop := line.length + 1 ≤ authdLineMax

instance (line : Bytes) : Decidable (LineFits line) := inferInstanceAs (Decidable (_ ≤ _))

/-- The requests of a stream that is cut at its line feeds, up to the first line that is too
long, and whether there is one; a line can be too long before its line feed has come. -/
def requestLines (stream : Bytes) : List Bytes × Bool :=
  let fitting := (whole lineFeed stream).takeWhile fun line => LineFits line
  (fitting.map chomp,
    decide (fitting ≠ whole lineFeed stream) ||
      decide (authdLineMax ≤ (unfinished lineFeed stream).length))

variable {stream : Bytes}

/-- Lines that fit come out; the specification goes on with the rest and what follows. -/
theorem requestLines_append (hfit : ∀ line ∈ whole lineFeed stream, LineFits line) (more : Bytes) :
    requestLines (stream ++ more) =
      ((whole lineFeed stream).map chomp ++ (requestLines (unfinished lineFeed stream ++ more)).1,
        (requestLines (unfinished lineFeed stream ++ more)).2) := by
  have hfitting : ∀ line ∈ whole lineFeed stream, decide (LineFits line) = true :=
    fun line hline => decide_eq_true (hfit line hline)
  unfold requestLines
  dsimp only
  rw [whole_append, unfinished_append, List.takeWhile_append_of_pos hfitting, List.map_append]
  simp only [ne_eq, List.append_cancel_left_eq]

variable {held : Bytes}

/-- Too much without a line feed is refused, whatever follows. -/
theorem requestLines_overlong (hnot : lineFeed ∉ held) (hcap : authdLineMax ≤ held.length)
    (more : Bytes) : requestLines (held ++ more) = ([], true) := by
  by_cases hmem : lineFeed ∈ more
  · obtain ⟨line, next, hline, rfl⟩ := exists_first hmem
    have hfirst : lineFeed ∉ held ++ line := fun hin => (List.mem_append.mp hin).elim hnot hline
    have hlong : ¬ LineFits (held ++ line) := by
      unfold LineFits
      rw [List.length_append]
      omega
    unfold requestLines
    rw [← List.append_assoc, whole_cons hfirst, List.takeWhile_cons_of_neg (by simpa using hlong)]
    rfl
  · have hnone : lineFeed ∉ held ++ more := fun hin => (List.mem_append.mp hin).elim hnot hmem
    unfold requestLines
    rw [whole_of_notMem hnone, unfinished_of_notMem hnone, List.length_append,
      decide_eq_true (hcap.trans (Nat.le_add_right _ _))]
    rfl

/-- Without a line feed there is no request yet. -/
theorem requestLines_rest (hnot : lineFeed ∉ held) :
    requestLines held = ([], decide (authdLineMax ≤ held.length)) := by
  unfold requestLines
  rw [whole_of_notMem hnot, unfinished_of_notMem hnot]
  rfl

/-- The specification hands out fewer lines than there are, if one of them is too long. -/
theorem length_requestLines_lt (hlong : ¬ ∀ line ∈ whole lineFeed stream, LineFits line)
    (more : Bytes) : (requestLines (stream ++ more)).1.length < (whole lineFeed stream).length := by
  have htake : ((whole lineFeed stream ++
      whole lineFeed (unfinished lineFeed stream ++ more)).takeWhile fun line =>
        decide (LineFits line)) =
      (whole lineFeed stream).takeWhile fun line => decide (LineFits line) := by
    rw [List.takeWhile_append, if_neg]
    intro hlength
    have hall := List.takeWhile_eq_self_iff.mp (List.IsPrefix.eq_of_length
      (List.takeWhile_prefix _) hlength)
    exact hlong fun line hline => of_decide_eq_true (hall line hline)
  unfold requestLines
  dsimp only
  rw [whole_append, htake, List.length_map]
  refine lt_of_le_of_ne (List.takeWhile_prefix _).length_le fun hlength => ?_
  have hall := List.takeWhile_eq_self_iff.mp (List.IsPrefix.eq_of_length
    (List.takeWhile_prefix _) hlength)
  exact hlong fun line hline => of_decide_eq_true (hall line hline)

/-! ## Lines of the input -/

theorem splitLine_of_notMem {bytes : Bytes} (hnot : lineFeed ∉ bytes) : splitLine bytes = none := by
  have hdrop : bytes.dropWhile (· ≠ 0x0a) = [] := by
    rw [List.dropWhile_eq_nil_iff]
    intro byte hbyte
    rw [decide_eq_true_eq]
    rintro rfl
    exact hnot hbyte
  unfold splitLine
  rw [hdrop]

variable {line more : Bytes}

theorem splitLine_cons (hnot : lineFeed ∉ line) :
    splitLine (line ++ lineFeed :: more) = some (chomp line, more) := by
  have hall : ∀ byte ∈ line, (decide (byte ≠ 0x0a)) = true := by
    intro byte hbyte
    rw [decide_eq_true_eq]
    rintro rfl
    exact hnot hbyte
  have hdrop : (line ++ lineFeed :: more).dropWhile (· ≠ 0x0a) = lineFeed :: more := by
    rw [List.dropWhile_append_of_pos hall]
    rfl
  have htake : (line ++ lineFeed :: more).takeWhile (· ≠ 0x0a) = line := by
    rw [List.takeWhile_append_of_pos hall]
    exact List.append_nil line
  unfold splitLine
  rw [hdrop, htake]
  rfl

variable {data : Bytes}

namespace ConnIo

variable {io : ConnIo}

theorem nextLine_of_notMem (hnot : lineFeed ∉ io.input) : io.nextLine = (none, io) := by
  unfold nextLine
  split
  · rfl
  · rw [splitLine_of_notMem hnot]

theorem nextLine_cons (hnot : lineFeed ∉ line) (hinput : io.input = line ++ lineFeed :: more)
    (hfailed : io.failed = false) (hmode : io.mode = .line) :
    io.nextLine = (some (chomp line), { io with lineTotal := line.length + 1 }) := by
  unfold nextLine
  rw [if_neg (by simp [hfailed, hmode]), hinput, splitLine_cons hnot]
  dsimp only
  rw [List.length_append, List.length_cons, ← Nat.add_assoc, Nat.add_right_comm, Nat.add_sub_cancel]

/-- The first line goes when it is consumed. -/
theorem consumeLine_cons (hinput : io.input = line ++ lineFeed :: more)
    (htotal : io.lineTotal = line.length + 1) :
    io.consumeLine = { io with input := more, lineTotal := 0 } := by
  have hlength : io.input.length = line.length + 1 + more.length := by
    rw [hinput, List.length_append, List.length_cons]
    omega
  have hdrop : io.input.drop (line.length + 1) = more := by
    rw [hinput, List.drop_append]
    simp
  unfold consumeLine
  rw [if_neg (by omega), htotal, hdrop]

/-- A push on a local connection, within the room there is. -/
theorem push_line {prims : DaemonPrimitives} (hmode : io.mode = .line) (hfailed : io.failed = false)
    (hdata : data ≠ []) (hroom : data.length ≤ io.inRoom) :
    io.push prims data = noteLineCap { io with input := io.input ++ data } := by
  unfold push
  rw [hfailed, if_neg (by decide), if_neg (by simp [hmode]), if_neg hdata,
    if_neg (Nat.not_lt.mpr hroom)]
  unfold noteInput
  rw [if_pos hmode]

end ConnIo

/-! ## What a local connection has read and handed out -/

variable {listener : Listener}

namespace Link

variable {prims : DaemonPrimitives} {link : Link}

/-- A local connection between two steps: the lines that were handed out and those that are
still in the buffer are the lines of what was read, and the rest has not reached the cap; a
connection that was closed for an error has handed out all its lines, and its rest has. -/
structure Splits (link : Link) : Prop where
  kind : link.kind = .loc
  mode : link.io.mode = .line
  plain : link.io.proxyOn = false
  failed : link.io.failed = decide (link.state = .broken)
  lines : link.state ≠ .broken →
    link.handed ++ (whole lineFeed link.io.input).map chomp = (whole lineFeed link.stream).map chomp
  rest : link.state ≠ .broken →
    unfinished lineFeed link.io.input = unfinished lineFeed link.stream ∧
      (unfinished lineFeed link.io.input).length < authdLineMax
  broken : link.state = .broken →
    link.handed = (whole lineFeed link.stream).map chomp ∧
      authdLineMax ≤ (unfinished lineFeed link.stream).length

theorem splits_accepted (hlocal : listener.kind = .loc) : (accepted listener).Splits := by
  have hio : (accepted listener).io = reset.setMode .line := by
    unfold accepted
    rw [if_pos hlocal]
    rfl
  refine ⟨hlocal, by rw [hio]; rfl, by rw [hio]; rfl, by rw [hio]; rfl, ?_, ?_, nofun⟩
  · intro _
    rw [hio]
    rfl
  intro _
  rw [hio]
  exact ⟨rfl, by decide⟩

section

variable (hsplits : link.Splits)

include hsplits

/-- The input has no whole line exactly when it has no line feed. -/
theorem Splits.complete_eq (hstate : link.state ≠ .broken) :
    link.io.complete .loc = true ↔ lineFeed ∈ link.io.input := by
  show link.io.nextLine.1.isSome = true ↔ _
  by_cases hmem : lineFeed ∈ link.io.input
  · obtain ⟨line, more, hnot, hinput⟩ := exists_first hmem
    have hfailed : link.io.failed = false := hsplits.failed.trans (decide_eq_false hstate)
    rw [nextLine_cons hnot hinput hfailed hsplits.mode]
    exact iff_of_true rfl hmem
  · rw [nextLine_of_notMem hmem]
    exact iff_of_false nofun hmem

/-- Without a line feed the whole input is the rest of what was read. -/
theorem Splits.input_eq (hstate : link.state ≠ .broken) (hnot : lineFeed ∉ link.io.input) :
    link.io.input = unfinished lineFeed link.stream :=
  (unfinished_of_notMem hnot).symm.trans (hsplits.rest hstate).1

/-- A read keeps a connection in order, or breaks it off because the rest is too long. -/
theorem Splits.receive {verdict : AddrVerdict} (hallowed : link.allowed (.receive data verdict)) :
    (link.receive prims data verdict).Splits := by
  obtain ⟨hactive, -, hcomplete, hdata, hlength⟩ := hallowed
  have hopen : link.state ≠ .broken := by rw [hactive]; exact nofun
  have hfailed : link.io.failed = false := hsplits.failed.trans (decide_eq_false hopen)
  have hnot : lineFeed ∉ link.io.input := by
    rw [hsplits.kind] at hcomplete
    rw [← hsplits.complete_eq hopen, hcomplete]
    exact Bool.false_ne_true
  have hinput := hsplits.input_eq hopen hnot
  have hshort := (hsplits.rest hopen).2
  have hheld : link.handed = (whole lineFeed link.stream).map chomp := by
    have hlines := hsplits.lines hopen
    rwa [whole_of_notMem hnot, List.map_nil, List.append_nil] at hlines
  have hwhole : whole lineFeed (link.stream ++ data) =
      whole lineFeed link.stream ++ whole lineFeed (link.io.input ++ data) := by
    rw [whole_append, ← hinput]
  have hrest : unfinished lineFeed (link.stream ++ data) =
      unfinished lineFeed (link.io.input ++ data) := by
    rw [unfinished_append, ← hinput]
  have hstream : (link.chunks ++ [data]).flatten = link.stream ++ data := by
    unfold stream
    rw [List.flatten_append, List.flatten_singleton]
  have hpush : link.io.push prims data =
      noteLineCap { link.io with input := link.io.input ++ data } :=
    push_line hsplits.mode hfailed hdata (hlength.trans (min_le_left _ _))
  unfold noteLineCap at hpush
  dsimp only at hpush
  by_cases hmem : 0x0a ∈ link.io.input ++ data
  · -- a line feed has come, so the rest lies within this read
    have hbound : (unfinished lineFeed (link.io.input ++ data)).length < data.length :=
      length_unfinished_append_lt ((List.mem_append.mp hmem).resolve_left hnot)
    have hchunk : data.length ≤ 4096 := hlength.trans (min_le_right _ _)
    rw [if_pos hmem] at hpush
    rw [receive_of_plain hpush hsplits.plain]
    refine ⟨hsplits.kind, hsplits.mode, hsplits.plain, hsplits.failed, fun _ => ?_, fun _ => ?_,
      fun hbroken => absurd hbroken hopen⟩
    · unfold stream
      dsimp only
      rw [hstream, hwhole, List.map_append, ← hheld]
    unfold stream
    dsimp only
    rw [hstream]
    exact ⟨hrest.symm, by unfold authdLineMax; omega⟩
  · have hnone : lineFeed ∉ link.io.input ++ data := hmem
    rw [if_neg hmem] at hpush
    split at hpush
    · rename_i hcap
      rw [receive_of_error hpush nofun]
      refine ⟨hsplits.kind, hsplits.mode, hsplits.plain, rfl, fun hstate => absurd rfl hstate,
        fun hstate => absurd rfl hstate, fun _ => ?_⟩
      unfold stream
      dsimp only
      rw [hstream, hwhole, hrest, whole_of_notMem hnone, List.append_nil,
        unfinished_of_notMem hnone]
      exact ⟨hheld, hcap⟩
    · rename_i hcap
      rw [receive_of_plain hpush hsplits.plain]
      refine ⟨hsplits.kind, hsplits.mode, hsplits.plain, hsplits.failed, fun _ => ?_,
        fun _ => ?_, fun hbroken => absurd hbroken hopen⟩
      · unfold stream
        dsimp only
        rw [hstream, hwhole, List.map_append, ← hheld]
      unfold stream
      dsimp only
      rw [hstream]
      refine ⟨hrest.symm, ?_⟩
      rw [unfinished_of_notMem hnone]
      exact Nat.lt_of_not_le hcap

/-- Serving a line moves it from the buffer to those that were handed out. -/
theorem Splits.serve {reply : Option Bytes} {action : EvAction}
    (hallowed : link.allowed (.serve reply action)) : (link.serve reply action).Splits := by
  obtain ⟨hactive, hcomplete, -⟩ := hallowed
  have hopen : link.state ≠ .broken := by rw [hactive]; exact nofun
  have hfailed : link.io.failed = false := hsplits.failed.trans (decide_eq_false hopen)
  rw [hsplits.kind, hsplits.complete_eq hopen] at hcomplete
  obtain ⟨line, more, hnot, hinput⟩ := exists_first hcomplete
  have hnext : link.io.nextUnit link.kind =
      (some (chomp line), { link.io with lineTotal := line.length + 1 }) := by
    rw [hsplits.kind]
    exact nextLine_cons hnot hinput hfailed hsplits.mode
  obtain ⟨out, outSent, hanswer⟩ := answer_eq { link.io with lineTotal := line.length + 1 } reply
  have hconsume : consumeUnit
      { link.io with lineTotal := line.length + 1, out := out, outSent := outSent } link.kind =
        { link.io with lineTotal := 0, input := more, out := out, outSent := outSent } := by
    rw [hsplits.kind]
    exact consumeLine_cons hinput rfl
  have hstate : (if action = EvAction.close then LinkState.draining else link.state) ≠ .broken := by
    split
    · exact nofun
    · exact hopen
  have hlines := hsplits.lines hopen
  have hrest := hsplits.rest hopen
  rw [hinput, whole_cons hnot, List.map_cons] at hlines
  rw [hinput, unfinished_cons hnot] at hrest
  unfold Link.serve
  rw [hnext]
  dsimp only
  rw [hanswer, hconsume]
  exact
    { hsplits with
      failed := hfailed.trans (decide_eq_false hstate).symm
      lines := fun _ => by
        rw [List.append_assoc]
        exact hlines
      rest := fun _ => hrest
      broken := fun hbroken => absurd hbroken hstate }

theorem Splits.written (count : ℕ) : (link.written count).Splits := by
  have hmode : link.io.mode ≠ .ws := by rw [hsplits.mode]; exact nofun
  obtain ⟨out, outSent, hsent⟩ := sent_eq hmode count
  unfold Link.written
  rw [hsent]
  exact ⟨hsplits.kind, hsplits.mode, hsplits.plain, hsplits.failed, hsplits.lines, hsplits.rest,
    hsplits.broken⟩

/-- Every step of a local connection keeps the lines together. -/
theorem Splits.step {event : LinkEvent} (hallowed : link.allowed event) :
    (link.step prims event).Splits := by
  cases event with
  | receive => exact hsplits.receive hallowed
  | serve => exact hsplits.serve hallowed
  | written count => exact hsplits.written count
  | drain =>
    have hopen : link.state ≠ .broken := hallowed
    exact ⟨hsplits.kind, hsplits.mode, hsplits.plain,
      hsplits.failed.trans (decide_eq_false hopen), fun _ => hsplits.lines hopen,
      fun _ => hsplits.rest hopen, nofun⟩

end

/-- In every run, a local connection has handed out the lines of what it has read once nothing
complete is left, and it was broken off exactly when the rest has reached the cap. -/
theorem handed_of_run (hlocal : listener.kind = .loc) {events : List LinkEvent}
    (hrun : (linkMachine prims).Run (accepted listener) events link)
    (hserved : link.io.complete link.kind = false) :
    link.handed = (whole lineFeed link.stream).map chomp ∧
      (link.state = .broken ↔ authdLineMax ≤ (unfinished lineFeed link.stream).length) := by
  have hsplits : link.Splits :=
    hrun.invariant (fun _ _ hbefore hallowed => Splits.step hbefore hallowed)
      (splits_accepted hlocal)
  by_cases hbroken : link.state = .broken
  · obtain ⟨hhanded, hcap⟩ := hsplits.broken hbroken
    exact ⟨hhanded, iff_of_true hbroken hcap⟩
  rw [hsplits.kind] at hserved
  have hnot : lineFeed ∉ link.io.input := by
    rw [← hsplits.complete_eq hbroken, hserved]
    exact Bool.false_ne_true
  have hlines := hsplits.lines hbroken
  obtain ⟨hrest, hshort⟩ := hsplits.rest hbroken
  rw [whole_of_notMem hnot, List.map_nil, List.append_nil] at hlines
  refine ⟨hlines, iff_of_false hbroken ?_⟩
  rw [← hrest]
  omega

end Link

/-- However a stream is cut into reads, a local connection hands out the lines of the
specification and is refused when the specification says so, exactly when none of the lines it
has read to their line feed is too long. What was not read comes after a refusal. -/
theorem requests_of_reads_iff {prims : DaemonPrimitives} {listener : Listener}
    (hlocal : listener.kind = .loc) {events : List LinkEvent} {link : Link}
    (hrun : (linkMachine prims).Run (Link.accepted listener) events link)
    (hserved : link.io.complete link.kind = false) {unread : Bytes}
    (hunread : unread = [] ∨ link.state = .broken) :
    (link.handed, decide (link.state = .broken)) = requestLines (link.stream ++ unread) ↔
      ∀ line ∈ whole lineFeed link.stream, LineFits line := by
  obtain ⟨hhanded, hbroken⟩ := Link.handed_of_run hlocal hrun hserved
  constructor
  · intro hsame
    by_contra hlong
    have hlength := length_requestLines_lt hlong unread
    rw [← hsame, hhanded, List.length_map] at hlength
    exact lt_irrefl _ hlength
  · intro hfit
    have hrest : requestLines (unfinished lineFeed link.stream ++ unread) =
        ([], decide (link.state = .broken)) := by
      rcases hunread with rfl | hstate
      · rw [List.append_nil, requestLines_rest notMem_unfinished, decide_eq_decide.mpr hbroken]
      rw [requestLines_overlong notMem_unfinished (hbroken.mp hstate), decide_eq_true hstate]
    rw [requestLines_append hfit, hrest, List.append_nil, hhanded]

/-- The site socket. -/
def sampleLocal : Listener where
  kind := .loc
  isAdmin := false
  ws := false
  proxy := false

/-- Two short lines in two reads. -/
def sampleShortReads : List LinkEvent :=
  [.receive [0x61] .admitted, .receive [0x0d, lineFeed, 0x62, lineFeed] .admitted,
    .serve none .continue_, .serve none .continue_]

theorem requests_of_reads_iff_sampleShortReads :
    let link := sampleShortReads.foldl (Link.step .sample) (Link.accepted sampleLocal)
    link.handed = [[0x61], [0x62]] ∧
      ((link.handed, decide (link.state = .broken)) = requestLines (link.stream ++ []) ↔
        ∀ line ∈ whole lineFeed link.stream, LineFits line) :=
  ⟨by decide, requests_of_reads_iff rfl (.of_allAllowed (by decide)) (by decide) (.inl rfl)⟩

/-- Reads of 4096 bytes, 4095 bytes and the last byte of a line with its line feed. -/
def sampleLateReads : List LinkEvent :=
  [.receive (List.replicate 4096 0x61) .admitted, .receive (List.replicate 4095 0x61) .admitted,
    .receive [0x61, lineFeed] .admitted, .serve none .continue_]

/-- The same line in reads of 4096 bytes. -/
def sampleEvenReads : List LinkEvent :=
  [.receive (List.replicate 4096 0x61) .admitted, .receive (List.replicate 4096 0x61) .admitted]

set_option maxRecDepth 20000 in
/-- One stream, cut in two ways: a line of 8193 bytes is handed out after the late reads and
breaks the connection off after the even ones. -/
theorem overlong_line_handed_sampleLateReads :
    let late := sampleLateReads.foldl (Link.step .sample) (Link.accepted sampleLocal)
    let even := sampleEvenReads.foldl (Link.step .sample) (Link.accepted sampleLocal)
    (linkMachine .sample).Run (Link.accepted sampleLocal) sampleLateReads late ∧
      (linkMachine .sample).Run (Link.accepted sampleLocal) sampleEvenReads even ∧
      late.stream = even.stream ++ [lineFeed] ∧
      (late.handed.length, late.io.complete .loc, late.state) = (1, false, .active) ∧
      (even.handed.length, even.io.complete .loc, even.state) = (0, false, .broken) ∧
      requestLines late.stream = ([], true) := by
  have hallowed :
      (linkMachine .sample).AllAllowed (Link.accepted sampleLocal) sampleLateReads ∧
        (linkMachine .sample).AllAllowed (Link.accepted sampleLocal) sampleEvenReads := by
    decide +kernel
  exact ⟨.of_allAllowed hallowed.1, .of_allAllowed hallowed.2, by decide +kernel⟩

end MldsaAuth.Authd
