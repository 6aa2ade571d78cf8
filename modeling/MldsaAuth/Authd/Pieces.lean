/-
# Streams in pieces

The bytes of a connection arrive in pieces of any size, and four parsers take them as
they come: the PROXY preamble, the HTTP request, the WebSocket frames and the
length-prefixed frames inside. This file states for the two in the middle that a piece and
the next one amount to their concatenation. The WebSocket layer also answers control frames;
what it answers never changes how it reads, so its laws are stated up to the reply buffer.
-/

import MldsaAuth.Authd.Preamble
import MldsaAuth.Authd.WsOutput

namespace MldsaAuth.Authd

open Foundation ConnIo

/-! ## The end of the request -/

namespace ConnIo

theorem endOfHeaders_of_short {bytes : Bytes} (hshort : bytes.length < 4) :
    endOfHeaders bytes = 0 := by
  induction bytes with
  | nil => rfl
  | cons byte rest ih =>
    have hne : (byte :: rest).take 4 ≠ [0x0d, 0x0a, 0x0d, 0x0a] := by
      intro heq
      have hlength := congrArg List.length heq
      rw [List.length_take] at hlength
      simp only [List.length_cons, List.length_nil] at hlength hshort
      omega
    rw [endOfHeaders, if_neg hne, ih (by rw [List.length_cons] at hshort; omega)]

/-- The terminator itself has four bytes. -/
theorem four_le_endOfHeaders {bytes : Bytes} (hend : endOfHeaders bytes ≠ 0) :
    4 ≤ endOfHeaders bytes := by
  induction bytes with
  | nil => exact absurd rfl hend
  | cons byte rest ih =>
    rw [endOfHeaders] at hend ⊢
    split_ifs with hne
    · exact le_rfl
    rw [if_neg hne] at hend
    cases hrest : endOfHeaders rest with
    | zero => exact absurd (by rw [hrest]) hend
    | succ length =>
      dsimp only
      omega

/-- A request that has ended does not end later when more bytes follow, and one that has not
ended within the first piece ends behind it. -/
theorem endOfHeaders_append (first second : Bytes) :
    endOfHeaders (first ++ second) = endOfHeaders first ∨
      endOfHeaders first = 0 ∧ first.length < endOfHeaders (first ++ second) := by
  induction first with
  | nil =>
    cases hend : endOfHeaders second with
    | zero => exact .inl hend
    | succ length => exact .inr ⟨rfl, by rw [List.nil_append, hend]; exact length.succ_pos⟩
  | cons byte rest ih =>
    by_cases hlong : 4 ≤ (byte :: rest).length
    · have htake : (byte :: (rest ++ second)).take 4 = (byte :: rest).take 4 := by
        rw [← List.cons_append, List.take_append_of_le_length hlong]
      rw [List.cons_append, endOfHeaders, endOfHeaders, htake]
      split
      · exact .inl rfl
      rcases ih with hsame | ⟨hnone, hbehind⟩
      · exact .inl (by rw [hsame])
      obtain ⟨length, hend⟩ := Nat.exists_eq_succ_of_ne_zero (Nat.ne_zero_of_lt hbehind)
      rw [hend] at hbehind ⊢
      exact .inr ⟨by rw [hnone], by simpa using hbehind⟩
    · have hnone := endOfHeaders_of_short (not_le.mp hlong)
      cases hend : endOfHeaders (byte :: rest ++ second) with
      | zero => exact .inl hnone.symm
      | succ length =>
        have hfour := four_le_endOfHeaders (by rw [hend]; exact length.succ_ne_zero)
        exact .inr ⟨hnone, by omega⟩

theorem endOfHeaders_le_length (bytes : Bytes) : endOfHeaders bytes ≤ bytes.length := by
  induction bytes with
  | nil => exact le_rfl
  | cons byte rest ih =>
    rw [endOfHeaders]
    split_ifs with hend
    · have hlength := congrArg List.length hend
      rw [List.length_take] at hlength
      simp only [List.length_cons, List.length_nil] at hlength ⊢
      omega
    · split
      · exact Nat.zero_le _
      · rename_i length hrest
        rw [List.length_cons]
        omega

end ConnIo

/-! ## WebSocket frames -/

variable {fuel : ℕ} {after : Bytes}

namespace Ws

variable {Sink : Type} {sink : Sink → Bytes → Option Sink} {ws next : Ws} {target : Sink}
  {first second bytes rest : Bytes}

/-- Between two frames the layer waits for a header. -/
def Ready (ws : Ws) : Prop := ws.payloadLeft = 0 → ws.wantsHeader = true

/-- Where no more header is wanted, nothing is taken for it. -/
theorem takeHeader_of_whole (hwhole : ws.wantsHeader = false) (bytes : Bytes) :
    ws.takeHeader bytes = some (ws, bytes) := by
  cases bytes with
  | nil => rfl
  | cons => simp only [takeHeader, hwhole, Bool.false_eq_true, if_false]

/-- A header is read in two pieces as in one. -/
theorem takeHeader_append (ws : Ws) (first second : Bytes) :
    ws.takeHeader (first ++ second) =
      (ws.takeHeader first).bind fun taken => taken.1.takeHeader (taken.2 ++ second) := by
  induction first generalizing ws with
  | nil => rfl
  | cons byte first ih =>
    rw [List.cons_append, takeHeader, takeHeader]
    split
    · split
      · rfl
      · dsimp only
        split
        · split
          · rfl
          · exact ih _
        · exact ih _
    · rename_i hwhole
      rw [Option.bind_some, takeHeader_of_whole (Bool.eq_false_iff.mpr hwhole)]
      rfl

theorem payloadLeft_noteHeaderStart (hnoted : ws.noteHeaderStart = some next) :
    next.payloadLeft = ws.payloadLeft := by
  unfold noteHeaderStart at hnoted
  dsimp only at hnoted
  split_ifs at hnoted
  all_goals exact Option.some.inj hnoted ▸ rfl

/-- A header that is not complete has taken all there was. -/
theorem takeHeader_rest (htaken : ws.takeHeader bytes = some (next, rest)) :
    (next.wantsHeader = true → rest = []) ∧
      (ws.wantsHeader = true → bytes ≠ [] → rest.length < bytes.length) ∧
      next.payloadLeft = ws.payloadLeft ∧ rest.length ≤ bytes.length := by
  induction bytes generalizing ws with
  | nil =>
    obtain ⟨rfl, rfl⟩ := Prod.mk.inj (Option.some.inj htaken)
    exact ⟨fun _ => rfl, fun _ hne => absurd rfl hne, rfl, le_rfl⟩
  | cons byte bytes ih =>
    unfold takeHeader at htaken
    split at htaken
    · split at htaken
      · cases htaken
      · dsimp only at htaken
        split at htaken
        · split at htaken
          · cases htaken
          · rename_i noted hnoted
            obtain ⟨hall, -, hleft, hle⟩ := ih htaken
            exact ⟨hall, fun _ _ => Nat.lt_succ_of_le hle,
              hleft.trans (by rw [payloadLeft_noteHeaderStart hnoted]), Nat.le_succ_of_le hle⟩
        · obtain ⟨hall, -, hleft, hle⟩ := ih htaken
          exact ⟨hall, fun _ _ => Nat.lt_succ_of_le hle, hleft, Nat.le_succ_of_le hle⟩
    · rename_i hwhole
      obtain ⟨rfl, rfl⟩ := Prod.mk.inj (Option.some.inj htaken)
      exact ⟨fun hwants => absurd hwants hwhole, fun hwants => absurd hwants hwhole, rfl, le_rfl⟩

theorem length_unmask (ws : Ws) (bytes : Bytes) : (ws.unmask bytes).length = bytes.length := by
  simp [unmask]

/-- The mask goes on in the second piece where the first one has ended. -/
theorem unmask_append (ws : Ws) (first second : Bytes) :
    ws.unmask (first ++ second) =
      ws.unmask first ++ unmask { ws with maskOff := (ws.maskOff + first.length) % 4 } second := by
  unfold unmask
  rw [List.zipIdx_append, List.map_append]
  congr 1
  rw [List.zipIdx_eq_map_add, List.map_map]
  refine List.map_congr_left fun entry _ => ?_
  have hshift : (ws.maskOff + (0 + first.length + entry.2)) % 4 =
      ((ws.maskOff + first.length) % 4 + entry.2) % 4 := by omega
  dsimp only [Function.comp_apply]
  rw [hshift]

theorem wantsHeader_frameDone : ws.frameDone.2.wantsHeader = true := by
  unfold frameDone
  split
  · rfl
  · rfl

theorem ready_frameDone (ws : Ws) : ws.frameDone.2.Ready := fun _ => wantsHeader_frameDone

/-- Only a close frame ends the reading. -/
theorem stage_frameDone (ws : Ws) :
    ws.frameDone.2.stage = if ws.frameDone.1 then .closed else ws.stage := by
  unfold frameDone
  split
  · rfl
  split
  · unfold queueCtrl
    split
    · rfl
    · rfl
  · rfl

theorem consumeLoop_succ (fuel : ℕ) (ws : Ws) (target : Sink) (bytes : Bytes) :
    ws.consumeLoop sink (fuel + 1) target bytes =
      turn sink (fun ws target bytes => ws.consumeLoop sink fuel target bytes) ws target bytes :=
  rfl

/-- A turn takes at least one byte before it goes on, and goes on between two frames. -/
theorem turn_congr {recur recur' : Ws → Sink → Bytes → WsStatus × Ws × Sink} (hready : ws.Ready)
    (hrecur : ∀ (next : Ws) (target : Sink) (rest : Bytes), next.Ready → next.stage = ws.stage →
      rest.length < bytes.length → recur next target rest = recur' next target rest) :
    turn sink recur ws target bytes = turn sink recur' ws target bytes := by
  unfold turn
  split
  · rfl
  rename_i hbytes
  split_ifs with hheader
  · split
    · rfl
    rename_i taken rest htaken
    have hshorter := (takeHeader_rest htaken).2.1 hheader.2 hbytes
    split
    · rfl
    split
    · rfl
    rename_i noted hnoted
    have hcalm := ((calm_takeHeader htaken).trans (calm_headerComplete hnoted)).stage
    split_ifs with hpayload
    · have hdone := ready_frameDone noted
      have hstage := stage_frameDone noted
      split
      · rfl
      rename_i hframe
      rw [hframe] at hdone hstage
      exact hrecur _ _ _ hdone (hstage.trans hcalm) hshorter
    · exact hrecur _ _ _ (fun hnone => absurd hnone hpayload) hcalm hshorter
  · have hpayload : ws.payloadLeft ≠ 0 := fun hnone => hheader ⟨hnone, hready hnone⟩
    have hshorter : (bytes.drop ws.payloadLeft).length < bytes.length := by
      have := List.length_pos_iff.mpr hbytes
      rw [List.length_drop]
      omega
    have hcalm := (calm_takePayload sink ws target bytes).stage
    split
    · rfl
    rename_i taken _ htaken
    rw [htaken] at hcalm
    split
    · rfl
    have hdone := ready_frameDone taken
    have hstage := stage_frameDone taken
    split
    · rfl
    rename_i hframe
    rw [hframe] at hdone hstage
    exact hrecur _ _ _ hdone (hstage.trans hcalm) hshorter

/-- One unit of fuel for each byte is enough. -/
theorem consumeLoop_fuel (hready : ws.Ready) (hfuel : bytes.length ≤ fuel) :
    ws.consumeLoop sink (fuel + 1) target bytes = ws.consumeLoop sink fuel target bytes := by
  induction fuel generalizing ws target bytes with
  | zero =>
    obtain rfl := List.length_eq_zero_iff.mp (Nat.le_zero.mp hfuel)
    rfl
  | succ fuel ih =>
    rw [consumeLoop_succ, consumeLoop_succ]
    exact turn_congr hready fun next target rest hready _ hshorter => ih hready (by omega)

theorem consumeLoop_of_le (hready : ws.Ready) (hfuel : bytes.length ≤ fuel) :
    ws.consumeLoop sink fuel target bytes = ws.consumeLoop sink bytes.length target bytes := by
  induction fuel, hfuel using Nat.le_induction with
  | base => rfl
  | succ fuel hfuel ih => rw [consumeLoop_fuel hready hfuel, ih]

/-- A sink without a bound. -/
def gather (target bytes : Bytes) : Option Bytes := some (target ++ bytes)

/-- The state and the data of a reading that met no error. -/
def settled : WsStatus × Ws × Bytes → Option (Ws × Bytes)
  | (.errProtocol, _, _) => none
  | (_, ws, target) => some (ws, target)

/-- Everything that frames carry, appended to what was there. -/
def scan (ws : Ws) (target bytes : Bytes) : Option (Ws × Bytes) :=
  settled (ws.consume gather target bytes)

variable {target : Bytes}

theorem scan_of_closed (hclosed : ws.stage = .closed) (bytes : Bytes) :
    ws.scan target bytes = some (ws, target) := by
  unfold scan consume
  rw [hclosed]
  rfl

theorem scan_of_upgrade (hupgrade : ws.stage = .upgrade) (bytes : Bytes) :
    ws.scan target bytes = none := by
  unfold scan consume
  rw [hupgrade]
  rfl

theorem consume_eq_turn (hopen : ws.stage = .opened) (hready : ws.Ready) :
    ws.consume gather target bytes =
      turn gather (fun next target rest => next.consume gather target rest) ws target bytes := by
  have hconsume : ∀ (next : Ws) (target rest : Bytes), next.stage = .opened →
      next.consume gather target rest = next.consumeLoop gather rest.length target rest := by
    intro next target rest hnext
    unfold consume
    rw [hnext]
  rw [hconsume ws target bytes hopen]
  cases bytes with
  | nil => rfl
  | cons =>
    rw [List.length_cons, consumeLoop_succ]
    apply turn_congr hready
    intro next target shorter hnext hstage hlength
    rw [hconsume next target shorter (hstage.trans hopen),
      consumeLoop_of_le hnext (Nat.le_of_lt_succ hlength)]

theorem scan_nil (hopen : ws.stage = .opened) (hready : ws.Ready) :
    ws.scan target [] = some (ws, target) := by
  rw [scan, consume_eq_turn hopen hready]
  rfl

/-- Reading from a header on. -/
theorem scan_of_header (hopen : ws.stage = .opened)
    (hwants : ws.wantsHeader = true) (hnone : ws.payloadLeft = 0) (bytes : Bytes) :
    ws.scan target bytes = (ws.takeHeader bytes).bind fun taken =>
        if taken.1.wantsHeader then some (taken.1, target)
        else
          taken.1.headerComplete.bind fun started =>
            if started.payloadLeft = 0 then started.frameDone.2.scan target taken.2
            else started.scan target taken.2 := by
  have hready : ws.Ready := fun _ => hwants
  by_cases hbytes : bytes = []
  · subst hbytes
    rw [scan_nil hopen hready, takeHeader, Option.bind_some, if_pos hwants]
  rw [scan, consume_eq_turn hopen hready, turn, if_neg hbytes, if_pos ⟨hnone, hwants⟩]
  cases ws.takeHeader bytes with
  | none => rfl
  | some taken =>
    obtain ⟨taken, rest⟩ := taken
    dsimp only [Option.bind_some]
    split
    · rfl
    cases taken.headerComplete with
    | none => rfl
    | some started =>
      dsimp only [Option.bind_some]
      split
      · have hstage := stage_frameDone started
        cases hframe : started.frameDone with
        | mk closes =>
          rw [hframe] at hstage
          cases closes with
          | true => exact (scan_of_closed hstage rest).symm
          | false => rfl
      · rfl

/-- A sink that appends what it has room for takes it in pieces. -/
theorem feedSink_of_appends {sink : Bytes → Bytes → Option Bytes} {limit : ℕ}
    (hsink : ∀ target part : Bytes, target.length + part.length ≤ limit →
      sink target part = some (target ++ part)) (hfuel : bytes.length ≤ fuel)
    (hroom : target.length + bytes.length ≤ limit) :
    feedSink sink fuel target bytes = (true, target ++ bytes) := by
  induction fuel generalizing target bytes with
  | zero =>
    obtain rfl := List.length_eq_zero_iff.mp (Nat.le_zero.mp hfuel)
    rw [List.append_nil]
    rfl
  | succ fuel ih =>
    unfold feedSink
    split_ifs with hnil
    · rw [hnil, List.append_nil]
    have htake : (bytes.take 512).length + (bytes.drop 512).length = bytes.length := by
      rw [← List.length_append, List.take_append_drop]
    rw [hsink target (bytes.take 512) (by omega)]
    dsimp only
    rw [ih (by rw [List.length_drop]; omega) (by rw [List.length_append]; omega),
      List.append_assoc, List.take_append_drop]

theorem feedSink_gather (target : Bytes) (hfuel : bytes.length ≤ fuel) :
    feedSink gather fuel target bytes = (true, target ++ bytes) :=
  feedSink_of_appends (fun _ _ _ => rfl) hfuel le_rfl

/-- The payload step with a sink that takes everything. -/
def payload (ws : Ws) (target bytes : Bytes) : Option (Ws × Bytes) :=
  let part := ws.unmask (bytes.take ws.payloadLeft)
  let next :=
    { ws with
      maskOff := (ws.maskOff + part.length) % 4
      payloadLeft := ws.payloadLeft - part.length }
  if ws.isControl then
    if wsCtrlMax < ws.ctrl.length + part.length then none
    else some ({ next with ctrl := ws.ctrl ++ part }, target)
  else some (next, target ++ part)

theorem takePayload_gather :
    (ws.payload target bytes = none ∧ (ws.takePayload gather target bytes).1 = false) ∨
      ∃ next taken, ws.payload target bytes = some (next, taken) ∧
        ws.takePayload gather target bytes = (true, next, taken) := by
  unfold payload takePayload
  dsimp only
  split
  · split
    · exact .inl ⟨rfl, rfl⟩
    · exact .inr ⟨_, _, rfl, rfl⟩
  rw [feedSink_gather target le_rfl]
  exact .inr ⟨_, _, rfl, rfl⟩

/-- What a payload step leaves to come. -/
theorem payloadLeft_payload {taken : Bytes}
    (hpayload : ws.payload target bytes = some (next, taken)) :
    next.payloadLeft = ws.payloadLeft - bytes.length ∧ next.stage = ws.stage := by
  have hpart : ws.payloadLeft - (ws.unmask (bytes.take ws.payloadLeft)).length =
      ws.payloadLeft - bytes.length := by
    rw [length_unmask, List.length_take]
    omega
  unfold payload at hpayload
  dsimp only at hpayload
  split at hpayload
  · split at hpayload
    · cases hpayload
    · obtain ⟨rfl, -⟩ := Prod.mk.inj (Option.some.inj hpayload)
      exact ⟨hpart, rfl⟩
  · obtain ⟨rfl, -⟩ := Prod.mk.inj (Option.some.inj hpayload)
    exact ⟨hpart, rfl⟩

/-- A payload that goes on is read in two pieces as in one. -/
theorem payload_append (hshort : first.length ≤ ws.payloadLeft) :
    ws.payload target (first ++ second) =
      (ws.payload target first).bind fun taken => taken.1.payload taken.2 second := by
  have htake : (first ++ second).take ws.payloadLeft =
      first ++ second.take (ws.payloadLeft - first.length) := by
    rw [List.take_append, List.take_of_length_le hshort]
  unfold payload
  rw [htake, List.take_of_length_le hshort]
  simp only [unmask_append, List.length_append, length_unmask]
  cases hcontrol : ws.isControl with
  | true =>
    simp only [if_true]
    split
    · rename_i hlong
      split
      · rfl
      simp only [Option.bind_some, List.length_append, length_unmask, Nat.add_assoc, if_true,
        if_pos hlong]
    · rename_i hfits
      have hfirst : ¬wsCtrlMax < ws.ctrl.length + first.length := by omega
      simp only [if_neg hfirst, Option.bind_some, List.length_append, length_unmask,
        Nat.add_assoc, if_neg hfits]
      simp only [Nat.mod_add_mod, Nat.add_assoc, Nat.sub_sub, List.append_assoc]
      rfl
  | false =>
    simp only [Bool.false_eq_true, if_false, Option.bind_some]
    simp only [Nat.mod_add_mod, Nat.add_assoc, Nat.sub_sub, List.append_assoc]
    rfl

/-- Reading from within a payload on. -/
theorem scan_of_payload (hopen : ws.stage = .opened)
    (hpayload : ws.payloadLeft ≠ 0) (hbytes : bytes ≠ []) :
    ws.scan target bytes = (ws.payload target bytes).bind fun taken =>
        if taken.1.payloadLeft ≠ 0 then some taken
        else taken.1.frameDone.2.scan taken.2 (bytes.drop ws.payloadLeft) := by
  have hready : ws.Ready := fun hnone => absurd hnone hpayload
  rw [scan, consume_eq_turn hopen hready, turn, if_neg hbytes,
    if_neg fun hheader => hpayload hheader.1]
  rcases takePayload_gather with ⟨hnone, hfails⟩ | ⟨next, taken, hsome, htakes⟩
  · rw [hnone]
    split
    · rfl
    rename_i htakes
    rw [htakes] at hfails
    cases hfails
  · rw [hsome, htakes]
    dsimp only [Option.bind_some]
    split
    · rfl
    have hstage := stage_frameDone next
    cases hframe : next.frameDone with
    | mk closes =>
      rw [hframe] at hstage
      cases closes with
      | true => exact (scan_of_closed hstage _).symm
      | false => rfl

/-- Frames are read in two pieces as in one. -/
theorem scan_append (hready : ws.Ready) (first second : Bytes) :
    ws.scan target (first ++ second) =
      (ws.scan target first).bind fun taken => taken.1.scan taken.2 second := by
  induction hlength : first.length using Nat.strong_induction_on generalizing ws target first with
  | _ length ih =>
  cases hstage : ws.stage with
  | closed => rw [scan_of_closed hstage, scan_of_closed hstage, Option.bind_some,
      scan_of_closed hstage]
  | upgrade => rw [scan_of_upgrade hstage, scan_of_upgrade hstage, Option.bind_none]
  | opened =>
  by_cases hfirst : first = []
  · rw [hfirst, scan_nil hstage hready, List.nil_append, Option.bind_some]
  by_cases hnone : ws.payloadLeft = 0
  · have hwants := hready hnone
    rw [scan_of_header hstage hwants hnone, scan_of_header hstage hwants hnone, takeHeader_append]
    cases htaken : ws.takeHeader first with
    | none => rfl
    | some taken =>
      obtain ⟨taken, rest⟩ := taken
      obtain ⟨hall, hshorter, hleft, -⟩ := takeHeader_rest htaken
      have hopen : taken.stage = .opened := (calm_takeHeader htaken).stage.trans hstage
      simp only [Option.bind_some]
      by_cases hmore : taken.wantsHeader = true
      · -- the header goes on in the second piece
        rw [if_pos hmore, Option.bind_some, hall hmore, List.nil_append,
          scan_of_header hopen hmore (hleft.trans hnone)]
      rw [if_neg hmore, takeHeader_of_whole (Bool.eq_false_iff.mpr hmore), Option.bind_some,
        if_neg hmore]
      cases hstarted : taken.headerComplete with
      | none => rfl
      | some started =>
        simp only [Option.bind_some]
        have hless : rest.length < length := hlength ▸ hshorter hwants hfirst
        split_ifs with hpayload
        · exact ih rest.length hless (ready_frameDone started) rest rfl
        exact ih rest.length hless (fun hzero => absurd hzero hpayload) rest rfl
  · rw [scan_of_payload hstage hnone hfirst]
    by_cases hshort : first.length < ws.payloadLeft
    · by_cases hsecond : second = []
      · rw [hsecond, List.append_nil, scan_of_payload hstage hnone hfirst]
        cases htaken : ws.payload target first with
        | none => rfl
        | some taken =>
          obtain ⟨hleft, hopen⟩ := payloadLeft_payload htaken
          have hmore : taken.1.payloadLeft ≠ 0 := by omega
          simp only [Option.bind_some]
          rw [if_pos hmore, Option.bind_some,
            scan_nil (hopen.trans hstage) fun hzero => absurd hzero hmore]
      · have hboth : first ++ second ≠ [] := fun hnil => hfirst (List.append_eq_nil_iff.mp hnil).1
        rw [scan_of_payload hstage hnone hboth, payload_append hshort.le]
        cases htaken : ws.payload target first with
        | none => rfl
        | some taken =>
          obtain ⟨hleft, hopen⟩ := payloadLeft_payload htaken
          have hmore : taken.1.payloadLeft ≠ 0 := by omega
          simp only [Option.bind_some]
          rw [if_pos hmore, Option.bind_some,
            scan_of_payload (hopen.trans hstage) hmore hsecond, List.drop_append,
            List.drop_of_length_le hshort.le, List.nil_append, hleft]
    · have hwhole : ws.payloadLeft ≤ first.length := not_lt.mp hshort
      have hboth : first ++ second ≠ [] := fun hnil => hfirst (List.append_eq_nil_iff.mp hnil).1
      have hsame : ws.payload target (first ++ second) = ws.payload target first := by
        unfold payload
        rw [List.take_append_of_le_length hwhole]
      rw [scan_of_payload hstage hnone hboth, hsame]
      cases htaken : ws.payload target first with
      | none => rfl
      | some taken =>
        obtain ⟨hleft, -⟩ := payloadLeft_payload htaken
        have hover : ¬taken.1.payloadLeft ≠ 0 := by omega
        simp only [Option.bind_some]
        rw [if_neg hover, if_neg hover, List.drop_append_of_le_length hwhole]
        have hless : (first.drop ws.payloadLeft).length < length := by
          rw [List.length_drop]
          have := List.length_pos_iff.mpr hfirst
          omega
        exact ih _ hless (ready_frameDone taken.1) _ rfl

/-- A reading that stops without an error stops between two frames or within one. -/
theorem ready_consumeLoop {target after : Sink} {status : WsStatus} (hready : ws.Ready)
    (hconsume : ws.consumeLoop sink fuel target bytes = (status, next, after))
    (hstatus : status ≠ .errProtocol) : next.Ready := by
  induction fuel generalizing ws target bytes with
  | zero =>
    obtain ⟨-, hnext⟩ := Prod.mk.inj hconsume
    exact (Prod.mk.inj hnext).1 ▸ hready
  | succ fuel ih =>
    have hstops : ∀ {last : WsStatus × Ws × Sink}, last = (status, next, after) →
        last.2.1.Ready → next.Ready := fun hlast => hlast ▸ id
    rw [consumeLoop_succ] at hconsume
    unfold turn at hconsume
    split at hconsume
    · exact hstops hconsume hready
    split at hconsume
    · split at hconsume
      · exact absurd (Prod.mk.inj hconsume).1.symm hstatus
      split at hconsume
      · rename_i hwants
        exact hstops hconsume fun _ => hwants
      split at hconsume
      · exact absurd (Prod.mk.inj hconsume).1.symm hstatus
      rename_i started _
      split at hconsume
      · have hdone := ready_frameDone started
        split at hconsume
        all_goals rename_i hframe; rw [hframe] at hdone
        · exact hstops hconsume hdone
        · exact ih hdone hconsume
      · rename_i hpayload
        exact ih (fun hnone => absurd hnone hpayload) hconsume
    · split at hconsume
      · exact absurd (Prod.mk.inj hconsume).1.symm hstatus
      split at hconsume
      · rename_i hmore
        exact hstops hconsume fun hnone => absurd hnone hmore
      rename_i taken _ _ _
      have hdone := ready_frameDone taken
      split at hconsume
      all_goals rename_i hframe; rw [hframe] at hdone
      · exact hstops hconsume hdone
      · exact ih hdone hconsume

theorem ready_scan (hready : ws.Ready)
    (hscan : ws.scan target bytes = some (next, after)) : next.Ready := by
  cases hstage : ws.stage with
  | closed =>
    rw [scan_of_closed hstage] at hscan
    exact (Prod.mk.inj (Option.some.inj hscan)).1 ▸ hready
  | upgrade =>
    rw [scan_of_upgrade hstage] at hscan
    cases hscan
  | opened =>
    unfold scan consume at hscan
    rw [hstage] at hscan
    cases hloop : ws.consumeLoop gather bytes.length target bytes with
    | mk status read =>
      obtain ⟨last, taken⟩ := read
      rw [hloop] at hscan
      have hlast := ready_consumeLoop hready hloop
      cases status with
      | errProtocol => cases hscan
      | ok | needMore => exact (Prod.mk.inj (Option.some.inj hscan)).1 ▸ hlast nofun

/-! ### What is answered does not matter -/

/-- The layer with a reply that always waits, so that no other is ever queued. -/
def hush (ws : Ws) : Ws := { ws with reply := [0], replySent := 0 }

theorem noteHeaderStart_hush (ws : Ws) : ws.hush.noteHeaderStart = ws.noteHeaderStart.map hush := by
  unfold noteHeaderStart
  simp only [apply_ite (Option.map hush), Option.map_none, Option.map_some]
  rfl

theorem takeHeader_hush (ws : Ws) (bytes : Bytes) :
    ws.hush.takeHeader bytes = (ws.takeHeader bytes).map fun taken => (taken.1.hush, taken.2) := by
  induction bytes generalizing ws with
  | nil => rfl
  | cons byte rest ih =>
    have hwants : ws.hush.wantsHeader = ws.wantsHeader := rfl
    have hadd : { ws.hush with hdr := ws.hush.hdr ++ [byte] } =
        hush { ws with hdr := ws.hdr ++ [byte] } := rfl
    have hhdr : ws.hush.hdr = ws.hdr := rfl
    rw [takeHeader, takeHeader, hwants, hadd, hhdr]
    split
    · split
      · rfl
      · dsimp only
        have hlength : (hush { ws with hdr := ws.hdr ++ [byte] }).hdr = ws.hdr ++ [byte] := rfl
        rw [noteHeaderStart_hush, hlength]
        split
        · cases noteHeaderStart { ws with hdr := ws.hdr ++ [byte] } with
          | none => rfl
          | some noted => exact ih noted
        · exact ih _
    · rfl

theorem headerComplete_hush (ws : Ws) : ws.hush.headerComplete = ws.headerComplete.map hush := by
  have hlength : ws.hush.headerLength = ws.headerLength := rfl
  unfold headerComplete
  rw [hlength]
  split
  · rfl
  simp only [apply_ite (Option.map hush), Option.map_none, Option.map_some]
  rfl

theorem frameDone_hush (ws : Ws) : ws.hush.frameDone = (ws.frameDone.1, ws.frameDone.2.hush) := by
  have hqueue : ∀ opcode payload, ws.hush.queueCtrl opcode payload = ws.hush :=
    fun opcode payload => if_pos Nat.one_ne_zero
  have hqueued : ∀ opcode payload, (ws.queueCtrl opcode payload).hush = ws.hush := by
    intro opcode payload
    unfold queueCtrl
    split
    · rfl
    · rfl
  have hcontrol : ws.hush.isControl = ws.isControl := rfl
  have hopcode : ws.hush.opcode = ws.opcode := rfl
  have hctrl : ws.hush.ctrl = ws.ctrl := rfl
  unfold frameDone
  simp only [hcontrol, hopcode, hctrl, hqueue, ite_self]
  split
  · have hclose := hqueued wsOpClose (if 2 ≤ ws.ctrl.length then ws.ctrl.take 2 else [])
    exact Prod.ext rfl (congrArg
      (fun queued : Ws => { queued with stage := .closed, hdr := [], hdrNeed := 0 }) hclose).symm
  split
  · exact Prod.ext rfl (congrArg
      (fun queued : Ws => { queued with hdr := [], hdrNeed := 0, ctrl := [] })
      (hqueued wsOpPong ws.ctrl)).symm
  · rfl

/-- The input buffer takes what it has room for. -/
theorem feedSink_wsSinkIn (hfuel : bytes.length ≤ fuel)
    (hroom : target.length + bytes.length ≤ authdInBufBytes) :
    feedSink wsSinkIn fuel target bytes = (true, target ++ bytes) := by
  refine feedSink_of_appends (fun target part hfits => ?_) hfuel hroom
  exact if_neg (by omega)

theorem takePayload_wsSinkIn (hroom : target.length + bytes.length ≤ authdInBufBytes) :
    ws.takePayload wsSinkIn target bytes = ws.takePayload gather target bytes := by
  have hpart : (ws.unmask (bytes.take ws.payloadLeft)).length ≤ bytes.length := by
    rw [length_unmask]
    exact List.length_take_le' _ _
  unfold takePayload
  dsimp only
  rw [feedSink_gather target le_rfl, feedSink_wsSinkIn le_rfl (by omega)]

theorem takePayload_hush (ws : Ws) (before target bytes : Bytes) :
    ws.hush.takePayload gather (before ++ target) bytes =
      ((ws.takePayload gather target bytes).1, (ws.takePayload gather target bytes).2.1.hush,
        before ++ (ws.takePayload gather target bytes).2.2) := by
  have hunmask : ∀ part, ws.hush.unmask part = ws.unmask part := fun _ => rfl
  have hleft : ws.hush.payloadLeft = ws.payloadLeft := rfl
  have hcontrol : ws.hush.isControl = ws.isControl := rfl
  have hctrl : ws.hush.ctrl = ws.ctrl := rfl
  unfold takePayload
  simp only [hunmask, hleft, hcontrol, hctrl, feedSink_gather _ le_rfl]
  split
  · split
    · rfl
    · rfl
  rw [← List.append_assoc]
  rfl

/-- What has been read and what is left are no more than what there was. -/
theorem length_takePayload (ws : Ws) (target bytes : Bytes) :
    (ws.takePayload gather target bytes).2.2.length + (bytes.drop ws.payloadLeft).length ≤
      target.length + bytes.length := by
  have hpart : (ws.unmask (bytes.take ws.payloadLeft)).length + (bytes.drop ws.payloadLeft).length =
      bytes.length := by
    rw [length_unmask, ← List.length_append, List.take_append_drop]
  unfold takePayload
  dsimp only
  split
  · split
    all_goals dsimp only; omega
  rw [feedSink_gather target le_rfl, List.length_append]
  omega

/-- The reading into a buffer with enough room is the reading into any other one, apart from the
replies and from what was in it before. -/
theorem consumeLoop_hush (fuel : ℕ) (ws : Ws) (before : Bytes)
    (hroom : target.length + bytes.length ≤ authdInBufBytes) :
    ws.hush.consumeLoop gather fuel (before ++ target) bytes =
      ((ws.consumeLoop wsSinkIn fuel target bytes).1,
        (ws.consumeLoop wsSinkIn fuel target bytes).2.1.hush,
        before ++ (ws.consumeLoop wsSinkIn fuel target bytes).2.2) := by
  induction fuel generalizing ws target bytes with
  | zero => rfl
  | succ fuel ih =>
    have hleft : ws.hush.payloadLeft = ws.payloadLeft := rfl
    have hwants : ws.hush.wantsHeader = ws.wantsHeader := rfl
    rw [consumeLoop_succ, consumeLoop_succ]
    unfold turn
    rw [hleft, hwants, takeHeader_hush, takePayload_hush, takePayload_wsSinkIn hroom]
    split
    · rfl
    split_ifs with hheader
    · cases htaken : ws.takeHeader bytes with
      | none => rfl
      | some taken =>
        obtain ⟨taken, rest⟩ := taken
        have hshorter := (takeHeader_rest htaken).2.2.2
        have htakenWants : taken.hush.wantsHeader = taken.wantsHeader := rfl
        dsimp only [Option.map_some]
        rw [htakenWants, headerComplete_hush]
        split
        · rfl
        cases taken.headerComplete with
        | none => rfl
        | some started =>
          have hstartedLeft : started.hush.payloadLeft = started.payloadLeft := rfl
          dsimp only [Option.map_some]
          rw [hstartedLeft, frameDone_hush]
          split
          · cases started.frameDone with
            | mk closes next =>
              cases closes with
              | true => rfl
              | false => exact ih next (by omega)
          · exact ih started (by omega)
    · have hlength := length_takePayload ws target bytes
      generalize ws.takePayload gather target bytes = step at hlength ⊢
      obtain ⟨taken, next, after⟩ := step
      cases taken with
      | false => rfl
      | true =>
        have hnextLeft : next.hush.payloadLeft = next.payloadLeft := rfl
        dsimp only at hlength ⊢
        rw [hnextLeft, frameDone_hush]
        split
        · rfl
        cases next.frameDone with
        | mk closes last =>
          cases closes with
          | true => rfl
          | false => exact ih last (by omega)

/-- `ws_consume` on the input buffer, against the reading without a bound. -/
theorem scan_hush (ws : Ws) (before : Bytes)
    (hroom : target.length + bytes.length ≤ authdInBufBytes) :
    ws.hush.scan (before ++ target) bytes =
      (settled (ws.consume wsSinkIn target bytes)).map fun read =>
        (read.1.hush, before ++ read.2) := by
  have hstage : ws.hush.stage = ws.stage := rfl
  unfold scan consume
  rw [hstage]
  split
  · rfl
  · rfl
  · rw [consumeLoop_hush bytes.length ws before hroom]
    generalize ws.consumeLoop wsSinkIn bytes.length target bytes = read
    obtain ⟨status, next, after⟩ := read
    cases status with
    | ok | needMore | errProtocol => rfl

/-- Nothing that was gathered is lost. -/
theorem gathered_consumeLoop (fuel : ℕ) (ws : Ws) (target bytes : Bytes) :
    target <+: (ws.consumeLoop gather fuel target bytes).2.2 := by
  induction fuel generalizing ws target bytes with
  | zero => exact List.prefix_rfl
  | succ fuel ih =>
    rw [consumeLoop_succ]
    unfold turn
    split
    · exact List.prefix_rfl
    split
    · split
      · exact List.prefix_rfl
      split
      · exact List.prefix_rfl
      split
      · exact List.prefix_rfl
      split
      · split
        · exact List.prefix_rfl
        · exact ih _ _ _
      · exact ih _ _ _
    · have htaken : target <+: (ws.takePayload gather target bytes).2.2 := by
        unfold takePayload
        dsimp only
        split
        · split
          · exact List.prefix_rfl
          · exact List.prefix_rfl
        rw [feedSink_gather target le_rfl]
        exact List.prefix_append _ _
      split
      · rename_i hstep
        rw [hstep] at htaken
        exact htaken
      rename_i hstep
      rw [hstep] at htaken
      split
      · exact htaken
      split
      · exact htaken
      · exact htaken.trans (ih _ _ _)

/-- Frames that are read are followed by frames, and what they carry by what they carry. -/
theorem scan_eq_some (hscan : ws.scan target bytes = some (next, after)) :
    ws.stage ≠ .upgrade ∧ next.stage ≠ .upgrade ∧ target <+: after ∧ next.state = ws.state := by
  have hopen : ws.stage ≠ .upgrade := by
    intro hupgrade
    rw [scan_of_upgrade hupgrade] at hscan
    cases hscan
  have hcontinues := continues_consume gather ws target bytes
  have hgathered : target <+: (ws.consume gather target bytes).2.2 := by
    unfold consume
    split
    · exact List.prefix_rfl
    · exact List.prefix_rfl
    · exact gathered_consumeLoop _ _ _ _
  unfold scan at hscan
  generalize ws.consume gather target bytes = read at hscan hcontinues hgathered
  obtain ⟨status, last, taken⟩ := read
  cases status with
  | errProtocol => cases hscan
  | ok | needMore =>
    obtain ⟨rfl, rfl⟩ := Prod.mk.inj (Option.some.inj hscan)
    exact ⟨hopen, hcontinues.stage hopen, hgathered, hcontinues.state⟩

end Ws

end MldsaAuth.Authd
