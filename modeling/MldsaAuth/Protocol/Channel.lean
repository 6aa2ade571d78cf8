/-
# Two sessions and a hostile network

The two ends of one matching handshake each make a session. From then on either end
seals and opens in any order, with any contents and clock readings, and the network
offers to either end whatever bytes it likes: records in any order, records sent back
to their sender, altered or invented ones. The only assumption is about the AEAD: it
decrypts nothing that was not encrypted under the same key, nonce and associated data.
Under it the pair refines the ordered duplex channel.
-/

import MldsaAuth.Foundation.Duplex
import MldsaAuth.Protocol.Session

namespace MldsaAuth.Protocol

open Foundation Crypto Function Machine HandshakeCtx

/-- The far end. -/
def HandshakeRole.other : HandshakeRole → HandshakeRole
  | initiator => responder
  | responder => initiator

theorem HandshakeRole.other_ne (side : HandshakeRole) : side.other ≠ side := by
  cases side <;> decide

/-- An encryption that was made, with the ciphertext it returned. -/
structure AeadEntry where
  call : AeadCall
  ciphertext : Bytes

/-- A content an end has sealed, with the record it got for it. -/
structure SealedRecord where
  content : Bytes
  bytes : Bytes

/-- Both sessions, what each end has sealed and accepted so far, and every encryption made
so far by anyone. -/
structure SessionPair where
  session : HandshakeRole → Session
  sealed : HandshakeRole → List SealedRecord
  accepted : HandshakeRole → List Bytes
  log : List AeadEntry

/-- One end seals; one end is offered bytes; somebody else encrypts something. -/
inductive PairEvent where
  | sealRecord (side : HandshakeRole) (aead : Aead) (args : SealArgs) (now : ℕ)
  | openRecord (side : HandshakeRole) (aead : Aead) (args : OpenArgs) (now : ℕ)
  | foreign (entry : AeadEntry)

/-- The assumption on the AEAD: what it decrypts was encrypted under the same key, nonce
and associated data, to this very ciphertext. -/
def IdealDecrypt (aead : Aead) (log : List AeadEntry) : Prop :=
  ∀ key nonce ad ciphertext msg, aead.decrypt key nonce ad ciphertext = some msg →
    ⟨⟨key, nonce, ad, msg⟩, ciphertext⟩ ∈ log

/-- The record a successful seal adds. -/
def sealedBy (args : SealArgs) (result : SessionResult) : List SealedRecord :=
  match result.status, result.output with
  | .ok, some bytes => [⟨args.content, bytes⟩]
  | _, _ => []

/-- The content a successful open adds. -/
def acceptedBy (result : SessionResult) : List Bytes :=
  match result.status, result.output with
  | .ok, some content => [content]
  | _, _ => []

@[simp]
theorem sealedBy_none (args : SealArgs) (status : SessionStatus) (session : Session) :
    sealedBy args { status := status, session := session } = [] := by
  cases status <;> rfl

@[simp]
theorem acceptedBy_none (status : SessionStatus) (session : Session) :
    acceptedBy { status := status, session := session } = [] := by
  cases status <;> rfl

theorem ne_ok_of_misuse {status : SessionStatus}
    (hstatus : status = .invalidArg ∨ status = .unexpectedState) : status ≠ .ok := by
  rcases hstatus with rfl | rfl <;> simp

/-- The encryption a seal makes, if it gets that far and the AEAD returns a ciphertext. -/
def encryptedBy (aead : Aead) (session : Session) (args : SealArgs) (now : ℕ) : List AeadEntry :=
  match session.sealPrepare args now with
  | .error _ => []
  | .ok (call, _) =>
    ((aead.encrypt call.key call.nonce call.ad call.msg).map fun ciphertext =>
      ⟨call, ciphertext⟩).toList

/-- The key an end sends under. -/
def sideKey (keys : TrafficKeys) : HandshakeRole → TrafficKey
  | .initiator => keys.c2s
  | .responder => keys.s2c

/-- The direction byte an end sends with. -/
def sideDir : HandshakeRole → UInt8
  | .initiator => Direction.c2s.byte
  | .responder => Direction.s2c.byte

theorem sideDir_injective : Injective sideDir := by
  intro first second hdir
  cases first <;> cases second <;> simp_all [sideDir, Direction.byte]

/-- The pair as a machine. Others encrypt under other keys. -/
def sessionPair (keys : TrafficKeys) : Machine SessionPair PairEvent where
  step state
    | .sealRecord side aead args now =>
      let result := sessionSeal aead (state.session side) args now
      { state with
        session := update state.session side result.session
        sealed := update state.sealed side (state.sealed side ++ sealedBy args result)
        log := state.log ++ encryptedBy aead (state.session side) args now }
    | .openRecord side aead args now =>
      let result := sessionOpen aead (state.session side) args now
      { state with
        session := update state.session side result.session
        accepted := update state.accepted side (state.accepted side ++ acceptedBy result) }
    | .foreign entry => { state with log := state.log ++ [entry] }
  allowed state
    | .sealRecord _ _ _ _ => True
    | .openRecord _ aead _ _ => IdealDecrypt aead state.log
    | .foreign entry => entry.call.key ≠ keys.c2s ∧ entry.call.key ≠ keys.s2c

/-- Two sessions that have not been used yet. -/
def SessionPair.start (initiator responder : Session) : SessionPair where
  session := fun side =>
    match side with
    | .initiator => initiator
    | .responder => responder
  sealed := fun _ => []
  accepted := fun _ => []
  log := []

/-- What the pair is for: the contents sealed and accepted at each end. -/
def SessionPair.duplex (state : SessionPair) : Duplex HandshakeRole Bytes where
  sent := fun side => (state.sealed side).map SealedRecord.content
  received := state.accepted

/-- The bytes are the record the far end sealed next after those this end has accepted. -/
def SessionPair.NextExpected (state : SessionPair) (side : HandshakeRole) (record : Bytes) : Prop :=
  ∃ sealed, (state.sealed side.other)[(state.accepted side).length]? = some sealed ∧
    sealed.bytes = record

/-! ## Sealing, with the encryption it makes -/

theorem SessionLimits.rejectAfterMessages_le {limits : SessionLimits}
    (hvalid : limits.valid = true) : limits.rejectAfterMessages ≤ 2 ^ 33 := by
  simp only [valid, Bool.and_eq_true, decide_eq_true_eq] at hvalid
  exact hvalid.1.1.1.1.1.1.2

/-- The session after a sequence number has been reserved. -/
def Session.reserved (session : Session) : Session :=
  { session with sendSeq := (session.sendSeq + 1) % 2 ^ 64 }

variable (session : Session) (args : SealArgs) in
/-- Every outcome of `session_seal`, with the encryptions it adds. -/
inductive SealOutcome : SessionResult → List AeadEntry → Prop where
  | refused {status : SessionStatus} (hstatus : status ≠ .ok) :
      SealOutcome { status := status, session := session } []
  | expired (hactive : session.state = .active) :
      SealOutcome { status := .expired, session := session.terminate .expired } []
  | failed {entries : List AeadEntry} (hactive : session.state = .active)
      (hseq : session.sendSeq < session.limits.rejectAfterMessages)
      (hentries : ∀ entry ∈ entries, entry.call = session.sealCall args.content ∧
        entry.ciphertext.length ≠ entry.call.msg.length + aeadTagBytes) :
      SealOutcome { status := .internal, session := session.reserved.terminate .failed } entries
  | sealed {ciphertext : Bytes} (hactive : session.state = .active)
      (hseq : session.sendSeq < session.limits.rejectAfterMessages)
      (hinner : openInner (session.sealCall args.content).msg = some args.content) :
      SealOutcome
        { status := .ok
          session := session.reserved
          output := some (recordBytes session.sendSeq ciphertext) }
        [⟨session.sealCall args.content, ciphertext⟩]

theorem sessionSeal_outcome (aead : Aead) (session : Session) (args : SealArgs) (now : ℕ) :
    SealOutcome session args (sessionSeal aead session args now)
      (encryptedBy aead session args now) := by
  have hview := sealPrepare_view session args now
  unfold sessionSeal encryptedBy
  generalize session.sealPrepare args now = prepared at hview ⊢
  cases hview with
  | misuse hstatus => exact .refused (ne_ok_of_misuse hstatus)
  | badBucket => exact .refused (by simp)
  | expired hactive => exact .expired hactive
  | ready hactive hbucket hcontent hseq =>
    dsimp only
    cases aead.encrypt (session.sealCall args.content).key
        (session.sealCall args.content).nonce (session.sealCall args.content).ad
        (session.sealCall args.content).msg with
    | none => exact .failed hactive hseq (by simp)
    | some ciphertext =>
      dsimp only [Option.map_some, Option.toList_some]
      split_ifs with hlength
      · exact .sealed hactive hseq (openInner_sealInner hcontent (le_innerLenFor hbucket))
      exact .failed hactive hseq (by simpa using hlength)

/-! ## The invariant of one end -/

variable {entries : List AeadEntry} {args : SealArgs} {ciphertext content : Bytes}
  {keys : TrafficKeys} {hid : HandshakeId} {side : HandshakeRole}

section Side

variable {session : Session}
  {sealed : List SealedRecord} {accepted : List Bytes} {log : List AeadEntry}

/-- What holds of one end's session, in its relation to what that end has sealed and
accepted and to the encryptions made under its sending key. -/
structure SideInv (keys : TrafficKeys) (hid : HandshakeId) (session : Session)
    (sealed : List SealedRecord) (accepted : List Bytes) (log : List AeadEntry)
    (side : HandshakeRole) : Prop where
  handshakeId : session.handshakeId = hid
  sendDir : session.sendDir = sideDir side
  recvDir : session.recvDir = sideDir side.other
  limits : session.limits.valid = true
  keyBlock : session.state = .active →
    session.keys = some ⟨sideKey keys side, sideKey keys side.other⟩
  sendBound : session.sendSeq ≤ 2 ^ 33
  sent : session.state = .active → session.sendSeq = sealed.length
  received : session.recvSeq = accepted.length
  recvBound : session.recvSeq ≤ 2 ^ 33
  /-- An encryption under the sending key with this end's associated data is the one of a
  sealed record, or returned a ciphertext of the wrong length. -/
  encrypted : ∀ entry ∈ log, entry.call.key = sideKey keys side → ∀ seq < 2 ^ 64,
    entry.call.ad = recordAd hid (sideDir side) seq →
      (∃ content, sealed[seq]? = some ⟨content, recordBytes seq entry.ciphertext⟩ ∧
        openInner entry.call.msg = some content) ∨
      entry.ciphertext.length ≠ entry.call.msg.length + aeadTagBytes

namespace SideInv

variable (hinv : SideInv keys hid session sealed accepted log side)

include hinv

/-- Encryptions that are not under this end's key and direction do not concern it. -/
theorem log_append (hforeign : ∀ entry ∈ entries, entry.call.key = sideKey keys side → ∀ seq < 2 ^
      64, entry.call.ad ≠ recordAd hid (sideDir side) seq) :
    SideInv keys hid session sealed accepted (log ++ entries) side :=
  { hinv with
    encrypted := by
      intro entry hentry hkey seq hseq had
      rcases List.mem_append.mp hentry with hold | hnew
      · exact hinv.encrypted entry hold hkey seq hseq had
      · exact absurd had (hforeign entry hnew hkey seq hseq) }

theorem terminate {state : SessionState} (hstate : state ≠ .active) :
    SideInv keys hid (session.terminate state) sealed accepted log side :=
  { hinv with
    keyBlock := fun hactive => absurd hactive hstate
    sent := fun hactive => absurd hactive hstate }

theorem sealCall_ad (content : Bytes) :
    (session.sealCall content).ad = recordAd hid (sideDir side) session.sendSeq := by
  simp [Session.sealCall, buildAd, hinv.handshakeId, hinv.sendDir]

theorem sendSeq_reserved (hseq : session.sendSeq < session.limits.rejectAfterMessages) :
    session.reserved.sendSeq = session.sendSeq + 1 ∧ session.sendSeq + 1 ≤ 2 ^ 33 := by
  have hlimit := SessionLimits.rejectAfterMessages_le hinv.limits
  refine ⟨Nat.mod_eq_of_lt ?_, ?_⟩ <;> omega

/-- A reserved sequence number whose encryption failed: the session is over, and what the
AEAD may have returned has the wrong length. -/
theorem failed (hseq : session.sendSeq < session.limits.rejectAfterMessages)
    (hentries : ∀ entry ∈ entries, entry.call = session.sealCall args.content ∧
      entry.ciphertext.length ≠ entry.call.msg.length + aeadTagBytes) :
    SideInv keys hid (session.reserved.terminate .failed) sealed accepted (log ++ entries)
      side := by
  have hreserved := hinv.sendSeq_reserved hseq
  exact
    { hinv.terminate (show SessionState.failed ≠ .active by simp) with
      sendBound := by
        change session.reserved.sendSeq ≤ 2 ^ 33
        omega
      sent := fun hactive => absurd hactive (by simp [Session.terminate])
      encrypted := by
        intro entry hentry hkey seq hlt had
        rcases List.mem_append.mp hentry with hold | hnew
        · exact hinv.encrypted entry hold hkey seq hlt had
        · exact Or.inr (hentries entry hnew).2 }

/-- A sealed record is the next one of its direction. -/
theorem append_sealed (hactive : session.state = .active)
    (hseq : session.sendSeq < session.limits.rejectAfterMessages)
    (hinner : openInner (session.sealCall args.content).msg = some args.content) :
    SideInv keys hid session.reserved
      (sealed ++ [⟨args.content, recordBytes session.sendSeq ciphertext⟩]) accepted
      (log ++ [⟨session.sealCall args.content, ciphertext⟩]) side := by
  have hreserved := hinv.sendSeq_reserved hseq
  have hsent := hinv.sent hactive
  exact
    { hinv with
      sendBound := by omega
      sent := fun _ => by
        rw [hreserved.1, hsent]
        simp
      encrypted := by
        intro entry hentry hkey seq hlt had
        rcases List.mem_append.mp hentry with hold | hnew
        · rcases hinv.encrypted entry hold hkey seq hlt had with ⟨content, hrecord, hopen⟩ | hlen
          · refine Or.inl ⟨content, ?_, hopen⟩
            have hindex := (List.getElem?_eq_some_iff.mp hrecord).1
            rw [List.getElem?_append_left hindex]
            exact hrecord
          · exact Or.inr hlen
        · obtain rfl := List.mem_singleton.mp hnew
          rw [hinv.sealCall_ad] at had
          obtain ⟨-, rfl⟩ := recordAd_injective (by omega) hlt had
          refine Or.inl ⟨args.content, ?_, hinner⟩
          rw [hsent]
          simp }

/-- An accepted record only moves the receiving counter. -/
theorem append_accepted {confirmed : Bool}
    (hseq : session.recvSeq < session.limits.rejectAfterMessages) :
    SideInv keys hid
      { session with recvSeq := (session.recvSeq + 1) % 2 ^ 64, peerConfirmed := confirmed }
      sealed (accepted ++ [content]) log side := by
  have hlimit := SessionLimits.rejectAfterMessages_le hinv.limits
  have hnext : (session.recvSeq + 1) % 2 ^ 64 = session.recvSeq + 1 := Nat.mod_eq_of_lt (by omega)
  exact
    { hinv with
      received := by
        rw [hnext, hinv.received]
        simp
      recvBound := by
        change (session.recvSeq + 1) % 2 ^ 64 ≤ _
        omega }

end SideInv

end Side

/-- Both ends are in order. -/
def PairInv (keys : TrafficKeys) (hid : HandshakeId) (state : SessionPair) : Prop :=
  ∀ side, SideInv keys hid (state.session side) (state.sealed side) (state.accepted side)
    state.log side

/-! ## One step -/

variable {result : SessionResult}

theorem SealOutcome.call_eq {session : Session}
    (houtcome : SealOutcome session args result entries) :
    ∀ entry ∈ entries, entry.call = session.sealCall args.content := by
  cases houtcome with
  | refused => simp
  | expired => simp
  | sealed => simp
  | failed hactive hseq hentries => exact fun entry hentry => (hentries entry hentry).1

variable {aead : Aead} {event : PairEvent}

section Pair

variable {state : SessionPair}

/-- A seal keeps its own end in order. -/
theorem SideInv.seal {session : Session} {sealed : List SealedRecord} {accepted : List Bytes}
    {log : List AeadEntry} (hinv : SideInv keys hid session sealed accepted log side)
    (houtcome : SealOutcome session args result entries) :
    SideInv keys hid result.session (sealed ++ sealedBy args result) accepted (log ++ entries)
      side := by
  cases houtcome with
  | refused => simpa using hinv
  | expired =>
    simpa using hinv.terminate (show SessionState.expired ≠ .active by simp)
  | failed hactive hseq hentries =>
    simpa using hinv.failed hseq hentries
  | sealed hactive hseq hinner => exact hinv.append_sealed hactive hseq hinner

section

variable (hinv : PairInv keys hid state)

include hinv

theorem pairInv_seal (aead : Aead) (args : SealArgs) (now : ℕ) :
    PairInv keys hid ((sessionPair keys).step state (.sealRecord side aead args now)) := by
  have houtcome := sessionSeal_outcome aead (state.session side) args now
  intro party
  simp only [sessionPair]
  by_cases hside : party = side
  · subst hside
    simpa using (hinv party).seal houtcome
  rw [update_of_ne hside, update_of_ne hside]
  refine (hinv party).log_append ?_
  intro entry hentry _ seq hseq had
  have hbound := (hinv side).sendBound
  rw [houtcome.call_eq entry hentry, (hinv side).sealCall_ad] at had
  have hdir := (recordAd_injective (by omega) hseq had).1
  exact hside (sideDir_injective hdir).symm

/-- What an end accepts is the record the far end sealed with this sequence number. -/
theorem sealed_of_decrypt (hideal : IdealDecrypt aead state.log)
    (hactive : (state.session side).state = .active) {inner : Bytes}
    (hdecrypt : aead.decrypt (state.session side).recvKey (buildNonce (state.session side).recvSeq)
      (buildAd (state.session side) (state.session side).recvDir (state.session side).recvSeq)
      ciphertext = some inner) (hlength : ciphertext.length = inner.length + aeadTagBytes)
    (hinner : openInner inner = some content) :
    (state.sealed side.other)[(state.accepted side).length]? =
      some ⟨content, recordBytes (state.session side).recvSeq ciphertext⟩ := by
  have hentry := hideal _ _ _ _ _ hdecrypt
  have hkey : (state.session side).recvKey = sideKey keys side.other := by
    simp [Session.recvKey, (hinv side).keyBlock hactive]
  have had : buildAd (state.session side) (state.session side).recvDir
      (state.session side).recvSeq =
        recordAd hid (sideDir side.other) (state.session side).recvSeq := by
    simp [buildAd, (hinv side).handshakeId, (hinv side).recvDir]
  have hbound := (hinv side).recvBound
  rw [← (hinv side).received]
  rcases (hinv side.other).encrypted _ hentry hkey _ (by omega) had with
    ⟨sealedContent, hrecord, hopen⟩ | hwrong
  · obtain rfl : sealedContent = content := Option.some.inj (hopen.symm.trans hinner)
    exact hrecord
  · exact absurd hlength hwrong

theorem pairInv_open (aead : Aead) (args : OpenArgs) (now : ℕ) :
    PairInv keys hid ((sessionPair keys).step state (.openRecord side aead args now)) := by
  have hview := sessionOpen_view aead (state.session side) args now
  intro party
  simp only [sessionPair]
  by_cases hside : party = side
  · subst hside
    rw [update_self, update_self]
    generalize sessionOpen aead (state.session party) args now = result at hview ⊢
    cases hview with
    | misuse => simpa using hinv party
    | ended hactive hstatus hstate => simpa using (hinv party).terminate hstate.1
    | accepted hactive hrecord hseq =>
      exact (hinv party).append_accepted hseq
  · rw [update_of_ne hside, update_of_ne hside]
    exact hinv party

theorem pairInv_foreign {entry : AeadEntry}
    (hallowed : (sessionPair keys).allowed state (.foreign entry)) :
    PairInv keys hid ((sessionPair keys).step state (.foreign entry)) := by
  intro party
  refine (hinv party).log_append ?_
  intro other hother hkey
  obtain rfl := List.mem_singleton.mp hother
  cases party with
  | initiator => exact absurd hkey hallowed.1
  | responder => exact absurd hkey hallowed.2

theorem pairInv_step (hallowed : (sessionPair keys).allowed state event) :
    PairInv keys hid ((sessionPair keys).step state event) := by
  cases event with
  | sealRecord side aead args now => exact pairInv_seal hinv aead args now
  | openRecord side aead args now => exact pairInv_open hinv aead args now
  | foreign => exact pairInv_foreign hinv hallowed

end

/-! ## Refinement of the ordered channel -/

theorem duplex_sealed (contents : List SealedRecord) (session : HandshakeRole → Session)
    (log : List AeadEntry) :
    SessionPair.duplex
      { state with
        session := session
        sealed := update state.sealed side (state.sealed side ++ contents)
        log := log } =
      { state.duplex with
        sent := update state.duplex.sent side
          (state.duplex.sent side ++ contents.map SealedRecord.content) } := by
  simp only [SessionPair.duplex, Duplex.mk.injEq, and_true]
  funext party
  by_cases hside : party = side
  · subst hside
    simp
  · simp [update_of_ne hside]

/-- Sealing is sending, accepting is receiving what comes next, and every other step of the
pair is invisible. -/
theorem sessionPair_simulates (keys : TrafficKeys) (hid : HandshakeId) :
    Simulates (sessionPair keys) (Duplex.machine HandshakeRole.other)
      SessionPair.duplex (PairInv keys hid) := by
  intro state event hinv hallowed
  refine ⟨pairInv_step hinv hallowed, ?_⟩
  cases event with
  | sealRecord side aead args now =>
    have houtcome := sessionSeal_outcome aead (state.session side) args now
    simp only [sessionPair, duplex_sealed]
    generalize sessionSeal aead (state.session side) args now = result at houtcome ⊢
    generalize encryptedBy aead (state.session side) args now = entries at houtcome
    cases houtcome with
    | sealed =>
      exact ⟨[.send side args.content], Run.single trivial⟩
    | refused | expired | failed => exact ⟨[], by simpa using Run.nil⟩
  | openRecord side aead args now =>
    have hview := sessionOpen_view aead (state.session side) args now
    simp only [sessionPair, SessionPair.duplex]
    generalize sessionOpen aead (state.session side) args now = result at hview ⊢
    cases hview with
    | misuse | ended => exact ⟨[], by simpa using Run.nil⟩
    | @accepted inner content ciphertext hactive hrecord hseq hdecrypt hlength hinner =>
      have hnext := sealed_of_decrypt hinv hallowed hactive hdecrypt hlength hinner
      refine ⟨[.receive side content], Run.single ?_⟩
      simp [Duplex.machine, hnext]
  | foreign => exact ⟨[], Run.nil⟩

/-! ## Sessions that are over -/

/-- From one state to the other, an end whose session is over has neither been revived nor
sealed or accepted anything. -/
def StaysOver (side : HandshakeRole) (first second : SessionPair) : Prop :=
  (first.session side).state ≠ .active →
    second.session side = first.session side ∧ second.sealed side = first.sealed side ∧
      second.accepted side = first.accepted side

theorem staysOver_step : StaysOver side state ((sessionPair keys).step state event) := by
  intro hover
  cases event with
  | sealRecord sealer aead args now =>
    simp only [sessionPair]
    by_cases hside : side = sealer
    · subst hside
      have houtcome := sessionSeal_outcome aead (state.session side) args now
      generalize sessionSeal aead (state.session side) args now = result at houtcome ⊢
      generalize encryptedBy aead (state.session side) args now = entries at houtcome
      cases houtcome with
      | refused => simp
      | expired hactive | failed hactive | sealed hactive => exact absurd hactive hover
    · simp [update_of_ne hside]
  | openRecord opener aead args now =>
    simp only [sessionPair]
    by_cases hside : side = opener
    · subst hside
      rw [update_self, update_self]
      have hview := sessionOpen_view aead (state.session side) args now
      generalize sessionOpen aead (state.session side) args now = result at hview ⊢
      cases hview with
      | misuse => simp
      | ended hactive | accepted hactive => exact absurd hactive hover
    · simp [update_of_ne hside]
  | foreign => exact ⟨rfl, rfl, rfl⟩

/-- A session that is over stays over in every later state. -/
theorem staysOver_run {later : List PairEvent} {final : SessionPair}
    (hrun : Run (sessionPair keys) state later final) (side : HandshakeRole) :
    StaysOver side state final := by
  refine hrun.preorder _ (fun _ _ => ⟨rfl, rfl, rfl⟩) ?_ fun _ _ _ => staysOver_step
  intro first second third hfirst hsecond hover
  obtain ⟨hsession, hsealed, haccepted⟩ := hfirst hover
  obtain ⟨hsession', hsealed', haccepted'⟩ := hsecond (by rwa [hsession])
  exact ⟨hsession'.trans hsession, hsealed'.trans hsealed, haccepted'.trans haccepted⟩

/-- A record that is not the next expected one is refused as misuse, or ends the session. -/
theorem open_unexpected (hinv : PairInv keys hid state) {args : OpenArgs}
    (hideal : IdealDecrypt aead state.log) (hunexpected : ¬ state.NextExpected side args.record)
    (now : ℕ) : let result := sessionOpen aead (state.session side) args now
    ((result.status = .invalidArg ∨ result.status = .unexpectedState) ∧
        result.session = state.session side) ∨
      (result.status ≠ .ok ∧ result.session.state ≠ .active) := by
  have hview := sessionOpen_view aead (state.session side) args now
  generalize sessionOpen aead (state.session side) args now = result at hview ⊢
  cases hview with
  | misuse hstatus => exact Or.inl ⟨hstatus, rfl⟩
  | ended hactive hstatus hstate => exact Or.inr ⟨hstatus, hstate.1⟩
  | accepted hactive hrecord hseq hdecrypt hlength hinner =>
    exact absurd ⟨_, sealed_of_decrypt hinv hideal hactive hdecrypt hlength hinner,
      hrecord.symm⟩ hunexpected

end Pair

/-! ## Sessions of one matching handshake -/

/-- Two established contexts at the two ends of one handshake. -/
structure MatchingEnds (initiator responder : HandshakeCtx) (keys : TrafficKeys)
    (hid : HandshakeId) : Prop where
  initiatorRole : initiator.role = some .initiator
  responderRole : responder.role = some .responder
  initiatorKeys : initiator.keyAt = some keys
  responderKeys : responder.keyAt = some keys
  initiatorId : initiator.getHandshakeId = some hid
  responderId : responder.getHandshakeId = some hid

/-- The arguments of one call that makes a session, other than the handshake context. -/
structure SessionInitArgs where
  env : CallEnv
  session : Session
  ledger : PendingStore
  limits : Option SessionLimits
  now : ℕ
  ledgerNow : ℕ

/-- The session made of a context. -/
def SessionInitArgs.init (args : SessionInitArgs) (hs : HandshakeCtx) : SessionInitResult :=
  sessionInitFromHandshake args.env args.session hs args.ledger args.limits args.now args.ledgerNow

/-- A session that has just been made is an unused end of its handshake. -/
theorem sideInv_of_init {args : SessionInitArgs} {hs : HandshakeCtx} {role : HandshakeRole}
    (hok : (args.init hs).status = .ok) (hrole : hs.role = some role)
    (hkeys : hs.keyAt = some keys) (hhid : hs.getHandshakeId = some hid) :
    SideInv keys hid (args.init hs).session [] [] [] role := by
  have hview := sessionInitFromHandshake_view args.env args.session hs args.ledger args.limits
    args.now args.ledgerNow
  unfold SessionInitArgs.init at hok ⊢
  generalize sessionInitFromHandshake args.env args.session hs args.ledger args.limits args.now
    args.ledgerNow = result at hview hok ⊢
  cases hview with
  | refused hstatus => exact absurd hok hstatus
  | @created found block limits hempty hfound hestablished hcommitted hblock hlimits =>
    obtain rfl : found = role := Option.some.inj (hfound.symm.trans hrole)
    simp only [keyAt, hestablished, hcommitted, hblock, and_self, if_true,
      Option.some.injEq] at hkeys
    simp only [getHandshakeId, Option.ite_none_right_eq_some, Option.some.injEq] at hhid
    subst hkeys
    exact
      { handshakeId := hhid.2
        sendDir := by cases found <;> rfl
        recvDir := by cases found <;> rfl
        limits := hlimits
        keyBlock := fun _ => by cases found <;> rfl
        sendBound := Nat.zero_le _
        sent := fun _ => rfl
        received := rfl
        recvBound := Nat.zero_le _
        encrypted := by simp }

/-- Whatever the network does, each end has accepted an initial part of what the other end
has sealed; and a record that is not the next expected one is refused as misuse with the
session unchanged, or ends the session in every later state. -/
theorem accepted_prefix_of_sealed {initiator responder : HandshakeCtx} {keys : TrafficKeys}
    {hid : HandshakeId} (hmatch : MatchingEnds initiator responder keys hid)
    {initiatorArgs responderArgs : SessionInitArgs}
    (hinitiator : (initiatorArgs.init initiator).status = .ok)
    (hresponder : (responderArgs.init responder).status = .ok)
    {events : List PairEvent} {state : SessionPair}
    (hrun : Run (sessionPair keys)
      (.start (initiatorArgs.init initiator).session (responderArgs.init responder).session)
      events state) :
    (∀ side, state.accepted side <+: (state.sealed side.other).map SealedRecord.content) ∧
      ∀ side aead args now, IdealDecrypt aead state.log →
        ¬ state.NextExpected side args.record →
        let result := sessionOpen aead (state.session side) args now
        ((result.status = .invalidArg ∨ result.status = .unexpectedState) ∧
            result.session = state.session side) ∨
          (result.status ≠ .ok ∧ result.session.state ≠ .active ∧
            ∀ later final, Run (sessionPair keys)
              ((sessionPair keys).step state (.openRecord side aead args now)) later final →
              final.session side = result.session ∧
                final.sealed side = state.sealed side ∧
                final.accepted side = state.accepted side) := by
  have hstart : PairInv keys hid
      (.start (initiatorArgs.init initiator).session (responderArgs.init responder).session) := by
    intro side
    cases side with
    | initiator =>
      exact sideInv_of_init hinitiator hmatch.initiatorRole hmatch.initiatorKeys hmatch.initiatorId
    | responder =>
      exact sideInv_of_init hresponder hmatch.responderRole hmatch.responderKeys hmatch.responderId
  obtain ⟨hinv, labels, hduplex⟩ := (sessionPair_simulates keys hid).run hrun hstart
  refine ⟨fun side => Duplex.inOrder_run hduplex side, ?_⟩
  intro side aead args now hideal hunexpected
  rcases open_unexpected hinv hideal hunexpected now with hmisuse | ⟨hstatus, hover⟩
  · exact Or.inl hmisuse
  refine Or.inr ⟨hstatus, hover, ?_⟩
  intro later final hlater
  have hstays := staysOver_run hlater side
  simp only [StaysOver, sessionPair, update_self] at hstays
  obtain ⟨hsession, hsealed, haccepted⟩ := hstays hover
  refine ⟨hsession, hsealed, haccepted.trans ?_⟩
  have hview := sessionOpen_view aead (state.session side) args now
  generalize sessionOpen aead (state.session side) args now = result at hview hstatus ⊢
  cases hview with
  | misuse => simp
  | ended => simp
  | accepted => exact absurd rfl hstatus

/-- An AEAD that remembers what was encrypted and decrypts nothing else. -/
def recallAead (log : List AeadEntry) : Aead where
  encrypt := fun _ _ _ msg => some (msg ++ List.replicate aeadTagBytes 0)
  decrypt := fun key nonce ad ciphertext =>
    (log.find? fun entry => decide (entry.call.key = key ∧ entry.call.nonce = nonce ∧
      entry.call.ad = ad ∧ entry.ciphertext = ciphertext)).map fun entry => entry.call.msg

theorem idealDecrypt_recallAead {log : List AeadEntry} : IdealDecrypt (recallAead log) log := by
  intro key nonce ad ciphertext msg hdecrypt
  simp only [recallAead, Option.map_eq_some_iff] at hdecrypt
  obtain ⟨entry, hfind, rfl⟩ := hdecrypt
  have hmem := List.mem_of_find?_eq_some hfind
  have hmatch := List.find?_some hfind
  simp only [decide_eq_true_eq] at hmatch
  obtain ⟨rfl, rfl, rfl, rfl⟩ := hmatch
  exact hmem

/-- An established context with given keys. -/
def establishedCtx (role : HandshakeRole) (keys : TrafficKeys) (hid : HandshakeId) : HandshakeCtx :=
  { wiped with
    role := some role
    state := .established
    handshakeId := hid
    sessionKeys := some keys
    keysCommitted := true }

/-- A session is made in an empty structure, with room for two small records. -/
def twoRecordInit : SessionInitArgs where
  env :=
    { alloc := fun _ => true
      ephSecret := Blob.zero 32
      kemSeed := Blob.zero 64
      encapsSeed := Blob.zero 32
      signSeed := Blob.zero 32
      sessionId := Blob.zero 16
      nonce := Blob.zero 32
      now := 0
      later := 0 }
  session := .blank
  ledger := .blank
  limits := some ⟨1, 2, 1000, 1000, 16⟩
  now := 5
  ledgerNow := 5

/-- The initiator seals one content; the responder is offered its record twice. -/
theorem accepted_prefix_of_sealed_replay :
    let keys : TrafficKeys := ⟨Blob.zero 32, ⟨List.replicate 32 1, rfl⟩⟩
    let first := (twoRecordInit.init (establishedCtx .initiator keys (Blob.zero 16))).session
    let second := (twoRecordInit.init (establishedCtx .responder keys (Blob.zero 16))).session
    let sealed := (sessionPair keys).step (.start first second)
      (.sealRecord .initiator (recallAead []) ⟨1, [7, 8], 100, 64, true⟩ 6)
    let offer : OpenArgs := ⟨1, ((sealed.sealed .initiator).map SealedRecord.bytes).flatten,
      1000, 64, true⟩
    let opened := (sessionPair keys).step sealed
      (.openRecord .responder (recallAead sealed.log) offer 7)
    opened.accepted .responder = [[7, 8]] ∧
      (opened.accepted .responder <+: (opened.sealed .initiator).map SealedRecord.content) ∧
      (sessionOpen (recallAead opened.log) (opened.session .responder) offer 8).session.state ≠
        .active := by
  intro keys first second sealed offer opened
  have hrun : Run (sessionPair keys) (.start first second) _ opened :=
    Run.snoc (Run.single trivial) idealDecrypt_recallAead
  have hmatch : MatchingEnds (establishedCtx .initiator keys (Blob.zero 16))
      (establishedCtx .responder keys (Blob.zero 16)) keys (Blob.zero 16) :=
    ⟨rfl, rfl, rfl, rfl, rfl, rfl⟩
  have htheorem := accepted_prefix_of_sealed hmatch (by decide) (by decide) hrun
  have hlast : opened.accepted .responder = [[7, 8]] := by decide
  refine ⟨hlast, htheorem.1 .responder, ?_⟩
  have hreplay : (sessionOpen (recallAead opened.log) (opened.session .responder) offer
      8).status = .replay := by decide
  have hlength : (opened.sealed .initiator).length = 1 := by decide
  have hunexpected : ¬ opened.NextExpected .responder offer.record := by
    rintro ⟨record, hnext, -⟩
    rw [hlast] at hnext
    have hlt := (List.getElem?_eq_some_iff.mp hnext).1
    change _ < (opened.sealed .initiator).length at hlt
    simp [hlength] at hlt
  rcases htheorem.2 .responder _ offer 8 idealDecrypt_recallAead hunexpected with
    ⟨hmisuse, -⟩ | ⟨-, hover, -⟩
  · rw [hreplay] at hmisuse
    simp at hmisuse
  · exact hover

end MldsaAuth.Protocol
