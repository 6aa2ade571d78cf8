/-
# The record session

An established handshake is consumed by a session, which seals and opens padded
records under one key per direction. Sequence numbers are explicit on the wire,
enter the nonce and the associated data, and must arrive strictly in order. A
session that fails or runs out of time keeps zeroed keys and never works again.
This file embeds `protocol/session.c`. Addresses are 64-bit numbers with zero for
NULL; the AEAD is a parameter of each call, since an encryption may fail at any time.
-/

import MldsaAuth.Protocol.Handshake

namespace MldsaAuth.Protocol

open Foundation Crypto

/-- `session_state_t`. -/
inductive SessionState where
  | empty
  | active
  | expired
  | failed
deriving DecidableEq, Repr

/-- `session_status_t`. -/
inductive SessionStatus where
  | ok
  | invalidArg
  | unexpectedState
  | malformed
  | replay
  | outOfOrder
  | auth
  | limit
  | expired
  | resourceExhausted
  | internal
deriving DecidableEq, Repr

/-- `session_limits_t`. -/
structure SessionLimits where
  rekeyAfterMessages : ℕ
  rejectAfterMessages : ℕ
  rekeyAfterMs : ℕ
  rejectAfterMs : ℕ
  padBucket : ℕ
deriving DecidableEq

/-- `session_default_limits`. -/
def SessionLimits.default : SessionLimits where
  rekeyAfterMessages := 2 ^ 32
  rejectAfterMessages := 2 ^ 33
  rekeyAfterMs := 3600000
  rejectAfterMs := 3900000
  padBucket := 256

/-- `pad_bucket_valid`. -/
def padBucketValid (bucket : ℕ) : Bool :=
  bucket == 1 || bucket == 16 || bucket == 64 || bucket == 256 || bucket == 1024 || bucket == 4096

/-- `limits_valid`: a caller may only tighten the defaults. -/
def SessionLimits.valid (limits : SessionLimits) : Bool :=
  decide (1 ≤ limits.rekeyAfterMessages) &&
    decide (limits.rekeyAfterMessages ≤ limits.rejectAfterMessages) &&
    decide (limits.rejectAfterMessages ≤ SessionLimits.default.rejectAfterMessages) &&
    decide (limits.rekeyAfterMessages ≤ SessionLimits.default.rekeyAfterMessages) &&
    decide (1 ≤ limits.rekeyAfterMs) &&
    decide (limits.rekeyAfterMs ≤ limits.rejectAfterMs) &&
    decide (limits.rejectAfterMs ≤ SessionLimits.default.rejectAfterMs) &&
    decide (limits.rekeyAfterMs ≤ SessionLimits.default.rekeyAfterMs) &&
    padBucketValid limits.padBucket

/-- The key block of a session. -/
structure SessionKeys where
  send : TrafficKey
  recv : TrafficKey
deriving DecidableEq

/-- The wiped key block. -/
def SessionKeys.blank : SessionKeys where
  send := Blob.zero 32
  recv := Blob.zero 32

/-- `session_t`. -/
structure Session where
  state : SessionState
  role : Option HandshakeRole
  peerConfirmed : Bool
  keys : Option SessionKeys
  sendDir : UInt8
  recvDir : UInt8
  handshakeId : HandshakeId
  sendSeq : ℕ
  recvSeq : ℕ
  startMs : ℕ
  limits : SessionLimits
deriving DecidableEq

/-- The zeroed session, before its first use and after `session_wipe`. -/
def Session.blank : Session where
  state := .empty
  role := none
  peerConfirmed := false
  keys := none
  sendDir := 0
  recvDir := 0
  handshakeId := Blob.zero 16
  sendSeq := 0
  recvSeq := 0
  startMs := 0
  limits := ⟨0, 0, 0, 0, 0⟩

/-! ## Setup and teardown -/

/-- The session an established context turns into. -/
def Session.ofKeys (initiator : Bool) (keys : TrafficKeys) (handshakeId : HandshakeId)
    (limits : SessionLimits) (now : ℕ) : Session where
  state := .active
  role := some (if initiator then .initiator else .responder)
  peerConfirmed := !initiator
  keys := some
    { send := if initiator then keys.c2s else keys.s2c
      recv := if initiator then keys.s2c else keys.c2s }
  sendDir := if initiator then Direction.c2s.byte else Direction.s2c.byte
  recvDir := if initiator then Direction.s2c.byte else Direction.c2s.byte
  handshakeId := handshakeId
  sendSeq := 0
  recvSeq := 0
  startMs := now
  limits := limits

/-- What `session_init_from_handshake` hands back. -/
structure SessionInitResult where
  status : SessionStatus
  session : Session
  hs : HandshakeCtx
  ledger : PendingStore

/-- `session_init_from_handshake`. The handshake context is wiped on success, so one
handshake feeds one session. `now` is the session clock; `ledgerNow` would be read by the
wipe if the context still held a ledger entry. -/
def sessionInitFromHandshake (env : CallEnv) (session : Session) (hs : HandshakeCtx)
    (ledger : PendingStore) (limits : Option SessionLimits) (now ledgerNow : ℕ) :
    SessionInitResult :=
  if session.state ≠ .empty ∨ session.keys.isSome then
    { status := .unexpectedState, session := session, hs := hs, ledger := ledger }
  else if limits.any fun given => !given.valid then
    { status := .invalidArg, session := session, hs := hs, ledger := ledger }
  else
    match hs.role, hs.keyAt, hs.getHandshakeId with
    | some role, some keys, some handshakeId =>
      if role = .responder ∧ hs.isPeerConfirmed = false then
        { status := .unexpectedState, session := session, hs := hs, ledger := ledger }
      else if now = uint64Max then
        { status := .expired, session := session, hs := hs, ledger := ledger }
      else if env.alloc .sessionKeys then
        let wiped := ctxWipe hs ledger ledgerNow
        { status := .ok
          session := .ofKeys (role = .initiator) keys handshakeId (limits.getD .default) now
          hs := wiped.1
          ledger := wiped.2 }
      else { status := .resourceExhausted, session := session, hs := hs, ledger := ledger }
    | _, _, _ => { status := .unexpectedState, session := session, hs := hs, ledger := ledger }

/-- `session_wipe`. -/
def sessionWipe (_session : Session) : Session := .blank

/-! ## Steady state -/

namespace Session

/-- `session_age_ms`: an unreadable clock, or one that went back, is the maximum age. -/
def ageMs (session : Session) (now : ℕ) : ℕ :=
  if now = uint64Max ∨ now < session.startMs then uint64Max else now - session.startMs

/-- `terminate`: the keys are zeroed at once; the block itself stays until the wipe. -/
def terminate (session : Session) (state : SessionState) : Session :=
  { session with
    keys := session.keys.map fun _ => .blank
    peerConfirmed := false
    state := state }

end Session

/-- `SESSION_RECORD_TYPE`. -/
def sessionRecordType : UInt8 := 0x04

/-- `SESSION_OVERHEAD_BYTES`: type, sequence number and tag. -/
def sessionOverheadBytes : ℕ := 25

/-- `SESSION_MAX_PLAINTEXT_BYTES`. -/
def sessionMaxPlaintextBytes : ℕ := 65536

/-- `SESSION_MAX_CONTENT_BYTES`. -/
def sessionMaxContentBytes : ℕ := 65534

/-- `SESSION_MIN_RECORD_BYTES`. -/
def sessionMinRecordBytes : ℕ := 27

/-- `SESSION_MAX_RECORD_BYTES`. -/
def sessionMaxRecordBytes : ℕ := 65561

/-- `build_nonce`. -/
def buildNonce (seq : ℕ) : Blob 12 :=
  ⟨[0, 0, 0, 0] ++ beBytes 8 seq, by simp⟩

/-- The associated data of a record: handshake, direction, type and sequence number. -/
def recordAd (handshakeId : HandshakeId) (direction : UInt8) (seq : ℕ) : Bytes :=
  ascii "mldsa-auth/v2/record" ++ 0 :: (handshakeId.toList ++
    direction :: sessionRecordType :: beBytes 8 seq)

/-- `build_ad`. -/
def buildAd (session : Session) (direction : UInt8) (seq : ℕ) : Bytes :=
  recordAd session.handshakeId direction seq

/-- `inner_len_for`. -/
def innerLenFor (contentLen bucket : ℕ) : ℕ := (contentLen + 2 + bucket - 1) / bucket * bucket

/-- `session_sealed_len`, for a session that is not NULL. -/
def sessionSealedLen (session : Session) (contentLen : ℕ) : ℕ :=
  if sessionMaxContentBytes < contentLen ∨ padBucketValid session.limits.padBucket = false then 0
  else innerLenFor contentLen session.limits.padBucket + sessionOverheadBytes

/-- `ranges_overlap`, on 64-bit addresses. -/
def rangesOverlap (first firstLen second secondLen : ℕ) : Bool :=
  if firstLen = 0 ∨ secondLen = 0 then false
  else
    decide (first < (second + secondLen) % 2 ^ 64) && decide (second < (first + firstLen) % 2 ^ 64)

/-- The AEAD as one call sees it. -/
structure Aead where
  /-- `aead_encrypt`: key, nonce, associated data, message -/
  encrypt : TrafficKey → Blob 12 → Bytes → Bytes → Option Bytes
  /-- `aead_decrypt`: key, nonce, associated data, ciphertext -/
  decrypt : TrafficKey → Blob 12 → Bytes → Bytes → Option Bytes

/-- The arguments of one encryption. -/
structure AeadCall where
  key : TrafficKey
  nonce : Blob 12
  ad : Bytes
  msg : Bytes
deriving DecidableEq

/-- The arguments of `session_seal`. -/
structure SealArgs where
  ptAddr : ℕ
  content : Bytes
  outAddr : ℕ
  outCap : ℕ
  outLenPresent : Bool

/-- The padded inner plaintext of a record. -/
def sealInner (content : Bytes) (innerLen : ℕ) : Bytes :=
  beBytes 2 content.length ++ (content ++ List.replicate (innerLen - (2 + content.length)) 0)

namespace Session

variable (session : Session)

/-- The sending key; a NULL key block is never dereferenced by an active session. -/
def sendKey : TrafficKey := (session.keys.getD .blank).send

/-- The receiving key. -/
def recvKey : TrafficKey := (session.keys.getD .blank).recv

/-- The encryption `session_seal` makes next for a content. -/
def sealCall (content : Bytes) : AeadCall where
  key := session.sendKey
  nonce := buildNonce session.sendSeq
  ad := buildAd session session.sendDir session.sendSeq
  msg := sealInner content (innerLenFor content.length session.limits.padBucket)

/-- `session_seal` up to its encryption: the call that ends here, or the encryption to make
and the session with the sequence number already reserved. -/
def sealPrepare (args : SealArgs) (now : ℕ) :
    Except (SessionStatus × Session) (AeadCall × Session) :=
  if args.outAddr = 0 ∨ args.outLenPresent = false ∨
      (args.ptAddr = 0 ∧ args.content.length ≠ 0) ∨
      sessionMaxContentBytes < args.content.length then
    .error (.invalidArg, session)
  else if session.state ≠ .active then .error (.unexpectedState, session)
  else if padBucketValid session.limits.padBucket = false then .error (.internal, session)
  else
    let need := innerLenFor args.content.length session.limits.padBucket + sessionOverheadBytes
    if args.outCap < need ∨
        rangesOverlap args.ptAddr args.content.length args.outAddr need = true then
      .error (.invalidArg, session)
    else if session.limits.rejectAfterMs ≤ session.ageMs now ∨
        session.limits.rejectAfterMessages ≤ session.sendSeq then
      .error (.expired, session.terminate .expired)
    else
      .ok (session.sealCall args.content,
        { session with sendSeq := (session.sendSeq + 1) % 2 ^ 64 })

end Session

/-- What `session_seal` and `session_open` hand back. -/
structure SessionResult where
  status : SessionStatus
  session : Session
  output : Option Bytes := none

/-- The bytes of a record. -/
def recordBytes (seq : ℕ) (ciphertext : Bytes) : Bytes :=
  sessionRecordType :: (beBytes 8 seq ++ ciphertext)

/-- `session_seal`. -/
def sessionSeal (aead : Aead) (session : Session) (args : SealArgs) (now : ℕ) : SessionResult :=
  match session.sealPrepare args now with
  | .error (status, next) => { status := status, session := next }
  | .ok (call, next) =>
    match aead.encrypt call.key call.nonce call.ad call.msg with
    | none => { status := .internal, session := next.terminate .failed }
    | some ciphertext =>
      if ciphertext.length = call.msg.length + aeadTagBytes then
        { status := .ok
          session := next
          output := some (recordBytes session.sendSeq ciphertext) }
      else { status := .internal, session := next.terminate .failed }

/-- The arguments of `session_open`. -/
structure OpenArgs where
  recAddr : ℕ
  record : Bytes
  ptAddr : ℕ
  ptCap : ℕ
  ptLenPresent : Bool

/-- The content of an authentic inner plaintext, if its length field and its padding are
well formed. -/
def openInner (inner : Bytes) : Option Bytes :=
  let contentLen := beNat (inner.take 2)
  if inner.length - 2 < contentLen then none
  else if (inner.drop (2 + contentLen)).all fun byte => byte == 0 then
    some ((inner.drop 2).take contentLen)
  else none

/-- The sequence number in a record's header. -/
def recordSeq (record : Bytes) : ℕ := beNat ((record.drop 1).take 8)

/-- The last part of `session_open`: decrypt the record whose turn it is, check the inner
plaintext and advance. -/
def openInTurn (aead : Aead) (session : Session) (seq : ℕ) (ciphertext : Bytes) (body : ℕ) :
    SessionResult :=
  match aead.decrypt session.recvKey (buildNonce seq) (buildAd session session.recvDir seq)
      ciphertext with
  | none => { status := .auth, session := session.terminate .failed }
  | some inner =>
    if inner.length = body then
      match openInner inner with
      | none => { status := .malformed, session := session.terminate .failed }
      | some content =>
        { status := .ok
          session :=
            { session with
              recvSeq := (seq + 1) % 2 ^ 64
              peerConfirmed :=
                session.peerConfirmed || decide (session.role = some .initiator) }
          output := some content }
    else { status := .auth, session := session.terminate .failed }

/-- The part of `session_open` after the buffer checks: order, then the record itself. The
order is checked on the header before any decryption. -/
def openOrdered (aead : Aead) (session : Session) (record : Bytes) : SessionResult :=
  let seq := recordSeq record
  if seq < session.recvSeq then { status := .replay, session := session.terminate .failed }
  else if session.recvSeq < seq then
    { status := .outOfOrder, session := session.terminate .failed }
  else if session.limits.rejectAfterMessages ≤ seq then
    { status := .limit, session := session.terminate .failed }
  else openInTurn aead session seq (record.drop 9) (record.length - sessionOverheadBytes)

/-- `session_open`. -/
def sessionOpen (aead : Aead) (session : Session) (args : OpenArgs) (now : ℕ) : SessionResult :=
  if args.recAddr = 0 ∨ args.ptAddr = 0 ∨ args.ptLenPresent = false ∨
      rangesOverlap args.recAddr args.record.length args.ptAddr
        (min args.ptCap sessionMaxPlaintextBytes) = true then
    { status := .invalidArg, session := session }
  else if session.state ≠ .active then { status := .unexpectedState, session := session }
  else if session.limits.rejectAfterMs ≤ session.ageMs now then
    { status := .expired, session := session.terminate .expired }
  else if args.record.length < sessionMinRecordBytes ∨
      sessionMaxRecordBytes < args.record.length ∨
      args.record.head? ≠ some sessionRecordType then
    { status := .malformed, session := session.terminate .failed }
  else if args.ptCap < args.record.length - sessionOverheadBytes then
    { status := .invalidArg, session := session }
  else openOrdered aead session args.record

/-! ## What a call can do -/

/-- Every outcome of `session_init_from_handshake`: it changes nothing, or it turns an
established context into a session and wipes the context. -/
inductive SessionInitView (session : Session) (hs : HandshakeCtx) (ledger : PendingStore)
    (now : ℕ) : SessionInitResult → Prop where
  | refused {status : SessionStatus} (hstatus : status ≠ .ok) :
      SessionInitView session hs ledger now ⟨status, session, hs, ledger⟩
  | created {role : HandshakeRole} {keys : TrafficKeys} {limits : SessionLimits}
      (hempty : session.state = .empty) (hrole : hs.role = some role)
      (hestablished : hs.state = .established) (hcommitted : hs.keysCommitted = true)
      (hkeys : hs.sessionKeys = some keys) (hlimits : limits.valid = true) :
      SessionInitView session hs ledger now
        ⟨.ok, .ofKeys (role = .initiator) keys hs.handshakeId limits now, .wiped, ledger⟩

theorem SessionLimits.default_valid : SessionLimits.default.valid = true := by decide

theorem sessionInitFromHandshake_view (env : CallEnv) (session : Session) (hs : HandshakeCtx)
    (ledger : PendingStore) (limits : Option SessionLimits) (now ledgerNow : ℕ) :
    SessionInitView session hs ledger now
      (sessionInitFromHandshake env session hs ledger limits now ledgerNow) := by
  unfold sessionInitFromHandshake
  split
  · exact .refused (by simp)
  rename_i hempty
  push Not at hempty
  split
  · exact .refused (by simp)
  rename_i hlimits
  split
  · rename_i role keys handshakeId hrole hkeys hid
    simp only [HandshakeCtx.keyAt, HandshakeCtx.getHandshakeId, Option.ite_none_right_eq_some,
      Option.some.injEq] at hkeys hid
    obtain ⟨⟨hestablished, hcommitted⟩, hkeys⟩ := hkeys
    obtain ⟨-, rfl⟩ := hid
    split
    · exact .refused (by simp)
    split
    · exact .refused (by simp)
    split
    · have hvalid : (limits.getD .default).valid = true := by
        cases limits with
        | none => exact SessionLimits.default_valid
        | some => simpa using hlimits
      have hwipe : ctxWipe hs ledger ledgerNow = (.wiped, ledger) := by
        simp [ctxWipe, hestablished]
      rw [hwipe]
      exact .created hempty.1 hrole hestablished hcommitted hkeys hvalid
    · exact .refused (by simp)
  · exact .refused (by simp)

variable (session : Session) (args : SealArgs) in
/-- Every outcome of `session_seal` up to its encryption. -/
inductive SealView : Except (SessionStatus × Session) (AeadCall × Session) → Prop where
  | misuse {status : SessionStatus} (hstatus : status = .invalidArg ∨ status = .unexpectedState) :
      SealView (.error (status, session))
  | badBucket (hbucket : padBucketValid session.limits.padBucket = false) :
      SealView (.error (.internal, session))
  | expired (hactive : session.state = .active) :
      SealView (.error (.expired, session.terminate .expired))
  | ready (hactive : session.state = .active)
      (hbucket : padBucketValid session.limits.padBucket = true)
      (hcontent : args.content.length ≤ sessionMaxContentBytes)
      (hseq : session.sendSeq < session.limits.rejectAfterMessages) :
      SealView (.ok (session.sealCall args.content,
        { session with sendSeq := (session.sendSeq + 1) % 2 ^ 64 }))

theorem sealPrepare_view (session : Session) (args : SealArgs) (now : ℕ) :
    SealView session args (session.sealPrepare args now) := by
  unfold Session.sealPrepare
  split
  · exact .misuse (Or.inl rfl)
  rename_i hargs
  split
  · exact .misuse (Or.inr rfl)
  rename_i hactive
  split
  · rename_i hbucket
    exact .badBucket hbucket
  rename_i hbucket
  dsimp only
  split
  · exact .misuse (Or.inl rfl)
  split_ifs with hlimits
  · exact .expired (not_not.mp hactive)
  push Not at hargs hlimits
  exact .ready (not_not.mp hactive) (by simpa using hbucket) hargs.2.2.2 hlimits.2

/-- A record of at least a header's length that begins with the record type is the header
of its own sequence number followed by its ciphertext. -/
theorem eq_recordBytes {record : Bytes} (hlength : 9 ≤ record.length)
    (htype : record.head? = some sessionRecordType) :
    record = recordBytes (recordSeq record) (record.drop 9) := by
  cases record with
  | nil => simp at hlength
  | cons head tail =>
    obtain rfl : head = sessionRecordType := by simpa using htype
    have htake : (tail.take 8).length = 8 := by
      simp only [List.length_cons] at hlength
      simp only [List.length_take]
      omega
    have hheader := beBytes_beNat (tail.take 8)
    rw [htake] at hheader
    simp [recordBytes, recordSeq, hheader]

variable (aead : Aead) (session : Session) (args : OpenArgs) in
/-- Every outcome of `session_open`. -/
inductive OpenView : SessionResult → Prop where
  | misuse {status : SessionStatus} (hstatus : status = .invalidArg ∨ status = .unexpectedState) :
      OpenView { status := status, session := session }
  | ended {status : SessionStatus} {state : SessionState} (hactive : session.state = .active)
      (hstatus : status ≠ .ok) (hstate : state ≠ .active ∧ state ≠ .empty) :
      OpenView { status := status, session := session.terminate state }
  | accepted {inner content ciphertext : Bytes} (hactive : session.state = .active)
      (hrecord : args.record = recordBytes session.recvSeq ciphertext)
      (hseq : session.recvSeq < session.limits.rejectAfterMessages)
      (hdecrypt : aead.decrypt session.recvKey (buildNonce session.recvSeq)
        (buildAd session session.recvDir session.recvSeq) ciphertext = some inner)
      (hlength : ciphertext.length = inner.length + aeadTagBytes)
      (hinner : openInner inner = some content) :
      OpenView
        { status := .ok
          session :=
            { session with
              recvSeq := (session.recvSeq + 1) % 2 ^ 64
              peerConfirmed :=
                session.peerConfirmed || decide (session.role = some .initiator) }
          output := some content }

variable {aead : Aead} {session : Session} {args : OpenArgs}

private theorem openInTurn_view {ciphertext : Bytes} {body : ℕ} (hactive : session.state = .active)
    (hrecord : args.record = recordBytes session.recvSeq ciphertext)
    (hseq : session.recvSeq < session.limits.rejectAfterMessages)
    (hbody : ciphertext.length = body + aeadTagBytes) :
    OpenView aead session args (openInTurn aead session session.recvSeq ciphertext body) := by
  unfold openInTurn
  cases hdecrypt : aead.decrypt session.recvKey (buildNonce session.recvSeq)
      (buildAd session session.recvDir session.recvSeq) ciphertext with
  | none => exact .ended hactive (by simp) (by simp)
  | some inner =>
    dsimp only
    by_cases hlength : inner.length = body
    · rw [if_pos hlength]
      cases hinner : openInner inner with
      | none => exact .ended hactive (by simp) (by simp)
      | some =>
        exact .accepted hactive hrecord hseq hdecrypt (by rw [hbody, hlength]) hinner
    · rw [if_neg hlength]
      exact .ended hactive (by simp) (by simp)

private theorem openOrdered_view (hactive : session.state = .active)
    (hmin : 27 ≤ args.record.length) (htype : args.record.head? = some sessionRecordType) :
    OpenView aead session args (openOrdered aead session args.record) := by
  unfold openOrdered
  by_cases hlow : recordSeq args.record < session.recvSeq
  · rw [if_pos hlow]
    exact .ended hactive (by simp) (by simp)
  rw [if_neg hlow]
  by_cases hhigh : session.recvSeq < recordSeq args.record
  · rw [if_pos hhigh]
    exact .ended hactive (by simp) (by simp)
  rw [if_neg hhigh]
  have hseq : recordSeq args.record = session.recvSeq := by omega
  rw [hseq]
  by_cases hlimit : session.limits.rejectAfterMessages ≤ session.recvSeq
  · rw [if_pos hlimit]
    exact .ended hactive (by simp) (by simp)
  rw [if_neg hlimit]
  refine openInTurn_view hactive ?_ (by omega) ?_
  · rw [← hseq]
    exact eq_recordBytes (by omega) htype
  simp only [List.length_drop, sessionOverheadBytes, aeadTagBytes]
  omega

theorem sessionOpen_view (aead : Aead) (session : Session) (args : OpenArgs) (now : ℕ) :
    OpenView aead session args (sessionOpen aead session args now) := by
  unfold sessionOpen
  split
  · exact .misuse (Or.inl rfl)
  split
  · exact .misuse (Or.inr rfl)
  rename_i hstate
  have hactive : session.state = .active := not_not.mp hstate
  split
  · exact .ended hactive (by simp) (by simp)
  split
  · exact .ended hactive (by simp) (by simp)
  rename_i hshape
  push Not at hshape
  split
  · exact .misuse (Or.inl rfl)
  · exact openOrdered_view hactive hshape.1 hshape.2.2

/-! ## Padding -/

theorem le_innerLenFor {contentLen bucket : ℕ} (hbucket : padBucketValid bucket = true) :
    contentLen + 2 ≤ innerLenFor contentLen bucket := by
  have hpositive : 0 < bucket := by
    simp only [padBucketValid, Bool.or_eq_true, beq_iff_eq] at hbucket
    omega
  have hdivision := Nat.div_add_mod (contentLen + 2 + bucket - 1) bucket
  have hremainder := Nat.mod_lt (contentLen + 2 + bucket - 1) hpositive
  rw [Nat.mul_comm] at hdivision
  unfold innerLenFor
  omega

/-- Opening the inner plaintext of a record returns the content that was sealed. -/
theorem openInner_sealInner {content : Bytes} {innerLen : ℕ}
    (hcontent : content.length ≤ sessionMaxContentBytes) (hlen : content.length + 2 ≤ innerLen) :
    openInner (sealInner content innerLen) = some content := by
  have hfield : beNat (beBytes 2 content.length) = content.length := by
    rw [beNat_beBytes]
    simp only [sessionMaxContentBytes] at hcontent
    exact Nat.mod_eq_of_lt (by omega)
  have hhead : (sealInner content innerLen).take 2 = beBytes 2 content.length := by
    simp [sealInner]
  have hlength : (sealInner content innerLen).length = innerLen := by
    simp only [sealInner, List.length_append, length_beBytes, List.length_replicate]
    omega
  have hbody : (sealInner content innerLen).drop 2 =
      content ++ List.replicate (innerLen - (2 + content.length)) 0 := by
    simp [sealInner]
  simp only [openInner, hhead, hfield, hlength]
  rw [if_neg (by omega), ← List.drop_drop, hbody, List.drop_left, List.take_left, if_pos]
  simp only [List.all_eq_true, List.mem_replicate, beq_iff_eq]
  exact fun byte hbyte => hbyte.2

/-! ## Nonces and associated data -/

variable {first second : ℕ}

theorem buildNonce_injective (hfirst : first < 2 ^ 64) (hsecond : second < 2 ^ 64)
    (heq : buildNonce first = buildNonce second) : first = second := by
  have hlist := congrArg List.Vector.toList heq
  simp only [buildNonce, List.Vector.toList_mk, List.append_cancel_left_eq] at hlist
  exact beBytes_injective hfirst hsecond hlist

theorem recordAd_injective {handshakeId : HandshakeId} {direction other : UInt8}
    (hfirst : first < 2 ^ 64) (hsecond : second < 2 ^ 64)
    (heq : recordAd handshakeId direction first = recordAd handshakeId other second) :
    direction = other ∧ first = second := by
  simp only [recordAd, List.append_cancel_left_eq, List.cons.injEq, true_and] at heq
  exact ⟨heq.1, beBytes_injective hfirst hsecond heq.2⟩

end MldsaAuth.Protocol
