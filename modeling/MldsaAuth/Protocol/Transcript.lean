/-
# Wire format and transcripts of the three handshake messages

ClientHello, ServerHello and ClientAuth have one byte layout each, with one-byte
identity lengths, two-byte signature lengths and no separators. This file embeds
`protocol/transcript.c`: the encoders, the strict decoders, the length of the
unsigned ServerHello prefix and the three domain-separated transcript hashes. Each
decoder accepts exactly the encodings of valid messages.
-/

import MldsaAuth.Foundation.Layout
import MldsaAuth.Crypto.Primitives
import MldsaAuth.Protocol.Ledger

namespace MldsaAuth.Protocol

open Foundation Crypto

/-- `client_hello_t`. -/
@[ext]
structure ClientHello where
  id : Bytes
  ephemeralPub : Blob 32
  mlkemEk : KemPublicKey
  sessionId : Blob 16
  nonce : Blob 32
deriving DecidableEq

/-- `server_hello_t`. -/
@[ext]
structure ServerHello where
  id : Bytes
  ephemeralPub : Blob 32
  mlkemCt : KemCiphertext
  nonce : Blob 32
  sessionIdEcho : Blob 16
  sig : Bytes
deriving DecidableEq

/-- `client_auth_t`. -/
@[ext]
structure ClientAuth where
  handshakeId : HandshakeId
  sig : Bytes
deriving DecidableEq

/-- `CLIENT_HELLO_MAX_ENCODED_LEN`. -/
def clientHelloMaxEncodedLen : ℕ := 1330

/-- `SERVER_HELLO_UNSIGNED_MAX_ENCODED_LEN`. -/
def serverHelloUnsignedMaxEncodedLen : ℕ := 1234

/-- `SERVER_HELLO_MAX_ENCODED_LEN`. -/
def serverHelloMaxEncodedLen : ℕ := 4545

/-- `CLIENT_AUTH_MAX_ENCODED_LEN`. -/
def clientAuthMaxEncodedLen : ℕ := 3328

/-- The bounds on a signature length field. -/
def sigLenValid (sig : Bytes) : Bool :=
  decide (1 ≤ sig.length) && decide (sig.length ≤ mldsaSignatureMaxBytes)

/-! ## Encoders -/

/-- The bytes of a ClientHello, in wire order. -/
def ClientHello.bytes (msg : ClientHello) : Bytes :=
  0x01 :: idLenByte msg.id :: (msg.id ++ (msg.ephemeralPub.toList ++ (msg.mlkemEk.toList ++
    (msg.sessionId.toList ++ msg.nonce.toList))))

/-- The bytes of a ServerHello up to its signature. -/
def ServerHello.unsignedBytes (msg : ServerHello) : Bytes :=
  0x02 :: idLenByte msg.id :: (msg.id ++ (msg.ephemeralPub.toList ++ (msg.mlkemCt.toList ++
    (msg.nonce.toList ++ msg.sessionIdEcho.toList))))

/-- The bytes of a whole ServerHello. -/
def ServerHello.bytes (msg : ServerHello) : Bytes :=
  msg.unsignedBytes ++ (beBytes 2 msg.sig.length ++ msg.sig)

/-- The bytes of a ClientAuth. -/
def ClientAuth.bytes (msg : ClientAuth) : Bytes :=
  0x03 :: (msg.handshakeId.toList ++ (beBytes 2 msg.sig.length ++ msg.sig))

/-- `client_hello_encoded_len`. -/
def clientHelloEncodedLen (idLen : ℕ) : ℕ := 1 + 1 + idLen + 32 + 1184 + 16 + 32

/-- `server_hello_unsigned_encoded_len`. -/
def serverHelloUnsignedEncodedLen (idLen : ℕ) : ℕ := 1 + 1 + idLen + 32 + 1088 + 32 + 16

/-- `encode_client_hello`. -/
def encodeClientHello (msg : ClientHello) (outCap : ℕ) : Option Bytes :=
  if idLenValid msg.id && decide (clientHelloEncodedLen msg.id.length ≤ outCap) then
    some msg.bytes
  else none

/-- `encode_server_hello_unsigned`. -/
def encodeServerHelloUnsigned (msg : ServerHello) (outCap : ℕ) : Option Bytes :=
  if idLenValid msg.id && decide (serverHelloUnsignedEncodedLen msg.id.length ≤ outCap) then
    some msg.unsignedBytes
  else none

/-- `encode_server_hello`. -/
def encodeServerHello (msg : ServerHello) (outCap : ℕ) : Option Bytes :=
  if idLenValid msg.id && sigLenValid msg.sig &&
      decide (serverHelloUnsignedEncodedLen msg.id.length + 2 + msg.sig.length ≤ outCap) then
    some msg.bytes
  else none

/-- `encode_client_auth`. -/
def encodeClientAuth (msg : ClientAuth) (outCap : ℕ) : Option Bytes :=
  if sigLenValid msg.sig && decide (1 + 16 + 2 + msg.sig.length ≤ outCap) then some msg.bytes
  else none

/-- `transcript_server_hello_unsigned_len`, zero outside the identity bounds. -/
def transcriptServerHelloUnsignedLen (idLen : ℕ) : ℕ :=
  if 1 ≤ idLen ∧ idLen ≤ 64 then serverHelloUnsignedEncodedLen idLen else 0

/-! ## Decoders -/

/-- A one-byte identity length within bounds, then that many bytes. -/
def readId (bytes : Bytes) : Option (Bytes × Bytes) := do
  let (idLen, rest) ← readByte bytes
  if 1 ≤ idLen.toNat ∧ idLen.toNat ≤ 64 then takeBytes idLen.toNat rest else none

/-- A two-byte signature length within bounds, then exactly that many bytes. -/
def readSig (bytes : Bytes) : Option Bytes := do
  let (sigLen, rest) ← readBe 2 bytes
  if 1 ≤ sigLen ∧ sigLen ≤ mldsaSignatureMaxBytes then
    let (sig, trailing) ← takeBytes sigLen rest
    if trailing = [] then some sig else none
  else none

/-- `decode_client_hello`: exact type, bounded lengths, nothing left over. -/
def decodeClientHello (buf : Bytes) : Option ClientHello := do
  let (msgType, rest) ← readByte buf
  if msgType = 0x01 then
    let (id, rest) ← readId rest
    let (ephemeralPub, rest) ← takeBlob 32 rest
    let (mlkemEk, rest) ← takeBlob 1184 rest
    let (sessionId, rest) ← takeBlob 16 rest
    let (nonce, rest) ← takeBlob 32 rest
    if rest = [] then some ⟨id, ephemeralPub, mlkemEk, sessionId, nonce⟩ else none
  else none

/-- `decode_server_hello`. -/
def decodeServerHello (buf : Bytes) : Option ServerHello := do
  let (msgType, rest) ← readByte buf
  if msgType = 0x02 then
    let (id, rest) ← readId rest
    let (ephemeralPub, rest) ← takeBlob 32 rest
    let (mlkemCt, rest) ← takeBlob 1088 rest
    let (nonce, rest) ← takeBlob 32 rest
    let (sessionIdEcho, rest) ← takeBlob 16 rest
    let sig ← readSig rest
    some ⟨id, ephemeralPub, mlkemCt, nonce, sessionIdEcho, sig⟩
  else none

/-- `decode_client_auth`. -/
def decodeClientAuth (buf : Bytes) : Option ClientAuth := do
  let (msgType, rest) ← readByte buf
  if msgType = 0x03 then
    let (handshakeId, rest) ← takeBlob 16 rest
    let sig ← readSig rest
    some ⟨handshakeId, sig⟩
  else none

/-! ## Transcript hashes -/

/-- What a transcript is hashed for. -/
inductive TranscriptPurpose where
  | serverAuth
  | clientAuth
  | handshakeId
deriving DecidableEq, Repr

namespace TranscriptPurpose

/-- `TRANSCRIPT_LABEL_SERVER_AUTH`, `_CLIENT_AUTH` and `_HANDSHAKE_ID`. -/
def label : TranscriptPurpose → Bytes
  | serverAuth => ascii "mldsa-auth/v2/server-auth"
  | clientAuth => ascii "mldsa-auth/v2/client-auth"
  | handshakeId => ascii "mldsa-auth/v2/handshake-id"

/-- The bytes that are hashed for a purpose. -/
def input (purpose : TranscriptPurpose) (first second : Bytes) : Bytes :=
  purpose.label ++ 0 :: (first ++ second)

end TranscriptPurpose

variable (prims : Primitives)

/-- `hash_label_and_two_buffers`, with the label of a purpose. -/
def hashLabelAndTwoBuffers (purpose : TranscriptPurpose) (first second : Bytes) : Digest :=
  prims.sha256 (purpose.input first second)

/-- `transcript_hash_server_auth`. -/
def transcriptHashServerAuth (clientHello shUnsigned : Bytes) : Digest :=
  hashLabelAndTwoBuffers prims .serverAuth clientHello shUnsigned

/-- `transcript_hash_client_auth`. -/
def transcriptHashClientAuth (clientHello serverHello : Bytes) : Digest :=
  hashLabelAndTwoBuffers prims .clientAuth clientHello serverHello

/-- `transcript_handshake_id`: the first half of its own digest. -/
def transcriptHandshakeId (clientHello serverHello : Bytes) : HandshakeId :=
  ⟨(hashLabelAndTwoBuffers prims .handshakeId clientHello serverHello).toList.take 16, by simp⟩

/-! ## The decoders accept exactly the encodings -/

theorem idLenValid_iff {id : Bytes} : idLenValid id = true ↔ 1 ≤ id.length ∧ id.length ≤ 64 := by
  simp [idLenValid]

theorem sigLenValid_iff {sig : Bytes} :
    sigLenValid sig = true ↔ 1 ≤ sig.length ∧ sig.length ≤ mldsaSignatureMaxBytes := by
  simp [sigLenValid]

variable {bytes : Bytes}

theorem readId_eq_some_iff {id rest : Bytes} :
    readId bytes = some (id, rest) ↔
      idLenValid id = true ∧ bytes = idLenByte id :: (id ++ rest) := by
  rw [idLenValid_iff]
  simp only [readId, Option.bind_eq_bind, Option.bind_eq_some_iff, Prod.exists,
    readByte_eq_some_iff, Option.ite_none_right_eq_some, takeBytes_eq_some_iff]
  constructor
  · rintro ⟨idLen, tail, rfl, ⟨hmin, hmax⟩, hlength, rfl⟩
    rw [hlength]
    exact ⟨⟨hmin, hmax⟩, by simp [idLenByte, hlength]⟩
  rintro ⟨⟨hmin, hmax⟩, rfl⟩
  have hlength : (idLenByte id).toNat = id.length := by
    simp only [idLenByte, UInt8.toNat_ofNat']
    omega
  exact ⟨idLenByte id, id ++ rest, rfl, by omega, hlength.symm, rfl⟩

theorem readSig_eq_some_iff {sig : Bytes} :
    readSig bytes = some sig ↔ sigLenValid sig = true ∧ bytes = beBytes 2 sig.length ++ sig := by
  rw [sigLenValid_iff]
  simp only [readSig, Option.bind_eq_bind, Option.bind_eq_some_iff, Prod.exists,
    readBe_eq_some_iff, Option.ite_none_right_eq_some, takeBytes_eq_some_iff,
    Option.some.injEq]
  constructor
  · rintro ⟨sigLen, tail, ⟨-, rfl⟩, ⟨hmin, hmax⟩, found, trailing, ⟨hlength, rfl⟩, rfl, rfl⟩
    rw [hlength]
    exact ⟨⟨hmin, hmax⟩, by simp⟩
  rintro ⟨⟨hmin, hmax⟩, rfl⟩
  have hfield : sig.length < 256 ^ 2 := by
    simp only [mldsaSignatureMaxBytes] at hmax
    omega
  exact ⟨sig.length, sig, ⟨hfield, rfl⟩, ⟨hmin, hmax⟩, sig, [], ⟨rfl, by simp⟩, rfl, rfl⟩

variable {buf : Bytes}

/-- A ClientHello decodes exactly from its own bytes. -/
theorem decodeClientHello_eq_some_iff {msg : ClientHello} :
    decodeClientHello buf = some msg ↔ idLenValid msg.id = true ∧ buf = msg.bytes := by
  simp only [decodeClientHello, Option.bind_eq_bind, Option.bind_eq_some_iff, Prod.exists,
    readByte_eq_some_iff, Option.ite_none_right_eq_some, readId_eq_some_iff,
    takeBlob_eq_some_iff, Option.some.injEq]
  constructor
  · rintro ⟨msgType, tail, rfl, rfl, id, afterId, ⟨hvalid, rfl⟩, eph, afterEph, rfl, ek,
      afterEk, rfl, sessionId, afterSession, rfl, nonce, afterNonce, rfl, rfl, rfl⟩
    exact ⟨hvalid, by simp [ClientHello.bytes]⟩
  rintro ⟨hvalid, rfl⟩
  exact ⟨0x01, _, rfl, rfl, msg.id, _, ⟨hvalid, rfl⟩, msg.ephemeralPub, _, rfl, msg.mlkemEk,
    _, rfl, msg.sessionId, _, rfl, msg.nonce, [], by simp, rfl, rfl⟩

theorem ServerHello.bytes_eq (msg : ServerHello) :
    msg.bytes = 0x02 :: idLenByte msg.id :: (msg.id ++ (msg.ephemeralPub.toList ++
      (msg.mlkemCt.toList ++ (msg.nonce.toList ++ (msg.sessionIdEcho.toList ++
        (beBytes 2 msg.sig.length ++ msg.sig)))))) := by
  simp [ServerHello.bytes, ServerHello.unsignedBytes]

variable {msg : ServerHello}

/-- A ServerHello decodes exactly from its own bytes. -/
theorem decodeServerHello_eq_some_iff :
    decodeServerHello buf = some msg ↔
      idLenValid msg.id = true ∧ sigLenValid msg.sig = true ∧ buf = msg.bytes := by
  simp only [decodeServerHello, Option.bind_eq_bind, Option.bind_eq_some_iff, Prod.exists,
    readByte_eq_some_iff, Option.ite_none_right_eq_some, readId_eq_some_iff,
    takeBlob_eq_some_iff, readSig_eq_some_iff, Option.some.injEq, ServerHello.bytes_eq]
  constructor
  · rintro ⟨msgType, tail, rfl, rfl, id, afterId, ⟨hvalid, rfl⟩, eph, afterEph, rfl, ct,
      afterCt, rfl, nonce, afterNonce, rfl, echo, afterEcho, rfl, sig, ⟨hsig, rfl⟩, rfl⟩
    exact ⟨hvalid, hsig, rfl⟩
  rintro ⟨hvalid, hsig, rfl⟩
  exact ⟨0x02, _, rfl, rfl, msg.id, _, ⟨hvalid, rfl⟩, msg.ephemeralPub, _, rfl, msg.mlkemCt,
    _, rfl, msg.nonce, _, rfl, msg.sessionIdEcho, _, rfl, msg.sig, ⟨hsig, rfl⟩, rfl⟩

/-- A ClientAuth decodes exactly from its own bytes. -/
theorem decodeClientAuth_eq_some_iff {msg : ClientAuth} :
    decodeClientAuth buf = some msg ↔ sigLenValid msg.sig = true ∧ buf = msg.bytes := by
  simp only [decodeClientAuth, Option.bind_eq_bind, Option.bind_eq_some_iff, Prod.exists,
    readByte_eq_some_iff, Option.ite_none_right_eq_some, takeBlob_eq_some_iff,
    readSig_eq_some_iff, Option.some.injEq]
  constructor
  · rintro ⟨msgType, tail, rfl, rfl, handshakeId, afterId, rfl, sig, ⟨hsig, rfl⟩, rfl⟩
    exact ⟨hsig, rfl⟩
  rintro ⟨hsig, rfl⟩
  exact ⟨0x03, _, rfl, rfl, msg.handshakeId, _, rfl, msg.sig, ⟨hsig, rfl⟩, rfl⟩

/-! ## Lengths -/

@[simp]
theorem ClientHello.length_bytes (msg : ClientHello) :
    msg.bytes.length = clientHelloEncodedLen msg.id.length := by
  simp only [ClientHello.bytes, List.length_cons, List.length_append, Blob.length_toList,
    clientHelloEncodedLen]
  omega

@[simp]
theorem ServerHello.length_unsignedBytes (msg : ServerHello) :
    msg.unsignedBytes.length = serverHelloUnsignedEncodedLen msg.id.length := by
  simp only [ServerHello.unsignedBytes, List.length_cons, List.length_append,
    Blob.length_toList, serverHelloUnsignedEncodedLen]
  omega

/-- The prefix length function cuts a valid ServerHello right before its signature. -/
theorem ServerHello.take_unsignedLen (hvalid : idLenValid msg.id = true) :
    msg.bytes.take (transcriptServerHelloUnsignedLen msg.id.length) = msg.unsignedBytes := by
  rw [transcriptServerHelloUnsignedLen, if_pos (idLenValid_iff.mp hvalid),
    ← msg.length_unsignedBytes, ServerHello.bytes, List.take_left]

theorem ClientHello.length_bytes_le {msg : ClientHello} (hid : idLenValid msg.id = true) :
    msg.bytes.length ≤ clientHelloMaxEncodedLen := by
  have hbound := (idLenValid_iff.mp hid).2
  rw [msg.length_bytes]
  simp only [clientHelloEncodedLen, clientHelloMaxEncodedLen]
  omega

theorem ServerHello.length_bytes_le (hid : idLenValid msg.id = true)
    (hsig : sigLenValid msg.sig = true) : msg.bytes.length ≤ serverHelloMaxEncodedLen := by
  have hbound := (idLenValid_iff.mp hid).2
  have hsigBound := (sigLenValid_iff.mp hsig).2
  simp only [ServerHello.bytes, List.length_append, msg.length_unsignedBytes, length_beBytes,
    serverHelloUnsignedEncodedLen, serverHelloMaxEncodedLen, mldsaSignatureMaxBytes] at *
  omega

theorem ClientAuth.length_bytes_le {msg : ClientAuth} (hsig : sigLenValid msg.sig = true) :
    msg.bytes.length ≤ clientAuthMaxEncodedLen := by
  have hsigBound := (sigLenValid_iff.mp hsig).2
  simp only [ClientAuth.bytes, List.length_cons, List.length_append, Blob.length_toList,
    length_beBytes, clientAuthMaxEncodedLen, mldsaSignatureMaxBytes] at *
  omega

/-! ## The encoders succeed exactly where the bytes fit -/

section Encoders

variable {outCap : ℕ}

theorem encodeClientHello_fits {msg : ClientHello} :
    encodeClientHello msg outCap = some bytes ↔
      idLenValid msg.id = true ∧ msg.bytes.length ≤ outCap ∧ bytes = msg.bytes := by
  simp only [encodeClientHello, Option.ite_none_right_eq_some, Bool.and_eq_true,
    decide_eq_true_eq, Option.some.injEq, msg.length_bytes, and_assoc, eq_comm (a := bytes)]

theorem encodeClientHello_eq_some_iff {msg : ClientHello} :
    encodeClientHello msg clientHelloMaxEncodedLen = some bytes ↔
      idLenValid msg.id = true ∧ bytes = msg.bytes := by
  rw [encodeClientHello_fits]
  exact ⟨fun hfits => ⟨hfits.1, hfits.2.2⟩, fun hmsg =>
    ⟨hmsg.1, ClientHello.length_bytes_le hmsg.1, hmsg.2⟩⟩

theorem encodeServerHelloUnsigned_eq_some_iff :
    encodeServerHelloUnsigned msg serverHelloUnsignedMaxEncodedLen = some bytes ↔
      idLenValid msg.id = true ∧ bytes = msg.unsignedBytes := by
  simp only [encodeServerHelloUnsigned, Option.ite_none_right_eq_some, Bool.and_eq_true,
    idLenValid_iff, decide_eq_true_eq, Option.some.injEq]
  constructor
  · rintro ⟨⟨hid, -⟩, rfl⟩
    exact ⟨hid, rfl⟩
  rintro ⟨hid, rfl⟩
  refine ⟨⟨hid, ?_⟩, rfl⟩
  simp only [serverHelloUnsignedEncodedLen, serverHelloUnsignedMaxEncodedLen]
  omega

theorem ServerHello.length_bytes (msg : ServerHello) :
    msg.bytes.length = serverHelloUnsignedEncodedLen msg.id.length + 2 + msg.sig.length := by
  simp only [ServerHello.bytes, List.length_append, msg.length_unsignedBytes, length_beBytes,
    Nat.add_assoc]

theorem encodeServerHello_fits :
    encodeServerHello msg outCap = some bytes ↔
      (idLenValid msg.id = true ∧ sigLenValid msg.sig = true) ∧ msg.bytes.length ≤ outCap ∧
        bytes = msg.bytes := by
  simp only [encodeServerHello, Option.ite_none_right_eq_some, Bool.and_eq_true,
    decide_eq_true_eq, Option.some.injEq, msg.length_bytes, and_assoc, eq_comm (a := bytes)]

theorem encodeServerHello_eq_some_iff :
    encodeServerHello msg serverHelloMaxEncodedLen = some bytes ↔
      idLenValid msg.id = true ∧ sigLenValid msg.sig = true ∧ bytes = msg.bytes := by
  rw [encodeServerHello_fits]
  exact ⟨fun hfits => ⟨hfits.1.1, hfits.1.2, hfits.2.2⟩, fun hmsg =>
    ⟨⟨hmsg.1, hmsg.2.1⟩, ServerHello.length_bytes_le hmsg.1 hmsg.2.1, hmsg.2.2⟩⟩

theorem encodeClientAuth_fits {msg : ClientAuth} :
    encodeClientAuth msg outCap = some bytes ↔
      sigLenValid msg.sig = true ∧ msg.bytes.length ≤ outCap ∧ bytes = msg.bytes := by
  have hlength : msg.bytes.length = 1 + 16 + 2 + msg.sig.length := by
    simp only [ClientAuth.bytes, List.length_cons, List.length_append, Blob.length_toList,
      length_beBytes]
    omega
  simp only [encodeClientAuth, Option.ite_none_right_eq_some, Bool.and_eq_true,
    decide_eq_true_eq, Option.some.injEq, hlength, and_assoc, eq_comm (a := bytes)]

theorem encodeClientAuth_eq_some_iff {msg : ClientAuth} :
    encodeClientAuth msg clientAuthMaxEncodedLen = some bytes ↔
      sigLenValid msg.sig = true ∧ bytes = msg.bytes := by
  rw [encodeClientAuth_fits]
  exact ⟨fun hfits => ⟨hfits.1, hfits.2.2⟩, fun hmsg =>
    ⟨hmsg.1, ClientAuth.length_bytes_le hmsg.1, hmsg.2⟩⟩

end Encoders

/-! ## The grammar of the messages -/

/-- The layout of a ClientHello. -/
def clientHelloFields : List Field :=
  [.octet (· = 0x01), .sized 1 1 64, .fixed 32, .fixed 1184, .fixed 16, .fixed 32]

/-- The layout of a ServerHello. -/
def serverHelloFields : List Field :=
  [.octet (· = 0x02), .sized 1 1 64, .fixed 32, .fixed 1088, .fixed 32, .fixed 16,
    .sized 2 1 mldsaSignatureMaxBytes]

/-- The layout of a ClientAuth. -/
def clientAuthFields : List Field :=
  [.octet (· = 0x03), .fixed 16, .sized 2 1 mldsaSignatureMaxBytes]

theorem beBytes_one (id : Bytes) : beBytes 1 id.length = [idLenByte id] := by
  simp [beBytes, idLenByte]

theorem follows_clientHelloFields :
    Follows clientHelloFields buf ↔
      ∃ msg : ClientHello, idLenValid msg.id = true ∧ buf = msg.bytes := by
  simp only [clientHelloFields, follows_octet, follows_sized, follows_fixed, follows_nil,
    idLenValid_iff, beBytes_one]
  constructor
  · rintro ⟨-, -, rfl, ⟨id, -, hid, ⟨eph, -, ⟨ek, -, ⟨session, -, ⟨nonce, -, rfl, rfl⟩, rfl⟩, rfl⟩,
      rfl⟩, rfl⟩, rfl⟩
    exact ⟨⟨id, eph, ek, session, nonce⟩, hid, by simp [ClientHello.bytes]⟩
  rintro ⟨msg, hid, rfl⟩
  exact ⟨_, _, rfl, ⟨msg.id, _, hid, ⟨msg.ephemeralPub, _, ⟨msg.mlkemEk, _, ⟨msg.sessionId, _,
    ⟨msg.nonce, _, rfl, rfl⟩, rfl⟩, rfl⟩, rfl⟩, rfl⟩, by simp [ClientHello.bytes]⟩

theorem follows_serverHelloFields :
    Follows serverHelloFields buf ↔ ∃ msg : ServerHello,
      (idLenValid msg.id = true ∧ sigLenValid msg.sig = true) ∧ buf = msg.bytes := by
  simp only [serverHelloFields, follows_octet, follows_sized, follows_fixed, follows_nil,
    idLenValid_iff, sigLenValid_iff, beBytes_one, ServerHello.bytes_eq]
  constructor
  · rintro ⟨-, -, rfl, ⟨id, -, hid, ⟨eph, -, ⟨ct, -, ⟨nonce, -, ⟨echo, -, ⟨sig, -, hsig, rfl, rfl⟩,
      rfl⟩, rfl⟩, rfl⟩, rfl⟩, rfl⟩, rfl⟩
    exact ⟨⟨id, eph, ct, nonce, echo, sig⟩, ⟨hid, hsig⟩, by simp⟩
  rintro ⟨msg, ⟨hid, hsig⟩, rfl⟩
  exact ⟨_, _, rfl, ⟨msg.id, _, hid, ⟨msg.ephemeralPub, _, ⟨msg.mlkemCt, _, ⟨msg.nonce, _,
    ⟨msg.sessionIdEcho, _, ⟨msg.sig, _, hsig, rfl, rfl⟩, rfl⟩, rfl⟩, rfl⟩, rfl⟩, rfl⟩, by simp⟩

theorem follows_clientAuthFields :
    Follows clientAuthFields buf ↔
      ∃ msg : ClientAuth, sigLenValid msg.sig = true ∧ buf = msg.bytes := by
  simp only [clientAuthFields, follows_octet, follows_sized, follows_fixed, follows_nil,
    sigLenValid_iff]
  constructor
  · rintro ⟨-, -, rfl, ⟨handshakeId, -, ⟨sig, -, hsig, rfl, rfl⟩, rfl⟩, rfl⟩
    exact ⟨⟨handshakeId, sig⟩, hsig, by simp [ClientAuth.bytes]⟩
  rintro ⟨msg, hsig, rfl⟩
  exact ⟨_, _, rfl, ⟨msg.handshakeId, _, ⟨msg.sig, _, hsig, rfl, rfl⟩, rfl⟩,
    by simp [ClientAuth.bytes]⟩

/-- The three codecs are canonical, no two of their decoders accept the same bytes, and the length
of the unsigned part cuts an accepted ServerHello right before its signature. -/
theorem handshake_codecs_canonical :
    Canonical encodeClientHello decodeClientHello (fun msg => idLenValid msg.id = true)
        clientHelloFields ∧
      Canonical encodeServerHello decodeServerHello
        (fun msg => idLenValid msg.id = true ∧ sigLenValid msg.sig = true) serverHelloFields ∧
      Canonical encodeClientAuth decodeClientAuth (fun msg => sigLenValid msg.sig = true)
        clientAuthFields ∧
      (∀ buf, ¬((decodeClientHello buf).isSome ∧ (decodeServerHello buf).isSome) ∧
        ¬((decodeClientHello buf).isSome ∧ (decodeClientAuth buf).isSome) ∧
        ¬((decodeServerHello buf).isSome ∧ (decodeClientAuth buf).isSome)) ∧
      ∀ buf msg, decodeServerHello buf = some msg →
        encodeServerHelloUnsigned msg serverHelloUnsignedMaxEncodedLen =
          some (buf.take (transcriptServerHelloUnsignedLen msg.id.length)) := by
  have hclient : Canonical encodeClientHello decodeClientHello
      (fun msg => idLenValid msg.id = true) clientHelloFields :=
    .of_layout (fun _ _ _ => encodeClientHello_fits) (fun _ _ => decodeClientHello_eq_some_iff)
      fun _ => follows_clientHelloFields
  have hserver : Canonical encodeServerHello decodeServerHello
      (fun msg => idLenValid msg.id = true ∧ sigLenValid msg.sig = true) serverHelloFields :=
    .of_layout (fun _ _ _ => encodeServerHello_fits)
      (fun _ _ => decodeServerHello_eq_some_iff.trans and_assoc.symm)
      fun _ => follows_serverHelloFields
  have hauth : Canonical encodeClientAuth decodeClientAuth (fun msg => sigLenValid msg.sig = true)
      clientAuthFields :=
    .of_layout (fun _ _ _ => encodeClientAuth_fits) (fun _ _ => decodeClientAuth_eq_some_iff)
      fun _ => follows_clientAuthFields
  refine ⟨hclient, hserver, hauth, fun buf => ?_, fun buf msg hmsg => ?_⟩
  · simp only [hclient.accepts_iff, hserver.accepts_iff, hauth.accepts_iff]
    refine ⟨fun hboth => ?_, fun hboth => ?_, fun hboth => ?_⟩
    all_goals
      obtain ⟨byte, rfl, hbyte⟩ := hboth.1.first_byte hboth.2
      exact absurd hbyte (by decide)
  · obtain ⟨hid, -, rfl⟩ := decodeServerHello_eq_some_iff.mp hmsg
    exact encodeServerHelloUnsigned_eq_some_iff.mpr ⟨hid, ServerHello.take_unsignedLen hid⟩

/-! ## What a transcript determines -/

/-- Two valid ClientHellos followed by anything agree only message by message. -/
theorem ClientHello.append_cancel {first second : ClientHello} {firstRest secondRest : Bytes}
    (hfirst : idLenValid first.id = true) (hsecond : idLenValid second.id = true)
    (heq : first.bytes ++ firstRest = second.bytes ++ secondRest) :
    first = second ∧ firstRest = secondRest := by
  simp only [ClientHello.bytes, List.cons_append, List.append_assoc, List.cons.injEq,
    true_and] at heq
  obtain ⟨hid, hafterId⟩ := idLen_append_cancel hfirst hsecond (List.cons_eq_cons.mpr heq)
  obtain ⟨heph, hafterEph⟩ := blob_append_cancel hafterId
  obtain ⟨hek, hafterEk⟩ := blob_append_cancel hafterEph
  obtain ⟨hsession, hafterSession⟩ := blob_append_cancel hafterEk
  obtain ⟨hnonce, hrest⟩ := blob_append_cancel hafterSession
  exact ⟨ClientHello.ext hid heph hek hsession hnonce, hrest⟩

/-- The bytes of a valid ServerHello determine it. -/
theorem ServerHello.bytes_injective {first second : ServerHello}
    (hfirst : idLenValid first.id = true) (hfirstSig : sigLenValid first.sig = true)
    (hsecond : idLenValid second.id = true) (hsecondSig : sigLenValid second.sig = true)
    (heq : first.bytes = second.bytes) : first = second := by
  have hdecode := decodeServerHello_eq_some_iff.mpr ⟨hfirst, hfirstSig, rfl⟩
  rw [heq, decodeServerHello_eq_some_iff.mpr ⟨hsecond, hsecondSig, rfl⟩] at hdecode
  exact (Option.some.inj hdecode).symm

namespace TranscriptPurpose

/-- The part of a ServerHello that goes into a transcript: what its signature covers, or all of
it. -/
def covered (sh : ServerHello) (buf : Bytes) : TranscriptPurpose → Bytes
  | serverAuth => buf.take (transcriptServerHelloUnsignedLen sh.id.length)
  | clientAuth | handshakeId => buf

/-- No label is the beginning of another, so the purpose can be read off. -/
theorem eq_of_label_append {purpose other : TranscriptPurpose} {rest otherRest : Bytes}
    (heq : purpose.label ++ rest = other.label ++ otherRest) : purpose = other := by
  have hlong : ∀ purpose : TranscriptPurpose, 15 ≤ purpose.label.length := by
    intro purpose
    cases purpose <;> decide +kernel
  have hstart := congrArg (List.take 15) heq
  rw [List.take_append_of_le_length (hlong purpose),
    List.take_append_of_le_length (hlong other)] at hstart
  have hdistinct : ∀ purpose other : TranscriptPurpose,
      purpose.label.take 15 = other.label.take 15 → purpose = other := by
    intro purpose other
    cases purpose <;> cases other <;> decide +kernel
  exact hdistinct purpose other hstart

end TranscriptPurpose

/-- What goes into a transcript of a ServerHello that decodes is its unsigned part, or all of
its bytes. -/
theorem TranscriptPurpose.covered_eq {sh : ServerHello} (purpose : TranscriptPurpose)
    (hsh : decodeServerHello buf = some sh) :
    purpose.covered sh buf = if purpose = .serverAuth then sh.unsignedBytes else sh.bytes := by
  obtain ⟨hid, -, rfl⟩ := decodeServerHello_eq_some_iff.mp hsh
  cases purpose with
  | serverAuth => exact ServerHello.take_unsignedLen hid
  | clientAuth => rfl
  | handshakeId => rfl

/-- Each transcript function hashes the input of its purpose. Equal inputs have the same purpose
and were made from the same two messages: the same ClientHello, and the same ServerHello up to its
signature, which is the same too unless the purpose is to make it. -/
theorem transcript_input_injective :
    (∀ prims first second,
      transcriptHashServerAuth prims first second =
          prims.sha256 (TranscriptPurpose.serverAuth.input first second) ∧
        transcriptHashClientAuth prims first second =
          prims.sha256 (TranscriptPurpose.clientAuth.input first second) ∧
        (transcriptHandshakeId prims first second).toList =
          (prims.sha256 (TranscriptPurpose.handshakeId.input first second)).toList.take 16) ∧
    ∀ (purpose purpose' : TranscriptPurpose) (chBuf chBuf' shBuf shBuf' : Bytes)
      (ch ch' : ClientHello) (sh sh' : ServerHello),
      decodeClientHello chBuf = some ch → decodeClientHello chBuf' = some ch' →
      decodeServerHello shBuf = some sh → decodeServerHello shBuf' = some sh' →
      purpose.input chBuf (purpose.covered sh shBuf) =
        purpose'.input chBuf' (purpose'.covered sh' shBuf') →
      purpose = purpose' ∧ chBuf = chBuf' ∧ sh.unsignedBytes = sh'.unsignedBytes ∧
        (purpose ≠ .serverAuth → shBuf = shBuf') := by
  refine ⟨fun prims first second => ⟨rfl, rfl, rfl⟩, ?_⟩
  intro purpose purpose' chBuf chBuf' shBuf shBuf' ch ch' sh sh' hch hch' hsh hsh' heq
  obtain ⟨hid, rfl⟩ := decodeClientHello_eq_some_iff.mp hch
  obtain ⟨hid', rfl⟩ := decodeClientHello_eq_some_iff.mp hch'
  obtain rfl := TranscriptPurpose.eq_of_label_append heq
  have hmessages := (List.cons.inj (List.append_cancel_left heq)).2
  obtain ⟨rfl, hcovered⟩ := ClientHello.append_cancel hid hid' hmessages
  rw [purpose.covered_eq hsh, purpose.covered_eq hsh'] at hcovered
  obtain ⟨hserver, hsig, rfl⟩ := decodeServerHello_eq_some_iff.mp hsh
  obtain ⟨hserver', hsig', rfl⟩ := decodeServerHello_eq_some_iff.mp hsh'
  by_cases hpurpose : purpose = .serverAuth
  · rw [if_pos hpurpose, if_pos hpurpose] at hcovered
    exact ⟨rfl, rfl, hcovered, fun hother => absurd hpurpose hother⟩
  rw [if_neg hpurpose, if_neg hpurpose] at hcovered
  obtain rfl := ServerHello.bytes_injective hserver hsig hserver' hsig' hcovered
  exact ⟨rfl, rfl, rfl, fun _ => rfl⟩

/-- A ClientHello and a ServerHello never make one input for two purposes. -/
theorem transcript_input_injective_zero :
    let ch : ClientHello := ⟨[1], Blob.zero 32, Blob.zero 1184, Blob.zero 16, Blob.zero 32⟩
    let sh : ServerHello :=
      ⟨[2], Blob.zero 32, Blob.zero 1088, Blob.zero 32, Blob.zero 16, [3]⟩
    TranscriptPurpose.clientAuth.input ch.bytes (TranscriptPurpose.clientAuth.covered sh sh.bytes) ≠
      TranscriptPurpose.handshakeId.input ch.bytes
        (TranscriptPurpose.handshakeId.covered sh sh.bytes) := by
  intro ch sh heq
  have hch : decodeClientHello ch.bytes = some ch := decodeClientHello_eq_some_iff.mpr ⟨rfl, rfl⟩
  have hsh : decodeServerHello sh.bytes = some sh :=
    decodeServerHello_eq_some_iff.mpr ⟨rfl, rfl, rfl⟩
  cases (transcript_input_injective.2 _ _ _ _ _ _ _ _ _ _ hch hch hsh hsh heq).1

end MldsaAuth.Protocol
