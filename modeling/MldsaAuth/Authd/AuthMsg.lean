/-
# Messages inside the session

Once a session stands, its records carry short messages: the login code, a request to
rotate the device key and its acknowledgement, an error, a goodbye. This file embeds
the codecs of `authd/authmsg.c` and the string a rotation signature covers. The codecs of a
rotation are canonical, and the first byte keeps the messages apart.
-/

import MldsaAuth.Protocol.Transcript

namespace MldsaAuth.Authd

open Foundation Crypto Protocol

/-- `authmsg_status_t`, without success. -/
inductive AuthmsgStatus where
  | errArg
  | errEmpty
  | errBadLength
  | errBadVersion
  | errBadField
  | errUnknownOp
deriving DecidableEq, Repr

/-- `AUTHMSG_VERSION`. -/
def authmsgVersion : UInt8 := 0x01

/-- The operations, `AUTHMSG_OP_*`. -/
def authmsgOpLoginCode : UInt8 := 0x10
def authmsgOpRotate : UInt8 := 0x11
def authmsgOpRotateAck : UInt8 := 0x12
def authmsgOpError : UInt8 := 0x1f
def authmsgOpBye : UInt8 := 0x20

/-- The codes an ERROR carries, `AUTHMSG_ERR_*`. -/
inductive AuthmsgErr where
  | malformed
  | notPermitted
  | rejected
  | rateLimited
  | internal
deriving DecidableEq, Repr

/-- The byte of an error code. -/
def AuthmsgErr.byte : AuthmsgErr → UInt8
  | malformed => 0x01
  | notPermitted => 0x02
  | rejected => 0x03
  | rateLimited => 0x04
  | internal => 0x05

/-- `AUTHMSG_FLAG_ROTATION_DUE`. -/
def authmsgFlagRotationDue : UInt8 := 0x01

/-- `AUTHMSG_FLAG_ROTATE_DROP_TOKENS`. -/
def authmsgFlagRotateDropTokens : UInt8 := 0x01

/-- A field that does not fit in what is left is a bad length. -/
def fitting {Value : Type} (field : Option Value) : Except AuthmsgStatus Value :=
  field.elim (.error .errBadLength) .ok

/-- `authmsg_login_code_t`. -/
structure LoginCode where
  flags : UInt8
  code : Blob 32
  codeExpires : ℕ
deriving DecidableEq

/-- `authmsg_encode_login_code`; only the one defined flag may be set. -/
def encodeLoginCode (msg : LoginCode) : Except AuthmsgStatus Bytes :=
  if msg.flags &&& ~~~authmsgFlagRotationDue ≠ 0 then .error .errBadField
  else
    .ok (authmsgOpLoginCode :: authmsgVersion :: msg.flags ::
      (msg.code.toList ++ beBytes 8 msg.codeExpires))

/-- `authmsg_decode_login_code`. -/
def decodeLoginCode : Bytes → Except AuthmsgStatus LoginCode
  | [] => .error .errEmpty
  | op :: rest =>
    if op ≠ authmsgOpLoginCode then .error .errUnknownOp
    else if rest.length ≠ 42 then .error .errBadLength
    else
      match rest with
      | version :: flags :: rest => do
          if version ≠ authmsgVersion then .error .errBadVersion
          else if flags &&& ~~~authmsgFlagRotationDue ≠ 0 then .error .errBadField
          else
            let (code, rest) ← fitting (takeBlob 32 rest)
            let (codeExpires, _) ← fitting (readBe 8 rest)
            .ok ⟨flags, code, codeExpires⟩
      | _ => .error .errBadLength

/-- `authmsg_encode_error`. -/
def encodeError (code : AuthmsgErr) : Bytes := [authmsgOpError, authmsgVersion, code.byte]

/-- `authmsg_decode_error`. -/
def decodeError : Bytes → Except AuthmsgStatus UInt8
  | [] => .error .errEmpty
  | op :: rest =>
    if op ≠ authmsgOpError then .error .errUnknownOp
    else
      match rest with
      | [version, code] =>
        if version ≠ authmsgVersion then .error .errBadVersion
        else if code < 0x01 ∨ 0x05 < code then .error .errBadField
        else .ok code
      | _ => .error .errBadLength

/-- `authmsg_rotate_t`. -/
structure RotateMsg where
  flags : UInt8
  handle : Bytes
  pkNew : SigPublicKey
  sigOld : Bytes
  sigNew : Bytes
deriving DecidableEq

/-- The bytes of a ROTATE, in wire order. -/
def RotateMsg.bytes (msg : RotateMsg) : Bytes :=
  authmsgOpRotate :: authmsgVersion :: msg.flags :: UInt8.ofNat msg.handle.length ::
    (msg.handle ++ (msg.pkNew.toList ++ (beBytes 2 msg.sigOld.length ++ (msg.sigOld ++
      (beBytes 2 msg.sigNew.length ++ msg.sigNew)))))

/-- `authmsg_encode_rotate`. -/
def encodeRotate (msg : RotateMsg) (outCap : ℕ) : Except AuthmsgStatus Bytes :=
  if msg.handle.length = 0 ∨ 64 < msg.handle.length ∨
      msg.sigOld.length = 0 ∨ mldsaSignatureMaxBytes < msg.sigOld.length ∨
      msg.sigNew.length = 0 ∨ mldsaSignatureMaxBytes < msg.sigNew.length then .error .errBadField
  else if msg.flags &&& ~~~authmsgFlagRotateDropTokens ≠ 0 then .error .errBadField
  else if outCap < 4 + msg.handle.length + 1952 + 2 + msg.sigOld.length + 2 + msg.sigNew.length then
    .error .errArg
  else .ok msg.bytes

/-- A signature behind its 16-bit length. -/
def takeSignature (bytes : Bytes) : Except AuthmsgStatus (Bytes × Bytes) := do
  let (length, rest) ← fitting (readBe 2 bytes)
  if length = 0 ∨ mldsaSignatureMaxBytes < length then .error .errBadField
  else fitting (takeBytes length rest)

/-- The fields of a ROTATE after its four fixed bytes; nothing may follow them. -/
def decodeRotateFields (flags : UInt8) (handleLen : ℕ) (bytes : Bytes) :
    Except AuthmsgStatus RotateMsg := do
  let (handle, bytes) ← fitting (takeBytes handleLen bytes)
  let (pkNew, bytes) ← fitting (takeBlob 1952 bytes)
  let (sigOld, bytes) ← takeSignature bytes
  let (sigNew, bytes) ← takeSignature bytes
  if bytes ≠ [] then .error .errBadLength
  else
    .ok { flags := flags, handle := handle, pkNew := pkNew, sigOld := sigOld, sigNew := sigNew }

/-- `authmsg_decode_rotate`. -/
def decodeRotate : Bytes → Except AuthmsgStatus RotateMsg
  | [] => .error .errEmpty
  | op :: rest =>
    if op ≠ authmsgOpRotate then .error .errUnknownOp
    else
      match rest with
      | version :: flags :: handleLen :: rest =>
        if version ≠ authmsgVersion then .error .errBadVersion
        else if flags &&& ~~~authmsgFlagRotateDropTokens ≠ 0 then .error .errBadField
        else if handleLen = 0 ∨ 64 < handleLen.toNat then .error .errBadField
        else decodeRotateFields flags handleLen.toNat rest
      | _ => .error .errBadLength

/-- `authmsg_encode_rotate_ack`, into a buffer for the longest handle. -/
def encodeRotateAck (handle : Bytes) (fpNew : Blob 32) (rotatedAt : ℤ) :
    Except AuthmsgStatus Bytes :=
  if handle.length = 0 ∨ 64 < handle.length then .error .errBadField
  else
    .ok (authmsgOpRotateAck :: authmsgVersion :: UInt8.ofNat handle.length ::
      (handle ++ fpNew.toList ++ beBytes 8 (rotatedAt % 2 ^ 64).toNat))

/-- `authmsg_rotate_ack_t`. -/
structure RotateAck where
  handle : Bytes
  fpNew : Blob 32
  rotatedAt : UInt64
deriving DecidableEq

/-- `authmsg_encode_rotate_ack`, into a buffer of any size. -/
def RotateAck.encode (msg : RotateAck) (outCap : ℕ) : Except AuthmsgStatus Bytes := do
  let bytes ← encodeRotateAck msg.handle msg.fpNew msg.rotatedAt.toNat
  if outCap < 43 + msg.handle.length then .error .errArg else .ok bytes

/-- The fields of a ROTATE_ACK after its handle length. -/
def decodeRotateAckFields (handleLen : ℕ) (bytes : Bytes) : Except AuthmsgStatus RotateAck := do
  let (handle, bytes) ← fitting (takeBytes handleLen bytes)
  let (fpNew, bytes) ← fitting (takeBlob 32 bytes)
  let (rotatedAt, bytes) ← fitting (readBe 8 bytes)
  if bytes ≠ [] then .error .errBadLength else .ok ⟨handle, fpNew, .ofNat rotatedAt⟩

/-- `authmsg_decode_rotate_ack`. -/
def decodeRotateAck : Bytes → Except AuthmsgStatus RotateAck
  | [] => .error .errEmpty
  | op :: rest =>
    if op ≠ authmsgOpRotateAck then .error .errUnknownOp
    else
      match rest with
      | version :: handleLen :: rest =>
        if version ≠ authmsgVersion then .error .errBadVersion
        else if handleLen = 0 ∨ 64 < handleLen.toNat then .error .errBadField
        else decodeRotateAckFields handleLen.toNat rest
      | _ => .error .errBadLength

/-- The two labels of a rotation, `AUTHMSG_LABEL_ROTATE_OLD` and `AUTHMSG_LABEL_ROTATE_NEW`. -/
inductive RotateLabel where
  | old
  | new
deriving DecidableEq, Repr

/-- The text of a label. -/
def RotateLabel.text : RotateLabel → Bytes
  | old => ascii "mldsa-authd/v1/rotate-old"
  | new => ascii "mldsa-authd/v1/rotate-new"

/-- What a rotation is about. -/
structure RotateSubject where
  handshakeId : HandshakeId
  flags : UInt8
  handle : Bytes
  pkOld : SigPublicKey
  pkNew : SigPublicKey
deriving DecidableEq

/-- The bytes `authmsg_rotate_digest` hashes. -/
def RotateSubject.hashed (subject : RotateSubject) (label : RotateLabel) : Bytes :=
  label.text ++ 0 :: (subject.handshakeId.toList ++ subject.flags ::
    UInt8.ofNat subject.handle.length :: (subject.handle ++ subject.pkOld.toList ++
      subject.pkNew.toList))

/-- `authmsg_rotate_digest`. -/
def rotateDigest (prims : Primitives) (subject : RotateSubject) (label : RotateLabel) :
    Except AuthmsgStatus (Blob 32) :=
  if subject.handle.length = 0 ∨ 64 < subject.handle.length then .error .errArg
  else .ok (prims.sha256 (subject.hashed label))

/-! ## The codecs of a rotation -/

variable {msg : RotateMsg} {outCap : ℕ}

section Codecs

variable {Value Result : Type} {status : AuthmsgStatus} {value : Value} {result : Result}
  {buf : Bytes}

theorem check_eq_ok {condition : Prop} [Decidable condition] {next : Except AuthmsgStatus Result} :
    (if condition then .error status else next) = .ok result ↔ ¬condition ∧ next = .ok result := by
  split <;> simp_all

theorem fitting_bind_eq_ok {field : Option Value} {next : Value → Except AuthmsgStatus Result} :
    (fitting field >>= next) = .ok result ↔
      ∃ value, field = some value ∧ next value = .ok result := by
  cases field with
  | none | some => simp [fitting, bind, Except.bind]

theorem takeSignature_bind_eq_ok {next : Bytes × Bytes → Except AuthmsgStatus Result} :
    (takeSignature buf >>= next) = .ok result ↔ ∃ sig rest, sigLenValid sig = true ∧
      buf = beBytes 2 sig.length ++ (sig ++ rest) ∧ next (sig, rest) = .ok result := by
  have hlength {count : ℕ} : ¬(count = 0 ∨ mldsaSignatureMaxBytes < count) ↔
      1 ≤ count ∧ count ≤ mldsaSignatureMaxBytes := by
    omega
  simp only [takeSignature, bind_assoc, fitting_bind_eq_ok, Prod.exists, readBe_eq_some_iff]
  constructor
  · rintro ⟨count, tail, ⟨-, rfl⟩, hnext⟩
    split at hnext
    · cases hnext
    rename_i hcount
    obtain ⟨⟨sig, rest⟩, htake, hread⟩ := fitting_bind_eq_ok.mp hnext
    obtain ⟨rfl, rfl⟩ := takeBytes_eq_some_iff.mp htake
    exact ⟨sig, rest, sigLenValid_iff.mpr (hlength.mp hcount), rfl, hread⟩
  · rintro ⟨sig, rest, hsig, rfl, hnext⟩
    have hvalid := sigLenValid_iff.mp hsig
    refine ⟨sig.length, sig ++ rest, ⟨?_, rfl⟩, ?_⟩
    · simp only [mldsaSignatureMaxBytes] at hvalid
      omega
    rw [if_neg (hlength.mpr hvalid)]
    exact fitting_bind_eq_ok.mpr ⟨_, takeBytes_eq_some_iff.mpr ⟨rfl, rfl⟩, hnext⟩

/-- A handle is read behind its length like an identity. -/
theorem handle_iff {handleLen : UInt8} {rest handle tail : Bytes} :
    ¬(handleLen = 0 ∨ 64 < handleLen.toNat) ∧ takeBytes handleLen.toNat rest = some (handle, tail) ↔
      idLenValid handle = true ∧ handleLen = UInt8.ofNat handle.length ∧ rest = handle ++ tail := by
  have hlength : ¬(handleLen = 0 ∨ 64 < handleLen.toNat) ↔
      1 ≤ handleLen.toNat ∧ handleLen.toNat ≤ 64 := by
    rw [← UInt8.toNat_inj]
    simp only [UInt8.toNat_zero]
    omega
  have hread : readId (handleLen :: rest) = some (handle, tail) ↔ _ := readId_eq_some_iff
  rw [List.cons.injEq] at hread
  rw [hlength, ← idLenByte, ← hread]
  exact (Option.ite_none_right_eq_some).symm

/-- What the decoder of a ROTATE checks. -/
def RotateMsg.Valid (msg : RotateMsg) : Prop :=
  msg.flags &&& ~~~authmsgFlagRotateDropTokens = 0 ∧ idLenValid msg.handle = true ∧
    sigLenValid msg.sigOld = true ∧ sigLenValid msg.sigNew = true

theorem decodeRotate_eq_ok_iff : decodeRotate buf = .ok msg ↔ msg.Valid ∧ buf = msg.bytes := by
  constructor
  · intro hdecode
    rcases buf with _ | ⟨op, _ | ⟨version, _ | ⟨flags, _ | ⟨handleLen, rest⟩⟩⟩⟩
    all_goals
      simp only [decodeRotate, decodeRotateFields, check_eq_ok, fitting_bind_eq_ok,
        takeSignature_bind_eq_ok, takeBlob_eq_some_iff, reduceCtorEq, and_false, Prod.exists,
        not_not] at hdecode
    obtain ⟨rfl, rfl, hflags, hhandleLen, handle, tail, htake, pkNew, -, rfl, sigOld, -, hold, rfl,
      sigNew, -, hnew, rfl, rfl, hmsg⟩ := hdecode
    obtain ⟨hhandle, rfl, rfl⟩ := handle_iff.mp ⟨hhandleLen, htake⟩
    obtain rfl := Except.ok.inj hmsg
    exact ⟨⟨hflags, hhandle, hold, hnew⟩, by simp [RotateMsg.bytes]⟩
  · rintro ⟨⟨hflags, hhandle, hold, hnew⟩, rfl⟩
    obtain ⟨hhandleLen, htake⟩ := handle_iff.mpr ⟨hhandle, rfl, rfl⟩
    simp only [RotateMsg.bytes, decodeRotate, decodeRotateFields, check_eq_ok, fitting_bind_eq_ok,
      takeSignature_bind_eq_ok, takeBlob_eq_some_iff, Prod.exists, not_not]
    exact ⟨trivial, trivial, hflags, hhandleLen, msg.handle, _, htake, msg.pkNew, _, rfl,
      msg.sigOld, _, hold, rfl, msg.sigNew, [], hnew, by simp, rfl, rfl⟩

/-- The bytes of a ROTATE_ACK, in wire order. -/
def RotateAck.bytes (msg : RotateAck) : Bytes :=
  authmsgOpRotateAck :: authmsgVersion :: UInt8.ofNat msg.handle.length ::
    (msg.handle ++ (msg.fpNew.toList ++ beBytes 8 msg.rotatedAt.toNat))

theorem decodeRotateAck_eq_ok_iff {msg : RotateAck} :
    decodeRotateAck buf = .ok msg ↔ idLenValid msg.handle = true ∧ buf = msg.bytes := by
  constructor
  · intro hdecode
    rcases buf with _ | ⟨op, _ | ⟨version, _ | ⟨handleLen, rest⟩⟩⟩
    all_goals
      simp only [decodeRotateAck, decodeRotateAckFields, check_eq_ok, fitting_bind_eq_ok,
        takeBlob_eq_some_iff, readBe_eq_some_iff, reduceCtorEq, and_false, Prod.exists,
        not_not] at hdecode
    obtain ⟨rfl, rfl, hhandleLen, handle, tail, htake, fpNew, -, rfl, rotatedAt, -, ⟨hat, rfl⟩, rfl,
      hmsg⟩ := hdecode
    obtain ⟨hhandle, rfl, rfl⟩ := handle_iff.mp ⟨hhandleLen, htake⟩
    obtain rfl := Except.ok.inj hmsg
    refine ⟨hhandle, ?_⟩
    rw [RotateAck.bytes, UInt64.toNat_ofNat_of_lt' hat, List.append_nil]
  · rintro ⟨hhandle, rfl⟩
    obtain ⟨hhandleLen, htake⟩ := handle_iff.mpr ⟨hhandle, rfl, rfl⟩
    simp only [RotateAck.bytes, decodeRotateAck, decodeRotateAckFields, check_eq_ok,
      fitting_bind_eq_ok, takeBlob_eq_some_iff, readBe_eq_some_iff, Prod.exists, not_not]
    exact ⟨trivial, trivial, hhandleLen, msg.handle, _, htake, msg.fpNew, _, rfl, _, [],
      ⟨msg.rotatedAt.toNat_lt, (List.append_nil _).symm⟩, rfl, by rw [UInt64.ofNat_toNat]⟩

theorem encodeRotate_eq_ok_iff :
    encodeRotate msg outCap = .ok buf ↔
      msg.Valid ∧ msg.bytes.length ≤ outCap ∧ buf = msg.bytes := by
  have hlength : msg.bytes.length =
      4 + msg.handle.length + 1952 + 2 + msg.sigOld.length + 2 + msg.sigNew.length := by
    simp only [RotateMsg.bytes, List.length_cons, List.length_append, Blob.length_toList,
      length_beBytes]
    omega
  simp only [encodeRotate, check_eq_ok, not_not, Except.ok.injEq, not_lt, ← hlength,
    RotateMsg.Valid, idLenValid_iff, sigLenValid_iff, eq_comm (a := buf)]
  grind

theorem RotateAck.encode_eq_ok_iff {msg : RotateAck} :
    msg.encode outCap = .ok buf ↔
      idLenValid msg.handle = true ∧ msg.bytes.length ≤ outCap ∧ buf = msg.bytes := by
  have hlength : msg.bytes.length = 43 + msg.handle.length := by
    simp only [RotateAck.bytes, List.length_cons, List.length_append, Blob.length_toList,
      length_beBytes]
    omega
  have htime : ((msg.rotatedAt.toNat : ℤ) % 2 ^ 64).toNat = msg.rotatedAt.toNat := by
    have hbound := msg.rotatedAt.toNat_lt
    omega
  unfold RotateAck.encode encodeRotateAck
  rw [htime, idLenValid_iff, hlength]
  by_cases hhandle : msg.handle.length = 0 ∨ 64 < msg.handle.length
  · rw [if_pos hhandle]
    exact ⟨nofun, fun hvalid => absurd hvalid.1 (by omega)⟩
  rw [if_neg hhandle, List.append_assoc]
  change (if _ then Except.error AuthmsgStatus.errArg else .ok msg.bytes) = .ok buf ↔ _
  rw [check_eq_ok, not_lt, Except.ok.injEq, eq_comm (a := buf)]
  exact ⟨fun hfits => ⟨by omega, hfits⟩, fun hvalid => hvalid.2⟩

/-- The layout of a ROTATE. -/
def rotateFields : List Field :=
  [.octet (· = authmsgOpRotate), .octet (· = authmsgVersion),
    .octet (· &&& ~~~authmsgFlagRotateDropTokens = 0), .sized 1 1 64, .fixed 1952,
    .sized 2 1 mldsaSignatureMaxBytes, .sized 2 1 mldsaSignatureMaxBytes]

/-- The layout of a ROTATE_ACK. -/
def rotateAckFields : List Field :=
  [.octet (· = authmsgOpRotateAck), .octet (· = authmsgVersion), .sized 1 1 64, .fixed 32, .fixed 8]

theorem follows_rotateFields :
    Follows rotateFields buf ↔ ∃ msg : RotateMsg, msg.Valid ∧ buf = msg.bytes := by
  simp only [rotateFields, follows_octet, follows_sized, follows_fixed, follows_nil, beBytes_one,
    RotateMsg.Valid, RotateMsg.bytes, idLenValid_iff, sigLenValid_iff]
  constructor
  · rintro ⟨-, -, rfl, ⟨-, -, rfl, ⟨flags, -, hflags, ⟨handle, -, hhandle, ⟨pkNew, -,
      ⟨sigOld, -, hold, ⟨sigNew, -, hnew, rfl, rfl⟩, rfl⟩, rfl⟩, rfl⟩, rfl⟩, rfl⟩, rfl⟩
    exact ⟨⟨flags, handle, pkNew, sigOld, sigNew⟩, ⟨hflags, hhandle, hold, hnew⟩,
      by simp [idLenByte]⟩
  · rintro ⟨msg, ⟨hflags, hhandle, hold, hnew⟩, rfl⟩
    exact ⟨_, _, rfl, ⟨_, _, rfl, ⟨msg.flags, _, hflags, ⟨msg.handle, _, hhandle, ⟨msg.pkNew, _,
      ⟨msg.sigOld, _, hold, ⟨msg.sigNew, _, hnew, rfl, rfl⟩, rfl⟩, rfl⟩, rfl⟩, rfl⟩, rfl⟩,
      by simp [idLenByte]⟩

theorem follows_rotateAckFields :
    Follows rotateAckFields buf ↔
      ∃ msg : RotateAck, idLenValid msg.handle = true ∧ buf = msg.bytes := by
  simp only [rotateAckFields, follows_octet, follows_sized, follows_fixed, follows_nil, beBytes_one,
    RotateAck.bytes, idLenValid_iff]
  constructor
  · rintro ⟨-, -, rfl, ⟨-, -, rfl, ⟨handle, -, hhandle, ⟨fpNew, -, ⟨time, -, rfl, rfl⟩, rfl⟩, rfl⟩,
      rfl⟩, rfl⟩
    have hbound : beNat time.toList < 2 ^ 64 := by
      have hlt := beNat_lt time.toList
      rwa [time.length_toList] at hlt
    have hback := beBytes_beNat time.toList
    rw [time.length_toList] at hback
    refine ⟨⟨handle, fpNew, .ofNat (beNat time.toList)⟩, hhandle, ?_⟩
    rw [UInt64.toNat_ofNat_of_lt' hbound, hback, List.append_nil]
    rfl
  · rintro ⟨msg, hhandle, rfl⟩
    exact ⟨_, _, rfl, ⟨_, _, rfl, ⟨msg.handle, _, hhandle, ⟨msg.fpNew, _,
      ⟨⟨beBytes 8 msg.rotatedAt.toNat, length_beBytes _ _⟩, _, rfl, rfl⟩, rfl⟩, rfl⟩, rfl⟩,
      by simp [idLenByte]⟩

/-- The messages of a session that have a body and a decoder. -/
inductive AuthmsgKind where
  | loginCode
  | rotate
  | rotateAck
  | error
deriving DecidableEq, Repr

namespace AuthmsgKind

/-- The operation a message begins with. -/
def op : AuthmsgKind → UInt8
  | loginCode => authmsgOpLoginCode
  | rotate => authmsgOpRotate
  | rotateAck => authmsgOpRotateAck
  | error => authmsgOpError

/-- The decoder of a message accepts the bytes. -/
def Accepts (buf : Bytes) : AuthmsgKind → Prop
  | loginCode => ∃ msg, decodeLoginCode buf = .ok msg
  | rotate => ∃ msg, decodeRotate buf = .ok msg
  | rotateAck => ∃ msg, decodeRotateAck buf = .ok msg
  | error => ∃ code, decodeError buf = .ok code

theorem head_of_accepts {kind : AuthmsgKind} (haccepts : kind.Accepts buf) :
    buf.head? = some kind.op := by
  cases buf with
  | nil => cases kind <;> cases haccepts <;> contradiction
  | cons byte =>
    by_contra hhead
    cases kind <;>
      simp_all [Accepts, op, decodeLoginCode, decodeRotate, decodeRotateAck, decodeError]

end AuthmsgKind

theorem toOption_eq_some_iff {result : Except AuthmsgStatus Value} :
    result.toOption = some value ↔ result = .ok value := by
  cases result <;> simp [Except.toOption]

/-- The codecs of ROTATE and ROTATE_ACK are canonical, and no two of the decoders of a session
accept the same bytes. -/
theorem rotation_codecs_canonical :
    Canonical (fun msg outCap => (encodeRotate msg outCap).toOption)
        (fun buf => (decodeRotate buf).toOption) RotateMsg.Valid rotateFields ∧
      Canonical (fun msg outCap => (RotateAck.encode msg outCap).toOption)
        (fun buf => (decodeRotateAck buf).toOption) (fun msg => idLenValid msg.handle = true)
        rotateAckFields ∧
      ∀ (buf : Bytes) (kind other : AuthmsgKind), kind.Accepts buf → other.Accepts buf →
        kind = other := by
  refine ⟨.of_layout (fun _ _ _ => toOption_eq_some_iff.trans encodeRotate_eq_ok_iff)
      (fun _ _ => toOption_eq_some_iff.trans decodeRotate_eq_ok_iff) fun _ => follows_rotateFields,
    .of_layout (fun _ _ _ => toOption_eq_some_iff.trans RotateAck.encode_eq_ok_iff)
      (fun _ _ => toOption_eq_some_iff.trans decodeRotateAck_eq_ok_iff)
      fun _ => follows_rotateAckFields, fun buf kind other haccepts hother => ?_⟩
  have hop : kind.op = other.op :=
    Option.some.inj ((AuthmsgKind.head_of_accepts haccepts).symm.trans
      (AuthmsgKind.head_of_accepts hother))
  revert hop
  cases kind <;> cases other <;> decide

end Codecs

/-! ## What is derived from and signed for -/

/-- The bytes that are hashed say what the rotation is and which key signs it. -/
theorem RotateSubject.hashed_injective {first second : RotateSubject} {label other : RotateLabel}
    (hfirst : first.handle.length ≤ 64) (hsecond : second.handle.length ≤ 64)
    (hhashed : first.hashed label = second.hashed other) : label = other ∧ first = second := by
  obtain ⟨handshakeId, flags, handle, pkOld, pkNew⟩ := first
  obtain ⟨handshakeId', flags', handle', pkOld', pkNew'⟩ := second
  dsimp only at hfirst hsecond hhashed
  obtain ⟨htext, hsubject⟩ := List.append_inj hhashed
    (by cases label <;> cases other <;> decide +kernel)
  have hlabel : label = other := by
    revert htext
    cases label <;> cases other <;> decide +kernel
  obtain ⟨hid, hflagged⟩ := List.append_inj (List.cons.inj hsubject).2 (by simp)
  obtain ⟨hflags, hcounted⟩ := List.cons.inj hflagged
  obtain ⟨hlength, htail⟩ := List.cons.inj hcounted
  have hsame : handle.length = handle'.length := by
    have htoNat := congrArg UInt8.toNat hlength
    simp only [UInt8.toNat_ofNat'] at htoNat
    omega
  obtain ⟨hkeys, hnew⟩ := List.append_inj htail (by simp [hsame])
  obtain ⟨hhandle, hold⟩ := List.append_inj hkeys hsame
  subst hflags hhandle
  obtain rfl := List.Vector.toList_injective hid
  obtain rfl := List.Vector.toList_injective hold
  obtain rfl := List.Vector.toList_injective hnew
  exact ⟨hlabel, rfl⟩

end MldsaAuth.Authd
