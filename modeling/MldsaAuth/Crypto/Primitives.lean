/-
# Cryptographic primitives and their wrappers

The library calls a handful of primitives from libsodium and liboqs. They are not
part of the repository; a `Primitives` value stands for them, and what is assumed
about it is written as a hypothesis of the theorem that needs it. The wrappers of
`crypto/` are embedded over it. Whatever a call takes from its surroundings other
than its arguments (whether an allocation succeeds, random bytes, clock readings)
comes in a `CallEnv`.
-/

import MldsaAuth.Foundation.Bytes

namespace MldsaAuth.Crypto

open Foundation

/-- An X25519 scalar, an X25519 point, or a shared secret of either key exchange. -/
abbrev Secret := Blob 32

/-- A traffic key. -/
abbrev TrafficKey := Blob 32

/-- An ML-DSA-65 public key. -/
abbrev SigPublicKey := Blob 1952

/-- An ML-DSA-65 secret key. -/
abbrev SigSecretKey := Blob 4032

/-- An ML-KEM-768 encapsulation key. -/
abbrev KemPublicKey := Blob 1184

/-- An ML-KEM-768 decapsulation key. -/
abbrev KemSecretKey := Blob 2400

/-- An ML-KEM-768 ciphertext. -/
abbrev KemCiphertext := Blob 1088

/-- `MLDSA_SIGNATURE_MAX_BYTES`. -/
def mldsaSignatureMaxBytes : ℕ := 3309

/-- `AEAD_TAG_BYTES`. -/
def aeadTagBytes : ℕ := 16

/-- The primitives of libsodium and liboqs that the code calls. `none` stands for a
nonzero return code. Randomness they draw themselves is an argument. -/
structure Primitives where
  /-- `crypto_hash_sha256` -/
  sha256 : Bytes → Blob 32
  /-- `crypto_scalarmult_base` -/
  scalarmultBase : Secret → Option (Blob 32)
  /-- `crypto_scalarmult` -/
  scalarmult : Secret → Blob 32 → Option Secret
  /-- `OQS_KEM_keypair` -/
  kemKeypair : Blob 64 → Option (KemPublicKey × KemSecretKey)
  /-- `OQS_KEM_encaps` -/
  kemEncaps : KemPublicKey → Blob 32 → Option (KemCiphertext × Secret)
  /-- `OQS_KEM_decaps` -/
  kemDecaps : KemSecretKey → KemCiphertext → Option Secret
  /-- `OQS_SIG_sign` -/
  sigSign : SigSecretKey → Bytes → Blob 32 → Option Bytes
  /-- `OQS_SIG_verify`: key, message, signature -/
  sigVerify : SigPublicKey → Bytes → Bytes → Bool
  /-- `crypto_kdf_hkdf_sha256_extract`: salt, input keying material -/
  hkdfExtract : Bytes → Bytes → Option (Blob 32)
  /-- `crypto_kdf_hkdf_sha256_expand`: pseudorandom key, info -/
  hkdfExpand : Blob 32 → Bytes → Option TrafficKey

/-- The places at which a call asks for memory. -/
inductive AllocSite where
  | kexPrivateKey
  | kemObject
  | kemSecretKey
  | sigObject
  | sharedSecret
  | kemSharedSecret
  | derivedKeys
  | contextKeys
  | sessionKeys
deriving DecidableEq

/-- What one call takes from its surroundings. A call that reads the ledger's clock
twice gets `now` first and `later` second. -/
structure CallEnv where
  alloc : AllocSite → Bool
  ephSecret : Secret
  kemSeed : Blob 64
  encapsSeed : Blob 32
  signSeed : Blob 32
  sessionId : Blob 16
  nonce : Blob 32
  now : ℕ
  later : ℕ

/-! ## Key exchange -/

/-- `kex_keypair_t`; a freed pair has no private key and a zero public key. -/
structure KexKeypair where
  publicKey : Blob 32
  privateKey : Option Secret
deriving DecidableEq

/-- What `kex_keypair_free` leaves behind. -/
def KexKeypair.blank : KexKeypair where
  publicKey := Blob.zero 32
  privateKey := none

/-- `kex_keypair_generate`. -/
def kexKeypairGenerate (prims : Primitives) (env : CallEnv) : Option KexKeypair :=
  if env.alloc .kexPrivateKey then
    (prims.scalarmultBase env.ephSecret).map fun publicKey =>
      { publicKey := publicKey, privateKey := some env.ephSecret }
  else none

/-- `kex_shared_secret`. -/
def kexSharedSecret (prims : Primitives) (keypair : KexKeypair) (peerPublicKey : Blob 32) :
    Option Secret :=
  keypair.privateKey.bind fun privateKey => prims.scalarmult privateKey peerPublicKey

/-- The arguments of one HKDF computation. -/
structure HkdfCall where
  ikm : Bytes
  salt : Bytes
  info : Bytes
deriving DecidableEq

/-- `kex_hkdf_sha256`, for the one output length that is used. -/
def kexHkdfSha256 (prims : Primitives) (call : HkdfCall) : Option TrafficKey :=
  (prims.hkdfExtract call.salt call.ikm).bind fun prk => prims.hkdfExpand prk call.info

/-- The direction a traffic key is for, `KEX_DIR_C2S` or `KEX_DIR_S2C`. -/
inductive Direction where
  | c2s
  | s2c
deriving DecidableEq, Repr

/-- The byte of a direction. -/
def Direction.byte : Direction → UInt8
  | c2s => 0x43
  | s2c => 0x53

theorem Direction.byte_injective : Function.Injective Direction.byte := by
  intro first second hbyte
  cases first <;> cases second <;> simp_all [Direction.byte]

/-- `KEX_KDF_V2_LABEL`. -/
def kexKdfV2Label : Bytes := ascii "mldsa-auth/v2/kdf"

/-- The bounds `KEX_ID_MIN_LEN` and `KEX_ID_MAX_LEN`, which the wire shares. -/
def idLenValid (id : Bytes) : Bool := decide (1 ≤ id.length) && decide (id.length ≤ 64)

/-- One byte that holds the length of an identity. -/
def idLenByte (id : Bytes) : UInt8 := UInt8.ofNat id.length

/-- `kex_build_kdf_info_v2`. The first identity is the initiator's. -/
def kexBuildKdfInfoV2 (initiatorId responderId : Bytes) (thClientAuth : Blob 32)
    (direction : Direction) : Option Bytes :=
  if idLenValid initiatorId && idLenValid responderId then
    some (kexKdfV2Label ++ 0 :: idLenByte initiatorId :: initiatorId ++
      idLenByte responderId :: responderId ++ thClientAuth.toList ++ [direction.byte])
  else none

/-- The arguments of one key derivation. -/
@[ext]
structure KdfInputs where
  ssX : Secret
  ssK : Secret
  sessionId : Blob 16
  initiatorId : Bytes
  responderId : Bytes
  thClientAuth : Blob 32
deriving DecidableEq

/-- The HKDF computation a key derivation makes, if its identities are valid. -/
def kdfCall (inputs : KdfInputs) (direction : Direction) : Option HkdfCall :=
  (kexBuildKdfInfoV2 inputs.initiatorId inputs.responderId inputs.thClientAuth direction).map
    fun info =>
      { ikm := inputs.ssX.toList ++ inputs.ssK.toList
        salt := inputs.sessionId.toList
        info := info }

/-- `kex_derive_session_key_v2`. -/
def kexDeriveSessionKeyV2 (prims : Primitives) (inputs : KdfInputs) (direction : Direction) :
    Option TrafficKey :=
  (kdfCall inputs direction).bind (kexHkdfSha256 prims)

/-- An identity in range is determined by its length byte and its bytes. -/
theorem idLen_append_cancel {first second firstRest secondRest : Bytes}
    (hfirst : idLenValid first = true) (hsecond : idLenValid second = true)
    (heq : idLenByte first :: (first ++ firstRest) = idLenByte second :: (second ++ secondRest)) :
    first = second ∧ firstRest = secondRest := by
  obtain ⟨hbyte, hrest⟩ := List.cons.inj heq
  simp only [idLenValid, Bool.and_eq_true, decide_eq_true_eq] at hfirst hsecond
  have hlength : first.length = second.length := by
    have hnat := congrArg UInt8.toNat hbyte
    simp only [idLenByte, UInt8.toNat_ofNat'] at hnat
    omega
  exact append_cancel hlength hrest

variable {direction direction' : Direction}

/-- The key derivation info determines both identities, the digest and the direction. -/
theorem kexBuildKdfInfoV2_injective {initiator responder initiator' responder' info : Bytes}
    {digest digest' : Blob 32}
    (hfirst : kexBuildKdfInfoV2 initiator responder digest direction = some info)
    (hsecond : kexBuildKdfInfoV2 initiator' responder' digest' direction' = some info) :
    initiator = initiator' ∧ responder = responder' ∧ digest = digest' ∧
      direction = direction' := by
  simp only [kexBuildKdfInfoV2, Option.ite_none_right_eq_some, Bool.and_eq_true,
    Option.some.injEq] at hfirst hsecond
  obtain ⟨⟨hinitiator, hresponder⟩, hinfo⟩ := hfirst
  obtain ⟨⟨hinitiator', hresponder'⟩, hinfo'⟩ := hsecond
  have hbytes := hinfo.trans hinfo'.symm
  simp only [List.append_assoc, List.cons_append, List.append_cancel_left_eq] at hbytes
  obtain ⟨rfl, hafterInitiator⟩ :=
    idLen_append_cancel hinitiator hinitiator' (List.cons.inj hbytes).2
  obtain ⟨rfl, hafterResponder⟩ := idLen_append_cancel hresponder hresponder' hafterInitiator
  obtain ⟨rfl, hdirection⟩ := blob_append_cancel hafterResponder
  exact ⟨rfl, rfl, rfl, Direction.byte_injective (List.cons.inj hdirection).1⟩

/-- An HKDF computation determines the derivation it was made for. -/
theorem kdfCall_injective {inputs inputs' : KdfInputs} {call : HkdfCall}
    (hfirst : kdfCall inputs direction = some call)
    (hsecond : kdfCall inputs' direction' = some call) :
    inputs = inputs' ∧ direction = direction' := by
  simp only [kdfCall, Option.map_eq_some_iff] at hfirst hsecond
  obtain ⟨info, hinfo, rfl⟩ := hfirst
  obtain ⟨info', hinfo', hcall⟩ := hsecond
  obtain ⟨hikm, hsalt, rfl⟩ := HkdfCall.mk.inj hcall
  obtain ⟨hinitiator, hresponder, hdigest, rfl⟩ := kexBuildKdfInfoV2_injective hinfo hinfo'
  obtain ⟨hssX, hssK⟩ := blob_append_cancel hikm
  exact ⟨KdfInputs.ext hssX.symm (Blob.toList_injective hssK.symm)
    (Blob.toList_injective hsalt.symm) hinitiator hresponder hdigest, rfl⟩

/-! ## Key encapsulation -/

/-- `mlkem_keypair_t`. -/
structure MlkemKeypair where
  publicKey : KemPublicKey
  secretKey : Option KemSecretKey
deriving DecidableEq

/-- What `mlkem_keypair_free` leaves behind. -/
def MlkemKeypair.blank : MlkemKeypair where
  publicKey := Blob.zero 1184
  secretKey := none

/-- `mlkem_keypair_generate`. -/
def mlkemKeypairGenerate (prims : Primitives) (env : CallEnv) : Option MlkemKeypair :=
  if env.alloc .kemObject && env.alloc .kemSecretKey then
    (prims.kemKeypair env.kemSeed).map fun (publicKey, secretKey) =>
      { publicKey := publicKey, secretKey := some secretKey }
  else none

/-- `mlkem_encaps`. -/
def mlkemEncaps (prims : Primitives) (env : CallEnv) (publicKey : KemPublicKey) :
    Option (KemCiphertext × Secret) :=
  if env.alloc .kemObject then prims.kemEncaps publicKey env.encapsSeed else none

/-- `mlkem_decaps`. -/
def mlkemDecaps (prims : Primitives) (env : CallEnv) (ciphertext : KemCiphertext)
    (keypair : MlkemKeypair) : Option Secret :=
  keypair.secretKey.bind fun secretKey =>
    if env.alloc .kemObject then prims.kemDecaps secretKey ciphertext else none

/-! ## Signatures -/

/-- `mldsa_keypair_t`. -/
structure MldsaKeypair where
  publicKey : SigPublicKey
  secretKey : Option SigSecretKey
deriving DecidableEq

/-- `mldsa_sign`. -/
def mldsaSign (prims : Primitives) (env : CallEnv) (message : Bytes)
    (keypair : MldsaKeypair) : Option Bytes :=
  keypair.secretKey.bind fun secretKey =>
    if env.alloc .sigObject then prims.sigSign secretKey message env.signSeed else none

/-- `mldsa_verify`. -/
def mldsaVerify (prims : Primitives) (env : CallEnv) (message signature : Bytes)
    (publicKey : SigPublicKey) : Bool :=
  env.alloc .sigObject && prims.sigVerify publicKey message signature

/-! ## Stand-ins

Simple functions with the algebra of the real primitives: the two orders of a key exchange
agree, decapsulation inverts encapsulation, and a signature verifies exactly the message it
was made for. They exhibit concrete handshakes; nothing else rests on them. -/

/-- The first bytes of a list, padded with zeros. -/
def blobOf (size : ℕ) (bytes : Bytes) : Blob size :=
  ⟨(bytes ++ List.replicate size 0).take size, by simp⟩

theorem take_blobOf {count size : ℕ} (hle : count ≤ size) (bytes : Bytes) :
    (blobOf size bytes).toList.take count =
      bytes.take count ++ List.replicate (count - bytes.length) 0 := by
  show ((bytes ++ List.replicate size 0).take size).take count = _
  rw [List.take_take, min_eq_left hle, List.take_append, List.take_replicate,
    min_eq_left (by omega)]

theorem blobOf_blobOf {small large : ℕ} (hle : small ≤ large) (blob : Blob small) :
    blobOf small (blobOf large blob.toList).toList = blob := by
  apply Blob.toList_injective
  show ((blobOf large blob.toList).toList ++ List.replicate small 0).take small = _
  rw [List.take_append_of_le_length (by rw [Blob.length_toList]; exact hle), take_blobOf hle,
    Blob.length_toList, Nat.sub_self, List.replicate_zero, List.append_nil,
    List.take_of_length_le (Nat.le_of_eq (Blob.length_toList blob))]

/-- A checksum in place of a hash. -/
def checksum (bytes : Bytes) : Blob 32 := blobOf 32 [bytes.foldl (· + ·) 0]

def Primitives.sample : Primitives where
  sha256 := checksum
  scalarmultBase := some
  scalarmult := fun first second =>
    some (blobOf 32 (List.zipWith (· ^^^ ·) first.toList second.toList))
  kemKeypair := fun seed => some (blobOf 1184 seed.toList, blobOf 2400 seed.toList)
  kemEncaps := fun _ coins => some (blobOf 1088 coins.toList, coins)
  kemDecaps := fun _ ciphertext => some (blobOf 32 ciphertext.toList)
  sigSign := fun secretKey message _ => some (secretKey.toList.take 8 ++ message)
  sigVerify := fun publicKey message signature => signature == publicKey.toList.take 8 ++ message
  hkdfExtract := fun salt ikm => some (checksum (salt ++ ikm))
  hkdfExpand := fun prk info => some (blobOf 32 (info.getLastD 0 :: prk.toList))

end MldsaAuth.Crypto
