/-
# What the daemon computes with

The daemon adds a few primitives of libsodium to those of the library, and SQLite's
reading of columns; a `DaemonPrimitives` value stands for all of them. The text codecs it
needs are small enough to be embedded: lower-case hexadecimal for the local API, Crockford's base32
for recovery codes (`authd/base32.c`), decimal numbers, and the SHA-1 of the
WebSocket handshake (`authd/sha1.c`).
-/

import MldsaAuth.Crypto.Primitives

namespace MldsaAuth.Authd

open Foundation Crypto

/-- A value in a column of SQLite, by its storage class; a REAL is given by its bits. A column
holds values of any class, whatever class it was declared with. -/
inductive ColumnValue where
  | null
  | integer (value : Int64)
  | real (bits : UInt64)
  | text (bytes : Bytes)
  | blob (bytes : Bytes)
deriving DecidableEq

/-- `sqlite3_column_int64`, `_text` and `_blob`, where no bytes stand for a NULL pointer. They
convert values of other classes than their own somehow; a NULL has no bytes as a blob. -/
structure ColumnReads where
  int64 : ColumnValue → Int64
  text : ColumnValue → Bytes
  blob : ColumnValue → Bytes
  int64_integer : ∀ value, int64 (.integer value) = value
  text_text : ∀ bytes, text (.text bytes) = bytes
  blob_blob : ∀ bytes, blob (.blob bytes) = bytes
  blob_null : blob .null = []

/-- The primitives of the library and those only the daemon calls. The keys that are drawn
or derived once per process are part of the functions. -/
structure DaemonPrimitives extends Primitives where
  /-- `sodium_base642bin`, of the original variant, on a whole string -/
  base64Decode : Bytes → Option Bytes
  /-- `sodium_bin2base64`, of the original variant -/
  base64Encode : Bytes → Bytes
  /-- `crypto_shorthash` under the limiter's key -/
  shorthash : Bytes → Blob 8
  /-- `crypto_auth` under the store's audit key -/
  auditMac : Bytes → Blob 32
  /-- `crypto_pwhash_str_verify`: stored string, password -/
  pwhashVerify : Bytes → Bytes → Bool
  /-- how SQLite reads its columns -/
  columns : ColumnReads

/-- The bytes of a text or a blob. -/
def ColumnValue.bytes : ColumnValue → Bytes
  | .text bytes | .blob bytes => bytes
  | _ => []

/-- Stand-ins that compute, for concrete runs. -/
def DaemonPrimitives.sample : DaemonPrimitives where
  toPrimitives := .sample
  base64Decode := some
  base64Encode := id
  shorthash := blobOf 8
  auditMac := checksum
  pwhashVerify := fun stored typed => stored == typed
  columns :=
    { int64 := fun | .integer value => value | _ => 0
      text := ColumnValue.bytes
      blob := ColumnValue.bytes
      int64_integer := fun _ => rfl
      text_text := fun _ => rfl
      blob_blob := fun _ => rfl
      blob_null := rfl }

/-! ## Hexadecimal -/

/-- The lower-case digit of a number below sixteen. -/
def hexDigit (value : ℕ) : UInt8 :=
  if value < 10 then UInt8.ofNat (0x30 + value) else UInt8.ofNat (0x61 + (value - 10))

/-- `sodium_bin2hex`. -/
def bin2hex (bytes : Bytes) : Bytes :=
  bytes.flatMap fun byte => [hexDigit (byte.toNat / 16), hexDigit (byte.toNat % 16)]

/-- The value of a hexadecimal digit of either case. -/
def hexValue (letter : UInt8) : Option ℕ :=
  let code := letter.toNat
  if 0x30 ≤ code ∧ code ≤ 0x39 then some (code - 0x30)
  else if 0x61 ≤ code ∧ code ≤ 0x66 then some (code - 0x61 + 10)
  else if 0x41 ≤ code ∧ code ≤ 0x46 then some (code - 0x41 + 10)
  else none

/-- `sodium_hex2bin` without ignored characters: the whole string must be digit pairs. -/
def hex2bin : Bytes → Option Bytes
  | [] => some []
  | high :: low :: rest => do
      let highValue ← hexValue high
      let lowValue ← hexValue low
      let bytes ← hex2bin rest
      return UInt8.ofNat (highValue * 16 + lowValue) :: bytes
  | [_] => none

/-- The decimal text of a number, as `%zu` prints it. -/
def decimal (value : ℕ) : Bytes := ascii (Nat.repr value)

/-- The decimal text of a signed number, as `%lld` prints it. -/
def signedDecimal (value : ℤ) : Bytes := ascii (Int.repr value)

/-! ## Crockford's base32 -/

/-- `ALPHABET`. -/
def base32Alphabet : Bytes := ascii "0123456789ABCDEFGHJKMNPQRSTVWXYZ"

/-- `sym_value`: lower case is folded, and the letters O, I and L are read as digits. -/
def symValue (letter : UInt8) : Option ℕ :=
  let code := letter.toNat
  if 0x30 ≤ code ∧ code ≤ 0x39 then some (code - 0x30)
  else
    let folded := if 0x61 ≤ code ∧ code ≤ 0x7a then code - 0x20 else code
    if folded = 0x4f then some 0
    else if folded = 0x49 ∨ folded = 0x4c then some 1
    else
      ((base32Alphabet.drop 10).findIdx? fun symbol => symbol.toNat = folded).map (· + 10)

/-- `BASE32_CODE_CHARS`. -/
def base32CodeChars : ℕ := 16

/-- `base32_encode`, into a buffer that is large enough: symbol `i` is read from the 16-bit
window at byte `5 i / 8`, and bits past the end are zero. -/
def base32Encode (bytes : Bytes) : Bytes :=
  (List.range ((bytes.length * 8 + 4) / 5)).map fun symbol =>
    let bit := symbol * 5
    let window := (bytes.getD (bit / 8) 0).toNat * 256 + (bytes.getD (bit / 8 + 1) 0).toNat
    base32Alphabet.getD (window / 2 ^ (11 - bit % 8) % 32) 0

/-- The loop of `base32_normalize`, with the symbols written so far. -/
def base32NormalizeLoop : Bytes → Bytes → Option Bytes
  | [], written => if written.length = base32CodeChars then some written else none
  | letter :: rest, written =>
    if letter = 0x2d then base32NormalizeLoop rest written
    else
      match symValue letter with
      | none => none
      | some value =>
        if base32CodeChars ≤ written.length then none
        else base32NormalizeLoop rest (written ++ [base32Alphabet.getD value 0])

/-- `base32_normalize`. -/
def base32Normalize (typed : Bytes) : Option Bytes := base32NormalizeLoop typed []

/-! ## SHA-1 -/

/-- `rol`. -/
def rol (value : UInt32) (shift : UInt32) : UInt32 :=
  (value <<< shift) ||| (value >>> (32 - shift))

/-- The chaining value of SHA-1. -/
structure Sha1State where
  a : UInt32
  b : UInt32
  c : UInt32
  d : UInt32
  e : UInt32
deriving DecidableEq

/-- The sixteen words of a block, most recent first. -/
def sha1Words (block : Bytes) : List UInt32 :=
  ((List.range 16).map fun index =>
    UInt32.ofNat (beNat ((block.drop (index * 4)).take 4))).reverse

/-- The message schedule, most recent word first, extended by the given number of words. -/
def sha1Schedule : ℕ → List UInt32 → List UInt32
  | 0, words => words
  | count + 1, words =>
    sha1Schedule count
      (rol (words.getD 2 0 ^^^ words.getD 7 0 ^^^ words.getD 13 0 ^^^ words.getD 15 0) 1 :: words)

/-- One of the eighty rounds. -/
def sha1Round (state : Sha1State) (round : ℕ) (word : UInt32) : Sha1State :=
  let (f, k) :=
    if round < 20 then ((state.b &&& state.c) ||| (~~~state.b &&& state.d), (0x5a827999 : UInt32))
    else if round < 40 then (state.b ^^^ state.c ^^^ state.d, 0x6ed9eba1)
    else if round < 60 then
      ((state.b &&& state.c) ||| (state.b &&& state.d) ||| (state.c &&& state.d), 0x8f1bbcdc)
    else (state.b ^^^ state.c ^^^ state.d, 0xca62c1d6)
  { a := rol state.a 5 + f + state.e + k + word
    b := state.a
    c := rol state.b 30
    d := state.c
    e := state.d }

/-- `sha1_block`. -/
def sha1Block (state : Sha1State) (block : Bytes) : Sha1State :=
  let words := (sha1Schedule 64 (sha1Words block)).reverse
  let next := words.zipIdx.foldl (fun state entry => sha1Round state entry.2 entry.1) state
  { a := state.a + next.a
    b := state.b + next.b
    c := state.c + next.c
    d := state.d + next.d
    e := state.e + next.e }

/-- The input padded to whole blocks: 0x80, zeros, and the 64-bit count of its bits. -/
def sha1Padded (bytes : Bytes) : Bytes :=
  bytes ++ 0x80 :: (List.replicate ((119 - bytes.length % 64) % 64) 0 ++
    beBytes 8 (bytes.length * 8))

/-- The blocks of a padded input, one after another. -/
def sha1Blocks : ℕ → Sha1State → Bytes → Sha1State
  | 0, state, _ => state
  | count + 1, state, bytes => sha1Blocks count (sha1Block state (bytes.take 64)) (bytes.drop 64)

/-- `sha1`. -/
def sha1 (bytes : Bytes) : Bytes :=
  let padded := sha1Padded bytes
  let final := sha1Blocks (padded.length / 64)
    { a := 0x67452301, b := 0xefcdab89, c := 0x98badcfe, d := 0x10325476, e := 0xc3d2e1f0 }
    padded
  [final.a, final.b, final.c, final.d, final.e].flatMap fun word => beBytes 4 word.toNat

/-- The digest of the empty string, from the standard. -/
example : bin2hex (sha1 []) = ascii "da39a3ee5e6b4b0d3255bfef95601890afd80709" := by
  decide +kernel

end MldsaAuth.Authd
