/-
# The text of a passphrase

`utf8_decode` of `authd/passphrase.c`, and that it accepts exactly the encodings of
Unicode scalar values. Its tests are spread over lead bytes, continuation bytes and the
range of the result; each of the four lengths is settled by arithmetic on its bytes.
-/

import MldsaAuth.Foundation.Bytes

namespace MldsaAuth.Authd

open Foundation

/-- `PP_MAX_BYTES`. -/
def ppMaxBytes : ℕ := 1024

/-- The bits of the code point in a lead byte, and the number of bytes that must follow. -/
def utf8Lead (lead : ℕ) : Option (ℕ × ℕ) :=
  if lead < 0x80 then some (lead, 0)
  else if 0xc2 ≤ lead ∧ lead ≤ 0xdf then some (lead % 0x20, 1)
  else if 0xe0 ≤ lead ∧ lead ≤ 0xef then some (lead % 0x10, 2)
  else if 0xf0 ≤ lead ∧ lead ≤ 0xf4 then some (lead % 0x08, 3)
  else none

/-- The loop over the continuation bytes; there must be enough of them. -/
def utf8Tail : ℕ → ℕ → Bytes → Option (ℕ × Bytes)
  | 0, code, bytes => some (code, bytes)
  | _ + 1, _, [] => none
  | need + 1, code, byte :: bytes =>
    if byte.toNat / 0x40 = 2 then utf8Tail need (code * 0x40 + byte.toNat % 0x40) bytes else none

/-- One turn of the loop of `utf8_decode`: a code point and what follows it. -/
def utf8Next (lead : UInt8) (bytes : Bytes) : Option (ℕ × Bytes) := do
  let (bits, need) ← utf8Lead lead.toNat
  let (code, rest) ← utf8Tail need bits bytes
  if need = 2 ∧ (code < 0x800 ∨ 0xd800 ≤ code ∧ code ≤ 0xdfff) ∨
      need = 3 ∧ (code < 0x10000 ∨ 0x10ffff < code) then none
  else return (code, rest)

/-- `utf8_decode`, into a buffer with room for `cap` code points. -/
def utf8Decode : ℕ → Bytes → Option (List ℕ)
  | _, [] => some []
  | 0, _ :: _ => none
  | cap + 1, lead :: bytes => do
      let (code, rest) ← utf8Next lead bytes
      let codes ← utf8Decode cap rest
      return code :: codes

variable {lead : UInt8} {bytes rest : Bytes} {code : ℕ}

theorem utf8Next_eq_some_iff :
    utf8Next lead bytes = some (code, rest) ↔
      ∃ bits need, utf8Lead lead.toNat = some (bits, need) ∧
        utf8Tail need bits bytes = some (code, rest) ∧
        ¬(need = 2 ∧ (code < 0x800 ∨ 0xd800 ≤ code ∧ code ≤ 0xdfff) ∨
          need = 3 ∧ (code < 0x10000 ∨ 0x10ffff < code)) := by
  simp only [utf8Next, Option.bind_eq_bind, Option.bind_eq_some_iff, Prod.exists]
  grind

variable {need bits : ℕ}

theorem utf8Tail_succ_iff :
    utf8Tail (need + 1) bits bytes = some (code, rest) ↔
      ∃ byte more, bytes = byte :: more ∧ byte.toNat / 0x40 = 2 ∧
        utf8Tail need (bits * 0x40 + byte.toNat % 0x40) more = some (code, rest) := by
  cases bytes with
  | nil => simp [utf8Tail]
  | cons byte more =>
    rw [utf8Tail]
    grind

theorem utf8Tail_cons {digit : ℕ} {byte : UInt8} (hbyte : byte.toNat = digit + 0x80)
    (hdigit : digit < 0x40) :
    utf8Tail (need + 1) bits (byte :: bytes) = utf8Tail need (bits * 0x40 + digit) bytes := by
  rw [utf8Tail, if_pos (by omega), show byte.toNat % 0x40 = digit by omega]

/-- The encoding of a scalar value, as numbers. -/
def scalarBytes (code : ℕ) : List ℕ :=
  if code ≤ 0x7f then [code]
  else if code ≤ 0x7ff then [code / 0x40 + 0xc0, code % 0x40 + 0x80]
  else if code ≤ 0xffff then
    [code / 0x1000 + 0xe0, code / 0x40 % 0x40 + 0x80, code % 0x40 + 0x80]
  else
    [code / 0x40000 + 0xf0, code / 0x1000 % 0x40 + 0x80, code / 0x40 % 0x40 + 0x80,
      code % 0x40 + 0x80]

theorem map_utf8EncodeChar (letter : Char) :
    (String.utf8EncodeChar letter).map UInt8.toNat = scalarBytes letter.toNat := by
  have hvalid : letter.toNat < 0xd800 ∨ 0xdfff < letter.toNat ∧ letter.toNat < 0x110000 :=
    letter.valid
  have hvalue : letter.val.toNat = letter.toNat := rfl
  unfold String.utf8EncodeChar scalarBytes
  rw [hvalue]
  dsimp only
  split_ifs
  all_goals
    simp only [List.map_cons, List.map_nil, UInt8.toNat_ofNat', List.cons.injEq, and_true]
    omega

theorem utf8Next_iff :
    utf8Next lead bytes = some (code, rest) ↔ code.isValidChar ∧
      ∃ tail : Bytes, bytes = tail ++ rest ∧ (lead :: tail).map UInt8.toNat = scalarBytes code := by
  rw [utf8Next_eq_some_iff, Nat.isValidChar]
  constructor
  · rintro ⟨bits, need, hlead, htail, hgood⟩
    unfold utf8Lead at hlead
    split_ifs at hlead
    all_goals
      obtain ⟨rfl, rfl⟩ := Prod.mk.inj (Option.some.inj hlead)
      simp only [utf8Tail_succ_iff, utf8Tail, Option.some.injEq, Prod.mk.injEq] at htail
    · obtain ⟨rfl, rfl⟩ := htail
      refine ⟨by omega, [], rfl, ?_⟩
      rw [scalarBytes, if_pos (by omega)]
      rfl
    · obtain ⟨first, _, rfl, hfirst, rfl, rfl⟩ := htail
      refine ⟨by omega, [first], rfl, ?_⟩
      rw [scalarBytes, if_neg (by omega), if_pos (by omega)]
      simp only [List.map_cons, List.map_nil, List.cons.injEq, and_true]
      omega
    · obtain ⟨first, _, rfl, hfirst, second, _, rfl, hsecond, rfl, rfl⟩ := htail
      refine ⟨by omega, [first, second], rfl, ?_⟩
      rw [scalarBytes, if_neg (by omega), if_neg (by omega), if_pos (by omega)]
      simp only [List.map_cons, List.map_nil, List.cons.injEq, and_true]
      omega
    · obtain ⟨first, _, rfl, hfirst, second, _, rfl, hsecond, third, _, rfl, hthird, rfl, rfl⟩ :=
        htail
      refine ⟨by omega, [first, second, third], rfl, ?_⟩
      rw [scalarBytes, if_neg (by omega), if_neg (by omega), if_neg (by omega)]
      simp only [List.map_cons, List.map_nil, List.cons.injEq, and_true]
      omega
  · rintro ⟨hvalid, tail, rfl, hbytes⟩
    unfold scalarBytes at hbytes
    unfold utf8Lead
    split_ifs at hbytes
    all_goals
      simp only [List.map_cons, List.cons.injEq, List.map_eq_cons_iff, List.map_eq_nil_iff]
        at hbytes
    · obtain ⟨hlead, rfl⟩ := hbytes
      exact ⟨code, 0, by rw [if_pos (by omega), hlead], rfl, by omega⟩
    · obtain ⟨hlead, first, _, rfl, hfirst, rfl⟩ := hbytes
      refine ⟨_, 1, by rw [if_neg (by omega), if_pos (by omega)], ?_, by omega⟩
      rw [List.cons_append, utf8Tail_cons hfirst (by omega)]
      exact congrArg (fun code => some (code, rest)) (by omega)
    · obtain ⟨hlead, first, _, rfl, hfirst, second, _, rfl, hsecond, rfl⟩ := hbytes
      refine ⟨_, 2, by rw [if_neg (by omega), if_neg (by omega), if_pos (by omega)], ?_, by omega⟩
      rw [List.cons_append, utf8Tail_cons hfirst (by omega), List.cons_append,
        utf8Tail_cons hsecond (by omega)]
      exact congrArg (fun code => some (code, rest)) (by omega)
    · obtain ⟨hlead, first, _, rfl, hfirst, second, _, rfl, hsecond, third, _, rfl, hthird, rfl⟩ :=
        hbytes
      refine ⟨_, 3, by rw [if_neg (by omega), if_neg (by omega), if_neg (by omega),
        if_pos (by omega)], ?_, by omega⟩
      rw [List.cons_append, utf8Tail_cons hfirst (by omega), List.cons_append,
        utf8Tail_cons hsecond (by omega), List.cons_append, utf8Tail_cons hthird (by omega)]
      exact congrArg (fun code => some (code, rest)) (by omega)

/-- A code point is read exactly where its encoding stands. -/
theorem utf8Next_iff_encoded :
    utf8Next lead bytes = some (code, rest) ↔ ∃ letter : Char, letter.toNat = code ∧
      String.utf8EncodeChar letter ++ rest = lead :: bytes := by
  rw [utf8Next_iff]
  constructor
  · rintro ⟨hvalid, tail, rfl, htail⟩
    have hencoded : String.utf8EncodeChar (.ofNatAux code hvalid) = lead :: tail :=
      List.map_injective_iff.mpr (fun _ _ => UInt8.toNat_inj.mp)
        ((map_utf8EncodeChar _).trans htail.symm)
    exact ⟨_, rfl, by rw [hencoded, List.cons_append]⟩
  · rintro ⟨letter, rfl, hbytes⟩
    refine ⟨letter.valid, ?_⟩
    rw [← map_utf8EncodeChar]
    cases hencoded : String.utf8EncodeChar letter with
    | nil => exact absurd hencoded (String.utf8EncodeChar_ne_nil)
    | cons first tail =>
      rw [hencoded, List.cons_append, List.cons.injEq] at hbytes
      exact ⟨tail, hbytes.2.symm, by rw [hbytes.1]⟩

theorem utf8Decode_eq_some_iff {cap : ℕ} {codes : List ℕ} (hcap : bytes.length ≤ cap) :
    utf8Decode cap bytes = some codes ↔ ∃ text : List Char,
      text.flatMap String.utf8EncodeChar = bytes ∧ text.map Char.toNat = codes := by
  fun_induction utf8Decode cap bytes generalizing codes with
  | case1 cap =>
    constructor
    · exact fun hcodes => ⟨[], rfl, Option.some.inj hcodes⟩
    · rintro ⟨text, hnil, rfl⟩
      cases text with
      | nil => rfl
      | cons letter text =>
        exact absurd (List.append_eq_nil_iff.mp hnil).1 String.utf8EncodeChar_ne_nil
  | case2 => exact absurd hcap (Nat.not_succ_le_zero _)
  | case3 cap lead bytes ih =>
    -- a character takes at least the lead byte
    have hshorter : ∀ {letter : Char} {rest : Bytes},
        String.utf8EncodeChar letter ++ rest = lead :: bytes → rest.length ≤ cap := by
      intro letter rest hbytes
      have hlength := congrArg List.length hbytes
      have hpos := List.length_pos_iff.mpr (@String.utf8EncodeChar_ne_nil letter)
      rw [List.length_append, List.length_cons] at hlength
      rw [List.length_cons] at hcap
      omega
    simp only [Option.bind_eq_bind, Option.bind_eq_some_iff, Prod.exists, utf8Next_iff_encoded,
      Option.pure_def, Option.some.injEq]
    constructor
    · rintro ⟨_, rest, ⟨letter, rfl, hbytes⟩, _, hcodes, rfl⟩
      obtain ⟨text, rfl, rfl⟩ := (ih rest (hshorter hbytes)).mp hcodes
      exact ⟨letter :: text, hbytes, rfl⟩
    · rintro ⟨text, htext, rfl⟩
      cases text with
      | nil => cases htext
      | cons letter text =>
        exact ⟨_, _, ⟨letter, rfl, htext⟩, _, (ih _ (hshorter htext)).mpr ⟨text, rfl, rfl⟩, rfl⟩

/-- A string of bytes that is not too long is decoded exactly when it encodes a text, into the
code points of that text. -/
theorem utf8Decode_exact (bytes : Bytes) (hfits : bytes.length ≤ ppMaxBytes) (codes : List ℕ) :
    utf8Decode ppMaxBytes bytes = some codes ↔ ∃ text : List Char,
      text.flatMap String.utf8EncodeChar = bytes ∧ text.map Char.toNat = codes :=
  utf8Decode_eq_some_iff hfits

/-- Two bytes for one letter. -/
theorem utf8Decode_exact_umlaut :
    utf8Decode ppMaxBytes [0xc3, 0xbc] = some [0xfc] ↔ ∃ text : List Char,
      text.flatMap String.utf8EncodeChar = [0xc3, 0xbc] ∧ text.map Char.toNat = [0xfc] :=
  utf8Decode_exact [0xc3, 0xbc] (by decide) [0xfc]

end MldsaAuth.Authd
