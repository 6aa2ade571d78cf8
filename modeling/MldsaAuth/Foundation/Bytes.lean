/-
# Byte strings and length-delimited readers

A wire format is read from the front: a reader takes a number of bytes off a
string and returns what is left. Each reader below comes with one equivalence
that says exactly which strings it accepts, so that a decoder assembled from
readers is inverted by rewriting and never by unfolding. Integers are
big-endian numerals over base 256.
-/

import Mathlib.Data.Vector.Basic
import Mathlib.Tactic.Ring

namespace Foundation

/-- A string of octets of any length. -/
abbrev Bytes := List UInt8

/-- The octets of an ASCII literal, without a terminator. -/
def ascii (literal : String) : Bytes :=
  literal.toList.map fun letter => UInt8.ofNat letter.toNat

/-- A string of octets whose length is part of its type. -/
abbrev Blob (size : ℕ) := List.Vector UInt8 size

namespace Blob

variable {size : ℕ}

/-- The all-zero string, which is what wiping a buffer leaves behind. -/
def zero (size : ℕ) : Blob size := List.Vector.replicate size 0

@[simp]
theorem length_toList (blob : Blob size) : blob.toList.length = size :=
  List.Vector.toList_length blob

theorem toList_injective {first second : Blob size}
    (hlist : first.toList = second.toList) : first = second :=
  List.Vector.toList_injective hlist

end Blob

/-! ## Big-endian numerals -/

/-- The `width` low-order bytes of a number, most significant byte first. -/
def beBytes : ℕ → ℕ → Bytes
  | 0, _ => []
  | width + 1, value => UInt8.ofNat (value / 256 ^ width) :: beBytes width value

/-- The number a byte string denotes when read most significant byte first. -/
def beNat (bytes : Bytes) : ℕ :=
  bytes.foldl (fun value byte => value * 256 + byte.toNat) 0

@[simp]
theorem length_beBytes (width value : ℕ) : (beBytes width value).length = width := by
  induction width with
  | zero => rfl
  | succ width ih => simp [beBytes, ih]

private theorem foldl_beNat (bytes : Bytes) (start : ℕ) :
    bytes.foldl (fun value byte => value * 256 + byte.toNat) start =
      start * 256 ^ bytes.length + beNat bytes := by
  induction bytes generalizing start with
  | nil => simp [beNat]
  | cons byte bytes ih =>
    have hhead : beNat (byte :: bytes) = byte.toNat * 256 ^ bytes.length + beNat bytes := by
      simpa [beNat] using ih byte.toNat
    rw [List.foldl_cons, ih, hhead, List.length_cons, pow_succ]
    ring

theorem beNat_cons (byte : UInt8) (bytes : Bytes) :
    beNat (byte :: bytes) = byte.toNat * 256 ^ bytes.length + beNat bytes := by
  simpa [beNat] using foldl_beNat bytes byte.toNat

/-- A numeral of a given width is below the corresponding power of the base. -/
theorem beNat_lt (bytes : Bytes) : beNat bytes < 256 ^ bytes.length := by
  induction bytes with
  | nil => exact Nat.one_pos
  | cons byte bytes ih =>
    have hbyte : byte.toNat + 1 ≤ 256 := byte.toNat_lt
    calc
      beNat (byte :: bytes) = byte.toNat * 256 ^ bytes.length + beNat bytes := beNat_cons byte bytes
      _ < byte.toNat * 256 ^ bytes.length + 256 ^ bytes.length := Nat.add_lt_add_left ih _
      _ = (byte.toNat + 1) * 256 ^ bytes.length := by ring
      _ ≤ 256 * 256 ^ bytes.length := Nat.mul_le_mul_right _ hbyte
      _ = 256 ^ (byte :: bytes).length := by rw [List.length_cons, pow_succ]; ring

/-- Writing a number and reading it back keeps its low-order part. -/
theorem beNat_beBytes (width value : ℕ) : beNat (beBytes width value) = value % 256 ^ width := by
  induction width with
  | zero => exact (Nat.mod_one value).symm
  | succ width ih =>
    have hdigit : (UInt8.ofNat (value / 256 ^ width)).toNat = value / 256 ^ width % 256 :=
      UInt8.toNat_ofNat'
    rw [beBytes, beNat_cons, length_beBytes, ih, hdigit, pow_succ (256 : ℕ) width, Nat.mod_mul]
    ring

/-- A byte string is recovered from its numeral and its length. -/
theorem beBytes_beNat (bytes : Bytes) : beBytes bytes.length (beNat bytes) = bytes := by
  have hgen : ∀ (bytes : Bytes) (high : ℕ),
      beBytes bytes.length (high * 256 ^ bytes.length + beNat bytes) = bytes := by
    intro bytes
    induction bytes with
    | nil => intro high; rfl
    | cons byte bytes ih =>
      intro high
      have hvalue : high * 256 ^ (byte :: bytes).length + beNat (byte :: bytes) =
          (high * 256 + byte.toNat) * 256 ^ bytes.length + beNat bytes := by
        rw [beNat_cons, List.length_cons, pow_succ]
        ring
      have hdigit : ((high * 256 + byte.toNat) * 256 ^ bytes.length + beNat bytes) /
          256 ^ bytes.length = high * 256 + byte.toNat := by
        rw [Nat.mul_comm, Nat.mul_add_div (Nat.pow_pos (by decide)),
          Nat.div_eq_of_lt (beNat_lt bytes), Nat.add_zero]
      rw [hvalue, List.length_cons, beBytes, hdigit, ih]
      congr 1
      apply UInt8.toNat_inj.mp
      have hbyte : byte.toNat < 256 := byte.toNat_lt
      simp only [UInt8.toNat_ofNat']
      omega
  simpa using hgen bytes 0

variable {width : ℕ}

/-- Two numbers in range with the same fixed-width numeral are equal. -/
theorem beBytes_injective {first second : ℕ} (hfirst : first < 256 ^ width)
    (hsecond : second < 256 ^ width) (hbytes : beBytes width first = beBytes width second) :
    first = second := by
  have hvalue := congrArg beNat hbytes
  rwa [beNat_beBytes, beNat_beBytes, Nat.mod_eq_of_lt hfirst, Nat.mod_eq_of_lt hsecond] at hvalue

/-! ## Readers -/

/-- Take one byte off the front. -/
def readByte : Bytes → Option (UInt8 × Bytes)
  | [] => none
  | byte :: rest => some (byte, rest)

variable {bytes rest : Bytes}

@[simp]
theorem readByte_eq_some_iff {byte : UInt8} :
    readByte bytes = some (byte, rest) ↔ bytes = byte :: rest := by
  cases bytes <;> simp [readByte]

/-- Take exactly `count` bytes off the front, or fail when fewer remain. -/
def takeBytes (count : ℕ) (bytes : Bytes) : Option (Bytes × Bytes) :=
  if count ≤ bytes.length then some (bytes.take count, bytes.drop count) else none

/-- The reader succeeds exactly on strings that begin with the part it returns. -/
theorem takeBytes_eq_some_iff {count : ℕ} {part : Bytes} :
    takeBytes count bytes = some (part, rest) ↔ part.length = count ∧ bytes = part ++ rest := by
  unfold takeBytes
  constructor
  · intro hread
    split at hread
    · rename_i hcount
      obtain ⟨rfl, rfl⟩ := hread
      exact ⟨by simpa using hcount, by simp⟩
    · simp at hread
  · rintro ⟨rfl, rfl⟩
    simp

/-- Take a field whose length is fixed by its type. -/
def takeBlob (size : ℕ) (bytes : Bytes) : Option (Blob size × Bytes) :=
  if hsize : size ≤ bytes.length then
    some (⟨bytes.take size, by simpa using hsize⟩, bytes.drop size)
  else none

theorem takeBlob_eq_some_iff {size : ℕ} {blob : Blob size} :
    takeBlob size bytes = some (blob, rest) ↔ bytes = blob.toList ++ rest := by
  unfold takeBlob
  constructor
  · intro hread
    split at hread
    · obtain ⟨rfl, rfl⟩ := Prod.mk.inj (Option.some.inj hread)
      exact (List.take_append_drop size bytes).symm
    · simp at hread
  · rintro rfl
    obtain ⟨list, rfl⟩ := blob
    simp [List.Vector.toList]

/-- Read a big-endian number of the given width. -/
def readBe (width : ℕ) (bytes : Bytes) : Option (ℕ × Bytes) :=
  (takeBytes width bytes).map fun (part, rest) => (beNat part, rest)

theorem readBe_eq_some_iff {value : ℕ} :
    readBe width bytes = some (value, rest) ↔
      value < 256 ^ width ∧ bytes = beBytes width value ++ rest := by
  unfold readBe
  simp only [Option.map_eq_some_iff, Prod.exists, Prod.mk.injEq]
  constructor
  · rintro ⟨part, tail, hread, rfl, rfl⟩
    obtain ⟨rfl, rfl⟩ := takeBytes_eq_some_iff.mp hread
    exact ⟨beNat_lt part, by rw [beBytes_beNat]⟩
  rintro ⟨hvalue, rfl⟩
  refine ⟨beBytes width value, rest, ?_, ?_, rfl⟩
  · exact takeBytes_eq_some_iff.mpr ⟨length_beBytes width value, rfl⟩
  · rw [beNat_beBytes, Nat.mod_eq_of_lt hvalue]

variable {first second firstRest secondRest : Bytes}

/-- Concatenations with equally long heads agree only field by field. -/
theorem append_cancel (hlength : first.length = second.length)
    (heq : first ++ firstRest = second ++ secondRest) : first = second ∧ firstRest = secondRest :=
  List.append_inj heq hlength

/-- Concatenations that begin with fields of one size agree field by field. -/
theorem blob_append_cancel {size : ℕ} {first second : Blob size}
    (heq : first.toList ++ firstRest = second.toList ++ secondRest) :
    first = second ∧ firstRest = secondRest := by
  obtain ⟨hhead, htail⟩ := append_cancel (by simp) heq
  exact ⟨Blob.toList_injective hhead, htail⟩

/-- Fields that end at a delimiter they do not contain agree field by field. -/
theorem delimited_cancel {delimiter : UInt8} (hfirst : delimiter ∉ first)
    (hsecond : delimiter ∉ second)
    (heq : first ++ delimiter :: firstRest = second ++ delimiter :: secondRest) :
    first = second ∧ firstRest = secondRest := by
  induction first generalizing second with
  | nil =>
    cases second with
    | nil => exact ⟨rfl, (List.cons.inj heq).2⟩
    | cons => exact absurd ((List.cons.inj heq).1 ▸ List.mem_cons_self) hsecond
  | cons byte first ih =>
    cases second with
    | nil => exact absurd ((List.cons.inj heq).1 ▸ List.mem_cons_self) hfirst
    | cons =>
      obtain ⟨rfl, hrest⟩ := List.cons.inj heq
      obtain ⟨rfl, hlast⟩ := ih (fun hmem => hfirst (List.mem_cons_of_mem _ hmem))
        (fun hmem => hsecond (List.mem_cons_of_mem _ hmem)) hrest
      exact ⟨rfl, hlast⟩

/-- Fields behind their lengths agree field by field. -/
theorem prefixed_cancel (hfirst : first.length < 256 ^ width)
    (hsecond : second.length < 256 ^ width)
    (heq : beBytes width first.length ++ (first ++ firstRest) =
      beBytes width second.length ++ (second ++ secondRest)) :
    first = second ∧ firstRest = secondRest := by
  obtain ⟨hlengths, hrest⟩ := append_cancel (by simp) heq
  exact append_cancel (beBytes_injective hfirst hsecond hlengths) hrest

end Foundation
