/-
# Layouts of messages

A layout is a list of fields, each a single byte from a set, a fixed number of bytes, or a string
behind its own length. A codec is canonical for a layout if its decoder accepts exactly the byte
strings of the layout and inverts its encoder both ways.
-/

import MldsaAuth.Foundation.Bytes

namespace Foundation

/-- One field of a message. -/
inductive Field where
  | octet (allowed : UInt8 → Prop)
  | fixed (size : ℕ)
  | sized (width least most : ℕ)

/-- The byte strings a field may be. -/
def Field.Fits : Field → Bytes → Prop
  | octet allowed, bytes => ∃ byte, allowed byte ∧ bytes = [byte]
  | fixed size, bytes => bytes.length = size
  | sized width least most, bytes =>
    ∃ data, (least ≤ data.length ∧ data.length ≤ most) ∧ bytes = beBytes width data.length ++ data

/-- The fields one after another, and nothing else. -/
def Follows : List Field → Bytes → Prop
  | [], bytes => bytes = []
  | field :: fields, bytes =>
    ∃ head tail, field.Fits head ∧ Follows fields tail ∧ bytes = head ++ tail

section Follows

variable {fields : List Field} {bytes : Bytes}

@[simp]
theorem follows_nil : Follows [] bytes ↔ bytes = [] := .rfl

@[simp]
theorem follows_octet {allowed : UInt8 → Prop} :
    Follows (.octet allowed :: fields) bytes ↔
      ∃ byte tail, allowed byte ∧ Follows fields tail ∧ bytes = byte :: tail := by
  constructor
  · rintro ⟨-, tail, ⟨byte, hbyte, rfl⟩, htail, rfl⟩
    exact ⟨byte, tail, hbyte, htail, rfl⟩
  rintro ⟨byte, tail, hbyte, htail, rfl⟩
  exact ⟨[byte], tail, ⟨byte, hbyte, rfl⟩, htail, rfl⟩

@[simp]
theorem follows_fixed {size : ℕ} :
    Follows (.fixed size :: fields) bytes ↔
      ∃ (blob : Blob size) (tail : Bytes), Follows fields tail ∧ bytes = blob.toList ++ tail := by
  constructor
  · rintro ⟨head, tail, hsize, htail, rfl⟩
    exact ⟨⟨head, hsize⟩, tail, htail, rfl⟩
  rintro ⟨blob, tail, htail, rfl⟩
  exact ⟨blob.toList, tail, blob.length_toList, htail, rfl⟩

@[simp]
theorem follows_sized {width least most : ℕ} :
    Follows (.sized width least most :: fields) bytes ↔
      ∃ data tail, (least ≤ data.length ∧ data.length ≤ most) ∧ Follows fields tail ∧
        bytes = beBytes width data.length ++ (data ++ tail) := by
  constructor
  · rintro ⟨-, tail, ⟨data, hdata, rfl⟩, htail, rfl⟩
    exact ⟨data, tail, hdata, htail, List.append_assoc _ _ _⟩
  rintro ⟨data, tail, hdata, htail, rfl⟩
  exact ⟨_, tail, ⟨data, hdata, rfl⟩, htail, (List.append_assoc _ _ _).symm⟩

/-- Layouts that begin with different bytes have no string in common. -/
theorem Follows.first_byte {allowed other : UInt8 → Prop} {fields' : List Field}
    (hfirst : Follows (.octet allowed :: fields) bytes)
    (hsecond : Follows (.octet other :: fields') bytes) : ∃ byte, allowed byte ∧ other byte := by
  obtain ⟨byte, tail, hbyte, -, rfl⟩ := follows_octet.mp hfirst
  obtain ⟨byte', tail', hbyte', -, heq⟩ := follows_octet.mp hsecond
  obtain ⟨rfl, -⟩ := List.cons.inj heq
  exact ⟨byte, hbyte, hbyte'⟩

end Follows

/-- The encoder, given the room it may use, and the decoder agree on one encoding of every valid
message, and the encodings are the byte strings of the layout. -/
structure Canonical {Msg : Type} (encode : Msg → ℕ → Option Bytes) (decode : Bytes → Option Msg)
    (Valid : Msg → Prop) (fields : List Field) : Prop where
  encodes : ∀ msg, Valid msg → ∃ bytes, ∀ room, bytes.length ≤ room → encode msg room = some bytes
  decodes : ∀ msg room bytes, encode msg room = some bytes → decode bytes = some msg
  reencodes : ∀ bytes msg, decode bytes = some msg →
    Valid msg ∧ ∀ room, bytes.length ≤ room → encode msg room = some bytes
  accepts_iff : ∀ bytes, (decode bytes).isSome ↔ Follows fields bytes

/-- A codec whose two halves are known to write and read one layout is canonical. -/
theorem Canonical.of_layout {Msg : Type} {encode : Msg → ℕ → Option Bytes}
    {decode : Bytes → Option Msg} {Valid : Msg → Prop} {fields : List Field} {layout : Msg → Bytes}
    (hencode : ∀ msg room bytes, encode msg room = some bytes ↔
      Valid msg ∧ (layout msg).length ≤ room ∧ bytes = layout msg)
    (hdecode : ∀ bytes msg, decode bytes = some msg ↔ Valid msg ∧ bytes = layout msg)
    (hfields : ∀ bytes, Follows fields bytes ↔ ∃ msg, Valid msg ∧ bytes = layout msg) :
    Canonical encode decode Valid fields where
  encodes msg hvalid :=
    ⟨layout msg, fun room hroom => (hencode msg room _).mpr ⟨hvalid, hroom, rfl⟩⟩
  decodes msg room bytes hbytes := by
    obtain ⟨hvalid, -, rfl⟩ := (hencode msg room bytes).mp hbytes
    exact (hdecode _ _).mpr ⟨hvalid, rfl⟩
  reencodes bytes msg hmsg := by
    obtain ⟨hvalid, rfl⟩ := (hdecode bytes msg).mp hmsg
    exact ⟨hvalid, fun room hroom => (hencode msg room _).mpr ⟨hvalid, hroom, rfl⟩⟩
  accepts_iff bytes := by
    rw [hfields, Option.isSome_iff_exists]
    exact exists_congr (hdecode bytes)

end Foundation
