/-
# Values of the configuration file

The scanners of `authd/authd_config.c` for numbers and uid allowlists, and the grammar
they accept. A list is checked entry by entry and an empty entry is refused, but the
loop stops at the end of the text: the entry after a comma that ends the text is never
looked at.
-/

import MldsaAuth.Foundation.Bytes

namespace MldsaAuth.Authd

open Foundation

/-- The refusals of `authd_config_status_t` that a value can meet. -/
inductive ConfigError where
  | range
  | value
deriving DecidableEq

/-- The loop of `parse_u32`. -/
def parseU32Loop : ℕ → Bytes → Except ConfigError ℕ
  | acc, [] => .ok acc
  | acc, digit :: rest =>
    if digit.toNat < 0x30 ∨ 0x39 < digit.toNat then .error .value
    else
      let acc := acc * 10 + (digit.toNat - 0x30)
      if 0xffffffff < acc then .error .range else parseU32Loop acc rest

/-- `parse_u32`. -/
def parseU32 (low high : ℕ) (text : Bytes) : Except ConfigError ℕ :=
  if text = [] then .error .value
  else if 10 < text.length then .error .range
  else
    match parseU32Loop 0 text with
    | .error status => .error status
    | .ok value => if value < low ∨ high < value then .error .range else .ok value

/-- `AUTHD_MAX_UIDS`. -/
def authdMaxUids : ℕ := 8

/-- The loop of `parse_uids`, with the number of entries there is still room for. -/
def parseUidsLoop : ℕ → Bytes → Except ConfigError (List ℕ)
  | _, [] => .ok []
  | room, first :: rest =>
    let field := (first :: rest).takeWhile (· ≠ 0x2c)
    if field = [] then .error .value
    else
      match room with
      | 0 => .error .range
      | room + 1 =>
        match parseU32 0 0x7fffffff field with
        | .error status => .error status
        | .ok uid =>
          match parseUidsLoop room (((first :: rest).dropWhile (· ≠ 0x2c)).drop 1) with
          | .error status => .error status
          | .ok uids => .ok (uid :: uids)

/-- `parse_uids`. -/
def parseUids (text : Bytes) : Except ConfigError (List ℕ) :=
  if text = [] then .error .value else parseUidsLoop authdMaxUids text

/-! ## The grammar -/

/-- The number that digits spell, behind those of `acc`. -/
def decimalValue (acc : ℕ) (digits : Bytes) : ℕ :=
  digits.foldl (fun acc digit => acc * 10 + (digit.toNat - 0x30)) acc

/-- Nothing but decimal digits. -/
def AllDigits (text : Bytes) : Prop :=
  ∀ digit ∈ text, 0x30 ≤ digit.toNat ∧ digit.toNat ≤ 0x39

/-- A decimal number of at most ten digits. -/
structure IsNumber (text : Bytes) (value : ℕ) : Prop where
  nonempty : text ≠ []
  short : text.length ≤ 10
  digits : AllDigits text
  spells : decimalValue 0 text = value

/-- Numbers up to 2147483647, separated by single commas, none at either end. -/
inductive UidList : Bytes → List ℕ → Prop where
  | one {field : Bytes} {uid : ℕ} : IsNumber field uid → uid ≤ 2147483647 → UidList field [uid]
  | more {field rest : Bytes} {uid : ℕ} {uids : List ℕ} : IsNumber field uid →
      uid ≤ 2147483647 → UidList rest uids → UidList (field ++ 0x2c :: rest) (uid :: uids)

theorem le_decimalValue (acc : ℕ) (digits : Bytes) : acc ≤ decimalValue acc digits := by
  induction digits generalizing acc with
  | nil => exact le_rfl
  | cons digit rest ih =>
    have hstep := ih (acc * 10 + (digit.toNat - 0x30))
    rw [decimalValue, List.foldl_cons, ← decimalValue]
    omega

variable {text : Bytes}

theorem parseU32Loop_eq_ok_iff {acc value : ℕ} (hacc : acc ≤ 0xffffffff) :
    parseU32Loop acc text = .ok value ↔
      AllDigits text ∧ decimalValue acc text = value ∧ value ≤ 0xffffffff := by
  induction text generalizing acc with
  | nil =>
    have hvalue : acc = value → value ≤ 0xffffffff := (· ▸ hacc)
    simpa [parseU32Loop, AllDigits, decimalValue] using hvalue
  | cons digit rest ih =>
    have hgrows := le_decimalValue (acc * 10 + (digit.toNat - 0x30)) rest
    rw [AllDigits, List.forall_mem_cons, ← AllDigits, decimalValue, List.foldl_cons,
      ← decimalValue, parseU32Loop]
    grind

theorem parseU32_eq_ok_iff {low high value : ℕ} (hhigh : high ≤ 0xffffffff) :
    parseU32 low high text = .ok value ↔ IsNumber text value ∧ low ≤ value ∧ value ≤ high := by
  have hloop := @parseU32Loop_eq_ok_iff text 0 value (by omega)
  have hnumber : IsNumber text value ↔
      text ≠ [] ∧ text.length ≤ 10 ∧ AllDigits text ∧ decimalValue 0 text = value :=
    ⟨fun h => ⟨h.1, h.2, h.3, h.4⟩, fun h => ⟨h.1, h.2.1, h.2.2.1, h.2.2.2⟩⟩
  unfold parseU32
  grind

/-! ## What the loop accepts -/

theorem IsNumber.no_comma {field : Bytes} {uid : ℕ} (hfield : IsNumber field uid) :
    ∀ digit ∈ field, decide (digit ≠ 0x2c) = true := by
  intro digit hdigit
  have hlow := (hfield.digits digit hdigit).1
  rw [decide_eq_true_eq]
  rintro rfl
  simp at hlow

variable {uids : List ℕ} {room : ℕ}

/-- One turn of the loop: an entry that ends at a comma or with the text. -/
theorem parseUidsLoop_eq_ok_iff (htext : text ≠ []) :
    parseUidsLoop room text = .ok uids ↔
      ∃ left field tail uid others, room = left + 1 ∧ uids = uid :: others ∧
        text = field ++ tail ∧ IsNumber field uid ∧ uid ≤ 2147483647 ∧
        (∀ byte ∈ tail.head?, byte = 0x2c) ∧ parseUidsLoop left tail.tail = .ok others := by
  obtain ⟨first, rest, rfl⟩ := List.exists_cons_of_ne_nil htext
  have hnumber := fun field uid => @parseU32_eq_ok_iff field 0 0x7fffffff uid (by omega)
  constructor
  · intro hparsed
    unfold parseUidsLoop at hparsed
    dsimp only at hparsed
    split at hparsed
    · cases hparsed
    split at hparsed
    · cases hparsed
    rename_i left
    split at hparsed
    · cases hparsed
    rename_i uid huid
    split at hparsed
    · cases hparsed
    rename_i others hothers
    obtain ⟨hfield, -, hbound⟩ := (hnumber _ _).mp huid
    refine ⟨left, _, (first :: rest).dropWhile (· ≠ 0x2c), uid, others, rfl,
      (Except.ok.inj hparsed).symm, List.takeWhile_append_dropWhile.symm, hfield, hbound, ?_,
      List.drop_one ▸ hothers⟩
    intro byte hbyte
    have hhead := List.head?_dropWhile_not (· ≠ (0x2c : UInt8)) (first :: rest)
    rw [Option.mem_def.mp hbyte] at hhead
    simpa using hhead
  · rintro ⟨left, field, tail, uid, others, rfl, rfl, htail, hfield, hbound, hcomma, hothers⟩
    have hcut : (first :: rest).takeWhile (· ≠ 0x2c) = field ∧
        (first :: rest).dropWhile (· ≠ 0x2c) = tail := by
      rw [htail, List.takeWhile_append_of_pos hfield.no_comma,
        List.dropWhile_append_of_pos hfield.no_comma]
      cases tail with
      | nil => simp
      | cons byte tail => simp [hcomma byte rfl]
    unfold parseUidsLoop
    simp only [hcut, hfield.nonempty, ↓reduceIte,
      (hnumber field uid).mpr ⟨hfield, by omega, hbound⟩, List.drop_one, hothers]

theorem UidList.ne_nil (hlist : UidList text uids) : text ≠ [] := by
  cases hlist with
  | one hfield _ => exact hfield.nonempty
  | more _ _ _ => simp

theorem UidList.last_ne_comma (hlist : UidList text uids) : text.getLast? ≠ some 0x2c := by
  induction hlist with
  | one hfield _ =>
    intro hlast
    simpa using hfield.no_comma _ (List.mem_of_getLast? hlast)
  | more _ _ hrest ih =>
    obtain ⟨byte, rest, rfl⟩ := List.exists_cons_of_ne_nil hrest.ne_nil
    rwa [List.getLast?_append_cons, List.getLast?_cons_cons]

/-- A list that is followed by nothing, or by one comma. -/
def MaybeComma (text : Bytes) (uids : List ℕ) : Prop :=
  ∃ listed tail, text = listed ++ tail ∧ (tail = [] ∨ tail = [0x2c]) ∧ UidList listed uids

theorem parseUidsLoop_sound (htext : text ≠ [])
    (hparsed : parseUidsLoop room text = .ok uids) : uids.length ≤ room ∧ MaybeComma text uids := by
  induction room generalizing text uids with
  | zero =>
    obtain ⟨_, _, _, _, _, hroom, -⟩ := (parseUidsLoop_eq_ok_iff htext).mp hparsed
    omega
  | succ room ih =>
    obtain ⟨left, field, tail, uid, others, hroom, rfl, rfl, hfield, hbound, hcomma, hothers⟩ :=
      (parseUidsLoop_eq_ok_iff htext).mp hparsed
    obtain rfl : room = left := by omega
    by_cases hmore : tail.tail = []
    · obtain rfl : others = [] := by
        rw [hmore, parseUidsLoop] at hothers
        exact (Except.ok.inj hothers).symm
      refine ⟨by simp, field, tail, rfl, ?_, .one hfield hbound⟩
      match tail with
      | [] => exact .inl rfl
      | [byte] => exact .inr (by rw [hcomma byte rfl])
    · obtain ⟨hlength, listed, last, hrest, hlast, hlist⟩ := ih hmore hothers
      refine ⟨by simpa using hlength, field ++ 0x2c :: listed, last, ?_, hlast,
        .more hfield hbound hlist⟩
      cases tail with
      | nil => exact absurd rfl hmore
      | cons byte rest => simpa [hcomma byte rfl] using hrest

theorem UidList.parsed {listed tail : Bytes}
    (hlist : UidList listed uids) (htail : tail = [] ∨ tail = [0x2c]) (hroom : uids.length ≤ room) :
    parseUidsLoop room (listed ++ tail) = .ok uids := by
  induction hlist generalizing room with
  | one hfield hbound =>
    refine (parseUidsLoop_eq_ok_iff (by simp [hfield.nonempty])).mpr
      ⟨room - 1, _, tail, _, [], by simp at hroom; omega, rfl, rfl, hfield, hbound, ?_⟩
    obtain rfl | rfl := htail <;> simp [parseUidsLoop]
  | more hfield hbound hrest ih =>
    rw [List.length_cons] at hroom
    exact (parseUidsLoop_eq_ok_iff (by simp)).mpr ⟨room - 1, _, _, _, _, by omega, rfl,
      List.append_assoc .., hfield, hbound, by simp, ih (by omega)⟩

theorem parseUids_eq_ok_iff (text : Bytes) (uids : List ℕ) :
    parseUids text = .ok uids ↔ uids.length ≤ authdMaxUids ∧ MaybeComma text uids := by
  constructor
  · intro hparsed
    unfold parseUids at hparsed
    split at hparsed
    · cases hparsed
    · exact parseUidsLoop_sound ‹_› hparsed
  · rintro ⟨hlength, listed, tail, rfl, htail, hlist⟩
    rw [parseUids, if_neg (by simp [hlist.ne_nil])]
    exact hlist.parsed htail hlength

/-- The scanner accepts exactly the lists of one up to the maximum number of entries, and
returns their numbers in order, unless the text is such a list with a comma behind it. -/
theorem parseUids_exact_iff (text : Bytes) :
    (∀ uids, parseUids text = .ok uids ↔ UidList text uids ∧ uids.length ≤ authdMaxUids) ↔
      ∀ listed uids, UidList listed uids → uids.length ≤ authdMaxUids →
        text ≠ listed ++ [0x2c] := by
  constructor
  · rintro hexact listed uids hlist hlength rfl
    have hparsed := (parseUids_eq_ok_iff _ _).mpr ⟨hlength, listed, _, rfl, .inr rfl, hlist⟩
    exact ((hexact uids).mp hparsed).1.last_ne_comma (by simp)
  · intro hclean uids
    rw [parseUids_eq_ok_iff]
    constructor
    · rintro ⟨hlength, listed, tail, rfl, rfl | rfl, hlist⟩
      · exact ⟨by simpa using hlist, hlength⟩
      · exact absurd rfl (hclean listed uids hlist hlength)
    · rintro ⟨hlist, hlength⟩
      exact ⟨hlength, text, [], by simp, .inl rfl, hlist⟩

/-- The entry behind the last comma is not looked at. -/
theorem parseUids_trailing_comma :
    parseUids (ascii "33,") = .ok [33] ∧ ¬UidList (ascii "33,") [33] := by
  refine ⟨by decide +kernel, fun hlist => hlist.last_ne_comma (by decide +kernel)⟩

end MldsaAuth.Authd
