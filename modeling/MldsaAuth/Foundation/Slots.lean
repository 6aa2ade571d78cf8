/-
# Fixed tables of keyed slots

A table is a list of slots. A slot is free (it has no key) or it holds an entry
under a key. Lookup scans for the first slot with a given key; updates overwrite
one slot in place. When no two slots share a key the table is a finite map, and
the lemmas below say what each in-place update does to that map.
-/

import Mathlib.Data.List.Basic

universe u v

namespace Foundation.Slots

variable {Entry : Type u} {Key : Type v} (key : Entry → Option Key)

/-- Position of the first slot that holds an entry under the given key. -/
def slotOf [DecidableEq Key] (wanted : Key) (table : List Entry) : Option ℕ :=
  table.findIdx? fun entry => key entry = some wanted

/-- The entry a table holds under the given key. -/
def entryOf [DecidableEq Key] (wanted : Key) (table : List Entry) : Option Entry :=
  table.find? fun entry => key entry = some wanted

/-- No two slots hold entries under one key. -/
def UniqueKeys (table : List Entry) : Prop :=
  ∀ (first second : ℕ) (firstEntry secondEntry : Entry) (wanted : Key),
    table[first]? = some firstEntry → table[second]? = some secondEntry →
      key firstEntry = some wanted → key secondEntry = some wanted → first = second

variable {key} {wanted other : Key} {table : List Entry} {entry next : Entry} {index : ℕ}

section Lookup

variable [DecidableEq Key]

theorem entryOf_eq_none_iff :
    entryOf key wanted table = none ↔
      ∀ (index : ℕ) (entry : Entry), table[index]? = some entry → key entry ≠ some wanted := by
  simp only [entryOf, List.find?_eq_none, decide_eq_true_eq]
  constructor
  · intro habsent index entry hslot
    exact habsent entry (List.mem_of_getElem? hslot)
  intro habsent entry hmem
  obtain ⟨index, hslot⟩ := List.mem_iff_getElem?.mp hmem
  exact habsent index entry hslot

theorem key_of_entryOf (hentry : entryOf key wanted table = some entry) :
    key entry = some wanted := by
  simpa using List.find?_some hentry

theorem mem_of_entryOf (hentry : entryOf key wanted table = some entry) : entry ∈ table :=
  List.mem_of_find?_eq_some hentry

theorem slotOf_eq_none_iff : slotOf key wanted table = none ↔ entryOf key wanted table = none := by
  simp [slotOf, entryOf]

/-- The scan for a position and the scan for an entry stop at the same slot. -/
theorem slotOf_eq_some (hslot : slotOf key wanted table = some index) :
    ∃ entry, table[index]? = some entry ∧ key entry = some wanted ∧
      entryOf key wanted table = some entry := by
  induction table generalizing index with
  | nil => simp [slotOf] at hslot
  | cons head tail ih =>
    simp only [slotOf, List.findIdx?_cons] at hslot
    by_cases hhead : key head = some wanted
    · simp only [hhead, decide_true, if_true, Option.some.injEq] at hslot
      subst hslot
      exact ⟨head, rfl, hhead, by simp [entryOf, hhead]⟩
    simp only [hhead, decide_false, Bool.false_eq_true, if_false, Option.map_eq_some_iff] at hslot
    obtain ⟨position, hposition, rfl⟩ := hslot
    obtain ⟨entry, hat, hkey, hentry⟩ := ih hposition
    exact ⟨entry, by simpa using hat, hkey, by simpa [entryOf, hhead] using hentry⟩

/-- In a table without shared keys, lookup is membership. -/
theorem UniqueKeys.entryOf_eq_some (hunique : UniqueKeys key table)
    (hat : table[index]? = some entry) (hkey : key entry = some wanted) :
    entryOf key wanted table = some entry := by
  cases hentry : entryOf key wanted table with
  | none => exact absurd hkey (entryOf_eq_none_iff.mp hentry index entry hat)
  | some =>
    obtain ⟨position, hposition⟩ := List.mem_iff_getElem?.mp (mem_of_entryOf hentry)
    have hsame := hunique _ _ _ _ wanted hposition hat (key_of_entryOf hentry) hkey
    rw [hsame, hat] at hposition
    exact hposition.symm

/-- A table that holds the same slots under a key as one without shared keys has
the same entry under it. -/
private theorem entryOf_congr {first second : List Entry} (hsecond : UniqueKeys key second)
    (hslots : ∀ (index : ℕ) (entry : Entry), key entry = some wanted →
      (first[index]? = some entry ↔ second[index]? = some entry)) :
    entryOf key wanted first = entryOf key wanted second := by
  cases hentry : entryOf key wanted first with
  | some entry =>
    obtain ⟨index, hat⟩ := List.mem_iff_getElem?.mp (mem_of_entryOf hentry)
    have hkey := key_of_entryOf hentry
    exact (hsecond.entryOf_eq_some ((hslots index entry hkey).mp hat) hkey).symm
  | none =>
    symm
    rw [entryOf_eq_none_iff] at hentry ⊢
    intro index entry hat hkey
    exact hentry index entry ((hslots index entry hkey).mpr hat) hkey

end Lookup

/-- The keys of a table without shared keys are distinct. -/
theorem UniqueKeys.nodup (hunique : UniqueKeys key table) : (table.filterMap key).Nodup := by
  refine List.pairwise_filterMap.mpr (List.pairwise_iff_getElem.mpr ?_)
  intro first second hfirst hsecond hlt firstKey hfirstKey secondKey hsecondKey hsame
  subst hsame
  have hindex := hunique first second _ _ firstKey (List.getElem?_eq_getElem hfirst)
    (List.getElem?_eq_getElem hsecond) hfirstKey hsecondKey
  omega

/-! ## Overwriting one slot -/

/-- Overwriting a slot by an entry whose key occurs nowhere else keeps keys unique. -/
theorem UniqueKeys.set (hunique : UniqueKeys key table)
    (hfresh : ∀ wanted position found, key next = some wanted →
      table[position]? = some found → key found = some wanted → position = index) :
    UniqueKeys key (table.set index next) := by
  intro first second firstEntry secondEntry wanted hfirst hsecond hfirstKey hsecondKey
  rw [List.getElem?_set] at hfirst hsecond
  split at hfirst
  · rename_i hfirstIndex
    split at hsecond
    · rename_i hsecondIndex
      exact hfirstIndex.symm.trans hsecondIndex
    split at hfirst
    · cases hfirst
      exact hfirstIndex.symm.trans (hfresh wanted second secondEntry hfirstKey hsecond
        hsecondKey).symm
    · cases hfirst
  · split at hsecond
    · rename_i hsecondIndex
      split at hsecond
      · cases hsecond
        exact (hfresh wanted first firstEntry hsecondKey hfirst hfirstKey).trans hsecondIndex
      · cases hsecond
    · exact hunique first second firstEntry secondEntry wanted hfirst hsecond hfirstKey hsecondKey

/-- The entry of a key that neither the old nor the new occupant has is untouched. -/
theorem entryOf_set_of_ne [DecidableEq Key] (hunique : UniqueKeys key table)
    (hat : table[index]? = some entry)
    (hold : key entry ≠ some wanted) (hnew : key next ≠ some wanted) :
    entryOf key wanted (table.set index next) = entryOf key wanted table := by
  apply entryOf_congr hunique
  intro position found hkey
  rw [List.getElem?_set]
  by_cases hindex : index = position
  · subst hindex
    have hlt : index < table.length := (List.getElem?_eq_some_iff.mp hat).1
    rw [if_pos rfl, if_pos hlt, hat]
    constructor
    · intro hnext
      cases hnext
      exact absurd hkey hnew
    intro hentry
    cases hentry
    exact absurd hkey hold
  · rw [if_neg hindex]

/-- A slot that was overwritten under a key holds the new entry under that key. -/
theorem entryOf_set_self [DecidableEq Key] (hset : UniqueKeys key (table.set index next))
    (hindex : index < table.length) (hnew : key next = some wanted) :
    entryOf key wanted (table.set index next) = some next :=
  hset.entryOf_eq_some (List.getElem?_set_self hindex) hnew

/-- Freeing the slot of a key removes the key from the table. -/
theorem entryOf_set_free [DecidableEq Key] (hunique : UniqueKeys key table)
    (hat : table[index]? = some entry) (hold : key entry = some wanted) (hfree : key next = none) :
    entryOf key wanted (table.set index next) = none := by
  rw [entryOf_eq_none_iff]
  intro position found hposition hkey
  rw [List.getElem?_set] at hposition
  split at hposition
  · split at hposition
    · cases hposition
      rw [hfree] at hkey
      cases hkey
    · cases hposition
  · rename_i hne
    exact hne (hunique _ _ _ _ wanted hat hposition hold hkey)

/-! ## Freeing every slot that meets a condition -/

/-- Free every slot whose entry meets a condition. -/
def clear (drop : Entry → Bool) (blank : Entry) (table : List Entry) : List Entry :=
  table.map fun entry => if drop entry then blank else entry

variable {drop : Entry → Bool} {blank : Entry}

private theorem getElem?_clear (hblank : key blank = none) (hkey : key entry = some wanted) :
    (clear drop blank table)[index]? = some entry ↔
      table[index]? = some entry ∧ drop entry = false := by
  simp only [clear, List.getElem?_map, Option.map_eq_some_iff]
  constructor
  · rintro ⟨found, hat, hcleared⟩
    cases hdrop : drop found with
    | true =>
      rw [hdrop, if_pos rfl] at hcleared
      rw [← hcleared, hblank] at hkey
      cases hkey
    | false =>
      rw [hdrop] at hcleared
      cases hcleared
      exact ⟨hat, hdrop⟩
  · rintro ⟨hat, hdrop⟩
    exact ⟨entry, hat, by simp [hdrop]⟩

theorem UniqueKeys.clear (hunique : UniqueKeys key table) (hblank : key blank = none) :
    UniqueKeys key (clear drop blank table) := by
  intro first second firstEntry secondEntry wanted hfirst hsecond hfirstKey hsecondKey
  rw [getElem?_clear hblank hfirstKey] at hfirst
  rw [getElem?_clear hblank hsecondKey] at hsecond
  exact hunique _ _ _ _ wanted hfirst.1 hsecond.1 hfirstKey hsecondKey

/-- Clearing filters the map by the condition. -/
theorem entryOf_clear [DecidableEq Key] (hunique : UniqueKeys key table)
    (hblank : key blank = none) :
    entryOf key wanted (clear drop blank table) =
      (entryOf key wanted table).filter fun entry => !drop entry := by
  have hcleared : UniqueKeys key (Slots.clear drop blank table) := hunique.clear hblank
  cases hentry : entryOf key wanted table with
  | none =>
    rw [Option.filter_none, entryOf_eq_none_iff]
    intro index entry hat hkey
    rw [getElem?_clear hblank hkey] at hat
    exact entryOf_eq_none_iff.mp hentry index entry hat.1 hkey
  | some entry =>
    have hkey := key_of_entryOf hentry
    obtain ⟨index, hat⟩ := List.mem_iff_getElem?.mp (mem_of_entryOf hentry)
    cases hdrop : drop entry with
    | false =>
      rw [Option.filter_some_pos (by simp [hdrop])]
      exact hcleared.entryOf_eq_some ((getElem?_clear hblank hkey).mpr ⟨hat, hdrop⟩) hkey
    | true =>
      rw [Option.filter_some_neg (by simp [hdrop]), entryOf_eq_none_iff]
      intro position found hposition hfound
      rw [getElem?_clear hblank hfound] at hposition
      have hsame := hunique _ _ _ _ wanted hat hposition.1 hkey hfound
      rw [hsame, hposition.1] at hat
      cases hat
      rw [hdrop] at hposition
      exact absurd hposition.2 (by simp)

end Foundation.Slots
