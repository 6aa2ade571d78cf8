/-
# Open addressing with linear probing

A table of a fixed size holds at most one key in each position, or a mark that the
position is free. The search for a key starts at the key's home and goes on, round the
end of the table, until it meets the key or a free position. The table is proper when
every key in it is found this way and no key stands twice; it stays proper when a key
that is absent is put in any position up to the first free one on its path, whatever
stood there before.
-/

import Mathlib.Data.Nat.ModEq
import Mathlib.Logic.Function.Basic

universe u

namespace Foundation.Probing

open Function

variable {Key : Type u} (size : ℕ)

/-- The position that a search visits after some steps. -/
def probe (start steps : ℕ) : ℕ := (start + steps) % size

/-- The first position on a path at which a search stops, with the number of positions that are
left to visit. -/
def firstFrom (stops : ℕ → Bool) (start : ℕ) : ℕ → Option ℕ
  | 0 => none
  | left + 1 =>
    if stops (probe size start (size - (left + 1))) then
      some (probe size start (size - (left + 1)))
    else firstFrom stops start left

variable {size} {stops : ℕ → Bool} {start left index : ℕ}

theorem probe_lt (hsize : 0 < size) (steps : ℕ) : probe size start steps < size :=
  Nat.mod_lt _ hsize

/-- Within one round no position is visited twice. -/
theorem probe_inj {first second : ℕ} (hfirst : first < size) (hsecond : second < size)
    (hsame : probe size start first = probe size start second) : first = second :=
  Nat.ModEq.eq_of_lt_of_lt (Nat.ModEq.add_left_cancel' start hsame) hfirst hsecond

/-- One round visits every position. -/
theorem exists_probe (hindex : index < size) : ∃ steps < size, probe size start steps = index := by
  have hstart := Nat.mod_lt start (by omega : 0 < size)
  refine ⟨(index + (size - start % size)) % size, Nat.mod_lt _ (by omega), ?_⟩
  unfold probe
  rw [Nat.add_mod_mod, ← Nat.mod_add_mod, show start % size + (index + (size - start % size)) =
    index + size by omega, Nat.add_mod_right, Nat.mod_eq_of_lt hindex]

/-- Where a search ends, and what it has passed. -/
theorem firstFrom_eq_some (hleft : left ≤ size)
    (hfirst : firstFrom size stops start left = some index) :
    ∃ steps < size, probe size start steps = index ∧ stops index = true ∧
      ∀ earlier < steps, size - left ≤ earlier → stops (probe size start earlier) = false := by
  induction left with
  | zero => cases hfirst
  | succ left ih =>
    unfold firstFrom at hfirst
    split at hfirst
    · rename_i hstops
      obtain rfl := Option.some.inj hfirst
      refine ⟨size - (left + 1), by omega, rfl, hstops, fun earlier hbefore hfrom => ?_⟩
      omega
    · rename_i hpasses
      obtain ⟨steps, hsteps, hprobe, hstops, hpassed⟩ := ih (by omega) hfirst
      refine ⟨steps, hsteps, hprobe, hstops, fun earlier hbefore hfrom => ?_⟩
      by_cases hhere : earlier = size - (left + 1)
      · rw [hhere]
        exact Bool.eq_false_iff.mpr hpasses
      · exact hpassed earlier hbefore (by omega)

/-- A search that ends nowhere has passed every position. -/
theorem firstFrom_eq_none (hleft : left ≤ size) (hnone : firstFrom size stops start left = none)
    {steps : ℕ} (hfrom : size - left ≤ steps) (hsteps : steps < size) :
    stops (probe size start steps) = false := by
  induction left with
  | zero => omega
  | succ left ih =>
    unfold firstFrom at hnone
    split at hnone
    · cases hnone
    rename_i hpasses
    by_cases hhere : steps = size - (left + 1)
    · rw [hhere]
      exact Bool.eq_false_iff.mpr hpasses
    · exact ih (by omega) hnone (by omega)

/-- A search ends at the latest where it has to stop. -/
theorem firstFrom_of_stops {steps : ℕ} (hleft : left ≤ size) (hfrom : size - left ≤ steps)
    (hsteps : steps < size) (hstops : stops (probe size start steps) = true)
    (hpassed : ∀ earlier < steps, stops (probe size start earlier) = false) :
    firstFrom size stops start left = some (probe size start steps) := by
  induction left with
  | zero => omega
  | succ left ih =>
    unfold firstFrom
    by_cases hhere : steps = size - (left + 1)
    · rw [← hhere, if_pos hstops]
    rw [if_neg (by rw [hpassed _ (by omega)]; exact Bool.false_ne_true)]
    exact ih (by omega) (by omega)

variable [DecidableEq Key] (size) (free : Key) (home : Key → ℕ)

/-- The position of a key. -/
def lookup (keyAt : ℕ → Key) (key : Key) : Option ℕ :=
  (firstFrom size (fun index => decide (keyAt index = free ∨ keyAt index = key)) (home key)
    size).filter fun index => decide (keyAt index ≠ free)

omit [DecidableEq Key] in
/-- Nothing free stands between a key and its home, and no key stands twice. -/
structure Proper (keyAt : ℕ → Key) : Prop where
  reached : ∀ index < size, keyAt index ≠ free →
    ∃ steps < size, probe size (home (keyAt index)) steps = index ∧
      ∀ earlier < steps, keyAt (probe size (home (keyAt index)) earlier) ≠ free
  unique : ∀ first < size, ∀ second < size, keyAt first ≠ free →
    keyAt first = keyAt second → first = second

variable {size free home} {keyAt : ℕ → Key} {key : Key}

theorem lookup_free : lookup size free home keyAt free = none := by
  unfold lookup
  rw [Option.filter_eq_none_iff]
  intro index hfirst hused
  obtain ⟨_, _, _, hstops, _⟩ := firstFrom_eq_some le_rfl hfirst
  exact of_decide_eq_true hused ((or_self_iff).mp (of_decide_eq_true hstops))

/-- What is found is the key. -/
theorem lookup_eq_some (hsize : 0 < size) (hlookup : lookup size free home keyAt key = some index) :
    index < size ∧ keyAt index = key ∧ key ≠ free := by
  obtain ⟨hfirst, hused⟩ := Option.filter_eq_some_iff.mp hlookup
  obtain ⟨steps, -, hprobe, hstops, -⟩ := firstFrom_eq_some le_rfl hfirst
  have hkey := (of_decide_eq_true hstops).resolve_left (of_decide_eq_true hused)
  exact ⟨hprobe ▸ probe_lt hsize steps, hkey, hkey ▸ of_decide_eq_true hused⟩

namespace Proper

section

variable (hproper : Proper size free home keyAt)

include hproper

/-- Every key of a proper table is found. -/
theorem lookup_of_key (hindex : index < size) (hkey : keyAt index = key) (hused : key ≠ free) :
    lookup size free home keyAt key = some index := by
  subst hkey
  obtain ⟨steps, hsteps, hprobe, hearlier⟩ := hproper.reached index hindex hused
  unfold lookup
  rw [Option.filter_eq_some_iff]
  refine ⟨?_, decide_eq_true hused⟩
  have hfirst := @firstFrom_of_stops size
    (fun position => decide (keyAt position = free ∨ keyAt position = keyAt index))
    (home (keyAt index)) size steps le_rfl (by omega) hsteps
  rw [hprobe] at hfirst
  refine hfirst (decide_eq_true (.inr rfl)) fun earlier hbefore => decide_eq_false ?_
  rintro (hfree | hsame)
  · exact hearlier earlier hbefore hfree
  have hvisited := hproper.unique index hindex _ (probe_lt (by omega) earlier) hused hsame.symm
  have htwice := probe_inj hsteps (hbefore.trans hsteps) (hprobe.trans hvisited)
  omega

/-- A key that is not found is not in the table. -/
theorem ne_of_lookup (hlookup : lookup size free home keyAt key = none) (hused : key ≠ free)
    (hindex : index < size) : keyAt index ≠ key := by
  intro hkey
  rw [hproper.lookup_of_key hindex hkey hused] at hlookup
  cases hlookup

/-- An absent key may be put in any position up to the first free one on its path. -/
theorem insert {steps : ℕ} (hused : key ≠ free)
    (hlookup : lookup size free home keyAt key = none) (hsteps : steps < size)
    (hearlier : ∀ earlier < steps, keyAt (probe size (home key) earlier) ≠ free) :
    Proper size free home (update keyAt (probe size (home key) steps) key) := by
  -- no position becomes free
  have hkept : ∀ index, keyAt index ≠ free →
      update keyAt (probe size (home key) steps) key index ≠ free := by
    intro index hindex
    rw [update_apply]
    split
    · exact hused
    · exact hindex
  constructor
  · intro index hindex
    rw [update_apply]
    split_ifs with hhere
    · intro _
      exact ⟨steps, hsteps, hhere.symm, fun earlier hbefore => hkept _ (hearlier earlier hbefore)⟩
    intro hother
    obtain ⟨count, hcount, hprobe, hpassed⟩ := hproper.reached index hindex hother
    exact ⟨count, hcount, hprobe, fun earlier hbefore => hkept _ (hpassed earlier hbefore)⟩
  · intro first hfirst second hsecond
    rw [update_apply, update_apply]
    have habsent : ∀ position < size, keyAt position ≠ key := fun position hposition =>
      hproper.ne_of_lookup hlookup hused hposition
    split <;> split
    · rename_i hhere hthere
      exact fun _ _ => hhere.trans hthere.symm
    · exact fun _ hsame => absurd hsame.symm (habsent second hsecond)
    · exact fun _ hsame => absurd hsame (habsent first hfirst)
    · exact hproper.unique first hfirst second hsecond

end

end Proper

end Foundation.Probing
