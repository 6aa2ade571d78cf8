/-
# Tables of rows

A table is a list of rows in the order in which they were inserted. A row is looked
up by scanning for the first one that matches; rows are appended, deleted, or
rewritten in place wherever a condition holds. The lemmas say when a lookup does not
notice such a change.
-/

import Mathlib.Data.List.Nodup

universe u

namespace Foundation.Rows

open Function

variable {Row : Type u} {wanted condition : Row → Bool} {change : Row → Row} {rows : List Row}
  {row : Row}

/-- Rewrite every row that meets a condition. -/
def updateWhere (condition : Row → Bool) (change : Row → Row) (rows : List Row) : List Row :=
  rows.map fun row => if condition row then change row else row

variable {counted kept : Row → Bool} {Key : Type u} {key : Row → Key}

/-- A lookup finds the row it found before, rewritten if it meets the condition, as long as
rewriting does not change what matches. -/
theorem find?_updateWhere (hmatch : ∀ row, wanted (change row) = wanted row) :
    (updateWhere condition change rows).find? wanted =
      (rows.find? wanted).map fun row => if condition row then change row else row := by
  unfold updateWhere
  rw [List.find?_map]
  congr 2
  funext row
  dsimp only [comp_apply]
  split
  · exact hmatch row
  · rfl

/-- What is wanted is found rewritten, if it is there. -/
theorem find?_updateWhere_self (hmatch : ∀ row, wanted (change row) = wanted row)
    (hthere : ∃ row ∈ rows, wanted row = true) :
    ∃ row, (updateWhere wanted change rows).find? wanted = some (change row) := by
  obtain ⟨there, hmem, hwanted⟩ := hthere
  cases hfound : rows.find? wanted with
  | none => exact absurd hwanted (List.find?_eq_none.mp hfound there hmem)
  | some row =>
    refine ⟨row, ?_⟩
    rw [find?_updateWhere hmatch, hfound, Option.map_some, if_pos (List.find?_some hfound)]

/-- Rewriting that keeps what counts keeps the count. -/
theorem countP_updateWhere_of_same
    (hsame : ∀ row ∈ rows, condition row = true → counted (change row) = counted row) :
    (updateWhere condition change rows).countP counted = rows.countP counted := by
  unfold updateWhere
  rw [List.countP_map]
  refine List.countP_congr fun row hrow => ?_
  dsimp only [comp_apply]
  split_ifs with hcondition
  · rw [hsame row hrow hcondition]
  · exact Iff.rfl

/-- Rewriting rows so that they no longer count lowers a count by the number of them. -/
theorem countP_updateWhere_add
    (hchange : ∀ row, condition row = true → counted (change row) = false) :
    (updateWhere condition change rows).countP counted +
      rows.countP (fun row => condition row && counted row) = rows.countP counted := by
  induction rows with
  | nil => rfl
  | cons head tail ih =>
    have hcons : updateWhere condition change (head :: tail) =
        (if condition head then change head else head) :: updateWhere condition change tail := rfl
    rw [hcons, List.countP_cons, List.countP_cons, List.countP_cons, ← ih]
    by_cases hhead : condition head = true
    · simp only [hhead, if_true, hchange head hhead, Bool.true_and]
      simp only [Bool.false_eq_true, if_false]
      omega
    simp only [hhead, Bool.false_and]
    simp only [Bool.false_eq_true, if_false]
    omega

/-- So it lowers a count that had one of them. -/
theorem countP_updateWhere_lt (hchange : ∀ row, condition row = true → counted (change row) = false)
    (hthere : ∃ row ∈ rows, condition row = true ∧ counted row = true) :
    (updateWhere condition change rows).countP counted < rows.countP counted := by
  have hadd := @countP_updateWhere_add _ _ _ rows counted hchange
  obtain ⟨row, hrow, hboth⟩ := hthere
  have hpos : 0 < rows.countP fun row => condition row && counted row :=
    List.countP_pos_iff.mpr ⟨row, hrow, (Bool.and_eq_true _ _).mpr hboth⟩
  omega

/-- Rewriting twice in the same way is rewriting once, wherever either condition holds. -/
theorem updateWhere_updateWhere {again : Row → Bool}
    (hchange : ∀ row, change (change row) = change row) :
    updateWhere again change (updateWhere condition change rows) =
      updateWhere (fun row => condition row || again row) change rows := by
  unfold updateWhere
  rw [List.map_map]
  congr 1
  funext row
  by_cases hfirst : condition row = true
  · simp [hfirst, hchange]
  · simp [hfirst]

/-- Rows that are never kept can be rewritten unnoticed. -/
theorem filter_updateWhere_of_disjoint
    (hbefore : ∀ row ∈ rows, condition row = true → kept row = false)
    (hafter : ∀ row ∈ rows, condition row = true → kept (change row) = false) :
    (updateWhere condition change rows).filter kept = rows.filter kept := by
  induction rows with
  | nil => rfl
  | cons head tail ih =>
    have htail := ih (fun row hrow => hbefore row (List.mem_cons_of_mem head hrow))
      fun row hrow => hafter row (List.mem_cons_of_mem head hrow)
    have hcons : updateWhere condition change (head :: tail) =
        (if condition head then change head else head) :: updateWhere condition change tail := rfl
    rw [hcons, List.filter_cons, List.filter_cons, htail]
    by_cases hhead : condition head = true
    · rw [if_pos hhead, hafter head List.mem_cons_self hhead, hbefore head List.mem_cons_self hhead]
      rfl
    · rw [if_neg hhead]

/-- A lookup does not notice changes to rows that match neither before nor after. -/
theorem find?_updateWhere_of_disjoint
    (hbefore : ∀ row ∈ rows, condition row = true → wanted row = false)
    (hafter : ∀ row ∈ rows, condition row = true → wanted (change row) = false) :
    (updateWhere condition change rows).find? wanted = rows.find? wanted := by
  rw [← List.head?_filter, ← List.head?_filter, filter_updateWhere_of_disjoint hbefore hafter]

/-- An update that a filter does not see can be made before or after it. -/
theorem filter_updateWhere (hkept : ∀ row, kept (change row) = kept row) :
    (updateWhere condition change rows).filter kept =
      updateWhere condition change (rows.filter kept) := by
  unfold updateWhere
  rw [List.filter_map]
  congr 1
  refine List.filter_congr fun row _ => ?_
  show kept (if condition row then change row else row) = kept row
  split
  · exact hkept row
  · rfl

/-- Rewriting that keeps a column keeps the column. -/
theorem map_updateWhere (hkey : ∀ row, key (change row) = key row) :
    (updateWhere condition change rows).map key = rows.map key := by
  unfold updateWhere
  rw [List.map_map]
  congr 1
  funext row
  dsimp only [comp_apply]
  split
  · exact hkey row
  · rfl

/-- A view of the rows is rewritten as the rows are. -/
theorem map_updateWhere_comm {View : Type u} {view : Row → View} {seen : View → Bool}
    {shown : View → View} (hcondition : ∀ row, seen (view row) = condition row)
    (hchange : ∀ row, view (change row) = shown (view row)) :
    (updateWhere condition change rows).map view = updateWhere seen shown (rows.map view) := by
  unfold updateWhere
  rw [List.map_map, List.map_map]
  congr 1
  funext row
  dsimp only [comp_apply]
  rw [hcondition]
  split
  · exact hchange row
  · rfl

theorem nodup_updateWhere (hnodup : (rows.map key).Nodup)
    (hkey : ∀ row, key (change row) = key row) :
    ((updateWhere condition change rows).map key).Nodup :=
  (map_updateWhere hkey).symm ▸ hnodup

/-- What holds of every row before and after being rewritten holds of every row. -/
theorem forall_updateWhere {property : Row → Prop}
    (hkept : ∀ row ∈ rows, condition row = false → property row)
    (hchanged : ∀ row ∈ rows, condition row = true → property (change row)) :
    ∀ row ∈ updateWhere condition change rows, property row := by
  intro row hrow
  obtain ⟨source, hsource, rfl⟩ := List.mem_map.mp hrow
  cases hcondition : condition source with
  | true => exact hchanged source hsource hcondition
  | false => exact hkept source hsource hcondition

/-- A row that is found is still found after others were appended. -/
theorem find?_append_of_some {more : List Row} (hfound : rows.find? wanted = some row) :
    (rows ++ more).find? wanted = some row := by
  rw [List.find?_append, hfound, Option.some_or]

/-- The first row after those passed over is the first that is wanted. -/
theorem head?_drop_takeWhile :
    (rows.drop (rows.takeWhile fun row => !wanted row).length).head? = rows.find? wanted := by
  induction rows with
  | nil => rfl
  | cons head tail ih =>
    by_cases hhead : wanted head = true
    · rw [List.takeWhile_cons_of_neg (by simp [hhead]), List.find?_cons_of_pos hhead]
      rfl
    rw [List.takeWhile_cons_of_pos (by simp [hhead]), List.find?_cons_of_neg hhead]
    exact ih

/-- In a column without duplicates, a value stands in one row. -/
theorem eq_of_key {other : Row} (hnodup : (rows.map key).Nodup) (hrow : row ∈ rows)
    (hother : other ∈ rows) (hkey : key row = key other) : row = other :=
  List.inj_on_of_nodup_map hnodup hrow hother hkey

/-- In a column without duplicates, a value that stands in a row that counts is counted once. -/
theorem countP_key [DecidableEq Key] (hnodup : (rows.map key).Nodup) (hrow : row ∈ rows)
    (hcounted : counted row = true) :
    rows.countP (fun other => decide (key other = key row) && counted other) = 1 := by
  have hsame : rows.countP (fun other => decide (key other = key row) && counted other) =
      rows.countP fun other => key other == key row := by
    refine List.countP_congr fun other hother => ?_
    by_cases hkey : key other = key row
    · have hequal : other = row := eq_of_key hnodup hother hrow hkey
      simp [hequal, hcounted]
    · simp [hkey]
  calc rows.countP (fun other => decide (key other = key row) && counted other)
      = rows.countP fun other => key other == key row := hsame
    _ = (rows.map key).count (key row) := by rw [List.count, List.countP_map]; rfl
    _ = 1 := List.count_eq_one_of_mem hnodup (List.mem_map_of_mem hrow)

/-- A row whose value is new can be appended to a column without duplicates. -/
theorem nodup_append (hnodup : (rows.map key).Nodup) (hnew : ∀ other ∈ rows, key other ≠ key row) :
    ((rows ++ [row]).map key).Nodup := by
  rw [List.map_append, List.nodup_append']
  refine ⟨hnodup, List.nodup_singleton _, ?_⟩
  intro value hvalue hsingle
  obtain ⟨other, hother, rfl⟩ := List.mem_map.mp hvalue
  exact hnew other hother (List.mem_singleton.mp hsingle)

/-! ## Rows and the ones that follow -/

/-- Each row with the one that follows it. -/
def links (rows : List Row) : List (Row × Row) := rows.zip rows.tail

theorem links_concat (rows : List Row) (row : Row) :
    links (rows ++ [row]) = links rows ++ (rows.getLast?.map fun last => (last, row)).toList := by
  induction rows with
  | nil => rfl
  | cons first rest ih =>
    cases rest with
    | nil => rfl
    | cons second => exact congrArg (List.cons (first, second)) ih

end Foundation.Rows
