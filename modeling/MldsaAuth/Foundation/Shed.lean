/-
# Tables with some rows left out

A table sheds the rows whose keys are gone. Whatever asks only for rows that stay
cannot tell the table from what is left of it, and the changes of rows made in place,
deletions, and insertions under other keys commute with the shedding. Deleting the rows
that meet a condition is shedding their keys, when no two rows share one.
-/

import MldsaAuth.Foundation.Rows

universe u

namespace Foundation.Rows

variable {Row Key : Type u} {key : Row → Key} {gone : Key → Bool} {wanted condition : Row → Bool}
  {change : Row → Row} {rows : List Row} {row : Row}

/-- The rows whose keys are not gone. -/
def shed (key : Row → Key) (gone : Key → Bool) (rows : List Row) : List Row :=
  rows.filter fun row => !gone (key row)

theorem find?_shed (hkept : ∀ row, wanted row = true → gone (key row) = false) :
    (shed key gone rows).find? wanted = rows.find? wanted := by
  unfold shed
  rw [List.find?_filter]
  congr 1
  funext row
  cases hwanted : wanted row with
  | false => simp
  | true => simp [hkept row hwanted]

theorem find?_shed_eq_none (hgone : ∀ row, wanted row = true → gone (key row) = true) :
    (shed key gone rows).find? wanted = none := by
  refine List.find?_eq_none.mpr fun row hrow hwanted => ?_
  have hkept := (List.mem_filter.mp hrow).2
  rw [hgone row hwanted] at hkept
  cases hkept

theorem any_shed (hkept : ∀ row, wanted row = true → gone (key row) = false) :
    (shed key gone rows).any wanted = rows.any wanted := by
  unfold shed
  rw [List.any_filter]
  congr 1
  funext row
  cases hwanted : wanted row with
  | false => exact Bool.and_false _
  | true => rw [hkept row hwanted]; rfl

theorem countP_shed (hkept : ∀ row, wanted row = true → gone (key row) = false) :
    (shed key gone rows).countP wanted = rows.countP wanted := by
  unfold shed
  rw [List.countP_filter]
  refine List.countP_congr fun row _ => ?_
  cases hwanted : wanted row with
  | false => rfl
  | true => rw [hkept row hwanted]; rfl

theorem shed_updateWhere (hkey : ∀ row, key (change row) = key row) :
    shed key gone (updateWhere condition change rows) =
      updateWhere condition change (shed key gone rows) :=
  filter_updateWhere fun row => by rw [hkey]

theorem shed_filter : shed key gone (rows.filter wanted) = (shed key gone rows).filter wanted := by
  unfold shed
  rw [List.filter_filter, List.filter_filter]
  congr 1
  funext row
  exact Bool.and_comm _ _

theorem shed_concat (hkept : gone (key row) = false) :
    shed key gone (rows ++ [row]) = shed key gone rows ++ [row] := by
  unfold shed
  simp [hkept]

/-- What holds of the rows that are gone still does after a row that stays is appended. -/
theorem forall_gone_concat {property : Row → Prop}
    (hrows : ∀ other ∈ rows, gone (key other) = true → property other)
    (hkept : gone (key row) = false) :
    ∀ other ∈ rows ++ [row], gone (key other) = true → property other := by
  intro other hother hgone
  rcases List.mem_append.mp hother with hold | hnew
  · exact hrows other hold hgone
  rw [List.mem_singleton.mp hnew, hkept] at hgone
  cases hgone

/-- A deletion sheds the keys of the rows that are deleted. -/
theorem filter_eq_shed [DecidableEq Key] (hnodup : (rows.map key).Nodup) :
    rows.filter (fun row => !condition row) =
      shed key (fun wanted => rows.any fun row => decide (key row = wanted) && condition row)
        rows := by
  refine List.filter_congr fun row hrow => ?_
  congr 1
  rw [Bool.eq_iff_iff, List.any_eq_true]
  constructor
  · intro hcondition
    exact ⟨row, hrow, by simp [hcondition]⟩
  rintro ⟨other, hother, hmeets⟩
  rw [Bool.and_eq_true, decide_eq_true_eq] at hmeets
  rw [← eq_of_key hnodup hother hrow hmeets.1]
  exact hmeets.2

end Foundation.Rows
