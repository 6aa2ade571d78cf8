/-
# Chains

A chain is a list of rows each of which is checked against what the one before it left
behind. Checking a list from a start is a fold that stops at the first bad row. If what
a row leaves behind determines what it was checked against, and what is seen of it, then
two chains of one length that end alike are seen alike from their ends down.
-/

import Mathlib.Data.List.Induction

universe u v w

namespace Foundation.Chain

variable {Status : Type u} {Row : Type v} {Link View : Type w}
  {check : Link → Row → Except Status Link}

/-- Check the rows one after another. -/
def follow (check : Link → Row → Except Status Link) (start : Link) (rows : List Row) :
    Except Status Link :=
  rows.foldlM check start

variable {start : Link}

theorem follow_singleton {row : Row} : follow check start [row] = check start row := by
  show (check start row >>= pure) = check start row
  cases check start row <;> rfl

theorem follow_append_of_ok {middle : Link} {rows more : List Row}
    (hrows : follow check start rows = .ok middle) :
    follow check start (rows ++ more) = follow check middle more := by
  unfold follow at hrows ⊢
  rw [List.foldlM_append, hrows]
  rfl

/-- The last row of a chain is checked against what the others left behind. -/
theorem follow_concat_eq_ok {last : Link} {rows : List Row} {row : Row} :
    follow check start (rows ++ [row]) = .ok last ↔
      ∃ middle, follow check start rows = .ok middle ∧ check middle row = .ok last := by
  unfold follow
  rw [List.foldlM_append]
  cases rows.foldlM check start with
  | error =>
    constructor
    · intro hlast
      cases hlast
    rintro ⟨middle, hmiddle, -⟩
    cases hmiddle
  | ok middle =>
    have hsingle : (.ok middle >>= fun link => [row].foldlM check link) = check middle row :=
      follow_singleton
    rw [hsingle]
    constructor
    · intro hlast
      exact ⟨middle, rfl, hlast⟩
    rintro ⟨_, hmiddle, hlast⟩
    cases hmiddle
    exact hlast

/-- Chains of one length that end alike are seen alike, if a row can be read off from what it
leaves behind. -/
theorem map_view_eq {view : Row → View} {last : Link} {first second : List Row}
    (hlength : first.length = second.length)
    (hback : ∀ row ∈ first, ∀ other ∈ second, ∀ link otherLink next,
      check link row = .ok next → check otherLink other = .ok next →
        link = otherLink ∧ view row = view other) (hfirst : follow check start first = .ok last)
    (hsecond : follow check start second = .ok last) : first.map view = second.map view := by
  -- from the end down: the last rows agree, and then so does what they were checked against
  induction first using List.reverseRecOn generalizing second last with
  | nil =>
    obtain rfl := List.length_eq_zero_iff.mp hlength.symm
    rfl
  | append_singleton rows row ih =>
    cases second using List.reverseRecOn with
    | nil => simp at hlength
    | append_singleton others other =>
      obtain ⟨middle, hrows, hrow⟩ := follow_concat_eq_ok.mp hfirst
      obtain ⟨otherMiddle, hothers, hother⟩ := follow_concat_eq_ok.mp hsecond
      obtain ⟨rfl, hview⟩ := hback row (by simp) other (by simp) _ _ _ hrow hother
      have hrest := ih (by simpa using hlength) (fun row hrow other hother =>
          hback row (List.mem_append_left _ hrow) other (List.mem_append_left _ hother))
        hrows hothers
      rw [List.map_append, List.map_append, hrest, List.map_singleton, List.map_singleton, hview]

end Foundation.Chain
