/-
# Streams cut at a separator

A stream is a sequence of pieces, each followed by a separator, and an unfinished rest.
The pieces of a longer stream are those of a part of it and then those of the rest of
that part together with what follows, so that a stream can be cut as it arrives.
-/

import Mathlib.Data.List.Basic

universe u

namespace Foundation.Delimited

variable {Item : Type u} [DecidableEq Item] {separator : Item} {stream line more rest : List Item}

/-- The pieces that are followed by a separator. -/
def whole (separator : Item) (stream : List Item) : List (List Item) :=
  (stream.splitOn separator).dropLast

/-- What follows the last separator. -/
def unfinished (separator : Item) (stream : List Item) : List Item :=
  (stream.splitOn separator).getLastD []

/-- Without a separator everything is unfinished. -/
theorem splitOn_of_notMem (hnot : separator ∉ stream) : stream.splitOn separator = [stream] :=
  List.splitOnP_eq_singleton fun item hitem => by
    rw [beq_eq_false_iff_ne]
    rintro rfl
    exact hnot hitem

/-- The first piece ends at the first separator. -/
theorem splitOn_cons (hnot : separator ∉ line) :
    (line ++ separator :: more).splitOn separator = line :: more.splitOn separator := by
  have hitems : ∀ item ∈ line, (item == separator) = false := by
    intro item hitem
    rw [beq_eq_false_iff_ne]
    rintro rfl
    exact hnot hitem
  exact List.splitOnP_append_cons_of_forall_mem hitems separator (beq_self_eq_true separator) more

theorem whole_of_notMem (hnot : separator ∉ stream) : whole separator stream = [] := by
  unfold whole
  rw [splitOn_of_notMem hnot]
  rfl

theorem unfinished_of_notMem (hnot : separator ∉ stream) :
    unfinished separator stream = stream := by
  unfold unfinished
  rw [splitOn_of_notMem hnot]
  rfl

theorem splitOn_ne_nil : stream.splitOn separator ≠ [] := List.splitOnP_ne_nil _ _

theorem whole_cons (hnot : separator ∉ line) :
    whole separator (line ++ separator :: more) = line :: whole separator more := by
  unfold whole
  rw [splitOn_cons hnot, List.dropLast_cons_of_ne_nil splitOn_ne_nil]

theorem unfinished_cons (hnot : separator ∉ line) :
    unfinished separator (line ++ separator :: more) = unfinished separator more := by
  unfold unfinished
  rw [splitOn_cons hnot, List.getLastD_cons]
  cases hpieces : more.splitOn separator with
  | nil => exact absurd hpieces splitOn_ne_nil
  | cons => rfl

omit [DecidableEq Item] in
/-- A stream with a separator is a first piece and what follows it. -/
theorem exists_first (hmem : separator ∈ stream) :
    ∃ line more, separator ∉ line ∧ stream = line ++ separator :: more := by
  obtain ⟨line, more, hstream, hnot⟩ := List.eq_append_cons_of_mem hmem
  exact ⟨line, more, hnot, hstream⟩

/-- Induction over the pieces of a stream. -/
theorem pieces_induction {property : List Item → Prop}
    (hrest : ∀ rest, separator ∉ rest → property rest)
    (hpiece : ∀ line more, separator ∉ line → property more →
      property (line ++ separator :: more)) (stream : List Item) : property stream := by
  induction hlength : stream.length using Nat.strongRecOn generalizing stream with
  | ind length ih =>
    by_cases hmem : separator ∈ stream
    · obtain ⟨line, more, hnot, rfl⟩ := exists_first hmem
      refine hpiece line more hnot (ih more.length ?_ more rfl)
      rw [← hlength, List.length_append, List.length_cons]
      omega
    · exact hrest stream hmem

theorem notMem_unfinished : separator ∉ unfinished separator stream := by
  induction stream using pieces_induction with
  | hrest rest hnot => rwa [unfinished_of_notMem hnot]
  | hpiece line more hnot => rwa [unfinished_cons hnot]

/-- What arrives is cut together with what was unfinished. -/
theorem whole_append (stream more : List Item) :
    whole separator (stream ++ more) =
      whole separator stream ++ whole separator (unfinished separator stream ++ more) := by
  induction stream using pieces_induction with
  | hrest rest hnot => rw [whole_of_notMem hnot, unfinished_of_notMem hnot, List.nil_append]
  | hpiece line next hnot ih =>
    rw [List.append_assoc, List.cons_append, whole_cons hnot, whole_cons hnot,
      unfinished_cons hnot, ih, List.cons_append]

theorem unfinished_append (stream more : List Item) :
    unfinished separator (stream ++ more) =
      unfinished separator (unfinished separator stream ++ more) := by
  induction stream using pieces_induction with
  | hrest rest hnot => rw [unfinished_of_notMem hnot]
  | hpiece line next hnot ih =>
    rw [List.append_assoc, List.cons_append, unfinished_cons hnot, unfinished_cons hnot, ih]

theorem length_unfinished_le : (unfinished separator stream).length ≤ stream.length := by
  induction stream using pieces_induction with
  | hrest rest hnot => exact Nat.le_of_eq (congrArg List.length (unfinished_of_notMem hnot))
  | hpiece line more hnot =>
    rw [unfinished_cons hnot, List.length_append, List.length_cons]
    omega

/-- What arrives with a separator is longer than what it leaves unfinished. -/
theorem length_unfinished_append_lt (hmem : separator ∈ more) :
    (unfinished separator (stream ++ more)).length < more.length := by
  obtain ⟨line, next, hnot, rfl⟩ := exists_first hmem
  have hline : separator ∉ unfinished separator stream ++ line := fun hin =>
    (List.mem_append.mp hin).elim notMem_unfinished hnot
  rw [unfinished_append, ← List.append_assoc, unfinished_cons hline, List.length_append,
    List.length_cons]
  have hle : (unfinished separator next).length ≤ next.length := length_unfinished_le
  omega

end Foundation.Delimited
