/-
# The course of a program

From given tables a program takes one course: it runs a number of statements and ends
with an outcome. If one of them fails, it ends with a status instead. Courses compose
like the programs, so a program is evaluated statement by statement without saying yet
which statements fail.
-/

import MldsaAuth.Foundation.Transaction

universe u v w

namespace Foundation.Program

/-- None of a number of statements fails. -/
def Clear : ℕ → List Bool → Prop
  | 0, _ => True
  | count + 1, faults => faults.headD false = false ∧ Clear count faults.tail

instance : (count : ℕ) → (faults : List Bool) → Decidable (Clear count faults)
  | 0, _ => .isTrue trivial
  | count + 1, faults =>
    have := instDecidableClear count faults.tail
    inferInstanceAs (Decidable (faults.headD false = false ∧ Clear count faults.tail))

theorem clear_nil {count : ℕ} : Clear count [] := by
  induction count with
  | zero => trivial
  | succ count ih => exact ⟨rfl, ih⟩

theorem clear_add {first second : ℕ} {faults : List Bool} :
    Clear (first + second) faults ↔ Clear first faults ∧ Clear second (faults.drop first) := by
  induction first generalizing faults with
  | zero => simp [Clear]
  | succ first ih =>
    rw [Nat.succ_add]
    show (_ ∧ Clear (first + second) faults.tail) ↔ (_ ∧ Clear first faults.tail) ∧ _
    rw [ih, List.drop_tail, and_assoc]

theorem clear_one {faults : List Bool} : Clear 1 faults ↔ faults.headD false = false :=
  and_iff_left trivial

/-- One statement fails, after a number of others that do not. -/
def failingAt (index : ℕ) : List Bool := List.replicate index false ++ [true]

theorem clear_failingAt {count index : ℕ} : Clear count (failingAt index) ↔ count ≤ index := by
  unfold failingAt
  induction count generalizing index with
  | zero => simp [Clear]
  | succ count ih =>
    cases index with
    | zero => simp [Clear]
    | succ index =>
      show (false = false ∧ Clear count (List.replicate index false ++ [true])) ↔ _
      rw [ih, eq_self, true_and, Nat.succ_le_succ_iff]

theorem drop_failingAt {count index : ℕ} (hle : count ≤ index) :
    (failingAt index).drop count = failingAt (index - count) := by
  unfold failingAt
  rw [List.drop_append_of_le_length (by simpa using hle), List.drop_replicate]

theorem headD_failingAt (index : ℕ) : (failingAt index).headD false = decide (index = 0) := by
  cases index with
  | zero => rfl
  | succ => rfl

variable {Tables : Type u} {Status : Type v} {Value Next : Type w}

/-- From given tables, inside a transaction or not, a program runs a number of statements and
ends with an outcome and tables; and it ends with a status if one of the statements fails. -/
structure Course (tables : Tables) (saved : Option Tables) (count : ℕ)
    (outcome : Except Status Value) (after : Tables) (program : Program Tables Status Value) :
    Prop where
  clear : ∀ faults, Clear count faults → program ⟨tables, saved, faults⟩ =
    (outcome, ⟨after, saved, faults.drop count⟩)
  failing : ∀ faults, ¬Clear count faults →
    ∃ status, (program ⟨tables, saved, faults⟩).1 = .error status

namespace Course

variable {tables middle after : Tables} {saved : Option Tables} {count more : ℕ}
  {program : Program Tables Status Value} {next : Value → Program Tables Status Next}
  {value : Value} {status failure : Status} {outcome : Except Status Next} {faults : List Bool}

theorem pure (value : Value) :
    Course tables saved 0 (.ok value) tables (Pure.pure value : Program Tables Status Value) :=
  ⟨fun _ _ => rfl, fun _ hfails => absurd trivial hfails⟩

theorem fail (status : Status) :
    Course tables saved 0 (.error status) tables
      (Program.fail status : Program Tables Status Value) :=
  ⟨fun _ _ => rfl, fun _ hfails => absurd trivial hfails⟩

theorem bind (hprogram : Course tables saved count (.ok value) middle program)
    (hnext : Course middle saved more outcome after (next value)) :
    Course tables saved (count + more) outcome after (program >>= next) := by
  refine ⟨fun faults hclear => ?_, fun faults hfails => ?_⟩
  · obtain ⟨hfirst, hsecond⟩ := clear_add.mp hclear
    rw [bind_of_ok (hprogram.clear faults hfirst), hnext.clear _ hsecond, List.drop_drop]
  by_cases hfirst : Clear count faults
  · rw [bind_of_ok (hprogram.clear faults hfirst)]
    exact hnext.failing _ fun hsecond => hfails (clear_add.mpr ⟨hfirst, hsecond⟩)
  obtain ⟨status, hstatus⟩ := hprogram.failing faults hfirst
  exact ⟨status, congrArg Prod.fst (bind_of_error (Prod.ext hstatus rfl))⟩

/-- What follows may need no statement. -/
theorem bind_last (hprogram : Course tables saved count (.ok value) middle program)
    (hnext : Course middle saved 0 outcome after (next value)) :
    Course tables saved count outcome after (program >>= next) :=
  hprogram.bind hnext

theorem bind_error (hprogram : Course tables saved count (.error status) after program) :
    Course tables saved count (.error status) after (program >>= next) := by
  refine ⟨fun faults hclear => bind_of_error (hprogram.clear faults hclear), ?_⟩
  intro faults hfails
  obtain ⟨other, hother⟩ := hprogram.failing faults hfails
  exact ⟨other, congrArg Prod.fst (bind_of_error (Prod.ext hother rfl))⟩

theorem statement [Severity] (failure : Status) (run : Tables → Value × Tables) :
    Course tables saved 1 (.ok (run tables).1) (run tables).2 (Program.statement failure run) := by
  refine ⟨fun faults hclear => ?_, fun faults hfails => ⟨failure, ?_⟩⟩
  · unfold Program.statement
    rw [clear_one.mp hclear, List.drop_one]
    rfl
  · have hfault : faults.headD false = true := by
      simpa using fun hclear => hfails (clear_one.mpr hclear)
    unfold Program.statement
    dsimp only
    rw [hfault]
    rfl

/-- The next statement, and the rest on what it has read and changed. -/
theorem statement_bind [Severity] {run : Tables → Value × Tables}
    (hnext : Course (run tables).2 saved count outcome after (next (run tables).1)) :
    Course tables saved (count + 1) outcome after (Program.statement failure run >>= next) :=
  Nat.add_comm 1 count ▸ .bind (.statement failure run) hnext

variable {next : PUnit → Program Tables Status Next} {condition : Bool}

theorem require_bind
    (hcondition : condition = true) (hnext : Course tables saved count outcome after (next ⟨⟩)) :
    Course tables saved count outcome after (Program.require condition status >>= next) := by
  subst hcondition
  exact hnext

theorem require_refused (hcondition : condition = false) :
    Course tables saved 0 (.error status) tables (Program.require condition status >>= next) := by
  subst hcondition
  exact bind_error (fail status)

/-- A course that ends with a status ends with one whatever fails. -/
theorem ends_error (hprogram : Course tables saved count (.error status) after program)
    (faults : List Bool) : ∃ status, (program ⟨tables, saved, faults⟩).1 = .error status := by
  by_cases hclear : Clear count faults
  · exact ⟨status, congrArg Prod.fst (hprogram.clear faults hclear)⟩
  · exact hprogram.failing faults hclear

theorem mapStatus {Reported : Type v} {report : Status → Reported} {outcome : Except Status Value}
    (hprogram : Course tables saved count outcome after program) :
    Course tables saved count (outcome.mapError report) after (program.mapStatus report) := by
  refine ⟨fun faults hclear => ?_, fun faults hfails => ?_⟩
  · unfold Program.mapStatus
    rw [hprogram.clear faults hclear]
  obtain ⟨status, hstatus⟩ := hprogram.failing faults hfails
  exact ⟨report status, congrArg (Except.mapError report) hstatus⟩

/-! ### Transactions -/

section Transaction

variable {body : Program Tables Status (Ending Status Value)}

private theorem transaction_unopened (hfault : faults.headD false = true) :
    (Program.transaction failure body ⟨tables, none, faults⟩).1 = .error failure := by
  unfold Program.transaction
  rw [hfault]
  rfl

private theorem transaction_opened (hfault : faults.headD false = false) :
    Program.transaction failure body ⟨tables, none, faults⟩ =
      settle failure (body ⟨tables, some tables, faults.tail⟩) := by
  unfold Program.transaction
  rw [hfault]
  rfl

variable {outcome : Except Status (Ending Status Value)}

/-- A transaction whose opening or whose body fails ends with a status. -/
private theorem transaction_failing (hbody : Course tables (some tables) count outcome after body)
    (hfails : ¬Clear (count + 1) faults) :
    ∃ status, (Program.transaction failure body ⟨tables, none, faults⟩).1 = .error status := by
  cases hfault : faults.headD false with
  | true => exact ⟨failure, transaction_unopened hfault⟩
  | false =>
    have hinner : ¬Clear count faults.tail := fun hclear =>
      hfails ⟨hfault, hclear⟩
    obtain ⟨status, hstatus⟩ := hbody.failing _ hinner
    refine ⟨status, ?_⟩
    rw [transaction_opened hfault]
    generalize body ⟨tables, some tables, faults.tail⟩ = run at hstatus ⊢
    obtain ⟨outcome, conn⟩ := run
    subst hstatus
    rfl

/-- A transaction that gets through its body ends as the body wants it to. -/
private theorem transaction_clear (hbody : Course tables (some tables) count outcome after body)
    (hclear : Clear (count + 1) faults) :
    Program.transaction failure body ⟨tables, none, faults⟩ =
      settle failure (outcome, ⟨after, some tables, faults.drop (count + 1)⟩) := by
  rw [transaction_opened hclear.1, hbody.clear _ hclear.2, List.drop_tail]

/-- A body that ends with a status is undone. -/
theorem transaction_error (after : Tables)
    (hbody : Course tables (some tables) count (.error status) after body) :
    Course tables none (count + 1) (.error status) tables (Program.transaction failure body) :=
  ⟨fun _ hclear => transaction_clear hbody hclear, fun _ hfails => transaction_failing hbody hfails⟩

/-- So is one that asks for it. -/
theorem transaction_rollback (after : Tables)
    (hbody : Course tables (some tables) count (.ok (.rollback value)) after body) :
    Course tables none (count + 1) (.ok value) tables (Program.transaction failure body) :=
  ⟨fun _ hclear => transaction_clear hbody hclear, fun _ hfails => transaction_failing hbody hfails⟩

/-- A body that wants to commit does so with one more statement. -/
theorem transaction_commit
    (hbody : Course tables (some tables) count (.ok (.commit value)) after body) :
    Course tables none (count + 2) (.ok value) after (Program.transaction failure body) := by
  -- What is left after the body is the commit.
  have hrest : ∀ faults, Clear (count + 1) faults →
      Program.transaction failure body ⟨tables, none, faults⟩ =
        commit failure value ⟨after, some tables, faults.drop (count + 1)⟩ :=
    fun _ hclear => transaction_clear hbody hclear
  unfold commit at hrest
  refine ⟨fun faults hclear => ?_, fun faults hfails => ?_⟩
  · obtain ⟨hinner, hcommit⟩ := (@clear_add (count + 1) 1 faults).mp hclear
    rw [hrest faults hinner, clear_one.mp hcommit, List.tail_drop]
    rfl
  · by_cases hinner : Clear (count + 1) faults
    · have hcommit : (faults.drop (count + 1)).headD false = true := by
        simpa using fun hclear =>
          hfails ((@clear_add (count + 1) 1 faults).mpr ⟨hinner, clear_one.mpr hclear⟩)
      refine ⟨failure, ?_⟩
      rw [hrest faults hinner, hcommit]
      rfl
    · exact transaction_failing hbody hinner

end Transaction

end Course

end Foundation.Program
