/-
# Two runs side by side

Two connections mirror each other when their tables are related, the tables to go back
to are related as well, and the same statements are about to fail. Two programs mirror
each other when from such connections they end alike, in the same status or in values
that agree, and on connections that mirror each other again. The rules below follow the
shape of a program, so that a program is compared with itself statement by statement.
-/

import MldsaAuth.Foundation.Transaction

universe u v w

namespace Foundation

/-- Related tables, related tables to go back to, and the same faults ahead. -/
structure Connection.Mirrors {Tables : Type u} (relation : Tables → Tables → Prop)
    (first second : Connection Tables) : Prop where
  tables : relation first.tables second.tables
  saved : Option.Rel relation first.saved second.saved
  faults : first.faults = second.faults

/-- Transactions are open on both or on neither. -/
theorem Connection.Mirrors.isSome_saved {Tables : Type u} {relation : Tables → Tables → Prop}
    {first second : Connection Tables} (hmirrors : first.Mirrors relation second) :
    first.saved.isSome = second.saved.isSome := by
  have hsaved := hmirrors.saved
  generalize first.saved = kept at hsaved ⊢
  generalize second.saved = other at hsaved ⊢
  cases hsaved with
  | some => rfl
  | none => rfl

/-- Two endings are of the same kind and their values agree. -/
def Ending.Agrees {Status : Type v} {Value : Type w} (same : Value → Value → Prop) :
    Ending Status Value → Ending Status Value → Prop
  | .commit first, .commit second => same first second
  | .rollback first, .rollback second => same first second
  | .refuse first, .refuse second => first = second
  | _, _ => False

namespace Program

variable {Tables : Type u} {Status : Type v} {Value Next : Type w}
  {relation : Tables → Tables → Prop}

/-- Two outcomes are the same status, or values that agree. -/
def Agree (same : Value → Value → Prop) : Except Status Value → Except Status Value → Prop
  | .ok first, .ok second => same first second
  | .error first, .error second => first = second
  | _, _ => False

/-- Two outcomes of which the values agree by being equal are equal. -/
theorem Agree.eq {first second : Except Status Value} (hagree : Agree Eq first second) :
    first = second := by
  cases first with
  | ok =>
    cases second with
    | ok => exact congrArg Except.ok hagree
    | error => cases hagree
  | error =>
    cases second with
    | ok => cases hagree
    | error => exact congrArg Except.error hagree

/-- From connections that mirror each other, outcomes that agree and connections that do so
again. -/
def Mirrored (relation : Tables → Tables → Prop) (same : Value → Value → Prop)
    (first second : Program Tables Status Value) : Prop :=
  ∀ left right : Connection Tables, left.Mirrors relation right →
    Agree same (first left).1 (second right).1 ∧ (first left).2.Mirrors relation (second right).2

namespace Mirrored

variable {same : Value → Value → Prop} {alike : Next → Next → Prop}
  {first second : Program Tables Status Value}
  {firstNext secondNext : Value → Program Tables Status Next} {failure : Status}

theorem pure {first second : Value} (hsame : same first second) :
    Mirrored relation same (Pure.pure first : Program Tables Status Value) (Pure.pure second) :=
  fun _ _ hmirrors => ⟨hsame, hmirrors⟩

theorem fail (status : Status) :
    Mirrored relation same (Program.fail status : Program Tables Status Value)
      (Program.fail status) :=
  fun _ _ hmirrors => ⟨rfl, hmirrors⟩

/-- An attempt at two programs in a row: the first may end both of them. -/
theorem bind_attempt {ended : Except Status Next → Except Status Next → Prop}
    (hprogram : Mirrored relation same first second)
    (herror : ∀ status, ended (.error status) (.error status))
    (hnext : ∀ value other, same value other →
      Mirrored relation ended (firstNext value).attempt (secondNext other).attempt) :
    Mirrored relation ended (first >>= firstNext).attempt (second >>= secondNext).attempt := by
  intro left right hmirrors
  obtain ⟨hagree, hreached⟩ := hprogram left right hmirrors
  show ended (Program.bind first firstNext left).1 (Program.bind second secondNext right).1 ∧
    (Program.bind first firstNext left).2.Mirrors relation (Program.bind second secondNext right).2
  unfold Program.bind
  cases hleft : first left with
  | mk outcome conn =>
    cases hright : second right with
    | mk other later =>
      rw [hleft, hright] at hagree hreached
      match outcome, other, hagree with
      | .ok value, .ok answer, hvalues => exact hnext value answer hvalues conn later hreached
      | .error status, .error _, hstatus =>
        exact ⟨hstatus ▸ herror status, hreached⟩

theorem bind (hprogram : Mirrored relation same first second)
    (hnext : ∀ value other, same value other →
      Mirrored relation alike (firstNext value) (secondNext other)) :
    Mirrored relation alike (first >>= firstNext) (second >>= secondNext) :=
  @bind_attempt _ _ _ _ _ _ _ _ _ _ (Agree alike) hprogram (fun _ => rfl) hnext

/-- The rest of a program runs on one value on both sides. -/
theorem bind_eq (hprogram : Mirrored relation Eq first second)
    (hnext : ∀ value, Mirrored relation alike (firstNext value) (secondNext value)) :
    Mirrored relation alike (first >>= firstNext) (second >>= secondNext) :=
  hprogram.bind fun value _ hvalue => hvalue ▸ hnext value

theorem mono {wider : Value → Value → Prop} (hprogram : Mirrored relation same first second)
    (hle : ∀ value other, same value other → wider value other) :
    Mirrored relation wider first second := by
  intro left right hmirrors
  obtain ⟨hagree, hreached⟩ := hprogram left right hmirrors
  refine ⟨?_, hreached⟩
  revert hagree
  cases (first left).1 with
  | ok value =>
    cases (second right).1 with
    | ok other => exact hle value other
    | error => exact id
  | error =>
    cases (second right).1 with
    | ok => exact id
    | error => exact id

theorem require {condition : Bool} {status : Status} :
    Mirrored relation Eq (Program.require condition status : Program Tables Status PUnit)
      (Program.require condition status) := by
  cases condition with
  | true => exact pure rfl
  | false => exact fail status

theorem onlyIf {condition : Bool} {first second : Program Tables Status PUnit}
    (hprogram : Mirrored relation Eq first second) :
    Mirrored relation Eq (first.onlyIf condition) (second.onlyIf condition) := by
  cases condition with
  | true => exact hprogram
  | false => exact pure rfl

theorem attempt (hprogram : Mirrored relation same first second) :
    Mirrored relation (Agree same) first.attempt second.attempt :=
  hprogram

theorem ignoring (hprogram : Mirrored relation same first second) :
    Mirrored relation Eq first.ignoring second.ignoring :=
  hprogram.bind fun _ _ _ => pure rfl

/-- A statement reads alike on related tables and leaves related tables. -/
theorem statement {first second : Tables → Value × Tables}
    (hrun : ∀ left right, relation left right →
      same (first left).1 (second right).1 ∧ relation (first left).2 (second right).2) :
    Mirrored relation same (Program.statement failure first)
      (Program.statement failure second) := by
  intro left right hmirrors
  unfold Program.statement
  rw [hmirrors.faults]
  split
  · exact ⟨rfl, hmirrors.tables, hmirrors.saved, rfl⟩
  obtain ⟨hsame, hrelated⟩ := hrun left.tables right.tables hmirrors.tables
  exact ⟨hsame, hrelated, hmirrors.saved, rfl⟩

end Mirrored

variable {failure : Status} {value other : Value} {left right : Connection Tables}
  {same : Value → Value → Prop}

theorem mirrors_rollback (hmirrors : left.Mirrors relation right) :
    (rollback left).Mirrors relation (rollback right) := by
  refine ⟨?_, .none, hmirrors.faults⟩
  obtain ⟨tables, saved, faults⟩ := left
  obtain ⟨others, kept, rest⟩ := right
  cases hmirrors.saved with
  | some hsaved => exact hsaved
  | none => exact hmirrors.tables

theorem mirrors_commit (hmirrors : left.Mirrors relation right) :
    (commit failure value left).2.Mirrors relation (commit failure other right).2 := by
  unfold commit
  rw [hmirrors.faults, hmirrors.isSome_saved]
  split
  · exact ⟨(mirrors_rollback hmirrors).tables, .none, rfl⟩
  · exact ⟨hmirrors.tables, .none, rfl⟩

theorem agree_commit (hmirrors : left.Mirrors relation right) (hsame : same value other) :
    Agree same (commit failure value left).1 (commit failure other right).1 := by
  unfold commit
  rw [hmirrors.faults, hmirrors.isSome_saved]
  split
  · rfl
  · exact hsame

namespace Mirrored

variable {first second : Program Tables Status (Ending Status Value)}

/-- Transactions mirror each other when their bodies end so that settling them does. -/
theorem transaction_settled {ended : Except Status Value → Except Status Value → Prop}
    {same : Except Status (Ending Status Value) → Except Status (Ending Status Value) → Prop}
    (herror : ended (.error failure) (.error failure))
    (hbody : Mirrored relation same first.attempt second.attempt)
    (hsettle : ∀ one two, same one.1 two.1 → one.2.Mirrors relation two.2 →
      ended (settle failure one).1 (settle failure two).1 ∧
        (settle failure one).2.Mirrors relation (settle failure two).2) :
    Mirrored relation ended (Program.transaction failure first).attempt
      (Program.transaction failure second).attempt := by
  intro left right hmirrors
  show ended (Program.transaction failure first left).1
      (Program.transaction failure second right).1 ∧
    (Program.transaction failure first left).2.Mirrors relation
      (Program.transaction failure second right).2
  unfold Program.transaction
  dsimp only
  rw [hmirrors.faults, hmirrors.isSome_saved]
  split
  · exact ⟨herror, hmirrors.tables, hmirrors.saved, rfl⟩
  obtain ⟨hsame, hreached⟩ := hbody
    ⟨left.tables, some left.tables, right.faults.tail⟩
    ⟨right.tables, some right.tables, right.faults.tail⟩
    ⟨hmirrors.tables, .some hmirrors.tables, rfl⟩
  exact hsettle _ _ hsame hreached

/-- Transactions mirror each other when their bodies do. -/
theorem transaction (hbody : Mirrored relation (Ending.Agrees same) first second) :
    Mirrored relation same (Program.transaction failure first)
      (Program.transaction failure second) := by
  refine show Mirrored relation (Agree same) (Program.transaction failure first).attempt _ from
    transaction_settled rfl hbody.attempt fun one two hagree hreached => ?_
  match one, two, hagree, hreached with
  | (.error _, _), (.error _, _), hstatus, hreached =>
    exact ⟨hstatus, mirrors_rollback hreached⟩
  | (.ok (.refuse _), _), (.ok (.refuse _), _), hstatus, hreached =>
    exact ⟨hstatus, @mirrors_commit _ _ PUnit _ failure ⟨⟩ ⟨⟩ _ _ hreached⟩
  | (.ok (.rollback _), _), (.ok (.rollback _), _), hsame, hreached =>
    exact ⟨hsame, mirrors_rollback hreached⟩
  | (.ok (.commit _), _), (.ok (.commit _), _), hsame, hreached =>
    exact ⟨agree_commit hreached hsame, mirrors_commit hreached⟩

/-- A body that does not fail asks for what it wrote to be undone. -/
def Undone : Except Status (Ending Status Value) → Prop
  | .error _ | .ok (.rollback _) => True
  | .ok (.commit _) | .ok (.refuse _) => False

theorem settle_undone {result : Except Status (Ending Status Value) × Connection Tables}
    (hundone : Undone result.1) :
    settle failure result = (result.1.bind Ending.outcome, rollback result.2) := by
  rcases result with ⟨_ | _ | _ | _, conn⟩
  · rfl
  · exact hundone.elim
  · rfl
  · exact hundone.elim

/-- Transactions that keep nothing mirror each other even when one of them fails and the other
is rolled back. -/
theorem transaction_undone {ended : Except Status Value → Except Status Value → Prop}
    (herror : ended (.error failure) (.error failure))
    (hbody : Mirrored relation
      (fun one two => ended (one.bind Ending.outcome) (two.bind Ending.outcome) ∧
        Undone one ∧ Undone two)
      first.attempt second.attempt) :
    Mirrored relation ended (Program.transaction failure first).attempt
      (Program.transaction failure second).attempt := by
  refine transaction_settled herror hbody fun one two ⟨hended, hone, htwo⟩ hreached => ?_
  rw [settle_undone hone, settle_undone htwo]
  exact ⟨hended, mirrors_rollback hreached⟩

end Mirrored

end Program

end Foundation
