/-
# Programs over a database connection

A program runs statements one after another on a connection. Any statement may
fail; which ones do is decided in advance by the connection's list of faults. A
transaction keeps the tables it started from and goes back to them when its body
or its commit fails, or when a statement of it fails so badly that the database
ends the transaction by itself (`Severity`). Two kinds of facts about programs are
composed below: what relates the tables before and after whatever the outcome
(`Moves`), and what outcome and tables a run from given tables can end in (`Ends`).
-/

import Mathlib.Data.List.Basic
import Mathlib.Order.Defs.Unbundled

universe u v w

namespace Foundation

/-- The tables the next statement sees, those to go back to while a transaction is open,
and for each of the next statements whether it fails. -/
structure Connection (Tables : Type u) where
  tables : Tables
  saved : Option Tables
  faults : List Bool
deriving DecidableEq

/-- Which of the statements that fail also end the open transaction, as a database may do that
is out of memory or cannot read its file. A statement is told by the faults ahead of it. -/
class Severity where
  ends : List Bool → Bool

/-- Unless it is said otherwise, a statement that fails leaves the transaction open. -/
instance (priority := low) Severity.mild : Severity where
  ends _ := false

/-- A program returns a value or ends with a status; either way it hands the connection on. -/
def Program (Tables : Type u) (Status : Type v) (Value : Type w) :=
  Connection Tables → Except Status Value × Connection Tables

/-- How the body of a transaction that has not failed wants it to end: what it wrote is kept, is
not kept, or is kept although a status is reported. -/
inductive Ending (Status : Type v) (Value : Type w) where
  | commit (value : Value)
  | rollback (value : Value)
  | refuse (status : Status)

/-- What an ending reports. -/
def Ending.outcome {Status : Type v} {Value : Type w} : Ending Status Value → Except Status Value
  | commit value | rollback value => .ok value
  | refuse status => .error status

/-- What an ending makes of the tables a transaction started from: a rollback keeps nothing of
what was written. -/
def Ending.Settles {Tables : Type u} {Status : Type v} {Value : Type w} (tables : Tables)
    (goal : Value → Tables → Prop) (refused : Status → Tables → Prop) :
    Ending Status Value → Tables → Prop
  | commit value, after => goal value after
  | rollback value, _ => goal value tables
  | refuse status, after => refused status after

variable {condition : Bool}

namespace Program

variable {Tables : Type u} {Status : Type v} {Value Next : Type w}

/-- Return a value without a statement. -/
protected def pure (value : Value) : Program Tables Status Value :=
  fun conn => (.ok value, conn)

/-- Run a program and continue with its value. -/
protected def bind (program : Program Tables Status Value)
    (next : Value → Program Tables Status Next) : Program Tables Status Next :=
  fun conn =>
    match program conn with
    | (.ok value, conn) => next value conn
    | (.error status, conn) => (.error status, conn)

instance : Monad (Program Tables Status) where
  pure := Program.pure
  bind := Program.bind

/-- End with a status. -/
def fail (status : Status) : Program Tables Status Value := fun conn => (.error status, conn)

/-- Go on only if a condition holds. -/
def require (condition : Bool) (status : Status) : Program Tables Status PUnit :=
  if condition then pure ⟨⟩ else fail status

/-- Run a program only if a condition holds. -/
def onlyIf (condition : Bool) (program : Program Tables Status PUnit) :
    Program Tables Status PUnit :=
  if condition then program else pure ⟨⟩

/-- Hand on the outcome of a program as a value. -/
def attempt (program : Program Tables Status Value) : Program Tables Status (Except Status Value) :=
  fun conn => (.ok (program conn).1, (program conn).2)

/-- Run a program for its effect only. -/
def ignoring (program : Program Tables Status Value) : Program Tables Status PUnit.{w + 1} :=
  program >>= fun _ => pure ⟨⟩

/-- Report another status for each status of a program. -/
def mapStatus {Reported : Type v} (report : Status → Reported)
    (program : Program Tables Status Value) : Program Tables Reported Value :=
  fun conn => ((program conn).1.mapError report, (program conn).2)

/-- Go back to the tables the open transaction started from. -/
def rollback (conn : Connection Tables) : Connection Tables :=
  { conn with tables := conn.saved.getD conn.tables, saved := none }

/-- A statement that returns a value and changes the tables, unless it is its turn to fail. -/
def statement [Severity] (failure : Status) (run : Tables → Value × Tables) :
    Program Tables Status Value :=
  fun conn =>
    let rest := conn.faults.tail
    if conn.faults.headD false then
      (.error failure,
        { (if Severity.ends rest then rollback conn else conn) with faults := rest })
    else
      ((.ok (run conn.tables).1),
        { conn with tables := (run conn.tables).2, faults := rest })

/-- Make what the open transaction wrote permanent, unless it is the commit's turn to fail or the
transaction has been ended. -/
def commit (failure : Status) (value : Value) (conn : Connection Tables) :
    Except Status Value × Connection Tables :=
  if !conn.saved.isSome || conn.faults.headD false then
    (.error failure, { rollback conn with faults := conn.faults.tail })
  else (.ok value, { conn with saved := none, faults := conn.faults.tail })

/-- End a transaction as its body wants, if the body has not failed. The status of a refusal is
reported whether or not the commit succeeds. -/
def settle (failure : Status) : Except Status (Ending Status Value) × Connection Tables →
    Except Status Value × Connection Tables
  | (.error status, conn) => (.error status, rollback conn)
  | (.ok (.commit value), conn) => commit failure value conn
  | (.ok (.rollback value), conn) => (.ok value, rollback conn)
  | (.ok (.refuse status), conn) => (.error status, (commit failure PUnit.unit.{w + 1} conn).2)

/-- Open a transaction, run a body in it, and commit or roll back. -/
def transaction (failure : Status) (body : Program Tables Status (Ending Status Value)) :
    Program Tables Status Value :=
  fun conn =>
    let rest := conn.faults.tail
    if conn.saved.isSome || conn.faults.headD false then
      (.error failure, { conn with faults := rest })
    else settle failure (body ⟨conn.tables, some conn.tables, rest⟩)

/-! ## What a program can do to the tables -/

variable {relation : Tables → Tables → Prop} {program : Program Tables Status Value}
  {next : Value → Program Tables Status Next} {failure status : Status}
  {run : Tables → Value × Tables} {conn : Connection Tables} {value : Value}
  {body : Program Tables Status (Ending Status Value)}

/-- A sequence goes on with the value of its first part, or ends as that does. -/
theorem bind_cases (program : Program Tables Status Value)
    (next : Value → Program Tables Status Next) (conn : Connection Tables) :
    (∃ value reached, program conn = (.ok value, reached) ∧
      (program >>= next) conn = next value reached) ∨
    ∃ status reached, program conn = (.error status, reached) ∧
      (program >>= next) conn = (.error status, reached) := by
  show (∃ value reached, _ ∧ Program.bind program next conn = _) ∨
    ∃ status reached, _ ∧ Program.bind program next conn = _
  unfold Program.bind
  cases hrun : program conn with
  | mk outcome reached =>
    cases outcome with
    | ok value => exact .inl ⟨value, reached, rfl, rfl⟩
    | error status => exact .inr ⟨status, reached, rfl, rfl⟩

/-- The tables before and after are related, and no transaction is opened or closed. -/
structure Moves (relation : Tables → Tables → Prop) (program : Program Tables Status Value) :
    Prop where
  related : ∀ conn, relation conn.tables (program conn).2.tables
  saved : ∀ conn, (program conn).2.saved = conn.saved

namespace Moves

theorem pure [Std.Refl relation] (value : Value) :
    Moves relation (Pure.pure value : Program Tables Status Value) :=
  ⟨fun conn => refl conn.tables, fun _ => rfl⟩

theorem fail [Std.Refl relation] (status : Status) :
    Moves relation (Program.fail status : Program Tables Status Value) :=
  ⟨fun conn => refl conn.tables, fun _ => rfl⟩

/-- What is required may be used for the rest. -/
theorem require_bind [Std.Refl relation] {next : PUnit → Program Tables Status Next}
    (hnext : condition = true → Moves relation (next ⟨⟩)) :
    Moves relation (Program.require condition status >>= next) := by
  cases condition with
  | true => exact hnext rfl
  | false => exact fail status

theorem onlyIf [Std.Refl relation] {program : Program Tables Status PUnit}
    (hprogram : condition = true → Moves relation program) :
    Moves relation (program.onlyIf condition) := by
  cases condition with
  | true => exact hprogram rfl
  | false => exact pure PUnit.unit

theorem attempt (hprogram : Moves relation program) : Moves relation program.attempt :=
  ⟨hprogram.related, hprogram.saved⟩

end Moves

/-! ## Where a program ends

`Moves` forgets what a program has read and how it ended. Where a later statement is harmless
only because of what an earlier one found, or where only a successful program is known to have
done something, the run is followed from the tables it starts from. -/

/-- What a run ends in that was started with a transaction open or not: it meets the goal and
no transaction was opened or closed; or a statement of it has failed, and has ended the open
transaction and the run. -/
def Reaches [Severity] (saved : Option Tables) (goal : Except Status Value → Tables → Prop)
    (result : Except Status Value × Connection Tables) : Prop :=
  goal result.1 result.2.tables ∧ result.2.saved = saved ∨
    ∃ rest status, Severity.ends rest = true ∧ result.1 = .error status ∧
      saved = some result.2.tables ∧ result.2.saved = none

/-- From the given tables, outcome and tables at the end meet the goal, and no transaction is
opened or closed, unless a statement that fails ends it. -/
structure Ends [Severity] (tables : Tables) (goal : Except Status Value → Tables → Prop)
    (program : Program Tables Status Value) : Prop where
  run : ∀ conn, conn.tables = tables → Reaches conn.saved goal (program conn)

/-- A goal for the value of a program that succeeds, and one for the tables of one that fails. -/
def Settled (goal : Value → Tables → Prop) (failed : Tables → Prop) :
    Except Status Value → Tables → Prop
  | .ok value, after => goal value after
  | .error _, after => failed after

/-- A program that succeeds from the given tables meets the goal, and no transaction is opened
or closed. Inside a transaction only the successful runs matter, since any other is undone. -/
def Yields [Severity] (tables : Tables) (goal : Value → Tables → Prop)
    (program : Program Tables Status Value) : Prop :=
  Ends tables (Settled goal fun _ => True) program

/-- A program that succeeds from the given tables meets the goal, and one that does not leaves
the tables as they are. -/
def Atomically [Severity] (tables : Tables) (goal : Value → Tables → Prop)
    (program : Program Tables Status Value) : Prop :=
  Ends tables (Settled goal fun after => after = tables) program

theorem Settled.mono {goal wider : Value → Tables → Prop} {failed later : Tables → Prop}
    {outcome : Except Status Value} {after : Tables} (hsettled : Settled goal failed outcome after)
    (hle : ∀ value after, goal value after → wider value after)
    (hfailed : ∀ after, failed after → later after) : Settled wider later outcome after := by
  cases outcome with
  | ok value => exact hle value after hsettled
  | error => exact hfailed after hsettled

variable {tables : Tables} {goal : Except Status Value → Tables → Prop}

section Mild

variable (hends : Ends tables goal program) (conn : Connection Tables)
  (htables : conn.tables = tables)

include hends htables

theorem Ends.result : goal (program conn).1 (program conn).2.tables ∧
    (program conn).2.saved = conn.saved :=
  (hends.run conn htables).resolve_right fun ⟨_, _, hmild, _⟩ => Bool.false_ne_true hmild

theorem Ends.reached : goal (program conn).1 (program conn).2.tables :=
  (hends.result conn htables).1

theorem Ends.saved : (program conn).2.saved = conn.saved := (hends.result conn htables).2

end Mild

section Mild

variable {goal : Value → Tables → Prop} {conn : Connection Tables}
  (hprogram : Atomically conn.tables goal program)

include hprogram

theorem Atomically.goal_of_ok {value : Value} (hvalue : (program conn).1 = .ok value) :
    goal value (program conn).2.tables := by
  have hreached := Ends.reached hprogram conn rfl
  rwa [hvalue] at hreached

theorem Atomically.kept_of_error {status : Status} (hfailed : (program conn).1 = .error status) :
    (program conn).2.tables = conn.tables := by
  have hreached := Ends.reached hprogram conn rfl
  rwa [hfailed] at hreached

end Mild

section Severe

variable [Severity]

namespace Ends

variable {last : Except Status Next → Tables → Prop}

/-- Outside a transaction there is none to be ended. -/
theorem result_of_closed (hends : Ends tables goal program) (htables : conn.tables = tables)
    (hclosed : conn.saved = none) :
    goal (program conn).1 (program conn).2.tables ∧ (program conn).2.saved = none := by
  rcases hends.run conn htables with hgoal | ⟨_, _, -, -, hopen, -⟩
  · exact hclosed ▸ hgoal
  · rw [hclosed] at hopen
    cases hopen

/-- A run is described by its outcome, its tables and the transaction that stays open. -/
theorem intro (hrun : ∀ conn, conn.tables = tables →
      goal (program conn).1 (program conn).2.tables ∧ (program conn).2.saved = conn.saved) :
    Ends tables goal program :=
  ⟨fun conn htables => .inl (hrun conn htables)⟩

theorem of_moves (hmoves : Moves relation program)
    (hgoal : ∀ outcome after, relation tables after → goal outcome after) :
    Ends tables goal program := by
  refine .intro ?_
  rintro conn rfl
  exact ⟨hgoal _ _ (hmoves.related conn), hmoves.saved conn⟩

theorem pure (hgoal : goal (.ok value) tables) :
    Ends tables goal (Pure.pure value : Program Tables Status Value) :=
  .intro fun _ htables => ⟨htables ▸ hgoal, rfl⟩

theorem fail (hgoal : goal (.error status) tables) :
    Ends tables goal (Program.fail status : Program Tables Status Value) :=
  .intro fun _ htables => ⟨htables ▸ hgoal, rfl⟩

theorem mono {wider : Except Status Value → Tables → Prop} (hprogram : Ends tables goal program)
    (hle : ∀ outcome after, goal outcome after → wider outcome after) : Ends tables wider program :=
  ⟨fun conn htables => (hprogram.run conn htables).imp_left (And.imp_left (hle _ _))⟩

theorem bind (hprogram : Ends tables goal program)
    (herror : ∀ status after, goal (.error status) after → last (.error status) after)
    (hnext : ∀ value after, goal (.ok value) after → Ends after last (next value)) :
    Ends tables last (program >>= next) := by
  refine ⟨fun conn htables => ?_⟩
  have hfirst := hprogram.run conn htables
  rcases bind_cases program next conn with
    ⟨value, reached, hrun, hbind⟩ | ⟨status, reached, hrun, hbind⟩
  · rw [hrun] at hfirst
    rw [hbind]
    rcases hfirst with ⟨hgoal, hsaved⟩ | ⟨_, _, -, hfailed, -⟩
    · exact hsaved ▸ (hnext value _ hgoal).run reached rfl
    · cases hfailed
  · rw [hrun] at hfirst
    rw [hbind]
    rcases hfirst with ⟨hgoal, hsaved⟩ | ⟨rest, _, hends, -, hended⟩
    · exact .inl ⟨herror status _ hgoal, hsaved⟩
    · exact .inr ⟨rest, status, hends, rfl, hended⟩

/-- A statement that fails leaves the tables. -/
theorem statement (hfail : goal (.error failure) tables)
    (hgoal : goal (.ok (run tables).1) (run tables).2) :
    Ends tables goal (Program.statement failure run) := by
  constructor
  rintro conn rfl
  unfold Program.statement
  dsimp only
  split
  · split
    · rename_i hends
      cases hsaved : conn.saved with
      | none => exact .inl ⟨by simpa [Program.rollback, hsaved] using hfail, rfl⟩
      | some => exact .inr ⟨_, _, hends, rfl, by simp [Program.rollback, hsaved], rfl⟩
    · exact .inl ⟨hfail, rfl⟩
  · exact .inl ⟨hgoal, rfl⟩

/-- Unless the statement fails, the rest runs on what it has read and changed. -/
theorem statement_bind (hfail : last (.error failure) tables)
    (hnext : Ends (run tables).2 last (next (run tables).1)) :
    Ends tables last (Program.statement failure run >>= next) := by
  have hfirst : Ends tables (fun outcome after =>
        match outcome with
        | .ok value => value = (run tables).1 ∧ after = (run tables).2
        | .error status => status = failure ∧ after = tables)
      (Program.statement failure run) := statement ⟨rfl, rfl⟩ ⟨rfl, rfl⟩
  refine hfirst.bind ?_ ?_
  · rintro status after ⟨rfl, rfl⟩
    exact hfail
  rintro value after ⟨rfl, rfl⟩
  exact hnext

theorem require_bind {next : PUnit → Program Tables Status Next}
    (hfail : last (.error status) tables) (hnext : condition = true → Ends tables last (next ⟨⟩)) :
    Ends tables last (Program.require condition status >>= next) := by
  cases condition with
  | true => exact hnext rfl
  | false => exact .intro fun _ htables => ⟨htables ▸ hfail, rfl⟩

theorem mapStatus {Reported : Type v} {report : Status → Reported}
    {reported : Except Reported Value → Tables → Prop}
    (hprogram :
      Ends tables (fun outcome after => reported (outcome.mapError report) after) program) :
    Ends tables reported (program.mapStatus report) := by
  refine ⟨fun conn htables => (hprogram.run conn htables).imp_right ?_⟩
  rintro ⟨rest, status, hends, hfailed, hended⟩
  refine ⟨rest, report status, hends, ?_, hended⟩
  unfold Program.mapStatus
  rw [hfailed]
  rfl

/-- A program whose failures are reported in other words, and the rest. -/
theorem mapStatus_bind {Reported : Type v} {report : Status → Reported}
    {next : Value → Program Tables Reported Next} {last : Except Reported Next → Tables → Prop}
    (hprogram : Ends tables goal program)
    (herror : ∀ status after, goal (.error status) after → last (.error (report status)) after)
    (hnext : ∀ value after, goal (.ok value) after → Ends after last (next value)) :
    Ends tables last (program.mapStatus report >>= next) := by
  have hmapped : Ends tables
      (fun outcome after => ∃ own, own.mapError report = outcome ∧ goal own after)
      (program.mapStatus report) := .mapStatus (hprogram.mono fun own _ hgoal => ⟨own, rfl, hgoal⟩)
  refine hmapped.bind ?_ ?_
  · rintro _ after ⟨status | _, ⟨⟩, hgoal⟩
    exact herror status after hgoal
  · rintro value after ⟨_ | _, ⟨⟩, hgoal⟩
    exact hnext value after hgoal

omit [Severity] in
theorem commit_saved : (commit failure value conn).2.saved = none := by
  unfold commit
  split <;> rfl

omit [Severity] in
/-- A commit keeps the tables or, if it fails, goes back. -/
theorem commit_ends (hfail : goal (.error failure) (rollback conn).tables)
    (hgoal : conn.saved.isSome = true → goal (.ok value) conn.tables) :
    goal (commit failure value conn).1 (commit failure value conn).2.tables := by
  unfold commit
  split
  · exact hfail
  · rename_i hopen
    refine hgoal (eq_true_of_ne_false fun hclosed => hopen ?_)
    rw [hclosed]
    rfl

/-- What a body makes of a goal for its transaction while the transaction is open. -/
abbrev Inside (tables : Tables) (goal : Except Status Value → Tables → Prop) :
    Ending Status Value → Tables → Prop :=
  Ending.Settles tables (fun value => goal (.ok value)) fun status => goal (.error status)

/-- What it makes of the goal after the transaction was ended: nothing is left to be committed or
rolled back. -/
abbrev Outside (goal : Except Status Value → Tables → Prop)
    (outcome : Except Status (Ending Status Value)) (after : Tables) : Prop :=
  (∀ value, outcome ≠ .ok (.rollback value)) ∧ ∀ status, goal (.error status) after

omit [Severity] in
/-- A body that has ended its transaction with a failure has gone back. -/
theorem outside_of_back {result : Except Status (Ending Status Value) × Connection Tables}
    (herror : ∀ status, goal (.error status) tables) (hfailed : result.1 = .error status)
    (hback : some tables = some result.2.tables) : Outside goal result.1 result.2.tables := by
  refine ⟨fun _ hvalue => ?_, Option.some.inj hback ▸ herror⟩
  rw [hfailed] at hvalue
  cases hvalue

omit [Severity] in
/-- A transaction is settled as its body has left it. -/
theorem settle_ends {result : Except Status (Ending Status Value) × Connection Tables}
    (herror : ∀ status, goal (.error status) tables)
    (hresult : Settled (Inside tables goal) (fun _ => True) result.1 result.2.tables ∧
        result.2.saved = some tables ∨
      Outside goal result.1 result.2.tables ∧ result.2.saved = none) :
    goal (settle failure result).1 (settle failure result).2.tables ∧
      (settle failure result).2.saved = none := by
  obtain ⟨outcome, reached⟩ := result
  rcases hresult with ⟨hinside, hsaved⟩ | ⟨⟨hkeeps, hlost⟩, hsaved⟩
  · have hback : (rollback reached).tables = tables := by
      simp only [rollback, show reached.saved = some tables from hsaved, Option.getD_some]
    rcases outcome with status | value | value | status
    · exact ⟨hback.symm ▸ herror status, rfl⟩
    · exact ⟨commit_ends (hback.symm ▸ herror failure) fun _ => hinside, commit_saved⟩
    · exact ⟨hback.symm ▸ hinside, rfl⟩
    · exact ⟨@commit_ends _ _ _ failure reached _ (fun _ after => goal (.error status) after)
        (hback.symm ▸ herror status) fun _ => hinside, commit_saved⟩
  · have hback : (rollback reached).tables = reached.tables := by
      simp only [rollback, show reached.saved = none from hsaved, Option.getD_none]
    have hclosed : reached.saved.isSome = true → False := by
      simp [show reached.saved = none from hsaved]
    rcases outcome with status | value | value | status
    · exact ⟨hback.symm ▸ hlost status, rfl⟩
    · exact ⟨commit_ends (hback.symm ▸ hlost failure) fun hopen => (hclosed hopen).elim,
        commit_saved⟩
    · exact absurd rfl (hkeeps value)
    · exact ⟨@commit_ends _ _ _ failure reached _ (fun _ after => goal (.error status) after)
        (hback.symm ▸ hlost status) fun hopen => (hclosed hopen).elim, commit_saved⟩

/-- A transaction ends where it began, or as its body has left it. -/
theorem transaction_of_body (herror : ∀ status, goal (.error status) tables)
    (hbody : ∀ conn, conn.tables = tables → conn.saved = some tables →
      Settled (Inside tables goal) (fun _ => True) (body conn).1 (body conn).2.tables ∧
          (body conn).2.saved = some tables ∨
        Outside goal (body conn).1 (body conn).2.tables ∧ (body conn).2.saved = none) :
    Ends tables goal (Program.transaction failure body) := by
  refine .intro ?_
  rintro conn rfl
  unfold Program.transaction
  by_cases hopen : conn.saved.isSome || conn.faults.headD false
  · rw [if_pos hopen]
    exact ⟨herror failure, rfl⟩
  rw [if_neg hopen]
  have hnone : conn.saved = none := by
    cases hsaved : conn.saved with
    | none => rfl
    | some => simp [hsaved] at hopen
  rw [hnone]
  exact settle_ends herror (hbody _ rfl rfl)

/-- A body of which every statement that fails is its last has gone back if the transaction was
ended. -/
theorem transaction (hbody : Yields tables (Inside tables goal) body)
    (herror : ∀ status, goal (.error status) tables) :
    Ends tables goal (Program.transaction failure body) := by
  refine transaction_of_body herror fun conn htables hsaved => ?_
  rcases hsaved ▸ Ends.run hbody conn htables with hgoal | ⟨_, status, -, hfailed, hback, hnone⟩
  · exact .inl hgoal
  · exact .inr ⟨outside_of_back herror hfailed hback, hnone⟩

/-- A body that goes on after a lookup has failed does so on its own if the transaction was
ended. -/
theorem transaction_attempt {Status Value Found Last : Type w}
    {program : Program Tables Status Value} {lookup : Program Tables Status Found}
    {rest : Value → Except Status Found → Program Tables Status (Ending Status Last)}
    {goal : Except Status Last → Tables → Prop} {middle : Value → Tables → Prop}
    {found : Tables → Except Status Found → Tables → Prop} {failure : Status}
    (herror : ∀ status, goal (.error status) tables) (hprogram : Yields tables middle program)
    (hlookup : ∀ after, Ends after (found after) lookup)
    (hrest : ∀ value after outcome reached, middle value after → found after outcome reached →
      Yields reached (Inside tables goal) (rest value outcome))
    (hstray : ∀ ahead value after status, Severity.ends ahead = true → middle value after →
      Ends tables (Outside goal) (rest value (.error status))) :
    Ends tables goal (Program.transaction failure
      (program >>= fun value => lookup.attempt >>= rest value)) := by
  refine transaction_of_body herror fun conn htables hsaved => ?_
  have hfirst := hsaved ▸ Ends.run hprogram conn htables
  rcases bind_cases program (fun value => lookup.attempt >>= rest value) conn with
    ⟨value, reached, hrun, hbind⟩ | ⟨status, reached, hrun, hbind⟩
  · rw [hrun] at hfirst
    rw [hbind]
    rcases hfirst with ⟨hmiddle, hopen⟩ | ⟨_, _, -, hfailed, -⟩
    · have hnext : (lookup.attempt >>= rest value) reached =
          rest value (lookup reached).1 (lookup reached).2 := rfl
      rw [hnext]
      rcases hopen ▸ (hlookup reached.tables).run reached rfl with ⟨hfound, hstill⟩ |
        ⟨ahead, status, hends, hfailed, hback, hnone⟩
      · have hlast := Ends.run (hrest value _ _ _ hmiddle hfound) (lookup reached).2 rfl
        rcases hstill ▸ hlast with hdone | ⟨_, status, -, hfailed, hback, hnone⟩
        · exact .inl hdone
        · exact .inr ⟨outside_of_back herror hfailed hback, hnone⟩
      · rw [hfailed]
        exact .inr ((hstray ahead value _ status hends hmiddle).result_of_closed
          (Option.some.inj hback).symm hnone)
    · cases hfailed
  · rw [hrun] at hfirst
    rw [hbind]
    rcases hfirst with ⟨-, hopen⟩ | ⟨_, _, -, -, hback, hnone⟩
    · exact .inl ⟨trivial, hopen⟩
    · exact .inr ⟨outside_of_back herror rfl hback, hnone⟩

end Ends

end Severe

variable {last : Next → Tables → Prop} {goal : Value → Tables → Prop}

section

variable [Severity]

namespace Yields

theorem pure (hgoal : goal value tables) :
    Yields tables goal (Pure.pure value : Program Tables Status Value) := Ends.pure hgoal

theorem fail : Yields tables goal (Program.fail status : Program Tables Status Value) :=
  Ends.fail trivial

theorem mono {wider : Value → Tables → Prop} (hprogram : Yields tables goal program)
    (hle : ∀ value after, goal value after → wider value after) : Yields tables wider program :=
  Ends.mono hprogram fun _ _ hgoal => hgoal.mono hle fun _ _ => trivial

theorem bind (hprogram : Yields tables goal program)
    (hnext : ∀ value after, goal value after → Yields after last (next value)) :
    Yields tables last (program >>= next) :=
  Ends.bind hprogram (fun _ _ _ => trivial) hnext

theorem statement_bind (hnext : Yields (run tables).2 last (next (run tables).1)) :
    Yields tables last (Program.statement failure run >>= next) :=
  Ends.statement_bind trivial hnext

variable {next : PUnit → Program Tables Status Next}

theorem require_bind (hnext : condition = true → Yields tables last (next ⟨⟩)) :
    Yields tables last (Program.require condition status >>= next) :=
  Ends.require_bind trivial hnext

theorem onlyIf_bind {program : Program Tables Status PUnit}
    (htrue : condition = true → Yields tables last (program >>= next))
    (hfalse : condition = false → Yields tables last (next ⟨⟩)) :
    Yields tables last (program.onlyIf condition >>= next) := by
  cases condition with
  | true => exact htrue rfl
  | false => exact hfalse rfl

variable {start : Tables} {refused : Status → Tables → Prop}

/-- The end of a transaction that keeps what was written. -/
theorem commit (hgoal : goal value tables) :
    Yields tables (Ending.Settles start goal refused)
      (Pure.pure (.commit value) : Program Tables Status (Ending Status Value)) :=
  pure hgoal

/-- The end of a transaction that keeps nothing. -/
theorem rollback (hgoal : goal value start) :
    Yields tables (Ending.Settles start goal refused)
      (Pure.pure (.rollback value) : Program Tables Status (Ending Status Value)) :=
  pure hgoal

/-- The end of a transaction that keeps what was written and reports a status. -/
theorem refuse (hrefused : refused status tables) :
    Yields tables (Ending.Settles start goal refused)
      (Pure.pure (.refuse status) : Program Tables Status (Ending Status Value)) :=
  pure hrefused

end Yields

namespace Atomically

theorem mono {wider : Value → Tables → Prop} (hprogram : Atomically tables goal program)
    (hle : ∀ value after, goal value after → wider value after) : Atomically tables wider program :=
  Ends.mono hprogram fun _ _ hgoal => hgoal.mono hle fun _ hkept => hkept

theorem pure (hgoal : goal value tables) :
    Atomically tables goal (Pure.pure value : Program Tables Status Value) := Ends.pure hgoal

theorem fail : Atomically tables goal (Program.fail status : Program Tables Status Value) :=
  Ends.fail rfl

theorem statement (hgoal : goal (run tables).1 (run tables).2) :
    Atomically tables goal (Program.statement failure run) := Ends.statement rfl hgoal

/-- A statement may be the last thing before a program returns. -/
theorem statement_return {result : Value → Next}
    (hgoal : last (result (run tables).1) (run tables).2) :
    Atomically tables last
      (Program.statement failure run >>= fun value => Pure.pure (result value)) :=
  Ends.statement_bind rfl (.pure hgoal)

/-- A statement that only reads may come before anything. -/
theorem read_bind (hread : (run tables).2 = tables)
    (hnext : Atomically tables last (next (run tables).1)) :
    Atomically tables last (Program.statement failure run >>= next) :=
  Ends.statement_bind rfl (hread.symm ▸ hnext)

theorem require_bind {next : PUnit → Program Tables Status Next}
    (hnext : condition = true → Atomically tables last (next ⟨⟩)) :
    Atomically tables last (Program.require condition status >>= next) :=
  Ends.require_bind rfl hnext

/-- A transaction is applied as a whole or not at all. -/
theorem transaction
    (hbody : Yields tables (Ending.Settles tables goal fun _ after => after = tables) body) :
    Atomically tables goal (Program.transaction failure body) :=
  Ends.transaction hbody fun _ => rfl

section

variable (hprogram : Atomically tables goal program)

include hprogram

theorem yields : Yields tables goal program :=
  Ends.mono hprogram fun _ _ hgoal => hgoal.mono (fun _ _ hvalue => hvalue) fun _ _ => trivial

/-- A program may be the last thing before another returns. -/
theorem bind_return {result : Value → Next}
    (hlast : ∀ value after, goal value after → last (result value) after) :
    Atomically tables last (program >>= fun value => Pure.pure (result value)) :=
  Ends.bind hprogram (fun _ _ hkept => hkept) fun value after hgoal =>
    .pure (hlast value after hgoal)

theorem ignoring : Atomically tables (fun _ after => ∃ value, goal value after) program.ignoring :=
  hprogram.bind_return fun value _ hgoal => ⟨value, hgoal⟩

end

end Atomically

end

theorem Moves.of_ends
    (hends : ∀ tables, Ends tables (fun _ after => relation tables after) program) :
    Moves relation program :=
  ⟨fun conn => (hends conn.tables).reached conn rfl, fun conn => (hends conn.tables).saved conn rfl⟩

theorem Moves.bind [IsTrans Tables relation] (hprogram : Moves relation program)
    (hnext : ∀ value, Moves relation (next value)) : Moves relation (program >>= next) :=
  .of_ends fun _ => (Ends.of_moves hprogram fun _ _ hrelated => hrelated).bind
    (fun _ _ hrelated => hrelated) fun value _ hrelated =>
      .of_moves (hnext value) fun _ _ hlater => IsTrans.trans _ _ _ hrelated hlater

theorem Moves.ignoring [Std.Refl relation] [IsTrans Tables relation]
    (hprogram : Moves relation program) : Moves relation program.ignoring :=
  .bind hprogram fun _ => .pure PUnit.unit

theorem Moves.statement [Std.Refl relation] (hrun : ∀ tables, relation tables (run tables).2) :
    Moves relation (Program.statement failure run) :=
  .of_ends fun tables => .statement (refl tables) (hrun tables)

/-- A transaction does what its body does, or nothing. -/
theorem Moves.transaction [Std.Refl relation] (hbody : Moves relation body) :
    Moves relation (Program.transaction failure body) := by
  refine .of_ends fun tables => .transaction (.of_moves hbody fun outcome after hrelated => ?_)
    fun _ => refl tables
  rcases outcome with _ | _ | _ | _
  · trivial
  · exact hrelated
  · exact refl tables
  · exact hrelated

/-! ## What a program returns -/

/-- A sequence that returns a value has run through. -/
theorem ok_of_bind {last : Next} (hlast : ((program >>= next) conn).1 = .ok last) :
    ∃ value reached, program conn = (.ok value, reached) ∧ (next value reached).1 = .ok last := by
  rcases bind_cases program next conn with ⟨value, reached, hrun, hbind⟩ | ⟨_, _, -, hbind⟩
  · exact ⟨value, reached, hrun, by rw [← hbind, hlast]⟩
  rw [hbind] at hlast
  cases hlast

/-- Every value a program returns has a property, whatever the connection. -/
def Returns (property : Value → Prop) (program : Program Tables Status Value) : Prop :=
  ∀ conn value, (program conn).1 = .ok value → property value

namespace Returns

variable {property : Value → Prop}

theorem pure (hvalue : property value) :
    Returns property (Pure.pure value : Program Tables Status Value) := by
  intro conn other hother
  obtain rfl : value = other := Except.ok.inj hother
  exact hvalue

theorem fail : Returns property (Program.fail status : Program Tables Status Value) := by
  intro _ _ hvalue
  cases hvalue

theorem bind {program : Program Tables Status Next} {next : Next → Program Tables Status Value}
    (hnext : ∀ value, Returns property (next value)) : Returns property (program >>= next) := by
  intro conn value hvalue
  obtain ⟨middle, reached, -, hnextValue⟩ := ok_of_bind hvalue
  exact hnext middle reached value hnextValue

theorem require_bind {next : PUnit.{w + 1} → Program Tables Status Value}
    (hnext : condition = true → Returns property (next ⟨⟩)) :
    Returns property (Program.require condition status >>= next) := by
  cases condition with
  | true => exact hnext rfl
  | false => exact fail

end Returns

/-- What every value of a program has may be used for the rest. -/
theorem Moves.bind_returns [IsTrans Tables relation] {property : Value → Prop}
    (hprogram : Moves relation program) (hreturns : Returns property program)
    (hnext : ∀ value, property value → Moves relation (next value)) :
    Moves relation (program >>= next) := by
  refine .of_ends fun tables => ?_
  have hfirst : Ends tables (fun outcome after => relation tables after ∧
      ∀ value, outcome = .ok value → property value) program :=
    .intro fun conn htables =>
      ⟨⟨htables ▸ hprogram.related conn, hreturns conn⟩, hprogram.saved conn⟩
  refine hfirst.bind (fun _ _ hgoal => hgoal.1) fun value after hgoal => ?_
  exact .of_moves (hnext value (hgoal.2 value rfl)) fun _ _ hlater =>
    IsTrans.trans _ _ _ hgoal.1 hlater

/-! ## Connections on which nothing fails -/

/-- On a connection on which nothing fails, nothing will fail afterwards either. -/
def StaysFaultless (program : Program Tables Status Value) : Prop :=
  ∀ conn, conn.faults = [] → (program conn).2.faults = []

namespace StaysFaultless

theorem pure (value : Value) :
    StaysFaultless (Pure.pure value : Program Tables Status Value) := fun _ hfaults => hfaults

theorem fail (status : Status) :
    StaysFaultless (Program.fail status : Program Tables Status Value) := fun _ hfaults => hfaults

theorem require (condition : Bool) (status : Status) :
    StaysFaultless (Program.require condition status : Program Tables Status PUnit) := by
  cases condition with
  | true => exact pure PUnit.unit
  | false => exact fail status

theorem statement : StaysFaultless (Program.statement failure run) := by
  intro conn hfaults
  unfold Program.statement
  simp [hfaults]

theorem bind (hprogram : StaysFaultless program) (hnext : ∀ value, StaysFaultless (next value)) :
    StaysFaultless (program >>= next) := by
  intro conn hfaults
  have hfirst := hprogram conn hfaults
  rcases bind_cases program next conn with
    ⟨value, reached, hrun, hbind⟩ | ⟨status, reached, hrun, hbind⟩
  · rw [hbind]
    exact hnext value reached (by rwa [hrun] at hfirst)
  rw [hbind]
  rwa [hrun] at hfirst

theorem transaction (hbody : StaysFaultless body) :
    StaysFaultless (Program.transaction failure body) := by
  intro conn hfaults
  unfold Program.transaction
  dsimp only
  split
  · simp [hfaults]
  have hinner := hbody
    ⟨conn.tables, some conn.tables, conn.faults.tail⟩
    (by simp [hfaults])
  cases hrun : body
      ⟨conn.tables, some conn.tables, conn.faults.tail⟩ with
  | mk outcome reached =>
    rw [hrun] at hinner
    have hcommit : ∀ {Kept : Type w} (value : Kept),
        (commit failure value reached).2.faults = [] := by
      intro _ value
      unfold commit
      split <;> simp [show reached.faults = [] from hinner]
    match outcome with
    | .error status => exact hinner
    | .ok (.rollback value) => exact hinner
    | .ok (.commit value) => exact hcommit value
    | .ok (.refuse status) => exact hcommit PUnit.unit

end StaysFaultless

/-! ### Evaluation

On such a connection a program is evaluated statement by statement. -/

section Evaluation

variable {saved : Option Tables} {reached : Connection Tables}

theorem bind_of_ok (hprogram : program conn = (.ok value, reached)) :
    (program >>= next) conn = next value reached := by
  show Program.bind program next conn = _
  unfold Program.bind
  rw [hprogram]

theorem bind_of_error (hprogram : program conn = (.error status, reached)) :
    (program >>= next) conn = (.error status, reached) := by
  show Program.bind program next conn = _
  unfold Program.bind
  rw [hprogram]

theorem statement_bind_faultless [Severity] (failure : Status) (run : Tables → Value × Tables)
    (next : Value → Program Tables Status Next) :
    (Program.statement failure run >>= next)
        ⟨tables, saved, []⟩ =
      next (run tables).1 { tables := (run tables).2, saved := saved, faults := [] } := rfl

variable {next : PUnit → Program Tables Status Next}

theorem require_bind_true (hcondition : condition = true) (conn : Connection Tables) :
    (Program.require condition status >>= next) conn = next ⟨⟩ conn := by
  subst hcondition
  rfl

theorem require_bind_false (hcondition : condition = false) (conn : Connection Tables) :
    (Program.require condition status >>= next) conn = (.error status, conn) := by
  subst hcondition
  rfl

theorem transaction_of_refusal {after : Tables}
    (hbody : body ⟨tables, some tables, []⟩ = (.ok (.refuse status), ⟨after, some tables, []⟩)) :
    Program.transaction failure body ⟨tables, none, []⟩ = (.error status, ⟨after, none, []⟩) := by
  simp [Program.transaction, settle, hbody, commit]

end Evaluation

end Program

end Foundation
