/-
# Guarded machines and their runs

A machine is a step function together with a guard that says which events the
environment may offer in a state. Everything nondeterministic (arguments, clock
readings, failures, adversarial bytes) is carried by the event, so a run is
determined by its list of events. The rules below are the only inductions over
runs: an invariant, a property that never goes away again, a preorder that every
step follows, and an invariant that rests on an assumption about the last state.
-/

import Mathlib.Data.List.Basic

universe u v

namespace Foundation

/-- A deterministic step function and the events its environment may offer. -/
structure Machine (State : Type u) (Event : Type v) where
  step : State → Event → State
  allowed : State → Event → Prop

variable {Entry : Type v} {since : Entry → List Entry → Prop} {log new : List Entry}

namespace Machine

variable {State : Type u} {Event : Type v} {machine : Machine State Event}
  {source target : State} {events : List Event}

/-- A run offers its events one after another, each allowed where it is offered. -/
inductive Run (machine : Machine State Event) (source : State) : List Event → State → Prop where
  | nil : Run machine source [] source
  | snoc {events : List Event} {target : State} {event : Event}
      (hrun : Run machine source events target)
      (hallowed : machine.allowed target event) :
      Run machine source (events ++ [event]) (machine.step target event)

variable {event : Event}

theorem Run.single (hallowed : machine.allowed source event) :
    Run machine source [event] (machine.step source event) :=
  Run.snoc Run.nil hallowed

theorem Run.append {middle : State} {later : List Event} (hfirst : Run machine source events middle)
    (hsecond : Run machine middle later target) : Run machine source (events ++ later) target := by
  induction hsecond with
  | nil => simpa using hfirst
  | snoc hrun hallowed ih =>
    rw [← List.append_assoc]
    exact Run.snoc ih hallowed

/-- A run whose events are given front to back. -/
theorem Run.cons (hallowed : machine.allowed source event)
    (hrun : Run machine (machine.step source event) events target) :
    Run machine source (event :: events) target :=
  (Run.single hallowed).append hrun

/-- The state a run reaches is the fold of the step function over its events. -/
theorem Run.target_eq (hrun : Run machine source events target) :
    target = events.foldl machine.step source := by
  induction hrun with
  | nil => rfl
  | snoc hrun hallowed ih => rw [List.foldl_append, ← ih]; rfl

/-- A list of events that are allowed everywhere is a run. -/
theorem Run.of_allowed (hallowed : ∀ state, ∀ event ∈ events, machine.allowed state event) :
    Run machine source events (events.foldl machine.step source) := by
  induction events generalizing source with
  | nil => exact Run.nil
  | cons event rest ih =>
    exact Run.cons (hallowed source event List.mem_cons_self)
      (ih fun state other hother => hallowed state other (List.mem_cons_of_mem event hother))

/-- Every event is allowed when its turn comes. -/
def AllAllowed (machine : Machine State Event) : State → List Event → Prop
  | _, [] => True
  | state, event :: events =>
    machine.allowed state event ∧ machine.AllAllowed (machine.step state event) events

instance decidableAllAllowed [∀ state event, Decidable (machine.allowed state event)] :
    ∀ state events, Decidable (machine.AllAllowed state events)
  | _, [] => inferInstanceAs (Decidable True)
  | state, event :: events =>
    have := decidableAllAllowed (machine.step state event) events
    inferInstanceAs (Decidable (_ ∧ _))

theorem Run.of_allAllowed (hallowed : machine.AllAllowed source events) :
    Run machine source events (events.foldl machine.step source) := by
  induction events generalizing source with
  | nil => exact .nil
  | cons event events ih => exact .cons hallowed.1 (ih hallowed.2)

variable {property : State → Prop}

/-- What holds at the start and is kept by every allowed step holds at the end. -/
theorem Run.invariant
    (hstep : ∀ state event, property state → machine.allowed state event →
      property (machine.step state event)) (hrun : Run machine source events target)
    (hsource : property source) : property target := by
  induction hrun with
  | nil => exact hsource
  | snoc hrun hallowed ih => exact hstep _ _ ih hallowed

/-- A relation that is reflexive, transitive and followed by every allowed step
relates the two ends of a run. -/
theorem Run.preorder (relation : State → State → Prop)
    (hrefl : ∀ state, relation state state)
    (htrans : ∀ first second third, relation first second → relation second third →
      relation first third)
    (hstep : ∀ state event, machine.allowed state event → relation state (machine.step state event))
    (hrun : Run machine source events target) : relation source target := by
  induction hrun with
  | nil => exact hrefl source
  | snoc hrun hallowed ih => exact htrans _ _ _ ih (hstep _ _ hallowed)

/-- An invariant that is only claimed for runs whose last state meets an
assumption. The assumption is about what has been recorded so far, so meeting it
after a step means having met it before. -/
theorem Run.invariant_of_final (assumption property : State → Prop)
    (hbefore : ∀ state event, machine.allowed state event →
      assumption (machine.step state event) → assumption state)
    (hstep : ∀ state event, assumption (machine.step state event) → property state →
      machine.allowed state event → property (machine.step state event))
    (hrun : Run machine source events target) (hsource : property source)
    (hfinal : assumption target) : property target := by
  induction hrun with
  | nil => exact hsource
  | snoc hrun hallowed ih =>
    exact hstep _ _ hfinal (ih (hbefore _ _ hallowed hfinal)) hallowed

/-- Every run passes through the states after each of its event lists' parts. -/
theorem Run.split {first second : List Event} (hrun : Run machine source (first ++ second) target) :
    ∃ middle, Run machine source first middle ∧ Run machine middle second target := by
  generalize hall : first ++ second = events at hrun
  induction hrun generalizing first second with
  | nil =>
    obtain ⟨rfl, rfl⟩ := List.append_eq_nil_iff.mp hall
    exact ⟨source, Run.nil, Run.nil⟩
  | @snoc earlier reached event hrun hallowed ih =>
    rcases List.eq_nil_or_concat second with rfl | ⟨initial, last, rfl⟩
    · rw [List.append_nil] at hall
      subst hall
      exact ⟨_, Run.snoc hrun hallowed, Run.nil⟩
    rw [List.concat_eq_append, ← List.append_assoc] at hall
    obtain ⟨hinit, hlast⟩ := List.append_inj' hall rfl
    obtain rfl : last = event := by simpa using hlast
    obtain ⟨middle, hfirst, hsecond⟩ := ih hinit
    refine ⟨middle, hfirst, ?_⟩
    rw [List.concat_eq_append]
    exact Run.snoc hsecond hallowed

/-- Every event of a run was allowed when its turn came. -/
theorem Run.split_at {first second : List Event}
    (hrun : Run machine source (first ++ event :: second) target) :
    ∃ middle, Run machine source first middle ∧ machine.allowed middle event ∧
      Run machine (machine.step middle event) second target := by
  rw [← List.singleton_append, ← List.append_assoc] at hrun
  obtain ⟨after, hbefore, hrest⟩ := hrun.split
  generalize hall : first ++ [event] = events at hbefore
  cases hbefore with
  | nil => simp at hall
  | snoc hpast hallowed =>
    obtain ⟨rfl, hlast⟩ := List.append_inj' hall rfl
    obtain rfl := List.head_eq_of_cons_eq hlast
    exact ⟨_, hpast, hallowed, hrest⟩

/-! ## Machines that keep a log -/

/-- A log has an entry such that something holds of it and of what came after. -/
def Traced {Entry : Type v} (since : Entry → List Entry → Prop) (log : List Entry) : Prop :=
  ∃ earlier origin later, log = earlier ++ origin :: later ∧ since origin later

/-- A trace goes on as long as new entries do not end it. -/
theorem Traced.append {wider : Entry → List Entry → Prop} (htraced : Traced since log)
    (hwider : ∀ origin later, since origin later → wider origin (later ++ new)) :
    Traced wider (log ++ new) := by
  obtain ⟨earlier, origin, later, rfl, hsince⟩ := htraced
  refine ⟨earlier, origin, later ++ new, ?_, hwider origin later hsince⟩
  rw [List.append_assoc, List.cons_append]

/-- A trace may begin among the new entries. -/
theorem Traced.of_new (htraced : Traced since new) : Traced since (log ++ new) := by
  obtain ⟨earlier, origin, later, rfl, hsince⟩ := htraced
  exact ⟨log ++ earlier, origin, later, (List.append_assoc _ _ _).symm, hsince⟩

/-- Every entry of a log that starts empty was logged by one of the steps, after what stands
before it. -/
theorem Run.logged_at (log : State → List Entry)
    (hgrows : ∀ state event, machine.allowed state event →
      log state <+: log (machine.step state event))
    (hrun : Run machine source events target) (hsource : log source = [])
    {before after : List Entry} {entry : Entry} (htarget : log target = before ++ entry :: after) :
    ∃ earlier event later reached first rest, events = earlier ++ event :: later ∧
      Run machine source earlier reached ∧ machine.allowed reached event ∧
      log (machine.step reached event) = log reached ++ (first ++ entry :: rest) ∧
      before = log reached ++ first := by
  induction hrun generalizing after with
  | nil =>
    rw [hsource] at htarget
    simp at htarget
  | @snoc past reached last hrun hallowed ih =>
    obtain ⟨new, hnew⟩ := hgrows reached last hallowed
    have hsplit := hnew.trans htarget
    rcases List.append_eq_append_iff.mp hsplit with ⟨first, hbefore, hfirst⟩ | ⟨more, hlog, hmore⟩
    · exact ⟨past, last, [], reached, first, after, rfl, hrun, hallowed, hfirst ▸ hnew.symm,
        hbefore⟩
    cases more with
    | nil =>
      refine ⟨past, last, [], reached, [], after, rfl, hrun, hallowed, ?_, ?_⟩
      · rw [← hnew]
        exact congrArg (log reached ++ ·) hmore.symm
      · rw [hlog, List.append_nil, List.append_nil]
    | cons =>
      obtain ⟨rfl, -⟩ := List.cons.inj hmore
      obtain ⟨earlier, event, later, middle, first, rest, rfl, hmiddle⟩ := ih hlog
      exact ⟨earlier, event, later ++ [last], middle, first, rest, by simp, hmiddle⟩

/-- From a state that bars something on, nothing that is barred is logged until an entry lifts
the bar. -/
theorem Run.barred_since (log : State → List Entry) (bar : State → Prop)
    (lifts barred : Entry → Prop)
    (hstep : ∀ state event, bar state → machine.allowed state event →
      ∃ new, log (machine.step state event) = log state ++ new ∧
        ((∃ entry ∈ new, lifts entry) ∨
          (bar (machine.step state event) ∧ ∀ entry ∈ new, ¬ barred entry)))
    (hgrows : ∀ state event, machine.allowed state event →
      log state <+: log (machine.step state event)) (hrun : Run machine source events target)
    (hsource : bar source) {rest : List Entry} (hrest : log target = log source ++ rest)
    (hlifts : ∀ entry ∈ rest, ¬ lifts entry) : bar target ∧ ∀ entry ∈ rest, ¬ barred entry := by
  have hinvariant : ∃ since, log target = log source ++ since ∧
      ((∃ entry ∈ since, lifts entry) ∨ (bar target ∧ ∀ entry ∈ since, ¬ barred entry)) := by
    clear hrest
    induction hrun with
    | nil => exact ⟨[], (List.append_nil _).symm, .inr ⟨hsource, fun _ hentry => nomatch hentry⟩⟩
    | @snoc earlier reached event _ hallowed ih =>
      obtain ⟨since, hsince, ⟨entry, hentry, hlift⟩ | ⟨hbar, hnone⟩⟩ := ih
      · obtain ⟨new, hnew⟩ := hgrows reached event hallowed
        refine ⟨since ++ new, ?_, .inl ⟨entry, List.mem_append_left _ hentry, hlift⟩⟩
        rw [← hnew, hsince, List.append_assoc]
      obtain ⟨new, hnew, ⟨entry, hentry, hlift⟩ | ⟨hbar, hnoneNew⟩⟩ :=
        hstep reached event hbar hallowed
      · refine ⟨since ++ new, ?_, .inl ⟨entry, List.mem_append_right _ hentry, hlift⟩⟩
        rw [hnew, hsince, List.append_assoc]
      refine ⟨since ++ new, by rw [hnew, hsince, List.append_assoc], .inr ⟨hbar, ?_⟩⟩
      exact fun entry hentry => (List.mem_append.mp hentry).elim (hnone entry) (hnoneNew entry)
  obtain ⟨since, hsince, hcases⟩ := hinvariant
  obtain rfl := List.append_cancel_left (hrest.symm.trans hsince)
  exact hcases.resolve_left fun ⟨entry, hentry, hlift⟩ => hlifts entry hentry hlift

/-- The machine with only those steps that meet a condition. -/
def restrict (machine : Machine State Event) (condition : State → Event → Prop) :
    Machine State Event where
  step := machine.step
  allowed state event := machine.allowed state event ∧ condition state event

variable {condition : State → Event → Prop}

/-- A run all of whose steps meet a condition is one of the restricted machine. -/
theorem Run.restrict (hrun : Run machine source events target)
    (hsteps : ∀ earlier event later reached, events = earlier ++ event :: later →
      Run machine source earlier reached → Run machine (machine.step reached event) later target →
      condition reached event) : Run (machine.restrict condition) source events target := by
  induction hrun with
  | nil => exact .nil
  | @snoc before reached last hrun hallowed ih =>
    refine Run.snoc (ih ?_) ⟨hallowed, hsteps before last [] reached rfl hrun .nil⟩
    intro earlier event later middle hevents hfirst hsecond
    refine hsteps earlier event (later ++ [last]) middle ?_ hfirst (.snoc hsecond hallowed)
    rw [hevents, List.append_assoc, List.cons_append]

/-- A run of the restricted machine is one of the machine. -/
theorem Run.unrestrict (hrun : Run (machine.restrict condition) source events target) :
    Run machine source events target := by
  induction hrun with
  | nil => exact .nil
  | snoc hrun hallowed ih => exact .snoc ih hallowed.1

/-! ## Refinement -/

variable {Abstract : Type u} {Label : Type v} {spec : Machine Abstract Label}

/-- Every allowed concrete step is matched by a (possibly empty) run of the
specification between related states. -/
def Simulates (machine : Machine State Event) (spec : Machine Abstract Label)
    (abstraction : State → Abstract) (property : State → Prop) : Prop :=
  ∀ state event, property state → machine.allowed state event →
    property (machine.step state event) ∧
      ∃ labels, Run spec (abstraction state) labels (abstraction (machine.step state event))

/-- A run of the implementation is a run of the specification. -/
theorem Simulates.run {abstraction : State → Abstract}
    (hsim : Simulates machine spec abstraction property)
    (hrun : Run machine source events target) (hsource : property source) :
    property target ∧ ∃ labels, Run spec (abstraction source) labels (abstraction target) := by
  induction hrun with
  | nil => exact ⟨hsource, [], Run.nil⟩
  | snoc hrun hallowed ih =>
    obtain ⟨hproperty, labels, hspec⟩ := ih
    obtain ⟨hnext, more, hmore⟩ := hsim _ _ hproperty hallowed
    exact ⟨hnext, labels ++ more, hspec.append hmore⟩

end Machine

end Foundation
