/-
# Ordered duplex channels

The purpose of a record layer, stated on its own: two ends send to each other, and
what an end has received is what the other end sent, from the first message on, in
order and without gaps. Nothing is said about how a message travels.
-/

import MldsaAuth.Foundation.Machine

universe u v

namespace Foundation

open Function

variable {End : Type u} [DecidableEq End] {Message : Type v}

/-- What each end has sent and received so far. -/
structure Duplex (End : Type u) (Message : Type v) where
  sent : End → List Message
  received : End → List Message

/-- An end sends a message, or receives the next one the other end has sent. -/
inductive DuplexEvent (End : Type u) (Message : Type v) where
  | send (sender : End) (message : Message)
  | receive (receiver : End) (message : Message)

namespace Duplex

/-- Nothing has been sent yet. -/
def start : Duplex End Message where
  sent := fun _ => []
  received := fun _ => []

/-- The channel between two ends: `other` is the end at the far side. -/
def machine (other : End → End) : Machine (Duplex End Message) (DuplexEvent End Message) where
  step state
    | .send sender message =>
      { state with
        sent := update state.sent sender (state.sent sender ++ [message]) }
    | .receive receiver message =>
      { state with
        received :=
          update state.received receiver (state.received receiver ++ [message]) }
  allowed state
    | .send _ _ => True
    | .receive receiver message =>
      (state.sent (other receiver))[(state.received receiver).length]? = some message

/-- What every end has received is an initial part of what the other end has sent. -/
def InOrder (other : End → End) (state : Duplex End Message) : Prop :=
  ∀ receiver, state.received receiver <+: state.sent (other receiver)

theorem inOrder_step {other : End → End} {state : Duplex End Message}
    {event : DuplexEvent End Message} (horder : state.InOrder other)
    (hallowed : (machine other).allowed state event) :
    ((machine other).step state event).InOrder other := by
  intro receiver
  cases event with
  | send sender =>
    simp only [machine]
    by_cases hsender : other receiver = sender
    · rw [hsender, update_self, ← hsender]
      exact (horder receiver).trans (List.prefix_append _ _)
    rw [update_of_ne hsender]
    exact horder receiver
  | receive target message =>
    simp only [machine] at hallowed ⊢
    by_cases htarget : receiver = target
    · subst htarget
      obtain ⟨rest, hrest⟩ := horder receiver
      rw [← hrest, List.getElem?_append_right (Nat.le_refl _), Nat.sub_self] at hallowed
      cases rest with
      | nil => simp at hallowed
      | cons head tail =>
        obtain rfl : head = message := by simpa using hallowed
        exact ⟨tail, by rw [← hrest]; simp⟩
    · rw [update_of_ne htarget]
      exact horder receiver

/-- Every run of an ordered channel keeps both directions in order. -/
theorem inOrder_run {other : End → End} {events : List (DuplexEvent End Message)}
    {target : Duplex End Message}
    (hrun : Machine.Run (machine other) start events target) : target.InOrder other :=
  hrun.invariant (fun _ _ horder hallowed => inOrder_step horder hallowed) fun _ => List.nil_prefix

end Duplex

end Foundation
