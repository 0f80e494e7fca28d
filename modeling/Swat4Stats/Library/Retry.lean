import Mathlib.Logic.Basic

/-!
# Updates that are retried

Every key has a value and an idempotent update of it. A job updates some of the keys at a time,
may be cut off, and starts over from the first key. The values are then never more than one update
away from those that the first attempt found, and a job that gets to its end leaves what an
undisturbed one leaves.
-/

namespace Swat4Stats.Retry

set_option autoImplicit false

universe u v

/-- An update of the value of each key that has no effect the second time. -/
structure Update (κ : Type u) (β : Type v) where
  apply : κ → β → β
  idempotent : ∀ k b, apply k (apply k b) = apply k b

variable {κ : Type u} {β : Type v} (f : Update κ β) {old now now' : κ → β}
  {waiting waiting' : κ → Prop}

/-- Each key has been updated, or has its old value and waits for the update. -/
def Underway (old : κ → β) (waiting : κ → Prop) (now : κ → β) : Prop :=
  ∀ k, now k = f.apply k (old k) ∨ now k = old k ∧ waiting k

variable {f}

theorem underway_self (h : ∀ k, waiting k) : Underway f old waiting old :=
  fun k => .inr ⟨rfl, h k⟩

namespace Underway

theorem apply_now (h : Underway f old waiting now) (k : κ) :
    f.apply k (now k) = f.apply k (old k) := by
  obtain hnow | ⟨hnow, _⟩ := h k
  · rw [hnow, f.idempotent]
  · rw [hnow]

/-- Updating a key again does no harm, and a key that waits no longer has been updated. -/
theorem step (h : Underway f old waiting now)
    (hnow : ∀ k, now' k = now k ∨ now' k = f.apply k (now k))
    (hwaiting : ∀ k, waiting k → waiting' k ∨ now' k = f.apply k (now k)) :
    Underway f old waiting' now' := by
  intro k
  obtain hsame | hupdated := hnow k
  · obtain hdone | ⟨hold, hwaits⟩ := h k
    · exact .inl (hsame.trans hdone)
    · obtain hwaits | hupdated := hwaiting k hwaits
      · exact .inr ⟨hsame.trans hold, hwaits⟩
      · exact .inl (hupdated.trans (h.apply_now k))
  · exact .inl (hupdated.trans (h.apply_now k))

theorem mono (h : Underway f old waiting now) (hwaiting : ∀ k, waiting k → waiting' k) :
    Underway f old waiting' now :=
  h.step (fun _ => .inl rfl) fun k hwaits => .inl (hwaiting k hwaits)

theorem of_neutral (h : Underway f old waiting now)
    (hneutral : ∀ k, ¬ waiting' k → ∀ b, f.apply k b = b) : Underway f old waiting' now := by
  refine h.step (fun _ => .inl rfl) fun k _ => ?_
  obtain hwaits | hdone := Classical.em (waiting' k)
  · exact .inl hwaits
  · exact .inr (hneutral k hdone _).symm

theorem eq_updated (h : Underway f old waiting now) {k : κ} (hdone : ¬ waiting k) :
    now k = f.apply k (old k) := by
  obtain hnow | ⟨_, hwaits⟩ := h k
  · exact hnow
  · exact absurd hwaits hdone

end Underway

end Swat4Stats.Retry
