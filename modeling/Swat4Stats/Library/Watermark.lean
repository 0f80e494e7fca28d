import Mathlib.Order.Lattice

/-!
# Watermarks

Whether something derived has to be derived anew is told by two instants: when its source was last
changed, and when it was last derived. Either may be missing.
-/

namespace Swat4Stats

set_option autoImplicit false

namespace Watermark

universe u

variable {τ : Type u} [LinearOrder τ] {changedAt derivedAt : Option τ} {now : τ}

def isBehind (changedAt derivedAt : Option τ) : Bool :=
  match changedAt with
  | none => false
  | some changedAt => derivedAt.all fun derivedAt => derivedAt < changedAt

theorem isBehind_some : isBehind (some now) derivedAt = true ↔ ∀ at' ∈ derivedAt, at' < now := by
  cases derivedAt with
  | none => simp [isBehind]
  | some derivedAt => simp [isBehind]

/-- What was derived just now is not behind. -/
theorem isBehind_now (h : ∀ at' ∈ changedAt, at' ≤ now) :
    isBehind changedAt (some now) = false := by
  cases changedAt with
  | none => rfl
  | some changedAt => simpa [isBehind] using h changedAt rfl

end Watermark

end Swat4Stats
