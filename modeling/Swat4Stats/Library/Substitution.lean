import Swat4Stats.Library.Text

/-!
# Substitution from the left

`re.sub` for a pattern that matches no empty text: at each position either a match is replaced and
the search goes on after it, or the character is kept.
-/

namespace Swat4Stats

set_option autoImplicit false

namespace Text

/-- `found` gives the replacement of the match at the start of a text, and what follows it. -/
def substituteGo (found : Text → Option (Text × Text)) : ℕ → Text → Text
  | 0, s => s
  | _ + 1, [] => []
  | fuel + 1, c :: s =>
    match found (c :: s) with
    | none => c :: substituteGo found fuel s
    | some (replacement, rest) => replacement ++ substituteGo found fuel rest

def substitute (found : Text → Option (Text × Text)) (s : Text) : Text :=
  substituteGo found s.length s

def Shortens (found : Text → Option (Text × Text)) : Prop :=
  ∀ s replacement rest, found s = some (replacement, rest) → rest <:+ s ∧ rest.length < s.length

variable {found : Text → Option (Text × Text)} {s t u v replacement rest : Text} {c : Char}

theorem substituteGo_fuel (hshortens : Shortens found) {m n : ℕ} (hm : s.length ≤ m)
    (hn : s.length ≤ n) : substituteGo found m s = substituteGo found n s := by
  induction m generalizing n s with
  | zero =>
    obtain rfl := List.length_eq_zero_iff.mp (Nat.le_zero.mp hm)
    cases n with
    | zero => rfl
    | succ n => rfl
  | succ m ih =>
    cases s with
    | nil =>
      cases n with
      | zero => rfl
      | succ n => rfl
    | cons c s =>
      rw [List.length_cons] at hm hn
      obtain ⟨n, rfl⟩ : ∃ k, n = k + 1 := ⟨n - 1, by omega⟩
      rw [substituteGo, substituteGo]
      cases hfound : found (c :: s) with
      | none => exact congrArg (List.cons c) (ih (by omega) (by omega))
      | some hit =>
        obtain ⟨replacement, rest⟩ := hit
        have hlt := (hshortens _ _ _ hfound).2
        rw [List.length_cons] at hlt
        exact congrArg (replacement ++ ·) (ih (by omega) (by omega))

theorem substitute_of_none (h : found (c :: s) = none) :
    substitute found (c :: s) = c :: substitute found s := by
  rw [substitute, List.length_cons, substituteGo, h]
  rfl

theorem substitute_of_some (hshortens : Shortens found) (h : found s = some (replacement, rest)) :
    substitute found s = replacement ++ substitute found rest := by
  have hlt := (hshortens _ _ _ h).2
  cases s with
  | nil => exact absurd hlt (Nat.not_lt_zero _)
  | cons c s =>
    rw [List.length_cons] at hlt
    rw [substitute, List.length_cons, substituteGo, h]
    exact congrArg (replacement ++ ·) (substituteGo_fuel hshortens (by omega) le_rfl)

/-- What holds of the result, by what it takes for a kept character and for a replaced match. -/
theorem substitute_induction (hshortens : Shortens found) {P : Text → Text → Prop} (hnil : P [] [])
    (hkeep : ∀ c s t, found (c :: s) = none → P s t → P (c :: s) (c :: t))
    (hreplace : ∀ s replacement rest t, found s = some (replacement, rest) → P rest t →
      P s (replacement ++ t)) (s : Text) : P s (substitute found s) := by
  suffices hall : ∀ n, ∀ s : Text, s.length ≤ n → P s (substitute found s) from hall _ s le_rfl
  intro n
  induction n with
  | zero =>
    intro s hs
    obtain rfl := List.length_eq_zero_iff.mp (Nat.le_zero.mp hs)
    exact hnil
  | succ n ih =>
    intro s hs
    cases s with
    | nil => exact hnil
    | cons c s =>
      rw [List.length_cons] at hs
      cases hfound : found (c :: s) with
      | none =>
        rw [substitute_of_none hfound]
        exact hkeep c s _ hfound (ih s (by omega))
      | some hit =>
        obtain ⟨replacement, rest⟩ := hit
        have hlt := (hshortens _ _ _ hfound).2
        rw [List.length_cons] at hlt
        rw [substitute_of_some hshortens hfound]
        exact hreplace _ _ rest _ hfound (ih rest (by omega))

/-- Where no match goes from one part into the next, the parts are substituted apart. -/
theorem substitute_append (hshortens : Shortens found)
    (hlocal : ∀ w, w ≠ [] → w <:+ u → found (w ++ v) = (found w).map fun p => (p.1, p.2 ++ v)) :
    substitute found (u ++ v) = substitute found u ++ substitute found v := by
  suffices hall : ∀ n, ∀ w : Text, w.length ≤ n → w <:+ u →
      substitute found (w ++ v) = substitute found w ++ substitute found v from
    hall _ u le_rfl (List.suffix_refl u)
  intro n
  induction n with
  | zero =>
    intro w hw _
    obtain rfl := List.length_eq_zero_iff.mp (Nat.le_zero.mp hw)
    rfl
  | succ n ih =>
    intro w hw hsuffix
    cases w with
    | nil => rfl
    | cons c w =>
      rw [List.length_cons] at hw
      have hlocal := hlocal (c :: w) (List.cons_ne_nil c w) hsuffix
      cases hfound : found (c :: w) with
      | none =>
        rw [hfound, Option.map_none, List.cons_append] at hlocal
        rw [List.cons_append, substitute_of_none hlocal, substitute_of_none hfound,
          ih w (by omega) ((List.suffix_cons c w).trans hsuffix), List.cons_append]
      | some hit =>
        obtain ⟨replacement, rest⟩ := hit
        obtain ⟨hrest, hlt⟩ := hshortens _ _ _ hfound
        rw [List.length_cons] at hlt
        rw [hfound, Option.map_some] at hlocal
        rw [substitute_of_some hshortens hlocal, substitute_of_some hshortens hfound,
          ih rest (by omega) (hrest.trans hsuffix), List.append_assoc]

theorem substitute_of_forall_none (h : ∀ w, w ≠ [] → w <:+ u → found w = none) :
    substitute found u = u := by
  induction u with
  | nil => rfl
  | cons c u ih =>
    rw [substitute_of_none (h (c :: u) (List.cons_ne_nil c u) (List.suffix_refl _)),
      ih fun w hne hw => h w hne (hw.trans (List.suffix_cons c u))]

end Text

end Swat4Stats
