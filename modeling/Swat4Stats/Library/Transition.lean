import Mathlib.Data.List.Basic

/-!
# Guarded transition systems and their runs

A system says which events are enabled in a state and where each leads, so a run is determined
by its first state and its list of events. Everything that a scheduler, a clock or a peer may
choose is part of the event. The rules below are the invariant rule, its guarded form, and the
two ways to take a run apart.
-/

namespace Swat4Stats.Transition

set_option autoImplicit false

universe u v

structure System (σ : Type u) (ε : Type v) where
  enabled : σ → ε → Prop
  next : σ → ε → σ

variable {σ : Type u} {ε : Type v}

inductive Run (M : System σ ε) : σ → List ε → σ → Prop
  | nil (s : σ) : Run M s [] s
  | cons {s t : σ} {e : ε} {es : List ε} (henabled : M.enabled s e)
      (hrest : Run M (M.next s e) es t) : Run M s (e :: es) t

/-- The same system where only the steps that meet `P` are enabled. -/
def System.restrict (M : System σ ε) (P : σ → ε → Prop) : System σ ε where
  enabled s e := M.enabled s e ∧ P s e
  next := M.next

/-- Every event is enabled when its turn comes. -/
def System.Admits (M : System σ ε) : σ → List ε → Prop
  | _, [] => True
  | s, e :: es => M.enabled s e ∧ M.Admits (M.next s e) es

section Decidable

variable {M : System σ ε}

instance {P : σ → ε → Prop} {s : σ} {e : ε} [Decidable (M.enabled s e)] [Decidable (P s e)] :
    Decidable ((M.restrict P).enabled s e) :=
  inferInstanceAs (Decidable (_ ∧ _))

instance System.decidableAdmits [∀ s e, Decidable (M.enabled s e)] :
    ∀ (s : σ) (es : List ε), Decidable (M.Admits s es)
  | _, [] => inferInstanceAs (Decidable True)
  | s, e :: es =>
    have := System.decidableAdmits (M.next s e) es
    inferInstanceAs (Decidable (_ ∧ _))

end Decidable

namespace Run

variable {M : System σ ε} {s t u : σ} {e : ε} {es fs : List ε}

@[simp] theorem nil_iff : Run M s [] t ↔ s = t := by
  constructor
  · rintro ⟨⟩
    rfl
  · rintro rfl
    exact .nil s

@[simp] theorem cons_iff : Run M s (e :: es) t ↔ M.enabled s e ∧ Run M (M.next s e) es t := by
  constructor
  · rintro (_ | ⟨henabled, hrest⟩)
    exact ⟨henabled, hrest⟩
  · rintro ⟨henabled, hrest⟩
    exact .cons henabled hrest

theorem append_iff : Run M s (es ++ fs) t ↔ ∃ u, Run M s es u ∧ Run M u fs t := by
  induction es generalizing s with
  | nil => simp
  | cons e es ih => simp [ih, and_assoc]

theorem append (h : Run M s es t) (h' : Run M t fs u) : Run M s (es ++ fs) u :=
  append_iff.mpr ⟨t, h, h'⟩

theorem snoc (h : Run M s es t) (he : M.enabled t e) : Run M s (es ++ [e]) (M.next t e) :=
  h.append (.cons he (.nil _))

theorem eq_foldl (h : Run M s es t) : t = es.foldl M.next s := by
  induction h with
  | nil => rfl
  | cons _ _ ih => exact ih

theorem of_admits (h : M.Admits s es) : Run M s es (es.foldl M.next s) := by
  induction es generalizing s with
  | nil => exact .nil s
  | cons e es ih => exact .cons h.1 (ih h.2)

/-- A run ends in one state only: all choices are in its events. -/
theorem unique (h : Run M s es t) (h' : Run M s es u) : t = u :=
  h.eq_foldl.trans h'.eq_foldl.symm

theorem invariant {Inv : σ → Prop} (hstep : ∀ s e, Inv s → M.enabled s e → Inv (M.next s e))
    (h : Run M s es t) (hs : Inv s) : Inv t := by
  induction h with
  | nil => exact hs
  | cons he _ ih => exact ih (hstep _ _ hs he)

/-- The invariant rule for an invariant that speaks of the events of the run. -/
theorem invariant_of_mem {Inv : σ → Prop} (h : Run M s es t)
    (hstep : ∀ s e, e ∈ es → Inv s → M.enabled s e → Inv (M.next s e)) (hs : Inv s) : Inv t := by
  induction h with
  | nil => exact hs
  | @cons s t e es he _ ih =>
    exact ih (fun s' e' he' => hstep s' e' (by simp [he'])) (hstep s e (by simp) hs he)

theorem of_restrict {P : σ → ε → Prop} (h : Run (M.restrict P) s es t) : Run M s es t := by
  induction h with
  | nil s => exact .nil s
  | cons he _ ih => exact .cons he.1 ih

/-- The guarded invariant rule: `P` is what each step of the run is known to meet. -/
theorem invariant_restrict {P : σ → ε → Prop} {Inv : σ → Prop}
    (hstep : ∀ s e, Inv s → M.enabled s e → P s e → Inv (M.next s e))
    (h : Run (M.restrict P) s es t) (hs : Inv s) : Inv t := by
  induction h with
  | nil => exact hs
  | cons he _ ih => exact ih (hstep _ _ hs he.1 he.2)

/-- A run all of whose states are good is a run all of whose steps are safe, when a step from a
good state leads to a good state exactly if it is safe. What every step keeps may be used on the
way. -/
theorem restrict_iff_forall_prefix {Inv Good : σ → Prop} {P : σ → ε → Prop}
    (hinv : ∀ s e, Inv s → Good s → M.enabled s e → Inv (M.next s e))
    (hstep : ∀ s e, Inv s → Good s → M.enabled s e → (Good (M.next s e) ↔ P s e))
    (h : Run M s es t) (hs : Inv s) (hgood : Good s) :
    Run (M.restrict P) s es t ↔ ∀ fs u, fs <+: es → Run M s fs u → Good u := by
  constructor
  · intro hsafe fs u hfs hu
    obtain ⟨gs, rfl⟩ := hfs
    obtain ⟨w, hw, _⟩ := append_iff.mp hsafe
    let Both := fun s => Inv s ∧ Good s
    have hboth : Both w := by
      refine hw.invariant_restrict ?_ (show Both s from ⟨hs, hgood⟩)
      intro s e hse he hp
      exact ⟨hinv s e hse.1 hse.2 he, (hstep s e hse.1 hse.2 he).mpr hp⟩
    rw [hu.unique hw.of_restrict]
    exact hboth.2
  · intro hall
    induction h with
    | nil s => exact .nil s
    | @cons s t e es he hrest ih =>
      have hnext : Good (M.next s e) :=
        hall [e] _ (by simp) (.cons he (.nil _))
      refine .cons ⟨he, (hstep s e hs hgood he).mp hnext⟩ (ih (hinv s e hs hgood he) hnext ?_)
      intro fs u hfs hu
      exact hall (e :: fs) u (by simpa using hfs) (.cons he hu)

/-- A run of safe steps, step by step. -/
theorem restrict_iff_forall_step {P : σ → ε → Prop} (h : Run M s es t) :
    Run (M.restrict P) s es t ↔ ∀ fs e u, fs ++ [e] <+: es → Run M s fs u → P u e := by
  constructor
  · rintro hsafe fs e u ⟨gs, rfl⟩ hu
    obtain ⟨w, hw, _⟩ := append_iff.mp hsafe
    obtain ⟨v, hv, hlast⟩ := append_iff.mp hw
    rw [hu.unique hv.of_restrict]
    exact (cons_iff.mp hlast).1.2
  · intro hall
    induction h with
    | nil s => exact .nil s
    | @cons s t e es he hrest ih =>
      refine .cons ⟨he, hall [] e s (by simp) (.nil s)⟩ (ih fun fs e' u hfs hu => ?_)
      exact hall (e :: fs) e' u (by simpa using hfs) (.cons he hu)

end Run

end Swat4Stats.Transition
