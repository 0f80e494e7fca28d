import Mathlib.Data.List.Basic

/-!
# Redirections

Some identifiers are merged into one, again and again. What an identifier has come to is found by
following the merges in their order; an identifier that was never merged is its own.
-/

namespace Swat4Stats

set_option autoImplicit false

universe u

/-- One merge: the merged identifiers come to the main one. -/
structure Redirection (ι : Type u) where
  main : ι
  merged : List ι
  deriving DecidableEq, Repr

namespace Redirection

variable {ι : Type u} [DecidableEq ι] {rs : List (Redirection ι)} {r : Redirection ι} {id : ι}

def redirect (r : Redirection ι) (id : ι) : ι := if id ∈ r.merged then r.main else id

def resolve (rs : List (Redirection ι)) (id : ι) : ι := rs.foldl (fun id r => r.redirect id) id

def taken (rs : List (Redirection ι)) : List ι := rs.flatMap merged

/-- Where a merged identifier points to. -/
def pointer (rs : List (Redirection ι)) (id : ι) : Option ι :=
  if id ∈ taken rs then some (resolve rs id) else none

@[simp] theorem redirect_of_mem (h : id ∈ r.merged) : r.redirect id = r.main := if_pos h

@[simp] theorem redirect_of_not_mem (h : id ∉ r.merged) : r.redirect id = id := if_neg h

@[simp] theorem resolve_nil : resolve [] id = id := rfl

@[simp] theorem resolve_concat : resolve (rs ++ [r]) id = r.redirect (resolve rs id) := by
  simp [resolve]

omit [DecidableEq ι] in
@[simp] theorem taken_concat : taken (rs ++ [r]) = taken rs ++ r.merged := by
  simp [taken]

theorem resolve_of_not_mem_taken (h : id ∉ taken rs) : resolve rs id = id := by
  induction rs with
  | nil => rfl
  | cons r rs ih =>
    obtain ⟨hr, hrs⟩ : id ∉ r.merged ∧ id ∉ taken rs := by simpa [taken] using h
    rw [resolve, List.foldl_cons, redirect_of_not_mem hr]
    exact ih hrs

theorem pointer_eq_none_iff : pointer rs id = none ↔ id ∉ taken rs := by
  rw [pointer]
  split <;> simp_all

/-- A merge of identifiers that were not merged before points them to the main one, and those that
pointed to them too. -/
theorem pointer_concat (hfresh : ∀ id ∈ r.merged, id ∉ taken rs) :
    pointer (rs ++ [r]) id =
      if id ∈ r.merged then some r.main else (pointer rs id).map r.redirect := by
  simp only [pointer, taken_concat, List.mem_append, resolve_concat]
  by_cases hid : id ∈ r.merged
  · rw [if_pos (.inr hid), if_pos hid, resolve_of_not_mem_taken (hfresh id hid),
      redirect_of_mem hid]
  · rw [if_neg hid]
    by_cases htaken : id ∈ taken rs
    · rw [if_pos (.inl htaken), if_pos htaken, Option.map_some]
    · rw [if_neg (by simp [htaken, hid]), if_neg htaken, Option.map_none]

end Redirection

end Swat4Stats
