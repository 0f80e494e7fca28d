import Mathlib.Data.List.Sort
import Mathlib.Order.Basic

/-!
# Running tallies

A tally of a list is its length with its first and its last element. It can be kept one element
at a time when the elements come in the order of their keys; an element that is recorded again
right away is recognised by its key. The rules below say what a tally accounts for while some of
the elements are still to be recorded.
-/

namespace Swat4Stats

set_option autoImplicit false

universe u v

@[ext] structure Tally (α : Type u) where
  count : ℕ
  first : Option α
  last : Option α

namespace Tally

variable {α : Type u} {κ : Type v}

def of (l : List α) : Tally α := ⟨l.length, l.head?, l.getLast?⟩

/-- One more element, unless it is the last one already. -/
def record [DecidableEq κ] (key : α → κ) (a : α) (t : Tally α) : Tally α where
  count := if t.last.map key = some (key a) then t.count else t.count + 1
  first := t.first.or (some a)
  last := if t.last.map key = some (key a) then t.last else some a

/-- Each element of the first list is delivered one or more times before the next one. -/
inductive Redelivers : List α → List α → Prop
  | nil : Redelivers [] []
  | cons {l calls : List α} (a : α) (again : ℕ) (hrest : Redelivers l calls) :
      Redelivers (a :: l) (List.replicate (again + 1) a ++ calls)

section Record

variable [DecidableEq κ] {key : α → κ} {l : List α} {a : α}

theorem record_of_ne (h : ∀ b ∈ l, key b ≠ key a) :
    (of l).record key a = of (l ++ [a]) := by
  have hlast : l.getLast?.map key ≠ some (key a) := by
    intro hsome
    obtain ⟨b, hb, hkey⟩ := Option.map_eq_some_iff.mp hsome
    exact h b (List.mem_of_getLast? hb) hkey
  apply Tally.ext
  · rw [record, of, if_neg hlast, of, List.length_append, List.length_singleton]
  · rw [record, of, of, List.head?_append, List.head?_singleton]
  · exact (if_neg hlast).trans List.getLast?_concat.symm

theorem record_of_last (h : l.getLast? = some a) : (of l).record key a = of l := by
  cases l with
  | nil => cases h
  | cons b l => simp only [record, of, h, Option.map_some, if_true, List.head?_cons, Option.some_or]

theorem foldl_record_replicate (n : ℕ) (h : l.getLast? = some a) :
    (List.replicate n a).foldl (fun t b => record key b t) (of l) = of l := by
  induction n with
  | zero => rfl
  | succ n ih => rw [List.replicate_succ, List.foldl_cons, record_of_last h, ih]

end Record

section Order

variable [LinearOrder κ] {key : α → κ} {l : List α} {a : α}

theorem ne_of_sorted_concat {m : List α}
    (h : (l ++ a :: m).Pairwise fun x y => key x < key y) : ∀ b ∈ l, key b ≠ key a := by
  intro b hb
  exact ((List.pairwise_append.mp h).2.2 b hb a List.mem_cons_self).ne

/-- In the order of the keys a tally can be kept one element at a time, deliveries repeated or
not. -/
theorem foldl_record_of_redelivers {played remaining calls : List α}
    (hsorted : (played ++ remaining).Pairwise fun x y => key x < key y)
    (h : Redelivers remaining calls) :
    calls.foldl (fun t b => record key b t) (of played) = of (played ++ remaining) := by
  induction h generalizing played with
  | nil => rw [List.append_nil, List.foldl_nil]
  | @cons l calls a again _ ih =>
    rw [List.foldl_append, List.replicate_succ, List.foldl_cons,
      record_of_ne (ne_of_sorted_concat hsorted), foldl_record_replicate again List.getLast?_concat]
    have hassoc : played ++ a :: l = played ++ [a] ++ l := by
      rw [List.append_assoc, List.singleton_append]
    rw [hassoc] at hsorted ⊢
    exact ih hsorted

end Order

/-- The tally is that of a part of the elements, and those it leaves out are waiting. -/
def Accounts [LT κ] (key : α → κ) (owned : α → Prop) (waiting : κ → Prop) (t : Tally α) : Prop :=
  ∃ l : List α, l.Pairwise (fun x y => key x < key y) ∧ (∀ a ∈ l, owned a) ∧
    (∀ a, owned a → ¬ waiting (key a) → a ∈ l) ∧ t = of l

section Accounts

variable [LinearOrder κ] {key : α → κ} {owned owned' : α → Prop} {waiting waiting' : κ → Prop}
  {t : Tally α} {l m : List α}

theorem le_of_getLast? (hsorted : l.Pairwise fun x y => key x < key y) {a b : α}
    (hlast : l.getLast? = some b) (ha : a ∈ l) : key a ≤ key b := by
  obtain ⟨front, rfl⟩ := List.getLast?_eq_some_iff.mp hlast
  obtain hfront | hb := List.mem_append.mp ha
  · exact ((List.pairwise_append.mp hsorted).2.2 a hfront b List.mem_cons_self).le
  · rw [List.mem_singleton.mp hb]

theorem le_of_head? (hsorted : l.Pairwise fun x y => key x < key y) {a b : α}
    (hhead : l.head? = some b) (ha : a ∈ l) : key b ≤ key a := by
  cases l with
  | nil => cases ha
  | cons c l =>
    cases hhead
    obtain rfl | ha := List.mem_cons.mp ha
    · exact le_rfl
    · exact ((List.pairwise_cons.mp hsorted).1 a ha).le

theorem Accounts.nothing (h : ∀ a, ¬ owned a) : Accounts key owned waiting ⟨0, none, none⟩ :=
  ⟨[], List.Pairwise.nil, by simp, fun a ha => absurd ha (h a), rfl⟩

theorem Accounts.mono (h : Accounts key owned waiting t) (howned : ∀ a, owned a → owned' a)
    (hdone : ∀ a, owned' a → ¬ waiting' (key a) → owned a ∧ ¬ waiting (key a)) :
    Accounts key owned' waiting' t := by
  obtain ⟨l, hsorted, hmem, hleft, rfl⟩ := h
  refine ⟨l, hsorted, fun a ha => howned a (hmem a ha), ?_, rfl⟩
  intro a ha hnot
  obtain ⟨hold, hnot⟩ := hdone a ha hnot
  exact hleft a hold hnot

/-- Nothing is recorded twice as long as nothing is recorded behind the last element. -/
theorem Accounts.record [DecidableEq κ] (h : Accounts key owned waiting t) {a : α} (ha : owned a)
    (hunique : ∀ b, owned b → key b = key a → b = a) (horder : ∀ b ∈ t.last, key b ≤ key a)
    (hwaiting : ∀ k, waiting k → k = key a ∨ waiting' k) :
    Accounts key owned waiting' (t.record key a) := by
  obtain ⟨l, hsorted, hmem, hleft, rfl⟩ := h
  have hleft' : ∀ b, owned b → ¬ waiting' (key b) → b = a ∨ b ∈ l := by
    intro b hb hnot
    obtain hwaits | hdone := Classical.em (waiting (key b))
    · obtain hkey | hwaits := hwaiting _ hwaits
      · exact .inl (hunique b hb hkey)
      · exact absurd hwaits hnot
    · exact .inr (hleft b hb hdone)
  obtain hlast | hbehind : l.getLast? = some a ∨ ∀ b ∈ l, key b < key a := by
    cases hlast : l.getLast? with
    | none =>
      right
      rw [List.getLast?_eq_none_iff.mp hlast]
      simp
    | some c =>
      obtain heq | hlt := (horder c hlast).eq_or_lt
      · left
        rw [hunique c (hmem c (List.mem_of_getLast? hlast)) heq]
      · right
        exact fun b hb => (le_of_getLast? hsorted hlast hb).trans_lt hlt
  · rw [record_of_last hlast]
    refine ⟨l, hsorted, hmem, fun b hb hnot => ?_, rfl⟩
    obtain rfl | hb := hleft' b hb hnot
    · exact List.mem_of_getLast? hlast
    · exact hb
  · rw [record_of_ne fun b hb => (hbehind b hb).ne]
    refine ⟨l ++ [a], ?_, ?_, fun b hb hnot => ?_, rfl⟩
    · refine List.pairwise_append.mpr ⟨hsorted, List.pairwise_singleton _ _, ?_⟩
      intro b hb c hc
      rw [List.mem_singleton.mp hc]
      exact hbehind b hb
    · intro b hb
      obtain hb | hb := List.mem_append.mp hb
      · exact hmem b hb
      · rwa [List.mem_singleton.mp hb]
    · obtain rfl | hb := hleft' b hb hnot
      · exact List.mem_append_right _ List.mem_cons_self
      · exact List.mem_append_left _ hb

theorem Accounts.map (h : Accounts key owned waiting t) {f : α → α} (hkey : ∀ a, key (f a) = key a)
    (howned : ∀ a, owned a → owned' (f a))
    (hnew : ∀ b, owned' b → ∃ a, owned a ∧ f a = b) :
    Accounts key owned' waiting ⟨t.count, t.first.map f, t.last.map f⟩ := by
  obtain ⟨l, hsorted, hmem, hleft, rfl⟩ := h
  refine ⟨l.map f, ?_, ?_, ?_, ?_⟩
  · exact List.pairwise_map.mpr (hsorted.imp fun hlt => by rwa [hkey, hkey])
  · intro b hb
    obtain ⟨a, ha, rfl⟩ := List.mem_map.mp hb
    exact howned a (hmem a ha)
  · intro b hb hnot
    obtain ⟨a, ha, rfl⟩ := hnew b hb
    rw [hkey] at hnot
    exact List.mem_map_of_mem (hleft a ha hnot)
  · rw [of, of, List.length_map, List.head?_map, List.getLast?_map]

/-- A tally of everything leaves nothing out, whatever is waiting. -/
theorem accounts_of_all (hsorted : l.Pairwise fun x y => key x < key y)
    (h : ∀ a, a ∈ l ↔ owned a) : Accounts key owned waiting (of l) :=
  ⟨l, hsorted, fun a => (h a).mp, fun a ha _ => (h a).mpr ha, rfl⟩

theorem Accounts.complete (h : Accounts key owned waiting t) (hnone : ∀ k, ¬ waiting k) :
    ∃ l : List α, l.Pairwise (fun x y => key x < key y) ∧ (∀ a, a ∈ l ↔ owned a) ∧ t = of l := by
  obtain ⟨l, hsorted, hmem, hleft, rfl⟩ := h
  exact ⟨l, hsorted, fun a => ⟨hmem a, fun ha => hleft a ha (hnone _)⟩, rfl⟩

end Accounts

end Tally

end Swat4Stats
