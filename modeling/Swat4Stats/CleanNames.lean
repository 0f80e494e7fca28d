import Swat4Stats.Library.RegexLanguage
import Swat4Stats.PlayerNames
import Mathlib.Logic.Relation

/-!
# Clean names

`force_clean_name` removes tags until the pattern finds none, and then trims. Each round makes the
name shorter, so it ends; nothing but tags is taken out, and none is left.
-/

namespace Swat4Stats

set_option autoImplicit false

def IsTag (outside : External) (tag : Text) : Prop := (tagPattern outside).Matches tag

/-- One occurrence of a tag is cut out. -/
def CutsTag (outside : External) (s t : Text) : Prop :=
  ∃ before tag after, IsTag outside tag ∧ s = before ++ tag ++ after ∧ t = before ++ after

variable {outside : External} {name tag s : Text} {rounds : ℕ}

theorem unanchored_tagPattern (outside : External) : (tagPattern outside).unanchored = true := rfl

theorem IsTag.ne_nil (h : IsTag outside tag) : tag ≠ [] := by
  cases h with
  | altLeft h =>
    cases h with
    | seq hopen _ =>
      cases hopen
      exact List.cons_ne_nil _ _
  | altRight h =>
    cases h with
    | seq hopen _ =>
      cases hopen
      exact List.cons_ne_nil _ _

theorem cutsTag_removeAll (htag : IsTag outside tag) (name : Text) :
    Relation.ReflTransGen (CutsTag outside) name (removeAll tag name) := by
  have hparts : ∀ parts : List Text, ∀ before : Text,
      Relation.ReflTransGen (CutsTag outside) (before ++ Text.join tag parts)
        (before ++ parts.flatten) := by
    intro parts
    induction parts with
    | nil => exact fun before => .refl
    | cons part parts ih =>
      intro before
      cases parts with
      | nil =>
        rw [Text.join_singleton, List.flatten_singleton]
      | cons next parts =>
        rw [Text.join_cons_cons, List.flatten_cons, ← List.append_assoc before]
        refine .head ⟨before ++ part, tag, Text.join tag (next :: parts), htag, ?_, rfl⟩ ?_
        · simp
        · rw [← List.append_assoc]
          exact ih (before ++ part)
  have hjoin := hparts (Text.split tag name) []
  rwa [List.nil_append, List.nil_append, Text.join_split htag.ne_nil] at hjoin

theorem length_removeAll_lt (htag : IsTag outside tag) (h : tag <:+: name) :
    (removeAll tag name).length < name.length := by
  have htwo := Text.two_le_length_split h htag.ne_nil
  have hjoin := Text.join_split htag.ne_nil name
  have hpos := List.length_pos_iff.mpr htag.ne_nil
  have hpos : 0 < (Text.split tag name).length := by omega
  obtain ⟨part, parts, hparts⟩ := List.exists_cons_of_length_pos hpos
  rw [hparts, List.length_cons] at htwo
  have hlength := Text.length_join tag part parts
  have hmul : tag.length * 1 ≤ tag.length * parts.length := Nat.mul_le_mul_left _ (by omega)
  rw [← hparts, hjoin] at hlength
  rw [removeAll]
  omega

theorem removeTags_of_search (h : (tagPattern outside).search name = none) (rounds : ℕ) :
    removeTags outside rounds name = name := by
  cases rounds with
  | zero => rfl
  | succ rounds => simp only [removeTags, h]

/-- What a round does: the tag that is found is one, and it occurs. -/
theorem removeTags_succ (outside : External) (name : Text) :
    (tagPattern outside).search name = none ∨
      ∃ tag, IsTag outside tag ∧ tag <:+: name ∧ ∀ rounds,
        removeTags outside (rounds + 1) name = removeTags outside rounds (removeAll tag name) := by
  cases hsearch : (tagPattern outside).search name with
  | none => exact .inl rfl
  | some found =>
    obtain ⟨before, st⟩ := found
    obtain ⟨tag, hname, htag⟩ := Regex.exists_of_search (unanchored_tagPattern outside) hsearch
    have htake : (name.drop before.length).take
        (name.length - before.length - st.rest.length) = tag := by
      have hdrop : name.drop before.length = tag ++ st.rest := by
        rw [hname, List.append_assoc, List.drop_left]
      have hlength : name.length - before.length - st.rest.length = tag.length := by
        rw [hname, List.length_append, List.length_append]
        omega
      rw [hdrop, hlength, List.take_left]
    refine .inr ⟨tag, htag, ⟨before, st.rest, hname.symm⟩, ?_⟩
    intro rounds
    simp only [removeTags, hsearch, htake]

theorem cutsTag_removeTags (outside : External) (rounds : ℕ) (name : Text) :
    Relation.ReflTransGen (CutsTag outside) name (removeTags outside rounds name) := by
  induction rounds generalizing name with
  | zero => exact .refl
  | succ rounds ih =>
    obtain hnone | ⟨tag, htag, _, hstep⟩ := removeTags_succ outside name
    · rw [removeTags_of_search hnone]
    · rw [hstep]
      exact (cutsTag_removeAll htag name).trans (ih _)

/-- A name has no more rounds than characters. -/
theorem search_removeTags (h : name.length ≤ rounds) :
    (tagPattern outside).search (removeTags outside rounds name) = none := by
  induction rounds generalizing name with
  | zero =>
    obtain rfl := List.length_eq_zero_iff.mp (Nat.le_zero.mp h)
    apply Regex.search_eq_none (unanchored_tagPattern outside)
    intro part hpart htag
    exact IsTag.ne_nil htag (List.infix_nil.mp hpart)
  | succ rounds ih =>
    obtain hnone | ⟨tag, htag, hmem, hstep⟩ := removeTags_succ outside name
    · rw [removeTags_of_search hnone, hnone]
    · rw [hstep]
      have hlt := length_removeAll_lt htag hmem
      exact ih (by omega)

theorem removeTags_add (m n : ℕ) (name : Text) :
    removeTags outside (m + n) name = removeTags outside n (removeTags outside m name) := by
  induction m generalizing name with
  | zero =>
    rw [Nat.zero_add]
    rfl
  | succ m ih =>
    obtain hnone | ⟨tag, _, _, hstep⟩ := removeTags_succ outside name
    · rw [removeTags_of_search hnone, removeTags_of_search hnone, removeTags_of_search hnone]
    · rw [hstep, Nat.add_right_comm, hstep, ih]

theorem removeTags_eq (h : name.length ≤ rounds) :
    removeTags outside rounds name = removeTags outside name.length name := by
  obtain ⟨more, rfl⟩ := Nat.exists_eq_add_of_le h
  rw [removeTags_add, removeTags_of_search (search_removeTags le_rfl)]

theorem forceCleanName_spec (outside : External) (name : Text) :
    (∀ rounds, name.length ≤ rounds →
      removeTags outside rounds name = removeTags outside name.length name ∧
      (tagPattern outside).search (removeTags outside rounds name) = none) ∧
    (∀ part, part <:+: forceCleanName outside name → ¬ IsTag outside part) ∧
    (∀ c ∈ (forceCleanName outside name).head?, Text.isSpace c = false) ∧
    (∀ c ∈ (forceCleanName outside name).getLast?, Text.isSpace c = false) ∧
    (∃ cleaned, Relation.ReflTransGen (CutsTag outside) name cleaned ∧
      forceCleanName outside name = Text.strip cleaned) ∧
    forceCleanName outside (forceCleanName outside name) = forceCleanName outside name := by
  have hclean : ∀ part, part <:+: forceCleanName outside name → ¬ IsTag outside part := by
    intro part hpart
    have hinfix := Text.infix_stripBy Text.isSpace (removeTags outside name.length name)
    exact Regex.not_matches_of_search (search_removeTags le_rfl) (hpart.trans hinfix)
  refine ⟨fun rounds h => ⟨removeTags_eq h, search_removeTags h⟩, hclean,
    Text.head?_stripBy Text.isSpace _, Text.getLast?_stripBy Text.isSpace _,
    ⟨removeTags outside name.length name, cutsTag_removeTags outside _ name, rfl⟩, ?_⟩
  have hnone := Regex.search_eq_none (unanchored_tagPattern outside) hclean
  rw [forceCleanName, removeTags_of_search hnone]
  exact Text.stripBy_stripBy Text.isSpace _

end Swat4Stats
