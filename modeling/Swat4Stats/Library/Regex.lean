import Swat4Stats.Library.Text
import Mathlib.Data.List.Infix

/-!
# Backtracking regular expressions

An expression denotes the list of all ways to match from a position, in the order in which a
backtracking engine tries them: a match is the first of the list, and what a sequence makes of a
failed continuation is the next one. Greedy repetition never repeats an empty match.
-/

namespace Swat4Stats

set_option autoImplicit false

/-- What is left to read, and the groups captured so far, the latest first. -/
structure MatchState where
  rest : Text
  groups : List (String × Text) := []
  deriving DecidableEq, Repr

inductive Regex where
  | eps
  | set (p : Char → Bool)
  | seq (r s : Regex)
  | alt (r s : Regex)
  | star (r : Regex)
  | lazyStar (r : Regex)
  | group (name : String) (r : Regex)
  | endOfText

namespace Regex

/-- Greedy repetition, at most `fuel` times. -/
def repeats (step : MatchState → List MatchState) : ℕ → MatchState → List MatchState
  | 0, st => [st]
  | fuel + 1, st =>
    ((step st).filter fun st' => st'.rest.length < st.rest.length).flatMap (repeats step fuel) ++
      [st]

/-- Lazy repetition, at most `fuel` times. -/
def lazyRepeats (step : MatchState → List MatchState) : ℕ → MatchState → List MatchState
  | 0, st => [st]
  | fuel + 1, st =>
    st :: ((step st).filter fun st' => st'.rest.length < st.rest.length).flatMap
      (lazyRepeats step fuel)

def capture (name : String) (st st' : MatchState) : MatchState :=
  { st' with groups := (name, st.rest.take (st.rest.length - st'.rest.length)) :: st'.groups }

def results : Regex → MatchState → List MatchState
  | eps, st => [st]
  | set p, st =>
    match st.rest with
    | c :: rest => if p c then [{ st with rest }] else []
    | [] => []
  | seq r s, st => (r.results st).flatMap s.results
  | alt r s, st => r.results st ++ s.results st
  | star r, st => repeats r.results st.rest.length st
  | lazyStar r, st => lazyRepeats r.results st.rest.length st
  | group name r, st => (r.results st).map (capture name st)
  -- `$` also matches before a newline that ends the text
  | endOfText, st => if st.rest = [] ∨ st.rest = ['\n'] then [st] else []

attribute [local simp] results

def lit (c : Char) : Regex := set (· = c)

def text : Text → Regex
  | [] => eps
  | c :: s => seq (lit c) (text s)

def plus (r : Regex) : Regex := seq r (star r)

def opt (r : Regex) : Regex := alt r eps

/-- `re.match`. -/
def matchAt (r : Regex) (s : Text) : Option MatchState := (r.results { rest := s }).head?

/-- `re.search`: the leftmost position with a match, as the text before it and the match. -/
def search (r : Regex) : Text → Option (Text × MatchState)
  | [] => (r.matchAt []).map fun st => ([], st)
  | c :: s =>
    match r.matchAt (c :: s) with
    | some st => some ([], st)
    | none => (search r s).map fun found => (c :: found.1, found.2)

variable {r s : Regex} {st st' st'' : MatchState} {name : String} {p : Char → Bool}

theorem head?_flatMap {α β : Type} {l : List α} {f : α → List β} {a : α} {b : β}
    (hl : l.head? = some a) (ha : (f a).head? = some b) : (l.flatMap f).head? = some b := by
  obtain ⟨l', rfl⟩ : ∃ l', l = a :: l' := by
    cases l with
    | nil => cases hl
    | cons x l => exact ⟨l, by simpa using hl⟩
  obtain ⟨m, hm⟩ : ∃ m, f a = b :: m := by
    cases h : f a with
    | nil =>
      rw [h] at ha
      cases ha
    | cons x m =>
      rw [h] at ha
      exact ⟨m, by simpa using ha⟩
  simp [hm]

theorem head?_seq (hr : (r.results st).head? = some st') (hs : (s.results st').head? = some st'') :
    ((seq r s).results st).head? = some st'' :=
  head?_flatMap hr hs

theorem head?_group (hr : (r.results st).head? = some st') :
    ((group name r).results st).head? = some (capture name st st') := by
  simp [hr]

theorem head?_opt (hr : (r.results st).head? = some st') :
    ((opt r).results st).head? = some st' := by
  simp [opt, hr]

theorem results_opt_of_nil (hr : r.results st = []) : (opt r).results st = [st] := by
  simp [opt, hr]

theorem results_group_of_nil (hr : r.results st = []) : (group name r).results st = [] := by
  simp [hr]

theorem results_seq_of_nil (hr : r.results st = []) : (seq r s).results st = [] := by
  simp [hr]

theorem results_lit {c d : Char} {rest : Text} {groups : List (String × Text)} :
    (lit c).results ⟨d :: rest, groups⟩ = if d = c then [⟨rest, groups⟩] else [] := by
  simp [lit]

theorem prefix_of_results_text {t : Text} (h : (text t).results st ≠ []) : t <+: st.rest := by
  induction t generalizing st with
  | nil => exact List.nil_prefix
  | cons c t ih =>
    obtain ⟨rest, groups⟩ := st
    obtain hlit | hlit := Decidable.em ((lit c).results ⟨rest, groups⟩ = [])
    · exact absurd (results_seq_of_nil hlit) h
    · cases rest with
      | nil => exact absurd rfl hlit
      | cons d rest =>
        obtain rfl | hdc := eq_or_ne d c
        · rw [text, results, results_lit, if_pos rfl, List.flatMap_singleton] at h
          exact List.cons_prefix_cons.mpr ⟨rfl, ih h⟩
        · rw [results_lit, if_neg hdc] at hlit
          exact absurd rfl hlit

theorem repeats_fuel {step : MatchState → List MatchState} {fuel : ℕ} {st : MatchState}
    (h : st.rest.length ≤ fuel) : repeats step fuel st = repeats step st.rest.length st := by
  suffices hall : ∀ n m, ∀ st : MatchState, st.rest.length ≤ n → st.rest.length ≤ m →
      repeats step n st = repeats step m st from hall fuel _ st h le_rfl
  have hzero : ∀ m, ∀ st : MatchState, st.rest.length = 0 → repeats step m st = [st] := by
    intro m st hst
    cases m with
    | zero => rfl
    | succ m => simp [repeats, hst]
  intro n
  induction n with
  | zero =>
    intro m st hn hm
    have hst : st.rest.length = 0 := by omega
    rw [hzero 0 st hst, hzero m st hst]
  | succ n ih =>
    intro m st hn hm
    cases m with
    | zero =>
      have hst : st.rest.length = 0 := by omega
      rw [hzero 0 st hst, hzero (n + 1) st hst]
    | succ m =>
      simp only [repeats]
      congr 1
      apply List.flatMap_congr
      intro st' hst'
      have hlt : st'.rest.length < st.rest.length := by
        simpa using (List.mem_filter.mp hst').2
      exact ih m st' (by omega) (by omega)

theorem results_star (r : Regex) (st : MatchState) :
    (star r).results st =
      ((r.results st).filter fun st' => st'.rest.length < st.rest.length).flatMap (star r).results
        ++ [st] := by
  cases hlength : st.rest.length with
  | zero => simp [results, hlength, repeats]
  | succ n =>
    simp only [results, hlength, repeats]
    congr 1
    apply List.flatMap_congr
    intro st' hst'
    have hlt : st'.rest.length < n + 1 := by
      simpa using (List.mem_filter.mp hst').2
    exact repeats_fuel (by omega)

theorem results_star_of_nil (hr : r.results st = []) : (star r).results st = [st] := by
  rw [results_star, hr]
  rfl

theorem head?_star (hr : (r.results st).head? = some st')
    (hlt : st'.rest.length < st.rest.length)
    (hstar : ((star r).results st').head? = some st'') :
    ((star r).results st).head? = some st'' := by
  rw [results_star, List.head?_append]
  have hfilter : ((r.results st).filter fun st' => st'.rest.length < st.rest.length).head? =
      some st' := by
    obtain ⟨l, hl⟩ : ∃ l, r.results st = st' :: l := by
      cases h : r.results st with
      | nil =>
        rw [h] at hr
        cases hr
      | cons x l =>
        rw [h] at hr
        exact ⟨l, by simpa using hr⟩
    rw [hl, List.filter_cons_of_pos (by simpa using hlt)]
    rfl
  rw [head?_flatMap hfilter hstar]
  rfl

/-- A greedy class gives its characters back one by one, from the end. -/
theorem results_star_set {part rest : Text} (groups : List (String × Text))
    (hpart : ∀ c ∈ part, p c = true) (hrest : ∀ c ∈ rest.head?, p c = false) :
    (star (set p)).results ⟨part ++ rest, groups⟩ =
      part.tails.reverse.map fun tail => ⟨tail ++ rest, groups⟩ := by
  induction part with
  | nil =>
    apply results_star_of_nil
    cases rest with
    | nil => rfl
    | cons c rest =>
      have hc : p c = false := hrest c (by simp)
      simp [hc]
  | cons c part ih =>
    have hc : p c = true := hpart c (by simp)
    have hstep : (set p).results ⟨c :: (part ++ rest), groups⟩ = [⟨part ++ rest, groups⟩] := by
      simp [hc]
    rw [List.cons_append, results_star, hstep,
      List.filter_cons_of_pos (by simp), List.filter_nil, List.flatMap_singleton,
      ih fun c hc => hpart c (by simp [hc])]
    simp

theorem getLast?_tails {α : Type} (l : List α) : l.tails.getLast? = some [] := by
  induction l with
  | nil => rfl
  | cons x l ih => simp [List.getLast?_cons, ih]

theorem head?_plus_set {part rest : Text} (groups : List (String × Text)) (hne : part ≠ [])
    (hpart : ∀ c ∈ part, p c = true) (hrest : ∀ c ∈ rest.head?, p c = false) :
    ((plus (set p)).results ⟨part ++ rest, groups⟩).head? = some ⟨rest, groups⟩ := by
  obtain ⟨c, part, rfl⟩ := List.exists_cons_of_ne_nil hne
  have hc : p c = true := hpart c (by simp)
  refine head?_seq (?_ : _ = some ⟨part ++ rest, groups⟩) ?_
  · simp [hc]
  · rw [results_star_set groups (fun c hc => hpart c (by simp [hc])) hrest]
    simp [List.head?_reverse, getLast?_tails]

theorem results_text_append (t rest : Text) (groups : List (String × Text)) :
    (text t).results ⟨t ++ rest, groups⟩ = [⟨rest, groups⟩] := by
  induction t with
  | nil => rfl
  | cons c t ih =>
    have hlit : (lit c).results ⟨c :: (t ++ rest), groups⟩ = [⟨t ++ rest, groups⟩] := by
      rw [results_lit, if_pos rfl]
    rw [List.cons_append, text, results, hlit, List.flatMap_singleton, ih]

theorem head?_text_append (t rest : Text) (groups : List (String × Text)) :
    ((text t).results ⟨t ++ rest, groups⟩).head? = some ⟨rest, groups⟩ := by
  rw [results_text_append]
  rfl

theorem head?_text_endOfText (t : Text) (groups : List (String × Text)) :
    ((seq (text t) endOfText).results ⟨t, groups⟩).head? = some ⟨[], groups⟩ := by
  have htext := head?_text_append t [] groups
  rw [List.append_nil] at htext
  exact head?_seq htext rfl

theorem results_seq_text_of_suffix {t tail : Text} (htail : tail <:+ t) (hne : tail ≠ t)
    (groups : List (String × Text)) : (seq (text t) s).results ⟨tail, groups⟩ = [] := by
  apply results_seq_of_nil
  by_contra hresults
  have hle := (prefix_of_results_text hresults).length_le
  exact hne (htail.eq_of_length (le_antisymm htail.length_le hle))

theorem capture_append (name : String) (part rest : Text) (groups groups' : List (String × Text)) :
    capture name ⟨part ++ rest, groups⟩ ⟨rest, groups'⟩ = ⟨rest, (name, part) :: groups'⟩ := by
  simp [capture]

theorem head?_flatMap_append {α β : Type} {l₁ l₂ : List α} {f : α → List β} {a : α} {b : β}
    (hskip : ∀ x ∈ l₁, f x = []) (ha : (f a).head? = some b) :
    ((l₁ ++ a :: l₂).flatMap f).head? = some b := by
  rw [List.flatMap_append, List.flatMap_eq_nil_iff.mpr hskip, List.nil_append]
  exact head?_flatMap rfl ha

/-- The positions a greedy class gives back, down to the one before `v`. -/
theorem tails_reverse_append {α : Type} (u v : List α) :
    ∃ shorter longer, (u ++ v).tails.reverse = shorter ++ v :: longer ∧
      ∀ tail ∈ shorter, tail <:+ v ∧ tail ≠ v := by
  induction u with
  | nil =>
    cases v with
    | nil => exact ⟨[], [], rfl, by simp⟩
    | cons x v =>
      refine ⟨v.tails.reverse, [], by simp, ?_⟩
      intro tail htail
      have hsuffix : tail <:+ v := List.mem_tails _ _ |>.mp (List.mem_reverse.mp htail)
      refine ⟨hsuffix.trans (List.suffix_cons x v), ?_⟩
      rintro rfl
      have hle := hsuffix.length_le
      rw [List.length_cons] at hle
      omega
  | cons x u ih =>
    obtain ⟨shorter, longer, heq, hshorter⟩ := ih
    refine ⟨shorter, longer ++ [x :: (u ++ v)], ?_, hshorter⟩
    have htails : (x :: (u ++ v)).tails = (x :: (u ++ v)) :: (u ++ v).tails := rfl
    rw [List.cons_append, htails, List.reverse_cons, heq, List.append_assoc, List.cons_append]

theorem results_plus_set {c : Char} {part : Text} (groups : List (String × Text))
    (hall : ∀ d ∈ c :: part, p d = true) :
    (plus (set p)).results ⟨c :: part, groups⟩ =
      part.tails.reverse.map fun tail => ⟨tail, groups⟩ := by
  have hc : p c = true := hall c (by simp)
  have hset : (set p).results ⟨c :: part, groups⟩ = [⟨part, groups⟩] := by
    simp [hc]
  have hstar : (star (set p)).results ⟨part ++ [], groups⟩ =
      part.tails.reverse.map fun tail => ⟨tail ++ [], groups⟩ :=
    results_star_set groups (fun d hd => hall d (by simp [hd])) (by simp)
  simp only [List.append_nil] at hstar
  rw [plus, results, hset, List.flatMap_singleton, hstar]

/-- The group takes as much as leaves an ending that the rest of the pattern matches. -/
theorem head?_seq_group_plus_set (name : String) {c : Char} {u v : Text}
    (groups : List (String × Text))
    (hall : ∀ d ∈ c :: (u ++ v), p d = true)
    (hskip : ∀ tail, tail <:+ v → tail ≠ v → ∀ groups, s.results ⟨tail, groups⟩ = [])
    (hs : (s.results ⟨v, (name, c :: u) :: groups⟩).head? = some st') :
    ((seq (group name (plus (set p))) s).results ⟨c :: (u ++ v), groups⟩).head? = some st' := by
  obtain ⟨shorter, longer, htails, hshorter⟩ := tails_reverse_append u v
  have hcapture : capture name ⟨c :: (u ++ v), groups⟩ ⟨v, groups⟩ =
      ⟨v, (name, c :: u) :: groups⟩ := capture_append name (c :: u) v groups groups
  rw [results, results, results_plus_set groups hall, htails, List.map_append, List.map_cons,
    List.map_append, List.map_cons, hcapture]
  apply head?_flatMap_append
  · intro st hst
    obtain ⟨position, hposition, rfl⟩ := List.mem_map.mp hst
    obtain ⟨tail, htail, rfl⟩ := List.mem_map.mp hposition
    exact hskip tail (hshorter tail htail).1 (hshorter tail htail).2 _
  · exact hs

theorem results_seq_group_plus_set_of_nil {c : Char} {part : Text}
    (groups : List (String × Text)) (hall : ∀ d ∈ c :: part, p d = true)
    (hs : ∀ tail, tail <:+ part → ∀ groups, s.results ⟨tail, groups⟩ = []) :
    (seq (group name (plus (set p))) s).results ⟨c :: part, groups⟩ = [] := by
  rw [results, results, results_plus_set groups hall, List.flatMap_eq_nil_iff]
  intro st hst
  obtain ⟨position, hposition, rfl⟩ := List.mem_map.mp hst
  obtain ⟨tail, htail, rfl⟩ := List.mem_map.mp hposition
  exact hs tail (List.mem_tails _ _ |>.mp (List.mem_reverse.mp htail)) _

theorem head?_seq_group_plus_set_nil (name : String) {part : Text} (groups : List (String × Text))
    (hne : part ≠ []) (hall : ∀ d ∈ part, p d = true)
    (hs : (s.results ⟨[], (name, part) :: groups⟩).head? = some st') :
    ((seq (group name (plus (set p))) s).results ⟨part, groups⟩).head? = some st' := by
  obtain ⟨c, u, rfl⟩ := List.exists_cons_of_ne_nil hne
  have hall : ∀ d ∈ c :: (u ++ []), p d = true := by rwa [List.append_nil]
  have hskip : ∀ tail, tail <:+ [] → tail ≠ [] → ∀ groups, s.results ⟨tail, groups⟩ = [] :=
    fun tail htail hne => absurd (List.suffix_nil.mp htail) hne
  have hgroup := head?_seq_group_plus_set name groups hall hskip hs
  rwa [List.append_nil] at hgroup

theorem head?_group_plus_set_endOfText (name : String) {part : Text}
    (groups : List (String × Text)) (hne : part ≠ []) (hall : ∀ d ∈ part, p d = true) :
    ((seq (group name (plus (set p))) endOfText).results ⟨part, groups⟩).head? =
      some ⟨[], (name, part) :: groups⟩ :=
  head?_seq_group_plus_set_nil name groups hne hall rfl

/-- What a greedy class can leave: the text after some of what it accepts. -/
theorem results_star_set_eq (p : Char → Bool) (part : Text) (groups : List (String × Text)) :
    (star (set p)).results ⟨part, groups⟩ =
      (part.takeWhile p).tails.reverse.map fun tail => ⟨tail ++ part.dropWhile p, groups⟩ := by
  have hpart : ∀ d ∈ part.takeWhile p, p d = true := fun d hd => List.mem_takeWhile_imp hd
  have hstop : ∀ d ∈ (part.dropWhile p).head?, p d = false := by
    intro d hd
    have hhead := List.head?_dropWhile_not p part
    rw [hd] at hhead
    exact hhead
  have hsplit := results_star_set groups hpart hstop
  rwa [List.takeWhile_append_dropWhile] at hsplit

theorem results_endOfText_of_not (h : ¬ (st.rest = [] ∨ st.rest = ['\n'])) :
    endOfText.results st = [] := if_neg h

/-- A class and the end of the text match no other text than one of the class. -/
theorem forall_of_results_group_plus_set {part : Text} {groups : List (String × Text)}
    (hline : '\n' ∉ part)
    (h : (seq (group name (plus (set p))) endOfText).results ⟨part, groups⟩ ≠ []) :
    part ≠ [] ∧ ∀ c ∈ part, p c = true := by
  cases part with
  | nil => exact absurd rfl h
  | cons c part =>
    have hc : p c = true := by
      by_contra hc
      apply h
      apply results_seq_of_nil
      apply results_group_of_nil
      apply results_seq_of_nil
      simp [hc]
    have hset : (set p).results ⟨c :: part, groups⟩ = [⟨part, groups⟩] := by
      simp [hc]
    obtain ⟨st, hst⟩ := List.exists_mem_of_ne_nil _ h
    rw [results, results, plus, results, hset, List.flatMap_singleton, results_star_set_eq,
      List.map_map] at hst
    obtain ⟨position, hposition, hend⟩ := List.mem_flatMap.mp hst
    obtain ⟨tail, _, rfl⟩ := List.mem_map.mp hposition
    have hrest : tail ++ part.dropWhile p = [] ∨ tail ++ part.dropWhile p = ['\n'] := by
      by_contra hnot
      rw [results_endOfText_of_not hnot] at hend
      cases hend
    have hdrop : part.dropWhile p = [] := by
      obtain hnil | hnewline := hrest
      · exact (List.append_eq_nil_iff.mp hnil).2
      · by_contra hne
        have hmem : '\n' ∈ part.dropWhile p := by
          obtain ⟨d, hd⟩ := List.exists_mem_of_ne_nil _ hne
          have hsingle : d ∈ ['\n'] := hnewline ▸ List.mem_append_right tail hd
          rwa [List.mem_singleton.mp hsingle] at hd
        exact hline (List.mem_cons_of_mem c ((List.dropWhile_suffix p).subset hmem))
    refine ⟨List.cons_ne_nil c part, ?_⟩
    intro d hd
    obtain rfl | hd := List.mem_cons.mp hd
    · exact hc
    · exact List.dropWhile_eq_nil_iff.mp hdrop d hd

def groupNames : Regex → List String
  | eps => []
  | set _ => []
  | seq r s => r.groupNames ++ s.groupNames
  | alt r s => r.groupNames ++ s.groupNames
  | star r => r.groupNames
  | lazyStar r => r.groupNames
  | group name r => name :: r.groupNames
  | endOfText => []

theorem lookup_repeats {step : MatchState → List MatchState}
    (hstep : ∀ st, ∀ st' ∈ step st, st'.groups.lookup name = st.groups.lookup name) (fuel : ℕ)
    (st : MatchState) :
    ∀ st' ∈ repeats step fuel st, st'.groups.lookup name = st.groups.lookup name := by
  induction fuel generalizing st with
  | zero =>
    intro st' hst'
    rw [List.mem_singleton.mp hst']
  | succ fuel ih =>
    intro st' hst'
    obtain hst' | hst' := List.mem_append.mp hst'
    · obtain ⟨mid, hmid, hst'⟩ := List.mem_flatMap.mp hst'
      rw [ih mid st' hst', hstep st mid (List.mem_filter.mp hmid).1]
    · rw [List.mem_singleton.mp hst']

theorem lookup_lazyRepeats {step : MatchState → List MatchState}
    (hstep : ∀ st, ∀ st' ∈ step st, st'.groups.lookup name = st.groups.lookup name) (fuel : ℕ)
    (st : MatchState) :
    ∀ st' ∈ lazyRepeats step fuel st, st'.groups.lookup name = st.groups.lookup name := by
  induction fuel generalizing st with
  | zero =>
    intro st' hst'
    rw [List.mem_singleton.mp hst']
  | succ fuel ih =>
    intro st' hst'
    obtain rfl | hst' := List.mem_cons.mp hst'
    · rfl
    · obtain ⟨mid, hmid, hst'⟩ := List.mem_flatMap.mp hst'
      rw [ih mid st' hst', hstep st mid (List.mem_filter.mp hmid).1]

/-- An expression only captures its own groups. -/
theorem lookup_results (hname : name ∉ r.groupNames) (st : MatchState) :
    ∀ st' ∈ r.results st, st'.groups.lookup name = st.groups.lookup name := by
  induction r generalizing st with
  | eps =>
    intro st' hst'
    rw [List.mem_singleton.mp hst']
  | set p =>
    intro st' hst'
    rw [results] at hst'
    split at hst'
    · split at hst'
      · rw [List.mem_singleton.mp hst']
      · cases hst'
    · cases hst'
  | seq r s ihr ihs =>
    intro st' hst'
    rw [groupNames, List.mem_append, not_or] at hname
    obtain ⟨mid, hmid, hst'⟩ := List.mem_flatMap.mp hst'
    rw [ihs hname.2 mid st' hst', ihr hname.1 st mid hmid]
  | alt r s ihr ihs =>
    intro st' hst'
    rw [groupNames, List.mem_append, not_or] at hname
    obtain hst' | hst' := List.mem_append.mp hst'
    · exact ihr hname.1 st st' hst'
    · exact ihs hname.2 st st' hst'
  | star r ih => exact lookup_repeats (ih hname) st.rest.length st
  | lazyStar r ih => exact lookup_lazyRepeats (ih hname) st.rest.length st
  | group n r ih =>
    intro st' hst'
    rw [groupNames, List.mem_cons, not_or] at hname
    obtain ⟨mid, hmid, rfl⟩ := List.mem_map.mp hst'
    rw [← ih hname.2 st mid hmid, capture, List.lookup_cons, beq_false_of_ne hname.1]
  | endOfText =>
    intro st' hst'
    rw [results] at hst'
    split at hst'
    · rw [List.mem_singleton.mp hst']
    · cases hst'

theorem exists_of_mem_plus_set (h : st' ∈ (plus (set p)).results st) :
    ∃ part, part ≠ [] ∧ (∀ c ∈ part, p c = true) ∧ st = ⟨part ++ st'.rest, st'.groups⟩ := by
  obtain ⟨rest, groups⟩ := st
  cases rest with
  | nil => cases h
  | cons c rest =>
    obtain hc | hc := Bool.eq_false_or_eq_true (p c)
    · have hset : (set p).results ⟨c :: rest, groups⟩ = [⟨rest, groups⟩] := by
        simp [hc]
      rw [plus, results, hset, List.flatMap_singleton, results_star_set_eq] at h
      obtain ⟨tail, htail, rfl⟩ := List.mem_map.mp h
      obtain ⟨part, hpart⟩ := (List.mem_tails _ _).mp (List.mem_reverse.mp htail)
      refine ⟨c :: part, List.cons_ne_nil c part, ?_, ?_⟩
      · intro d hd
        obtain rfl | hd := List.mem_cons.mp hd
        · exact hc
        · exact List.mem_takeWhile_imp (hpart ▸ List.mem_append_left tail hd)
      · rw [← List.append_assoc, List.cons_append, hpart, List.cons_append,
          List.takeWhile_append_dropWhile]
    · have hnil : (set p).results ⟨c :: rest, groups⟩ = [] := by
        simp [hc]
      rw [plus, results_seq_of_nil hnil] at h
      cases h

theorem lookup_group_plus_set (hname : name ∉ s.groupNames)
    (h : st' ∈ (seq (group name (plus (set p))) s).results st) :
    ∃ part, st'.groups.lookup name = some part ∧ part ≠ [] ∧ ∀ c ∈ part, p c = true := by
  obtain ⟨mid, hmid, hst'⟩ := List.mem_flatMap.mp h
  obtain ⟨taken, htaken, rfl⟩ := List.mem_map.mp hmid
  obtain ⟨part, hne, hpart, rfl⟩ := exists_of_mem_plus_set htaken
  refine ⟨part, ?_, hne, hpart⟩
  rw [lookup_results hname _ st' hst',
    capture_append name part taken.rest taken.groups taken.groups, List.lookup_cons,
    beq_self_eq_true]

end Regex

end Swat4Stats
