import Mathlib.Data.List.DropRight
import Mathlib.Data.List.Induction
import Mathlib.Data.List.Nodup
import Mathlib.Tactic.Common

/-!
# Text

The string methods `split`, `join` and `strip` on lists of characters. A separator may be longer
than one character; its occurrences are found from the left and do not overlap.
-/

namespace Swat4Stats

set_option autoImplicit false

abbrev Text := List Char

namespace Text

universe u

variable {α : Type u}

def stripBy (p : α → Bool) (l : List α) : List α := (l.dropWhile p).rdropWhile p

theorem stripBy_eq_self {p : α → Bool} {l : List α} (hhead : ∀ x ∈ l.head?, p x = false)
    (hlast : ∀ x ∈ l.getLast?, p x = false) : stripBy p l = l := by
  have hdrop : l.dropWhile p = l := by
    cases l with
    | nil => rfl
    | cons x l =>
      have hx : p x = false := hhead x (by simp)
      simp [hx]
  rw [stripBy, hdrop, List.rdropWhile_eq_self_iff]
  intro hl
  have hlast := hlast (l.getLast hl) (by simp [List.getLast?_eq_some_getLast hl])
  simp [hlast]

theorem stripBy_of_forall_not {p : α → Bool} {l : List α} (h : ∀ x ∈ l, p x = false) :
    stripBy p l = l :=
  stripBy_eq_self (fun x hx => h x (List.mem_of_mem_head? hx))
    (fun x hx => h x (List.mem_of_mem_getLast? hx))

theorem infix_stripBy (p : α → Bool) (l : List α) : stripBy p l <:+: l :=
  (List.rdropWhile_prefix p _).isInfix.trans (List.dropWhile_suffix p).isInfix

theorem getLast?_stripBy (p : α → Bool) (l : List α) :
    ∀ x ∈ (stripBy p l).getLast?, p x = false := by
  intro x hx
  obtain ⟨hne, rfl⟩ := List.mem_getLast?_eq_getLast hx
  exact eq_false_of_ne_true (List.rdropWhile_last_not p (l.dropWhile p) hne)

theorem head?_stripBy (p : α → Bool) (l : List α) : ∀ x ∈ (stripBy p l).head?, p x = false := by
  intro x hx
  obtain ⟨t, ht⟩ := List.rdropWhile_prefix p (l.dropWhile p)
  have hhead : x ∈ (l.dropWhile p).head? := by
    rw [← ht, List.head?_append]
    exact Option.or_eq_some_iff.mpr (.inl hx)
  have hnot := List.head?_dropWhile_not p l
  rw [Option.mem_def.mp hhead] at hnot
  exact hnot

theorem stripBy_stripBy (p : α → Bool) (l : List α) : stripBy p (stripBy p l) = stripBy p l :=
  stripBy_eq_self (head?_stripBy p l) (getLast?_stripBy p l)

/-- The characters that `str.isspace` accepts. -/
def isSpace (c : Char) : Bool :=
  (9 ≤ c.toNat ∧ c.toNat ≤ 13) ∨ (28 ≤ c.toNat ∧ c.toNat ≤ 32) ∨ c.toNat = 0x85 ∨
    c.toNat = 0xA0 ∨ c.toNat = 0x1680 ∨ (0x2000 ≤ c.toNat ∧ c.toNat ≤ 0x200A) ∨
    c.toNat = 0x2028 ∨ c.toNat = 0x2029 ∨ c.toNat = 0x202F ∨ c.toNat = 0x205F ∨
    c.toNat = 0x3000

def strip (s : Text) : Text := stripBy isSpace s

/-- The characters that end a line for `str.splitlines`. -/
def isLineBreak (c : Char) : Bool :=
  (10 ≤ c.toNat ∧ c.toNat ≤ 13) ∨ (28 ≤ c.toNat ∧ c.toNat ≤ 30) ∨ c.toNat = 0x85 ∨
    c.toNat = 0x2028 ∨ c.toNat = 0x2029

/-- `s.splitlines()[0]`, for a text that is not empty. -/
def firstLine (s : Text) : Text := s.takeWhile fun c => !isLineBreak c

theorem forall_mem_of_all {t : Text} {p : Char → Prop} [DecidablePred p]
    (h : t.all (fun c => p c) = true) : ∀ c ∈ t, p c :=
  fun c hc => of_decide_eq_true (List.all_eq_true.mp h c hc)

/-- The zeros of the decimal digits of Unicode 16, each followed by the other nine digits. -/
def decimalZeros : List ℕ :=
  [0x30, 0x660, 0x6F0, 0x7C0, 0x966, 0x9E6, 0xA66, 0xAE6, 0xB66, 0xBE6, 0xC66, 0xCE6, 0xD66, 0xDE6,
    0xE50, 0xED0, 0xF20, 0x1040, 0x1090, 0x17E0, 0x1810, 0x1946, 0x19D0, 0x1A80, 0x1A90, 0x1B50,
    0x1BB0, 0x1C40, 0x1C50, 0xA620, 0xA8D0, 0xA900, 0xA9D0, 0xA9F0, 0xAA50, 0xABF0, 0xFF10, 0x104A0,
    0x10D30, 0x10D40, 0x11066, 0x110F0, 0x11136, 0x111D0, 0x112F0, 0x11450, 0x114D0, 0x11650,
    0x116C0, 0x116D0, 0x116DA, 0x11730, 0x118E0, 0x11950, 0x11BF0, 0x11C50, 0x11D50, 0x11DA0,
    0x11F50, 0x16130, 0x16A60, 0x16AC0, 0x16B50, 0x16D70, 0x1CCF0, 0x1D7CE, 0x1D7D8, 0x1D7E2,
    0x1D7EC, 0x1D7F6, 0x1E140, 0x1E2F0, 0x1E4F0, 0x1E5F1, 0x1E950, 0x1FBF0]

/-- The value of a decimal digit of any script. -/
def decimal? (c : Char) : Option ℕ :=
  (decimalZeros.find? fun first => first ≤ c.toNat ∧ c.toNat ≤ first + 9).map fun first =>
    c.toNat - first

/-- The digits that are no decimal ones, such as superscripts. -/
def otherDigits : List (ℕ × ℕ) :=
  [(0xB2, 0xB3), (0xB9, 0xB9), (0x1369, 0x1371), (0x19DA, 0x19DA), (0x2070, 0x2070),
    (0x2074, 0x2079), (0x2080, 0x2089), (0x2460, 0x2468), (0x2474, 0x247C), (0x2488, 0x2490),
    (0x24EA, 0x24EA), (0x24F5, 0x24FD), (0x24FF, 0x24FF), (0x2776, 0x277E), (0x2780, 0x2788),
    (0x278A, 0x2792), (0x10A40, 0x10A43), (0x10E60, 0x10E68), (0x11052, 0x1105A),
    (0x1F100, 0x1F10A)]

/-- `str.isdigit` of one character. -/
def isUnicodeDigit (c : Char) : Bool :=
  (decimal? c).isSome || otherDigits.any fun (first, last) => first ≤ c.toNat && c.toNat ≤ last

/-- The spaces that `int` strips: of those of `str.strip`, not the four separators of ASCII. -/
def isIntSpace (c : Char) : Bool := isSpace c ∧ ¬ (28 ≤ c.toNat ∧ c.toNat ≤ 31)

/-- The digits after the first: an underscore may stand between two of them. -/
def digitsGo (n : ℕ) : Text → Option ℕ
  | [] => some n
  | '_' :: c :: s => (decimal? c).bind fun digit => digitsGo (10 * n + digit) s
  | c :: s => (decimal? c).bind fun digit => digitsGo (10 * n + digit) s

def parseDigits : Text → Option ℕ
  | [] => none
  | c :: s => (decimal? c).bind fun digit => digitsGo digit s

/-- `int(s)`, with `none` for a `ValueError`. The number of digits is not limited, which is a
setting of the interpreter. -/
def parseInt (s : Text) : Option ℤ :=
  match stripBy isIntSpace s with
  | '-' :: digits => (parseDigits digits).map fun n => -n
  | '+' :: digits => (parseDigits digits).map fun n => n
  | digits => (parseDigits digits).map fun n => n

example : parseInt "\u00A0-\uFF11_\u0660\n".toList = some (-10) ∧
    parseInt "\u001C9".toList = none := by
  decide +kernel

theorem range_of_isDigit {c : Char} (hc : c.isDigit = true) : 48 ≤ c.toNat ∧ c.toNat ≤ 57 := by
  simpa [Char.isDigit, UInt32.le_iff_toNat_le] using hc

theorem decimal?_of_isDigit {c : Char} (hc : c.isDigit = true) :
    decimal? c = some (c.toNat - '0'.toNat) := by
  have hzeros : decimalZeros = 0x30 :: decimalZeros.tail := rfl
  rw [decimal?, hzeros, List.find?_cons_of_pos]
  · rfl
  · exact decide_eq_true (range_of_isDigit hc)

theorem isUnicodeDigit_of_isDigit {c : Char} (hc : c.isDigit = true) : isUnicodeDigit c = true := by
  rw [isUnicodeDigit, decimal?_of_isDigit hc]
  rfl

theorem digitsGo_of_isDigit {s : Text} (hs : ∀ c ∈ s, c.isDigit = true) (n : ℕ) :
    digitsGo n s = some (Nat.ofDigitChars 10 s n) := by
  induction s generalizing n with
  | nil => simp [digitsGo]
  | cons c s ih =>
    have hc : c.isDigit = true := hs c (by simp)
    have hunderscore : c ≠ '_' := by
      rintro rfl
      exact absurd hc (by decide)
    have hstep : digitsGo n (c :: s) =
        (decimal? c).bind fun digit => digitsGo (10 * n + digit) s := by
      rw [digitsGo]
      simp [hunderscore]
    rw [hstep, decimal?_of_isDigit hc, Option.bind_some, ih fun c hc => hs c (by simp [hc]),
      Nat.ofDigitChars_cons]

theorem isDigit_of_mem_toDigits {n : ℕ} {c : Char} (hc : c ∈ Nat.toDigits 10 n) :
    c.isDigit = true :=
  Nat.isDigit_of_mem_toDigits (by decide) (by decide) hc

theorem toDigits_cons (n : ℕ) : ∃ c s, Nat.toDigits 10 n = c :: s ∧ c.isDigit = true := by
  cases hs : Nat.toDigits 10 n with
  | nil => exact absurd hs Nat.toDigits_ne_nil
  | cons c s =>
    refine ⟨c, s, rfl, ?_⟩
    apply @isDigit_of_mem_toDigits n
    rw [hs]
    exact List.mem_cons_self

theorem isSpace_of_isDigit {c : Char} (hc : c.isDigit = true) : isSpace c = false := by
  have hrange := range_of_isDigit hc
  simp only [isSpace, decide_eq_false_iff_not]
  omega

theorem isIntSpace_of_not {c : Char} (hc : isSpace c = false) : isIntSpace c = false := by
  simp [isIntSpace, hc]

theorem parseDigits_toDigits (n : ℕ) : parseDigits (Nat.toDigits 10 n) = some n := by
  have hdigits : ∀ c ∈ Nat.toDigits 10 n, c.isDigit = true := fun c hc =>
    isDigit_of_mem_toDigits hc
  have hvalue : Nat.ofDigitChars 10 (Nat.toDigits 10 n) 0 = n := Nat.ofDigitChars_ten_toDigits
  obtain ⟨c, s, hs, hc⟩ := toDigits_cons n
  rw [hs] at hdigits hvalue ⊢
  rw [parseDigits, decimal?_of_isDigit hc, Option.bind_some,
    digitsGo_of_isDigit fun d hd => hdigits d (by simp [hd])]
  rw [Nat.ofDigitChars_cons, Nat.mul_zero, Nat.zero_add] at hvalue
  rw [hvalue]

theorem parseInt_toDigits (n : ℕ) : parseInt (Nat.toDigits 10 n) = some (n : ℤ) := by
  have hstrip : stripBy isIntSpace (Nat.toDigits 10 n) = Nat.toDigits 10 n :=
    stripBy_of_forall_not fun c hc =>
      isIntSpace_of_not (isSpace_of_isDigit (isDigit_of_mem_toDigits hc))
  have hparse := parseDigits_toDigits n
  rw [parseInt, hstrip]
  obtain ⟨c, s, hs, hc⟩ := toDigits_cons n
  rw [hs] at hparse ⊢
  have hminus : c ≠ '-' := by
    rintro rfl
    exact absurd hc (by decide)
  have hplus : c ≠ '+' := by
    rintro rfl
    exact absurd hc (by decide)
  simp [hminus, hplus, hparse]

theorem parseInt_neg_toDigits (n : ℕ) : parseInt ('-' :: Nat.toDigits 10 n) = some (-n : ℤ) := by
  have hspace : ∀ c ∈ '-' :: Nat.toDigits 10 n, isIntSpace c = false := by
    intro c hc
    obtain rfl | hc := List.mem_cons.mp hc
    · decide
    · exact isIntSpace_of_not (isSpace_of_isDigit (isDigit_of_mem_toDigits hc))
  have hstrip : stripBy isIntSpace ('-' :: Nat.toDigits 10 n) = '-' :: Nat.toDigits 10 n :=
    stripBy_of_forall_not hspace
  rw [parseInt, hstrip]
  simp [parseDigits_toDigits]

theorem toDigits_inj {m n : ℕ} (h : Nat.toDigits 10 m = Nat.toDigits 10 n) : m = n := by
  have hparse := parseInt_toDigits m
  rw [h, parseInt_toDigits] at hparse
  exact (Int.ofNat_inj.mp (Option.some.inj hparse)).symm

section Split

variable [DecidableEq α]

/-- `current` is the part read so far, backwards, and `skip` is what is left of a separator. -/
def splitGo (sep current : List α) : ℕ → List α → List (List α)
  | _, [] => [current.reverse]
  | skip + 1, _ :: l => splitGo sep current skip l
  | 0, x :: l =>
    if sep <+: x :: l then
      current.reverse :: splitGo sep [] (sep.length - 1) l
    else
      splitGo sep (x :: current) 0 l

def split (sep l : List α) : List (List α) := splitGo sep [] 0 l

/-- `split(sep, maxsplit=1)` for a separator of one character. -/
def splitFirst (sep : α) (l : List α) : List α × Option (List α) :=
  match l.dropWhile (· ≠ sep) with
  | [] => (l, none)
  | _ :: rest => (l.takeWhile (· ≠ sep), some rest)

def join (sep : List α) (parts : List (List α)) : List α := sep.intercalate parts

omit [DecidableEq α] in
theorem join_singleton (sep part : List α) : join sep [part] = part := by
  simp [join, List.intercalate]

omit [DecidableEq α] in
theorem join_cons_cons (sep part next : List α) (parts : List (List α)) :
    join sep (part :: next :: parts) = part ++ sep ++ join sep (next :: parts) := by
  simp [join, List.intercalate, List.intersperse]

omit [DecidableEq α] in
theorem flatMap_cons_eq_join (s : α) (parts : List (List α)) :
    (parts.flatMap fun part => s :: part) = join [s] ([] :: parts) := by
  suffices hparts : ∀ part, part ++ parts.flatMap (fun part => s :: part) =
      join [s] (part :: parts) from hparts []
  induction parts with
  | nil => simp [join_singleton]
  | cons next parts ih =>
    intro part
    rw [List.flatMap_cons, join_cons_cons, ← ih next]
    simp

variable {sep l : List α}

theorem splitGo_skip (current skipped l : List α) :
    splitGo sep current skipped.length (skipped ++ l) = splitGo sep current 0 l := by
  induction skipped with
  | nil => rfl
  | cons x skipped ih => exact ih

theorem splitGo_sep (hsep : sep ≠ []) (current l : List α) :
    splitGo sep current 0 (sep ++ l) = current.reverse :: splitGo sep [] 0 l := by
  obtain ⟨x, tail, rfl⟩ := List.exists_cons_of_ne_nil hsep
  have hinitial : x :: tail <+: x :: (tail ++ l) := ⟨l, rfl⟩
  simp only [List.cons_append, splitGo, if_pos hinitial, List.length_cons, Nat.add_sub_cancel]
  rw [splitGo_skip]

theorem splitGo_append {s : α} {tail part : List α} (hpart : s ∉ part) (current l : List α) :
    splitGo (s :: tail) current 0 (part ++ l) =
      splitGo (s :: tail) (part.reverse ++ current) 0 l := by
  induction part generalizing current with
  | nil => rfl
  | cons x part ih =>
    have hx : ¬ s :: tail <+: x :: (part ++ l) := by
      intro hinitial
      have hsx : s = x := (List.cons_prefix_cons.mp hinitial).1
      exact hpart (by simp [hsx])
    have hpart : s ∉ part := fun h => hpart (by simp [h])
    simp only [List.cons_append, splitGo, if_neg hx]
    rw [ih hpart]
    simp

theorem splitGo_of_not_mem {s : α} {tail part : List α} (hpart : s ∉ part) (current : List α) :
    splitGo (s :: tail) current 0 part = [current.reverse ++ part] := by
  have h : splitGo (s :: tail) current 0 (part ++ []) = _ := splitGo_append hpart current []
  rw [List.append_nil] at h
  simp [h, splitGo]

/-- `split` undoes `join` when the parts do not meet the separator. -/
theorem split_join {s : α} {tail : List α} {parts : List (List α)} (hne : parts ≠ [])
    (hparts : ∀ part ∈ parts, s ∉ part) : split (s :: tail) (join (s :: tail) parts) = parts := by
  induction parts with
  | nil => exact absurd rfl hne
  | cons part parts ih =>
    have hpart : s ∉ part := hparts part (by simp)
    cases parts with
    | nil => simp [split, join_singleton, splitGo_of_not_mem hpart]
    | cons next parts =>
      have ih := ih (by simp) fun part hmem => hparts part (by simp [hmem])
      rw [split] at ih ⊢
      rw [join_cons_cons, List.append_assoc, splitGo_append hpart, splitGo_sep (by simp), ih]
      simp

theorem splitGo_drop (sep current l : List α) (skip : ℕ) :
    splitGo sep current skip l = splitGo sep current 0 (l.drop skip) := by
  induction skip generalizing l with
  | zero => rfl
  | succ skip ih =>
    cases l with
    | nil => rfl
    | cons x l => exact ih l

theorem splitGo_ne_nil (sep current l : List α) : splitGo sep current 0 l ≠ [] := by
  induction l generalizing current with
  | nil => exact List.cons_ne_nil _ _
  | cons x l ih =>
    rw [splitGo]
    split
    · exact List.cons_ne_nil _ _
    · exact ih (x :: current)

/-- `join` undoes `split`. -/
theorem join_split (hsep : sep ≠ []) (l : List α) : join sep (split sep l) = l := by
  suffices hgo : ∀ n, ∀ l : List α, l.length ≤ n → ∀ current,
      join sep (splitGo sep current 0 l) = current.reverse ++ l from hgo _ l le_rfl []
  intro n
  induction n with
  | zero =>
    intro l hl current
    obtain rfl := List.length_eq_zero_iff.mp (Nat.le_zero.mp hl)
    rw [splitGo, join_singleton, List.append_nil]
  | succ n ih =>
    intro l hl current
    cases l with
    | nil => rw [splitGo, join_singleton, List.append_nil]
    | cons x l =>
      rw [List.length_cons] at hl
      rw [splitGo]
      split
      · rename_i hinitial
        obtain ⟨rest, hrest⟩ := hinitial
        obtain ⟨y, tail, rfl⟩ := List.exists_cons_of_ne_nil hsep
        obtain ⟨rfl, htail⟩ := List.cons.inj hrest
        have htail : tail ++ rest = l := htail
        rw [← htail] at hl ⊢
        rw [splitGo_drop, List.length_cons, Nat.add_sub_cancel, List.drop_left]
        have hlength : rest.length ≤ n := by
          rw [List.length_append] at hl
          omega
        obtain ⟨part, parts, hparts⟩ :=
          List.exists_cons_of_ne_nil (splitGo_ne_nil (y :: tail) [] rest)
        have hjoin := ih rest hlength []
        rw [hparts] at hjoin
        rw [hparts, join_cons_cons, hjoin]
        simp
      · rw [ih l (by omega) (x :: current)]
        simp

theorem two_le_length_split (h : sep <:+: l) (hsep : sep ≠ []) : 2 ≤ (split sep l).length := by
  obtain ⟨before, after, rfl⟩ := h
  suffices hgo : ∀ current, 2 ≤ (splitGo sep current 0 (before ++ sep ++ after)).length from hgo []
  have hfound : ∀ current x l, sep <+: x :: l → 2 ≤ (splitGo sep current 0 (x :: l)).length := by
    intro current x l hinitial
    have hpos := List.length_pos_iff.mpr
      (splitGo_ne_nil sep [] (l.drop (sep.length - 1)))
    rw [splitGo, if_pos hinitial, splitGo_drop, List.length_cons]
    omega
  induction before with
  | nil =>
    intro current
    obtain ⟨x, tail, rfl⟩ := List.exists_cons_of_ne_nil hsep
    exact hfound current x (tail ++ after) ⟨after, rfl⟩
  | cons x before ih =>
    intro current
    obtain hinitial | hinitial := Decidable.em (sep <+: x :: (before ++ sep ++ after))
    · exact hfound current x _ hinitial
    · rw [List.cons_append, List.cons_append, splitGo, if_neg hinitial]
      exact ih (x :: current)

omit [DecidableEq α] in
theorem length_join (sep part : List α) (parts : List (List α)) :
    (join sep (part :: parts)).length =
      (part :: parts).flatten.length + sep.length * parts.length := by
  induction parts generalizing part with
  | nil => simp [join_singleton]
  | cons next parts ih =>
    have hflatten : (part :: next :: parts).flatten.length =
        part.length + (next :: parts).flatten.length := by
      rw [List.flatten_cons, List.length_append]
    rw [join_cons_cons, List.length_append, List.length_append, ih, hflatten, List.length_cons,
      Nat.mul_succ]
    omega

/-- The parts do not meet a separator of one character. -/
theorem not_mem_of_mem_split {s : α} {l part : List α} (h : part ∈ split [s] l) : s ∉ part := by
  suffices hgo : ∀ current : List α, s ∉ current → ∀ part ∈ splitGo [s] current 0 l, s ∉ part from
    hgo [] List.not_mem_nil part h
  clear h part
  induction l with
  | nil =>
    intro current hcurrent part hpart
    obtain rfl := List.mem_singleton.mp hpart
    exact fun h => hcurrent (List.mem_reverse.mp h)
  | cons x l ih =>
    intro current hcurrent part hpart
    obtain rfl | hx := eq_or_ne s x
    · rw [splitGo, if_pos (by simp)] at hpart
      obtain rfl | hpart := List.mem_cons.mp hpart
      · exact fun h => hcurrent (List.mem_reverse.mp h)
      · exact ih [] List.not_mem_nil part hpart
    · rw [splitGo, if_neg (by simpa using hx)] at hpart
      refine ih (x :: current) ?_ part hpart
      rw [List.mem_cons, not_or]
      exact ⟨hx, hcurrent⟩

theorem split_of_not_mem {s : α} {l : List α} (h : s ∉ l) : split [s] l = [l] := by
  rw [split, splitGo_of_not_mem h]
  rfl

theorem split_append {s : α} (l l' : List α) :
    split [s] (l ++ s :: l') = split [s] l ++ split [s] l' := by
  suffices hgo : ∀ current, splitGo [s] current 0 (l ++ s :: l') =
      splitGo [s] current 0 l ++ splitGo [s] [] 0 l' from hgo []
  induction l with
  | nil =>
    intro current
    simp [splitGo]
  | cons x l ih =>
    intro current
    obtain rfl | hx := eq_or_ne s x
    · simp [splitGo, ih]
    · simp [splitGo, hx, ih]

/-- Separators at the ends only add empty parts. -/
theorem filter_split_stripBy (s : α) (l : List α) :
    (split [s] (stripBy (· = s) l)).filter (· ≠ []) = (split [s] l).filter (· ≠ []) := by
  have hnil : split [s] [] = [[]] := rfl
  have hcons : ∀ l, split [s] (s :: l) = [] :: split [s] l := fun l => split_append [] l
  have hconcat : ∀ l, split [s] (l ++ [s]) = split [s] l ++ [[]] := fun l => split_append l []
  have hfront : ∀ l, (split [s] (l.dropWhile (· = s))).filter (· ≠ []) =
      (split [s] l).filter (· ≠ []) := by
    intro l
    induction l with
    | nil => rfl
    | cons x l ih =>
      obtain rfl | hx := eq_or_ne x s
      · rw [List.dropWhile_cons_of_pos (by simp), ih, hcons,
          List.filter_cons_of_neg (by simp)]
      · rw [List.dropWhile_cons_of_neg (by simpa using hx)]
  have hback : ∀ l, (split [s] (l.rdropWhile (· = s))).filter (· ≠ []) =
      (split [s] l).filter (· ≠ []) := by
    intro l
    induction l using List.reverseRecOn with
    | nil => rfl
    | append_singleton l x ih =>
      obtain rfl | hx := eq_or_ne x s
      · rw [List.rdropWhile_concat_pos _ _ _ (by simp), ih, hconcat, List.filter_append]
        simp
      · rw [List.rdropWhile_concat_neg _ _ _ (by simpa using hx)]
  rw [stripBy, hback, hfront]

theorem splitFirst_append {sep : α} {part : List α} (hpart : sep ∉ part) (rest : List α) :
    splitFirst sep (part ++ sep :: rest) = (part, some rest) := by
  have hall : ∀ x ∈ part, decide (x ≠ sep) = true := by
    intro x hx
    simpa using fun hxs : x = sep => hpart (hxs ▸ hx)
  have hdrop : (part ++ sep :: rest).dropWhile (· ≠ sep) = sep :: rest := by
    rw [List.dropWhile_append_of_pos hall]
    simp
  have htake : (part ++ sep :: rest).takeWhile (· ≠ sep) = part := by
    rw [List.takeWhile_append_of_pos hall]
    simp
  simp only [splitFirst, hdrop, htake]

theorem splitFirst_of_not_mem {sep : α} {l : List α} (h : sep ∉ l) :
    splitFirst sep l = (l, none) := by
  have hall : ∀ x ∈ l, decide (x ≠ sep) = true := by
    intro x hx
    simpa using fun hxs : x = sep => h (hxs ▸ hx)
  have hdrop : l.dropWhile (· ≠ sep) = [] := by
    rw [List.dropWhile_eq_nil_iff]
    exact hall
  simp only [splitFirst, hdrop]

end Split

end Text

end Swat4Stats
