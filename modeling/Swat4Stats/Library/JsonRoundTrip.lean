import Swat4Stats.Library.Json

/-!
# JSON is read back

What the decoder makes of an encoded value is a fold of its hooks over that value. Each part of a
text is read up to what follows it.
-/

namespace Swat4Stats

set_option autoImplicit false

namespace Json

open Percent (hexValue)

theorem hexValue_digitChar {n : ℕ} (h : n < 16) : hexValue n.digitChar = some n := by
  have hall : ∀ n : Fin 16, hexValue (n : ℕ).digitChar = some (n : ℕ) := by decide
  exact hall ⟨n, h⟩

theorem readHex4_digits {n : ℕ} (h : n < 0x10000) (rest : Text) :
    readHex4 ([n / 4096 % 16, n / 256 % 16, n / 16 % 16, n % 16].map Nat.digitChar ++ rest) =
      some (n, rest) := by
  have hdigit : ∀ m : ℕ, hexValue (m % 16).digitChar = some (m % 16) :=
    fun m => hexValue_digitChar (Nat.mod_lt m (by decide))
  have hvalue :
      4096 * (n / 4096 % 16) + 256 * (n / 256 % 16) + 16 * (n / 16 % 16) + n % 16 = n := by
    omega
  simp only [List.map_cons, List.map_nil, List.cons_append, List.nil_append, readHex4, hdigit,
    Option.bind_eq_bind, Option.bind_some, Option.pure_def, hvalue]

section Strings

variable (surrogate : ℕ → Char)

theorem chr_toNat (c : Char) : chr surrogate c.toNat = c := by
  have hvalid : c.toNat.isValidChar := c.valid
  rw [chr, if_pos hvalid, Char.ofNat_toNat]

theorem not_surrogate (c : Char) : ¬ (0xD800 ≤ c.toNat ∧ c.toNat ≤ 0xDFFF) := by
  have hvalid : c.toNat < 0xD800 ∨ 0xDFFF < c.toNat ∧ c.toNat < 0x110000 := c.valid
  omega

theorem readEscape_unicodeEscape {c : Char} (h : c.toNat < 0x10000) (rest : Text) :
    readEscape surrogate ((unicodeEscape c.toNat).tail ++ rest) = some (c, rest) := by
  have hhigh : ¬ (0xD800 ≤ c.toNat ∧ c.toNat ≤ 0xDBFF) := by
    have hnot := not_surrogate c
    omega
  rw [unicodeEscape, List.tail_cons, List.cons_append, readEscape, if_pos rfl, readUnicode,
    readHex4_digits h]
  simp only [Option.bind_eq_bind, Option.bind_some, if_neg hhigh, chr_toNat, Option.pure_def]

theorem readEscape_surrogates {c : Char} {high low : ℕ} (hhigh : 0xD800 ≤ high ∧ high ≤ 0xDBFF)
    (hlow : 0xDC00 ≤ low ∧ low ≤ 0xDFFF)
    (hsum : 0x10000 + (high - 0xD800) * 1024 + (low - 0xDC00) = c.toNat) (rest : Text) :
    readEscape surrogate ((unicodeEscape high).tail ++ unicodeEscape low ++ rest) =
      some (c, rest) := by
  rw [unicodeEscape, unicodeEscape, List.tail_cons, List.append_assoc, List.cons_append, readEscape,
    if_pos rfl, readUnicode, readHex4_digits (by omega)]
  simp only [Option.bind_eq_bind, Option.bind_some, if_pos hhigh, List.cons_append,
    readHex4_digits (by omega : low < 0x10000), if_pos hlow, hsum, chr_toNat, Option.pure_def]

theorem unescapes_of_mem {entry : Char × Char} (h : entry ∈ escapes) :
    unescapes.lookup entry.2 = some entry.1 ∧ entry.2 ≠ 'u' := by
  have hall : ∀ entry ∈ escapes, unescapes.lookup entry.2 = some entry.1 ∧ entry.2 ≠ 'u' := by
    decide
  exact hall entry h

/-- A character stands for itself, or an escape is read back as it. -/
theorem escapeChar_cases (c : Char) :
    (escapeChar c = [c] ∧ c ≠ '"' ∧ c ≠ '\\' ∧ ¬ c < ' ') ∨
      ∃ escape, escapeChar c = '\\' :: escape ∧
        ∀ rest, readEscape surrogate (escape ++ rest) = some (c, rest) := by
  rw [escapeChar]
  cases hletter : escapes.lookup c with
  | some letter =>
    right
    obtain ⟨hunescape, hu⟩ := unescapes_of_mem (OrderedDict.mem_of_lookup hletter)
    refine ⟨[letter], rfl, fun rest => ?_⟩
    rw [List.singleton_append, readEscape, if_neg hu, hunescape, Option.map_some]
  | none =>
    have hquote : c ≠ '"' := by
      rintro rfl
      exact absurd hletter (by decide)
    have hbackslash : c ≠ '\\' := by
      rintro rfl
      exact absurd hletter (by decide)
    simp only
    split
    · rename_i hprintable
      exact .inl ⟨rfl, hquote, hbackslash, Char.not_lt.mpr hprintable.1⟩
    · split
      · rename_i hbasic
        exact .inr ⟨_, rfl, fun rest => readEscape_unicodeEscape surrogate hbasic rest⟩
      · rename_i hbasic
        have hvalid : c.toNat < 0xD800 ∨ 0xDFFF < c.toNat ∧ c.toNat < 0x110000 := c.valid
        exact .inr ⟨_, rfl, readEscape_surrogates surrogate (by omega) (by omega) (by omega)⟩

theorem scanStringGo_escapeChar (c : Char) (fuel : ℕ) (rest : Text) :
    scanStringGo surrogate (fuel + 1) (escapeChar c ++ rest) =
      (scanStringGo surrogate fuel rest).map fun scanned => (c :: scanned.1, scanned.2) := by
  obtain ⟨hself, hquote, hbackslash, hcontrol⟩ | ⟨escape, hescape, hread⟩ :=
    escapeChar_cases surrogate c
  · rw [hself, List.singleton_append, scanStringGo, if_neg hquote, if_neg hbackslash,
      if_neg hcontrol]
    cases scanStringGo surrogate fuel rest with
    | none => rfl
    | some scanned => rfl
  · rw [hescape, List.cons_append, scanStringGo, if_neg (by decide), if_pos rfl, hread]
    simp only [Option.bind_eq_bind, Option.bind_some]
    cases scanStringGo surrogate fuel rest with
    | none => rfl
    | some scanned => rfl

theorem scanStringGo_quote (s rest : Text) {fuel : ℕ} (hfuel : s.length < fuel) :
    scanStringGo surrogate fuel (s.flatMap escapeChar ++ '"' :: rest) = some (s, rest) := by
  induction s generalizing fuel with
  | nil =>
    obtain ⟨fuel, rfl⟩ := Nat.exists_eq_succ_of_ne_zero (Nat.ne_of_gt hfuel)
    rfl
  | cons c s ih =>
    obtain ⟨fuel, rfl⟩ := Nat.exists_eq_succ_of_ne_zero (Nat.ne_zero_of_lt hfuel)
    have hs := @ih fuel (Nat.lt_of_succ_lt_succ hfuel)
    rw [List.flatMap_cons, List.append_assoc, scanStringGo_escapeChar, hs, Option.map_some]

theorem length_le_flatMap_escapeChar (s : Text) : s.length ≤ (s.flatMap escapeChar).length := by
  induction s with
  | nil => exact le_rfl
  | cons c s ih =>
    have hpos : 0 < (escapeChar c).length := by
      obtain ⟨hself, _⟩ | ⟨escape, hescape, _⟩ := escapeChar_cases Char.ofNat c
      · rw [hself]
        exact Nat.one_pos
      · rw [hescape]
        exact Nat.succ_pos _
    rw [List.flatMap_cons, List.length_append, List.length_cons]
    omega

theorem scanString_quote (s rest : Text) :
    scanString surrogate (s.flatMap escapeChar ++ '"' :: rest) = some (s, rest) := by
  apply scanStringGo_quote
  have hle := length_le_flatMap_escapeChar s
  rw [List.length_append, List.length_cons]
  omega

end Strings

/-- What may follow a number. -/
def EndsNumber (rest : Text) : Prop :=
  ∀ c ∈ rest.head?, c.isDigit = false ∧ c ≠ '.' ∧ c ≠ 'e' ∧ c ≠ 'E'

theorem endsNumber_cons {c : Char} (h : c ∈ [',', ']', '}']) (rest : Text) :
    EndsNumber (c :: rest) := by
  have hall : ∀ c ∈ [',', ']', '}'], c.isDigit = false ∧ c ≠ '.' ∧ c ≠ 'e' ∧ c ≠ 'E' :=
    Text.forall_mem_of_all (by decide)
  intro d hd
  rw [List.head?_cons, Option.mem_some_iff] at hd
  exact hall d (hd ▸ h)

theorem toDigits_leading {n : ℕ} (hn : 0 < n) :
    ∃ c s, Nat.toDigits 10 n = c :: s ∧ c ≠ '0' := by
  induction n using Nat.strongRecOn with
  | ind n ih =>
    by_cases hsmall : n < 10
    · have hall : ∀ n : Fin 10, 0 < (n : ℕ) → (n : ℕ).digitChar ≠ '0' := by decide
      exact ⟨_, [], Nat.toDigits_of_lt_base hsmall, hall ⟨n, hsmall⟩ hn⟩
    · obtain ⟨c, s, hdigits, hc⟩ := ih (n / 10) (by omega) (by omega)
      refine ⟨c, s ++ [(n % 10).digitChar], ?_, hc⟩
      rw [Nat.toDigits_of_base_le (by decide) (by omega), hdigits, List.cons_append]

theorem scanDigits_append {digits rest : Text} (hdigits : ∀ c ∈ digits, c.isDigit = true)
    (hrest : EndsNumber rest) : scanDigits (digits ++ rest) = (digits, rest) := by
  have htake : rest.takeWhile Char.isDigit = [] ∧ rest.dropWhile Char.isDigit = rest := by
    cases rest with
    | nil => exact ⟨rfl, rfl⟩
    | cons c rest =>
      have hc : ¬ c.isDigit = true := by
        rw [(hrest c rfl).1]
        decide
      exact ⟨List.takeWhile_cons_of_neg hc, List.dropWhile_cons_of_neg hc⟩
  rw [scanDigits, List.takeWhile_append_of_pos hdigits, List.dropWhile_append_of_pos hdigits,
    htake.1, htake.2, List.append_nil]

theorem scanNatural_toDigits (n : ℕ) {rest : Text} (hrest : EndsNumber rest) :
    scanNatural (Nat.toDigits 10 n ++ rest) = some (Nat.toDigits 10 n, rest) := by
  obtain rfl | hn := Nat.eq_zero_or_pos n
  · rfl
  · have hdigits : ∀ c ∈ Nat.toDigits 10 n, c.isDigit = true := fun c hc =>
      Text.isDigit_of_mem_toDigits hc
    have hscan := scanDigits_append hdigits hrest
    obtain ⟨c, s, hs, hc⟩ := toDigits_leading hn
    rw [hs] at hdigits hscan ⊢
    rw [List.cons_append] at hscan ⊢
    rw [scanNatural, if_neg hc, if_pos (hdigits c List.mem_cons_self), hscan]

theorem scanFraction_of_endsNumber {rest : Text} (hrest : EndsNumber rest) :
    scanFraction rest = ([], rest) := by
  cases rest with
  | nil => rfl
  | cons c rest =>
    obtain ⟨-, hdot, -, -⟩ := hrest c rfl
    rw [scanFraction]
    exact fun _ h => hdot (List.cons.inj h).1

theorem scanExponent_of_endsNumber {rest : Text} (hrest : EndsNumber rest) :
    scanExponent rest = ([], rest) := by
  cases rest with
  | nil => rfl
  | cons c rest =>
    obtain ⟨-, -, he, hE⟩ := hrest c rfl
    rw [scanExponent, if_neg]
    rintro ⟨rfl | rfl, -⟩
    · exact he rfl
    · exact hE rfl

theorem scanInteger_intText (n : ℤ) {rest : Text} (hrest : EndsNumber rest) :
    scanInteger (intText n ++ rest) = some (intText n, rest) := by
  cases n with
  | ofNat n =>
    have hscan := scanNatural_toDigits n hrest
    obtain ⟨c, s, hs, hc⟩ := Text.toDigits_cons n
    rw [intText]
    rw [hs, List.cons_append] at hscan ⊢
    rw [scanInteger]
    · exact hscan
    · intro _ h
      rw [(List.cons.inj h).1] at hc
      exact absurd hc (by decide)
  | negSucc n =>
    rw [intText, List.cons_append, scanInteger, scanNatural_toDigits (n + 1) hrest, Option.map_some]

theorem parseInt_intText (n : ℤ) : Text.parseInt (intText n) = some n := by
  cases n with
  | ofNat n => exact Text.parseInt_toDigits n
  | negSucc n => exact Text.parseInt_neg_toDigits (n + 1)

theorem intText_cons (n : ℤ) : ∃ c s, intText n = c :: s ∧ (c.isDigit = true ∨ c = '-') := by
  cases n with
  | ofNat n =>
    obtain ⟨c, s, hs, hc⟩ := Text.toDigits_cons n
    exact ⟨c, s, hs, .inl hc⟩
  | negSucc n => exact ⟨'-', _, rfl, .inr rfl⟩

theorem ne_of_number {c d : Char} (hc : c.isDigit = true ∨ c = '-')
    (hd : d.isDigit = false ∧ d ≠ '-') : d ≠ c := by
  rintro rfl
  obtain hdigit | hminus := hc
  · rw [hd.1] at hdigit
    exact absurd hdigit (by decide)
  · exact hd.2 hminus

section Values

variable {ε V : Type} (h : Hooks ε V)

mutual

/-- The hooks applied from the inside out. -/
def fold : PyValue → Except ε V
  | .none => pure h.null
  | .bool b => pure (h.bool b)
  | .int n => pure (h.int n)
  | .float x => pure (h.float (floatText x))
  | .str s => pure (h.str s)
  | .list items => do
    let values ← foldItems items
    pure (h.list values)
  | .dict items => do
    let entries ← foldEntries items
    h.object (OrderedDict.update [] entries)

def foldItems : List PyValue → Except ε (List V)
  | [] => pure []
  | item :: items => do
    let value ← fold item
    let values ← foldItems items
    pure (value :: values)

def foldEntries : List (Text × PyValue) → Except ε (List (Text × V))
  | [] => pure []
  | (key, item) :: items => do
    let value ← fold item
    let entries ← foldEntries items
    pure ((key, value) :: entries)

end

/-- Values without floats. -/
inductive Plain : PyValue → Prop
  | none : Plain .none
  | bool (b : Bool) : Plain (.bool b)
  | int (n : ℤ) : Plain (.int n)
  | str (s : Text) : Plain (.str s)
  | list {items : List PyValue} (hitems : ∀ item ∈ items, Plain item) : Plain (.list items)
  | dict {items : List (Text × PyValue)} (hitems : ∀ entry ∈ items, Plain entry.2) :
    Plain (.dict items)

theorem scanNumber_intText (n : ℤ) {rest : Text} (hrest : EndsNumber rest) :
    scanNumber h (intText n ++ rest) = some (h.int n, rest) := by
  simp only [scanNumber, scanInteger_intText n hrest, scanFraction_of_endsNumber hrest,
    scanExponent_of_endsNumber hrest, parseInt_intText, Option.bind_eq_bind, Option.bind_some,
    and_self, if_true, Option.pure_def]

theorem scanAtom_null (rest : Text) : scanAtom h ("null".toList ++ rest) = .ok (h.null, rest) := by
  rw [scanAtom, if_pos (List.prefix_append _ _)]
  rfl

theorem scanAtom_bool (b : Bool) (rest : Text) :
    scanAtom h (dumps (.bool b) ++ rest) = .ok (h.bool b, rest) := by
  cases b with
  | false => simp [scanAtom, dumps]
  | true => simp [scanAtom, dumps]

theorem scanAtom_intText (n : ℤ) {rest : Text} (hrest : EndsNumber rest) :
    scanAtom h (intText n ++ rest) = .ok (h.int n, rest) := by
  have hnumber := scanNumber_intText h n hrest
  obtain ⟨c, s, hs, hc⟩ := intText_cons n
  have hn : 'n' ≠ c := ne_of_number hc (by decide)
  have ht : 't' ≠ c := ne_of_number hc (by decide)
  have hf : 'f' ≠ c := ne_of_number hc (by decide)
  rw [hs, List.cons_append] at hnumber ⊢
  simp [scanAtom, hnumber, hn, ht, hf]

theorem scanOnce_scanAtom {c : Char} (hc : c ≠ '"' ∧ c ≠ '{' ∧ c ≠ '[') (fuel : ℕ) (rest : Text) :
    scanOnce h (fuel + 1) (c :: rest) = scanAtom h (c :: rest) := by
  rw [scanOnce, if_neg hc.1, if_neg hc.2.1, if_neg hc.2.2]

/-- No value starts with a space, the end of an array or a byte order mark. -/
theorem dumps_cons {v : PyValue} (hv : Plain v) :
    ∃ c s, dumps v = c :: s ∧ c ∉ [' ', '\t', '\n', '\r'] ∧ c ∉ [']', '\uFEFF'] := by
  cases hv with
  | none => exact ⟨'n', _, rfl, by decide⟩
  | bool b =>
    cases b with
    | false => exact ⟨'f', _, rfl, by decide⟩
    | true => exact ⟨'t', _, rfl, by decide⟩
  | int n =>
    obtain ⟨c, s, hs, hc⟩ := intText_cons n
    have hspace : ∀ d ∈ [' ', '\t', '\n', '\r'], d.isDigit = false ∧ d ≠ '-' :=
      Text.forall_mem_of_all (by decide)
    have hother : ∀ d ∈ [']', '\uFEFF'], d.isDigit = false ∧ d ≠ '-' :=
      Text.forall_mem_of_all (by decide)
    exact ⟨c, s, hs, fun hmem => ne_of_number hc (hspace c hmem) rfl,
      fun hmem => ne_of_number hc (hother c hmem) rfl⟩
  | str s => exact ⟨'"', _, rfl, by decide⟩
  | list _ => exact ⟨'[', _, rfl, by decide⟩
  | dict _ => exact ⟨'{', _, rfl, by decide⟩

theorem skipSpace_cons {c : Char} (hc : c ∉ [' ', '\t', '\n', '\r']) (s : Text) :
    skipSpace (c :: s) = c :: s := by
  rw [skipSpace, List.dropWhile_cons_of_neg]
  rwa [decide_eq_true_eq]

theorem skipSpace_dumps {v : PyValue} (hv : Plain v) (rest : Text) :
    skipSpace (dumps v ++ rest) = dumps v ++ rest := by
  obtain ⟨c, s, hs, hc, -⟩ := dumps_cons hv
  rw [hs, List.cons_append, skipSpace_cons hc]

section Loops

variable {scan : Text → Except ε (V × Text)} {n : ℕ}

/-- `scan` reads the encoded value, in texts shorter than `n`. -/
def Scans (scan : Text → Except ε (V × Text)) (n : ℕ) (v : PyValue) : Prop :=
  ∀ rest, EndsNumber rest → (dumps v ++ rest).length < n →
    scan (dumps v ++ rest) = (fold h v).map fun x => (x, rest)

theorem skipSpace_separator (rest : Text) : skipSpace (' ' :: rest) = skipSpace rest := rfl

theorem exists_join_cons (sep part : Text) (parts : List Text) :
    ∃ t, Text.join sep (part :: parts) = part ++ t := by
  cases parts with
  | nil => exact ⟨[], by rw [Text.join_singleton, List.append_nil]⟩
  | cons next parts => exact ⟨_, by rw [Text.join_cons_cons, List.append_assoc]⟩

theorem skipSpace_join_dumpsItems {item : PyValue} (hitem : Plain item) (items : List PyValue)
    (rest : Text) :
    skipSpace (Text.join ", ".toList (dumpsItems (item :: items)) ++ rest) =
      Text.join ", ".toList (dumpsItems (item :: items)) ++ rest := by
  obtain ⟨t, ht⟩ := exists_join_cons ", ".toList (dumps item) (dumpsItems items)
  rw [dumpsItems, ht, List.append_assoc, skipSpace_dumps hitem]

theorem scanItems_last {item : PyValue} {rest : Text}
    (hitem : scan (dumps item ++ ']' :: rest) = (fold h item).map fun x => (x, ']' :: rest))
    (fuel : ℕ) :
    scanItems h scan (fuel + 1) (dumps item ++ ']' :: rest) =
      (fold h item).map fun value => ([value], rest) := by
  rw [scanItems, hitem]
  cases fold h item with
  | error e => rfl
  | ok value => rfl

theorem scanItems_next {item : PyValue} {t : Text}
    (hitem : scan (dumps item ++ ',' :: ' ' :: t) = (fold h item).map fun x => (x, ',' :: ' ' :: t))
    (fuel : ℕ) :
    scanItems h scan (fuel + 1) (dumps item ++ ',' :: ' ' :: t) = (do
      let value ← fold h item
      let (values, rest) ← scanItems h scan fuel (skipSpace t)
      pure (value :: values, rest)) := by
  rw [scanItems, hitem]
  cases fold h item with
  | error e => rfl
  | ok value => rfl

theorem scanItems_dumpsItems {items : List PyValue} (hplain : ∀ item ∈ items, Plain item)
    (hscan : ∀ item ∈ items, Scans h scan n item) (hne : items ≠ []) {rest : Text} {fuel : ℕ}
    (hn : (Text.join ", ".toList (dumpsItems items) ++ ']' :: rest).length < n)
    (hfuel : (Text.join ", ".toList (dumpsItems items) ++ ']' :: rest).length < fuel) :
    scanItems h scan fuel (Text.join ", ".toList (dumpsItems items) ++ ']' :: rest) =
      (foldItems h items).map fun values => (values, rest) := by
  induction items generalizing fuel with
  | nil => exact absurd rfl hne
  | cons item items ih =>
    obtain ⟨fuel, rfl⟩ := Nat.exists_eq_succ_of_ne_zero (Nat.ne_zero_of_lt hfuel)
    obtain ⟨hitem, hitems⟩ := List.forall_mem_cons.mp hscan
    obtain ⟨-, hplainItems⟩ := List.forall_mem_cons.mp hplain
    cases items with
    | nil =>
      rw [dumpsItems, dumpsItems, Text.join_singleton] at hn ⊢
      rw [scanItems_last h (hitem _ (endsNumber_cons (by decide) rest) hn), foldItems, foldItems]
      cases fold h item with
      | error e => rfl
      | ok value => rfl
    | cons next items =>
      have hspace := skipSpace_join_dumpsItems (hplainItems next List.mem_cons_self) items
        (']' :: rest)
      have hrest := @ih hplainItems hitems (List.cons_ne_nil _ _) fuel
      have hsplit : Text.join ", ".toList (dumpsItems (item :: next :: items)) ++ ']' :: rest =
          dumps item ++ ',' :: ' ' ::
            (Text.join ", ".toList (dumpsItems (next :: items)) ++ ']' :: rest) := by
        rw [dumpsItems, dumpsItems, Text.join_cons_cons, List.append_assoc, List.append_assoc]
        rfl
      rw [hsplit] at hn hfuel ⊢
      -- the text of the items that follow, which is all that `hrest` speaks about
      generalize Text.join ", ".toList (dumpsItems (next :: items)) ++ ']' :: rest = t at *
      have hlength : (dumps item ++ ',' :: ' ' :: t).length =
          (dumps item).length + (t.length + 2) := by
        rw [List.length_append, List.length_cons, List.length_cons]
      rw [hlength] at hfuel
      have hvalues := hrest (by omega) (by omega)
      rw [scanItems_next h (hitem _ (endsNumber_cons (by decide) _) hn), hspace, foldItems, hvalues]
      cases fold h item with
      | error e => rfl
      | ok value =>
        cases foldItems h (next :: items) with
        | error e => rfl
        | ok values => rfl

theorem join_dumpsEntries_cons (key : Text) (value : PyValue) (items : List (Text × PyValue)) :
    ∃ s, Text.join ", ".toList (dumpsEntries ((key, value) :: items)) = '"' :: s := by
  obtain ⟨t, ht⟩ := exists_join_cons ", ".toList (quote key ++ ": ".toList ++ dumps value)
    (dumpsEntries items)
  exact ⟨_, by rw [dumpsEntries, ht, quote]; rfl⟩

theorem scanEntries_last {value : PyValue} (hplain : Plain value) (key : Text) {rest : Text}
    (hvalue : scan (dumps value ++ '}' :: rest) = (fold h value).map fun x => (x, '}' :: rest))
    (fuel : ℕ) :
    scanEntries h scan (fuel + 1)
        (key.flatMap escapeChar ++ '"' :: ':' :: ' ' :: (dumps value ++ '}' :: rest)) =
      (fold h value).map fun x => ([(key, x)], rest) := by
  rw [scanEntries, scanString_quote]
  change (scan (skipSpace (' ' :: (dumps value ++ _)))).bind _ = _
  rw [skipSpace_separator, skipSpace_dumps hplain, hvalue]
  cases fold h value with
  | error e => rfl
  | ok x => rfl

theorem scanEntries_next {value : PyValue} (hplain : Plain value) (key : Text) {t : Text}
    (hvalue : scan (dumps value ++ ',' :: ' ' :: '"' :: t) =
      (fold h value).map fun x => (x, ',' :: ' ' :: '"' :: t))
    (fuel : ℕ) :
    scanEntries h scan (fuel + 1)
        (key.flatMap escapeChar ++ '"' :: ':' :: ' ' :: (dumps value ++ ',' :: ' ' :: '"' :: t)) =
      (do
        let x ← fold h value
        let (entries, rest) ← scanEntries h scan fuel t
        pure ((key, x) :: entries, rest)) := by
  rw [scanEntries, scanString_quote]
  change (scan (skipSpace (' ' :: (dumps value ++ _)))).bind _ = _
  rw [skipSpace_separator, skipSpace_dumps hplain, hvalue]
  cases fold h value with
  | error e => rfl
  | ok x => rfl

theorem scanEntries_dumpsEntries {items : List (Text × PyValue)}
    (hplain : ∀ entry ∈ items, Plain entry.2) (hscan : ∀ entry ∈ items, Scans h scan n entry.2)
    {s rest : Text} {fuel : ℕ}
    (hs : Text.join ", ".toList (dumpsEntries items) ++ '}' :: rest = '"' :: s)
    (hn : s.length < n) (hfuel : s.length < fuel) :
    scanEntries h scan fuel s = (foldEntries h items).map fun entries => (entries, rest) := by
  induction items generalizing s fuel with
  | nil => exact absurd (List.cons.inj hs).1 (by decide)
  | cons entry items ih =>
    obtain ⟨key, value⟩ := entry
    obtain ⟨fuel, rfl⟩ := Nat.exists_eq_succ_of_ne_zero (Nat.ne_zero_of_lt hfuel)
    obtain ⟨hvalue, hitems⟩ := List.forall_mem_cons.mp hscan
    obtain ⟨hplainValue, hplainItems⟩ := List.forall_mem_cons.mp hplain
    change Scans h scan n value at hvalue
    cases items with
    | nil =>
      have hsplit : s = key.flatMap escapeChar ++ '"' :: ':' :: ' ' ::
          (dumps value ++ '}' :: rest) := by
        rw [dumpsEntries, dumpsEntries, Text.join_singleton, quote] at hs
        simpa using (List.cons.inj hs).2.symm
      have hlength := congrArg List.length hsplit
      simp only [List.length_append, List.length_cons] at hlength
      have hscanned := hvalue ('}' :: rest) (endsNumber_cons (by decide) rest)
        (by rw [List.length_append, List.length_cons]; omega)
      rw [hsplit, scanEntries_last h hplainValue key hscanned, foldEntries, foldEntries]
      cases fold h value with
      | error e => rfl
      | ok x => rfl
    | cons next items =>
      obtain ⟨nextKey, nextValue⟩ := next
      -- the next entry starts with the quote of its key, after which the loop goes on
      obtain ⟨t, ht⟩ := join_dumpsEntries_cons nextKey nextValue items
      have hsplit : s = key.flatMap escapeChar ++ '"' :: ':' :: ' ' ::
          (dumps value ++ ',' :: ' ' :: '"' :: (t ++ '}' :: rest)) := by
        rw [dumpsEntries, dumpsEntries, Text.join_cons_cons, ← dumpsEntries, ht, quote] at hs
        simpa using (List.cons.inj hs).2.symm
      have hrest := @ih hplainItems hitems (t ++ '}' :: rest) fuel (by rw [ht, List.cons_append])
      have hlength := congrArg List.length hsplit
      simp only [List.length_append, List.length_cons] at hlength hrest
      have hentries := hrest (by omega) (by omega)
      have hscanned := hvalue (',' :: ' ' :: '"' :: (t ++ '}' :: rest))
        (endsNumber_cons (by decide) _)
        (by simp only [List.length_append, List.length_cons]; omega)
      rw [hsplit, scanEntries_next h hplainValue key hscanned, foldEntries, hentries]
      cases fold h value with
      | error e => rfl
      | ok x =>
        cases foldEntries h ((nextKey, nextValue) :: items) with
        | error e => rfl
        | ok entries => rfl

theorem scanArray_dumpsItems {items : List PyValue} (hplain : ∀ item ∈ items, Plain item)
    (hscan : ∀ item ∈ items, Scans h scan n item) {rest : Text}
    (hn : (Text.join ", ".toList (dumpsItems items) ++ ']' :: rest).length < n) :
    scanArray h scan n (Text.join ", ".toList (dumpsItems items) ++ ']' :: rest) =
      (fold h (.list items)).map fun x => (x, rest) := by
  cases items with
  | nil => rfl
  | cons item items =>
    have hitem := hplain item List.mem_cons_self
    have hvalues := scanItems_dumpsItems h hplain hscan (List.cons_ne_nil _ _) hn hn
    obtain ⟨c, t, hc, -, hbracket⟩ := dumps_cons hitem
    obtain ⟨u, hu⟩ := exists_join_cons ", ".toList (dumps item) (dumpsItems items)
    have hstart : Text.join ", ".toList (dumpsItems (item :: items)) ++ ']' :: rest =
        c :: (t ++ u ++ ']' :: rest) := by
      rw [dumpsItems, hu, hc, List.cons_append, List.cons_append]
    rw [scanArray, skipSpace_join_dumpsItems hitem]
    rw [hstart] at hvalues ⊢
    split
    · rename_i hmatch
      exact absurd (List.cons.inj hmatch).1 (List.ne_of_not_mem_cons hbracket)
    · rw [hvalues, fold]
      cases foldItems h (item :: items) with
      | error e => rfl
      | ok values => rfl

theorem scanObject_dumpsEntries {items : List (Text × PyValue)}
    (hplain : ∀ entry ∈ items, Plain entry.2) (hscan : ∀ entry ∈ items, Scans h scan n entry.2)
    {rest : Text} (hn : (Text.join ", ".toList (dumpsEntries items) ++ '}' :: rest).length < n) :
    scanObject h scan n (Text.join ", ".toList (dumpsEntries items) ++ '}' :: rest) =
      (fold h (.dict items)).map fun x => (x, rest) := by
  cases items with
  | nil =>
    rw [fold, foldEntries]
    change (h.object []).bind _ = (h.object []).map _
    cases h.object [] with
    | error e => rfl
    | ok value => rfl
  | cons entry items =>
    obtain ⟨key, value⟩ := entry
    obtain ⟨s, hs⟩ := join_dumpsEntries_cons key value items
    have hsplit : Text.join ", ".toList (dumpsEntries ((key, value) :: items)) ++ '}' :: rest =
        '"' :: (s ++ '}' :: rest) := by
      rw [hs, List.cons_append]
    have hlength : (s ++ '}' :: rest).length < n := by
      rw [hsplit, List.length_cons] at hn
      omega
    have hentries := scanEntries_dumpsEntries h hplain hscan hsplit hlength hlength
    rw [hsplit, scanObject, skipSpace_cons (by decide), fold]
    change (scanEntries h scan n (s ++ '}' :: rest)).bind _ = _
    rw [hentries]
    cases foldEntries h ((key, value) :: items) with
    | error e => rfl
    | ok entries =>
      change (h.object (OrderedDict.update [] entries)).bind _ =
        (h.object (OrderedDict.update [] entries)).map _
      cases h.object (OrderedDict.update [] entries) with
      | error e => rfl
      | ok value => rfl

end Loops

/-- An encoded value is read to its end, and what is made of it is the fold of the hooks. -/
theorem scanOnce_dumps {v : PyValue} (hv : Plain v) (fuel : ℕ) :
    Scans h (scanOnce h fuel) fuel v := by
  induction fuel generalizing v with
  | zero => exact fun _ _ hlength => absurd hlength (Nat.not_lt_zero _)
  | succ fuel ih =>
    intro rest hrest hlength
    cases hv with
    | none => exact (scanOnce_scanAtom h (by decide) fuel _).trans (scanAtom_null h rest)
    | bool b =>
      have hatom := scanAtom_bool h b rest
      cases b with
      | false => exact (scanOnce_scanAtom h (by decide) fuel _).trans hatom
      | true => exact (scanOnce_scanAtom h (by decide) fuel _).trans hatom
    | int n =>
      have hatom := scanAtom_intText h n hrest
      obtain ⟨c, s, hs, hc⟩ := intText_cons n
      rw [dumps]
      rw [hs, List.cons_append] at hatom ⊢
      rw [scanOnce_scanAtom, hatom]
      · rfl
      · exact ⟨(ne_of_number hc (by decide)).symm, (ne_of_number hc (by decide)).symm,
          (ne_of_number hc (by decide)).symm⟩
    | str s =>
      rw [dumps, quote, List.cons_append, List.append_assoc, List.singleton_append, scanOnce,
        if_pos rfl, scanString_quote]
      rfl
    | list hitems =>
      rw [dumps, List.cons_append, List.append_assoc, List.singleton_append] at hlength ⊢
      rw [scanOnce, if_neg (by decide), if_neg (by decide), if_pos rfl]
      exact scanArray_dumpsItems h hitems (fun item hitem => ih (hitems item hitem))
        (Nat.lt_of_succ_lt_succ hlength)
    | dict hitems =>
      rw [dumps, List.cons_append, List.append_assoc, List.singleton_append] at hlength ⊢
      rw [scanOnce, if_neg (by decide), if_pos rfl]
      exact scanObject_dumpsEntries h hitems (fun entry hentry => ih (hitems entry hentry))
        (Nat.lt_of_succ_lt_succ hlength)

/-- Decoding what was encoded folds the hooks over it. -/
theorem loads_dumps_eq_fold {v : PyValue} (hv : Plain v) : loads h (dumps v) = fold h v := by
  have hscan := scanOnce_dumps h hv ((dumps v).length + 1) []
    (fun c hc => absurd hc (Option.not_mem_none c))
  rw [List.append_nil] at hscan
  have hspace := skipSpace_dumps hv []
  rw [List.append_nil] at hspace
  have hbom : (dumps v).head? ≠ some '\uFEFF' := by
    obtain ⟨c, s, hs, -, hc⟩ := dumps_cons hv
    rw [hs, List.head?_cons]
    intro heq
    rw [Option.some.inj heq] at hc
    exact hc (List.mem_cons_of_mem _ List.mem_cons_self)
  rw [loads, if_neg hbom, hspace, hscan (Nat.lt_succ_self _)]
  cases fold h v with
  | error e => rfl
  | ok x => rfl

end Values

end Json

end Swat4Stats
