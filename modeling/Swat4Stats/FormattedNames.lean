import Swat4Stats.Library.RegexLanguage
import Swat4Stats.Library.Substitution
import Swat4Stats.PlayerNames

/-!
# Formatted names

`format_name` escapes a name, puts spans in place of the colour tags and deletes the other tags.
Both substitutions only ever cut at brackets, and no entity has one.
-/

namespace Swat4Stats

set_option autoImplicit false

/-- `html.escape`. -/
def escapeChar (c : Char) : Text :=
  if c = '&' then "&amp;".toList
  else if c = '<' then "&lt;".toList
  else if c = '>' then "&gt;".toList
  else if c = '\u0022' then "&quot;".toList
  else if c = '\u0027' then "&#x27;".toList
  else [c]

def escape (name : Text) : Text := name.flatMap escapeChar

/-- `[a-f0-9]`, in any case. -/
def isHexDigit (c : Char) : Bool := c ∈ "0123456789abcdefABCDEF".toList

def times : ℕ → Regex → Regex
  | 0, _ => .eps
  | n + 1, r => .seq r (times n r)

/-- `\[c[^\w]([a-f0-9]{6})\]` -/
def colourTag (outside : External) : Regex :=
  .seq (.lit '[') (.seq (.set fun c => foldCase c = 'c') (.seq (.set fun c => !outside.isWord c)
    (.seq (.group "1" (times 6 (.set isHexDigit))) (.lit ']'))))

/-- `\[\\c\]` -/
def closingTag : Regex :=
  .seq (.lit '[') (.seq (.lit '\\') (.seq (.set fun c => foldCase c = 'c') (.lit ']')))

/-- `\[(?:\\)?[buc]\]` -/
def styleTag : Regex :=
  .seq (.lit '[') (.seq (.opt (.lit '\\')) (.seq (.set fun c => foldCase c ∈ ['b', 'u', 'c'])
    (.lit ']')))

/-- The lookahead after a coloured text; `$` also stands before a newline that ends the text. -/
def colourEnds (outside : External) (s : Text) : Bool :=
  ((colourTag outside).matchAt s).isSome ∨ (closingTag.matchAt s).isSome ∨ s = [] ∨ s = ['\n']

/-- `.*?` up to where the lookahead holds: a dot is no newline. -/
def lazyUntil (ends : Text → Bool) : Text → Option (Text × Text)
  | [] => if ends [] then some ([], []) else none
  | c :: s =>
    if ends (c :: s) then some ([], c :: s)
    else if c = '\n' then none
    else (lazyUntil ends s).map fun found => (c :: found.1, found.2)

def spanStart : Text := "<span style=\x22color:#".toList

def spanEnd : Text := ";\x22>".toList

def openSpan (colour : Text) : Text := spanStart ++ colour ++ spanEnd

def closeSpan : Text := "</span>".toList

def colourSpan (outside : External) (s : Text) : Option (Text × Text) :=
  ((colourTag outside).matchAt s).bind fun tag =>
    (lazyUntil (colourEnds outside) tag.rest).map fun found =>
      (openSpan ((tag.groups.lookup "1").getD []) ++ found.1 ++ closeSpan, found.2)

def removeStyle (s : Text) : Option (Text × Text) :=
  (styleTag.matchAt s).map fun tag => ([], tag.rest)

/-- The result is marked safe. -/
def formatName (outside : External) (name : Text) : Text :=
  Text.substitute removeStyle (Text.substitute (colourSpan outside) (escape name))

/-- `<span style="color:#…;">content</span>`, and the text after it. -/
structure Element where
  colour : Text
  content : Text
  after : Text

def Element.render (e : Element) : Text := openSpan e.colour ++ e.content ++ closeSpan ++ e.after

def render (head : Text) (elements : List Element) : Text := head ++ elements.flatMap Element.render

def entities : List Text :=
  ["&amp;".toList, "&lt;".toList, "&gt;".toList, "&quot;".toList, "&#x27;".toList]

/-- Text without markup: an ampersand stands only at the start of an entity. -/
structure IsText (t : Text) : Prop where
  chars : ∀ c ∈ t, c ≠ '<' ∧ c ≠ '>' ∧ c ≠ '\u0022' ∧ c ≠ '\u0027'
  ampersands : ∀ before after, t = before ++ '&' :: after →
    ∃ entity ∈ entities, entity <+: '&' :: after

def IsColour (colour : Text) : Prop := colour.length = 6 ∧ ∀ c ∈ colour, isHexDigit c = true

/-- Some occurrences of tags are cut out of a text, and nothing else. -/
inductive CutsTags (outside : External) : Text → Text → Prop
  | nil : CutsTags outside [] []
  | keep (c : Char) {s t : Text} (h : CutsTags outside s t) : CutsTags outside (c :: s) (c :: t)
  | cut {tag s t : Text} (htag : (colourTag outside).Matches tag ∨ styleTag.Matches tag)
      (h : CutsTags outside s t) : CutsTags outside (tag ++ s) t

/-- The text outside the angle brackets; `inside` says whether one is open. -/
def withoutSpans : Bool → Text → Text
  | _, [] => []
  | true, c :: s => withoutSpans (c ≠ '>') s
  | false, c :: s => if c = '<' then withoutSpans true s else c :: withoutSpans false s

inductive Escaped : Text → Prop
  | nil : Escaped []
  | char {c : Char} {t : Text}
      (hc : c ≠ '&' ∧ c ≠ '<' ∧ c ≠ '>' ∧ c ≠ '\u0022' ∧ c ≠ '\u0027') (h : Escaped t) :
    Escaped (c :: t)
  | entity {e t : Text} (he : e ∈ entities) (h : Escaped t) : Escaped (e ++ t)

variable {outside : External} {s t u v tag : Text} {c : Char}

theorem entity_head : ∀ e ∈ entities,
    e.head? = some '&' ∧ (∀ c ∈ e.tail, c ≠ '&') ∧ e.length ≤ 7 ∧ ';' ∈ e := by
  have htail : ∀ e ∈ entities, e.tail.all (fun c => c ≠ '&') = true := by decide
  have hrest : ∀ e ∈ entities, e.head? = some '&' ∧ e.length ≤ 7 ∧ ';' ∈ e := by decide
  intro e he
  obtain ⟨hhead, hlength, hsemicolon⟩ := hrest e he
  exact ⟨hhead, Text.forall_mem_of_all (htail e he), hlength, hsemicolon⟩

theorem entity_chars : ∀ e ∈ entities, ∀ c ∈ e, c ≠ '<' ∧ c ≠ '>' ∧ c ≠ '\u0022' ∧
    c ≠ '\u0027' ∧ c ≠ '[' ∧ c ≠ '\n' := by
  have hall : ∀ e ∈ entities, e.all (fun c => c ≠ '<' ∧ c ≠ '>' ∧ c ≠ '\u0022' ∧
      c ≠ '\u0027' ∧ c ≠ '[' ∧ c ≠ '\n') = true := by decide
  exact fun e he => Text.forall_mem_of_all (hall e he)

namespace Escaped

theorem append (hs : Escaped s) (ht : Escaped t) : Escaped (s ++ t) := by
  induction hs with
  | nil => exact ht
  | char hc _ ih => exact .char hc ih
  | @entity e s he _ ih =>
    rw [List.append_assoc]
    exact .entity he ih

theorem tail (h : Escaped (c :: t)) (hc : c ≠ '&') : Escaped t := by
  generalize hs : c :: t = s at h
  cases h with
  | nil => cases hs
  | char _ h =>
    obtain ⟨_, rfl⟩ := List.cons.inj hs
    exact h
  | @entity e s he _ =>
    have hhead := (entity_head e he).1
    cases e with
    | nil => cases hhead
    | cons d e =>
      obtain ⟨rfl, _⟩ := List.cons.inj hs
      exact absurd (Option.some.inj hhead) hc

theorem drop (h : Escaped (s ++ t)) (hs : ∀ c ∈ s, c ≠ '&') : Escaped t := by
  induction s with
  | nil => exact h
  | cons c s ih =>
    obtain ⟨hc, hs⟩ := List.forall_mem_cons.mp hs
    exact ih (tail h hc) hs

/-- No entity is cut where a bracket or a newline follows. -/
theorem split (h : Escaped (s ++ t)) (ht : ∀ c ∈ t.head?, c = '[' ∨ c = '\n') :
    Escaped s ∧ Escaped t := by
  generalize hst : s ++ t = st at h
  induction h generalizing s with
  | nil =>
    obtain ⟨rfl, rfl⟩ := List.append_eq_nil_iff.mp hst
    exact ⟨.nil, .nil⟩
  | @char c r hc h ih =>
    cases s with
    | nil =>
      rw [List.nil_append] at hst
      rw [hst]
      exact ⟨.nil, .char hc h⟩
    | cons d s =>
      obtain ⟨rfl, hr⟩ := List.cons.inj hst
      obtain ⟨hs, ht⟩ := ih hr
      exact ⟨.char hc hs, ht⟩
  | @entity e r he h ih =>
    obtain ⟨a, rfl, rfl⟩ | ⟨a, rfl, rfl⟩ := List.append_eq_append_iff.mp hst
    · cases a with
      | nil =>
        rw [List.append_nil] at he
        exact ⟨by simpa using entity he .nil, h⟩
      | cons x a =>
        have hx := entity_chars _ he x (by simp)
        obtain rfl | rfl := ht x rfl
        · exact absurd rfl hx.2.2.2.2.1
        · exact absurd rfl hx.2.2.2.2.2
    · obtain ⟨hs, ht⟩ := ih rfl
      exact ⟨.entity he hs, ht⟩

theorem ampersand (h : Escaped ('&' :: t)) : ∃ entity ∈ entities, entity <+: '&' :: t := by
  generalize hs : '&' :: t = s at h
  cases h with
  | nil => cases hs
  | char hc _ =>
    obtain ⟨rfl, _⟩ := List.cons.inj hs
    exact absurd rfl hc.1
  | @entity e s he _ => exact ⟨e, he, s, rfl⟩

theorem isText (h : Escaped t) : IsText t := by
  constructor
  · induction h with
    | nil => exact fun c hc => nomatch hc
    | char hc _ ih =>
      intro d hd
      obtain rfl | hd := List.mem_cons.mp hd
      · exact hc.2
      · exact ih d hd
    | @entity e s he _ ih =>
      intro d hd
      obtain hd | hd := List.mem_append.mp hd
      · obtain ⟨hopen, hclose, hquote, hapostrophe, _⟩ := entity_chars e he d hd
        exact ⟨hopen, hclose, hquote, hapostrophe⟩
      · exact ih d hd
  · intro before after hst
    induction h generalizing before with
    | nil => simp at hst
    | @char c r hc _ ih =>
      cases before with
      | nil => exact absurd (List.cons.inj hst).1 hc.1
      | cons d before => exact ih before (List.cons.inj hst).2
    | @entity e r he h ih =>
      obtain ⟨a, rfl, hr⟩ | ⟨a, rfl, ha⟩ := List.append_eq_append_iff.mp hst
      · exact ih a hr
      · cases a with
        | nil =>
          have hr : '&' :: after = r := ha
          rw [← hr] at h
          exact h.ampersand
        | cons x a =>
          -- within an entity an ampersand is its first character
          obtain ⟨rfl, hafter⟩ := List.cons.inj ha
          cases before with
          | nil => exact ⟨'&' :: a, he, r, by rw [hafter]; rfl⟩
          | cons d before =>
            have hamp := (entity_head _ he).2.1 '&' (by simp)
            exact absurd rfl hamp

end Escaped

theorem escaped_escape (name : Text) : Escaped (escape name) := by
  induction name with
  | nil => exact .nil
  | cons c name ih =>
    have hentity : ∀ e ∈ entities, Escaped e := by
      intro e he
      have h := Escaped.entity he .nil
      rwa [List.append_nil] at h
    have hchar : Escaped (escapeChar c) := by
      rw [escapeChar]
      split
      · exact hentity _ (by decide)
      · split
        · exact hentity _ (by decide)
        · split
          · exact hentity _ (by decide)
          · split
            · exact hentity _ (by decide)
            · split
              · exact hentity _ (by decide)
              · rename_i hamp hlt hgt hquote hapostrophe
                exact .char ⟨hamp, hlt, hgt, hquote, hapostrophe⟩ .nil
    exact hchar.append ih

theorem matches_times {p : Char → Bool} {n : ℕ} (h : (times n (.set p)).Matches t) :
    t.length = n ∧ ∀ c ∈ t, p c = true := by
  induction n generalizing t with
  | zero =>
    cases h
    exact ⟨rfl, fun c hc => nomatch hc⟩
  | succ n ih =>
    cases h with
    | seq hr hs =>
      cases hr with
      | set hc =>
        obtain ⟨hlength, hall⟩ := ih hs
        refine ⟨by simp [hlength], ?_⟩
        intro d hd
        obtain rfl | hd := List.mem_cons.mp hd
        · exact hc
        · exact hall d hd

theorem colourTag_shape (h : (colourTag outside).Matches tag) :
    ∃ c d digits, tag = '[' :: c :: d :: (digits ++ [']']) ∧ foldCase c = 'c' ∧
      IsColour digits := by
  cases h with
  | seq hopen h =>
    cases hopen with
    | set hopen =>
      cases h with
      | seq hc h =>
        cases hc with
        | set hc =>
          cases h with
          | seq hd h =>
            cases hd with
            | set hd =>
              cases h with
              | seq hdigits hclose =>
                cases hdigits with
                | group hdigits =>
                  cases hclose with
                  | set hclose =>
                    obtain rfl := of_decide_eq_true hopen
                    obtain rfl := of_decide_eq_true hclose
                    exact ⟨_, _, _, rfl, of_decide_eq_true hc, matches_times hdigits⟩

theorem styleTag_shape (h : styleTag.Matches tag) :
    ∃ c, foldCase c ∈ ['b', 'u', 'c'] ∧ (tag = ['[', c, ']'] ∨ tag = ['[', '\\', c, ']']) := by
  cases h with
  | seq hopen h =>
    cases hopen with
    | set hopen =>
      cases h with
      | seq hslash h =>
        cases h with
        | seq hc hclose =>
          cases hc with
          | set hc =>
            cases hclose with
            | set hclose =>
              obtain rfl := of_decide_eq_true hopen
              obtain rfl := of_decide_eq_true hclose
              cases hslash with
              | altLeft hslash =>
                cases hslash with
                | set hslash =>
                  obtain rfl := of_decide_eq_true hslash
                  exact ⟨_, of_decide_eq_true hc, .inr rfl⟩
              | altRight hslash =>
                cases hslash
                exact ⟨_, of_decide_eq_true hc, .inl rfl⟩

/-- The separator of a colour tag is not the ampersand of an entity, which no six digits follow. -/
theorem Escaped.drop_colourTag (htag : (colourTag outside).Matches tag) (h : Escaped (tag ++ t)) :
    Escaped t := by
  obtain ⟨c, d, digits, rfl, hc, hlength, hdigits⟩ := colourTag_shape htag
  have hcamp : c ≠ '&' := by
    rintro rfl
    cases hc
  have hdigit : ∀ x ∈ digits ++ [']'], x ≠ '&' := by
    intro x hx
    obtain hx | hx := List.mem_append.mp hx
    · rintro rfl
      have hhex := hdigits '&' hx
      revert hhex
      decide
    · obtain rfl := List.mem_singleton.mp hx
      decide
  have hsep : Escaped (d :: (digits ++ [']'] ++ t)) := (h.tail (by decide)).tail hcamp
  obtain rfl | hd := eq_or_ne d '&'
  · exfalso
    obtain ⟨e, he, r, hr⟩ := hsep.ampersand
    obtain ⟨hhead, _, hle, hsemicolon⟩ := entity_head e he
    cases e with
    | nil => cases hhead
    | cons x e =>
      obtain ⟨_, htail⟩ := List.cons.inj hr
      rw [List.append_assoc] at htail
      have hinitial : e <+: digits := by
        apply List.prefix_of_prefix_length_le ⟨r, htail⟩ (List.prefix_append digits _)
        rw [List.length_cons] at hle
        omega
      obtain hx | hmem := List.mem_cons.mp hsemicolon
      · rw [← hx] at hhead
        cases hhead
      · have hhex := hdigits ';' (hinitial.subset hmem)
        revert hhex
        decide
  · exact (hsep.tail hd).drop hdigit

theorem styleTag_chars (htag : styleTag.Matches tag) : ∀ c ∈ tag, c ≠ '&' ∧ c ≠ '<' := by
  obtain ⟨c, hc, htag⟩ := styleTag_shape htag
  have hfold : ∀ d, foldCase d = d → d ∉ ['b', 'u', 'c'] → c ≠ d := by
    rintro d hd hnot rfl
    rw [hd] at hc
    exact hnot hc
  have hamp := hfold '&' (by decide) (by decide)
  have hlt := hfold '<' (by decide) (by decide)
  obtain rfl | rfl := htag
  · simp [hamp, hlt]
  · simp [hamp, hlt]

theorem styleTag_unique (hs : styleTag.Matches s) (ht : styleTag.Matches t) {a b : Text}
    (h : s ++ a = t ++ b) : s = t := by
  obtain ⟨c, hc, hs⟩ := styleTag_shape hs
  obtain ⟨d, hd, ht⟩ := styleTag_shape ht
  have hslash : ∀ x, foldCase x ∈ ['b', 'u', 'c'] → x ≠ '\\' := by
    rintro x hx rfl
    revert hx
    decide
  have hc := hslash c hc
  have hd := hslash d hd
  obtain rfl | rfl := hs
  · obtain rfl | rfl := ht
    · simp only [List.cons_append, List.cons.injEq] at h
      rw [h.2.1]
    · simp only [List.cons_append, List.cons.injEq] at h
      exact absurd h.2.1 hc
  · obtain rfl | rfl := ht
    · simp only [List.cons_append, List.cons.injEq] at h
      exact absurd h.2.1.symm hd
    · simp only [List.cons_append, List.cons.injEq] at h
      rw [h.2.2.1]

theorem head?_of_isSome_matchAt {r : Regex} (hr : r.unanchored = true)
    (hopen : ∀ tag, r.Matches tag → tag.head? = some '[') (h : (r.matchAt s).isSome = true) :
    ∀ c ∈ s.head?, c = '[' := by
  obtain ⟨st, hst⟩ := Option.isSome_iff_exists.mp h
  obtain ⟨tag, hs, htag⟩ := Regex.exists_of_matchAt hr hst
  intro c hc
  obtain ⟨rest, rfl⟩ := List.head?_eq_some_iff.mp (hopen tag htag)
  rw [hs] at hc
  exact (Option.some.inj hc).symm

theorem colourEnds_head (h : colourEnds outside s = true) : ∀ c ∈ s.head?, c = '[' ∨ c = '\n' := by
  have hcolour : ∀ tag, (colourTag outside).Matches tag → tag.head? = some '[' := by
    intro tag htag
    obtain ⟨c, d, digits, rfl, _⟩ := colourTag_shape htag
    rfl
  have hclosing : ∀ tag, closingTag.Matches tag → tag.head? = some '[' := by
    intro tag htag
    cases htag with
    | seq hopen _ =>
      cases hopen with
      | set hopen =>
        obtain rfl := of_decide_eq_true hopen
        rfl
  obtain h | h | rfl | rfl := of_decide_eq_true h
  · exact fun c hc => .inl (head?_of_isSome_matchAt rfl hcolour h c hc)
  · exact fun c hc => .inl (head?_of_isSome_matchAt rfl hclosing h c hc)
  · exact fun c hc => nomatch hc
  · exact fun c hc => .inr (Option.some.inj hc).symm

theorem lazyUntil_eq_some {ends : Text → Bool} {found : Text × Text}
    (h : lazyUntil ends s = some found) : s = found.1 ++ found.2 ∧ ends found.2 = true := by
  induction s generalizing found with
  | nil =>
    rw [lazyUntil] at h
    split at h
    · rename_i hends
      cases h
      exact ⟨rfl, hends⟩
    · cases h
  | cons c s ih =>
    rw [lazyUntil] at h
    split at h
    · rename_i hends
      cases h
      exact ⟨rfl, hends⟩
    · split at h
      · cases h
      · obtain ⟨inner, hinner, rfl⟩ := Option.map_eq_some_iff.mp h
        obtain ⟨hs, hends⟩ := ih hinner
        exact ⟨by rw [hs]; rfl, hends⟩

theorem colourSpan_eq_some {replacement rest : Text}
    (h : colourSpan outside s = some (replacement, rest)) :
    ∃ tag colour content, (colourTag outside).Matches tag ∧ IsColour colour ∧
      s = tag ++ content ++ rest ∧ replacement = openSpan colour ++ content ++ closeSpan ∧
      ∀ c ∈ rest.head?, c = '[' ∨ c = '\n' := by
  obtain ⟨st, hst, hfound⟩ := Option.bind_eq_some_iff.mp h
  obtain ⟨found, hlazy, heq⟩ := Option.map_eq_some_iff.mp hfound
  obtain ⟨rfl, rfl⟩ := Prod.mk.inj heq
  obtain ⟨tag, hs, htag⟩ := Regex.exists_of_matchAt rfl hst
  obtain ⟨hrest, hends⟩ := lazyUntil_eq_some hlazy
  -- the group stands after three characters
  obtain ⟨first, _, hmem⟩ := List.mem_flatMap.mp (List.mem_of_mem_head? hst)
  obtain ⟨second, _, hmem⟩ := List.mem_flatMap.mp hmem
  obtain ⟨third, _, hmem⟩ := List.mem_flatMap.mp hmem
  obtain ⟨colour, hcolour, hdigits⟩ := Regex.lookup_of_mem_group rfl (by decide) hmem
  refine ⟨tag, colour, found.1, htag, matches_times hdigits, ?_, ?_, colourEnds_head hends⟩
  · rw [hs, hrest, List.append_assoc]
  · rw [hcolour]
    rfl

theorem shortens_colourSpan : Text.Shortens (colourSpan outside) := by
  intro s replacement rest h
  obtain ⟨tag, _, content, htag, _, rfl, _⟩ := colourSpan_eq_some h
  obtain ⟨c, d, digits, rfl, _⟩ := colourTag_shape htag
  refine ⟨List.suffix_append _ rest, ?_⟩
  rw [List.length_append, List.length_append, List.length_cons]
  omega

/-- The texts outside and inside the spans of the first substitution. -/
inductive Coloured (outside : External) : Text → Text → List Element → Prop
  | nil : Coloured outside [] [] []
  | keep (c : Char) {s head : Text} {elements : List Element}
      (h : Coloured outside s head elements) :
    Coloured outside (c :: s) (c :: head) elements
  | span {tag colour content rest head : Text} {elements : List Element}
      (htag : (colourTag outside).Matches tag) (hcolour : IsColour colour)
      (hrest : ∀ c ∈ rest.head?, c = '[' ∨ c = '\n') (h : Coloured outside rest head elements) :
    Coloured outside (tag ++ content ++ rest) [] (⟨colour, content, head⟩ :: elements)

theorem coloured_substitute (outside : External) (s : Text) :
    ∃ head elements, Coloured outside s head elements ∧
    Text.substitute (colourSpan outside) s = render head elements := by
  apply Text.substitute_induction shortens_colourSpan
    (P := fun s t => ∃ head elements, Coloured outside s head elements ∧ t = render head elements)
  · exact ⟨[], [], .nil, rfl⟩
  · rintro c s _ _ ⟨head, elements, h, rfl⟩
    exact ⟨c :: head, elements, .keep c h, rfl⟩
  · rintro s replacement rest _ hfound ⟨head, elements, h, rfl⟩
    obtain ⟨tag, colour, content, htag, hcolour, rfl, rfl, hrest⟩ := colourSpan_eq_some hfound
    refine ⟨[], ⟨colour, content, head⟩ :: elements, .span htag hcolour hrest h, ?_⟩
    simp [render, Element.render]

namespace Coloured

variable {head : Text} {elements : List Element}

/-- Every part of an escaped text is escaped; `before` is the text that stands before it. -/
theorem escaped (h : Coloured outside s head elements) {before : Text}
    (hs : Escaped (before ++ s)) :
    Escaped (before ++ head) ∧
      ∀ e ∈ elements, IsColour e.colour ∧ Escaped e.content ∧ Escaped e.after := by
  induction h generalizing before with
  | nil => exact ⟨hs, fun e he => nomatch he⟩
  | @keep c s head elements _ ih =>
    have hs : Escaped (before ++ [c] ++ s) := by simpa using hs
    obtain ⟨hhead, helements⟩ := ih hs
    exact ⟨by simpa using hhead, helements⟩
  | @span tag colour content rest head elements htag hcolour hrest _ ih =>
    obtain ⟨c, d, digits, hshape, _⟩ := colourTag_shape htag
    have hopen : ∀ x ∈ (tag ++ content ++ rest).head?, x = '[' ∨ x = '\n' := by
      rw [hshape]
      exact fun x hx => .inl (Option.some.inj hx).symm
    obtain ⟨hbefore, htagged⟩ := hs.split hopen
    rw [List.append_assoc] at htagged
    obtain ⟨hcontent, hrestEscaped⟩ := (htagged.drop_colourTag htag).split hrest
    have hnil : Escaped ([] ++ rest) := hrestEscaped
    obtain ⟨hhead, helements⟩ := ih hnil
    rw [List.append_nil]
    exact ⟨hbefore, List.forall_mem_cons.mpr ⟨⟨hcolour, hcontent, hhead⟩, helements⟩⟩

end Coloured

theorem removeStyle_eq_some {replacement rest : Text}
    (h : removeStyle s = some (replacement, rest)) :
    ∃ tag, styleTag.Matches tag ∧ s = tag ++ rest ∧ replacement = [] := by
  obtain ⟨st, hst, heq⟩ := Option.map_eq_some_iff.mp h
  obtain ⟨rfl, rfl⟩ := Prod.mk.inj heq
  obtain ⟨tag, hs, htag⟩ := Regex.exists_of_matchAt rfl hst
  exact ⟨tag, htag, hs, rfl⟩

theorem removeStyle_eq_none (h : removeStyle (tag ++ s) = none) : ¬ styleTag.Matches tag :=
  Regex.matchAt_eq_none (Option.map_eq_none_iff.mp h)

theorem shortens_removeStyle : Text.Shortens removeStyle := by
  intro s replacement rest h
  obtain ⟨tag, htag, rfl, _⟩ := removeStyle_eq_some h
  obtain ⟨c, _, htag⟩ := styleTag_shape htag
  have hpos : 0 < tag.length := by
    obtain rfl | rfl := htag
    · exact Nat.succ_pos _
    · exact Nat.succ_pos _
  refine ⟨List.suffix_append _ rest, ?_⟩
  rw [List.length_append]
  omega

theorem removeStyle_append (hs : ∀ c ∈ s, c ≠ '<') (ht : ∀ c ∈ t.head?, c = '<') :
    removeStyle (s ++ t) = (removeStyle s).map fun p => (p.1, p.2 ++ t) := by
  cases hfound : removeStyle s with
  | some found =>
    obtain ⟨replacement, rest⟩ := found
    obtain ⟨tag, htag, rfl, rfl⟩ := removeStyle_eq_some hfound
    cases happend : removeStyle (tag ++ rest ++ t) with
    | none =>
      rw [List.append_assoc] at happend
      exact absurd htag (removeStyle_eq_none happend)
    | some found =>
      obtain ⟨replacement, rest'⟩ := found
      obtain ⟨tag', htag', heq, rfl⟩ := removeStyle_eq_some happend
      rw [List.append_assoc] at heq
      obtain rfl := styleTag_unique htag htag' heq
      rw [Option.map_some, List.append_cancel_left heq]
  | none =>
    rw [Option.map_none]
    cases happend : removeStyle (s ++ t) with
    | none => rfl
    | some found =>
      obtain ⟨replacement, rest⟩ := found
      obtain ⟨tag, htag, heq, _⟩ := removeStyle_eq_some happend
      obtain ⟨a, rfl, ht'⟩ | ⟨a, rfl, _⟩ := List.append_eq_append_iff.mp heq
      · cases a with
        | nil =>
          rw [List.append_nil] at htag
          rw [← List.append_nil s] at hfound
          exact absurd htag (removeStyle_eq_none hfound)
        | cons x a =>
          have hx : x = '<' := ht x (by rw [ht']; rfl)
          exact absurd hx (styleTag_chars htag x (by simp)).2
      · exact absurd htag (removeStyle_eq_none hfound)

theorem removeStyle_of_head (h : ∀ c ∈ s.head?, c ≠ '[') : removeStyle s = none := by
  cases hfound : removeStyle s with
  | none => rfl
  | some found =>
    obtain ⟨replacement, rest⟩ := found
    obtain ⟨tag, htag, rfl, _⟩ := removeStyle_eq_some hfound
    obtain ⟨c, _, rfl | rfl⟩ := styleTag_shape htag
    · exact absurd rfl (h '[' rfl)
    · exact absurd rfl (h '[' rfl)

theorem substitute_text (hs : ∀ c ∈ s, c ≠ '<') (ht : ∀ c ∈ t.head?, c = '<') :
    Text.substitute removeStyle (s ++ t) =
      Text.substitute removeStyle s ++ Text.substitute removeStyle t := by
  apply Text.substitute_append shortens_removeStyle
  intro w _ hw
  exact removeStyle_append (fun c hc => hs c (hw.subset hc)) ht

theorem substitute_markup (hs : ∀ c ∈ s, c ≠ '[') :
    Text.substitute removeStyle (s ++ t) = s ++ Text.substitute removeStyle t := by
  have hnone : ∀ w, w ≠ [] → w <:+ s → ∀ t, removeStyle (w ++ t) = none := by
    intro w hne hw t
    apply removeStyle_of_head
    obtain ⟨c, w, rfl⟩ := List.exists_cons_of_ne_nil hne
    intro d hd
    obtain rfl := Option.some.inj hd
    exact hs c (hw.subset List.mem_cons_self)
  have hself : Text.substitute removeStyle s = s := by
    apply Text.substitute_of_forall_none
    intro w hne hw
    simpa using hnone w hne hw []
  have happend : Text.substitute removeStyle (s ++ t) =
      Text.substitute removeStyle s ++ Text.substitute removeStyle t := by
    apply Text.substitute_append shortens_removeStyle
    intro w hne hw
    have hw' := hnone w hne hw []
    rw [List.append_nil] at hw'
    rw [hnone w hne hw t, hw', Option.map_none]
  rw [happend, hself]

theorem cutsTags_substitute (outside : External) (s : Text) :
    CutsTags outside s (Text.substitute removeStyle s) := by
  apply Text.substitute_induction shortens_removeStyle (P := CutsTags outside)
  · exact .nil
  · exact fun c s t _ h => .keep c h
  · intro s replacement rest t hfound h
    obtain ⟨tag, htag, rfl, rfl⟩ := removeStyle_eq_some hfound
    exact .cut (.inr htag) h

theorem Escaped.substitute (h : Escaped s) : Escaped (Text.substitute removeStyle s) := by
  have hall := Text.substitute_induction shortens_removeStyle
    (P := fun s t => ∀ before, Escaped (before ++ s) → Escaped (before ++ t))
    (fun before h => h)
    (by
      intro c s t _ ih before hs
      simpa using ih (before ++ [c]) (by simpa using hs))
    (by
      intro s replacement rest t hfound ih before hs
      obtain ⟨tag, htag, rfl, rfl⟩ := removeStyle_eq_some hfound
      have hopen : ∀ x ∈ (tag ++ rest).head?, x = '[' ∨ x = '\n' := by
        obtain ⟨c, _, rfl | rfl⟩ := styleTag_shape htag
        · exact fun x hx => .inl (Option.some.inj hx).symm
        · exact fun x hx => .inl (Option.some.inj hx).symm
      obtain ⟨hbefore, htagged⟩ := hs.split hopen
      have hrest := htagged.drop fun c hc => (styleTag_chars htag c hc).1
      exact hbefore.append (ih [] hrest)) s
  exact hall [] h

namespace CutsTags

theorem append (hs : CutsTags outside s u) (ht : CutsTags outside t v) :
    CutsTags outside (s ++ t) (u ++ v) := by
  induction hs with
  | nil => exact ht
  | keep c _ ih => exact .keep c ih
  | @cut tag s u htag _ ih =>
    rw [List.append_assoc]
    exact .cut htag ih

end CutsTags

/-- The text of a rendered name, without the spans. -/
def plainText (head : Text) (elements : List Element) : Text :=
  head ++ elements.flatMap fun e => e.content ++ e.after

def Element.styled (e : Element) : Element where
  colour := e.colour
  content := Text.substitute removeStyle e.content
  after := Text.substitute removeStyle e.after

variable {head : Text} {elements : List Element}

theorem Coloured.cutsTags (h : Coloured outside s head elements) (before : Text) :
    CutsTags outside (before ++ s)
      (plainText (Text.substitute removeStyle (before ++ head)) (elements.map Element.styled)) := by
  induction h generalizing before with
  | nil => simpa [plainText] using cutsTags_substitute outside before
  | @keep c s head elements _ ih => simpa using ih (before ++ [c])
  | @span tag colour content rest head elements htag _ _ _ ih =>
    have hrest := ih []
    have hcontent := (cutsTags_substitute outside content).append hrest
    have hall := (cutsTags_substitute outside before).append (.cut (.inl htag) hcontent)
    simpa [plainText, Element.styled] using hall

theorem openSpan_eq (colour : Text) :
    openSpan colour = '<' :: (spanStart.tail ++ colour ++ spanEnd.dropLast ++ ['>']) := by
  have hstart : spanStart = '<' :: spanStart.tail := by decide
  have hend : spanEnd = spanEnd.dropLast ++ ['>'] := by decide
  calc
    openSpan colour = '<' :: spanStart.tail ++ colour ++ (spanEnd.dropLast ++ ['>']) := by
      rw [openSpan, ← hstart, ← hend]
    _ = '<' :: (spanStart.tail ++ colour ++ spanEnd.dropLast ++ ['>']) := by
      simp only [List.cons_append, List.append_assoc]

theorem openSpan_chars {colour : Text} (h : IsColour colour) :
    ∀ c ∈ spanStart.tail ++ colour ++ spanEnd.dropLast, c ≠ '[' ∧ c ≠ '>' := by
  have hdigit : ∀ c ∈ "0123456789abcdefABCDEF".toList, c ≠ '[' ∧ c ≠ '>' :=
    Text.forall_mem_of_all (by decide)
  have hstart : ∀ c ∈ spanStart.tail, c ≠ '[' ∧ c ≠ '>' := Text.forall_mem_of_all (by decide)
  have hend : ∀ c ∈ spanEnd.dropLast, c ≠ '[' ∧ c ≠ '>' := Text.forall_mem_of_all (by decide)
  refine List.forall_mem_append.mpr ⟨List.forall_mem_append.mpr ⟨hstart, ?_⟩, hend⟩
  exact fun c hc => hdigit c (of_decide_eq_true (h.2 c hc))

theorem closeSpan_eq : closeSpan = '<' :: (closeSpan.tail.dropLast ++ ['>']) := by decide

theorem closeSpan_chars : ∀ c ∈ closeSpan.tail.dropLast, c ≠ '[' ∧ c ≠ '>' :=
  Text.forall_mem_of_all (by decide)

/-- One piece of markup goes from a bracket to the next closing one. -/
theorem withoutSpans_markup {middle : Text} (h : ∀ c ∈ middle, c ≠ '[' ∧ c ≠ '>') (t : Text) :
    withoutSpans false ('<' :: (middle ++ ['>']) ++ t) = withoutSpans false t := by
  have hinside : withoutSpans true (middle ++ '>' :: t) = withoutSpans false t := by
    induction middle with
    | nil => simp [withoutSpans]
    | cons c middle ih =>
      obtain ⟨hc, hmiddle⟩ := List.forall_mem_cons.mp h
      rw [List.cons_append, withoutSpans, decide_eq_true hc.2]
      exact ih hmiddle
  rw [List.cons_append, List.append_assoc, withoutSpans, if_pos rfl]
  exact hinside

theorem withoutSpans_text (h : ∀ c ∈ s, c ≠ '<') (t : Text) :
    withoutSpans false (s ++ t) = s ++ withoutSpans false t := by
  induction s with
  | nil => rfl
  | cons c s ih =>
    obtain ⟨hc, hs⟩ := List.forall_mem_cons.mp h
    rw [List.cons_append, withoutSpans, if_neg hc, ih hs, List.cons_append]

theorem withoutSpans_elements
    (h : ∀ e ∈ elements, IsColour e.colour ∧ IsText e.content ∧ IsText e.after) :
    withoutSpans false (elements.flatMap Element.render) =
      elements.flatMap fun e => e.content ++ e.after := by
  induction elements with
  | nil => rfl
  | cons e elements ih =>
    obtain ⟨⟨hcolour, hcontent, hafter⟩, helements⟩ := List.forall_mem_cons.mp h
    rw [List.flatMap_cons, List.flatMap_cons, Element.render, List.append_assoc, List.append_assoc,
      List.append_assoc, openSpan_eq, withoutSpans_markup (openSpan_chars hcolour),
      withoutSpans_text fun c hc => (hcontent.chars c hc).1, closeSpan_eq,
      withoutSpans_markup closeSpan_chars, withoutSpans_text fun c hc => (hafter.chars c hc).1,
      ih helements, List.append_assoc]

theorem withoutSpans_render (hhead : IsText head)
    (h : ∀ e ∈ elements, IsColour e.colour ∧ IsText e.content ∧ IsText e.after) :
    withoutSpans false (render head elements) = plainText head elements := by
  rw [render, withoutSpans_text fun c hc => (hhead.chars c hc).1, withoutSpans_elements h,
    plainText]

theorem head?_elements (elements : List Element) :
    ∀ c ∈ (elements.flatMap Element.render).head?, c = '<' := by
  cases elements with
  | nil => exact fun c hc => nomatch hc
  | cons e elements =>
    rw [List.flatMap_cons, Element.render, openSpan_eq]
    exact fun c hc => (Option.some.inj hc).symm

theorem substitute_elements
    (h : ∀ e ∈ elements, IsColour e.colour ∧ Escaped e.content ∧ Escaped e.after) :
    Text.substitute removeStyle (elements.flatMap Element.render) =
      (elements.map Element.styled).flatMap Element.render := by
  induction elements with
  | nil => rfl
  | cons e elements ih =>
    obtain ⟨⟨hcolour, hcontent, hafter⟩, helements⟩ := List.forall_mem_cons.mp h
    have hopen : ∀ c ∈ openSpan e.colour, c ≠ '[' := by
      rw [openSpan_eq]
      intro c hc
      obtain rfl | hc := List.mem_cons.mp hc
      · decide
      · obtain hc | hc := List.mem_append.mp hc
        · exact (openSpan_chars hcolour c hc).1
        · obtain rfl := List.mem_singleton.mp hc
          decide
    have hclose : ∀ c ∈ closeSpan, c ≠ '[' := Text.forall_mem_of_all (by decide)
    have hcloseHead : ∀ c ∈ (closeSpan ++ (e.after ++ elements.flatMap Element.render)).head?,
        c = '<' := by
      rw [closeSpan_eq]
      exact fun c hc => (Option.some.inj hc).symm
    calc
      Text.substitute removeStyle ((e :: elements).flatMap Element.render) =
          Text.substitute removeStyle (openSpan e.colour ++ (e.content ++
            (closeSpan ++ (e.after ++ elements.flatMap Element.render)))) := by
        rw [List.flatMap_cons, Element.render]
        simp only [List.append_assoc]
      _ = openSpan e.colour ++ (Text.substitute removeStyle e.content ++
            (closeSpan ++ (Text.substitute removeStyle e.after ++
              (elements.map Element.styled).flatMap Element.render))) := by
        rw [substitute_markup hopen,
          substitute_text (fun c hc => (hcontent.isText.chars c hc).1) hcloseHead,
          substitute_markup hclose,
          substitute_text (fun c hc => (hafter.isText.chars c hc).1) (head?_elements elements),
          ih helements]
      _ = ((e :: elements).map Element.styled).flatMap Element.render := by
        rw [List.map_cons, List.flatMap_cons, Element.render]
        simp only [Element.styled, List.append_assoc]

/-- A formatted name is text and coloured spans of text: the escaped name with some of its tags cut
out and the spans put in. -/
theorem formatName_spec (outside : External) (name : Text) :
    ∃ head elements, formatName outside name = render head elements ∧
      IsText head ∧ (∀ e ∈ elements, IsColour e.colour ∧ IsText e.content ∧ IsText e.after) ∧
      CutsTags outside (escape name) (withoutSpans false (formatName outside name)) := by
  obtain ⟨head, elements, hcoloured, hrender⟩ := coloured_substitute outside (escape name)
  have hescaped : Escaped ([] ++ escape name) := escaped_escape name
  obtain ⟨hhead, helements⟩ := hcoloured.escaped hescaped
  rw [List.nil_append] at hhead
  have hformat : formatName outside name =
      render (Text.substitute removeStyle head) (elements.map Element.styled) := by
    rw [formatName, hrender, render,
      substitute_text (fun c hc => (hhead.isText.chars c hc).1) (head?_elements elements),
      substitute_elements helements, render]
  have hheadText : IsText (Text.substitute removeStyle head) := hhead.substitute.isText
  have helementsText : ∀ e ∈ elements.map Element.styled,
      IsColour e.colour ∧ IsText e.content ∧ IsText e.after := by
    intro styled hstyled
    obtain ⟨e, he, rfl⟩ := List.mem_map.mp hstyled
    obtain ⟨hcolour, hcontent, hafter⟩ := helements e he
    exact ⟨hcolour, hcontent.substitute.isText, hafter.substitute.isText⟩
  refine ⟨_, _, hformat, hheadText, helementsText, ?_⟩
  rw [hformat, withoutSpans_render hheadText helementsText]
  exact hcoloured.cutsTags []

end Swat4Stats
