import Swat4Stats.Library.Regex

/-!
# Player names

Which names are too popular to identify a player, and how a name is made non-empty and free of
text tags. What the code takes from outside is a parameter: which characters are word characters
for a regular expression, the database's `UPPER`, `slugify` and the hex digest of SHA-1.
-/

namespace Swat4Stats

set_option autoImplicit false

structure External where
  upper : Text → Text
  isWord : Char → Bool
  slugify : String → String
  sha1Hexdigest : Text → Text
  /-- The characters that stand for lone surrogates. -/
  isSurrogate : Char → Bool := fun _ => false

/-- For examples with ASCII names: no case, no slugs, no digests. -/
def plainOutside : External where
  upper s := s
  isWord c := c.isAlphanum || c = '_'
  slugify s := s
  sha1Hexdigest s := s

/-- `TRACKER_MIN_NAME_LEN`. -/
def minNameLen : ℕ := 3

/-- `TRACKER_POPULAR_NAMES`: the letters of each pattern, and whether it ends in `$`. -/
def popularNames : List (String × Bool) :=
  [("todosetname", false), ("player", false), ("newname", false), ("afk", false),
    ("giocatore", false), ("jogador", false), ("jugador", false), ("joueur", false),
    ("spieler", false), ("gracz", false), ("test", false), ("||", true), ("lol", true),
    ("swat", true), ("swat4", true), ("suspect", true), ("noob", true), ("n00b", true),
    ("vip", true), ("xxx", true), ("killer", true), ("david", true), ("pokemon", true),
    ("rambo", true), ("ghost", true), ("hitman", true), ("wolf", true), ("sniper", true)]

/-- The lower-case character that `re.IGNORECASE` compares with: the ASCII letters, and the four
other characters that it takes for one of them. -/
def foldCase (c : Char) : Char :=
  if 'A' ≤ c ∧ c ≤ 'Z' then Char.ofNat (c.toNat + 32)
  else if c = '\u0130' ∨ c = '\u0131' then 'i'
  else if c = '\u017F' then 's'
  else if c = '\u212A' then 'k'
  else c

def ignoreCase : Text → Regex
  | [] => .eps
  | c :: s => .seq (.set fun d => foldCase d = c) (ignoreCase s)

def popularPattern (name : String × Bool) : Regex :=
  .seq (ignoreCase name.1.toList) (if name.2 then .endOfText else .eps)

/-- The patterns are anchored at the start of the name. -/
def isNamePopular (name : Text) : Bool :=
  name.length < minNameLen ∨ popularNames.any fun popular =>
    ((popularPattern popular).matchAt name).isSome

/-- `(\[[\\/]?[cub]\]|\[c[^\w][^\[\]]*?\])` -/
def tagPattern (outside : External) : Regex :=
  .alt
    (.seq (.lit '[') (.seq (.opt (.set fun c => c = '\\' ∨ c = '/'))
      (.seq (.set fun c => foldCase c ∈ ['c', 'u', 'b']) (.lit ']'))))
    (.seq (.lit '[') (.seq (.set fun c => foldCase c = 'c') (.seq (.set fun c => !outside.isWord c)
      (.seq (.lazyStar (.set fun c => c ≠ '[' ∧ c ≠ ']')) (.lit ']')))))

/-- `name.replace(part, "")`. -/
def removeAll (part name : Text) : Text := (Text.split part name).flatten

/-- The loop of `force_clean_name`: each round removes a tag that is there, so the length of the
name bounds the rounds. -/
def removeTags (outside : External) : ℕ → Text → Text
  | 0, name => name
  | rounds + 1, name =>
    match (tagPattern outside).search name with
    | none => name
    | some (before, found) =>
      let tag := (name.drop before.length).take (name.length - before.length - found.rest.length)
      removeTags outside rounds (removeAll tag name)

def forceCleanName (outside : External) (name : Text) : Text :=
  Text.strip (removeTags outside name.length name)

/-- `int(IPv4Address(ip))`. -/
def parseOctet (octet : Text) : Option ℕ :=
  if octet ≠ [] ∧ octet.all Char.isDigit ∧ octet.length ≤ 3 ∧
      (octet.length = 1 ∨ octet.head? ≠ some '0') ∧ Nat.ofDigitChars 10 octet 0 ≤ 255 then
    some (Nat.ofDigitChars 10 octet 0)
  else
    none

def parseIPv4 (ip : Text) : Option ℕ :=
  match (Text.split ['.'] ip).mapM parseOctet with
  | some [a, b, c, d] => some (((a * 256 + b) * 256 + c) * 256 + d)
  | _ => none

/-- `none` when the name is empty and the address is not one. -/
def forceValidName (outside : External) (name ip : Text) : Option Text :=
  if name = [] then
    (parseIPv4 ip).map fun numericIp =>
      '_' :: ((outside.sha1Hexdigest (Nat.toDigits 10 numericIp)).take 16).drop 8
  else
    some name

def forceName (outside : External) (name ip : Text) : Option Text :=
  forceValidName outside (forceCleanName outside name) ip

theorem results_ignoreCase (lit s : Text) (groups : List (String × Text)) :
    (ignoreCase lit).results ⟨s, groups⟩ =
      if lit <+: s.map foldCase then [⟨s.drop lit.length, groups⟩] else [] := by
  induction lit generalizing s with
  | nil => simp [ignoreCase, Regex.results]
  | cons c lit ih =>
    cases s with
    | nil => simp [ignoreCase, Regex.results]
    | cons d s =>
      obtain hd | hd := Decidable.em (foldCase d = c)
      · have hset : (Regex.set fun e => foldCase e = c).results ⟨d :: s, groups⟩ =
            [⟨s, groups⟩] := by
          simp [Regex.results, hd]
        rw [ignoreCase, Regex.results, hset, List.flatMap_singleton, ih]
        simp [hd, List.cons_prefix_cons]
      · have hset : (Regex.set fun e => foldCase e = c).results ⟨d :: s, groups⟩ = [] := by
          simp [Regex.results, hd]
        rw [ignoreCase, Regex.results_seq_of_nil hset]
        simp [List.cons_prefix_cons, Ne.symm hd]

theorem foldCase_eq_newline {c : Char} : foldCase c = '\n' ↔ c = '\n' := by
  constructor
  · intro h
    unfold foldCase at h
    split at h
    · rename_i hc
      have hrange : 65 ≤ c.toNat ∧ c.toNat ≤ 90 := by
        simpa [Char.le_def, UInt32.le_iff_toNat_le] using hc
      have hletters : ∀ n : Fin 26, Char.ofNat (n + 97) ≠ '\n' := by decide
      have hletter := hletters ⟨c.toNat - 65, by omega⟩
      rw [show c.toNat - 65 + 97 = c.toNat + 32 by omega] at hletter
      exact absurd h hletter
    · split at h
      · exact absurd h (by decide)
      · split at h
        · exact absurd h (by decide)
        · split at h
          · exact absurd h (by decide)
          · exact h
  · rintro rfl
    rfl

theorem isSome_head?_endOfText (st : MatchState) :
    (Regex.endOfText.results st).head?.isSome = decide (st.rest = [] ∨ st.rest = ['\n']) := by
  obtain hrest | hrest := Decidable.em (st.rest = [] ∨ st.rest = ['\n'])
  · simp only [Regex.results, if_pos hrest, decide_eq_true hrest]
    rfl
  · simp only [Regex.results, if_neg hrest, decide_eq_false hrest]
    rfl

theorem matchAt_popularPattern (popular : String × Bool) (name : Text) :
    ((popularPattern popular).matchAt name).isSome =
      decide (popular.1.toList <+: name.map foldCase ∧
        (popular.2 = true →
          (name.map foldCase).drop popular.1.toList.length ∈ [[], ['\n']])) := by
  obtain ⟨lit, exact⟩ := popular
  have hnewline : ∀ s : Text, s.map foldCase = ['\n'] ↔ s = ['\n'] := by
    intro s
    constructor
    · intro h
      obtain ⟨c, hs, hc⟩ := List.map_eq_singleton_iff.mp h
      rw [hs, foldCase_eq_newline.mp hc]
    · rintro rfl
      rfl
  rw [popularPattern, Regex.matchAt, Regex.results, results_ignoreCase]
  obtain hlit | hlit := Decidable.em (lit.toList <+: name.map foldCase)
  · rw [if_pos hlit, List.flatMap_singleton]
    cases exact with
    | false => simp [Regex.results, hlit]
    | true =>
      have hend : (name.map foldCase).drop lit.toList.length ∈ [[], ['\n']] ↔
          name.drop lit.toList.length = [] ∨ name.drop lit.toList.length = ['\n'] := by
        rw [← List.map_drop, List.mem_cons, List.mem_singleton, List.map_eq_nil_iff, hnewline]
      simp only [if_true, hlit, true_and, forall_const, hend]
      exact isSome_head?_endOfText _
  · simp [hlit]

theorem isNamePopular_congr {s t : Text} (h : s.map foldCase = t.map foldCase) :
    isNamePopular s = isNamePopular t := by
  have hlength : s.length = t.length := by
    have hmap := congrArg List.length h
    simpa using hmap
  simp only [isNamePopular, matchAt_popularPattern, h, hlength]

end Swat4Stats
