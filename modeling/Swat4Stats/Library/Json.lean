import Swat4Stats.Library.PercentEncoding
import Swat4Stats.Library.Voluptuous

/-!
# JSON

`json.dumps` and `json.loads` with their default separators and escapes. The decoder builds its
values through hooks, among them the `object_hook`, from the inside out.
-/

namespace Swat4Stats

set_option autoImplicit false

namespace Json

open Percent (hexValue)

/-- `ESCAPE_DCT`. -/
def escapes : List (Char × Char) :=
  [('\\', '\\'), ('"', '"'), ('\u0008', 'b'), ('\u000c', 'f'), ('\n', 'n'), ('\r', 'r'),
    ('\t', 't')]

/-- `'\\u{0:04x}'` -/
def unicodeEscape (n : ℕ) : Text :=
  '\\' :: 'u' :: [n / 4096 % 16, n / 256 % 16, n / 16 % 16, n % 16].map Nat.digitChar

/-- The replacement of `py_encode_basestring_ascii`. -/
def escapeChar (c : Char) : Text :=
  match escapes.lookup c with
  | some letter => ['\\', letter]
  | none =>
    if ' ' ≤ c ∧ c ≤ '~' then [c]
    else if c.toNat < 0x10000 then unicodeEscape c.toNat
    else
      -- a surrogate pair
      unicodeEscape (0xD800 + (c.toNat - 0x10000) / 1024) ++
        unicodeEscape (0xDC00 + (c.toNat - 0x10000) % 1024)

def quote (s : Text) : Text := '"' :: (s.flatMap escapeChar ++ ['"'])

/-- `int.__repr__` -/
def intText : ℤ → Text
  | .ofNat n => Nat.toDigits 10 n
  | .negSucc n => '-' :: Nat.toDigits 10 (n + 1)

/-- `floatstr` -/
def floatText (x : PyFloat) : Text :=
  if x.repr = "nan".toList then "NaN".toList
  else if x.repr = "inf".toList then "Infinity".toList
  else if x.repr = "-inf".toList then "-Infinity".toList
  else x.repr

mutual

def dumps : PyValue → Text
  | .none => "null".toList
  | .bool b => if b then "true".toList else "false".toList
  | .int n => intText n
  | .float x => floatText x
  | .str s => quote s
  | .list items => '[' :: (Text.join ", ".toList (dumpsItems items) ++ [']'])
  | .dict items => '{' :: (Text.join ", ".toList (dumpsEntries items) ++ ['}'])

def dumpsItems : List PyValue → List Text
  | [] => []
  | item :: items => dumps item :: dumpsItems items

def dumpsEntries : List (Text × PyValue) → List Text
  | [] => []
  | (key, value) :: items => (quote key ++ ": ".toList ++ dumps value) :: dumpsEntries items

end

def readHex4 : Text → Option (ℕ × Text)
  | a :: b :: c :: d :: rest => do
    let a ← hexValue a
    let b ← hexValue b
    let c ← hexValue c
    let d ← hexValue d
    pure (4096 * a + 256 * b + 16 * c + d, rest)
  | _ => none

section Strings

variable (surrogate : ℕ → Char)

/-- `chr(n)`, where `surrogate` has the characters that stand for lone surrogates. -/
def chr (n : ℕ) : Char := if n.isValidChar then Char.ofNat n else surrogate n

/-- `_decode_uXXXX` and the second half of a surrogate pair, after the `u`. A half alone is a
character as well. -/
def readUnicode (s : Text) : Option (Char × Text) := do
  let (uni, rest) ← readHex4 s
  if 0xD800 ≤ uni ∧ uni ≤ 0xDBFF then
    match rest with
    | '\\' :: 'u' :: low =>
      let (uni2, afterLow) ← readHex4 low
      if 0xDC00 ≤ uni2 ∧ uni2 ≤ 0xDFFF then
        pure (chr surrogate (0x10000 + (uni - 0xD800) * 1024 + (uni2 - 0xDC00)), afterLow)
      else pure (chr surrogate uni, rest)
    | _ => pure (chr surrogate uni, rest)
  else pure (chr surrogate uni, rest)

/-- `BACKSLASH`. -/
def unescapes : List (Char × Char) := ('/', '/') :: escapes.map Prod.swap

def readEscape : Text → Option (Char × Text)
  | [] => none
  | letter :: rest =>
    if letter = 'u' then readUnicode surrogate rest
    else (unescapes.lookup letter).map fun c => (c, rest)

def scanStringGo : ℕ → Text → Option (Text × Text)
  | 0, _ => none
  | _ + 1, [] => none
  | fuel + 1, c :: rest =>
    if c = '"' then some ([], rest)
    else if c = '\\' then do
      let (c, rest) ← readEscape surrogate rest
      let (s, rest) ← scanStringGo fuel rest
      pure (c :: s, rest)
    else if c < ' ' then none
    else do
      let (s, rest) ← scanStringGo fuel rest
      pure (c :: s, rest)

/-- `scanstring`, after the opening quote. -/
def scanString (s : Text) : Option (Text × Text) := scanStringGo surrogate s.length s

end Strings

def scanDigits (s : Text) : Text × Text := (s.takeWhile Char.isDigit, s.dropWhile Char.isDigit)

/-- `-?(?:0|[1-9][0-9]*)` without the sign. -/
def scanNatural : Text → Option (Text × Text)
  | [] => none
  | c :: rest =>
    if c = '0' then some (['0'], rest)
    else if c.isDigit then some (scanDigits (c :: rest))
    else none

def scanInteger : Text → Option (Text × Text)
  | '-' :: rest => (scanNatural rest).map fun digits => ('-' :: digits.1, digits.2)
  | s => scanNatural s

/-- `(\.[0-9]+)?` -/
def scanFraction : Text → Text × Text
  | '.' :: rest =>
    if (scanDigits rest).1 = [] then ([], '.' :: rest)
    else ('.' :: (scanDigits rest).1, (scanDigits rest).2)
  | s => ([], s)

/-- `[-+]?` -/
def scanSign : Text → Text × Text
  | [] => ([], [])
  | c :: rest => if c = '+' ∨ c = '-' then ([c], rest) else ([], c :: rest)

/-- `([eE][-+]?[0-9]+)?` -/
def scanExponent : Text → Text × Text
  | [] => ([], [])
  | c :: rest =>
    if (c = 'e' ∨ c = 'E') ∧ (scanDigits (scanSign rest).2).1 ≠ [] then
      (c :: ((scanSign rest).1 ++ (scanDigits (scanSign rest).2).1),
        (scanDigits (scanSign rest).2).2)
    else ([], c :: rest)

/-- What is not read here: the value of a number with a fraction or an exponent, and the character
that stands for a lone surrogate. -/
structure Literals where
  float : Text → PyFloat
  surrogate : ℕ → Char

/-- What the decoder makes of each kind of value. -/
structure Hooks (ε V : Type) where
  null : V
  bool : Bool → V
  int : ℤ → V
  /-- `float` of a literal. -/
  float : Text → V
  str : Text → V
  /-- The character that stands for a lone surrogate. -/
  surrogate : ℕ → Char
  list : List V → V
  /-- The `object_hook`. -/
  object : OrderedDict Text V → Except ε V
  decodeError : ε

section Decoder

variable {ε V : Type} (h : Hooks ε V)

/-- `match_number` and the conversion of what it finds. -/
def scanNumber (s : Text) : Option (V × Text) := do
  let (integer, rest) ← scanInteger s
  let (fraction, rest) := scanFraction rest
  let (exponent, rest) := scanExponent rest
  if fraction = [] ∧ exponent = [] then
    let n ← Text.parseInt integer
    pure (h.int n, rest)
  else
    pure (h.float (integer ++ fraction ++ exponent), rest)

/-- The values that are neither strings nor containers. -/
def scanAtom (s : Text) : Except ε (V × Text) :=
  if "null".toList <+: s then .ok (h.null, s.drop 4)
  else if "true".toList <+: s then .ok (h.bool true, s.drop 4)
  else if "false".toList <+: s then .ok (h.bool false, s.drop 5)
  else
    match scanNumber h s with
    | some number => .ok number
    | none =>
      if "NaN".toList <+: s then .ok (h.float "NaN".toList, s.drop 3)
      else if "Infinity".toList <+: s then .ok (h.float "Infinity".toList, s.drop 8)
      else if "-Infinity".toList <+: s then .ok (h.float "-Infinity".toList, s.drop 9)
      else .error h.decodeError

def skipSpace (s : Text) : Text := s.dropWhile fun c => c ∈ [' ', '\t', '\n', '\r']

variable (scan : Text → Except ε (V × Text))

/-- The loop of `JSONArray`. -/
def scanItems : ℕ → Text → Except ε (List V × Text)
  | 0, _ => .error h.decodeError
  | fuel + 1, s => do
    let (value, rest) ← scan s
    match skipSpace rest with
    | ']' :: rest => pure ([value], rest)
    | ',' :: rest =>
      let (values, rest) ← scanItems fuel (skipSpace rest)
      pure (value :: values, rest)
    | _ => throw h.decodeError

/-- The loop of `JSONObject`, after the opening quote of a key. -/
def scanEntries : ℕ → Text → Except ε (List (Text × V) × Text)
  | 0, _ => .error h.decodeError
  | fuel + 1, s =>
    match scanString h.surrogate s with
    | none => .error h.decodeError
    | some (key, rest) =>
      match skipSpace rest with
      | ':' :: rest => do
        let (value, rest) ← scan (skipSpace rest)
        match skipSpace rest with
        | '}' :: rest => pure ([(key, value)], rest)
        | ',' :: rest =>
          match skipSpace rest with
          | '"' :: rest =>
            let (entries, rest) ← scanEntries fuel rest
            pure ((key, value) :: entries, rest)
          | _ => throw h.decodeError
        | _ => throw h.decodeError
      | _ => .error h.decodeError

/-- `JSONArray`, after the bracket. -/
def scanArray (fuel : ℕ) (s : Text) : Except ε (V × Text) :=
  match skipSpace s with
  | ']' :: rest => .ok (h.list [], rest)
  | s => do
    let (values, rest) ← scanItems h scan fuel s
    pure (h.list values, rest)

/-- `JSONObject`, after the brace. Of two entries with one key the later one counts. -/
def scanObject (fuel : ℕ) (s : Text) : Except ε (V × Text) :=
  match skipSpace s with
  | '}' :: rest => do
    let value ← h.object []
    pure (value, rest)
  | '"' :: rest => do
    let (entries, rest) ← scanEntries h scan fuel rest
    let value ← h.object (OrderedDict.update [] entries)
    pure (value, rest)
  | _ => .error h.decodeError

omit scan

def scanOnce : ℕ → Text → Except ε (V × Text)
  | 0, _ => .error h.decodeError
  | _ + 1, [] => .error h.decodeError
  | fuel + 1, c :: rest =>
    if c = '"' then
      match scanString h.surrogate rest with
      | some (s, rest) => .ok (h.str s, rest)
      | none => .error h.decodeError
    else if c = '{' then scanObject h (scanOnce fuel) fuel rest
    else if c = '[' then scanArray h (scanOnce fuel) fuel rest
    else scanAtom h (c :: rest)

def loads (s : Text) : Except ε V :=
  if s.head? = some '\uFEFF' then .error h.decodeError
  else do
    let (value, rest) ← scanOnce h (s.length + 1) (skipSpace s)
    if skipSpace rest = [] then pure value else throw h.decodeError

end Decoder

end Json

end Swat4Stats
