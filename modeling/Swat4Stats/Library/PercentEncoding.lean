import Swat4Stats.Library.Text
import Mathlib.Data.List.Flatten

/-!
# Percent encoding

`quote_plus` and `unquote_plus` of `urllib.parse`: UTF-8, a plus sign for a space, and the
replacement character for bytes that are not UTF-8.
-/

namespace Swat4Stats

set_option autoImplicit false

namespace Percent

def encodeUtf8 (s : Text) : List UInt8 := s.flatMap String.utf8EncodeChar

/-- Whether `second` may follow `first` in a sequence of three or four bytes. -/
def continues (first second : UInt8) : Bool :=
  match first.toNat with
  | 0xE0 => 0xA0 ≤ second.toNat ∧ second.toNat ≤ 0xBF
  | 0xED => 0x80 ≤ second.toNat ∧ second.toNat ≤ 0x9F
  | 0xF0 => 0x90 ≤ second.toNat ∧ second.toNat ≤ 0xBF
  | 0xF4 => 0x80 ≤ second.toNat ∧ second.toNat ≤ 0x8F
  | _ => 0x80 ≤ second.toNat ∧ second.toNat ≤ 0xBF

/-- How many bytes one replacement character stands for: the longest start of a sequence. -/
def invalidLength : List UInt8 → ℕ
  | first :: second :: third :: _ =>
    if 0xE0 ≤ first.toNat ∧ first.toNat ≤ 0xF4 ∧ continues first second then
      if 0xF0 ≤ first.toNat ∧ 0x80 ≤ third.toNat ∧ third.toNat ≤ 0xBF then 3 else 2
    else 1
  | [first, second] =>
    if 0xE0 ≤ first.toNat ∧ first.toNat ≤ 0xF4 ∧ continues first second then 2 else 1
  | _ => 1

def decodeGo : ℕ → List UInt8 → Text
  | 0, _ => []
  | _ + 1, [] => []
  | fuel + 1, bytes@(_ :: _) =>
    match bytes.toByteArray.utf8DecodeChar? 0 with
    | some c => c :: decodeGo fuel (bytes.drop c.utf8Size)
    | none => '\uFFFD' :: decodeGo fuel (bytes.drop (invalidLength bytes))

def decodeUtf8 (bytes : List UInt8) : Text := decodeGo bytes.length bytes

theorem decodeGo_encodeUtf8 (s : Text) {fuel : ℕ} (hfuel : (encodeUtf8 s).length ≤ fuel) :
    decodeGo fuel (encodeUtf8 s) = s := by
  induction s generalizing fuel with
  | nil => cases fuel <;> rfl
  | cons c s ih =>
    have hcons : encodeUtf8 (c :: s) = String.utf8EncodeChar c ++ encodeUtf8 s := rfl
    have hlength : (encodeUtf8 (c :: s)).length = c.utf8Size + (encodeUtf8 s).length := by
      simp [hcons]
    have hpos := c.utf8Size_pos
    obtain ⟨fuel, rfl⟩ : ∃ n, fuel = n + 1 := ⟨fuel - 1, by omega⟩
    have hdecode : (encodeUtf8 (c :: s)).toByteArray.utf8DecodeChar? 0 = some c := by
      rw [hcons, List.toByteArray_append]
      exact ByteArray.utf8DecodeChar?_utf8EncodeChar_append
    have hdrop : (encodeUtf8 (c :: s)).drop c.utf8Size = encodeUtf8 s := by
      rw [hcons, ← String.length_utf8EncodeChar, List.drop_left]
    have hstep : decodeGo (fuel + 1) (encodeUtf8 (c :: s)) =
        c :: decodeGo fuel ((encodeUtf8 (c :: s)).drop c.utf8Size) := by
      cases hbytes : encodeUtf8 (c :: s) with
      | nil =>
        rw [hbytes] at hlength
        simp at hlength
        omega
      | cons b bytes =>
        rw [hbytes] at hdecode
        simp only [decodeGo, hdecode]
    rw [hstep, hdrop, ih (by omega)]

theorem decodeUtf8_encodeUtf8 (s : Text) : decodeUtf8 (encodeUtf8 s) = s :=
  decodeGo_encodeUtf8 s le_rfl

/-- `_ALWAYS_SAFE`. -/
def alwaysSafe (b : UInt8) : Bool :=
  (Char.ofNat b.toNat).isAlphanum ∧ b.toNat < 128 ∨ Char.ofNat b.toNat ∈ ['_', '.', '-', '~']

def hexDigit (n : ℕ) : Char := if n < 10 then Char.ofNat (48 + n) else Char.ofNat (55 + n)

def quoteByte (b : UInt8) : Text :=
  if alwaysSafe b then [Char.ofNat b.toNat]
  else if b = 32 then ['+']
  else ['%', hexDigit (b.toNat / 16), hexDigit (b.toNat % 16)]

def quotePlus (s : Text) : Text := (encodeUtf8 s).flatMap quoteByte

def hexValue (c : Char) : Option ℕ :=
  if '0' ≤ c ∧ c ≤ '9' then some (c.toNat - 48)
  else if 'A' ≤ c ∧ c ≤ 'F' then some (c.toNat - 55)
  else if 'a' ≤ c ∧ c ≤ 'f' then some (c.toNat - 87)
  else none

def unquoteToBytes : Text → List UInt8
  | '%' :: hi :: lo :: rest =>
    match hexValue hi, hexValue lo with
    | some x, some y => UInt8.ofNat (16 * x + y) :: unquoteToBytes rest
    | _, _ => 37 :: unquoteToBytes (hi :: lo :: rest)
  | c :: rest => UInt8.ofNat c.toNat :: unquoteToBytes rest
  | [] => []

/-- `unquote`: each run of ASCII characters is decoded by itself, `run` being the one read. -/
def unquoteGo (run : Text) : Text → Text
  | [] => decodeUtf8 (unquoteToBytes run)
  | c :: rest =>
    if c.toNat < 128 then
      unquoteGo (run ++ [c]) rest
    else
      decodeUtf8 (unquoteToBytes run) ++ c :: unquoteGo [] rest

def unquotePlus (s : Text) : Text :=
  unquoteGo [] (s.map fun c => if c = '+' then ' ' else c)

theorem unquoteGo_ascii (run : Text) {s : Text} (hs : ∀ c ∈ s, c.toNat < 128) :
    unquoteGo run s = decodeUtf8 (unquoteToBytes (run ++ s)) := by
  induction s generalizing run with
  | nil => simp [unquoteGo]
  | cons c s ih =>
    have hc : c.toNat < 128 := hs c (by simp)
    rw [unquoteGo, if_pos hc, ih (run ++ [c]) fun c hc => hs c (by simp [hc])]
    simp

theorem forall_byte {P : UInt8 → Prop} (h : ∀ n : Fin 256, P (UInt8.ofNat n)) (b : UInt8) :
    P b := by
  have hb := h ⟨b.toNat, b.toNat_lt⟩
  simpa using hb

/-- Everything that a quoted byte consists of is ASCII and no separator of a query string. -/
theorem quoteByte_chars (b : UInt8) :
    ∀ c ∈ quoteByte b, c.toNat < 128 ∧ c ≠ '&' ∧ c ≠ '=' := by
  have hall : ∀ b, (quoteByte b).all fun c => decide (c.toNat < 128 ∧ c ≠ '&' ∧ c ≠ '=') := by
    apply forall_byte
    decide +kernel
  intro c hc
  exact of_decide_eq_true (List.all_eq_true.mp (hall b) c hc)

theorem unquoteToBytes_cons {c : Char} (hc : c ≠ '%') (rest : Text) :
    unquoteToBytes (c :: rest) = UInt8.ofNat c.toNat :: unquoteToBytes rest := by
  rw [unquoteToBytes]
  simp [hc]

theorem safe_byte (b : UInt8) (hb : alwaysSafe b = true) :
    Char.ofNat b.toNat ≠ '%' ∧ Char.ofNat b.toNat ≠ '+' ∧
      UInt8.ofNat (Char.ofNat b.toNat).toNat = b := by
  revert b
  apply forall_byte
  decide +kernel

theorem hex_byte (b : UInt8) :
    hexValue (hexDigit (b.toNat / 16)) = some (b.toNat / 16) ∧
      hexValue (hexDigit (b.toNat % 16)) = some (b.toNat % 16) ∧
      hexDigit (b.toNat / 16) ≠ '+' ∧ hexDigit (b.toNat % 16) ≠ '+' := by
  revert b
  apply forall_byte
  decide +kernel

theorem unquoteToBytes_quoteByte (b : UInt8) (rest : Text) :
    unquoteToBytes ((quoteByte b).map (fun c => if c = '+' then ' ' else c) ++ rest) =
      b :: unquoteToBytes rest := by
  unfold quoteByte
  split
  · rename_i hsafe
    obtain ⟨hpercent, hplus, hbyte⟩ := safe_byte b hsafe
    simp only [List.map_cons, List.map_nil, if_neg hplus, List.cons_append, List.nil_append]
    rw [unquoteToBytes_cons hpercent, hbyte]
  · split
    · rename_i hspace
      subst hspace
      rfl
    · obtain ⟨hhi, hlo, hhiPlus, hloPlus⟩ := hex_byte b
      have hbyte : UInt8.ofNat (16 * (b.toNat / 16) + b.toNat % 16) = b := by
        rw [Nat.div_add_mod]
        simp
      simp only [List.map_cons, List.map_nil, if_neg hhiPlus, if_neg hloPlus, List.cons_append,
        List.nil_append]
      rw [if_neg (by decide), unquoteToBytes]
      simp only [hhi, hlo, hbyte]

theorem unquoteToBytes_quotePlus (bytes : List UInt8) :
    unquoteToBytes ((bytes.flatMap quoteByte).map fun c => if c = '+' then ' ' else c) = bytes := by
  induction bytes with
  | nil => rfl
  | cons b bytes ih =>
    rw [List.flatMap_cons, List.map_append, unquoteToBytes_quoteByte, ih]

theorem quotePlus_chars (s : Text) :
    ∀ c ∈ quotePlus s, c.toNat < 128 ∧ c ≠ '&' ∧ c ≠ '=' := by
  intro c hc
  obtain ⟨b, _, hc⟩ := List.mem_flatMap.mp hc
  exact quoteByte_chars b c hc

theorem unquotePlus_quotePlus (s : Text) : unquotePlus (quotePlus s) = s := by
  have hascii : ∀ c ∈ (quotePlus s).map (fun c => if c = '+' then ' ' else c),
      c.toNat < 128 := by
    intro c hc
    obtain ⟨d, hd, rfl⟩ := List.mem_map.mp hc
    split
    · decide
    · exact (quotePlus_chars s d hd).1
  rw [unquotePlus, unquoteGo_ascii [] hascii, List.nil_append]
  rw [quotePlus, unquoteToBytes_quotePlus, decodeUtf8_encodeUtf8]

theorem quotePlus_ne_nil {s : Text} (hs : s ≠ []) : quotePlus s ≠ [] := by
  intro hnil
  have h := unquotePlus_quotePlus s
  rw [hnil] at h
  exact hs h.symm

theorem quotePlus_nil : quotePlus [] = [] := rfl

end Percent

end Swat4Stats
