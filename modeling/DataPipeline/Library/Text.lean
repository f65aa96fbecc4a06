import Mathlib.Data.Nat.Digits.Lemmas

/-! Text as a list of code points, and its byte encodings.

A code point is a `Nat`, so that a lone surrogate, which some decoders let
through, is a text like any other.
-/

set_option autoImplicit false

namespace Encoding

abbrev Text := List Nat

abbrev Bytes := List UInt8

def Text.ofString (string : String) : Text := string.toList.map Char.toNat

def Text.toString (text : Text) : String := String.ofList (text.map Char.ofNat)

/-! ## Decimal numerals -/

def isDigit (c : Nat) : Bool := 48 ≤ c && c ≤ 57

/-- The numeral of `n`, without leading zeros. -/
def decimal (n : Nat) : Text :=
  if n = 0 then [48] else ((Nat.digits 10 n).map (48 + ·)).reverse

/-- The last `width` digits of `n`, with leading zeros. -/
def padded : Nat → Nat → Text
  | 0, _ => []
  | width + 1, n => padded width (n / 10) ++ [48 + n % 10]

def digitsValue (digits : Text) : Nat := digits.foldl (fun value c => 10 * value + (c - 48)) 0

theorem digitsValue_append (digits : Text) (c : Nat) :
    digitsValue (digits ++ [c]) = 10 * digitsValue digits + (c - 48) := by
  simp [digitsValue, List.foldl_append]

@[simp] theorem length_padded (width n : Nat) : (padded width n).length = width := by
  induction width generalizing n with
  | zero => rfl
  | succ width ih => simp [padded, ih]

theorem digitsValue_padded (width n : Nat) : digitsValue (padded width n) = n % 10 ^ width := by
  induction width generalizing n with
  | zero => simp [padded, digitsValue, Nat.mod_one]
  | succ width ih =>
    rw [padded, digitsValue_append, ih, Nat.pow_succ', Nat.mod_mul]
    omega

theorem isDigit_iff {c : Nat} : isDigit c = true ↔ 48 ≤ c ∧ c ≤ 57 := by
  simp [isDigit]

theorem isDigit_of_mem_padded {width n c : Nat} (member : c ∈ padded width n) : isDigit c = true := by
  induction width generalizing n with
  | zero => simp [padded] at member
  | succ width ih =>
    rw [padded, List.mem_append, List.mem_singleton] at member
    cases member with
    | inl member => exact ih member
    | inr same => rw [isDigit_iff]; omega

theorem isDigit_of_mem_decimal {n c : Nat} (member : c ∈ decimal n) : isDigit c = true := by
  rw [isDigit_iff]
  unfold decimal at member
  split at member
  next => rw [List.mem_singleton] at member; omega
  next =>
    obtain ⟨d, digit, rfl⟩ := List.mem_map.mp (List.mem_reverse.mp member)
    have small : d < 10 := Nat.digits_lt_base (by omega) digit
    omega

theorem decimal_ne_nil (n : Nat) : decimal n ≠ [] := by
  unfold decimal
  split
  next => simp
  next positive => simpa [Nat.digits_eq_nil_iff_eq_zero] using positive

theorem decimal_cons (n : Nat) : ∃ d ds, decimal n = d :: ds ∧ 48 ≤ d ∧ d ≤ 57 := by
  cases shape : decimal n with
  | nil => exact absurd shape (decimal_ne_nil n)
  | cons d ds => exact ⟨d, ds, rfl, isDigit_iff.mp (isDigit_of_mem_decimal (n := n) (by simp [shape]))⟩

theorem digitsValue_decimal (n : Nat) : digitsValue (decimal n) = n := by
  unfold decimal
  split
  next zero => simp [digitsValue, zero]
  next =>
    rw [digitsValue, List.foldl_reverse, List.foldr_map]
    simp only [Nat.add_sub_cancel_left]
    have value := Nat.ofDigits_digits 10 n
    rw [Nat.ofDigits_eq_foldr] at value
    simpa [Nat.add_comm] using value

theorem length_decimal_le {n width : Nat} (positive : 0 < width) (fits : n < 10 ^ width) :
    (decimal n).length ≤ width := by
  unfold decimal
  split
  · exact positive
  · rw [List.length_reverse, List.length_map]
    exact (Nat.digits_length_le_iff (by decide) n).mpr fits

theorem head_decimal {n c : Nat} {rest : Text} (positive : n ≠ 0) (shape : decimal n = c :: rest) :
    c ≠ 48 := by
  rw [decimal, if_neg positive] at shape
  have nonempty : Nat.digits 10 n ≠ [] := by simpa [Nat.digits_eq_nil_iff_eq_zero] using positive
  have last := Nat.getLast_digit_ne_zero 10 positive
  have head : ((Nat.digits 10 n).map (48 + ·)).reverse.head? = some c := by rw [shape]; rfl
  -- The first digit written is the last one of the reversed list, which is not zero.
  rw [List.head?_reverse, List.getLast?_map, List.getLast?_eq_getLast_of_ne_nil nonempty] at head
  simp only [Option.map_some, Option.some.injEq] at head
  omega

/-! ## UTF-8 -/

/-- The ranges in which the bytes after a lead byte must lie, and none for a
byte that cannot lead. Surrogates are admitted on request. -/
def followers (surrogates : Bool) (lead : Nat) : Option (List (Nat × Nat)) :=
  if lead < 0x80 then some []
  else if lead < 0xC2 then none
  else if lead < 0xE0 then some [(0x80, 0xBF)]
  else if lead < 0xF0 then
    -- Overlong forms and surrogates show in the second byte.
    let second := if lead = 0xE0 then (0xA0, 0xBF)
      else if lead = 0xED ∧ surrogates = false then (0x80, 0x9F) else (0x80, 0xBF)
    some [second, (0x80, 0xBF)]
  else if lead < 0xF5 then
    let second := if lead = 0xF0 then (0x90, 0xBF)
      else if lead = 0xF4 then (0x80, 0x8F) else (0x80, 0xBF)
    some [second, (0x80, 0xBF), (0x80, 0xBF)]
  else none

/-- The longest stretch of bytes that lie in the ranges, one range each. -/
def following : List (Nat × Nat) → Bytes → List Nat
  | (low, high) :: ranges, byte :: bytes =>
    if low ≤ byte.toNat ∧ byte.toNat ≤ high then byte.toNat :: following ranges bytes else []
  | _, _ => []

/-- One code point and the number of bytes it takes, or the number of bytes a
decoder that goes on must skip. -/
def nextUtf8 (surrogates : Bool) (lead : UInt8) (bytes : Bytes) : Except Nat (Nat × Nat) :=
  match followers surrogates lead.toNat with
  | none => .error 1
  | some ranges =>
    let tail := following ranges bytes
    if tail.length = ranges.length then
      let high := if ranges = [] then lead.toNat else lead.toNat % 2 ^ (6 - ranges.length)
      .ok (tail.foldl (fun value byte => 64 * value + byte % 64) high, 1 + tail.length)
    else .error (1 + tail.length)

/-- Strict decoding: none on the first ill-formed sequence. -/
def decodeUtf8 (surrogates : Bool) (bytes : Bytes) : Option Text :=
  go bytes.length bytes
where
  go : Nat → Bytes → Option Text
    | _, [] => some []
    | 0, _ => none
    | fuel + 1, lead :: bytes =>
      match nextUtf8 surrogates lead bytes with
      | .ok (code, taken) => (go fuel ((lead :: bytes).drop taken)).map (code :: ·)
      | .error _ => none

/-- Decoding that puts U+FFFD for every ill-formed sequence. -/
def decodeUtf8Replacing (bytes : Bytes) : Text :=
  go bytes.length bytes
where
  go : Nat → Bytes → Text
    | _, [] => []
    | 0, _ => []
    | fuel + 1, lead :: bytes =>
      match nextUtf8 false lead bytes with
      | .ok (code, taken) => code :: go fuel ((lead :: bytes).drop taken)
      | .error skipped => 0xFFFD :: go fuel ((lead :: bytes).drop skipped)

/-- The bytes of a code point, and none for a surrogate. -/
def encodeUtf8Code (code : Nat) : Option Bytes :=
  if code < 0x80 then some [code.toUInt8]
  else if code < 0x800 then some [(0xC0 + code / 64).toUInt8, (0x80 + code % 64).toUInt8]
  else if 0xD800 ≤ code ∧ code < 0xE000 then none
  else if code < 0x10000 then
    some [(0xE0 + code / 4096).toUInt8, (0x80 + code / 64 % 64).toUInt8, (0x80 + code % 64).toUInt8]
  else some [(0xF0 + code / 262144).toUInt8, (0x80 + code / 4096 % 64).toUInt8,
    (0x80 + code / 64 % 64).toUInt8, (0x80 + code % 64).toUInt8]

def encodeUtf8 (text : Text) : Option Bytes :=
  (text.mapM encodeUtf8Code).map List.flatten

theorem isSome_mapM {Item Value : Type} (compute : Item → Option Value) (items : List Item) :
    (items.mapM compute).isSome = items.all fun item => (compute item).isSome := by
  induction items with
  | nil => rfl
  | cons item items ih =>
    rw [List.all_cons, ← ih, List.mapM_cons]
    cases compute item with
    | none => rfl
    | some value => cases items.mapM compute <;> rfl

/-- One surrogate is enough to make a text impossible to encode. -/
theorem isSome_encodeUtf8 (text : Text) :
    (encodeUtf8 text).isSome = text.all fun code => (encodeUtf8Code code).isSome := by
  rw [encodeUtf8, Option.isSome_map, isSome_mapM]

def IsAscii (text : Text) : Prop := ∀ c ∈ text, c < 0x80

theorem IsAscii.append {first second : Text} (left : IsAscii first) (right : IsAscii second) :
    IsAscii (first ++ second) := by
  intro c member
  exact (List.mem_append.mp member).elim (left c) (right c)

theorem IsAscii.intercalate {separator : Text} {parts : List Text} (between : IsAscii separator)
    (ascii : ∀ part ∈ parts, IsAscii part) : IsAscii (List.intercalate separator parts) := by
  induction parts with
  | nil => simp [IsAscii, List.intercalate]
  | cons part parts ih =>
    have rest := ih fun part member => ascii part (List.mem_cons_of_mem _ member)
    have first := ascii part List.mem_cons_self
    cases parts with
    | nil => rwa [List.intercalate_singleton]
    | cons next parts =>
      rw [List.intercalate_cons_cons]
      exact (first.append between).append rest

theorem toNat_toUInt8 {c : Nat} (small : c < 256) : c.toUInt8.toNat = c := by
  simpa using small

theorem encodeUtf8_ascii {text : Text} (ascii : IsAscii text) :
    encodeUtf8 text = some (text.map Nat.toUInt8) := by
  induction text with
  | nil => rfl
  | cons c text ih =>
    have small : c < 0x80 := ascii c (by simp)
    have rest := ih fun c member => ascii c (by simp [member])
    simp only [encodeUtf8, Option.map_eq_some_iff] at rest
    obtain ⟨codes, split, joined⟩ := rest
    simp [encodeUtf8, encodeUtf8Code, small, split, joined]

theorem nextUtf8_ascii {surrogates : Bool} {c : Nat} (bytes : Bytes) (small : c < 0x80) :
    nextUtf8 surrogates c.toUInt8 bytes = .ok (c, 1) := by
  simp [nextUtf8, followers, toNat_toUInt8 (c := c) (by omega), small, following]

theorem decodeUtf8_ascii {surrogates : Bool} {text : Text} (ascii : IsAscii text) :
    decodeUtf8 surrogates (text.map Nat.toUInt8) = some text := by
  rw [decodeUtf8, List.length_map]
  induction text with
  | nil => rfl
  | cons c text ih =>
    have small : c < 0x80 := ascii c (by simp)
    have rest := ih fun c member => ascii c (by simp [member])
    simp only [List.map_cons, List.length_cons, decodeUtf8.go, nextUtf8_ascii _ small]
    simpa using rest

/-! ## UTF-16 and UTF-32, with surrogates let through -/

def wordsOf (bigEndian : Bool) : Bytes → Option (List Nat)
  | [] => some []
  | a :: b :: bytes =>
    (wordsOf bigEndian bytes).map
      ((if bigEndian then 256 * a.toNat + b.toNat else a.toNat + 256 * b.toNat) :: ·)
  | [_] => none

/-- Joins each high surrogate with the low surrogate after it. -/
def joinSurrogates : Text → Text
  | high :: low :: text =>
    if 0xD800 ≤ high ∧ high < 0xDC00 ∧ 0xDC00 ≤ low ∧ low < 0xE000 then
      (0x10000 + 1024 * (high - 0xD800) + (low - 0xDC00)) :: joinSurrogates text
    else high :: joinSurrogates (low :: text)
  | text => text
termination_by text => text.length

def decodeUtf16 (bigEndian : Bool) (bytes : Bytes) : Option Text :=
  (wordsOf bigEndian bytes).map joinSurrogates

def pairsOf (bigEndian : Bool) : List Nat → Option Text
  | [] => some []
  | a :: b :: words => do
    let code := if bigEndian then 65536 * a + b else a + 65536 * b
    guard (code ≤ 0x10FFFF)
    let text ← pairsOf bigEndian words
    some (code :: text)
  | [_] => none

def decodeUtf32 (bigEndian : Bool) (bytes : Bytes) : Option Text :=
  (wordsOf bigEndian bytes).bind (pairsOf bigEndian)

end Encoding
