import DataPipeline.Library.Text

/-! Base64, with the decoder of `binascii.a2b_base64` when it is not strict: it
skips what is not in the alphabet, and stops where the padding completes a quad.
-/

set_option autoImplicit false

namespace Base64

open Encoding

def encodeDigit (value : Nat) : Nat :=
  if value < 26 then 65 + value
  else if value < 52 then 71 + value
  else if value < 62 then value - 4
  else if value = 62 then 43
  else 47

def decodeDigit (c : Nat) : Option Nat :=
  if 65 ≤ c ∧ c ≤ 90 then some (c - 65)
  else if 97 ≤ c ∧ c ≤ 122 then some (c - 71)
  else if 48 ≤ c ∧ c ≤ 57 then some (c + 4)
  else if c = 43 then some 62
  else if c = 47 then some 63
  else none

def b64encode : Bytes → Text
  | a :: b :: c :: rest =>
    encodeDigit (a.toNat / 4) :: encodeDigit (a.toNat % 4 * 16 + b.toNat / 16) ::
      encodeDigit (b.toNat % 16 * 4 + c.toNat / 64) :: encodeDigit (c.toNat % 64) :: b64encode rest
  | [a, b] =>
    [encodeDigit (a.toNat / 4), encodeDigit (a.toNat % 4 * 16 + b.toNat / 16), encodeDigit (b.toNat % 16 * 4), 61]
  | [a] => [encodeDigit (a.toNat / 4), encodeDigit (a.toNat % 4 * 16), 61, 61]
  | [] => []

/-- The bytes still to come, at a position in a quad, after some padding, with
the bits left over from the digit before. None for a `binascii.Error`. -/
def a2bBase64 (position pads left : Nat) : Text → Option Bytes
  | [] => if position = 0 then some [] else none
  | c :: rest =>
    if c = 61 then
      if 2 ≤ position then
        -- The quad is complete and what follows it is not looked at.
        if 4 ≤ position + (pads + 1) then some [] else a2bBase64 position (pads + 1) left rest
      -- Padding before the second digit is skipped like any other character.
      else a2bBase64 position pads left rest
    else
      match decodeDigit c with
      | none => a2bBase64 position pads left rest
      | some digit =>
        match position with
        | 0 => a2bBase64 1 0 digit rest
        | 1 => (a2bBase64 2 0 (digit % 16) rest).map ((left * 4 + digit / 16).toUInt8 :: ·)
        | 2 => (a2bBase64 3 0 (digit % 4) rest).map ((left * 16 + digit / 4).toUInt8 :: ·)
        | _ => (a2bBase64 0 0 0 rest).map ((left * 64 + digit).toUInt8 :: ·)

/-- `base64.b64decode` of a text, which must be ASCII. -/
def b64decode (text : Text) : Option Bytes :=
  if text.all (· < 0x80) then a2bBase64 0 0 0 text else none

/-- The characters that stand for themselves in the value of a URL query: those
that are never reserved, and the equals sign of the padding. -/
def SurvivesQuery (c : Nat) : Prop :=
  65 ≤ c ∧ c ≤ 90 ∨ 97 ≤ c ∧ c ≤ 122 ∨ 48 ≤ c ∧ c ≤ 57 ∨ c = 45 ∨ c = 46 ∨ c = 95 ∨ c = 126 ∨ c = 61

instance : DecidablePred SurvivesQuery := fun _ => inferInstanceAs (Decidable (_ ∨ _))

/-! ## Round trip -/

theorem decodeDigit_encodeDigit {value : Nat} (small : value < 64) :
    decodeDigit (encodeDigit value) = some value := by
  unfold encodeDigit
  split_ifs <;> unfold decodeDigit <;> split_ifs <;> first | omega | (congr 1; omega)

theorem encodeDigit_range {value : Nat} (small : value < 64) :
    encodeDigit value < 0x80 ∧ encodeDigit value ≠ 61 := by
  unfold encodeDigit
  split_ifs <;> omega

/-- One digit of the alphabet is consumed at each position of a quad. -/
theorem a2bBase64_digit {value : Nat} (small : value < 64) (position pads left : Nat) (rest : Text) :
    a2bBase64 position pads left (encodeDigit value :: rest) =
      match position with
      | 0 => a2bBase64 1 0 value rest
      | 1 => (a2bBase64 2 0 (value % 16) rest).map ((left * 4 + value / 16).toUInt8 :: ·)
      | 2 => (a2bBase64 3 0 (value % 4) rest).map ((left * 16 + value / 4).toUInt8 :: ·)
      | _ => (a2bBase64 0 0 0 rest).map ((left * 64 + value).toUInt8 :: ·) := by
  rw [a2bBase64, if_neg (encodeDigit_range small).2, decodeDigit_encodeDigit small]

theorem a2bBase64_onePad (left : Nat) : a2bBase64 3 0 left [61] = some [] := by
  simp [a2bBase64]

theorem a2bBase64_twoPads (left : Nat) : a2bBase64 2 0 left [61, 61] = some [] := by
  simp [a2bBase64]

theorem toUInt8_of_eq {n : Nat} {byte : UInt8} (same : n = byte.toNat) : n.toUInt8 = byte := by
  rw [same]
  exact UInt8.ofNat_toNat

theorem a2bBase64_b64encode (bytes : Bytes) : a2bBase64 0 0 0 (b64encode bytes) = some bytes := by
  have bound (byte : UInt8) : byte.toNat < 256 := byte.toNat_lt
  fun_induction b64encode bytes with
  | case1 a b c rest ih =>
    have := bound a
    have := bound b
    have := bound c
    simp (disch := omega) only [a2bBase64_digit, ih, Option.map_some, Option.some.injEq, List.cons.injEq, and_true]
    exact ⟨toUInt8_of_eq (by omega), toUInt8_of_eq (by omega), toUInt8_of_eq (by omega)⟩
  | case2 a b =>
    have := bound a
    have := bound b
    simp (disch := omega) only [a2bBase64_digit, a2bBase64_onePad, Option.map_some, Option.some.injEq,
      List.cons.injEq, and_true]
    exact ⟨toUInt8_of_eq (by omega), toUInt8_of_eq (by omega)⟩
  | case3 a =>
    have := bound a
    simp (disch := omega) only [a2bBase64_digit, a2bBase64_twoPads, Option.map_some, Option.some.injEq,
      List.cons.injEq, and_true]
    exact toUInt8_of_eq (by omega)
  | case4 => rfl

theorem b64encode_ascii (bytes : Bytes) : IsAscii (b64encode bytes) := by
  have bound (byte : UInt8) : byte.toNat < 256 := byte.toNat_lt
  fun_induction b64encode bytes with
  | case1 a b c rest ih =>
    have := bound a
    have := bound b
    have := bound c
    simp only [IsAscii, List.forall_mem_cons]
    exact ⟨(encodeDigit_range (by omega)).1, (encodeDigit_range (by omega)).1, (encodeDigit_range (by omega)).1,
      (encodeDigit_range (by omega)).1, ih⟩
  | case2 a b =>
    have := bound a
    have := bound b
    simp only [IsAscii, List.forall_mem_cons]
    exact ⟨(encodeDigit_range (by omega)).1, (encodeDigit_range (by omega)).1, (encodeDigit_range (by omega)).1,
      by omega, by simp⟩
  | case3 a =>
    have := bound a
    simp only [IsAscii, List.forall_mem_cons]
    exact ⟨(encodeDigit_range (by omega)).1, (encodeDigit_range (by omega)).1, by omega, by omega, by simp⟩
  | case4 => simp [IsAscii]

theorem b64decode_b64encode (bytes : Bytes) : b64decode (b64encode bytes) = some bytes := by
  rw [b64decode, if_pos, a2bBase64_b64encode]
  rw [List.all_eq_true]
  exact fun c member => decide_eq_true (b64encode_ascii bytes c member)

theorem b64encode_ne_nil {bytes : Bytes} (nonempty : bytes ≠ []) : b64encode bytes ≠ [] := by
  fun_cases b64encode bytes <;> simp_all

/-! ## Query values

Only the two last digits of the alphabet are signs. In a text of ASCII
characters they can stand for the low six bits of a third byte, and for nothing
else.
-/

theorem encodeDigit_survives {value : Nat} (small : value < 62) : SurvivesQuery (encodeDigit value) := by
  unfold encodeDigit SurvivesQuery
  split_ifs <;> omega

/-- ASCII bytes whose low six bits are no sign of the alphabet. -/
def IsLettered (bytes : Bytes) : Prop := ∀ byte ∈ bytes, byte.toNat < 0x80 ∧ byte.toNat % 64 < 62

theorem b64encode_survives {bytes : Bytes} (lettered : IsLettered bytes) :
    ∀ c ∈ b64encode bytes, SurvivesQuery c := by
  have pad : SurvivesQuery 61 := by decide
  fun_induction b64encode bytes with
  | case1 a b c rest ih =>
    simp only [IsLettered, List.forall_mem_cons] at lettered ⊢
    obtain ⟨first, second, third, others⟩ := lettered
    exact ⟨encodeDigit_survives (by omega), encodeDigit_survives (by omega), encodeDigit_survives (by omega),
      encodeDigit_survives third.2, ih others⟩
  | case2 a b =>
    simp only [IsLettered, List.forall_mem_cons] at lettered ⊢
    obtain ⟨first, second, -⟩ := lettered
    exact ⟨encodeDigit_survives (by omega), encodeDigit_survives (by omega), encodeDigit_survives (by omega), pad,
      by simp⟩
  | case3 a =>
    simp only [IsLettered, List.forall_mem_cons] at lettered ⊢
    exact ⟨encodeDigit_survives (by omega), encodeDigit_survives (by omega), pad, pad, by simp⟩
  | case4 => simp

end Base64
