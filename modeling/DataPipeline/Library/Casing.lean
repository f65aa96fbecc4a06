import Mathlib.Data.List.Basic
import Mathlib.Tactic.Common

/-! Lower case for all characters, as Unicode 16 maps them.

Two capitals do not go to one small letter: the dotted I goes to two code
points, and a sigma at the end of a word has a form of its own. Where a word
ends is a matter of the characters around it, which is left open here.
-/

set_option autoImplicit false

namespace Casing

/-- First, last and step of a range of capitals, and the small letter of the first. -/
def capitals : List (Nat × Nat × Nat × Nat) := [
  (0x41, 0x5A, 1, 0x61), (0xC0, 0xD6, 1, 0xE0), (0xD8, 0xDE, 1, 0xF8), (0x100, 0x12E, 2, 0x101),
  (0x132, 0x136, 2, 0x133), (0x139, 0x147, 2, 0x13A), (0x14A, 0x176, 2, 0x14B), (0x178, 0x178, 1, 0xFF),
  (0x179, 0x17D, 2, 0x17A), (0x181, 0x181, 1, 0x253), (0x182, 0x184, 2, 0x183), (0x186, 0x186, 1, 0x254),
  (0x187, 0x187, 1, 0x188), (0x189, 0x18A, 1, 0x256), (0x18B, 0x18B, 1, 0x18C), (0x18E, 0x18E, 1, 0x1DD),
  (0x18F, 0x18F, 1, 0x259), (0x190, 0x190, 1, 0x25B), (0x191, 0x191, 1, 0x192), (0x193, 0x193, 1, 0x260),
  (0x194, 0x194, 1, 0x263), (0x196, 0x196, 1, 0x269), (0x197, 0x197, 1, 0x268), (0x198, 0x198, 1, 0x199),
  (0x19C, 0x19C, 1, 0x26F), (0x19D, 0x19D, 1, 0x272), (0x19F, 0x19F, 1, 0x275), (0x1A0, 0x1A4, 2, 0x1A1),
  (0x1A6, 0x1A6, 1, 0x280), (0x1A7, 0x1A7, 1, 0x1A8), (0x1A9, 0x1A9, 1, 0x283), (0x1AC, 0x1AC, 1, 0x1AD),
  (0x1AE, 0x1AE, 1, 0x288), (0x1AF, 0x1AF, 1, 0x1B0), (0x1B1, 0x1B2, 1, 0x28A), (0x1B3, 0x1B5, 2, 0x1B4),
  (0x1B7, 0x1B7, 1, 0x292), (0x1B8, 0x1B8, 1, 0x1B9), (0x1BC, 0x1BC, 1, 0x1BD), (0x1C4, 0x1C4, 1, 0x1C6),
  (0x1C5, 0x1C5, 1, 0x1C6), (0x1C7, 0x1C7, 1, 0x1C9), (0x1C8, 0x1C8, 1, 0x1C9), (0x1CA, 0x1CA, 1, 0x1CC),
  (0x1CB, 0x1DB, 2, 0x1CC), (0x1DE, 0x1EE, 2, 0x1DF), (0x1F1, 0x1F1, 1, 0x1F3), (0x1F2, 0x1F4, 2, 0x1F3),
  (0x1F6, 0x1F6, 1, 0x195), (0x1F7, 0x1F7, 1, 0x1BF), (0x1F8, 0x21E, 2, 0x1F9), (0x220, 0x220, 1, 0x19E),
  (0x222, 0x232, 2, 0x223), (0x23A, 0x23A, 1, 0x2C65), (0x23B, 0x23B, 1, 0x23C), (0x23D, 0x23D, 1, 0x19A),
  (0x23E, 0x23E, 1, 0x2C66), (0x241, 0x241, 1, 0x242), (0x243, 0x243, 1, 0x180), (0x244, 0x244, 1, 0x289),
  (0x245, 0x245, 1, 0x28C), (0x246, 0x24E, 2, 0x247), (0x370, 0x372, 2, 0x371), (0x376, 0x376, 1, 0x377),
  (0x37F, 0x37F, 1, 0x3F3), (0x386, 0x386, 1, 0x3AC), (0x388, 0x38A, 1, 0x3AD), (0x38C, 0x38C, 1, 0x3CC),
  (0x38E, 0x38F, 1, 0x3CD), (0x391, 0x3A1, 1, 0x3B1), (0x3A3, 0x3AB, 1, 0x3C3), (0x3CF, 0x3CF, 1, 0x3D7),
  (0x3D8, 0x3EE, 2, 0x3D9), (0x3F4, 0x3F4, 1, 0x3B8), (0x3F7, 0x3F7, 1, 0x3F8), (0x3F9, 0x3F9, 1, 0x3F2),
  (0x3FA, 0x3FA, 1, 0x3FB), (0x3FD, 0x3FF, 1, 0x37B), (0x400, 0x40F, 1, 0x450), (0x410, 0x42F, 1, 0x430),
  (0x460, 0x480, 2, 0x461), (0x48A, 0x4BE, 2, 0x48B), (0x4C0, 0x4C0, 1, 0x4CF), (0x4C1, 0x4CD, 2, 0x4C2),
  (0x4D0, 0x52E, 2, 0x4D1), (0x531, 0x556, 1, 0x561), (0x10A0, 0x10C5, 1, 0x2D00), (0x10C7, 0x10C7, 1, 0x2D27),
  (0x10CD, 0x10CD, 1, 0x2D2D), (0x13A0, 0x13EF, 1, 0xAB70), (0x13F0, 0x13F5, 1, 0x13F8),
  (0x1C89, 0x1C89, 1, 0x1C8A), (0x1C90, 0x1CBA, 1, 0x10D0), (0x1CBD, 0x1CBF, 1, 0x10FD),
  (0x1E00, 0x1E94, 2, 0x1E01), (0x1E9E, 0x1E9E, 1, 0xDF), (0x1EA0, 0x1EFE, 2, 0x1EA1),
  (0x1F08, 0x1F0F, 1, 0x1F00), (0x1F18, 0x1F1D, 1, 0x1F10), (0x1F28, 0x1F2F, 1, 0x1F20),
  (0x1F38, 0x1F3F, 1, 0x1F30), (0x1F48, 0x1F4D, 1, 0x1F40), (0x1F59, 0x1F5F, 2, 0x1F51),
  (0x1F68, 0x1F6F, 1, 0x1F60), (0x1F88, 0x1F8F, 1, 0x1F80), (0x1F98, 0x1F9F, 1, 0x1F90),
  (0x1FA8, 0x1FAF, 1, 0x1FA0), (0x1FB8, 0x1FB9, 1, 0x1FB0), (0x1FBA, 0x1FBB, 1, 0x1F70),
  (0x1FBC, 0x1FBC, 1, 0x1FB3), (0x1FC8, 0x1FCB, 1, 0x1F72), (0x1FCC, 0x1FCC, 1, 0x1FC3),
  (0x1FD8, 0x1FD9, 1, 0x1FD0), (0x1FDA, 0x1FDB, 1, 0x1F76), (0x1FE8, 0x1FE9, 1, 0x1FE0),
  (0x1FEA, 0x1FEB, 1, 0x1F7A), (0x1FEC, 0x1FEC, 1, 0x1FE5), (0x1FF8, 0x1FF9, 1, 0x1F78),
  (0x1FFA, 0x1FFB, 1, 0x1F7C), (0x1FFC, 0x1FFC, 1, 0x1FF3), (0x2126, 0x2126, 1, 0x3C9),
  (0x212A, 0x212A, 1, 0x6B), (0x212B, 0x212B, 1, 0xE5), (0x2132, 0x2132, 1, 0x214E),
  (0x2160, 0x216F, 1, 0x2170), (0x2183, 0x2183, 1, 0x2184), (0x24B6, 0x24CF, 1, 0x24D0),
  (0x2C00, 0x2C2F, 1, 0x2C30), (0x2C60, 0x2C60, 1, 0x2C61), (0x2C62, 0x2C62, 1, 0x26B),
  (0x2C63, 0x2C63, 1, 0x1D7D), (0x2C64, 0x2C64, 1, 0x27D), (0x2C67, 0x2C6B, 2, 0x2C68),
  (0x2C6D, 0x2C6D, 1, 0x251), (0x2C6E, 0x2C6E, 1, 0x271), (0x2C6F, 0x2C6F, 1, 0x250),
  (0x2C70, 0x2C70, 1, 0x252), (0x2C72, 0x2C72, 1, 0x2C73), (0x2C75, 0x2C75, 1, 0x2C76),
  (0x2C7E, 0x2C7F, 1, 0x23F), (0x2C80, 0x2CE2, 2, 0x2C81), (0x2CEB, 0x2CED, 2, 0x2CEC),
  (0x2CF2, 0x2CF2, 1, 0x2CF3), (0xA640, 0xA66C, 2, 0xA641), (0xA680, 0xA69A, 2, 0xA681),
  (0xA722, 0xA72E, 2, 0xA723), (0xA732, 0xA76E, 2, 0xA733), (0xA779, 0xA77B, 2, 0xA77A),
  (0xA77D, 0xA77D, 1, 0x1D79), (0xA77E, 0xA786, 2, 0xA77F), (0xA78B, 0xA78B, 1, 0xA78C),
  (0xA78D, 0xA78D, 1, 0x265), (0xA790, 0xA792, 2, 0xA791), (0xA796, 0xA7A8, 2, 0xA797),
  (0xA7AA, 0xA7AA, 1, 0x266), (0xA7AB, 0xA7AB, 1, 0x25C), (0xA7AC, 0xA7AC, 1, 0x261),
  (0xA7AD, 0xA7AD, 1, 0x26C), (0xA7AE, 0xA7AE, 1, 0x26A), (0xA7B0, 0xA7B0, 1, 0x29E),
  (0xA7B1, 0xA7B1, 1, 0x287), (0xA7B2, 0xA7B2, 1, 0x29D), (0xA7B3, 0xA7B3, 1, 0xAB53),
  (0xA7B4, 0xA7C2, 2, 0xA7B5), (0xA7C4, 0xA7C4, 1, 0xA794), (0xA7C5, 0xA7C5, 1, 0x282),
  (0xA7C6, 0xA7C6, 1, 0x1D8E), (0xA7C7, 0xA7C9, 2, 0xA7C8), (0xA7CB, 0xA7CB, 1, 0x264),
  (0xA7CC, 0xA7CC, 1, 0xA7CD), (0xA7D0, 0xA7D0, 1, 0xA7D1), (0xA7D6, 0xA7DA, 2, 0xA7D7),
  (0xA7DC, 0xA7DC, 1, 0x19B), (0xA7F5, 0xA7F5, 1, 0xA7F6), (0xFF21, 0xFF3A, 1, 0xFF41),
  (0x10400, 0x10427, 1, 0x10428), (0x104B0, 0x104D3, 1, 0x104D8), (0x10570, 0x1057A, 1, 0x10597),
  (0x1057C, 0x1058A, 1, 0x105A3), (0x1058C, 0x10592, 1, 0x105B3), (0x10594, 0x10595, 1, 0x105BB),
  (0x10C80, 0x10CB2, 1, 0x10CC0), (0x10D50, 0x10D65, 1, 0x10D70), (0x118A0, 0x118BF, 1, 0x118C0),
  (0x16E40, 0x16E5F, 1, 0x16E60), (0x1E900, 0x1E921, 1, 0x1E922)]

def inRange (code : Nat) (range : Nat × Nat × Nat × Nat) : Bool :=
  range.1.ble code && code.ble range.2.1 && ((code - range.1) % range.2.2.1).beq 0

/-- The small letter of a capital, and any other code point itself. -/
def lowerCode (code : Nat) : Nat :=
  match capitals.find? (inRange code) with
  | some (first, _, _, small) => small + (code - first)
  | none => code

def dottedI : Char := Char.ofNat 0x130

def sigma : Char := Char.ofNat 0x3A3

def lowerChar (c : Char) : List Char :=
  if c = dottedI then ['i', Char.ofNat 0x307] else [Char.ofNat (lowerCode c.toNat)]

/-- Lower case of what comes after the characters before it; `isFinal` tells
whether a capital sigma between the two ends a word. -/
def lowerAfter (isFinal : List Char → List Char → Bool) (before : List Char) : List Char → List Char
  | [] => []
  | c :: rest =>
    (if c = sigma then [Char.ofNat (if isFinal before rest then 0x3C2 else 0x3C3)] else lowerChar c) ++
      lowerAfter isFinal (before ++ [c]) rest

def lower (isFinal : List Char → List Char → Bool) (text : String) : String :=
  String.ofList (lowerAfter isFinal [] text.toList)

/-! ## Lower case stays lower case -/

/-- Two ranges of codes have none in common: one ends before the other starts,
or both take every second code and are at odds. -/
def apart (first last step otherFirst otherLast otherStep : Nat) : Bool :=
  last.blt otherFirst || otherLast.blt first ||
    ((step.beq 2 || first.beq last) && (otherStep.beq 2 || otherFirst.beq otherLast) &&
      !(first % 2).beq (otherFirst % 2))

theorem capitals_apart : capitals.all (fun (first, last, step, small) =>
    capitals.all fun (otherFirst, otherLast, otherStep, _) =>
      apart small (small + (last - first)) step otherFirst otherLast otherStep) = true := by
  decide +kernel

theorem inRange_iff {code first last step small : Nat} :
    inRange code (first, last, step, small) = true ↔ first ≤ code ∧ code ≤ last ∧ (code - first) % step = 0 := by
  simp only [inRange, Bool.and_eq_true, Nat.ble_eq, Nat.beq_eq, and_assoc]

theorem not_inRange_of_apart {code first last step otherFirst otherLast otherStep : Nat} (otherSmall : Nat)
    (separate : apart first last step otherFirst otherLast otherStep = true) (lower : first ≤ code)
    (upper : code ≤ last) (member : (code - first) % step = 0) :
    inRange code (otherFirst, otherLast, otherStep, otherSmall) = false := by
  rw [Bool.eq_false_iff, ne_eq, inRange_iff]
  rintro ⟨otherLower, otherUpper, otherMember⟩
  simp only [apart, Bool.or_eq_true, Bool.and_eq_true, Nat.blt_eq, Nat.beq_eq, Bool.not_eq_true', ← Bool.not_eq_true]
    at separate
  rcases separate with (below | above) | ⟨⟨parity, otherParity⟩, odds⟩
  · omega
  · omega
  -- The codes of either range are all even or all odd.
  · have same : code % 2 = first % 2 := by
      rcases parity with rfl | rfl <;> omega
    have otherSame : code % 2 = otherFirst % 2 := by
      rcases otherParity with rfl | rfl <;> omega
    exact odds (same.symm.trans otherSame)

theorem lowerCode_cases (code : Nat) :
    (capitals.find? (inRange code) = none ∧ lowerCode code = code) ∨
    ∃ first last step small, (first, last, step, small) ∈ capitals ∧ first ≤ code ∧ code ≤ last ∧
      (code - first) % step = 0 ∧ lowerCode code = small + (code - first) := by
  unfold lowerCode
  cases found : capitals.find? (inRange code) with
  | none => exact .inl ⟨rfl, rfl⟩
  | some range =>
    obtain ⟨first, last, step, small⟩ := range
    obtain ⟨lower, upper, member⟩ := inRange_iff.mp (List.find?_some found)
    exact .inr ⟨first, last, step, small, List.mem_of_find?_eq_some found, lower, upper, member, rfl⟩

theorem lowerCode_lowerCode (code : Nat) : lowerCode (lowerCode code) = lowerCode code := by
  rcases lowerCode_cases code with ⟨-, same⟩ | ⟨first, last, step, small, isRange, lower, upper, member, image⟩
  · rw [same, same]
  · have missing : capitals.find? (inRange (lowerCode code)) = none := by
      rw [List.find?_eq_none]
      rintro ⟨otherFirst, otherLast, otherStep, otherSmall⟩ isOther
      have separate : apart small (small + (last - first)) step otherFirst otherLast otherStep = true :=
        List.all_eq_true.mp (List.all_eq_true.mp capitals_apart _ isRange) _ isOther
      rw [image, not_inRange_of_apart otherSmall separate (by omega) (by omega)
        (by rwa [Nat.add_sub_cancel_left])]
      exact Bool.false_ne_true
    rw [lowerCode, missing]

theorem small_valid : capitals.all (fun (first, last, _, small) =>
    (small + (last - first) < 0xD800 || 0xE000 ≤ small && small + (last - first) < 0x110000) &&
      (small + (last - first) < 0x130 || 0x130 < small)) = true := by
  decide +kernel

theorem lowerCode_valid {code : Nat} (valid : code.isValidChar) (other : code ≠ 0x130) :
    (lowerCode code).isValidChar ∧ lowerCode code ≠ 0x130 := by
  rcases lowerCode_cases code with ⟨-, same⟩ | ⟨first, last, step, small, isRange, lower, upper, -, image⟩
  · rw [same]
    exact ⟨valid, other⟩
  · have bounds := List.all_eq_true.mp small_valid _ isRange
    simp only [Bool.and_eq_true, Bool.or_eq_true, decide_eq_true_eq] at bounds
    rw [image, Nat.isValidChar]
    omega

/-- A character that lower case leaves alone, wherever it stands. -/
def Stable (c : Char) : Prop := c ≠ sigma ∧ lowerChar c = [c]

instance (c : Char) : Decidable (Stable c) := inferInstanceAs (Decidable (_ ∧ _))

theorem lowerChar_of_ne {c : Char} (other : c ≠ dottedI) :
    ∃ small : Char, lowerChar c = [small] ∧ small.toNat = lowerCode c.toNat ∧ small ≠ dottedI := by
  have notDotted : c.toNat ≠ 0x130 := by
    intro same
    exact other (by rw [← Char.ofNat_toNat c, same]; rfl)
  obtain ⟨valid, notI⟩ := lowerCode_valid c.valid notDotted
  have code : (Char.ofNat (lowerCode c.toNat)).toNat = lowerCode c.toNat := by
    rw [Char.ofNat, dif_pos (show (lowerCode c.toNat).isValidChar from valid)]
    rfl
  refine ⟨_, if_neg other, code, fun same => notI ?_⟩
  rw [same] at code
  exact code.symm

theorem stable_of_mem_lowerChar {c d : Char} (member : d ∈ lowerChar c) : Stable d := by
  by_cases dotted : c = dottedI
  · rw [lowerChar, if_pos dotted] at member
    rcases List.mem_pair.mp member with rfl | rfl
    · decide +kernel
    · decide +kernel
  · obtain ⟨small, lowered, code, notDotted⟩ := lowerChar_of_ne dotted
    rw [lowered, List.mem_singleton] at member
    subst member
    have fixed : lowerCode d.toNat = d.toNat := by rw [code, lowerCode_lowerCode]
    refine ⟨?_, ?_⟩
    -- A capital sigma would have a small letter.
    · rintro rfl
      exact absurd fixed (by decide +kernel)
    · rw [lowerChar, if_neg notDotted, fixed, Char.ofNat_toNat]

variable {isFinal : List Char → List Char → Bool}

theorem stable_lowerAfter (before text : List Char) : ∀ c ∈ lowerAfter isFinal before text, Stable c := by
  induction text generalizing before with
  | nil => simp [lowerAfter]
  | cons first rest ih =>
    intro c member
    rw [lowerAfter, List.mem_append] at member
    rcases member with head | tail
    · split at head
      -- Either small sigma is as small as it gets.
      · rw [List.mem_singleton] at head
        subst head
        split <;> decide +kernel
      · exact stable_of_mem_lowerChar head
    · exact ih _ c tail

theorem lowerAfter_of_stable (before : List Char) {text : List Char} (stable : ∀ c ∈ text, Stable c) :
    lowerAfter isFinal before text = text := by
  induction text generalizing before with
  | nil => rfl
  | cons first rest ih =>
    obtain ⟨other, same⟩ := stable first List.mem_cons_self
    rw [lowerAfter, if_neg other, same, ih _ fun c member => stable c (List.mem_cons_of_mem _ member)]
    rfl

theorem lower_lower (text : String) : lower isFinal (lower isFinal text) = lower isFinal text := by
  unfold lower
  rw [String.toList_ofList, lowerAfter_of_stable [] (stable_lowerAfter [] text.toList)]

/-! ## Texts in ASCII -/

/-- No capital beyond ASCII has one of these ASCII characters for a small letter. -/
def FromAscii (targets : List Nat) : Bool :=
  targets.all (· < 0x80) && capitals.all fun (first, last, step, small) =>
    targets.all fun target => last < 0x80 || target < small || small + (last - first) < target ||
      (target - small) % step ≠ 0

theorem lowerChar_ascii {c : Char} (ascii : c.toNat < 0x80) : lowerChar c = [c.toLower] := by
  have all : ∀ code < 0x80, lowerChar (Char.ofNat code) = [(Char.ofNat code).toLower] := by decide +kernel
  have own := all c.toNat ascii
  rwa [Char.ofNat_toNat] at own

theorem toLower_of_not_ascii {c : Char} (beyond : ¬ c.toNat < 0x80) : c.toLower = c := by
  unfold Char.toLower
  rw [dif_neg]
  rintro ⟨-, upper⟩
  have upper : c.toNat ≤ 0x5A := upper
  omega

/-- What becomes ASCII by lower case has been ASCII before. -/
theorem ascii_of_targets {targets : List Nat} (from_ascii : FromAscii targets = true) {c : Char}
    (inside : ∀ d ∈ lowerChar c, d.toNat ∈ targets) : c.toNat < 0x80 := by
  simp only [FromAscii, Bool.and_eq_true] at from_ascii
  obtain ⟨ascii, capitals_from⟩ := from_ascii
  by_cases dotted : c = dottedI
  · rw [lowerChar, if_pos dotted] at inside
    have dot := List.all_eq_true.mp ascii _ (inside (Char.ofNat 0x307) (by simp))
    exact absurd dot (by decide +kernel)
  · obtain ⟨small, lowered, code, -⟩ := lowerChar_of_ne dotted
    rw [lowered] at inside
    have target := inside small List.mem_cons_self
    rw [code] at target
    rcases lowerCode_cases c.toNat with ⟨-, same⟩ | ⟨first, last, step, small, isRange, lower, upper, member, image⟩
    · rw [same] at target
      exact of_decide_eq_true (List.all_eq_true.mp ascii _ target)
    · have range := List.all_eq_true.mp (List.all_eq_true.mp capitals_from _ isRange) _ target
      simp only [Bool.or_eq_true, decide_eq_true_eq, image, Nat.add_sub_cancel_left, member, ne_eq, not_true,
        or_false] at range
      omega

theorem lowerAfter_eq_iff {targets : List Nat} (from_ascii : FromAscii targets = true) (before : List Char)
    {text result : List Char} (inside : ∀ d ∈ result, d.toNat ∈ targets) :
    lowerAfter isFinal before text = result ↔ text.map Char.toLower = result := by
  have small : ∀ d ∈ result, d.toNat < 0x80 := by
    intro d member
    have ascii := ((Bool.and_eq_true _ _).mp from_ascii).1
    exact of_decide_eq_true (List.all_eq_true.mp ascii _ (inside d member))
  induction text generalizing before result with
  | nil => exact Iff.rfl
  | cons c rest ih =>
    rw [lowerAfter, List.map_cons]
    by_cases ascii : c.toNat < 0x80
    · have notSigma : c ≠ sigma := by
        rintro rfl
        exact absurd ascii (by decide +kernel)
      rw [if_neg notSigma, lowerChar_ascii ascii, List.singleton_append]
      cases result with
      | nil => simp
      | cons d result =>
        rw [List.cons.injEq, List.cons.injEq]
        apply and_congr_right
        intro _
        exact ih _ (fun d member => inside d (List.mem_cons_of_mem _ member))
          fun d member => small d (List.mem_cons_of_mem _ member)
    -- Nothing else leads to such a text, by either way.
    · apply iff_of_false
      · rintro rfl
        by_cases isSigma : c = sigma
        · rw [if_pos isSigma] at small
          have first := small _ (List.mem_append_left _ List.mem_cons_self)
          split at first <;> exact absurd first (by decide +kernel)
        · rw [if_neg isSigma] at inside
          exact ascii (ascii_of_targets from_ascii fun d member => inside d (List.mem_append_left _ member))
      · intro same
        rw [toLower_of_not_ascii ascii] at same
        exact ascii (small c (by rw [← same]; exact List.mem_cons_self))

end Casing
