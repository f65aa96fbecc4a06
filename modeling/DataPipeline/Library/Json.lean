import DataPipeline.Library.Text
import Mathlib.Data.Rat.Defs
import Mathlib.Algebra.Order.Field.Rat

/-! JSON values, their equality as a dynamic language compares them, and a
scanner for their texts.

The scanner is that of CPython: it accepts NaN and the infinities, pairs the
surrogates that escapes spell out, refuses integers of more than 4300 digits,
and gives up on containers nested deeper than the stack allows.
-/

set_option autoImplicit false

/-! ## Floating-point numbers -/

/-- A binary64 number; a zero has a sign. -/
inductive Double where
  | finite (negative : Bool) (magnitude : ℚ)
  | infinity (negative : Bool)
  | nan
  deriving DecidableEq

namespace Double

def roundHalfEven (numerator denominator : Nat) : Nat :=
  let quotient := numerator / denominator
  let twice := 2 * (numerator % denominator)
  if twice < denominator then quotient
  else if denominator < twice then quotient + 1
  else if quotient % 2 = 0 then quotient else quotient + 1

/-- The nearest binary64 number to a positive fraction, ties going to the even one. -/
def ofFraction (negative : Bool) (numerator denominator : Nat) : Double :=
  let scaled := fun exponent : Int =>
    (numerator * 2 ^ (-exponent).toNat, denominator * 2 ^ exponent.toNat)
  let guess : Int := numerator.log2 - denominator.log2 - 52
  let (top, bottom) := scaled guess
  -- The guess leaves 52 or 53 bits before the point.
  let exponent := max (if top < 2 ^ 52 * bottom then guess - 1 else guess) (-1074)
  let (top, bottom) := scaled exponent
  let significand := roundHalfEven top bottom
  if 2 ^ 1024 ≤ significand * 2 ^ exponent.toNat then .infinity negative
  else .finite negative (significand * 2 ^ exponent.toNat / 2 ^ (-exponent).toNat)

/-- The number that the decimal `digits · 10 ^ exponent` is read as. -/
def ofDecimal (negative : Bool) (digits : Nat) (exponent : Int) : Double :=
  let size : Int := (Nat.digits 10 digits).length
  if digits = 0 ∨ size + exponent < -400 then .finite negative 0
  else if 400 < size + exponent then .infinity negative
  else ofFraction negative (digits * 10 ^ exponent.toNat) (10 ^ (-exponent).toNat)

end Double

/-! ## Values -/

inductive Json where
  | null
  | bool (value : Bool)
  | int (value : Int)
  | float (value : Double)
  | str (value : Encoding.Text)
  | list (items : List Json)
  | dict (entries : List (Encoding.Text × Json))

namespace Json

open Encoding

mutual

def decEq : (first second : Json) → Decidable (first = second)
  | .null, .null => isTrue rfl
  | .bool a, .bool b => decidable_of_iff (a = b) (by simp)
  | .int a, .int b => decidable_of_iff (a = b) (by simp)
  | .float a, .float b => decidable_of_iff (a = b) (by simp)
  | .str a, .str b => decidable_of_iff (a = b) (by simp)
  | .list a, .list b => @decidable_of_iff _ (a = b) (by simp) (decEqItems a b)
  | .dict a, .dict b => @decidable_of_iff _ (a = b) (by simp) (decEqEntries a b)
  | .null, .bool _ | .null, .int _ | .null, .float _ | .null, .str _ | .null, .list _ | .null, .dict _
  | .bool _, .null | .bool _, .int _ | .bool _, .float _ | .bool _, .str _ | .bool _, .list _
  | .bool _, .dict _
  | .int _, .null | .int _, .bool _ | .int _, .float _ | .int _, .str _ | .int _, .list _ | .int _, .dict _
  | .float _, .null | .float _, .bool _ | .float _, .int _ | .float _, .str _ | .float _, .list _
  | .float _, .dict _
  | .str _, .null | .str _, .bool _ | .str _, .int _ | .str _, .float _ | .str _, .list _ | .str _, .dict _
  | .list _, .null | .list _, .bool _ | .list _, .int _ | .list _, .float _ | .list _, .str _
  | .list _, .dict _
  | .dict _, .null | .dict _, .bool _ | .dict _, .int _ | .dict _, .float _ | .dict _, .str _
  | .dict _, .list _ => isFalse (by simp)

def decEqItems : (first second : List Json) → Decidable (first = second)
  | [], [] => isTrue rfl
  | a :: first, b :: second =>
    @decidable_of_iff _ (a = b ∧ first = second) (by simp)
      (@instDecidableAnd _ _ (decEq a b) (decEqItems first second))
  | [], _ :: _ | _ :: _, [] => isFalse (by simp)

def decEqEntries : (first second : List (Text × Json)) → Decidable (first = second)
  | [], [] => isTrue rfl
  | (k, a) :: first, (l, b) :: second =>
    @decidable_of_iff _ (k = l ∧ a = b ∧ first = second) (by simp [and_assoc])
      (@instDecidableAnd _ _ _ (@instDecidableAnd _ _ (decEq a b) (decEqEntries first second)))
  | [], _ :: _ | _ :: _, [] => isFalse (by simp)

end

instance : DecidableEq Json := decEq

/-- The number a value compares as: a boolean counts as 0 or 1. -/
def number : Json → Option Double
  | .bool value => some (.finite false (if value then 1 else 0))
  | .int value => some (.finite (value < 0) value.natAbs)
  | .float (.finite negative magnitude) => some (.finite (negative && magnitude ≠ 0) magnitude)
  | .float other => some other
  | _ => none

mutual

/-- There is no NaN and no infinity in the value, as in every JSON text proper. -/
def isFinite : Json → Bool
  | .float (.finite _ _) => true
  | .float _ => false
  | .list items => isFiniteItems items
  | .dict entries => isFiniteEntries entries
  | _ => true

def isFiniteItems : List Json → Bool
  | [] => true
  | item :: rest => isFinite item && isFiniteItems rest

def isFiniteEntries : List (Text × Json) → Bool
  | [] => true
  | (_, value) :: rest => isFinite value && isFiniteEntries rest

end

mutual

/-- All leaves of the value pass a test, and all keys of its objects another. -/
def every (leaf : Json → Bool) (key : Text → Bool) : Json → Bool
  | .list items => everyItem leaf key items
  | .dict entries => everyEntry leaf key entries
  | value => leaf value

def everyItem (leaf : Json → Bool) (key : Text → Bool) : List Json → Bool
  | [] => true
  | item :: rest => every leaf key item && everyItem leaf key rest

def everyEntry (leaf : Json → Bool) (key : Text → Bool) : List (Text × Json) → Bool
  | [] => true
  | (name, value) :: rest => key name && every leaf key value && everyEntry leaf key rest

end

/-- `str` converts integers of up to 4300 digits. -/
def isShortInt : Json → Bool
  | .int value => (decimal value.natAbs).length ≤ 4300
  | _ => true

/-- A text that is not escaped must have an encoding. -/
def isEncodable : Json → Bool
  | .str value => (encodeUtf8 value).isSome
  | _ => true

mutual

/-- Equality of values: numbers of different types may be equal, and objects do
not depend on the order of their keys. The scanner gives out a single NaN
object, which containers take to be equal to itself. -/
def pyEq : Json → Json → Bool
  | .null, other => other = .null
  | .str a, other => other = .str a
  | .list a, .list b => pyEqItems a b
  | .dict a, .dict b => a.length = b.length && pyEqEntries a b
  | .bool a, other => (number (.bool a)) = number other
  | .int a, other => (number (.int a)) = number other
  | .float a, other => (number (.float a)) = number other
  | .list _, _ => false
  | .dict _, _ => false

def pyEqItems : List Json → List Json → Bool
  | [], [] => true
  | a :: first, b :: second => pyEq a b && pyEqItems first second
  | _, _ => false

def pyEqEntries : List (Text × Json) → List (Text × Json) → Bool
  | [], _ => true
  | (key, a) :: rest, other =>
    (match other.lookup key with
      | some b => pyEq a b
      | none => false) && pyEqEntries rest other

end

mutual

def nesting : Json → Nat
  | .list items => nestingItems items + 1
  | .dict entries => nestingEntries entries + 1
  | _ => 0

def nestingItems : List Json → Nat
  | [] => 0
  | item :: rest => max (nesting item) (nestingItems rest)

def nestingEntries : List (Text × Json) → Nat
  | [] => 0
  | (_, value) :: rest => max (nesting value) (nestingEntries rest)

end

/-- The truth value of a value: empty containers and zeros are false. -/
def truthy : Json → Bool
  | .null => false
  | .bool value => value
  | .int value => value ≠ 0
  | .float (.finite _ magnitude) => magnitude ≠ 0
  | .float _ => true
  | .str value => value ≠ []
  | .list items => !items.isEmpty
  | .dict entries => !entries.isEmpty

def get (entries : List (Text × Json)) (key : String) : Option Json := entries.lookup (Text.ofString key)

/-- Assigns an entry, which keeps its place if it is there already. -/
def assign (entries : List (Text × Json)) (key : Text) (value : Json) : List (Text × Json) :=
  if (entries.lookup key).isSome then
    entries.map fun entry => if entry.1 = key then (key, value) else entry
  else entries ++ [(key, value)]

/-! ## Scanning -/

/-- A `ValueError` of some kind, or the stack is exhausted. -/
inductive Failure where
  | value
  | recursion
  deriving DecidableEq, Repr

def isSpace (c : Nat) : Bool := c = 32 || c = 9 || c = 10 || c = 13

def skipSpace (text : Text) : Text := text.dropWhile isSpace

def hexDigit (c : Nat) : Option Nat :=
  if 48 ≤ c ∧ c ≤ 57 then some (c - 48)
  else if 97 ≤ c ∧ c ≤ 102 then some (c - 87)
  else if 65 ≤ c ∧ c ≤ 70 then some (c - 55)
  else none

def hex4 (a b c d : Nat) : Option Nat := do
  return (((← hexDigit a) * 16 + (← hexDigit b)) * 16 + (← hexDigit c)) * 16 + (← hexDigit d)

def simpleEscape : Nat → Option Nat
  | 34 => some 34
  | 92 => some 92
  | 47 => some 47
  | 98 => some 8
  | 102 => some 12
  | 110 => some 10
  | 114 => some 13
  | 116 => some 9
  | _ => none

def isHighSurrogate (c : Nat) : Bool := 0xD800 ≤ c && c < 0xDC00

def isLowSurrogate (c : Nat) : Bool := 0xDC00 ≤ c && c < 0xE000

/-- The rest of a string after its opening quote, and what follows its closing one. -/
def scanString : Text → Except Failure (Text × Text)
  | [] => .error .value
  | 34 :: rest => .ok ([], rest)
  | 92 :: 117 :: a :: b :: c :: d :: rest =>
    match hex4 a b c d with
    | none => .error .value
    | some code =>
      -- Only an escape that follows at once can be the other half of a pair.
      match rest with
      | 92 :: 117 :: e :: f :: g :: h :: after =>
        if isHighSurrogate code then
          match hex4 e f g h with
          -- A broken escape is an error here as it is by itself.
          | none => .error .value
          | some low =>
            if isLowSurrogate low then
              (scanString after).map fun (tail, left) =>
                ((0x10000 + 1024 * (code - 0xD800) + (low - 0xDC00)) :: tail, left)
            else
              (scanString (92 :: 117 :: e :: f :: g :: h :: after)).map fun (tail, left) =>
                (code :: tail, left)
        else
          (scanString (92 :: 117 :: e :: f :: g :: h :: after)).map fun (tail, left) =>
            (code :: tail, left)
      | rest => (scanString rest).map fun (tail, left) => (code :: tail, left)
  | 92 :: c :: rest =>
    match simpleEscape c with
    | none => .error .value
    | some code => (scanString rest).map fun (tail, left) => (code :: tail, left)
  | c :: rest =>
    if c < 32 then .error .value
    else (scanString rest).map fun (tail, left) => (c :: tail, left)

/-- The exponent of a number, if a well-formed one is next. -/
def scanExponent : Text → Option (Int × Text)
  | [] => none
  | e :: rest =>
    if e = 101 ∨ e = 69 then
      let negative := rest.head? = some 45
      let rest := if rest.head? = some 45 ∨ rest.head? = some 43 then rest.drop 1 else rest
      let digits := rest.takeWhile isDigit
      if digits = [] then none
      else
        let value : Int := digitsValue digits
        some (if negative then -value else value, rest.drop digits.length)
    else none

def scanUnsigned (negative : Bool) (body : Text) : Except Failure (Json × Text) :=
  let whole := if body.head? = some 48 then [48] else body.takeWhile isDigit
  -- Without a sign it is one of the constants.
  if negative ∧ (Text.ofString "Infinity").isPrefixOf body then .ok (.float (.infinity true), body.drop 8)
  else if whole = [] then .error .value
  else
    let rest := body.drop whole.length
    let fraction := if rest.head? = some 46 then (rest.drop 1).takeWhile isDigit else []
    -- A point without a digit after it is not part of the number.
    let rest := if fraction = [] then rest else rest.drop (1 + fraction.length)
    let exponent := scanExponent rest
    if fraction = [] ∧ exponent = none then
      if 4300 < whole.length then .error .value
      else
        let value : Int := digitsValue whole
        .ok (.int (if negative then -value else value), rest)
    else
      let (shift, rest) := exponent.getD (0, rest)
      .ok (.float (.ofDecimal negative (digitsValue (whole ++ fraction)) (shift - fraction.length)), rest)

def scanNumber (text : Text) : Except Failure (Json × Text) :=
  if text.head? = some 45 then scanUnsigned true (text.drop 1) else scanUnsigned false text

def constants : List (String × Json) :=
  [("null", .null), ("true", .bool true), ("false", .bool false), ("NaN", .float .nan),
    ("Infinity", .float (.infinity false))]

mutual

/-- One value; `depth` is how many more containers the stack has room for. Two
units of fuel for each character are enough, as an array and its first item
start at the same place. -/
def scanValue : Nat → Nat → Text → Except Failure (Json × Text)
  | 0, _, _ => .error .value
  | fuel + 1, depth, text =>
    match text with
    | [] => .error .value
    | c :: rest =>
      if c = 34 then (scanString rest).map fun (value, rest) => (.str value, rest)
      else if c = 123 then
        match depth with
        | 0 => .error .recursion
        | depth + 1 =>
          if (skipSpace rest).head? = some 125 then .ok (.dict [], (skipSpace rest).drop 1)
          else scanEntries fuel depth [] (skipSpace rest)
      else if c = 91 then
        match depth with
        | 0 => .error .recursion
        | depth + 1 =>
          if (skipSpace rest).head? = some 93 then .ok (.list [], (skipSpace rest).drop 1)
          else scanItems fuel depth [] (skipSpace rest)
      else
        -- No constant begins like a number, so the order of the two does not matter.
        match constants.find? fun named => (Text.ofString named.1).isPrefixOf text with
        | some (name, value) => .ok (value, text.drop name.length)
        | none => scanNumber text

def scanEntries : Nat → Nat → List (Text × Json) → Text → Except Failure (Json × Text)
  | 0, _, _, _ => .error .value
  | fuel + 1, depth, entries, text =>
    match text with
    | 34 :: rest => do
      let (key, rest) ← scanString rest
      match skipSpace rest with
      | 58 :: rest =>
        let (value, rest) ← scanValue fuel depth (skipSpace rest)
        match skipSpace rest with
        -- A key that comes again replaces the value it had.
        | 125 :: rest => .ok (.dict (assign entries key value), rest)
        | 44 :: rest => scanEntries fuel depth (assign entries key value) (skipSpace rest)
        | _ => .error .value
      | _ => .error .value
    | _ => .error .value

def scanItems : Nat → Nat → List Json → Text → Except Failure (Json × Text)
  | 0, _, _, _ => .error .value
  | fuel + 1, depth, items, text => do
    let (value, rest) ← scanValue fuel depth text
    match skipSpace rest with
    | 93 :: rest => .ok (.list (items ++ [value]), rest)
    | 44 :: rest => scanItems fuel depth (items ++ [value]) (skipSpace rest)
    | _ => .error .value

end

/-- `json.loads` of a text. -/
def loads (depth : Nat) (text : Text) : Except Failure Json :=
  if text.head? = some 0xFEFF then .error .value
  else do
    let (value, rest) ← scanValue (2 * text.length + 2) depth (skipSpace text)
    if skipSpace rest = [] then .ok value else .error .value

/-- The text of a byte string, in the encoding its first bytes give away. -/
def decodeDetected (bytes : Bytes) : Option Text :=
  match bytes with
  | 0x00 :: 0x00 :: 0xFE :: 0xFF :: rest => decodeUtf32 true rest
  | 0xFF :: 0xFE :: 0x00 :: 0x00 :: rest => decodeUtf32 false rest
  | 0xFE :: 0xFF :: rest => decodeUtf16 true rest
  | 0xFF :: 0xFE :: rest => decodeUtf16 false rest
  | 0xEF :: 0xBB :: 0xBF :: rest => decodeUtf8 true rest
  | a :: b :: c :: d :: _ =>
    if a = 0 then if b ≠ 0 then decodeUtf16 true bytes else decodeUtf32 true bytes
    else if b = 0 then if c ≠ 0 ∨ d ≠ 0 then decodeUtf16 false bytes else decodeUtf32 false bytes
    else decodeUtf8 true bytes
  | [a, b] =>
    if a = 0 then decodeUtf16 true bytes
    else if b = 0 then decodeUtf16 false bytes
    else decodeUtf8 true bytes
  | _ => decodeUtf8 true bytes

/-- `json.loads` of a byte string. -/
def loadsBytes (depth : Nat) (bytes : Bytes) : Except Failure Json :=
  match decodeDetected bytes with
  | none => .error .value
  | some text => loads depth text

/-! ## Writing -/

def dumpsInt (value : Int) : Text :=
  if value < 0 then 45 :: decimal value.natAbs else decimal value.natAbs

def hexText (width : Nat) (c : Nat) : Text :=
  ((List.range width).map fun place =>
    let digit := c / 16 ^ place % 16
    if digit < 10 then 48 + digit else 87 + digit).reverse

/-- A character as an ASCII-only encoder writes it. -/
def escape (c : Nat) : Text :=
  match c with
  | 34 => [92, 34]
  | 92 => [92, 92]
  | 10 => [92, 110]
  | 13 => [92, 114]
  | 9 => [92, 116]
  | 12 => [92, 102]
  | 8 => [92, 98]
  | c =>
    if 32 ≤ c ∧ c ≤ 126 then [c]
    else if c < 0x10000 then 92 :: 117 :: hexText 4 c
    else
      92 :: 117 :: hexText 4 (0xD800 + (c - 0x10000) / 1024) ++
        92 :: 117 :: hexText 4 (0xDC00 + (c - 0x10000) % 1024)

def dumpsString (value : Text) : Text := 34 :: value.flatMap escape ++ [34]

/-- An object whose values have been written already, without spaces. -/
def dumpsObject (entries : List (Text × Text)) : Text :=
  123 :: List.intercalate [44] (entries.map fun (key, value) => dumpsString key ++ 58 :: value) ++ [125]

/-- The same with the default separators, which have a space each. -/
def dumpsObjectSpaced (entries : List (Text × Text)) : Text :=
  123 :: List.intercalate [44, 32] (entries.map fun (key, value) => dumpsString key ++ 58 :: 32 :: value) ++ [125]

/-! ## Writing ASCII only -/

theorem hexText_ascii (width c : Nat) : IsAscii (hexText width c) := by
  intro d member
  obtain ⟨place, -, rfl⟩ := List.mem_map.mp (List.mem_reverse.mp member)
  simp only
  split <;> omega

theorem escape_ascii (c : Nat) : IsAscii (escape c) := by
  have hex := hexText_ascii 4
  unfold escape
  split
  case h_8 =>
    split
    next => simp only [IsAscii, List.mem_singleton, forall_eq]; omega
    next =>
      split <;> intro d member <;> simp only [List.mem_append, List.mem_cons] at member
      · rcases member with rfl | rfl | digit
        · decide
        · decide
        · exact hex _ d digit
      · rcases member with (rfl | rfl | digit) | rfl | rfl | digit
        · decide
        · decide
        · exact hex _ d digit
        · decide
        · decide
        · exact hex _ d digit
  all_goals unfold IsAscii; decide

theorem dumpsString_ascii (value : Text) : IsAscii (dumpsString value) := by
  intro d member
  simp only [dumpsString, List.mem_append, List.mem_cons, List.mem_flatMap, List.not_mem_nil, or_false] at member
  rcases member with (rfl | ⟨c, -, escaped⟩) | rfl
  · decide
  · exact escape_ascii c d escaped
  · decide

theorem dumpsInt_ascii (value : Int) : IsAscii (dumpsInt value) := by
  have digits : IsAscii (decimal value.natAbs) := by
    intro d member
    have digit := isDigit_iff.mp (isDigit_of_mem_decimal member)
    omega
  unfold dumpsInt
  split
  · intro d member
    rcases List.mem_cons.mp member with rfl | member
    · decide
    · exact digits d member
  · exact digits

theorem object_ascii {separator colon : Text} {entries : List (Text × Text)} (separators : IsAscii separator)
    (colons : IsAscii colon) (values : ∀ entry ∈ entries, IsAscii entry.2) :
    IsAscii (123 :: List.intercalate separator (entries.map fun (key, value) => dumpsString key ++ (colon ++ value)) ++
      [125]) := by
  have written : ∀ part ∈ entries.map fun (key, value) => dumpsString key ++ (colon ++ value), IsAscii part := by
    intro part member
    obtain ⟨⟨key, value⟩, present, rfl⟩ := List.mem_map.mp member
    apply (dumpsString_ascii key).append
    exact colons.append (values _ present)
  have close : IsAscii [125] := by unfold IsAscii; decide
  exact List.forall_mem_cons.mpr ⟨by decide, (IsAscii.intercalate separators written).append close⟩

theorem dumpsObject_ascii {entries : List (Text × Text)} (values : ∀ entry ∈ entries, IsAscii entry.2) :
    IsAscii (dumpsObject entries) := by
  have comma : IsAscii [44] := by unfold IsAscii; decide
  have colon : IsAscii [58] := by unfold IsAscii; decide
  exact object_ascii comma colon values

theorem dumpsObjectSpaced_ascii {entries : List (Text × Text)} (values : ∀ entry ∈ entries, IsAscii entry.2) :
    IsAscii (dumpsObjectSpaced entries) := by
  have comma : IsAscii [44, 32] := by unfold IsAscii; decide
  have colon : IsAscii [58, 32] := by unfold IsAscii; decide
  exact object_ascii comma colon values

/-! ## Reading back what was written -/

/-- Characters that need no escape. -/
def IsPlain (text : Text) : Prop := ∀ c ∈ text, 32 ≤ c ∧ c ≤ 126 ∧ c ≠ 34 ∧ c ≠ 92

theorem escape_plain {c : Nat} (range : 32 ≤ c ∧ c ≤ 126) (quote : c ≠ 34) (slash : c ≠ 92) :
    escape c = [c] := by
  unfold escape
  split
  all_goals first | omega | rfl | rw [if_pos range]

theorem dumpsString_plain {text : Text} (plain : IsPlain text) : dumpsString text = 34 :: text ++ [34] := by
  have same : text.flatMap escape = text := by
    induction text with
    | nil => rfl
    | cons c text ih =>
      obtain ⟨low, high, quote, slash⟩ := plain c (by simp)
      rw [List.flatMap_cons, escape_plain ⟨low, high⟩ quote slash, ih fun d member => plain d (by simp [member])]
      rfl
  rw [dumpsString, same]

theorem scanString_cons {c : Nat} (rest : Text) (low : 32 ≤ c) (quote : c ≠ 34) (slash : c ≠ 92) :
    scanString (c :: rest) = (scanString rest).map fun (tail, left) => (c :: tail, left) := by
  rw [scanString.eq_def]
  split
  next empty => cases empty
  next same => cases same; exact absurd rfl quote
  next same => cases same; exact absurd rfl slash
  next same => cases same; exact absurd rfl slash
  next same =>
    cases same
    rw [if_neg (by omega)]

theorem scanString_plain {text : Text} (plain : IsPlain text) (rest : Text) :
    scanString (text ++ 34 :: rest) = .ok (text, rest) := by
  induction text with
  | nil => rfl
  | cons c text ih =>
    obtain ⟨low, -, quote, slash⟩ := plain c (by simp)
    rw [List.cons_append, scanString_cons _ low quote slash, ih fun d member => plain d (by simp [member])]
    rfl

/-- The scanner reads a value off this text whenever an entry or the object ends after it. -/
def Reads (text : Text) (value : Json) : Prop :=
  ∀ fuel depth c rest, c = 44 ∨ c = 125 →
    skipSpace (text ++ c :: rest) = text ++ c :: rest ∧
    scanValue (fuel + 1) depth (text ++ c :: rest) = .ok (value, c :: rest)

theorem skipSpace_cons {c : Nat} (rest : Text) (solid : isSpace c = false) :
    skipSpace (c :: rest) = c :: rest := by
  simp [skipSpace, solid]

theorem reads_dumpsString {text : Text} (plain : IsPlain text) : Reads (dumpsString text) (.str text) := by
  intro fuel depth c rest _
  rw [dumpsString_plain plain]
  simp only [List.cons_append, List.append_assoc, List.nil_append, scanValue, ↓reduceIte,
    scanString_plain plain]
  exact ⟨skipSpace_cons _ rfl, rfl⟩

/-- What may follow a value: the end of the text, or of the item or the container that it is in. -/
def Follows (rest : Text) : Prop := ∀ c ∈ rest.head?, c = 44 ∨ c = 93 ∨ c = 125

theorem takeWhile_digits {digits rest : Text} (all : ∀ d ∈ digits, isDigit d = true) (follows : Follows rest) :
    (digits ++ rest).takeWhile isDigit = digits := by
  rw [List.takeWhile_append_of_pos all]
  cases rest with
  | nil => simp
  | cons c rest =>
    have other : isDigit c = false := by rcases follows c rfl with rfl | rfl | rfl <;> rfl
    simp [other]

theorem not_isPrefixOf {name : String} {d : Nat} (rest : Text)
    (capital : (Text.ofString name).head?.any (65 ≤ ·) = true) (low : d < 65) :
    (Text.ofString name).isPrefixOf (d :: rest) = false := by
  cases shape : Text.ofString name with
  | nil => simp [shape] at capital
  | cons c cs =>
    have high : 65 ≤ c := by simpa [shape] using capital
    have different : (c == d) = false := by simp; omega
    rw [List.isPrefixOf_cons_cons, different, Bool.false_and]

theorem no_constant {d : Nat} (rest : Text) (low : d < 65) :
    (constants.find? fun named => (Text.ofString named.1).isPrefixOf (d :: rest)) = none := by
  have capitals : ∀ named ∈ constants, (Text.ofString named.1).head?.any (65 ≤ ·) = true := by decide
  rw [List.find?_eq_none]
  intro named member
  rw [not_isPrefixOf rest (capitals named member) low]
  exact Bool.false_ne_true

theorem scanUnsigned_decimal {n : Nat} (short : (decimal n).length ≤ 4300) (negative : Bool) {rest : Text}
    (follows : Follows rest) :
    scanUnsigned negative (decimal n ++ rest) = .ok (.int (if negative then -(n : Int) else n), rest) := by
  have digits : (decimal n ++ rest).takeWhile isDigit = decimal n :=
    takeWhile_digits (fun d member => isDigit_of_mem_decimal member) follows
  obtain ⟨d, ds, shape, digit⟩ := decimal_cons n
  have whole : (if (decimal n ++ rest).head? = some 48 then [48]
      else (decimal n ++ rest).takeWhile isDigit) = decimal n := by
    split
    next zero =>
      by_cases positive : n = 0
      · rw [positive]; rfl
      · rw [shape] at zero
        cases zero
        exact absurd rfl (head_decimal positive shape)
    next => exact digits
  have notInfinity : (Text.ofString "Infinity").isPrefixOf (decimal n ++ rest) = false := by
    rw [shape]
    exact not_isPrefixOf _ (by decide) (by omega)
  have left : (decimal n ++ rest).drop (decimal n).length = rest := by simp
  -- Neither a point nor an exponent comes next.
  have point : rest.head? ≠ some 46 := fun next => by have := follows 46 next; omega
  have exponent : scanExponent rest = none := by
    cases rest with
    | nil => rfl
    | cons c rest =>
      have mark : ¬(c = 101 ∨ c = 69) := by have := follows c rfl; omega
      rw [scanExponent, if_neg mark]
  simp only [scanUnsigned, whole, notInfinity, left, decimal_ne_nil, point, exponent, digitsValue_decimal,
    Nat.not_lt.mpr short, ↓reduceIte, and_self, and_false, Bool.false_eq_true]

theorem scanNumber_dumpsInt {n : Int} (short : (decimal n.natAbs).length ≤ 4300) {rest : Text}
    (follows : Follows rest) : scanNumber (dumpsInt n ++ rest) = .ok (.int n, rest) := by
  unfold dumpsInt
  split
  next negative =>
    simp only [scanNumber, List.cons_append, List.head?_cons, ↓reduceIte, List.drop_succ_cons, List.drop_zero,
      scanUnsigned_decimal short true follows]
    congr 3
    omega
  next =>
    obtain ⟨d, ds, shape, digit⟩ := decimal_cons n.natAbs
    have unsigned : (decimal n.natAbs ++ rest).head? ≠ some 45 := by
      simp [shape]
      omega
    simp only [scanNumber, unsigned, ↓reduceIte, scanUnsigned_decimal short false follows, Bool.false_eq_true]
    congr 3
    omega

theorem dumpsInt_cons (n : Int) : ∃ d ds, dumpsInt n = d :: ds ∧ (d = 45 ∨ 48 ≤ d ∧ d ≤ 57) := by
  unfold dumpsInt
  split
  next => exact ⟨45, _, rfl, .inl rfl⟩
  next =>
    obtain ⟨d, ds, shape, digit⟩ := decimal_cons n.natAbs
    exact ⟨d, ds, shape, .inr digit⟩

theorem dumpsInt_injective : Function.Injective dumpsInt := by
  intro n m same
  -- The sign is told apart by the first character, the rest is the magnitude.
  have magnitudes : n.natAbs = m.natAbs ∧ (n < 0 ↔ m < 0) := by
    obtain ⟨d, ds, nShape, nDigit⟩ := decimal_cons n.natAbs
    obtain ⟨e, es, mShape, mDigit⟩ := decimal_cons m.natAbs
    have values := digitsValue_decimal n.natAbs
    unfold dumpsInt at same
    split at same <;> split at same
    next nNeg mNeg =>
      rw [← values, (List.cons.inj same).2, digitsValue_decimal]
      exact ⟨rfl, by simp [nNeg, mNeg]⟩
    next nNeg mPos => rw [mShape] at same; exact absurd (List.cons.inj same).1 (by omega)
    next nPos mNeg => rw [nShape] at same; exact absurd (List.cons.inj same).1 (by omega)
    next nPos mPos =>
      rw [← values, same, digitsValue_decimal]
      exact ⟨rfl, by simp [nPos, mPos]⟩
  omega

theorem scanValue_number {c : Nat} (rest : Text) (first : c = 45 ∨ 48 ≤ c ∧ c ≤ 57) (fuel depth : Nat) :
    scanValue (fuel + 1) depth (c :: rest) = scanNumber (c :: rest) := by
  have notString : c ≠ 34 := by omega
  have notObject : c ≠ 123 := by omega
  have notArray : c ≠ 91 := by omega
  simp only [scanValue, notString, notObject, notArray, ↓reduceIte, no_constant _ (show c < 65 by omega)]

theorem reads_dumpsInt {n : Int} (short : (decimal n.natAbs).length ≤ 4300) : Reads (dumpsInt n) (.int n) := by
  intro fuel depth c rest ends
  have follows : Follows (c :: rest) := by
    rintro d ⟨⟩
    omega
  have number := scanNumber_dumpsInt short follows
  obtain ⟨d, ds, shape, first⟩ := dumpsInt_cons n
  rw [shape, List.cons_append] at number ⊢
  have solid : isSpace d = false := by simp [isSpace]; omega
  exact ⟨skipSpace_cons _ solid, (scanValue_number _ first fuel depth).trans number⟩

theorem assign_new {entries : List (Text × Json)} {key : Text} (value : Json)
    (fresh : ∀ entry ∈ entries, entry.1 ≠ key) : assign entries key value = entries ++ [(key, value)] := by
  have missing : entries.lookup key = none := by
    rw [List.lookup_eq_none_iff]
    intro entry member
    simpa using (fresh entry member).symm
  simp [assign, missing]

section

variable {key text : Text} {value : Json} (plain : IsPlain key) (readable : Reads text value)
  (entries : List (Text × Json)) (fuel depth : Nat) (rest : Text)

include plain readable

theorem scanEntries_last :
    scanEntries (fuel + 2) depth entries (dumpsString key ++ 58 :: (text ++ 125 :: rest)) =
      .ok (.dict (assign entries key value), rest) := by
  obtain ⟨solid, scanned⟩ := readable fuel depth 125 rest (.inr rfl)
  simp only [dumpsString_plain plain, List.cons_append, List.append_assoc, List.nil_append, scanEntries,
    scanString_plain plain, skipSpace_cons (c := 58) _ rfl, skipSpace_cons (c := 125) _ rfl, solid, scanned,
    bind, Except.bind]

theorem scanEntries_more :
    scanEntries (fuel + 2) depth entries (dumpsString key ++ 58 :: (text ++ 44 :: rest)) =
      scanEntries (fuel + 1) depth (assign entries key value) (skipSpace rest) := by
  obtain ⟨solid, scanned⟩ := readable fuel depth 44 rest (.inl rfl)
  simp only [dumpsString_plain plain, List.cons_append, List.append_assoc, List.nil_append, scanEntries,
    scanString_plain plain, skipSpace_cons (c := 58) _ rfl, skipSpace_cons (c := 44) _ rfl, solid, scanned,
    bind, Except.bind]

end

structure Entry where
  key : Text
  text : Text
  value : Json
  plain : IsPlain key
  readable : Reads text value

def Entry.written (entry : Entry) : Text := dumpsString entry.key ++ 58 :: entry.text

theorem scanEntries_written (entry : Entry) (entries : List Entry) (before : List (Text × Json))
    (distinct : (before.map (·.1) ++ (entry :: entries).map (·.key)).Nodup) (fuel depth : Nat) (rest : Text) :
    scanEntries (fuel + entries.length + 2) depth before
      (List.intercalate [44] ((entry :: entries).map Entry.written) ++ 125 :: rest) =
      .ok (.dict (before ++ (entry :: entries).map fun entry => (entry.key, entry.value)), rest) := by
  -- The entries read before grow by one; that their keys are new keeps them in order.
  induction entries generalizing entry before with
  | nil =>
    have fresh : ∀ old ∈ before, old.1 ≠ entry.key := by
      intro old member same
      rw [List.nodup_append] at distinct
      exact distinct.2.2 old.1 (List.mem_map_of_mem member) entry.key (by simp) same
    have last := scanEntries_last entry.plain entry.readable before fuel depth rest
    rw [assign_new entry.value fresh] at last
    simpa [List.intercalate, Entry.written] using last
  | cons next entries ih =>
    have fresh : ∀ old ∈ before, old.1 ≠ entry.key := by
      intro old member same
      rw [List.nodup_append] at distinct
      exact distinct.2.2 old.1 (List.mem_map_of_mem member) entry.key (by simp) same
    have distinct' : ((before ++ [(entry.key, entry.value)]).map (·.1) ++
        (next :: entries).map (·.key)).Nodup := by
      simpa using distinct
    have solid : skipSpace (List.intercalate [44] ((next :: entries).map Entry.written) ++ 125 :: rest) =
        List.intercalate [44] ((next :: entries).map Entry.written) ++ 125 :: rest := by
      cases entries with
      | nil => exact skipSpace_cons _ rfl
      | cons third entries => exact skipSpace_cons _ rfl
    have more := scanEntries_more entry.plain entry.readable before (fuel + entries.length + 1) depth
      (List.intercalate [44] ((next :: entries).map Entry.written) ++ 125 :: rest)
    rw [assign_new entry.value fresh, solid, show fuel + entries.length + 1 + 1 = fuel + entries.length + 2 by rfl,
      ih next (before ++ [(entry.key, entry.value)]) distinct'] at more
    rw [List.map_cons, List.map_cons, List.intercalate_cons_cons]
    simpa [Entry.written, Nat.add_assoc, Nat.add_comm, Nat.add_left_comm] using more

theorem length_written (entry : Entry) (entries : List Entry) :
    entries.length < (List.intercalate [44] ((entry :: entries).map Entry.written)).length := by
  induction entries generalizing entry with
  | nil => simp [List.intercalate, Entry.written]
  | cons next entries ih =>
    have tail := ih next
    rw [List.map_cons, List.map_cons, List.intercalate_cons_cons]
    rw [List.map_cons] at tail
    simp only [List.length_append, List.length_cons, List.length_nil] at tail ⊢
    omega

/-- A written object is read back. -/
theorem loads_written (entry : Entry) (entries : List Entry)
    (distinct : ((entry :: entries).map (·.key)).Nodup) (depth : Nat) :
    loads (depth + 1) (dumpsObject ((entry :: entries).map fun entry => (entry.key, entry.text))) =
      .ok (.dict ((entry :: entries).map fun entry => (entry.key, entry.value))) := by
  have text : dumpsObject ((entry :: entries).map fun entry => (entry.key, entry.text)) =
      123 :: (List.intercalate [44] ((entry :: entries).map Entry.written) ++ 125 :: []) := by
    simp only [dumpsObject, List.map_map, List.cons_append]
    rfl
  have enough := length_written entry entries
  obtain ⟨fuel, length⟩ : ∃ fuel, 2 * (dumpsObject ((entry :: entries).map
      fun entry => (entry.key, entry.text))).length + 2 = fuel + entries.length + 2 + 1 := by
    refine ⟨_, (Nat.sub_add_cancel (m := entries.length + 3) ?_).symm⟩
    rw [text]
    simp only [List.length_append, List.length_cons, List.length_nil]
    omega
  -- The object is not empty: a quote follows the brace.
  obtain ⟨tail, opening⟩ : ∃ tail, List.intercalate [44] ((entry :: entries).map Entry.written) ++ 125 :: [] =
      34 :: tail := by
    cases entries with
    | nil => exact ⟨_, rfl⟩
    | cons next entries => exact ⟨_, rfl⟩
  have scanned := scanEntries_written entry entries [] (by simpa using distinct) fuel depth []
  rw [opening] at scanned text
  rw [loads, length, text]
  simp only [List.head?_cons, Option.some.injEq, Nat.reduceEqDiff, skipSpace_cons (c := 123) _ rfl, scanValue,
    skipSpace_cons (c := 34) _ rfl, ↓reduceIte, scanned, bind, Except.bind, List.nil_append]
  rfl

end Json
