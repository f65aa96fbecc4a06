import DataPipeline.Ingestor.BloomFilter

/-! The `BloomFilter` of the scrapers as it runs: integers and a byte array, with
every exception that its expressions can raise.

An instance that the constructor has made is a `BloomFilter` of the model, whose
bounds rule these exceptions out.
-/

set_option autoImplicit false

namespace DataPipeline.Ingestor.BloomFilter

open Encoding

inductive BitError where
  | unicodeEncodeError
  | zeroDivisionError
  | indexError
  | valueError
  deriving DecidableEq

/-! ## Byte arrays -/

def bytearray (count : Int) : Except BitError Bytes :=
  if count < 0 then .error .valueError else .ok (List.replicate count.toNat 0)

/-- The place of an index, where a negative one counts from the end. -/
def placeOf (bits : Bytes) (index : Int) : Except BitError Nat :=
  let place := if index < 0 then bits.length + index else index
  if 0 ≤ place ∧ place < bits.length then .ok place.toNat else .error .indexError

def getItem (bits : Bytes) (index : Int) : Except BitError Nat := do
  let place ← placeOf bits index
  return (bits.getD place 0).toNat

/-- A byte must be in `range(0, 256)`. -/
def setItem (bits : Bytes) (index : Int) (value : Nat) : Except BitError Bytes := do
  let place ← placeOf bits index
  if 256 ≤ value then .error .valueError else .ok (bits.set place value.toUInt8)

/-! ## Instances -/

structure Attributes where
  size : Int
  hashCount : Int
  bits : Bytes
  deriving DecidableEq

/-- `int` of the estimate is a parameter. -/
def computeSize (estimate : Int) : Int := max 1 estimate

def computeHashCount (estimate : Int) : Int := max 1 estimate

namespace Attributes

def init (sizeEstimate hashEstimate : Int) : Except BitError Attributes := do
  let size := computeSize sizeEstimate
  let hashCount := computeHashCount hashEstimate
  let bits ← bytearray (size / 8 + 1)
  return ⟨size, hashCount, bits⟩

variable (sha256 : Bytes → Nat)

def positions (filter : Attributes) (item : Text) : Except BitError (List Int) :=
  (List.range filter.hashCount.toNat).mapM fun seed =>
    match encodeUtf8 (decimal seed ++ Text.ofString ":" ++ item) with
    | none => .error .unicodeEncodeError
    | some bytes =>
      if filter.size = 0 then .error .zeroDivisionError else .ok ((sha256 bytes : Int).fmod filter.size)

/-- `self._bits[pos // 8] |= 1 << (pos % 8)` -/
def setPosition (bits : Bytes) (position : Int) : Except BitError Bytes := do
  let byte ← getItem bits (position / 8)
  setItem bits (position / 8) (byte ||| 1 <<< (position % 8).toNat)

def add (filter : Attributes) (item : Text) : Except BitError Attributes := do
  let positions ← filter.positions sha256 item
  let bits ← positions.foldlM setPosition filter.bits
  return { filter with bits }

/-- `all` stops at the first bit that is not set. -/
def allSet (bits : Bytes) : List Int → Except BitError Bool
  | [] => .ok true
  | position :: rest => do
    let byte ← getItem bits (position / 8)
    if byte &&& 1 <<< (position % 8).toNat = 0 then .ok false else allSet bits rest

/-- `__contains__`, where none is an object that is not a string. -/
def contains (filter : Attributes) : Option Text → Except BitError Bool
  | none => .ok false
  | some item => do
    let positions ← filter.positions sha256 item
    allSet filter.bits positions

def addAll (filter : Attributes) (items : List Text) : Except BitError Attributes :=
  items.foldlM (add sha256) filter

def bit (filter : Attributes) (position : Nat) : Bool :=
  (filter.bits.getD (position / 8) 0).toNat.testBit (position % 8)

end Attributes

/-! ## What the constructor makes -/

def attributes (filter : BloomFilter) : Attributes := ⟨filter.size, filter.hashCount, filter.bits⟩

theorem init_attributes (sizeEstimate hashEstimate : Int) :
    Attributes.init sizeEstimate hashEstimate = .ok (init sizeEstimate.toNat hashEstimate.toNat).attributes := by
  have size : computeSize sizeEstimate = (max 1 sizeEstimate.toNat : Nat) := by
    unfold computeSize
    omega
  have hashCount : computeHashCount hashEstimate = (max 1 hashEstimate.toNat : Nat) := by
    unfold computeHashCount
    omega
  have room : bytearray (computeSize sizeEstimate / 8 + 1) =
      .ok (List.replicate (max 1 sizeEstimate.toNat / 8 + 1) 0) := by
    rw [bytearray, if_neg (by omega), size]
    norm_cast
  rw [Attributes.init, room, size, hashCount]
  rfl

/-! ## Operations on such an instance -/

variable {sha256 : Bytes → Nat} {filter : BloomFilter} {item other : Text} {position : Nat}

theorem placeOf_nat {bits : Bytes} {place : Nat} (inside : place < bits.length) :
    placeOf bits place = .ok place := by
  rw [placeOf]
  simp only [if_neg (show ¬ (place : Int) < 0 by omega)]
  rw [if_pos (by omega), Int.toNat_natCast]

theorem getItem_nat {bits : Bytes} {place : Nat} (inside : place < bits.length) :
    getItem bits place = .ok (bits.getD place 0).toNat := by
  rw [getItem, placeOf_nat inside]
  rfl

theorem place_lt (inside : position < filter.size) : position / 8 < filter.bits.length := by
  rw [filter.room]
  exact Nat.lt_succ_of_le (Nat.div_le_div_right (Nat.le_of_lt inside))

theorem cell_eq (position : Nat) : (position : Int) / 8 = (position / 8 : Nat) := by omega

theorem offset_eq (position : Nat) : ((position : Int) % 8).toNat = position % 8 := by omega

theorem shift_eq (position : Nat) : 1 <<< (position % 8) = (mask position).toNat := by
  rw [toNat_mask, Nat.one_shiftLeft]

theorem setPosition_attributes (inside : position < filter.size) :
    Attributes.setPosition filter.bits position = .ok (filter.setBit position).bits := by
  have room := place_lt inside
  have byte : (filter.bits.getD (position / 8) 0).toNat ||| (mask position).toNat =
      (filter.bits.getD (position / 8) 0 ||| mask position).toNat := (UInt8.toNat_or _ _).symm
  have small : ¬ 256 ≤ (filter.bits.getD (position / 8) 0 ||| mask position).toNat :=
    Nat.not_le.mpr (UInt8.toNat_lt _)
  have written : filter.bits.set (position / 8) (filter.bits.getD (position / 8) 0 ||| mask position) =
      (filter.setBit position).bits := by
    change _ = filter.bits.modify (position / 8) (· ||| mask position)
    rw [List.modify_eq_set, List.getD_eq_getElem?_getD]
    rfl
  rw [Attributes.setPosition, cell_eq, offset_eq, shift_eq, getItem_nat room]
  change setItem _ _ _ = _
  rw [byte, setItem, placeOf_nat room]
  change (if _ then _ else _) = _
  rw [if_neg small, ← written]
  simp

theorem foldlM_setPosition {places : List Nat} (inside : ∀ place ∈ places, place < filter.size) :
    (places.map Int.ofNat).foldlM Attributes.setPosition filter.bits = .ok (places.foldl setBit filter).bits := by
  induction places generalizing filter with
  | nil => rfl
  | cons place rest ih =>
    rw [List.map_cons, List.foldlM_cons, List.foldl_cons]
    have set := setPosition_attributes (inside place List.mem_cons_self)
    change (Attributes.setPosition filter.bits place >>= _) = _
    rw [set]
    exact ih fun other member => inside other (List.mem_cons_of_mem place member)

theorem allSet_attributes {places : List Nat} (inside : ∀ place ∈ places, place < filter.size) :
    Attributes.allSet filter.bits (places.map Int.ofNat) = .ok (places.all filter.getBit) := by
  induction places with
  | nil => rfl
  | cons place rest ih =>
    have byte := getItem_nat (place_lt (inside place List.mem_cons_self))
    have rest := ih fun other member => inside other (List.mem_cons_of_mem place member)
    have masked : (filter.bits.getD (place / 8) 0).toNat &&& (mask place).toNat = 0 ↔ filter.getBit place = false := by
      rw [← UInt8.toNat_and, getBit, bne_eq_false_iff_eq, ← UInt8.toNat_inj]
      rfl
    rw [List.map_cons, Attributes.allSet]
    change (getItem filter.bits ((place : Int) / 8) >>= _) = _
    rw [cell_eq, byte]
    change (if _ &&& 1 <<< ((place : Int) % 8).toNat = 0 then _ else _) = _
    rw [offset_eq, shift_eq, rest, List.all_cons]
    cases bit : filter.getBit place with
    | false => rw [if_pos (masked.mpr bit), Bool.false_and]
    | true =>
      rw [if_neg, Bool.true_and]
      intro zero
      rw [masked.mp zero] at bit
      cases bit

/-- The only exception of `_positions` is that of the encoder. -/
theorem positions_attributes (sha256 : Bytes → Nat) (filter : BloomFilter) (item : Text) :
    filter.attributes.positions sha256 item =
      match filter.positions sha256 item with
      | none => .error .unicodeEncodeError
      | some places => .ok (places.map Int.ofNat) := by
  have positive := filter.size_pos
  have size : ¬ (filter.size : Int) = 0 := by omega
  rw [Attributes.positions, positions]
  simp only [attributes, size, if_false, Int.toNat_natCast]
  induction List.range filter.hashCount with
  | nil => rfl
  | cons seed seeds ih =>
    rw [List.mapM_cons, List.mapM_cons, ih]
    cases encodeUtf8 (decimal seed ++ Text.ofString ":" ++ item) with
    | none => rfl
    | some bytes =>
      have digest : (sha256 bytes : Int).fmod filter.size = (sha256 bytes % filter.size : Nat) := by
        rw [Int.fmod_eq_emod_of_nonneg _ (by omega)]
        norm_cast
      simp only [digest]
      cases seeds.mapM fun seed =>
        (encodeUtf8 (decimal seed ++ Text.ofString ":" ++ item)).map fun bytes => sha256 bytes % filter.size with
      | none => rfl
      | some places => rfl

theorem attributes_setBits (places : List Nat) :
    (places.foldl setBit filter).attributes = { filter.attributes with bits := (places.foldl setBit filter).bits } := by
  induction places generalizing filter with
  | nil => rfl
  | cons place rest ih => exact ih

theorem add_attributes (sha256 : Bytes → Nat) (filter : BloomFilter) (item : Text) :
    filter.attributes.add sha256 item =
      match filter.add sha256 item with
      | none => .error .unicodeEncodeError
      | some next => .ok next.attributes := by
  rw [Attributes.add, positions_attributes, add]
  cases computed : filter.positions sha256 item with
  | none => rfl
  | some places =>
    have set := foldlM_setPosition (lt_size_of_mem_positions sha256 computed)
    change ((places.map Int.ofNat).foldlM Attributes.setPosition filter.bits >>= _) = _
    rw [set, Option.map_some]
    exact congrArg Except.ok (attributes_setBits places).symm

theorem contains_attributes (sha256 : Bytes → Nat) (filter : BloomFilter) (item : Text) :
    filter.attributes.contains sha256 (some item) =
      match filter.contains sha256 item with
      | none => .error .unicodeEncodeError
      | some answer => .ok answer := by
  rw [Attributes.contains, positions_attributes, contains]
  cases computed : filter.positions sha256 item with
  | none => rfl
  | some places => exact allSet_attributes (lt_size_of_mem_positions sha256 computed)

/-! ## Runs -/

theorem addAll_attributes (sha256 : Bytes → Nat) (filter : BloomFilter) {items : List Text}
    (encodable : ∀ item ∈ items, (encodeUtf8 item).isSome = true) :
    filter.attributes.addAll sha256 items = .ok ((sieve sha256).addAll filter items).attributes := by
  induction items generalizing filter with
  | nil => rfl
  | cons item items ih =>
    obtain ⟨first, rest⟩ := List.forall_mem_cons.mp encodable
    obtain ⟨places, computed⟩ := Option.isSome_iff_exists.mp ((isSome_positions sha256 filter item).trans first)
    have added := add_attributes sha256 filter item
    rw [add_eq sha256 computed] at added
    have next : (sieve sha256).add filter item = places.foldl setBit filter := by
      change (filter.add sha256 item).getD filter = _
      rw [add_eq sha256 computed, Option.getD_some]
    rw [Attributes.addAll, List.foldlM_cons, added, Sieve.addAll, List.foldl_cons, next]
    exact ih _ rest

theorem bit_attributes (filter : BloomFilter) (position : Nat) :
    filter.attributes.bit position = filter.getBit position :=
  getBit_eq.symm

theorem getBit_add (sha256 : Bytes → Nat) (filter : BloomFilter) (item : Text) (set : filter.getBit position = true) :
    ((sieve sha256).add filter item).getBit position = true := by
  change ((filter.add sha256 item).getD filter).getBit position = true
  cases computed : filter.positions sha256 item with
  | none => simp [add, computed, set]
  | some places =>
    rw [add_eq sha256 computed, Option.getD_some, getBit_setBits (lt_size_of_mem_positions sha256 computed), set,
      Bool.true_or]

theorem getBit_addAll (sha256 : Bytes → Nat) (filter : BloomFilter) (items : List Text)
    (set : filter.getBit position = true) : ((sieve sha256).addAll filter items).getBit position = true := by
  induction items generalizing filter with
  | nil => exact set
  | cons item items ih => exact ih _ (getBit_add sha256 filter item set)

/-- None of the operations with this string raises, as its positions lie in the array. -/
structure Fits (sha256 : Bytes → Nat) (filter : Attributes) (item : Text) : Prop where
  positions : ∃ places, filter.positions sha256 item = .ok places ∧
    ∀ place ∈ places, 0 ≤ place ∧ place < filter.size ∧ place / 8 < filter.bits.length
  add : ∃ next, filter.add sha256 item = .ok next
  contains : ∃ answer, filter.contains sha256 (some item) = .ok answer

theorem fits_attributes (sha256 : Bytes → Nat) (filter : BloomFilter) (encodable : (encodeUtf8 item).isSome = true) :
    Fits sha256 filter.attributes item := by
  obtain ⟨places, computed⟩ := Option.isSome_iff_exists.mp ((isSome_positions sha256 filter item).trans encodable)
  have added := add_attributes sha256 filter item
  have asked := contains_attributes sha256 filter item
  have found := positions_attributes sha256 filter item
  rw [add_eq sha256 computed] at added
  rw [contains_eq sha256 computed] at asked
  rw [computed] at found
  refine ⟨⟨_, found, ?_⟩, ⟨_, added⟩, ⟨_, asked⟩⟩
  intro place member
  obtain ⟨position, listed, rfl⟩ := List.mem_map.mp member
  have inside := lt_size_of_mem_positions sha256 computed position listed
  have cell := place_lt inside
  simp only [attributes, Int.ofNat_eq_natCast]
  omega

theorem contains_of_has (encodable : (encodeUtf8 item).isSome = true) (has : (sieve sha256).has filter item = true) :
    filter.attributes.contains sha256 (some item) = .ok true := by
  obtain ⟨places, computed⟩ := Option.isSome_iff_exists.mp ((isSome_positions sha256 filter item).trans encodable)
  change (filter.contains sha256 item).getD true = true at has
  rw [contains_eq sha256 computed, Option.getD_some] at has
  rw [contains_attributes, contains_eq sha256 computed, has]

/-- After any additions to a new filter, every string that was added is reported, no
operation raises, and the bits set on the way are still set. -/
theorem no_false_negatives (sha256 : Bytes → Nat) (sizeEstimate hashEstimate : Int) (items : List Text)
    (encodable : ∀ item ∈ items, (encodeUtf8 item).isSome = true) :
    ∃ start final, Attributes.init sizeEstimate hashEstimate = .ok start ∧
      start.addAll sha256 items = .ok final ∧
      (∀ item ∈ items, final.contains sha256 (some item) = .ok true) ∧
      (∀ item, (encodeUtf8 item).isSome = true → Fits sha256 final item) ∧
      ∀ earlier later, items = earlier ++ later → ∃ before, start.addAll sha256 earlier = .ok before ∧
        ∀ position, before.bit position = true → final.bit position = true := by
  refine ⟨_, _, init_attributes sizeEstimate hashEstimate, addAll_attributes sha256 _ encodable, ?_, ?_, ?_⟩
  · exact fun item member => contains_of_has (encodable item member) (Sieve.has_addAll member)
  · exact fun item fine => fits_attributes sha256 _ fine
  · rintro earlier later rfl
    refine ⟨_, addAll_attributes sha256 _ fun item member => encodable item (List.mem_append_left later member), ?_⟩
    intro position set
    rw [bit_attributes] at set ⊢
    rw [Sieve.addAll_append]
    exact getBit_addAll sha256 _ later set

def digestOfLetters (bytes : Bytes) : Nat :=
  if bytes = [48, 58, 97] then 0x9df3c5fab8ef8fe78a408912e52e76477b5bd838eec3cbf48191a848ec8563d3
  else if bytes = [48, 58, 98] then 0xe02192fd813f38fd4ce376d30d7e2e888d6fdf56f25505e3152304418b90871e
  else 0

/-- The least filter, where both estimates are zero, has all of its strings in one bit. -/
theorem least_filter_remembers : ∃ start final, Attributes.init 0 0 = .ok start ∧
    start.addAll digestOfLetters [[97], [98]] = .ok final ∧ final.contains digestOfLetters (some [97]) = .ok true := by
  obtain ⟨start, final, made, added, known, -⟩ := no_false_negatives digestOfLetters 0 0 [[97], [98]] (by decide)
  exact ⟨start, final, made, added, known [97] List.mem_cons_self⟩

end DataPipeline.Ingestor.BloomFilter
