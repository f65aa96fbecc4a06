import DataPipeline.Library.Sieve
import DataPipeline.Library.Text
import Mathlib.Data.Nat.Bitwise

/-! The Bloom filter that scrapers deduplicate URLs with
(`ingestor/scrapers/__init__.py`), as a sieve.

SHA-256 is a parameter: nothing here depends on which digest it is.
-/

set_option autoImplicit false

namespace DataPipeline.Ingestor

open Encoding

/-- The truncated estimates that `__init__` makes from capacity and error rate
are its arguments here. -/
structure BloomFilter where
  size : Nat
  hashCount : Nat
  bits : Bytes
  size_pos : 0 < size
  hashes_pos : 0 < hashCount
  room : bits.length = size / 8 + 1

namespace BloomFilter

def init (size hashCount : Nat) : BloomFilter where
  size := max 1 size
  hashCount := max 1 hashCount
  bits := List.replicate (max 1 size / 8 + 1) 0
  size_pos := by omega
  hashes_pos := by omega
  room := List.length_replicate

variable (sha256 : Bytes → Nat)

/-- None is the `UnicodeEncodeError` of a lone surrogate. -/
def positions (filter : BloomFilter) (item : Text) : Option (List Nat) :=
  (List.range filter.hashCount).mapM fun seed =>
    (encodeUtf8 (decimal seed ++ Text.ofString ":" ++ item)).map fun bytes => sha256 bytes % filter.size

def mask (position : Nat) : UInt8 := 1 <<< (position % 8).toUInt8

def setBit (filter : BloomFilter) (position : Nat) : BloomFilter :=
  { filter with
    bits := filter.bits.modify (position / 8) (· ||| mask position)
    room := by rw [List.length_modify]; exact filter.room }

def getBit (filter : BloomFilter) (position : Nat) : Bool :=
  filter.bits.getD (position / 8) 0 &&& mask position != 0

def add (filter : BloomFilter) (item : Text) : Option BloomFilter :=
  (filter.positions sha256 item).map fun positions => positions.foldl setBit filter

def contains (filter : BloomFilter) (item : Text) : Option Bool :=
  (filter.positions sha256 item).map fun positions => positions.all filter.getBit

/-! ## Bits -/

variable {filter : BloomFilter} {position other : Nat}

theorem toNat_mask (position : Nat) : (mask position).toNat = 2 ^ (position % 8) := by
  have each : ∀ place < 8, ((1 : UInt8) <<< place.toUInt8).toNat = 2 ^ place := by decide
  exact each _ (Nat.mod_lt _ (by decide))

theorem masked_iff (byte : UInt8) (position : Nat) :
    (byte &&& mask position != 0) = byte.toNat.testBit (position % 8) := by
  have value : (byte &&& mask position).toNat = (byte.toNat.testBit (position % 8)).toNat * 2 ^ (position % 8) := by
    rw [UInt8.toNat_and, toNat_mask, Nat.and_two_pow]
  have zero : byte &&& mask position = 0 ↔ (byte &&& mask position).toNat = 0 := by
    rw [← UInt8.toNat_inj]; rfl
  rw [Bool.eq_iff_iff, bne_iff_ne, ne_eq, zero, value]
  cases byte.toNat.testBit (position % 8) <;> simp

theorem getBit_eq : filter.getBit position =
    (filter.bits.getD (position / 8) 0).toNat.testBit (position % 8) := masked_iff _ _

theorem or_mask_of_masked {byte : UInt8} (set : byte.toNat.testBit (position % 8) = true) :
    byte ||| mask position = byte := by
  rw [← UInt8.toNat_inj, UInt8.toNat_or, toNat_mask]
  apply Nat.eq_of_testBit_eq
  intro place
  rw [Nat.testBit_or, Nat.testBit_two_pow]
  by_cases same : position % 8 = place
  · rw [← same, set, Bool.true_or]
  · rw [decide_eq_false same, Bool.or_false]

theorem getBit_setBit (inside : position < filter.size) :
    (filter.setBit position).getBit other = (filter.getBit other || decide (position = other)) := by
  have room : position / 8 < filter.bits.length := by
    rw [filter.room]
    exact Nat.lt_succ_of_le (Nat.div_le_div_right (Nat.le_of_lt inside))
  rw [getBit_eq, getBit_eq, setBit, List.getD_eq_getElem?_getD, List.getD_eq_getElem?_getD,
    List.getElem?_modify]
  by_cases cell : position / 8 = other / 8
  · have same : position % 8 = other % 8 ↔ position = other := by omega
    rw [← cell, List.getElem?_eq_getElem room]
    simp only [if_true, Option.map_eq_map, Option.map_some, Option.getD_some, UInt8.toNat_or,
      toNat_mask, Nat.testBit_or, Nat.testBit_two_pow, same]
  · have apart : position ≠ other := by rintro rfl; exact cell rfl
    simp only [if_neg cell, id_map', decide_eq_false apart, Bool.or_false]

theorem setBit_known (set : filter.getBit position = true) : filter.setBit position = filter := by
  have same : filter.bits.modify (position / 8) (· ||| mask position) = filter.bits := by
    apply List.ext_getElem?
    intro cell
    rw [List.getElem?_modify]
    by_cases here : position / 8 = cell
    · rw [getBit_eq, here, List.getD_eq_getElem?_getD] at set
      cases byte : filter.bits[cell]? with
      | none => rfl
      | some byte =>
        rw [byte, Option.getD_some] at set
        simp only [if_pos here, Option.map_eq_map, Option.map_some, or_mask_of_masked set]
    · simp only [if_neg here, id_map']
  rw [setBit]
  simp only [same]

/-! ## Items -/

@[simp] theorem positions_setBit (item : Text) :
    (filter.setBit position).positions sha256 item = filter.positions sha256 item := rfl

@[simp] theorem positions_setBits (places : List Nat) (item : Text) :
    (places.foldl setBit filter).positions sha256 item = filter.positions sha256 item := by
  induction places generalizing filter with
  | nil => rfl
  | cons place rest ih => rw [List.foldl_cons, ih, positions_setBit]

theorem lt_size_of_mem_positions {item : Text} {places : List Nat}
    (computed : filter.positions sha256 item = some places) : ∀ place ∈ places, place < filter.size := by
  have small : ∀ (seeds : List Nat) (places : List Nat), (seeds.mapM fun seed =>
      (encodeUtf8 (decimal seed ++ Text.ofString ":" ++ item)).map fun bytes =>
        sha256 bytes % filter.size) = some places → ∀ place ∈ places, place < filter.size := by
    intro seeds
    induction seeds with
    | nil =>
      intro places computed
      simp only [List.mapM_nil, Option.pure_def, Option.some.injEq] at computed
      simp [← computed]
    | cons seed seeds ih =>
      intro places computed
      simp only [List.mapM_cons, Option.bind_eq_bind, Option.bind_eq_some_iff, Option.pure_def,
        Option.some.injEq, Option.map_eq_some_iff] at computed
      obtain ⟨first, ⟨bytes, -, digest⟩, rest, tail, rfl⟩ := computed
      intro place member
      cases List.mem_cons.mp member with
      | inl same => rw [same, ← digest]; exact Nat.mod_lt _ filter.size_pos
      | inr member => exact ih rest tail place member
  exact small _ _ computed

theorem getBit_setBits {places : List Nat} (inside : ∀ place ∈ places, place < filter.size) :
    (places.foldl setBit filter).getBit other = (filter.getBit other || decide (other ∈ places)) := by
  induction places generalizing filter with
  | nil => simp
  | cons place rest ih =>
    have later : ∀ place' ∈ rest, place' < (filter.setBit place).size :=
      fun place' member => inside place' (List.mem_cons_of_mem _ member)
    rw [List.foldl_cons, ih later, getBit_setBit (inside place List.mem_cons_self), Bool.or_assoc]
    congr 1
    rw [Bool.eq_iff_iff]
    simp only [Bool.or_eq_true, decide_eq_true_eq, List.mem_cons, @eq_comm _ place]

theorem setBits_known {places : List Nat} (set : places.all filter.getBit = true) :
    places.foldl setBit filter = filter := by
  induction places with
  | nil => rfl
  | cons place rest ih =>
    rw [List.all_cons, Bool.and_eq_true] at set
    rw [List.foldl_cons, setBit_known set.1, ih set.2]

/-- An item has positions exactly when it can be encoded: the seed before it is ASCII. -/
theorem isSome_positions (filter : BloomFilter) (item : Text) :
    (filter.positions sha256 item).isSome = (encodeUtf8 item).isSome := by
  have seeded : ∀ seed, (encodeUtf8 (decimal seed ++ Text.ofString ":" ++ item)).isSome =
      (encodeUtf8 item).isSome := by
    intro seed
    have ascii : IsAscii (decimal seed ++ Text.ofString ":") := by
      intro c member
      cases List.mem_append.mp member with
      | inl digit =>
        have range := isDigit_iff.mp (isDigit_of_mem_decimal digit)
        omega
      | inr colon =>
        have same : c = 58 := by simpa [Text.ofString] using colon
        omega
    have plain := isSome_encodeUtf8 (decimal seed ++ Text.ofString ":")
    rw [encodeUtf8_ascii ascii, Option.isSome_some] at plain
    rw [isSome_encodeUtf8, isSome_encodeUtf8, List.all_append, ← plain, Bool.true_and]
  rw [positions, isSome_mapM]
  simp only [Option.isSome_map, seeded]
  cases (encodeUtf8 item).isSome with
  | true => simp
  | false =>
    rw [List.all_eq_false]
    exact ⟨0, List.mem_range.mpr filter.hashes_pos, by decide⟩

theorem add_eq {item : Text} {places : List Nat} (computed : filter.positions sha256 item = some places) :
    filter.add sha256 item = some (places.foldl setBit filter) := by
  rw [add, computed, Option.map_some]

theorem contains_eq {item : Text} {places : List Nat}
    (computed : filter.positions sha256 item = some places) :
    filter.contains sha256 item = some (places.all filter.getBit) := by
  rw [contains, computed, Option.map_some]

/-- An item that cannot be encoded counts as seen, so that it never gets through. -/
def sieve : Sieve BloomFilter Text where
  has filter item := (filter.contains sha256 item).getD true
  add filter item := (filter.add sha256 item).getD filter
  has_add := by
    intro filter item
    cases computed : filter.positions sha256 item with
    | none => simp [add, contains, computed]
    | some places =>
      have inside := lt_size_of_mem_positions sha256 computed
      rw [add_eq sha256 computed, Option.getD_some,
        contains_eq sha256 ((positions_setBits sha256 places item).trans computed), Option.getD_some,
        List.all_eq_true]
      intro place member
      rw [getBit_setBits inside, decide_eq_true member, Bool.or_true]
  has_mono := by
    intro filter item other known
    cases computed : filter.positions sha256 item with
    | none => simpa [add, computed] using known
    | some places =>
      have inside := lt_size_of_mem_positions sha256 computed
      rw [add_eq sha256 computed, Option.getD_some]
      cases asked : filter.positions sha256 other with
      | none => simp [contains, asked]
      | some wanted =>
        rw [contains_eq sha256 asked, Option.getD_some, List.all_eq_true] at known
        rw [contains_eq sha256 ((positions_setBits sha256 places other).trans asked), Option.getD_some,
          List.all_eq_true]
        intro place member
        rw [getBit_setBits inside, known place member, Bool.true_or]
  add_known := by
    intro filter item known
    cases computed : filter.positions sha256 item with
    | none => simp [add, computed]
    | some places =>
      rw [contains_eq sha256 computed, Option.getD_some] at known
      rw [add_eq sha256 computed, Option.getD_some, setBits_known known]

end BloomFilter

end DataPipeline.Ingestor
