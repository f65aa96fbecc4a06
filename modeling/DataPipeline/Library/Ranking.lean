import Mathlib.Data.List.Sort
import Mathlib.Data.List.Nodup
import Mathlib.Data.Prod.Lex

/-! Ranks of rows by a key, the greatest key first.

A query counts the rows that come before a row, so that rows of one key share a
rank; a program sorts the rows and numbers them. The two are one where keys
are distinct, and any ranking can be refined to such a key.
-/

set_option autoImplicit false

namespace Ranking

variable {Row Key : Type} [LinearOrder Key]

/-- `RANK() OVER (ORDER BY key DESC)` -/
def rank (keyOf : Row → Key) (rows : List Row) (row : Row) : Nat :=
  rows.countP (fun other => keyOf row < keyOf other) + 1

/-- Rows in the order of a key, the greatest first. Rows of one key stay as they are. -/
def descending (keyOf : Row → Key) (rows : List Row) : List Row :=
  rows.insertionSort fun first second => keyOf second ≤ keyOf first

variable {keyOf : Row → Key} {rows others : List Row} {row other : Row} {limit : Nat}

/-! ## Counting -/

theorem countP_lt {smaller larger : Row → Bool} (implies : ∀ row ∈ rows, smaller row = true → larger row = true)
    (member : row ∈ rows) (outside : smaller row = false) (inside : larger row = true) :
    rows.countP smaller < rows.countP larger := by
  obtain ⟨before, after, rfl⟩ := List.append_of_mem member
  have first : before.countP smaller ≤ before.countP larger :=
    List.countP_mono_left fun row listed => implies row (List.mem_append_left _ listed)
  have second : after.countP smaller ≤ after.countP larger :=
    List.countP_mono_left fun row listed => implies row (List.mem_append_right _ (List.mem_cons_of_mem _ listed))
  rw [List.countP_append, List.countP_append, List.countP_cons, List.countP_cons, outside, inside]
  simp only [if_true, Bool.false_eq_true, if_false]
  omega

theorem rank_perm (perm : rows.Perm others) (row : Row) : rank keyOf rows row = rank keyOf others row := by
  rw [rank, rank, perm.countP_eq]

theorem rank_lt (member : other ∈ rows) (greater : keyOf row < keyOf other) :
    rank keyOf rows other < rank keyOf rows row := by
  apply Nat.succ_lt_succ
  apply countP_lt _ member (decide_eq_false (lt_irrefl _)) (decide_eq_true greater)
  intro third _ beyond
  exact decide_eq_true (greater.trans (of_decide_eq_true beyond))

theorem rank_le (notLess : keyOf row ≤ keyOf other) : rank keyOf rows other ≤ rank keyOf rows row := by
  apply Nat.succ_le_succ
  apply List.countP_mono_left
  intro third _ beyond
  exact decide_eq_true (lt_of_le_of_lt notLess (of_decide_eq_true beyond))

theorem key_eq_of_rank_eq (member : row ∈ rows) (otherMember : other ∈ rows)
    (same : rank keyOf rows row = rank keyOf rows other) : keyOf row = keyOf other := by
  rcases lt_trichotomy (keyOf row) (keyOf other) with less | equal | greater
  · exact absurd same (rank_lt otherMember less).ne'
  · exact equal
  · exact absurd same (rank_lt member greater).ne

/-! ## Sorting -/

/-- Sorting only asks whether a row may stand before one that came after it. -/
theorem insertionSort_congr {first second : Row → Row → Prop} [DecidableRel first] [DecidableRel second]
    (alike : rows.Pairwise fun row later => (first row later ↔ second row later)) :
    rows.insertionSort first = rows.insertionSort second := by
  have insert_congr : ∀ (row : Row) (sorted : List Row), (∀ later ∈ sorted, (first row later ↔ second row later)) →
      sorted.orderedInsert first row = sorted.orderedInsert second row := by
    intro row sorted same
    induction sorted with
    | nil => rfl
    | cons head tail ih =>
      rw [List.orderedInsert, List.orderedInsert, ih fun later listed => same later (List.mem_cons_of_mem _ listed)]
      exact if_congr (same head List.mem_cons_self) rfl rfl
  induction rows with
  | nil => rfl
  | cons row rows ih =>
    rw [List.pairwise_cons] at alike
    rw [List.insertionSort_cons, List.insertionSort_cons, ih alike.2]
    exact insert_congr row _ fun later listed => alike.1 later ((List.mem_insertionSort _).mp listed)

theorem descending_descending {Minor : Type} [LinearOrder Minor] {minorOf : Row → Minor}
    (sorted : rows.Pairwise fun first second => minorOf second < minorOf first) :
    descending keyOf rows = descending (fun row => toLex (keyOf row, minorOf row)) rows := by
  apply insertionSort_congr
  apply sorted.imp
  intro first second later
  rw [Prod.Lex.toLex_le_toLex]
  constructor
  · intro notGreater
    exact notGreater.lt_or_eq.imp_right fun same => ⟨same, later.le⟩
  · rintro (less | ⟨same, -⟩)
    · exact less.le
    · exact same.le

theorem descending_map {Other : Type} (change : Other → Row) (rows : List Other) :
    descending keyOf (rows.map change) = (descending (fun row => keyOf (change row)) rows).map change := by
  symm
  apply List.map_insertionSort (r := fun first second : Other => keyOf (change second) ≤ keyOf (change first))
  intro first _ second _
  exact Iff.rfl

theorem descending_perm (keyOf : Row → Key) (rows : List Row) : (descending keyOf rows).Perm rows :=
  List.perm_insertionSort _ rows

theorem sorted_descending (distinct : (rows.map keyOf).Nodup) :
    (descending keyOf rows).Pairwise fun first second => keyOf second < keyOf first := by
  have ordered := List.pairwise_insertionSort (fun first second => keyOf second ≤ keyOf first) rows
  have different : (descending keyOf rows).Pairwise fun first second => keyOf first ≠ keyOf second := by
    rw [← List.pairwise_map]
    exact ((descending_perm keyOf rows).map keyOf).nodup_iff.mpr distinct
  exact (ordered.and different).imp fun both => lt_of_le_of_ne both.1 both.2.symm

theorem descending_append {upper lower : List Row} (parts : rows.Perm (upper ++ lower))
    (distinct : (rows.map keyOf).Nodup) (above : ∀ high ∈ upper, ∀ low ∈ lower, keyOf low < keyOf high) :
    descending keyOf rows = descending keyOf upper ++ descending keyOf lower := by
  have distinctParts : (upper.map keyOf ++ lower.map keyOf).Nodup := by
    rw [← List.map_append]
    exact (parts.map keyOf).nodup_iff.mp distinct
  have ordered : (descending keyOf upper ++ descending keyOf lower).Pairwise
      fun first second => keyOf second < keyOf first := by
    refine List.pairwise_append.mpr ⟨sorted_descending distinctParts.of_append_left,
      sorted_descending distinctParts.of_append_right, fun high isHigh low isLow => ?_⟩
    exact above high ((descending_perm _ _).mem_iff.mp isHigh) low ((descending_perm _ _).mem_iff.mp isLow)
  have perm : (descending keyOf rows).Perm (descending keyOf upper ++ descending keyOf lower) :=
    (descending_perm keyOf rows).trans
      (parts.trans ((descending_perm keyOf upper).append (descending_perm keyOf lower)).symm)
  exact perm.eq_of_pairwise (fun _ _ _ _ less greater => absurd less (lt_asymm greater))
    (sorted_descending distinct) ordered

theorem rank_getElem {sorted : List Row} (order : sorted.Pairwise fun first second => keyOf second < keyOf first)
    (index : Nat) (inside : index < sorted.length) : rank keyOf sorted sorted[index] = index + 1 := by
  rw [List.pairwise_iff_getElem] at order
  have before : (sorted.take index).countP (fun other => keyOf sorted[index] < keyOf other) = index := by
    rw [List.countP_eq_length.mpr, List.length_take, Nat.min_eq_left inside.le]
    intro other listed
    obtain ⟨place, bound, rfl⟩ := List.mem_take_iff_getElem.mp listed
    exact decide_eq_true (order place index _ inside (by omega))
  have after : (sorted.drop index).countP (fun other => keyOf sorted[index] < keyOf other) = 0 := by
    rw [List.countP_eq_zero]
    intro other listed less
    obtain ⟨place, bound, rfl⟩ := List.mem_drop_iff_getElem.mp listed
    rcases Nat.eq_zero_or_pos place with rfl | positive
    · exact lt_irrefl _ (of_decide_eq_true less)
    · exact lt_asymm (of_decide_eq_true less) (order index (index + place) inside _ (by omega))
  have split : sorted.countP (fun other => keyOf sorted[index] < keyOf other) =
      (sorted.take index).countP (fun other => keyOf sorted[index] < keyOf other) +
        (sorted.drop index).countP (fun other => keyOf sorted[index] < keyOf other) := by
    rw [← List.countP_append, List.take_append_drop]
  rw [rank, split, before, after]

theorem map_mapIdx {Value Shown : Type} (reveal : Value → Shown) (make : Nat → Row → Value) (rows : List Row) :
    (rows.mapIdx make).map reveal = rows.mapIdx fun index row => reveal (make index row) := by
  apply List.ext_getElem?
  intro index
  simp only [List.getElem?_map, List.getElem?_mapIdx, Option.map_map]
  rfl

theorem mapIdx_descending {Value : Type} (make : Row → Nat → Value) (distinct : (rows.map keyOf).Nodup) :
    ((descending keyOf rows).mapIdx fun index row => make row (index + 1)) =
      (descending keyOf rows).map fun row => make row (rank keyOf rows row) := by
  apply List.ext_getElem
  · rw [List.length_mapIdx, List.length_map]
  · intro index inside _
    rw [List.length_mapIdx] at inside
    rw [List.getElem_mapIdx, List.getElem_map, ← rank_perm (descending_perm keyOf rows),
      rank_getElem (sorted_descending distinct) index inside]

/-! ## The first rows -/

/-- Rows whose ranks are within the limit. -/
def top (keyOf : Row → Key) (limit : Nat) (rows : List Row) : List Row := rows.filter (rank keyOf rows · ≤ limit)

theorem mem_top : row ∈ top keyOf limit rows ↔ row ∈ rows ∧ rank keyOf rows row ≤ limit := by
  rw [top, List.mem_filter, decide_eq_true_eq]

theorem filter_eq_take {keep : Row → Bool} (limit : Nat)
    (exact : ∀ index (inside : index < rows.length), keep rows[index] = true ↔ index < limit) :
    rows.filter keep = rows.take limit := by
  induction rows generalizing limit with
  | nil => rw [List.filter_nil, List.take_nil]
  | cons row rows ih =>
    cases limit with
    | zero =>
      rw [List.take_zero, List.filter_eq_nil_iff]
      intro other listed kept
      obtain ⟨index, inside, rfl⟩ := List.mem_iff_getElem.mp listed
      exact Nat.not_lt_zero _ ((exact index inside).mp kept)
    | succ limit =>
      have first : keep row = true := (exact 0 (Nat.zero_lt_succ _)).mpr (Nat.zero_lt_succ _)
      rw [List.filter_cons_of_pos first, List.take_succ_cons]
      rw [ih limit fun index inside => (exact (index + 1) (Nat.succ_lt_succ inside)).trans Nat.succ_lt_succ_iff]

theorem take_descending_perm (distinct : (rows.map keyOf).Nodup) (limit : Nat) :
    ((descending keyOf rows).take limit).Perm (top keyOf limit rows) := by
  have order := sorted_descending distinct
  have first : (descending keyOf rows).filter (rank keyOf rows · ≤ limit) = (descending keyOf rows).take limit := by
    apply filter_eq_take
    intro index inside
    rw [decide_eq_true_eq, ← rank_perm (descending_perm keyOf rows), rank_getElem order index inside,
      Nat.succ_le_iff]
  rw [← first]
  exact (descending_perm keyOf rows).filter _

theorem length_top (distinct : (rows.map keyOf).Nodup) (limit : Nat) :
    (top keyOf limit rows).length = min limit rows.length := by
  rw [← (take_descending_perm distinct limit).length_eq, List.length_take, (descending_perm keyOf rows).length_eq]

/-- The rows within the limit, told by their ids, and their ranks. -/
def numbered {Id : Type} (idOf : Row → Id) (keyOf : Row → Key) (limit : Nat) (rows : List Row) : List (Id × Nat) :=
  (top keyOf limit rows).map fun row => (idOf row, rank keyOf rows row)

theorem numbered_perm {Id : Type} (idOf : Row → Id) (perm : rows.Perm others) :
    (numbered idOf keyOf limit rows).Perm (numbered idOf keyOf limit others) := by
  have sameRank : rank keyOf rows = rank keyOf others := funext (rank_perm perm)
  rw [numbered, numbered, top, top, sameRank]
  exact (perm.filter _).map _

/-- What a program gets that sorts the rows, cuts the list and numbers the rest. -/
theorem numbered_take {Id : Type} (idOf : Row → Id) (distinct : (rows.map keyOf).Nodup) (limit : Nat) :
    (((descending keyOf rows).take limit).mapIdx fun index row => (idOf row, index + 1)).Perm
      (numbered idOf keyOf limit rows) := by
  have numbers := mapIdx_descending (fun row number => (idOf row, number)) distinct
  have cut : (((descending keyOf rows).take limit).mapIdx fun index row => (idOf row, index + 1)) =
      ((descending keyOf rows).mapIdx fun index row => (idOf row, index + 1)).take limit := by
    apply List.ext_getElem?
    intro index
    simp only [List.getElem?_mapIdx, List.getElem?_take]
    split <;> rfl
  rw [cut, numbers, ← List.map_take]
  exact (take_descending_perm distinct limit).map _

theorem le_of_mem_take (keyOf : Row → Key) {bound : Key}
    (ordered : rows.Pairwise fun first second => keyOf first ≤ keyOf second)
    (enough : limit ≤ rows.countP fun row => keyOf row ≤ bound) (listed : row ∈ rows.take limit) :
    keyOf row ≤ bound := by
  obtain ⟨index, inside, rfl⟩ := List.mem_take_iff_getElem.mp listed
  rw [List.pairwise_iff_getElem] at ordered
  by_contra large
  -- Then all that follow are as large, and those before are too few.
  have rest : (rows.drop index).countP (fun row => keyOf row ≤ bound) = 0 := by
    rw [List.countP_eq_zero]
    intro other after small
    obtain ⟨place, _, rfl⟩ := List.mem_drop_iff_getElem.mp after
    rcases Nat.eq_zero_or_pos place with rfl | positive
    · exact large (of_decide_eq_true small)
    · exact large ((ordered index (index + place) _ _ (by omega)).trans (of_decide_eq_true small))
  have few : (rows.take index).countP (fun row => keyOf row ≤ bound) ≤ index :=
    List.countP_le_length.trans (by rw [List.length_take]; exact Nat.min_le_left _ _)
  rw [← List.take_append_drop index rows, List.countP_append, rest] at enough
  omega

theorem labelled_perm_iff {Id Value : Type} {idOf : Row → Id} (ids : (rows.map idOf).Nodup)
    (first second : Row → Value) :
    (rows.map fun row => (idOf row, first row)).Perm (rows.map fun row => (idOf row, second row)) ↔
      ∀ row ∈ rows, first row = second row := by
  constructor
  · intro perm row member
    obtain ⟨other, otherMember, same⟩ := List.mem_map.mp (perm.mem_iff.mp (List.mem_map_of_mem member))
    cases List.inj_on_of_nodup_map ids otherMember member (congrArg Prod.fst same)
    exact (congrArg Prod.snd same).symm
  · intro same
    exact List.Perm.of_eq (List.map_congr_left fun row member => by rw [same row member])

/-! ## Two rankings -/

section

variable {Rough : Type} [LinearOrder Rough] {roughOf : Row → Rough}

theorem le_length_top (distinct : (rows.map keyOf).Nodup) (roughOf : Row → Rough) (limit : Nat) :
    min limit rows.length ≤ (top roughOf limit rows).length := by
  -- Ties are broken by the key that is distinct.
  have finer : (rows.map fun row => toLex (roughOf row, keyOf row)).Nodup := by
    apply List.Nodup.of_map fun both => (ofLex both).2
    rwa [List.map_map]
  rw [← length_top finer]
  apply List.Sublist.length_le
  apply List.monotone_filter_right
  intro row within
  rw [decide_eq_true_eq] at within ⊢
  refine le_trans (Nat.succ_le_succ (List.countP_mono_left fun other _ beyond => ?_)) within
  exact decide_eq_true (Prod.Lex.toLex_lt_toLex.mpr (.inl (of_decide_eq_true beyond)))

/-- If rows within the limit of a rough ranking have these ranks in a ranking
without ties, then the two rankings agree on all that is within the limit of either. -/
theorem ranks_agree (distinct : (rows.map keyOf).Nodup)
    (agree : ∀ row ∈ rows, rank roughOf rows row ≤ limit → rank keyOf rows row = rank roughOf rows row) :
    top keyOf limit rows = top roughOf limit rows := by
  have kept : (top roughOf limit rows).Sublist (top keyOf limit rows) := by
    have twice : top roughOf limit rows = (top keyOf limit rows).filter (rank roughOf rows · ≤ limit) := by
      rw [top, top, List.filter_filter]
      apply List.filter_congr
      intro row member
      rw [Bool.eq_iff_iff, Bool.and_eq_true, decide_eq_true_eq, decide_eq_true_eq, iff_self_and]
      intro within
      rwa [agree row member within]
    rw [twice]
    exact List.filter_sublist
  -- There is no room for more.
  refine (kept.eq_of_length_le ?_).symm
  rw [length_top distinct]
  exact le_length_top distinct roughOf limit

/-- The rows within the limit and their ranks are those of the other ranking
exactly if the ranks are the same wherever the other one is within the limit. -/
theorem numbered_perm_iff {Id : Type} {idOf : Row → Id} (ids : (rows.map idOf).Nodup)
    (distinct : (rows.map keyOf).Nodup) :
    (numbered idOf keyOf limit rows).Perm (numbered idOf roughOf limit rows) ↔
      ∀ row ∈ rows, rank roughOf rows row ≤ limit → rank keyOf rows row = rank roughOf rows row := by
  constructor
  · intro perm row member within
    have listed := perm.mem_iff.mpr (List.mem_map.mpr ⟨row, mem_top.mpr ⟨member, within⟩, rfl⟩)
    obtain ⟨other, otherListed, same⟩ := List.mem_map.mp listed
    cases List.inj_on_of_nodup_map ids (mem_top.mp otherListed).1 member (congrArg Prod.fst same)
    exact congrArg Prod.snd same
  · intro agree
    rw [numbered, ranks_agree distinct agree]
    refine List.Perm.of_eq (List.map_congr_left fun row listed => ?_)
    obtain ⟨member, within⟩ := mem_top.mp listed
    rw [agree row member within]

end

end Ranking
