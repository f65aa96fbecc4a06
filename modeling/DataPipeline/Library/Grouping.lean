import Mathlib.Data.List.Sort
import Mathlib.Data.List.Dedup
import Mathlib.Data.List.Induction
import Mathlib.Data.List.Perm.Basic
import Mathlib.Tactic.Common
import DataPipeline.Library.Table

/-! Rows grouped by a key, latest key first, in two ways.

A dictionary of lists takes the rows one by one and is sorted in the end; a
query collects the keys and looks for the rows of each. Neither depends on the
order of the rows, beyond the order within a group.
-/

set_option autoImplicit false

namespace Grouping

variable {Row Key Value : Type} [LinearOrder Key] (keyOf : Row → Key)

/-- Appends a row to the list of its key, which is new if need be. -/
def append (row : Row) : List (Key × List Row) → List (Key × List Row)
  | [] => [(keyOf row, [row])]
  | (key, members) :: rest =>
    if key = keyOf row then (key, members ++ [row]) :: rest else (key, members) :: append row rest

/-- What a `defaultdict(list)` holds after all rows have been appended. -/
def collect (rows : List Row) : List (Key × List Row) :=
  rows.foldl (fun groups row => append keyOf row groups) []

/-- The items of a dictionary with the greatest key first. -/
def descending (groups : List (Key × Value)) : List (Key × Value) :=
  groups.insertionSort fun first second => second.1 ≤ first.1

/-- The keys of the rows without repetition, the greatest first. -/
def keys (rows : List Row) : List Key := (rows.map keyOf).dedup.insertionSort fun first second => second ≤ first

/-- `GROUP BY` a key and `ORDER BY` it, descending. -/
def groupBy (rows : List Row) : List (Key × List Row) :=
  (keys keyOf rows).map fun key => (key, rows.filter (keyOf · = key))

variable {keyOf} {rows others : List Row} {row : Row} {key : Key}

theorem mem_keys : key ∈ keys keyOf rows ↔ ∃ row ∈ rows, keyOf row = key := by
  rw [keys, List.mem_insertionSort, List.mem_dedup, List.mem_map]

theorem nodup_keys (rows : List Row) : (keys keyOf rows).Nodup :=
  (List.perm_insertionSort _ _).nodup_iff.mpr (List.nodup_dedup _)

theorem eq_of_descending {first second : List Key} (firstSorted : first.Pairwise fun a b => b ≤ a)
    (secondSorted : second.Pairwise fun a b => b ≤ a) (firstDistinct : first.Nodup) (secondDistinct : second.Nodup)
    (same : ∀ key, key ∈ first ↔ key ∈ second) : first = second :=
  ((List.perm_ext_iff_of_nodup firstDistinct secondDistinct).mpr same).eq_of_pairwise
    (fun _ _ _ _ below above => le_antisymm above below) firstSorted secondSorted

theorem sorted_keys (rows : List Row) : (keys keyOf rows).Pairwise fun first second => second ≤ first :=
  List.pairwise_insertionSort (fun first second : Key => second ≤ first) _

theorem keys_perm (perm : rows.Perm others) : keys keyOf rows = keys keyOf others := by
  apply eq_of_descending (sorted_keys rows) (sorted_keys others) (nodup_keys rows) (nodup_keys others)
  intro key
  simp only [mem_keys, perm.mem_iff]

/-! ## A dictionary of lists -/

/-- The dictionary has each key once, with all rows that have it. -/
structure Collected (keyOf : Row → Key) (rows : List Row) (groups : List (Key × List Row)) : Prop where
  distinct : (groups.map Prod.fst).Nodup
  keys : ∀ key, key ∈ groups.map Prod.fst ↔ ∃ row ∈ rows, keyOf row = key
  members : ∀ group ∈ groups, group.2 = rows.filter (keyOf · = group.1)

theorem mem_keys_append (row : Row) (groups : List (Key × List Row)) (key : Key) :
    key ∈ (append keyOf row groups).map Prod.fst ↔ key ∈ groups.map Prod.fst ∨ keyOf row = key := by
  induction groups with
  | nil => simp [append, eq_comm]
  | cons group rest ih =>
    obtain ⟨own, members⟩ := group
    rw [append]
    split
    next same =>
      simp only [List.map_cons, List.mem_cons, same, eq_comm]
      tauto
    next =>
      simp only [List.map_cons, List.mem_cons, ih]
      tauto

theorem nodup_append {groups : List (Key × List Row)} (row : Row) (distinct : (groups.map Prod.fst).Nodup) :
    ((append keyOf row groups).map Prod.fst).Nodup := by
  induction groups with
  | nil => simp [append]
  | cons group rest ih =>
    obtain ⟨own, members⟩ := group
    rw [List.map_cons, List.nodup_cons] at distinct
    rw [append]
    split
    next => exact List.nodup_cons.mpr distinct
    next other =>
      rw [List.map_cons, List.nodup_cons, mem_keys_append]
      refine ⟨?_, ih distinct.2⟩
      rintro (member | same)
      · exact distinct.1 member
      · exact other same.symm

theorem mem_append {groups : List (Key × List Row)} (distinct : (groups.map Prod.fst).Nodup) {group : Key × List Row}
    (member : group ∈ append keyOf row groups) :
    (group ∈ groups ∧ group.1 ≠ keyOf row) ∨
    (group.1 = keyOf row ∧ ((∃ members, (group.1, members) ∈ groups ∧ group.2 = members ++ [row]) ∨
      (keyOf row ∉ groups.map Prod.fst ∧ group.2 = [row]))) := by
  induction groups with
  | nil =>
    rw [append, List.mem_singleton] at member
    subst member
    exact .inr ⟨rfl, .inr ⟨List.not_mem_nil, rfl⟩⟩
  | cons first rest ih =>
    obtain ⟨own, members⟩ := first
    rw [List.map_cons, List.nodup_cons] at distinct
    rw [append] at member
    split at member
    next same =>
      rcases List.mem_cons.mp member with rfl | member
      · exact .inr ⟨same, .inl ⟨members, List.mem_cons_self, rfl⟩⟩
      · refine .inl ⟨List.mem_cons_of_mem _ member, fun equal => distinct.1 ?_⟩
        rw [same, ← equal]
        exact List.mem_map.mpr ⟨group, member, rfl⟩
    next other =>
      rcases List.mem_cons.mp member with rfl | member
      · exact .inl ⟨List.mem_cons_self, other⟩
      · rcases ih distinct.2 member with ⟨kept, different⟩ | ⟨same, ⟨before, listed, grown⟩ | ⟨missing, single⟩⟩
        · exact .inl ⟨List.mem_cons_of_mem _ kept, different⟩
        · exact .inr ⟨same, .inl ⟨before, List.mem_cons_of_mem _ listed, grown⟩⟩
        · refine .inr ⟨same, .inr ⟨?_, single⟩⟩
          rw [List.map_cons, List.mem_cons, not_or]
          exact ⟨fun equal => other equal.symm, missing⟩

theorem Collected.append {groups : List (Key × List Row)} (collected : Collected keyOf rows groups) (row : Row) :
    Collected keyOf (rows ++ [row]) (append keyOf row groups) where
  distinct := nodup_append row collected.distinct
  keys key := by
    rw [mem_keys_append, collected.keys]
    simp [or_and_right, exists_or]
  members group member := by
    rw [List.filter_append]
    rcases mem_append collected.distinct member with
      ⟨kept, different⟩ | ⟨same, ⟨before, listed, grown⟩ | ⟨missing, single⟩⟩
    · simp [collected.members group kept, Ne.symm different]
    · have members := collected.members _ listed
      simp only at members
      simp [grown, members, same]
    · have nothing : rows.filter (keyOf · = group.1) = [] := by
        rw [List.filter_eq_nil_iff]
        intro other otherMember equal
        rw [decide_eq_true_eq, same] at equal
        exact missing ((collected.keys _).mpr ⟨other, otherMember, equal⟩)
      rw [single, nothing]
      simp [same]

theorem collected_collect (rows : List Row) : Collected keyOf rows (collect keyOf rows) := by
  induction rows using List.reverseRecOn with
  | nil => exact ⟨List.nodup_nil, by simp [collect], nofun⟩
  | append_singleton rows row ih =>
    rw [collect, List.foldl_append]
    exact ih.append row

theorem exists_group (keyOf : Row → Key) (member : row ∈ rows) : ∃ group ∈ collect keyOf rows, row ∈ group.2 := by
  have collected : Collected keyOf rows (collect keyOf rows) := collected_collect rows
  obtain ⟨group, listed, own⟩ := List.mem_map.mp ((collected.keys (keyOf row)).mpr ⟨row, member, rfl⟩)
  refine ⟨group, listed, ?_⟩
  rw [collected.members group listed]
  exact List.mem_filter.mpr ⟨member, decide_eq_true own.symm⟩

theorem group_sublist {group : Key × List Row} (listed : group ∈ collect keyOf rows) : group.2.Sublist rows := by
  have collected : Collected keyOf rows (collect keyOf rows) := collected_collect rows
  rw [collected.members group listed]
  exact List.filter_sublist

theorem append_map {Other : Type} (change : Other → Row) (row : Other) (groups : List (Key × List Other)) :
    append keyOf (change row) (groups.map fun group => (group.1, group.2.map change)) =
      (append (fun row => keyOf (change row)) row groups).map fun group => (group.1, group.2.map change) := by
  induction groups with
  | nil => rfl
  | cons group rest ih =>
    rw [List.map_cons, append, append]
    split
    next => simp
    next => rw [ih, List.map_cons]

theorem collect_concat (rows : List Row) (row : Row) :
    collect keyOf (rows ++ [row]) = append keyOf row (collect keyOf rows) := by
  rw [collect, List.foldl_append]
  rfl

theorem collect_map {Other : Type} (change : Other → Row) (rows : List Other) :
    collect keyOf (rows.map change) =
      (collect (fun row => keyOf (change row)) rows).map fun group => (group.1, group.2.map change) := by
  induction rows using List.reverseRecOn with
  | nil => rfl
  | append_singleton rows row ih =>
    rw [List.map_append, List.map_singleton, collect_concat, collect_concat, ih]
    exact append_map change row _

theorem descending_map {Other : Type} (change : Value → Other) (groups : List (Key × Value)) :
    descending (groups.map fun group => (group.1, change group.2)) =
      (descending groups).map fun group => (group.1, change group.2) := by
  symm
  apply List.map_insertionSort (r := fun first second : Key × Value => second.1 ≤ first.1)
  intro first _ second _
  exact Iff.rfl

theorem entries_collect {make : List Row → List Value} (nothing : make [] = []) (rows : List Row) (key : Key) :
    ((collect keyOf rows).filter (fun group => group.1 = key)).flatMap (fun group => make group.2) =
      make (rows.filter (keyOf · = key)) := by
  have collected : Collected keyOf rows (collect keyOf rows) := collected_collect rows
  by_cases present : key ∈ (collect keyOf rows).map Prod.fst
  · obtain ⟨group, member, rfl⟩ := List.mem_map.mp present
    rw [Table.filter_field collected.distinct member, List.flatMap_singleton, collected.members group member]
  · have missing : (collect keyOf rows).filter (fun group => group.1 = key) = [] := by
      apply List.filter_eq_nil_iff.mpr
      intro group member same
      exact present (List.mem_map.mpr ⟨group, member, of_decide_eq_true same⟩)
    have none : rows.filter (keyOf · = key) = [] := by
      apply List.filter_eq_nil_iff.mpr
      intro row member same
      exact present ((collected.keys key).mpr ⟨row, member, of_decide_eq_true same⟩)
    rw [missing, none, nothing, List.flatMap_nil]

/-- The dictionary gives the groups that the query gives. -/
theorem descending_collect (rows : List Row) : descending (collect keyOf rows) = groupBy keyOf rows := by
  have collected : Collected keyOf rows (collect keyOf rows) := collected_collect rows
  have perm : (descending (collect keyOf rows)).Perm (collect keyOf rows) := List.perm_insertionSort _ _
  have sorted : ((descending (collect keyOf rows)).map Prod.fst).Pairwise fun first second => second ≤ first := by
    rw [List.pairwise_map]
    exact List.pairwise_insertionSort (fun first second : Key × List Row => second.1 ≤ first.1) _
  have sameKeys : (descending (collect keyOf rows)).map Prod.fst = keys keyOf rows := by
    apply eq_of_descending sorted (sorted_keys rows) _ (nodup_keys rows)
    · intro key
      rw [(perm.map Prod.fst).mem_iff, collected.keys, mem_keys]
    · exact (perm.map Prod.fst).nodup_iff.mpr collected.distinct
  rw [groupBy, ← sameKeys, List.map_map]
  conv_lhs => rw [← List.map_id (descending (collect keyOf rows))]
  apply List.map_congr_left
  intro group member
  exact Prod.ext rfl (collected.members group (perm.mem_iff.mp member))

/-! ## What is made of the groups -/

/-- What does not depend on the order within a group does not depend on the order of the rows. -/
theorem map_groupBy_perm {make : Key → List Row → Value} (perm : rows.Perm others)
    (invariant : ∀ key first second, List.Perm first second → make key first = make key second) :
    ((groupBy keyOf rows).map fun group => make group.1 group.2) =
      (groupBy keyOf others).map fun group => make group.1 group.2 := by
  rw [groupBy, groupBy, keys_perm perm, List.map_map, List.map_map]
  apply List.map_congr_left
  intro key _
  exact invariant key _ _ (perm.filter _)

theorem mem_groupBy {members : List Row} :
    (key, members) ∈ groupBy keyOf rows ↔ members = rows.filter (keyOf · = key) ∧ members ≠ [] := by
  constructor
  · intro member
    obtain ⟨own, isKey, same⟩ := List.mem_map.mp member
    cases same
    obtain ⟨row, listed, sameKey⟩ := mem_keys.mp isKey
    exact ⟨rfl, List.ne_nil_of_mem (List.mem_filter.mpr ⟨listed, decide_eq_true sameKey⟩)⟩
  · rintro ⟨rfl, nonempty⟩
    obtain ⟨row, listed⟩ := List.exists_mem_of_ne_nil _ nonempty
    obtain ⟨member, sameKey⟩ := List.mem_filter.mp listed
    exact List.mem_map.mpr ⟨key, mem_keys.mpr ⟨row, member, of_decide_eq_true sameKey⟩, rfl⟩

theorem groupBy_map {Source : Type} (project : Source → Row) (rows : List Source) :
    groupBy keyOf (rows.map project) =
      (groupBy (fun source => keyOf (project source)) rows).map fun group => (group.1, group.2.map project) := by
  have same : keys keyOf (rows.map project) = keys (fun source => keyOf (project source)) rows := by
    rw [keys, keys, List.map_map]
    rfl
  rw [groupBy, groupBy, same, List.map_map]
  apply List.map_congr_left
  intro key _
  simp only [Function.comp_apply, List.filter_map]
  rfl

theorem sorted_groupBy (rows : List Row) :
    (groupBy keyOf rows).Pairwise fun first second => second.1 ≤ first.1 := by
  rw [groupBy, List.pairwise_map]
  exact sorted_keys rows

theorem groupBy_eq_nil_iff : groupBy keyOf rows = [] ↔ rows = [] := by
  rw [groupBy, List.map_eq_nil_iff, List.eq_nil_iff_forall_not_mem, List.eq_nil_iff_forall_not_mem]
  simp only [mem_keys]
  constructor
  · intro none row member
    exact none (keyOf row) ⟨row, member, rfl⟩
  · rintro none key ⟨row, member, -⟩
    exact none row member

theorem strict_keys (rows : List Row) : (keys keyOf rows).Pairwise fun first second => second < first := by
  refine (List.pairwise_and_iff.mpr ⟨sorted_keys rows, nodup_keys rows⟩).imp ?_
  rintro first second ⟨order, different⟩
  exact lt_of_le_of_ne order different.symm

theorem flatMap_filter_perm (rows : List Row) {chosen : List Key} (distinct : chosen.Nodup) :
    (chosen.flatMap fun key => rows.filter (keyOf · = key)).Perm (rows.filter (keyOf · ∈ chosen)) := by
  induction chosen with
  | nil => simp
  | cons key chosen ih =>
    obtain ⟨fresh, distinct⟩ := List.nodup_cons.mp distinct
    have own : (rows.filter (keyOf · ∈ key :: chosen)).filter (keyOf · = key) = rows.filter (keyOf · = key) := by
      rw [List.filter_filter]
      refine List.filter_congr fun row _ => ?_
      by_cases same : keyOf row = key <;> simp [same]
    have other : (rows.filter (keyOf · ∈ key :: chosen)).filter (fun row => !decide (keyOf row = key)) =
        rows.filter (keyOf · ∈ chosen) := by
      rw [List.filter_filter]
      refine List.filter_congr fun row _ => ?_
      by_cases same : keyOf row = key
      · simp [same, fresh]
      · simp [same]
    have split := List.filter_append_perm (fun row => decide (keyOf row = key)) (rows.filter (keyOf · ∈ key :: chosen))
    rw [own, other] at split
    rw [List.flatMap_cons]
    exact ((ih distinct).append_left _).trans split

/-- Together the groups have every row once. -/
theorem flatMap_groupBy_perm (rows : List Row) : ((groupBy keyOf rows).flatMap Prod.snd).Perm rows := by
  have all : rows.filter (keyOf · ∈ keys keyOf rows) = rows :=
    List.filter_eq_self.mpr fun row member => decide_eq_true (mem_keys.mpr ⟨row, member, rfl⟩)
  have perm : ((keys keyOf rows).flatMap fun key => rows.filter (keyOf · = key)).Perm
      (rows.filter (keyOf · ∈ keys keyOf rows)) := flatMap_filter_perm rows (nodup_keys rows)
  rw [all] at perm
  rwa [groupBy, List.flatMap_map]

end Grouping
