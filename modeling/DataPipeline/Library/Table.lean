import Mathlib.Data.List.Nodup
import Mathlib.Tactic.Common

/-! Tables with a primary key and a unique constraint.

A table cannot hold two rows with one id or with one key, and it remembers
every id it has given out, so that no id is given out twice.
-/

set_option autoImplicit false

structure Table {Row Id Key : Type} (idOf : Row → Id) (keyOf : Row → Key) where
  rows : List Row
  issued : List Id
  ids_nodup : (rows.map idOf).Nodup
  keys_nodup : (rows.map keyOf).Nodup
  ids_issued : ∀ row ∈ rows, idOf row ∈ issued

namespace Table

variable {Row Id Key : Type}

/-! ## What keeps fields distinct -/

theorem nodup_map_append {Field : Type} {fieldOf : Row → Field} {rows : List Row} {row : Row}
    (nodup : (rows.map fieldOf).Nodup) (fresh : ∀ old ∈ rows, fieldOf old ≠ fieldOf row) :
    ((rows ++ [row]).map fieldOf).Nodup := by
  rw [List.map_append, List.nodup_append]
  refine ⟨nodup, by simp, ?_⟩
  intro field member other single same
  obtain ⟨old, present, rfl⟩ := List.mem_map.mp member
  rw [List.map_singleton, List.mem_singleton] at single
  exact fresh old present (same.trans single)

theorem filter_field {Field : Type} [DecidableEq Field] {fieldOf : Row → Field} {rows : List Row} {row : Row}
    (nodup : (rows.map fieldOf).Nodup) (member : row ∈ rows) :
    rows.filter (fun other => fieldOf other = fieldOf row) = [row] := by
  obtain ⟨before, after, rfl⟩ := List.append_of_mem member
  rw [List.map_append, List.map_cons, List.nodup_middle, List.nodup_cons, List.mem_append, not_or] at nodup
  have absent : ∀ others : List Row, fieldOf row ∉ others.map fieldOf →
      others.filter (fun other => fieldOf other = fieldOf row) = [] := by
    intro others missing
    apply List.filter_eq_nil_iff.mpr
    intro other present same
    exact missing (List.mem_map.mpr ⟨other, present, of_decide_eq_true same⟩)
  rw [List.filter_append, List.filter_cons, absent before nodup.1.1, absent after nodup.1.2, decide_eq_true rfl]
  rfl

section

variable {idOf : Row → Id} {keyOf : Row → Key} [DecidableEq Id]

/-- The row put in the place of `old` when `row` replaces the one with its id. -/
def replaced (idOf : Row → Id) (row old : Row) : Row := if idOf old = idOf row then row else old

theorem idOf_replaced (row old : Row) : idOf (replaced idOf row old) = idOf old := by
  unfold replaced
  split
  next same => exact same.symm
  next => rfl

theorem map_idOf_replaced (row : Row) (rows : List Row) :
    (rows.map (replaced idOf row)).map idOf = rows.map idOf := by
  rw [List.map_map]
  exact List.map_congr_left fun old _ => idOf_replaced row old

theorem nodup_keys_replaced {row : Row} {rows : List Row} (ids : (rows.map idOf).Nodup)
    (keys : (rows.map keyOf).Nodup) (unique : ∀ other ∈ rows, keyOf other = keyOf row → idOf other = idOf row) :
    ((rows.map (replaced idOf row)).map keyOf).Nodup := by
  rw [List.Nodup, List.pairwise_map, List.pairwise_map]
  rw [List.Nodup, List.pairwise_map] at ids keys
  apply (ids.and keys).imp_of_mem
  intro first second firstIn secondIn ⟨differentIds, differentKeys⟩ same
  unfold replaced at same
  -- At most one of the two rows has been replaced, since their ids differ.
  split at same <;> split at same
  next firstSame secondSame => exact differentIds (firstSame.trans secondSame.symm)
  next firstSame secondOther => exact secondOther (unique second secondIn same.symm)
  next firstOther secondSame => exact firstOther (unique first firstIn same)
  next => exact differentKeys same

end

/-! ## Operations -/

variable {idOf : Row → Id} {keyOf : Row → Key} [DecidableEq Id] [DecidableEq Key]

def empty : Table idOf keyOf := ⟨[], [], by simp, by simp, by simp⟩

def find? (table : Table idOf keyOf) (id : Id) : Option Row := table.rows.find? (idOf · = id)

def findKey? (table : Table idOf keyOf) (key : Key) : Option Row := table.rows.find? (keyOf · = key)

/-- None if some row has the key already. The id must be a new one. -/
def insert? (table : Table idOf keyOf) (row : Row) : Option (Table idOf keyOf) :=
  if free : idOf row ∉ table.issued ∧ ∀ old ∈ table.rows, keyOf old ≠ keyOf row then
    some
      { rows := table.rows ++ [row]
        issued := idOf row :: table.issued
        ids_nodup := nodup_map_append table.ids_nodup fun _ member same =>
          free.1 (same ▸ table.ids_issued _ member)
        keys_nodup := nodup_map_append table.keys_nodup free.2
        ids_issued := fun _ member =>
          (List.mem_append.mp member).elim (fun member => List.mem_cons_of_mem _ (table.ids_issued _ member))
            fun single => List.mem_singleton.mp single ▸ List.mem_cons_self }
  else none

/-- Puts a row in the place of the one with its id. None if another row has its key. -/
def replace? (table : Table idOf keyOf) (row : Row) : Option (Table idOf keyOf) :=
  if unique : ∀ other ∈ table.rows, keyOf other = keyOf row → idOf other = idOf row then
    some
      { rows := table.rows.map (replaced idOf row)
        issued := table.issued
        ids_nodup := by rw [map_idOf_replaced]; exact table.ids_nodup
        keys_nodup := nodup_keys_replaced table.ids_nodup table.keys_nodup unique
        ids_issued := by
          intro _ member
          obtain ⟨before, present, rfl⟩ := List.mem_map.mp member
          have same : idOf (replaced idOf row before) = idOf before := idOf_replaced row before
          exact same ▸ table.ids_issued before present }
  else none

def erase (table : Table idOf keyOf) (id : Id) : Table idOf keyOf where
  rows := table.rows.filter (idOf · ≠ id)
  issued := table.issued
  ids_nodup := (List.filter_sublist.map idOf).nodup table.ids_nodup
  keys_nodup := (List.filter_sublist.map keyOf).nodup table.keys_nodup
  ids_issued := fun row member => table.ids_issued row (List.mem_of_mem_filter member)

/-! ## What is found -/

variable {table after : Table idOf keyOf} {row other : Row} {id : Id} {key : Key}

omit [DecidableEq Id] [DecidableEq Key] in
theorem eq_of_id (first : row ∈ table.rows) (second : other ∈ table.rows) (same : idOf row = idOf other) :
    row = other :=
  List.inj_on_of_nodup_map table.ids_nodup first second same

omit [DecidableEq Id] [DecidableEq Key] in
theorem eq_of_key (first : row ∈ table.rows) (second : other ∈ table.rows) (same : keyOf row = keyOf other) :
    row = other :=
  List.inj_on_of_nodup_map table.keys_nodup first second same

omit [DecidableEq Key] in
theorem find?_eq_some_iff : table.find? id = some row ↔ row ∈ table.rows ∧ idOf row = id := by
  constructor
  · intro found
    exact ⟨List.mem_of_find?_eq_some found, by simpa using List.find?_some found⟩
  · rintro ⟨member, rfl⟩
    cases found : table.find? (idOf row) with
    | none =>
      have missing := List.find?_eq_none.mp found row member
      simp at missing
    | some other =>
      have same : idOf other = idOf row := by simpa using List.find?_some found
      rw [eq_of_id (List.mem_of_find?_eq_some found) member same]

omit [DecidableEq Key] in
theorem find?_of_mem (member : row ∈ table.rows) : table.find? (idOf row) = some row :=
  find?_eq_some_iff.mpr ⟨member, rfl⟩

omit [DecidableEq Id] in
theorem findKey?_eq_some_iff : table.findKey? key = some row ↔ row ∈ table.rows ∧ keyOf row = key := by
  constructor
  · intro found
    exact ⟨List.mem_of_find?_eq_some found, by simpa using List.find?_some found⟩
  · rintro ⟨member, rfl⟩
    cases found : table.findKey? (keyOf row) with
    | none =>
      have missing := List.find?_eq_none.mp found row member
      simp at missing
    | some other =>
      have same : keyOf other = keyOf row := by simpa using List.find?_some found
      rw [eq_of_key (List.mem_of_find?_eq_some found) member same]

omit [DecidableEq Id] in
theorem findKey?_eq_none_iff : table.findKey? key = none ↔ ∀ row ∈ table.rows, keyOf row ≠ key := by
  simp [findKey?]

theorem insert?_eq_none_iff (fresh : idOf row ∉ table.issued) :
    table.insert? row = none ↔ ∃ old, table.findKey? (keyOf row) = some old := by
  rw [← Option.isSome_iff_exists, ← Option.ne_none_iff_isSome, ne_eq, findKey?_eq_none_iff]
  unfold insert?
  split
  next free => simp only [reduceCtorEq, false_iff, not_not]; exact free.2
  next taken => simp only [true_iff]; exact fun free => taken ⟨fresh, free⟩

theorem insert?_rows (inserted : table.insert? row = some after) : after.rows = table.rows ++ [row] := by
  unfold insert? at inserted
  split at inserted
  next => cases inserted; rfl
  next => cases inserted

theorem insert?_fresh (inserted : table.insert? row = some after) :
    idOf row ∉ table.issued ∧ after.issued = idOf row :: table.issued := by
  unfold insert? at inserted
  split at inserted
  next free => cases inserted; exact ⟨free.1, rfl⟩
  next => cases inserted

theorem mem_insert? (inserted : table.insert? row = some after) :
    other ∈ after.rows ↔ other ∈ table.rows ∨ other = row := by
  rw [insert?_rows inserted, List.mem_append, List.mem_singleton]

theorem mem_insertAll {rows : List Row} (inserted : rows.foldlM insert? table = some after) :
    other ∈ after.rows ↔ other ∈ table.rows ∨ other ∈ rows := by
  induction rows generalizing table with
  | nil =>
    cases inserted
    simp
  | cons first rest ih =>
    rw [List.foldlM_cons] at inserted
    obtain ⟨next, one, others⟩ := Option.bind_eq_some_iff.mp inserted
    rw [ih others, mem_insert? one, List.mem_cons, or_assoc]

omit [DecidableEq Key] in
theorem mapM_find? {rows : List Row} (present : ∀ row ∈ rows, row ∈ table.rows) :
    rows.mapM (fun row => table.find? (idOf row)) = some rows := by
  induction rows with
  | nil => rfl
  | cons first rest ih =>
    have found : table.find? (idOf first) = some first := find?_of_mem (present first List.mem_cons_self)
    simp [List.mapM_cons, found, ih fun row member => present row (List.mem_cons_of_mem _ member)]

theorem replace?_rows (replacing : table.replace? row = some after) :
    after.rows = table.rows.map (replaced idOf row) ∧ after.issued = table.issued := by
  unfold replace? at replacing
  split at replacing
  next => cases replacing; exact ⟨rfl, rfl⟩
  next => cases replacing

theorem replace?_eq_none_iff :
    table.replace? row = none ↔ ∃ other ∈ table.rows, keyOf other = keyOf row ∧ idOf other ≠ idOf row := by
  unfold replace?
  split
  next unique =>
    simp only [reduceCtorEq, false_iff, not_exists, not_and, not_not]
    exact unique
  next taken =>
    simp only [true_iff]
    push Not at taken
    exact taken

theorem replace?_ne_none (member : other ∈ table.rows) (sameId : idOf row = idOf other)
    (sameKey : keyOf row = keyOf other) : table.replace? row ≠ none := by
  intro refused
  obtain ⟨holder, isHolder, key, different⟩ := replace?_eq_none_iff.mp refused
  have same : holder = other := eq_of_key isHolder member (key.trans sameKey)
  rw [same] at different
  exact different sameId.symm

/-- After a replacement the id names the new row, and no other row has changed. -/
theorem mem_replace? (replacing : table.replace? row = some after)
    (present : ∃ old ∈ table.rows, idOf old = idOf row) :
    other ∈ after.rows ↔ other = row ∨ (other ∈ table.rows ∧ idOf other ≠ idOf row) := by
  rw [(replace?_rows replacing).1, List.mem_map]
  constructor
  · rintro ⟨old, member, rfl⟩
    unfold replaced
    split
    next => exact .inl rfl
    next different => exact .inr ⟨member, different⟩
  · rintro (rfl | ⟨member, different⟩)
    · obtain ⟨old, member, same⟩ := present
      exact ⟨old, member, if_pos same⟩
    · exact ⟨other, member, if_neg different⟩

omit [DecidableEq Key] in
theorem mem_erase : other ∈ (table.erase id).rows ↔ other ∈ table.rows ∧ idOf other ≠ id := by
  simp [erase]

theorem find?_insert? (inserted : table.insert? row = some after) :
    after.find? id = if idOf row = id then some row else table.find? id := by
  apply Option.ext
  intro found
  have fresh := (insert?_fresh inserted).1
  rw [find?_eq_some_iff, mem_insert? inserted]
  split
  next same =>
    simp only [Option.some.injEq]
    constructor
    -- An old row with the new id would have had it issued.
    · rintro ⟨member | rfl, named⟩
      · exact absurd (table.ids_issued found member) (by rwa [named, ← same])
      · rfl
    · rintro rfl
      exact ⟨.inr rfl, same⟩
  next different =>
    rw [find?_eq_some_iff]
    constructor
    · rintro ⟨member | rfl, named⟩
      · exact ⟨member, named⟩
      · exact absurd named different
    · rintro ⟨member, named⟩
      exact ⟨.inl member, named⟩

theorem find?_replace? (replacing : table.replace? row = some after)
    (present : ∃ old ∈ table.rows, idOf old = idOf row) :
    after.find? id = if idOf row = id then some row else table.find? id := by
  apply Option.ext
  intro found
  rw [find?_eq_some_iff, mem_replace? replacing present]
  split
  next same =>
    simp only [Option.some.injEq]
    constructor
    · rintro ⟨rfl | ⟨-, other⟩, named⟩
      · rfl
      · exact absurd (named.trans same.symm) other
    · rintro rfl
      exact ⟨.inl rfl, same⟩
  next different =>
    rw [find?_eq_some_iff]
    constructor
    · rintro ⟨rfl | ⟨member, -⟩, named⟩
      · exact absurd named different
      · exact ⟨member, named⟩
    · rintro ⟨member, named⟩
      exact ⟨.inr ⟨member, fun same => different (same ▸ named)⟩, named⟩

omit [DecidableEq Key] in
theorem find?_erase {erased : Id} : (table.erase erased).find? id = if erased = id then none else table.find? id := by
  apply Option.ext
  intro found
  rw [find?_eq_some_iff, mem_erase]
  split
  next same =>
    simp only [reduceCtorEq, iff_false]
    rintro ⟨⟨-, other⟩, named⟩
    exact other (named.trans same.symm)
  next different =>
    rw [find?_eq_some_iff]
    constructor
    · rintro ⟨⟨member, -⟩, named⟩
      exact ⟨member, named⟩
    · rintro ⟨member, named⟩
      exact ⟨⟨member, fun same => different (same.symm.trans named)⟩, named⟩

end Table
