import DataPipeline.Library.Ranking

/-! Loops and sorts over calls that may raise. -/

set_option autoImplicit false

namespace Raising

variable {Item Value Error Row Key : Type}

theorem mapM_ok {compute : Item → Except Error Value} {value : Item → Value} {items : List Item}
    (each : ∀ item ∈ items, compute item = .ok (value item)) : items.mapM compute = .ok (items.map value) := by
  induction items with
  | nil => rfl
  | cons item items ih =>
    rw [List.mapM_cons, each item List.mem_cons_self,
      ih fun item member => each item (List.mem_cons_of_mem _ member)]
    rfl

theorem ok_of_mapM {compute : Item → Except Error Value} {items : List Item} {values : List Value}
    (finished : items.mapM compute = .ok values) :
    ∀ item ∈ items, ∃ value ∈ values, compute item = .ok value := by
  induction items generalizing values with
  | nil => nofun
  | cons first items ih =>
    rw [List.mapM_cons] at finished
    cases head : compute first with
    | error error => rw [head] at finished; cases finished
    | ok value =>
      cases tail : items.mapM compute with
      | error error => rw [head, tail] at finished; cases finished
      | ok rest =>
        rw [head, tail] at finished
        have shape : value :: rest = values := Except.ok.inj finished
        rw [← shape]
        intro item member
        cases List.mem_cons.mp member with
        | inl same => rw [same]; exact ⟨value, List.mem_cons_self, head⟩
        | inr later =>
          obtain ⟨found, listed, computed⟩ := ih tail item later
          exact ⟨found, List.mem_cons_of_mem _ listed, computed⟩

/-- A stable sort, greatest first. Which pairs it compares is left open: it may raise
whenever some comparison does, and what it returns it has only reordered. -/
structure Sorting (Error : Type) where
  sort : {Row : Type} → (Row → Row → Except Error Bool) → List Row → Except Error (List Row)
  perm : ∀ {Row : Type} {less : Row → Row → Except Error Bool} {rows sorted : List Row},
    sort less rows = .ok sorted → sorted.Perm rows
  sorts : ∀ {Row Key : Type} [LinearOrder Key] {keyOf : Row → Key} {less : Row → Row → Except Error Bool}
    {rows : List Row}, (∀ first ∈ rows, ∀ second ∈ rows,
      less first second = .ok (decide (keyOf first < keyOf second))) →
    sort less rows = .ok (Ranking.descending keyOf rows)

/-! ## By insertion -/

def insert (less : Row → Row → Except Error Bool) (row : Row) : List Row → Except Error (List Row)
  | [] => .ok [row]
  | head :: tail => do
    if ← less row head then
      let inserted ← insert less row tail
      return head :: inserted
    else return row :: head :: tail

def insertionSort (less : Row → Row → Except Error Bool) : List Row → Except Error (List Row)
  | [] => .ok []
  | row :: rest => do
    let sorted ← insertionSort less rest
    insert less row sorted

variable {less : Row → Row → Except Error Bool} {row : Row} {rows sorted : List Row}

theorem insert_perm (inserted : insert less row rows = .ok sorted) : sorted.Perm (row :: rows) := by
  induction rows generalizing sorted with
  | nil =>
    rw [← Except.ok.inj inserted]
  | cons head tail ih =>
    rw [insert] at inserted
    cases compared : less row head with
    | error error => rw [compared] at inserted; cases inserted
    | ok smaller =>
      rw [compared] at inserted
      cases smaller with
      | false => rw [← Except.ok.inj inserted]
      | true =>
        cases later : insert less row tail with
        | error error =>
          simp only [later] at inserted
          cases inserted
        | ok rest =>
          simp only [later] at inserted
          rw [← Except.ok.inj inserted]
          exact ((ih later).cons head).trans (List.Perm.swap row head tail)

theorem insertionSort_perm (finished : insertionSort less rows = .ok sorted) : sorted.Perm rows := by
  induction rows generalizing sorted with
  | nil => rw [← Except.ok.inj finished]
  | cons row rows ih =>
    rw [insertionSort] at finished
    cases earlier : insertionSort less rows with
    | error error => rw [earlier] at finished; cases finished
    | ok middle =>
      rw [earlier] at finished
      exact (insert_perm finished).trans ((ih earlier).cons row)

section

variable [LinearOrder Key] {keyOf : Row → Key}

theorem insert_ok (compares : ∀ other ∈ rows, less row other = .ok (decide (keyOf row < keyOf other))) :
    insert less row rows =
      .ok (rows.orderedInsert (fun first second => keyOf second ≤ keyOf first) row) := by
  induction rows with
  | nil => rfl
  | cons head tail ih =>
    rw [insert, compares head List.mem_cons_self, List.orderedInsert,
      ih fun other member => compares other (List.mem_cons_of_mem _ member)]
    by_cases smaller : keyOf row < keyOf head
    · rw [decide_eq_true smaller, if_neg (not_le.mpr smaller)]
      rfl
    · rw [decide_eq_false smaller, if_pos (not_lt.mp smaller)]
      rfl

theorem insertionSort_ok (compares : ∀ first ∈ rows, ∀ second ∈ rows,
      less first second = .ok (decide (keyOf first < keyOf second))) :
    insertionSort less rows = .ok (Ranking.descending keyOf rows) := by
  induction rows with
  | nil => rfl
  | cons row rows ih =>
    have rest : insertionSort less rows = .ok (Ranking.descending keyOf rows) :=
      ih fun first firstIn second secondIn =>
        compares first (List.mem_cons_of_mem _ firstIn) second (List.mem_cons_of_mem _ secondIn)
    rw [insertionSort, rest]
    exact insert_ok fun other member => compares row List.mem_cons_self other
      (List.mem_cons_of_mem _ ((List.mem_insertionSort _).mp member))

end

def Sorting.byInsertion : Sorting Error where
  sort := insertionSort
  perm := insertionSort_perm
  sorts := insertionSort_ok

end Raising
