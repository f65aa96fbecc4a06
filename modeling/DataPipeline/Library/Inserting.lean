import DataPipeline.Library.Table

/-! Inserting several rows into a table, by statements that insert all of their
rows or none, in a session that shows nothing before it commits.
-/

set_option autoImplicit false

namespace Table

variable {Row Id Key : Type} {idOf : Row → Id} {keyOf : Row → Key} [DecidableEq Id] [DecidableEq Key]
  {table after : Table idOf keyOf} {row : Row} {rows : List Row}

/-- One INSERT of several rows. None stands for a key that is there twice. -/
def insertAll (table : Table idOf keyOf) (rows : List Row) : Option (Table idOf keyOf) := rows.foldlM insert? table

theorem insertAll_cons : table.insertAll (row :: rows) = (table.insert? row).bind fun next => next.insertAll rows :=
  List.foldlM_cons

theorem insertAll_rows (inserted : table.insertAll rows = some after) : after.rows = table.rows ++ rows := by
  induction rows generalizing table with
  | nil =>
    cases inserted
    rw [List.append_nil]
  | cons row rows ih =>
    rw [insertAll_cons] at inserted
    obtain ⟨next, one, others⟩ := Option.bind_eq_some_iff.mp inserted
    rw [ih others, insert?_rows one, List.append_assoc, List.singleton_append]

theorem insertAll_isSome_iff (distinct : (rows.map idOf).Nodup) (new : ∀ row ∈ rows, idOf row ∉ table.issued) :
    (table.insertAll rows).isSome = true ↔ (table.rows.map keyOf ++ rows.map keyOf).Nodup := by
  induction rows generalizing table with
  | nil =>
    rw [List.map_nil, List.append_nil]
    exact iff_of_true rfl table.keys_nodup
  | cons row rows ih =>
    rw [List.map_cons, List.nodup_cons] at distinct
    have fresh : idOf row ∉ table.issued := new row List.mem_cons_self
    rw [insertAll_cons]
    cases inserted : table.insert? row with
    | none =>
      obtain ⟨old, found⟩ := (insert?_eq_none_iff fresh).mp inserted
      obtain ⟨present, sameKey⟩ := findKey?_eq_some_iff.mp found
      refine iff_of_false (by simp) fun nodup => ?_
      have apart := (List.nodup_append.mp nodup).2.2
      exact apart _ (List.mem_map_of_mem present) _ List.mem_cons_self sameKey
    | some next =>
      have newLater : ∀ other ∈ rows, idOf other ∉ next.issued := by
        intro other member
        rw [(insert?_fresh inserted).2, List.mem_cons, not_or]
        refine ⟨fun same => distinct.1 ?_, new other (List.mem_cons_of_mem _ member)⟩
        rw [← same]
        exact List.mem_map_of_mem member
      rw [Option.bind_some, ih distinct.2 newLater, insert?_rows inserted, List.map_append, List.map_singleton,
        List.append_assoc, List.singleton_append, List.map_cons]

theorem insertAll_congr {others : List Row} (sameKeys : rows.map keyOf = others.map keyOf)
    (distinct : (rows.map idOf).Nodup) (new : ∀ row ∈ rows, idOf row ∉ table.issued)
    (distinctOthers : (others.map idOf).Nodup) (newOthers : ∀ row ∈ others, idOf row ∉ table.issued) :
    (table.insertAll rows).isSome = (table.insertAll others).isSome := by
  rw [Bool.eq_iff_iff, insertAll_isSome_iff distinct new, insertAll_isSome_iff distinctOthers newOthers, sameKeys]

/-! ## Sessions -/

/-- What others see, and what the session has made of it since. -/
structure Session (idOf : Row → Id) (keyOf : Row → Key) where
  committed : Table idOf keyOf
  working : Table idOf keyOf

namespace Session

def start (table : Table idOf keyOf) : Session idOf keyOf := ⟨table, table⟩

/-- A statement that fails is the end of the transaction. -/
def insert (session : Session idOf keyOf) (rows : List Row) : Option (Session idOf keyOf) :=
  (session.working.insertAll rows).map fun working => { session with working }

def commit (session : Session idOf keyOf) : Table idOf keyOf := session.working

theorem insert_nil (session : Session idOf keyOf) : session.insert [] = some session := rfl

/-- Rows may be spread over several statements of one transaction. -/
theorem insert_append (session : Session idOf keyOf) (first rest : List Row) :
    session.insert (first ++ rest) = (session.insert first).bind fun next => next.insert rest := by
  rw [insert, insert, insertAll, insertAll, List.foldlM_append]
  cases inserted : first.foldlM insert? session.working with
  | none => rfl
  | some working => rfl

end Session

end Table
