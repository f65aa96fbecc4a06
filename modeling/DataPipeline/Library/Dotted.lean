import Mathlib.Data.List.Basic

/-! Names made of parts with dots between them, as module names are. -/

set_option autoImplicit false

namespace Dotted

/-- `name.split(".")` -/
def parts (name : String) : List String := (name.toList.splitOn '.').map String.ofList

/-- `name.startswith(start)` -/
def startsWith (start name : String) : Bool := start.toList.isPrefixOf name.toList

/-- A name is its own package, and a package's name and a dot begin the names below it. -/
def isUnder (package name : String) : Bool := name = package || startsWith (package ++ ".") name

theorem parts_ne_nil (name : String) : parts name ≠ [] := by
  rw [parts, ne_eq, List.map_eq_nil_iff]
  exact List.splitOn_ne_nil _ _

theorem parts_injective {name other : String} (same : parts name = parts other) : name = other := by
  have split : name.toList.splitOn '.' = other.toList.splitOn '.' :=
    (List.map_inj_right fun _ _ => String.ofList_injective).mp same
  have whole : ['.'].intercalate (name.toList.splitOn '.') = name.toList := List.intercalate_splitOn '.'
  rw [split, List.intercalate_splitOn] at whole
  exact (String.toList_inj.mp whole).symm

theorem intercalate_append {Char : Type} (separator : List Char) {first rest : List (List Char)}
    (nonempty : first ≠ []) (more : rest ≠ []) :
    separator.intercalate (first ++ rest) =
      separator.intercalate first ++ separator ++ separator.intercalate rest := by
  induction first with
  | nil => exact absurd rfl nonempty
  | cons part first ih =>
    cases first with
    | nil => rw [List.singleton_append, List.intercalate_cons_of_ne_nil more, List.intercalate_singleton]
    | cons next first =>
      have later : next :: first ≠ [] := List.cons_ne_nil next first
      rw [List.cons_append, List.intercalate_cons_of_ne_nil (List.append_ne_nil_of_left_ne_nil later _),
        ih later, List.intercalate_cons_of_ne_nil later]
      simp only [List.append_assoc]

theorem isUnder_iff {package name : String} :
    isUnder package name = true ↔ parts package <+: parts name := by
  rw [isUnder, Bool.or_eq_true, decide_eq_true_eq, startsWith, List.isPrefixOf_iff_prefix,
    String.toList_append]
  constructor
  · intro either
    cases either with
    | inl same => exact same ▸ List.prefix_refl _
    | inr below =>
      obtain ⟨rest, split⟩ := below
      refine ⟨(rest.splitOn '.').map String.ofList, ?_⟩
      rw [parts, parts, ← split, ← List.map_append, List.append_assoc, ← List.splitOn_append_cons_self]
      rfl
  · intro begins
    have inner : package.toList.splitOn '.' <+: name.toList.splitOn '.' :=
      (List.prefix_map_iff_of_injective fun _ _ => String.ofList_injective).mp begins
    obtain ⟨rest, split⟩ := inner
    have whole : ['.'].intercalate (name.toList.splitOn '.') = name.toList := List.intercalate_splitOn '.'
    rw [← split] at whole
    cases rest with
    | nil =>
      rw [List.append_nil, List.intercalate_splitOn] at whole
      exact .inl (String.toList_inj.mp whole.symm)
    | cons part rest =>
      rw [intercalate_append _ (List.splitOn_ne_nil _ _) (by simp), List.intercalate_splitOn] at whole
      exact .inr ⟨_, whole⟩

end Dotted
