import Mathlib.Data.List.Basic

/-! Labelled trees of any width, and the breadth-first walk over one. -/

set_option autoImplicit false

inductive Rose (Label : Type) where
  | node (label : Label) (children : List (Rose Label))

namespace Rose

variable {Label : Type}

mutual

def count : Rose Label → Nat
  | node _ children => 1 + countAll children

def countAll : List (Rose Label) → Nat
  | [] => 0
  | tree :: rest => count tree + countAll rest

end

theorem countAll_append (first rest : List (Rose Label)) :
    countAll (first ++ rest) = countAll first + countAll rest := by
  induction first with
  | nil => rw [List.nil_append, countAll, Nat.zero_add]
  | cons tree first ih => rw [List.cons_append, countAll, countAll, ih, Nat.add_assoc]

/-- A queue gives its first node and takes that node's children at its end. -/
def walk : List (Rose Label) → List Label
  | [] => []
  | node label children :: queue => label :: walk (queue ++ children)
termination_by queue => countAll queue
decreasing_by rw [countAll_append, countAll, count]; omega

/-- A label is that of the root or occurs, at any depth, below it. -/
inductive Occurs : Label → Rose Label → Prop where
  | root {label : Label} {children : List (Rose Label)} : Occurs label (node label children)
  | deeper {label other : Label} {children : List (Rose Label)} {child : Rose Label} :
      child ∈ children → Occurs label child → Occurs label (node other children)

theorem occurs_node {label other : Label} {children : List (Rose Label)} :
    Occurs label (node other children) ↔ label = other ∨ ∃ child ∈ children, Occurs label child := by
  constructor
  · intro occurs
    cases occurs with
    | root => exact .inl rfl
    | deeper member occurs => exact .inr ⟨_, member, occurs⟩
  · intro either
    cases either with
    | inl same => rw [same]; exact .root
    | inr found =>
      obtain ⟨child, member, occurs⟩ := found
      exact .deeper member occurs

theorem mem_walk {label : Label} {queue : List (Rose Label)} :
    label ∈ walk queue ↔ ∃ tree ∈ queue, Occurs label tree := by
  induction queue using walk.induct with
  | case1 => simp [walk]
  | case2 other children queue ih =>
    rw [walk, List.mem_cons, ih]
    simp only [List.mem_append, List.mem_cons, or_and_right, exists_or, exists_eq_left, occurs_node, or_assoc]
    exact or_congr_right or_comm

end Rose
