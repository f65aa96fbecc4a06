import Mathlib.Logic.Function.Basic
import Mathlib.Order.Lattice

/-! Key-value stores whose entries expire, as `SETEX`, `GET` and `DEL` see them. -/

set_option autoImplicit false

/-- A value is kept with the last instant at which it can be read. -/
structure Expiring (Key Value Time : Type) where
  entries : Key → Option (Value × Time)

namespace Expiring

variable {Key Value Time : Type} [DecidableEq Key] [LinearOrder Time]

def empty : Expiring Key Value Time := ⟨fun _ => none⟩

def get (store : Expiring Key Value Time) (now : Time) (key : Key) : Option Value :=
  match store.entries key with
  | some (value, expiry) => if now ≤ expiry then some value else none
  | none => none

def setex (store : Expiring Key Value Time) (key : Key) (expiry : Time) (value : Value) :
    Expiring Key Value Time :=
  ⟨Function.update store.entries key (some (value, expiry))⟩

def delete (store : Expiring Key Value Time) (key : Key) : Expiring Key Value Time :=
  ⟨Function.update store.entries key none⟩

variable {store : Expiring Key Value Time} {key other : Key} {now later expiry : Time} {value : Value}

omit [DecidableEq Key] in
@[simp] theorem get_empty : (empty : Expiring Key Value Time).get now key = none := rfl

theorem get_setex :
    (store.setex key expiry value).get now other =
      if other = key then (if now ≤ expiry then some value else none) else store.get now other := by
  by_cases same : other = key
  · rw [same, if_pos rfl]
    simp only [get, setex, Function.update_self]
  · rw [if_neg same]
    simp only [get, setex, Function.update_of_ne same]

theorem get_delete :
    (store.delete key).get now other = if other = key then none else store.get now other := by
  by_cases same : other = key
  · rw [same, if_pos rfl]
    simp only [get, delete, Function.update_self]
  · rw [if_neg same]
    simp only [get, delete, Function.update_of_ne same]

omit [DecidableEq Key] in
theorem get_of_later (order : now ≤ later) (found : store.get later key = some value) :
    store.get now key = some value := by
  unfold get at found ⊢
  split at found
  next kept expiry entry =>
    rw [Option.ite_none_right_eq_some] at found
    rw [if_pos (le_trans order found.1), found.2]
  next => cases found

end Expiring
