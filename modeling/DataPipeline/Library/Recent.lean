import Mathlib.Data.List.Basic

/-! A cache of the results of a function that forgets the key used longest ago.

What it holds is a prefix of the list that is kept by moving each key to the
front when it is used.
-/

set_option autoImplicit false

namespace Recent

variable {Key Value : Type} [DecidableEq Key]

/-- Entries with the one used last first. -/
abbrev Cache (Key Value : Type) := List (Key × Value)

/-- One call through a cache of some size. The function is only called for a key
that is not held; it may raise, and then nothing is remembered. -/
def call (size : Nat) (f : Key → Value) (cache : Cache Key Value) (key : Key) (raises : Bool) :
    Cache Key Value × Option Value :=
  match cache.lookup key with
  | some value => ((key, value) :: cache.eraseP (·.1 = key), some value)
  | none => if raises then (cache, none) else (((key, f key) :: cache).take size, some (f key))

/-- The keys in the order of their last use. -/
def moveToFront (used : List Key) (key : Key) : List Key := key :: used.erase key

def order (used : List Key) : List Key := used.foldl moveToFront []

@[simp] theorem order_nil : order ([] : List Key) = [] := rfl

@[simp] theorem order_concat (used : List Key) (key : Key) :
    order (used ++ [key]) = key :: (order used).erase key := by
  rw [order, List.foldl_append]
  rfl

/-! ## Prefixes -/

theorem erase_take {keys : List Key} {key : Key} {size : Nat} (member : key ∈ keys.take (size + 1)) :
    (keys.take (size + 1)).erase key = (keys.erase key).take size := by
  induction keys generalizing size with
  | nil => cases member
  | cons first keys ih =>
    rw [List.take_succ_cons] at member ⊢
    by_cases same : first = key
    · rw [same, List.erase_cons_head, List.erase_cons_head]
    · rw [List.erase_cons_tail (by simpa using same), List.erase_cons_tail (by simpa using same)]
      rcases List.mem_cons.mp member with rfl | later
      · exact absurd rfl same
      · cases size with
        | zero => cases later
        | succ size => rw [ih later, List.take_succ_cons]

theorem take_erase {keys : List Key} {key : Key} {size : Nat} (absent : key ∉ keys.take size) :
    (keys.erase key).take size = keys.take size := by
  induction keys generalizing size with
  | nil => rfl
  | cons first keys ih =>
    cases size with
    | zero => rfl
    | succ size =>
      rw [List.take_succ_cons, List.mem_cons, not_or] at absent
      rw [List.erase_cons_tail (by simpa using Ne.symm absent.1), List.take_succ_cons, List.take_succ_cons,
        ih absent.2]

/-! ## What a cache holds -/

/-- The cache holds the results for the keys used last, as many as it has room for. -/
structure Holds (f : Key → Value) (size : Nat) (used : List Key) (cache : Cache Key Value) : Prop where
  keys : cache.map Prod.fst = (order used).take size
  values : ∀ entry ∈ cache, entry.2 = f entry.1

variable {f : Key → Value} {size : Nat} {used : List Key} {cache : Cache Key Value} {key : Key} {raises : Bool}

theorem Holds.nil (f : Key → Value) (size : Nat) : Holds f size [] [] where
  keys := by simp
  values := fun _ member => absurd member List.not_mem_nil

theorem Holds.length_le (holds : Holds f size used cache) : cache.length ≤ size := by
  have keys := congrArg List.length holds.keys
  rw [List.length_map] at keys
  rw [keys]
  exact List.length_take_le size _

theorem Holds.lookup_of_mem (holds : Holds f size used cache) (recent : key ∈ (order used).take size) :
    cache.lookup key = some (f key) := by
  rw [← holds.keys] at recent
  obtain ⟨⟨own, value⟩, member, rfl⟩ := List.mem_map.mp recent
  cases found : cache.lookup own with
  | none =>
    have apart := List.lookup_eq_none_iff.mp found _ member
    simp at apart
  | some value =>
    obtain ⟨before, after, split, -⟩ := List.lookup_eq_some_iff.mp found
    have inside : (own, value) ∈ cache := by
      rw [split]
      exact List.mem_append_right _ List.mem_cons_self
    exact congrArg some (holds.values _ inside)

theorem Holds.lookup_of_not_mem (holds : Holds f size used cache) (absent : key ∉ (order used).take size) :
    cache.lookup key = none := by
  rw [← holds.keys] at absent
  refine List.lookup_eq_none_iff.mpr fun entry member => ?_
  rw [bne_iff_ne]
  rintro rfl
  exact absent (List.mem_map_of_mem member)

theorem map_eraseP (cache : Cache Key Value) (key : Key) :
    (cache.eraseP (·.1 = key)).map Prod.fst = (cache.map Prod.fst).erase key := by
  induction cache with
  | nil => rfl
  | cons entry cache ih =>
    rw [List.eraseP_cons, List.map_cons, List.erase_cons]
    by_cases same : entry.1 = key
    · simp [same]
    · simp [same, ih]

theorem Holds.call_of_mem (holds : Holds f size used cache) (recent : key ∈ (order used).take size) (raises : Bool) :
    (call size f cache key raises).2 = some (f key) ∧
      Holds f size (used ++ [key]) (call size f cache key raises).1 := by
  rw [call, holds.lookup_of_mem recent]
  refine ⟨rfl, ?_, ?_⟩
  · cases size with
    | zero => cases recent
    | succ size =>
      rw [List.map_cons, map_eraseP, holds.keys, erase_take recent, order_concat, List.take_succ_cons]
  · intro entry member
    rcases List.mem_cons.mp member with rfl | member
    · rfl
    · exact holds.values entry (List.mem_of_mem_eraseP member)

theorem Holds.call_of_not_mem (holds : Holds f size used cache) (absent : key ∉ (order used).take size) :
    (call size f cache key false).2 = some (f key) ∧
      Holds f size (used ++ [key]) (call size f cache key false).1 := by
  rw [call, holds.lookup_of_not_mem absent]
  refine ⟨rfl, ?_, ?_⟩
  · cases size with
    | zero => simp
    | succ size =>
      have smaller : key ∉ (order used).take size := fun member =>
        absent (List.take_subset_take_left _ (Nat.le_succ size) member)
      rw [if_neg Bool.false_ne_true, List.map_take, List.map_cons, holds.keys, order_concat, List.take_succ_cons,
        List.take_succ_cons, List.take_take, Nat.min_eq_left (Nat.le_succ size), take_erase smaller]
  · intro entry member
    rw [if_neg Bool.false_ne_true] at member
    rcases List.mem_cons.mp (List.mem_of_mem_take member) with rfl | member
    · rfl
    · exact holds.values entry member

theorem Holds.call_of_raises (holds : Holds f size used cache) (absent : key ∉ (order used).take size) :
    call size f cache key true = (cache, none) := by
  rw [call, holds.lookup_of_not_mem absent]
  rfl

/-! ## Calls one after another -/

/-- Calls for one key after another, up to the first that raises. -/
def calls (size : Nat) (f : Key → Value) : Cache Key Value → List (Key × Bool) → Cache Key Value × Option (List Value)
  | cache, [] => (cache, some [])
  | cache, (key, raises) :: rest =>
    match call size f cache key raises with
    | (cache, none) => (cache, none)
    | (cache, some value) =>
      let (cache, values) := calls size f cache rest
      (cache, values.map (value :: ·))

/-- The keys used after the calls, and whether none of them raises: the function
is only called for a key that is not among those used last. -/
def answered (size : Nat) : List Key → List (Key × Bool) → List Key × Bool
  | used, [] => (used, true)
  | used, (key, raises) :: rest =>
    if raises = true ∧ key ∉ (order used).take size then (used, false) else answered size (used ++ [key]) rest

theorem answered_of_fails (rest : List (Key × Bool)) (fails : raises = true ∧ key ∉ (order used).take size) :
    answered size used ((key, raises) :: rest) = (used, false) :=
  if_pos fails

theorem answered_of_works (rest : List (Key × Bool)) (works : ¬ (raises = true ∧ key ∉ (order used).take size)) :
    answered size used ((key, raises) :: rest) = answered size (used ++ [key]) rest :=
  if_neg works

theorem Holds.call_of_fails (holds : Holds f size used cache)
    (fails : raises = true ∧ key ∉ (order used).take size) : call size f cache key raises = (cache, none) := by
  rw [fails.1, holds.call_of_raises fails.2]

theorem Holds.call_of_works (holds : Holds f size used cache)
    (works : ¬ (raises = true ∧ key ∉ (order used).take size)) :
    ∃ next, call size f cache key raises = (next, some (f key)) ∧ Holds f size (used ++ [key]) next := by
  have called : (call size f cache key raises).2 = some (f key) ∧
      Holds f size (used ++ [key]) (call size f cache key raises).1 := by
    by_cases recent : key ∈ (order used).take size
    · exact holds.call_of_mem recent raises
    · cases raises with
      | true => exact absurd ⟨rfl, recent⟩ works
      | false => exact holds.call_of_not_mem recent
  exact ⟨_, Prod.ext rfl called.1, called.2⟩

/-- Calls through the cache are answered as `answered` says. -/
theorem Holds.calls (holds : Holds f size used cache) (attempts : List (Key × Bool)) :
    ∃ next, calls size f cache attempts =
        (next, if (answered size used attempts).2 then some (attempts.map fun attempt => f attempt.1) else none) ∧
      Holds f size (answered size used attempts).1 next := by
  induction attempts generalizing used cache with
  | nil => exact ⟨cache, rfl, holds⟩
  | cons attempt rest ih =>
    obtain ⟨key, raises⟩ := attempt
    rw [Recent.calls]
    by_cases fails : raises = true ∧ key ∉ (order used).take size
    · rw [holds.call_of_fails fails, answered_of_fails rest fails]
      exact ⟨cache, rfl, holds⟩
    · obtain ⟨middle, called, held⟩ := holds.call_of_works fails
      obtain ⟨next, called', kept⟩ := ih held
      rw [called, answered_of_works rest fails]
      refine ⟨next, ?_, kept⟩
      dsimp only
      rw [called']
      dsimp only
      split <;> rfl

end Recent
