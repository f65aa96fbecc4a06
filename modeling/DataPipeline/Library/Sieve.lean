import Mathlib.Data.List.Nodup

/-! Lists sifted through a set that answers membership approximately.

A sieve may take a key it was never given for one of its own, but it never
forgets a key, so nothing passes it twice.
-/

set_option autoImplicit false

structure Sieve (State Key : Type) where
  has : State → Key → Bool
  add : State → Key → State
  has_add : ∀ state key, has (add state key) key = true
  has_mono : ∀ state key other, has state other = true → has (add state key) other = true
  /-- Adding what is there changes nothing. -/
  add_known : ∀ state key, has state key = true → add state key = state

namespace Sieve

variable {State Key Value : Type} (sieve : Sieve State Key) (key : Value → Key)

def addAll (state : State) (keys : List Key) : State := keys.foldl sieve.add state

/-- The values whose key the sieve lacks when its turn comes, and the sieve after all of them. -/
def sift : State → List Value → List Value × State
  | state, [] => ([], state)
  | state, value :: rest =>
    if sieve.has state (key value) then sift state rest
    else
      let (kept, after) := sift (sieve.add state (key value)) rest
      (value :: kept, after)

/-- How many keys of a list the sieve lacks when their turn comes. -/
def newcomers : State → List Key → Nat
  | _, [] => 0
  | state, key :: rest =>
    (if sieve.has state key then 0 else 1) + newcomers (sieve.add state key) rest

variable {sieve key} {state : State}

theorem sift_known {value : Value} {rest : List Value} (known : sieve.has state (key value) = true) :
    sieve.sift key state (value :: rest) = sieve.sift key state rest := by
  rw [sift, if_pos known]

theorem sift_fresh {value : Value} {rest : List Value} (fresh : sieve.has state (key value) = false) :
    sieve.sift key state (value :: rest) =
      (value :: (sieve.sift key (sieve.add state (key value)) rest).1,
        (sieve.sift key (sieve.add state (key value)) rest).2) := by
  rw [sift, if_neg (by simp [fresh])]

theorem sift_state (values : List Value) :
    (sieve.sift key state values).2 = sieve.addAll state (values.map key) := by
  induction values generalizing state with
  | nil => rfl
  | cons value rest ih =>
    rw [List.map_cons, addAll, List.foldl_cons]
    cases found : sieve.has state (key value) with
    | true => rw [sift_known found, sieve.add_known _ _ found, ih, addAll]
    | false => rw [sift_fresh found, ih, addAll]

theorem length_sift (values : List Value) :
    (sieve.sift key state values).1.length = sieve.newcomers state (values.map key) := by
  induction values generalizing state with
  | nil => rfl
  | cons value rest ih =>
    rw [List.map_cons, newcomers]
    cases found : sieve.has state (key value) with
    | true => rw [sift_known found, ih, sieve.add_known _ _ found, if_pos rfl, Nat.zero_add]
    | false => rw [sift_fresh found, List.length_cons, ih, if_neg (by simp), Nat.add_comm]

theorem sift_sublist (values : List Value) : (sieve.sift key state values).1.Sublist values := by
  induction values generalizing state with
  | nil => exact List.Sublist.refl []
  | cons value rest ih =>
    cases found : sieve.has state (key value) with
    | true =>
      rw [sift_known found]
      exact ih.cons value
    | false =>
      rw [sift_fresh found]
      exact ih.cons_cons value

theorem not_has_of_kept {values : List Value} {value : Value}
    (kept : value ∈ (sieve.sift key state values).1) : sieve.has state (key value) = false := by
  induction values generalizing state with
  | nil => simp [sift] at kept
  | cons first rest ih =>
    cases found : sieve.has state (key first) with
    | true =>
      rw [sift_known found] at kept
      exact ih kept
    | false =>
      rw [sift_fresh found, List.mem_cons] at kept
      cases kept with
      | inl same => rw [same, found]
      | inr later =>
        have unknown := ih later
        cases known : sieve.has state (key value) with
        | false => rfl
        | true => rw [sieve.has_mono _ _ _ known] at unknown; exact unknown

theorem sift_nodup (values : List Value) : ((sieve.sift key state values).1.map key).Nodup := by
  induction values generalizing state with
  | nil => exact List.nodup_nil
  | cons value rest ih =>
    cases found : sieve.has state (key value) with
    | true =>
      rw [sift_known found]
      exact ih
    | false =>
      rw [sift_fresh found, List.map_cons, List.nodup_cons]
      constructor
      · intro again
        obtain ⟨other, kept, same⟩ := List.mem_map.mp again
        have unknown := not_has_of_kept kept
        rw [same, sieve.has_add] at unknown
        exact absurd unknown (by decide)
      · exact ih

theorem sift_append (first rest : List Value) :
    sieve.sift key state (first ++ rest) =
      ((sieve.sift key state first).1 ++ (sieve.sift key (sieve.sift key state first).2 rest).1,
        (sieve.sift key (sieve.sift key state first).2 rest).2) := by
  induction first generalizing state with
  | nil => rfl
  | cons value first ih =>
    rw [List.cons_append]
    cases found : sieve.has state (key value) with
    | true => rw [sift_known found, sift_known found, ih]
    | false => rw [sift_fresh found, sift_fresh found, ih, List.cons_append]

theorem newcomers_le (keys : List Key) : sieve.newcomers state keys ≤ keys.length := by
  induction keys generalizing state with
  | nil => exact Nat.le_refl 0
  | cons key rest ih =>
    have bound := @ih (sieve.add state key)
    rw [newcomers, List.length_cons]
    split <;> omega

/-! ## Without false positives -/

theorem addAll_append (state : State) (first rest : List Key) :
    sieve.addAll state (first ++ rest) = sieve.addAll (sieve.addAll state first) rest := List.foldl_append

theorem has_addAll_of_has {known : Key} (keys : List Key) (has : sieve.has state known = true) :
    sieve.has (sieve.addAll state keys) known = true := by
  induction keys generalizing state with
  | nil => exact has
  | cons key keys ih => exact ih (sieve.has_mono state key known has)

theorem has_addAll {known : Key} {keys : List Key} (member : known ∈ keys) :
    sieve.has (sieve.addAll state keys) known = true := by
  obtain ⟨first, rest, rfl⟩ := List.append_of_mem member
  rw [addAll_append]
  exact has_addAll_of_has rest (sieve.has_add _ known)

/-- Of these keys, the sieve takes none for its own that it has not been given. -/
def ExactOn (sieve : Sieve State Key) (start : State) (keys : List Key) : Prop :=
  ∀ added, added ⊆ keys → ∀ other ∈ keys, other ∉ added → sieve.has (sieve.addAll start added) other = false

theorem addAll_same {only : Key} {keys : List Key} (same : ∀ key ∈ keys, key = only) :
    sieve.addAll state keys = state ∨ sieve.addAll state keys = sieve.add state only := by
  induction keys generalizing state with
  | nil => exact .inl rfl
  | cons key keys ih =>
    obtain rfl : key = only := same key List.mem_cons_self
    have again : sieve.add (sieve.add state key) key = sieve.add state key :=
      sieve.add_known _ key (sieve.has_add state key)
    rcases @ih (sieve.add state key) fun other member => same other (List.mem_cons_of_mem key member) with none | some_
    · exact .inr none
    · exact .inr (some_.trans again)

theorem has_addAll_same {only other : Key} {keys : List Key} (same : ∀ key ∈ keys, key = only)
    (fresh : sieve.has state other = false) (apart : sieve.has (sieve.add state only) other = false) :
    sieve.has (sieve.addAll state keys) other = false := by
  rcases @addAll_same _ _ sieve state _ _ same with none | some_
  · rw [none, fresh]
  · rw [some_, apart]

theorem exactOn_pair {start : State} {first second : Key} (freshFirst : sieve.has start first = false)
    (freshSecond : sieve.has start second = false) (apartFirst : sieve.has (sieve.add start second) first = false)
    (apartSecond : sieve.has (sieve.add start first) second = false) : sieve.ExactOn start [first, second] := by
  intro added within other member absent
  have either (key : Key) (listed : key ∈ added) : key = first ∨ key = second := List.mem_pair.mp (within listed)
  rcases List.mem_pair.mp member with rfl | rfl
  · refine has_addAll_same (fun key listed => ?_) freshFirst apartFirst
    exact (either key listed).resolve_left fun same => absent (same ▸ listed)
  · refine has_addAll_same (fun key listed => ?_) freshSecond apartSecond
    exact (either key listed).resolve_right fun same => absent (same ▸ listed)

namespace ExactOn

variable {start : State} {keys added : List Key}

theorem has_iff {other : Key} (precise : sieve.ExactOn start keys) (within : added ⊆ keys) (member : other ∈ keys) :
    sieve.has (sieve.addAll start added) other = true ↔ other ∈ added := by
  refine ⟨fun has => ?_, has_addAll⟩
  by_contra absent
  rw [precise added within other member absent] at has
  cases has

/-- What is kept is what has not been added before. -/
theorem sift_fst [DecidableEq Key] {values : List Value} (precise : sieve.ExactOn start keys) (within : added ⊆ keys)
    (listed : values.map key ⊆ keys) (distinct : (values.map key).Nodup) :
    (sieve.sift key (sieve.addAll start added) values).1 = values.filter fun value => key value ∉ added := by
  induction values generalizing added with
  | nil => rfl
  | cons value rest ih =>
    rw [List.map_cons] at listed distinct
    obtain ⟨present, listed⟩ := List.cons_subset.mp listed
    obtain ⟨apart, distinct⟩ := List.nodup_cons.mp distinct
    by_cases known : key value ∈ added
    · rw [sift_known (has_addAll known), ih within listed distinct, List.filter_cons_of_neg (by simp [known])]
    · have more : added ++ [key value] ⊆ keys :=
        List.append_subset.mpr ⟨within, List.cons_subset.mpr ⟨present, List.nil_subset keys⟩⟩
      have later : sieve.add (sieve.addAll start added) (key value) = sieve.addAll start (added ++ [key value]) :=
        (addAll_append start added [key value]).symm
      rw [sift_fresh (precise added within _ present known), List.filter_cons_of_pos (by simp [known]), later,
        ih more listed distinct]
      refine congrArg (value :: ·) (List.filter_congr fun other member => ?_)
      have different : key other ≠ key value := fun same => apart (same ▸ List.mem_map_of_mem member)
      simp [different]

end ExactOn

end Sieve
