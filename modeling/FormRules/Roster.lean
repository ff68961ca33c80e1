/-!
# Rosters

Evaluations, affix rules, scripts and the positions of actions are kept in the order in which their
keys came first; a later entry under the same key takes the place of the earlier one. `Roster.put`
is that one operation, on plain lists.
-/

namespace FormRules.Roster

variable {α κ : Type} [DecidableEq κ]

/-- The list with `x` in the place of the first entry under its key, or at the end. -/
def put (key : α → κ) (x : α) : List α → List α
  | [] => [x]
  | y :: ys => if key y = key x then x :: ys else y :: put key x ys

/-- The first entry under a key. -/
def get? (key : α → κ) (k : κ) (xs : List α) : Option α := xs.find? fun x => key x = k

/-- The keys keep their order, and a new one comes last. -/
theorem keys_put (key : α → κ) (x : α) (xs : List α) :
    (put key x xs).map key =
      if key x ∈ xs.map key then xs.map key else xs.map key ++ [key x] := by
  induction xs with
  | nil => simp [put]
  | cons y ys ih =>
    unfold put
    split
    · next h => simp [h]
    · next h =>
      have h' : key x ≠ key y := fun e => h e.symm
      simp only [List.map_cons, ih, List.mem_cons, h', false_or]
      split <;> simp

theorem length_put (key : α → κ) (x : α) (xs : List α) :
    (put key x xs).length = if key x ∈ xs.map key then xs.length else xs.length + 1 := by
  rw [← List.length_map key, keys_put]
  split <;> simp

theorem get?_eq_none_iff {key : α → κ} {k : κ} {xs : List α} :
    get? key k xs = none ↔ k ∉ xs.map key := by
  simp [get?]

/-- After `put`, its entry is found under its key, and every other key keeps its entry. -/
theorem get?_put (key : α → κ) (x : α) (xs : List α) (k : κ) :
    get? key k (put key x xs) = if key x = k then some x else get? key k xs := by
  induction xs with
  | nil => by_cases h : key x = k <;> simp [put, get?, h]
  | cons y ys ih =>
    unfold put
    split
    · next h =>
      by_cases hk : key x = k <;> simp [get?, h, hk]
    · next h =>
      simp only [get?, List.find?_cons] at ih ⊢
      by_cases hy : key y = k
      · have : key x ≠ k := fun e => h (hy.trans e.symm)
        simp [hy, this]
      · simp only [hy, decide_false]
        exact ih

end FormRules.Roster
