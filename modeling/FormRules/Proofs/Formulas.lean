import FormRules.Proofs.Descents

/-!
# Formulas

A rule spells an OR of ANDs whose atoms are conditions or, in brackets, formulas again. Its value is
decided from left to right: of a clause no atom is looked at behind one that fails, and no clause
behind one that holds (`Formula.asked`).

In the engine a bracket is a query of its own. `Formula.Spelled` says that the clauses of a query
are those of a formula, bracket by bracket. Then evaluating the query decides the formula
(`Formula.IsAt.evaluate`). Wrapping a clause in a bracket, at any depth, changes neither the value of
a formula nor the conditions that are asked (`Formula.Wraps.same`), so it does not change the result
(`Formula.IsAt.evaluate_wraps`).
-/

namespace FormRules

mutual

/-- A condition, or a formula in brackets. -/
inductive Formula.Atom (α : Type)
  | cond (a : α)
  | bracket (x : Formula α)

/-- An AND of atoms. -/
inductive Formula.Clause (α : Type)
  | one (a : Formula.Atom α)
  | and (a : Formula.Atom α) (c : Formula.Clause α)

/-- An OR of clauses. -/
inductive Formula (α : Type)
  | one (c : Formula.Clause α)
  | or (c : Formula.Clause α) (x : Formula α)

end

namespace Formula

variable {α : Type}

/-! ## Values -/

mutual

/-- The value of an atom, under values of the conditions. -/
def Atom.holds (v : α → Bool) : Atom α → Bool
  | .cond a => v a
  | .bracket x => x.holds v

/-- The value of a clause. -/
def Clause.holds (v : α → Bool) : Clause α → Bool
  | .one a => a.holds v
  | .and a c => a.holds v && c.holds v

/-- The value of a formula. -/
def holds (v : α → Bool) : Formula α → Bool
  | .one c => c.holds v
  | .or c x => c.holds v || x.holds v

end

mutual

/-- The conditions that deciding an atom asks, in order. -/
def Atom.asked (v : α → Bool) : Atom α → List α
  | .cond a => [a]
  | .bracket x => x.asked v

/-- Behind an atom that fails, none is asked. -/
def Clause.asked (v : α → Bool) : Clause α → List α
  | .one a => a.asked v
  | .and a c => a.asked v ++ if a.holds v then c.asked v else []

/-- Behind a clause that holds, none is asked. -/
def asked (v : α → Bool) : Formula α → List α
  | .one c => c.asked v
  | .or c x => c.asked v ++ if c.holds v then [] else x.asked v

end

mutual

/-- The conditions of an atom. -/
def Atom.conditions : Atom α → List α
  | .cond a => [a]
  | .bracket x => x.conditions

/-- The conditions of a clause. -/
def Clause.conditions : Clause α → List α
  | .one a => a.conditions
  | .and a c => a.conditions ++ c.conditions

/-- The conditions of a formula. -/
def conditions : Formula α → List α
  | .one c => c.conditions
  | .or c x => c.conditions ++ x.conditions

end

/-! ## Brackets that change nothing -/

mutual

/-- The second atom is the first with a clause put in brackets. -/
inductive Atom.Wraps : Atom α → Atom α → Prop
  | bracket {x x' : Formula α} (h : Wraps x x') : Atom.Wraps (.bracket x) (.bracket x')

/-- The second clause is the first with a clause put in brackets, which may be the whole. -/
inductive Clause.Wraps : Clause α → Clause α → Prop
  | whole (c : Clause α) : Clause.Wraps c (.one (.bracket (.one c)))
  | one {a a' : Atom α} (h : Atom.Wraps a a') : Clause.Wraps (.one a) (.one a')
  | here {a a' : Atom α} (h : Atom.Wraps a a') (c : Clause α) :
      Clause.Wraps (.and a c) (.and a' c)
  | later (a : Atom α) {c c' : Clause α} (h : Clause.Wraps c c') :
      Clause.Wraps (.and a c) (.and a c')

/-- The second formula is the first with a clause put in brackets. -/
inductive Wraps : Formula α → Formula α → Prop
  | one {c c' : Clause α} (h : Clause.Wraps c c') : Wraps (.one c) (.one c')
  | here {c c' : Clause α} (h : Clause.Wraps c c') (x : Formula α) :
      Wraps (.or c x) (.or c' x)
  | later (c : Clause α) {x x' : Formula α} (h : Wraps x x') : Wraps (.or c x) (.or c x')

end

mutual

theorem Atom.Wraps.same {a a' : Atom α} (h : a.Wraps a') (v : α → Bool) :
    a'.holds v = a.holds v ∧ a'.asked v = a.asked v ∧ a'.conditions = a.conditions := by
  cases h with
  | bracket h => exact h.same v

theorem Clause.Wraps.same {c c' : Clause α} (h : c.Wraps c') (v : α → Bool) :
    c'.holds v = c.holds v ∧ c'.asked v = c.asked v ∧ c'.conditions = c.conditions := by
  cases h with
  | whole c => exact ⟨rfl, rfl, rfl⟩
  | one h => exact h.same v
  | here h c =>
    obtain ⟨hholds, hasked, hconditions⟩ := h.same v
    simp only [Clause.holds, Clause.asked, Clause.conditions, hholds, hasked, hconditions, and_self]
  | later a h =>
    obtain ⟨hholds, hasked, hconditions⟩ := h.same v
    simp only [Clause.holds, Clause.asked, Clause.conditions, hholds, hasked, hconditions, and_self]

theorem Wraps.same {x x' : Formula α} (h : x.Wraps x') (v : α → Bool) :
    x'.holds v = x.holds v ∧ x'.asked v = x.asked v ∧ x'.conditions = x.conditions := by
  cases h with
  | one h => exact h.same v
  | here h x =>
    obtain ⟨hholds, hasked, hconditions⟩ := h.same v
    simp only [Formula.holds, Formula.asked, Formula.conditions, hholds, hasked, hconditions,
      and_self]
  | later c h =>
    obtain ⟨hholds, hasked, hconditions⟩ := h.same v
    simp only [Formula.holds, Formula.asked, Formula.conditions, hholds, hasked, hconditions,
      and_self]

end

/-! ## Formulas in the engine -/

mutual

/-- The condition `leaf` of the query `q` is the atom. Conditions are related by `R`; a bracket is a
later query, whose clauses are the formula in it. -/
def Atom.Spelled (e : Engine) (R : α → Leaf → Prop) (q : QueryId) : Atom α → Leaf → Prop
  | .cond a, leaf => R a leaf
  | .bracket x, leaf =>
    ∃ p s, leaf = .query p ∧ q < p ∧ e.query? p = some s ∧ x.Spelled e R p s.clauses

/-- The conditions of the query `q` are those of the clause. -/
def Clause.Spelled (e : Engine) (R : α → Leaf → Prop) (q : QueryId) :
    Clause α → List Leaf → Prop
  | .one a, leaves => ∃ leaf, leaves = [leaf] ∧ a.Spelled e R q leaf
  | .and a c, leaves =>
    ∃ leaf rest, leaves = leaf :: rest ∧ a.Spelled e R q leaf ∧ c.Spelled e R q rest

/-- The clauses of the query `q` are those of the formula. -/
def Spelled (e : Engine) (R : α → Leaf → Prop) (q : QueryId) : Formula α → List (List Leaf) → Prop
  | .one c, clauses => ∃ leaves, clauses = [leaves] ∧ c.Spelled e R q leaves
  | .or c x, clauses =>
    ∃ leaves rest, clauses = leaves :: rest ∧ c.Spelled e R q leaves ∧ x.Spelled e R q rest

end

section

variable {e e' : Engine} {R R' : α → Leaf → Prop}

mutual

/-- What is spelled stays, while the queries behind keep their clauses. -/
theorem Atom.Spelled.mono {q : QueryId} {a : Atom α} {leaf : Leaf}
    (h : a.Spelled e R q leaf) (hR : ∀ a leaf, R a leaf → R' a leaf)
    (hlater : ∀ p s, q < p → e.query? p = some s →
      ∃ t, e'.query? p = some t ∧ t.clauses = s.clauses) : a.Spelled e' R' q leaf := by
  cases a with
  | cond a => exact hR _ _ h
  | bracket x =>
    obtain ⟨p, s, rfl, hp, hs, hx⟩ := h
    obtain ⟨t, ht, hclauses⟩ := hlater p s hp hs
    refine ⟨p, t, rfl, hp, ht, ?_⟩
    rw [hclauses]
    exact Spelled.mono hx hR fun r s hr => hlater r s (Nat.lt_trans hp hr)

theorem Clause.Spelled.mono {q : QueryId} {c : Clause α} {leaves : List Leaf}
    (h : c.Spelled e R q leaves) (hR : ∀ a leaf, R a leaf → R' a leaf)
    (hlater : ∀ p s, q < p → e.query? p = some s →
      ∃ t, e'.query? p = some t ∧ t.clauses = s.clauses) : c.Spelled e' R' q leaves := by
  cases c with
  | one a =>
    obtain ⟨leaf, rfl, ha⟩ := h
    exact ⟨leaf, rfl, Atom.Spelled.mono ha hR hlater⟩
  | and a c =>
    obtain ⟨leaf, rest, rfl, ha, hc⟩ := h
    exact ⟨leaf, rest, rfl, Atom.Spelled.mono ha hR hlater, Clause.Spelled.mono hc hR hlater⟩

theorem Spelled.mono {q : QueryId} {x : Formula α} {clauses : List (List Leaf)}
    (h : x.Spelled e R q clauses) (hR : ∀ a leaf, R a leaf → R' a leaf)
    (hlater : ∀ p s, q < p → e.query? p = some s →
      ∃ t, e'.query? p = some t ∧ t.clauses = s.clauses) : x.Spelled e' R' q clauses := by
  cases x with
  | one c =>
    obtain ⟨leaves, rfl, hc⟩ := h
    exact ⟨leaves, rfl, Clause.Spelled.mono hc hR hlater⟩
  | or c x =>
    obtain ⟨leaves, rest, rfl, hc, hx⟩ := h
    exact ⟨leaves, rest, rfl, Clause.Spelled.mono hc hR hlater, Spelled.mono hx hR hlater⟩

end

end

/-! ## Evaluation -/

end Formula

namespace Traced

variable {α : Type}

theorem ext {x y : Traced α} (hvalue : x.value = y.value) (hevents : x.events = y.events) :
    x = y := by
  cases x
  cases y
  exact congrArg₂ _ hvalue hevents

/-- Behind a condition that fails, none is asked. -/
theorem allM_cons (f : α → Traced Bool) (x : α) (xs : List α) : (x :: xs).allM f =
    ⟨(f x).value && (xs.allM f).value,
      (f x).events ++ if (f x).value then (xs.allM f).events else []⟩ := by
  refine ext ?_ ?_ <;> simp only [List.allM, value_bind, events_bind] <;>
    cases (f x).value <;> rfl

/-- Behind a clause that holds, none is asked. -/
theorem anyM_cons (f : α → Traced Bool) (x : α) (xs : List α) : (x :: xs).anyM f =
    ⟨(f x).value || (xs.anyM f).value,
      (f x).events ++ if (f x).value then [] else (xs.anyM f).events⟩ := by
  refine ext ?_ ?_ <;> simp only [List.anyM, value_bind, events_bind] <;>
    cases (f x).value <;> rfl

end Traced

namespace Engine

variable {α : Type}

/-- The value of a condition now, if `leafOf` is what it is in the engine. -/
def valueOf (e : Engine) (leafOf : α → Leaf) (a : α) : Bool := (e.ask (leafOf a)).value

/-- What is logged when conditions are asked one after the other. -/
def askedEvents (e : Engine) (leafOf : α → Leaf) (as : List α) : List Event :=
  as.flatMap fun a => (e.ask (leafOf a)).events

/-- The condition is not a query, or one from which conditions come to an end. -/
def LeafGrounded (e : Engine) (leaf : Leaf) : Prop := ∀ p, leaf = .query p → e.Grounded p

theorem grounded_of_leaves {e : Engine} {q : QueryId} {s : Query} (hs : e.query? q = some s)
    (h : ∀ clause ∈ s.clauses, ∀ leaf ∈ clause, e.LeafGrounded leaf) : e.Grounded q := by
  refine Acc.intro q fun p hp => ?_
  obtain ⟨t, ht, hmentions⟩ := hp
  obtain rfl := Option.some.inj (hs.symm.trans ht)
  obtain ⟨clause, hclause, hleaf⟩ := Query.mentions_iff.1 hmentions
  exact h clause hclause _ hleaf p rfl

end Engine

namespace Formula

variable {α : Type} {e : Engine} {leafOf : α → Leaf}

mutual

/-- A condition that is an atom answers as the atom. -/
theorem Atom.ask_of_spelled {q : QueryId} {a : Atom α} {leaf : Leaf}
    (h : a.Spelled e (fun b leaf => leaf = leafOf b) q leaf)
    (hends : ∀ b ∈ a.conditions, e.LeafGrounded (leafOf b)) :
    e.LeafGrounded leaf ∧ e.ask leaf =
      ⟨a.holds (e.valueOf leafOf), e.askedEvents leafOf (a.asked (e.valueOf leafOf))⟩ := by
  cases a with
  | cond b =>
    obtain rfl : leaf = leafOf b := h
    refine ⟨hends b (by simp [Atom.conditions]), Traced.ext rfl ?_⟩
    simp [Engine.askedEvents, Atom.asked]
  | bracket x =>
    obtain ⟨p, s, rfl, -, hs, hx⟩ := h
    obtain ⟨hp, heval⟩ := evaluate_of_spelled hs hx hends
    refine ⟨fun r hr => ?_, heval⟩
    cases hr
    exact hp

theorem Clause.ask_of_spelled {q : QueryId} {c : Clause α} {leaves : List Leaf}
    (h : c.Spelled e (fun b leaf => leaf = leafOf b) q leaves)
    (hends : ∀ b ∈ c.conditions, e.LeafGrounded (leafOf b)) :
    (∀ leaf ∈ leaves, e.LeafGrounded leaf) ∧ leaves.allM e.ask =
      ⟨c.holds (e.valueOf leafOf), e.askedEvents leafOf (c.asked (e.valueOf leafOf))⟩ := by
  cases c with
  | one a =>
    obtain ⟨leaf, rfl, ha⟩ := h
    obtain ⟨hleaf, hask⟩ := Atom.ask_of_spelled ha hends
    refine ⟨by simpa using hleaf, ?_⟩
    rw [Traced.allM_cons, hask]
    simp [List.allM, Clause.holds, Clause.asked]
  | and a c =>
    obtain ⟨leaf, rest, rfl, ha, hc⟩ := h
    simp only [Clause.conditions, List.forall_mem_append] at hends
    obtain ⟨hleaf, hask⟩ := Atom.ask_of_spelled ha hends.1
    obtain ⟨hrest, hasks⟩ := Clause.ask_of_spelled hc hends.2
    refine ⟨List.forall_mem_cons.2 ⟨hleaf, hrest⟩, ?_⟩
    rw [Traced.allM_cons, hask, hasks]
    cases hvalue : a.holds (e.valueOf leafOf) <;>
      simp [Clause.holds, Clause.asked, Engine.askedEvents, hvalue]

theorem anyM_of_spelled {q : QueryId} {x : Formula α} {clauses : List (List Leaf)}
    (h : x.Spelled e (fun b leaf => leaf = leafOf b) q clauses)
    (hends : ∀ b ∈ x.conditions, e.LeafGrounded (leafOf b)) :
    (∀ clause ∈ clauses, ∀ leaf ∈ clause, e.LeafGrounded leaf) ∧ clauses.anyM (·.allM e.ask) =
      ⟨x.holds (e.valueOf leafOf), e.askedEvents leafOf (x.asked (e.valueOf leafOf))⟩ := by
  cases x with
  | one c =>
    obtain ⟨leaves, rfl, hc⟩ := h
    obtain ⟨hleaves, hask⟩ := Clause.ask_of_spelled hc hends
    refine ⟨by simpa using hleaves, ?_⟩
    rw [Traced.anyM_cons, hask]
    simp [List.anyM, Formula.holds, Formula.asked]
  | or c x =>
    obtain ⟨leaves, rest, rfl, hc, hx⟩ := h
    simp only [Formula.conditions, List.forall_mem_append] at hends
    obtain ⟨hleaves, hask⟩ := Clause.ask_of_spelled hc hends.1
    obtain ⟨hrest, hasks⟩ := anyM_of_spelled hx hends.2
    refine ⟨List.forall_mem_cons.2 ⟨hleaves, hrest⟩, ?_⟩
    rw [Traced.anyM_cons, hask, hasks]
    cases hvalue : c.holds (e.valueOf leafOf) <;>
      simp [Formula.holds, Formula.asked, Engine.askedEvents, hvalue]

/-- Evaluating a query whose clauses are a formula decides the formula. -/
theorem evaluate_of_spelled {q : QueryId} {x : Formula α} {s : Query} (hs : e.query? q = some s)
    (h : x.Spelled e (fun b leaf => leaf = leafOf b) q s.clauses)
    (hends : ∀ b ∈ x.conditions, e.LeafGrounded (leafOf b)) : e.Grounded q ∧ e.evaluate q =
      ⟨x.holds (e.valueOf leafOf), e.askedEvents leafOf (x.asked (e.valueOf leafOf))⟩ := by
  obtain ⟨hleaves, heval⟩ := anyM_of_spelled h hends
  have hground := Engine.grounded_of_leaves hs hleaves
  exact ⟨hground, (Engine.evaluate_eq hground hs).trans heval⟩

end

/-- The query `q` is the formula, with the conditions that `leafOf` gives. -/
def IsAt (x : Formula α) (e : Engine) (leafOf : α → Leaf) (q : QueryId) : Prop :=
  ∃ s, e.query? q = some s ∧ x.Spelled e (fun a leaf => leaf = leafOf a) q s.clauses

namespace IsAt

variable {x x' : Formula α} {q q' : QueryId}

/-- A query stays a formula, while it and those behind it keep their clauses. -/
theorem mono (h : x.IsAt e leafOf q) {e' : Engine}
    (hkept : ∀ p s, q ≤ p → e.query? p = some s →
      ∃ t, e'.query? p = some t ∧ t.clauses = s.clauses) : x.IsAt e' leafOf q := by
  obtain ⟨s, hs, hx⟩ := h
  obtain ⟨t, ht, hclauses⟩ := hkept q s (Nat.le_refl q) hs
  refine ⟨t, ht, ?_⟩
  rw [hclauses]
  exact hx.mono (fun _ _ hleaf => hleaf) fun p s hp hs => hkept p s (Nat.le_of_lt hp) hs

theorem evaluate (h : x.IsAt e leafOf q)
    (hends : ∀ a ∈ x.conditions, e.LeafGrounded (leafOf a)) : e.evaluate q =
      ⟨x.holds (e.valueOf leafOf), e.askedEvents leafOf (x.asked (e.valueOf leafOf))⟩ := by
  obtain ⟨s, hs, hx⟩ := h
  exact (evaluate_of_spelled hs hx hends).2

/-- A bracket around a clause changes nothing. -/
theorem evaluate_wraps (h : x.IsAt e leafOf q) (h' : x'.IsAt e leafOf q') (hwraps : x.Wraps x')
    (hends : ∀ a ∈ x.conditions, e.LeafGrounded (leafOf a)) : e.evaluate q' = e.evaluate q := by
  obtain ⟨hholds, hasked, hconditions⟩ := hwraps.same (e.valueOf leafOf)
  rw [h.evaluate hends, h'.evaluate (hconditions ▸ hends), hholds, hasked]

end IsAt

end Formula

end FormRules
