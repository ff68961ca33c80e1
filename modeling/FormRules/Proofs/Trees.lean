import FormRules.Engine.Machine

/-!
# Trees of queries

A rule with brackets is a tree of queries. `Engine.IsTree` says that a query is the root of one: it
is held by someone, and every bracket below it is a query whose parent has it as a condition. Then
the root of every node is the root of the tree (`root_of_isNode`), and evaluating a node gives the
OR of ANDs that its clauses spell (`evaluate_iff_holds`), whatever the depth of the brackets.

`Engine.Holds` is that OR of ANDs, without any bound on depth.
-/

namespace FormRules

/-- Whether the condition is a bracket or another query. -/
def Leaf.isQuery : Leaf → Bool
  | .query _ => true
  | _ => false

theorem Query.mentions_iff {s : Query} {q : QueryId} :
    s.mentions q = true ↔ ∃ clause ∈ s.clauses, Leaf.query q ∈ clause := by
  simp only [mentions, List.any_eq_true]
  constructor
  · rintro ⟨clause, hc, leaf, hl, h⟩
    cases leaf with
    | query r => exact ⟨clause, hc, by simpa using (beq_iff_eq.1 h) ▸ hl⟩
    | _ => simp at h
  · rintro ⟨clause, hc, hl⟩
    exact ⟨clause, hc, .query q, hl, by simp⟩

/-- The query with one more condition in its last clause. -/
def Query.addLeaf (s : Query) (leaf : Leaf) : Query :=
  { s with clauses := s.clauses.modify (s.clauses.length - 1) (· ++ [leaf]) }

theorem Query.exists_mem_addLeaf {s : Query} {leaf l : Leaf} :
    (∃ clause ∈ (s.addLeaf leaf).clauses, l ∈ clause) ↔
      (∃ clause ∈ s.clauses, l ∈ clause) ∨ s.clauses ≠ [] ∧ l = leaf := by
  rcases List.eq_nil_or_concat s.clauses with h | ⟨init, last, h⟩
  · simp [addLeaf, h]
  · have hadd : (s.addLeaf leaf).clauses = init ++ [last ++ [leaf]] := by
      simp [addLeaf, h, List.modify_eq_take_cons_drop]
    rw [hadd, h]
    simp only [List.concat_eq_append, List.mem_append, List.mem_singleton, or_and_right, exists_or,
      exists_eq_left]
    simp [or_assoc]

namespace Traced

variable {α : Type}

theorem value_allM (f : α → Traced Bool) (xs : List α) :
    (xs.allM f).value = xs.all fun x => (f x).value := by
  induction xs with
  | nil => rfl
  | cons x xs ih =>
    simp only [List.allM, value_bind, List.all_cons]
    cases (f x).value
    · rfl
    · simpa using ih

theorem value_anyM (f : α → Traced Bool) (xs : List α) :
    (xs.anyM f).value = xs.any fun x => (f x).value := by
  induction xs with
  | nil => rfl
  | cons x xs ih =>
    simp only [List.anyM, value_bind, List.any_cons]
    cases (f x).value
    · simpa using ih
    · rfl

end Traced

namespace Engine

/-! ## Nodes -/

/-- `q` is a node at depth `n` of the tree of brackets below `r`. -/
inductive IsNode (e : Engine) (r : QueryId) : Nat → QueryId → Prop
  | root : IsNode e r 0 r
  | bracket {n : Nat} {p q : QueryId} {s t : Query} (hp : IsNode e r n p)
      (hs : e.query? p = some s) (hq : s.mentions q = true) (ht : e.query? q = some t)
      (parent : t.parent = some p) : IsNode e r (n + 1) q

/-- `r` is the root of a tree: it has no parent, something holds it, and what its nodes have as
conditions are nodes. -/
structure IsTree (e : Engine) (r : QueryId) : Prop where
  root : ∃ s, e.query? r = some s ∧ s.parent = none
  held : e.holdsDirectly r = true
  bracket : ∀ {n p s q}, e.IsNode r n p → e.query? p = some s → s.mentions q = true →
    ∃ t, e.query? q = some t ∧ t.parent = some p

variable {e : Engine} {r : QueryId}

theorem IsTree.node {n : Nat} {p q : QueryId} {s : Query} (h : e.IsTree r) (hp : e.IsNode r n p)
    (hs : e.query? p = some s) (hq : s.mentions q = true) : e.IsNode r (n + 1) q := by
  obtain ⟨t, ht, hparent⟩ := h.bracket hp hs hq
  exact .bracket hp hs hq ht hparent

theorem IsNode.query {n : Nat} {q : QueryId} (h : e.IsTree r) (hq : e.IsNode r n q) :
    ∃ s, e.query? q = some s := by
  cases hq with
  | root => exact h.root.imp fun _ hs => hs.1
  | bracket hp hs hq ht parent => exact ⟨_, ht⟩

/-- A node has one depth. -/
theorem IsNode.depth_unique {m n : Nat} {q : QueryId} (h : e.IsTree r) (hm : e.IsNode r m q)
    (hn : e.IsNode r n q) : m = n := by
  obtain ⟨s, hs, hparent⟩ := h.root
  induction hm generalizing n with
  | root =>
    cases hn with
    | root => rfl
    | bracket _ _ _ ht parent => simp [← Option.some.inj (hs.symm.trans ht), hparent] at parent
  | bracket _ _ _ ht parent ih =>
    cases hn with
    | root => simp [← Option.some.inj (hs.symm.trans ht), hparent] at parent
    | bracket hp' _ _ ht' parent' =>
      rw [← Option.some.inj (ht.symm.trans ht'), parent] at parent'
      exact congrArg (· + 1) (ih (Option.some.inj parent' ▸ hp'))

/-- The nodes on the way from the root to a node are different queries. -/
theorem IsNode.path {n : Nat} {q : QueryId} (h : e.IsTree r) (hq : e.IsNode r n q) :
    ∃ path : List QueryId, path.length = n + 1 ∧ path.Nodup ∧
      ∀ p ∈ path, ∃ m ≤ n, e.IsNode r m p := by
  induction hq with
  | root => exact ⟨[r], rfl, by simp, fun p hp => ⟨0, Nat.le_refl 0, by simp_all [IsNode.root]⟩⟩
  | @bracket n p q s t hp hs hq ht parent ih =>
    obtain ⟨path, hlength, hnodup, hnodes⟩ := ih
    have hnode : e.IsNode r (n + 1) q := .bracket hp hs hq ht parent
    refine ⟨q :: path, by simp [hlength], List.nodup_cons.2 ⟨fun hmem => ?_, hnodup⟩, ?_⟩
    · obtain ⟨m, hm, hqm⟩ := hnodes q hmem
      have := hqm.depth_unique h hnode
      omega
    · intro x hx
      rcases List.mem_cons.1 hx with rfl | hx
      · exact ⟨n + 1, Nat.le_refl _, hnode⟩
      · obtain ⟨m, hm, hxm⟩ := hnodes x hx
        exact ⟨m, by omega, hxm⟩

/-- Brackets are no deeper than there are queries. -/
theorem IsNode.depth_lt {n : Nat} {q : QueryId} (h : e.IsTree r) (hq : e.IsNode r n q) :
    n < e.queries.length := by
  obtain ⟨path, hlength, hnodup, hnodes⟩ := hq.path h
  have hsub : path ⊆ List.range e.queries.length := by
    intro p hp
    obtain ⟨m, -, hm⟩ := hnodes p hp
    obtain ⟨s, hs⟩ := hm.query h
    exact List.mem_range.2 (List.getElem?_eq_some_iff.1 hs).1
  have := hnodup.length_le_of_subset hsub
  rw [List.length_range] at this
  omega

/-! ## Roots -/

/-- What holds the root holds every node. -/
theorem IsNode.inUse {n : Nat} {q : QueryId} (hheld : e.holdsDirectly r = true)
    (hq : e.IsNode r n q) (k : Nat) : e.inUseWithin k q = true := by
  induction hq generalizing k with
  | root => exact inUseWithin_of_holdsDirectly hheld k
  | @bracket n p q s t hp hs hq ht parent ih =>
    cases k with
    | zero => rfl
    | succ k =>
      have hmem : (s, p) ∈ e.queries.zipIdx :=
        List.mk_mem_zipIdx_iff_getElem?.2 hs
      simp only [inUseWithin, Bool.or_eq_true, List.any_eq_true]
      exact Or.inr ⟨(s, p), hmem, by simp [hq, ih k]⟩

theorem rootWithin_of_isNode {n k : Nat} {q : QueryId} (h : e.IsTree r) (hq : e.IsNode r n q)
    (hk : n ≤ k) : e.rootWithin k q = r := by
  induction hq generalizing k with
  | root =>
    obtain ⟨s, hs, hparent⟩ := h.root
    exact rootWithin_of_isRoot (by simp [isRoot, parent?, hs, hparent]) k
  | @bracket n p q s t hp hs hq ht parent ih =>
    obtain ⟨k, rfl⟩ : ∃ k', k = k' + 1 := ⟨k - 1, by omega⟩
    have hparent : e.parent? q = some p := by
      simp [parent?, ht, parent, queryInUse, hp.inUse h.held]
    simp only [rootWithin, hparent]
    exact ih (by omega)

/-- The root of a node is the root of the tree. -/
theorem root_of_isNode {n : Nat} {q : QueryId} (h : e.IsTree r) (hq : e.IsNode r n q) :
    e.root q = r :=
  rootWithin_of_isNode h hq (Nat.le_of_lt (hq.depth_lt h))

/-! ## Values -/

/-- The value of a condition that is not a query. -/
def leafValue (e : Engine) (leaf : Leaf) : Bool := (e.evaluateLeaf (fun _ => pure false) leaf).value

/-- A query holds if all conditions of one of its clauses do. A bracket holds as a condition if it
holds as a query. -/
inductive Holds (e : Engine) : QueryId → Prop
  | clause {q : QueryId} {s : Query} {clause : List Leaf} (hs : e.query? q = some s)
      (hc : clause ∈ s.clauses) (brackets : ∀ p, Leaf.query p ∈ clause → Holds e p)
      (others : ∀ leaf ∈ clause, leaf.isQuery = false → e.leafValue leaf = true) : Holds e q

/-- A condition as part of an evaluation. -/
theorem value_evaluateLeaf (e : Engine) (query : QueryId → Traced Bool) (leaf : Leaf) :
    (e.evaluateLeaf query leaf).value =
      match leaf with
      | .query q => (query q).value
      | leaf => e.leafValue leaf := by
  cases leaf <;> rfl

theorem value_evaluateWithin_succ {k : Nat} {q : QueryId} {s : Query} (hs : e.query? q = some s) :
    (e.evaluateWithin (k + 1) q).value = s.clauses.any fun clause => clause.all fun leaf =>
      (e.evaluateLeaf (e.evaluateWithin k) leaf).value := by
  simp only [evaluateWithin, hs, Traced.value_anyM, Traced.value_allM]

/-- Evaluation with room for the brackets below a node decides whether the node holds. -/
theorem evaluateWithin_iff_holds {n k : Nat} {q : QueryId} (h : e.IsTree r) (hq : e.IsNode r n q)
    (hk : e.queries.length ≤ n + k) : (e.evaluateWithin k q).value = true ↔ e.Holds q := by
  induction k generalizing n q with
  | zero =>
    have := hq.depth_lt h
    omega
  | succ k ih =>
    obtain ⟨s, hs⟩ := hq.query h
    have hbracket : ∀ clause ∈ s.clauses, ∀ p, Leaf.query p ∈ clause →
        ((e.evaluateWithin k p).value = true ↔ e.Holds p) := by
      intro clause hc p hp
      exact ih (h.node hq hs (Query.mentions_iff.2 ⟨clause, hc, hp⟩)) (by omega)
    rw [value_evaluateWithin_succ hs, List.any_eq_true]
    constructor
    · rintro ⟨clause, hc, hall⟩
      rw [List.all_eq_true] at hall
      refine .clause hs hc (fun p hp => (hbracket clause hc p hp).1 ?_) fun leaf hl hn => ?_
      · simpa [value_evaluateLeaf] using hall _ hp
      · have hvalue := hall leaf hl
        rw [value_evaluateLeaf] at hvalue
        cases leaf <;> first | exact hvalue | simp [Leaf.isQuery] at hn
    · rintro ⟨hs', hc, brackets, others⟩
      obtain rfl := Option.some.inj (hs'.symm.trans hs)
      refine ⟨_, hc, List.all_eq_true.2 fun leaf hl => ?_⟩
      rw [value_evaluateLeaf]
      cases leaf with
      | query p => exact (hbracket _ hc p hl).2 (brackets p hl)
      | flag ref logged => exact others _ hl rfl
      | check host spec condition => exact others _ hl rfl
      | test host field spec t label => exact others _ hl rfl

/-- Evaluating a node gives the OR of ANDs of the tree below it. -/
theorem evaluate_iff_holds {n : Nat} {q : QueryId} (h : e.IsTree r) (hq : e.IsNode r n q) :
    (e.evaluate q).value = true ↔ e.Holds q :=
  evaluateWithin_iff_holds h hq (Nat.le_add_left _ n)

end Engine

end FormRules
