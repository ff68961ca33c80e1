import FormRules.Proofs.Trees
import Mathlib.Logic.Relation

/-!
# Evaluation without a bound

Evaluation counts down from the number of queries, so that it ends whatever queries have as
conditions. Where it would end by itself, counting has no part in it: if following conditions from
a query comes to an end (`Engine.Grounded`), then no query is met twice on the way down, there are
enough of them to count, and the result of the query is that of its clauses (`Engine.evaluate_eq`).
-/

namespace FormRules

namespace Traced

variable {α : Type}

theorem allM_congr {f g : α → Traced Bool} {xs : List α} (h : ∀ x ∈ xs, f x = g x) :
    xs.allM f = xs.allM g := by
  induction xs with
  | nil => rfl
  | cons x xs ih =>
    obtain ⟨hx, hxs⟩ := List.forall_mem_cons.1 h
    simp only [List.allM, hx, ih hxs]

theorem anyM_congr {f g : α → Traced Bool} {xs : List α} (h : ∀ x ∈ xs, f x = g x) :
    xs.anyM f = xs.anyM g := by
  induction xs with
  | nil => rfl
  | cons x xs ih =>
    obtain ⟨hx, hxs⟩ := List.forall_mem_cons.1 h
    simp only [List.anyM, hx, ih hxs]

end Traced

namespace Engine

/-- The query `p` is a condition of `q`. -/
def IsPremise (e : Engine) (p q : QueryId) : Prop := ∃ s, e.query? q = some s ∧ s.mentions p = true

/-- Following conditions from `q` comes to an end. -/
def Grounded (e : Engine) (q : QueryId) : Prop := Acc e.IsPremise q

variable {e : Engine} {p q : QueryId}

/-- A query from which conditions come to an end is not met again. -/
theorem Grounded.not_transGen (h : e.Grounded q) : ¬ Relation.TransGen e.IsPremise q q := by
  have hacc : Acc (Relation.TransGen e.IsPremise) q := Acc.transGen h
  induction hacc with
  | intro q _ ih => exact fun hq => ih q hq h hq

/-- Queries on a path down to `q` need not be counted any more. The query is not on the path, so
there is still one to count. -/
theorem Grounded.evaluateWithin_eq (h : e.Grounded q) {path : List QueryId} (hnodup : path.Nodup)
    (hpath : ∀ p ∈ path, p < e.queries.length ∧ Relation.TransGen e.IsPremise q p) {m n : Nat}
    (hm : e.queries.length ≤ path.length + m) (hn : e.queries.length ≤ path.length + n) :
    e.evaluateWithin m q = e.evaluateWithin n q := by
  induction h generalizing path m n with
  | intro q hbelow ih =>
    cases hs : e.query? q with
    | none =>
      have hfalse : ∀ k, e.evaluateWithin k q = pure false := by
        intro k
        cases k <;> simp [evaluateWithin, hs]
      rw [hfalse, hfalse]
    | some s =>
      have hq : q < e.queries.length := (List.getElem?_eq_some_iff.1 hs).1
      have hfresh : q ∉ path := fun hmem =>
        Grounded.not_transGen (Acc.intro q hbelow) (hpath q hmem).2
      have hlonger : (q :: path).Nodup := List.nodup_cons.2 ⟨hfresh, hnodup⟩
      have hroom : path.length + 1 ≤ e.queries.length := by
        have hsub : (q :: path) ⊆ List.range e.queries.length := by
          intro p hp
          rcases List.mem_cons.1 hp with rfl | hp
          · exact List.mem_range.2 hq
          · exact List.mem_range.2 (hpath p hp).1
        simpa using hlonger.length_le_of_subset hsub
      obtain ⟨m, rfl⟩ : ∃ m', m = m' + 1 := ⟨m - 1, by omega⟩
      obtain ⟨n, rfl⟩ : ∃ n', n = n' + 1 := ⟨n - 1, by omega⟩
      simp only [evaluateWithin, hs]
      refine Traced.anyM_congr fun clause hclause => Traced.allM_congr fun leaf hleaf => ?_
      cases leaf with
      | query p =>
        have hp : e.IsPremise p q := ⟨s, hs, Query.mentions_iff.2 ⟨clause, hclause, hleaf⟩⟩
        have habove : ∀ r ∈ q :: path,
            r < e.queries.length ∧ Relation.TransGen e.IsPremise p r := by
          intro r hr
          rcases List.mem_cons.1 hr with rfl | hr
          · exact ⟨hq, .single hp⟩
          · exact ⟨(hpath r hr).1, .head hp (hpath r hr).2⟩
        have hcount : ∀ k, e.queries.length ≤ path.length + (k + 1) →
            e.queries.length ≤ (q :: path).length + k := fun k hk => by
          rw [List.length_cons]
          omega
        exact ih p hp hlonger habove (hcount m hm) (hcount n hn)
      | _ => rfl

/-- The answer of a condition. -/
def ask (e : Engine) (leaf : Leaf) : Traced Bool := e.evaluateLeaf e.evaluate leaf

/-- A query asks its clauses from left to right until one of them holds, and of a clause its
conditions until one of them fails. -/
theorem evaluate_eq (h : e.Grounded q) {s : Query} (hs : e.query? q = some s) :
    e.evaluate q = s.clauses.anyM (·.allM e.ask) := by
  have hq : q < e.queries.length := (List.getElem?_eq_some_iff.1 hs).1
  obtain ⟨n, hn⟩ := Nat.exists_eq_succ_of_ne_zero (Nat.ne_zero_of_lt hq)
  rw [evaluate, hn]
  simp only [evaluateWithin, hs]
  refine Traced.anyM_congr fun clause hclause => Traced.allM_congr fun leaf hleaf => ?_
  cases leaf with
  | query p =>
    have hp : e.IsPremise p q := ⟨s, hs, Query.mentions_iff.2 ⟨clause, hclause, hleaf⟩⟩
    have habove : ∀ r ∈ [q], r < e.queries.length ∧ Relation.TransGen e.IsPremise p r := by
      intro r hr
      rw [List.mem_singleton.1 hr]
      exact ⟨hq, .single hp⟩
    exact Grounded.evaluateWithin_eq (h.inv hp) (List.pairwise_singleton _ q) habove
      (by rw [List.length_singleton]; omega) (by omega)
  | _ => rfl

end Engine

end FormRules
