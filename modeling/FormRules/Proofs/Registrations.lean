import FormRules.Action.Registry
import FormRules.Proofs.Rosters

/-!
# Registering actions

What the tables of a registry have after actions were registered one after the other
(`Registry.Tables.Keeps`): the names, each once and in the order in which they came first, and under
each name the action that came last. One registration takes one of two courses, by whether its name
is new (`Keeps.register`), and so it goes on from there (`Keeps.registerAll`). From empty tables the
index never points out of range (`Registry.Tables.registerAll_new`).
-/

namespace FormRules

namespace Registry.Tables

variable {α : Type} {t t' : Tables α} {name : String} {a : α} {i : Nat}
  {calls : List (String × α)}

/-- Registers actions one after the other, and tells of each whether its name is new; no result if
a position is out of range. -/
def registerAll (t : Tables α) : List (String × α) → Option (List Bool × Tables α)
  | [] => some ([], t)
  | (name, a) :: calls => do
    let (isNew, t) ← t.register name a
    let (news, t) ← registerAll t calls
    return (isNew :: news, t)

/-! ## One registration -/

namespace IsConsistent

theorem contains_iff (h : t.IsConsistent) : t.contains name = true ↔ name ∈ t.names := by
  simp only [contains, Option.isSome_iff_exists, h.position?_eq_some_iff, List.mem_iff_getElem?]

theorem nodup_names (h : t.IsConsistent) : t.names.Nodup := by
  refine List.nodup_iff_getElem?_ne_getElem?.2 fun i j hij hj heq => ?_
  have hname := List.getElem?_eq_getElem hj
  have hi := h.position?_eq_some_iff.2 (heq.trans hname)
  rw [h.position?_eq_some_iff.2 hname] at hi
  exact (Nat.ne_of_lt hij) (Option.some.inj hi).symm

/-- A name that has a position takes the new action there. -/
theorem get_replace (h : t.IsConsistent) (hi : t.position? name = some i) (a : α) (k : String) :
    (t.replace i a).get k = if name = k then some (some a) else t.get k := by
  have hposition : (t.replace i a).position? k = t.position? k := rfl
  split
  · next hk =>
    subst hk
    unfold get
    rw [hposition, hi]
    simp [Tables.replace, h.lt_length_actions hi]
  · next hk =>
    unfold get
    rw [hposition]
    cases hj : t.position? k with
    | none => rfl
    | some j =>
      have hij : i ≠ j := by
        rintro rfl
        have hname := h.position?_eq_some_iff.1 hi
        rw [h.position?_eq_some_iff.1 hj] at hname
        exact hk (Option.some.inj hname).symm
      simp [Tables.replace, hij]

/-- A new name takes its action at the end. -/
theorem get_add (h : t.IsConsistent) (name : String) (a : α) (k : String) :
    (t.add name a).get k = if name = k then some (some a) else t.get k := by
  unfold get
  rw [position?_add]
  by_cases hk : name = k
  · simp [hk, Tables.add, ← h.length_actions]
  · simp only [if_neg hk]
    cases hj : t.position? k with
    | none => rfl
    | some j => simp [Tables.add, List.getElem?_append_left (h.lt_length_actions hj)]

end IsConsistent

/-- The tables have the names of the registrations, each once and where it came first, and under
each name the action that was registered last. -/
structure Keeps (t : Tables α) (calls : List (String × α)) : Prop where
  isConsistent : t.IsConsistent
  names : t.names = (calls.map Prod.fst).eraseDups
  get : ∀ name, t.get name = some ((calls.reverse.find? fun c => c.1 = name).map Prod.snd)

namespace Keeps

theorem new : ({} : Tables α).Keeps [] := ⟨isConsistent_new, rfl, fun _ => rfl⟩

theorem contains_iff (h : t.Keeps calls) : t.contains name = true ↔ name ∈ calls.map Prod.fst := by
  rw [h.isConsistent.contains_iff, h.names, List.mem_eraseDups]

theorem position?_eq_none_iff (h : t.Keeps calls) :
    t.position? name = none ↔ name ∉ calls.map Prod.fst := by
  rw [← h.contains_iff, contains, Option.not_isSome_iff_eq_none]

/-- The tables behind one more registration, whichever course it takes. -/
theorem concat (h : t.Keeps calls) (hconsistent : t'.IsConsistent)
    (hnames : t'.names = if name ∈ t.names then t.names else t.names ++ [name])
    (hget : ∀ k, t'.get k = if name = k then some (some a) else t.get k) :
    t'.Keeps (calls ++ [(name, a)]) where
  isConsistent := hconsistent
  names := by
    rw [hnames, h.names, List.map_append, List.map_singleton, eraseDups_append_singleton]
  get k := by
    rw [hget, h.get, List.reverse_concat, List.find?_cons]
    by_cases hk : name = k <;> simp [hk]

theorem register (h : t.Keeps calls) (name : String) (a : α) :
    ∃ isNew t', t.register name a = some (isNew, t') ∧
      (isNew = true ↔ name ∉ calls.map Prod.fst) ∧ t'.Keeps (calls ++ [(name, a)]) := by
  unfold Tables.register
  cases hi : t.position? name with
  | some i =>
    have hmem : name ∈ calls.map Prod.fst := by
      simp [← h.contains_iff, contains, hi]
    have hname : name ∈ t.names :=
      List.mem_of_getElem? (h.isConsistent.position?_eq_some_iff.1 hi)
    refine ⟨false, t.replace i a, ?_, by simp [hmem], h.concat (h.isConsistent.replace i a) ?_
      (h.isConsistent.get_replace hi a)⟩
    · exact if_pos (h.isConsistent.lt_length_actions hi)
    · exact (if_pos hname).symm
  | none =>
    have hmem := h.position?_eq_none_iff.1 hi
    have hname : name ∉ t.names := by
      rwa [h.names, List.mem_eraseDups]
    refine ⟨true, t.add name a, rfl, by simp [hmem], h.concat (h.isConsistent.add hi a) ?_
      (h.isConsistent.get_add name a)⟩
    exact (if_neg hname).symm

/-! ## All registrations -/

theorem registerAll {before : List (String × α)} (h : t.Keeps before) (calls : List (String × α)) :
    ∃ news t', t.registerAll calls = some (news, t') ∧ news.length = calls.length ∧
      (∀ i c, calls[i]? = some c →
        (news[i]? = some true ↔ c.1 ∉ (before ++ calls.take i).map Prod.fst)) ∧
      t'.Keeps (before ++ calls) := by
  induction calls generalizing t before with
  | nil => exact ⟨[], t, rfl, rfl, by simp, by simpa using h⟩
  | cons c calls ih =>
    obtain ⟨name, a⟩ := c
    obtain ⟨isNew, t₁, hregister, hnew, h₁⟩ := h.register name a
    obtain ⟨news, t', hall, hlength, hnews, h'⟩ := ih h₁
    refine ⟨isNew :: news, t', ?_, by simp [hlength], fun i c hc => ?_, by simpa using h'⟩
    · simp [Tables.registerAll, hregister, hall]
    · cases i with
      | zero =>
        obtain rfl : (name, a) = c := Option.some.inj hc
        simpa using hnew
      | succ i => simpa using hnews i c hc

end Keeps

/-- Actions can be registered in empty tables in any order, under any names: no position is ever out
of range. A name is new where no earlier registration has it. Then each name stands once, where
it came first, the index has it at its position, and its action is the one registered last. -/
theorem registerAll_new (calls : List (String × α)) :
    ∃ news t, ({} : Tables α).registerAll calls = some (news, t) ∧ news.length = calls.length ∧
      (∀ i c, calls[i]? = some c →
        (news[i]? = some true ↔ c.1 ∉ (calls.take i).map Prod.fst)) ∧
      t.IsConsistent ∧ t.names.Nodup ∧ t.names = (calls.map Prod.fst).eraseDups ∧
      (∀ name, t.contains name = true ↔ name ∈ calls.map Prod.fst) ∧
      ∀ name, t.get name = some ((calls.reverse.find? fun c => c.1 = name).map Prod.snd) := by
  obtain ⟨news, t, hall, hlength, hnews, h⟩ := Keeps.new.registerAll calls
  exact ⟨news, t, hall, hlength, hnews, h.isConsistent, h.isConsistent.nodup_names, h.names,
    fun name => h.contains_iff, h.get⟩

end Registry.Tables

end FormRules
