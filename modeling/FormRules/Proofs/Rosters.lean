import FormRules.Roster
import Mathlib.Data.List.Induction
import Mathlib.Data.List.Nodup

/-!
# Filling rosters

What a roster keeps of the entries that are put in one after the other: the keys, each once and in
the order in which they came first (`Roster.keys_ofList`), and under each key the last entry
(`Roster.get?_ofList`).
-/

namespace FormRules

section Duplicates

variable {α : Type} [DecidableEq α]

theorem eraseDups_append_singleton (xs : List α) (x : α) :
    (xs ++ [x]).eraseDups = if x ∈ xs.eraseDups then xs.eraseDups else xs.eraseDups ++ [x] := by
  rw [List.eraseDups_append]
  by_cases hx : x ∈ xs <;> simp [List.removeAll, List.eraseDups_cons, hx]

theorem nodup_eraseDups (xs : List α) : xs.eraseDups.Nodup := by
  induction xs using List.reverseRecOn with
  | nil => exact List.nodup_nil
  | append_singleton xs x ih =>
    rw [eraseDups_append_singleton]
    split
    · exact ih
    · next hx =>
      refine List.nodup_append.2 ⟨ih, List.nodup_singleton x, fun y hy z hz heq => ?_⟩
      exact hx (List.mem_singleton.1 hz ▸ heq ▸ hy)

end Duplicates

namespace Roster

variable {α κ : Type} [DecidableEq κ] {key : α → κ} {x y : α} {xs : List α}

theorem mem_put (h : y ∈ put key x xs) : y = x ∨ y ∈ xs := by
  induction xs with
  | nil => exact Or.inl (List.mem_singleton.1 h)
  | cons z zs ih =>
    unfold put at h
    split at h
    · rcases List.mem_cons.1 h with rfl | h
      · exact Or.inl rfl
      · exact Or.inr (List.mem_cons_of_mem z h)
    · rcases List.mem_cons.1 h with rfl | h
      · exact Or.inr List.mem_cons_self
      · exact (ih h).imp_right (List.mem_cons_of_mem z)

/-- The roster of the entries of a list, put in one after the other. -/
def ofList (key : α → κ) (xs : List α) : List α := xs.foldl (fun ys x => put key x ys) []

theorem ofList_append_singleton (key : α → κ) (xs : List α) (x : α) :
    ofList key (xs ++ [x]) = put key x (ofList key xs) := by
  simp [ofList]

theorem keys_ofList (key : α → κ) (xs : List α) :
    (ofList key xs).map key = (xs.map key).eraseDups := by
  induction xs using List.reverseRecOn with
  | nil => rfl
  | append_singleton xs x ih =>
    rw [ofList_append_singleton, keys_put, ih, List.map_append, List.map_singleton,
      eraseDups_append_singleton]

theorem nodup_keys_ofList (key : α → κ) (xs : List α) : ((ofList key xs).map key).Nodup := by
  rw [keys_ofList]
  exact nodup_eraseDups _

/-- Of the entries under a key, the last is kept. -/
theorem get?_ofList (key : α → κ) (xs : List α) (k : κ) :
    get? key k (ofList key xs) = xs.reverse.find? fun x => key x = k := by
  induction xs using List.reverseRecOn with
  | nil => rfl
  | append_singleton xs x ih =>
    rw [ofList_append_singleton, get?_put, ih, List.reverse_concat, List.find?_cons]
    by_cases hk : key x = k <;> simp [hk]

/-- An entry is kept if it is the last under its key. -/
theorem mem_ofList_iff : x ∈ ofList key xs ↔
    xs.reverse.find? (fun y => key y = key x) = some x := by
  rw [← get?_ofList]
  refine ⟨fun hx => ?_, List.mem_of_find?_eq_some⟩
  cases hfound : get? key (key x) (ofList key xs) with
  | none => simpa using List.find?_eq_none.1 hfound x hx
  | some y =>
    have hkey : key y = key x := by simpa using List.find?_some hfound
    rw [List.inj_on_of_nodup_map (nodup_keys_ofList key xs) (List.mem_of_find?_eq_some hfound) hx
      hkey]

theorem mem_of_mem_ofList (h : x ∈ ofList key xs) : x ∈ xs :=
  List.mem_reverse.1 (List.mem_of_find?_eq_some (mem_ofList_iff.1 h))

end Roster

end FormRules
