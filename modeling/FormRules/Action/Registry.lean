import FormRules.Roster
import FormRules.Text.Quoted

/-!
# The action registry

Actions by name, in the order in which the names came first. A name registered again keeps its
position and takes the new action.

The names and the actions are two lists, and an index has for each name its position in both. The
operations on these tables look where the index points, and have no answer if there is nothing. The
tables of a registry are consistent (`Registry.Tables.IsConsistent`); then there always is
something, and registering keeps them so (`Registry.Tables.IsConsistent.register`).
-/

namespace FormRules

/-- The names, the action of each name at the same position, and the positions by name. -/
structure Registry.Tables (α : Type) where
  names : List String := []
  actions : List α := []
  index : List (String × Nat) := []

namespace Registry.Tables

variable {α : Type} {t : Tables α} {name : String} {a : α} {i : Nat}

/-- The position that the index has for a name. -/
def position? (t : Tables α) (name : String) : Option Nat :=
  (Roster.get? Prod.fst name t.index).map Prod.snd

/-- Whether an action has this name. -/
def contains (t : Tables α) (name : String) : Bool := (t.position? name).isSome

/-- The action of a name, if it has one; no answer if its position is out of range. -/
def get (t : Tables α) (name : String) : Option (Option α) :=
  match t.position? name with
  | some i => t.actions[i]?.map some
  | none => some none

/-- The tables with another action at a position. -/
def replace (t : Tables α) (i : Nat) (a : α) : Tables α := { t with actions := t.actions.set i a }

/-- The tables with an action under a new name. -/
def add (t : Tables α) (name : String) (a : α) : Tables α where
  names := t.names ++ [name]
  actions := t.actions ++ [a]
  index := Roster.put Prod.fst (name, t.names.length) t.index

/-- Registers an action, and tells whether its name is new; no result if the position of the name
is out of range. -/
def register (t : Tables α) (name : String) (a : α) : Option (Bool × Tables α) :=
  match t.position? name with
  | some i => if i < t.actions.length then some (false, t.replace i a) else none
  | none => some (true, t.add name a)

/-- The names with their actions, in order. -/
def entries (t : Tables α) : List (String × α) := t.names.zip t.actions

/-- How many names there are. -/
def size (t : Tables α) : Nat := t.names.length

/-- The tables in a diagnostic text. -/
def describe (t : Tables α) : String :=
  "ActionRegistry \x7b names: " ++ Text.quotedList t.names ++ " \x7d"

/-! ## Consistency -/

/-- A name that is added stands at the end, and the others where they stood. -/
theorem position?_add (t : Tables α) (name : String) (a : α) (k : String) :
    (t.add name a).position? k = if name = k then some t.names.length else t.position? k := by
  simp only [position?, add, Roster.get?_put]
  split <;> rfl

/-- The lists have one entry for each name, and the index has each name at its own position. -/
structure IsConsistent (t : Tables α) : Prop where
  length_actions : t.actions.length = t.names.length
  length_index : t.index.length = t.names.length
  position?_eq_some_iff : ∀ {name i}, t.position? name = some i ↔ t.names[i]? = some name

/-- Empty tables are consistent. -/
theorem isConsistent_new : ({} : Tables α).IsConsistent := by
  constructor <;> simp [position?, Roster.get?]

namespace IsConsistent

/-- The index points to a name. -/
theorem lt_length_names (h : t.IsConsistent) (hi : t.position? name = some i) :
    i < t.names.length :=
  (List.getElem?_eq_some_iff.1 (h.position?_eq_some_iff.1 hi)).1

/-- The index points to an action. -/
theorem lt_length_actions (h : t.IsConsistent) (hi : t.position? name = some i) :
    i < t.actions.length :=
  h.length_actions ▸ h.lt_length_names hi

/-- Looking up a name has an answer, even for one that is not there. -/
theorem isSome_get (h : t.IsConsistent) (name : String) : (t.get name).isSome := by
  unfold get
  cases hi : t.position? name with
  | some i => simp [h.lt_length_actions hi]
  | none => rfl

/-- An index that points at nothing leaves a name without an answer. -/
example : ({ index := [("show", 0)] } : Tables Nat).get "show" = none := rfl

/-- Registering has an answer for every name. -/
theorem isSome_register (h : t.IsConsistent) (name : String) (a : α) :
    (t.register name a).isSome := by
  unfold Tables.register
  cases hi : t.position? name with
  | some i => simp [h.lt_length_actions hi]
  | none => rfl

theorem replace (h : t.IsConsistent) (i : Nat) (a : α) : (t.replace i a).IsConsistent where
  length_actions := (List.length_set ..).trans h.length_actions
  length_index := h.length_index
  position?_eq_some_iff := h.position?_eq_some_iff

/-- A new name may be added, with its action at the same position. It stands at the end and nowhere
before it. -/
theorem add (h : t.IsConsistent) (hnew : t.position? name = none) (a : α) :
    (t.add name a).IsConsistent where
  length_actions := by simp [Tables.add, h.length_actions]
  length_index := by
    have hkeys : name ∉ t.index.map Prod.fst := by
      simpa [position?, Roster.get?_eq_none_iff] using hnew
    simp [Tables.add, Roster.length_put, hkeys, h.length_index]
  position?_eq_some_iff := by
    intro k i
    have hfree : ∀ j : Nat, t.names[j]? ≠ some name := fun j hj => by
      simp [h.position?_eq_some_iff.2 hj] at hnew
    rw [position?_add, Tables.add, List.getElem?_append, List.getElem?_singleton]
    by_cases hk : name = k
    · subst hk
      grind
    · rw [if_neg hk, h.position?_eq_some_iff]
      grind

/-- Registering keeps tables consistent. -/
theorem register (h : t.IsConsistent) {result : Bool × Tables α}
    (hresult : t.register name a = some result) : result.2.IsConsistent := by
  unfold Tables.register at hresult
  cases hi : t.position? name with
  | some i =>
    simp only [hi, h.lt_length_actions hi, if_true, Option.some.injEq] at hresult
    exact hresult ▸ h.replace i a
  | none =>
    simp only [hi, Option.some.injEq] at hresult
    exact hresult ▸ h.add hi a

end IsConsistent

end Registry.Tables

/-- Named actions of type `α`, in consistent tables. -/
structure Registry (α : Type) extends Registry.Tables α where
  isConsistent : toTables.IsConsistent := by exact Registry.Tables.isConsistent_new

namespace Registry

variable {α : Type}

instance : Inhabited (Registry α) := ⟨{}⟩

/-- The action of a name. -/
def get? (r : Registry α) (name : String) : Option α :=
  (r.toTables.get name).get (r.isConsistent.isSome_get name)

/-- Registers an action, and tells whether its name is new. -/
def register (r : Registry α) (name : String) (a : α) : Bool × Registry α :=
  let result := (r.toTables.register name a).get (r.isConsistent.isSome_register name a)
  (result.1, ⟨result.2, r.isConsistent.register (Option.some_get _).symm⟩)

/-- The registry with an action under a name. -/
def insert (r : Registry α) (name : String) (a : α) : Registry α := (r.register name a).2

/-- What is looked up in a registry is looked up in its tables. -/
theorem get_toTables (r : Registry α) (name : String) :
    r.toTables.get name = some (r.get? name) :=
  (Option.some_get _).symm

/-- Registering in a registry is registering in its tables. -/
theorem register_toTables (r : Registry α) (name : String) (a : α) :
    r.toTables.register name a =
      some ((r.register name a).1, (r.insert name a).toTables) :=
  (Option.some_get _).symm

/-- A name has an action if it is contained. -/
theorem isSome_get? (r : Registry α) (name : String) : (r.get? name).isSome = r.contains name := by
  have hget := r.get_toTables name
  unfold Tables.get at hget
  unfold Tables.contains
  cases hi : r.position? name with
  | some i =>
    simp only [hi, Option.map_eq_some_iff] at hget
    obtain ⟨a, -, ha⟩ := hget
    simp [← ha]
  | none =>
    simp only [hi, Option.some.injEq] at hget
    simp [← hget]

end Registry

end FormRules
