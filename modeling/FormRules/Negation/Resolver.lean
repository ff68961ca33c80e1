import FormRules.Diagnostic
import FormRules.Negation.Search

/-!
# Opposites of actions

The resolver knows pairs of opposite names. Asked for the opposite of a name, it gives the known
partner; without one it tries the candidates of the affix rules, and the first that names an action
becomes the partner of the name, in both directions.
-/

namespace FormRules

/-- The known pairs, latest first and each in both directions, and how often the rules were
searched. -/
structure Resolver where
  rules : AffixRules
  partners : List (String × String) := []
  searches : Nat := 0
deriving DecidableEq, Repr, Inhabited

namespace Resolver

/-- Makes two names each other's opposite. -/
def register (r : Resolver) (action negative : String) : Resolver :=
  { r with partners := (negative, action) :: (action, negative) :: r.partners }

/-- The known opposite of a name; the empty name is nobody's. -/
def known (r : Resolver) (action : String) : Option String :=
  (r.partners.lookup action).filter (· != "")

/-- The opposite of a name, where `ask` tells of each name whether it is an action. A search of the
rules is counted and reported. -/
def resolveM {m : Type → Type} [Monad m] (r : Resolver) (action : String) (ask : String → m Bool) :
    m (Option String × Resolver × List Diagnostic) :=
  match r.known action with
  | some negative => return (some negative, r, [])
  | none => do
    let r := { r with searches := r.searches + 1 }
    match ← r.rules.search action ask with
    | some negative =>
      return (some negative, r.register action negative, [.negativeInferred action negative])
    | none => return (none, r, [.noNegativeFound action])

/-- The opposite of a name, where `named` tells which names are actions. -/
def resolve (r : Resolver) (action : String) (named : String → Bool) :
    Option String × Resolver × List Diagnostic :=
  Id.run (r.resolveM action fun name => pure (named name))

/-- A look-up of an unknown name finds the first candidate that is an action. -/
theorem resolve_eq (r : Resolver) (action : String) (named : String → Bool) :
    r.resolve action named = match r.known action with
      | some negative => (some negative, r, [])
      | none =>
        let r := { r with searches := r.searches + 1 }
        match (r.rules.candidates action).find? named with
        | some negative =>
          (some negative, r.register action negative, [.negativeInferred action negative])
        | none => (none, r, [.noNegativeFound action]) := by
  unfold resolve resolveM
  cases r.known action with
  | some negative => rfl
  | none =>
    simp only [AffixRules.search_eq, List.findM?_pure, pure_bind]
    cases (r.rules.candidates action).find? named <;> rfl

theorem resolve_of_known {r : Resolver} {a b : String} (h : r.known a = some b)
    (named : String → Bool) : r.resolve a named = (some b, r, []) := by
  simp [resolve_eq, h]

end Resolver

end FormRules
