import FormRules.Negation.Affix

/-!
# Searching the affix rules

The rules are tried one after the other, those for the start of names first, and each is read from
affix to negative and then the other way. What a reading offers is asked about in turn, and the first
name that is an action ends the search. Whoever asks may keep a record of it, so the search is
written for any monad; it asks about one flat list of names, up to the first hit
(`AffixRules.search_eq`).
-/

namespace FormRules

variable {m : Type → Type} [Monad m]

/-- Asks about what a rule offers for a name, read from affix to negative and then the other way. -/
def AffixRule.search (offer : List Char → List Char → List Char → List (List Char))
    (name : List Char) (ask : String → m Bool) (rule : AffixRule) : m (Option String) :=
  [(rule.affix, rule.negative), (rule.negative, rule.affix)].findSomeM? fun (affix, opposite) =>
    ((offer affix.toList opposite.toList name).map String.ofList).findM? ask

/-- Asks about what the rules offer for a name. -/
def AffixRules.search (rules : AffixRules) (name : String) (ask : String → m Bool) :
    m (Option String) := do
  match ← rules.prefixes.findSomeM? (·.search prefixCandidates name.toList ask) with
  | some negative => return some negative
  | none => rules.postfixes.findSomeM? (·.search postfixCandidates name.toList ask)

/-! ## One flat list -/

section Flat

variable [LawfulMonad m] {α β : Type} (ask : β → m Bool)

theorem findM?_append (xs ys : List β) : (xs ++ ys).findM? ask = (do
    match ← xs.findM? ask with
    | some x => return some x
    | none => ys.findM? ask) := by
  induction xs with
  | nil => simp [List.findM?]
  | cons x xs ih =>
    simp only [List.cons_append, List.findM?, bind_assoc]
    refine bind_congr fun b => ?_
    cases b with
    | true => simp
    | false => exact ih

/-- A search of lists in turn is one search of all of them. -/
theorem findSomeM?_findM? (f : α → List β) (xs : List α) :
    xs.findSomeM? (fun x => (f x).findM? ask) = (xs.flatMap f).findM? ask := by
  induction xs with
  | nil => rfl
  | cons x xs ih =>
    rw [List.flatMap_cons, findM?_append, List.findSomeM?_cons]
    refine bind_congr fun found => ?_
    cases found with
    | some y => rfl
    | none => exact ih

end Flat

section Search

variable [LawfulMonad m] (ask : String → m Bool)

theorem AffixRule.search_eq (offer : List Char → List Char → List Char → List (List Char))
    (name : List Char) (rule : AffixRule) :
    rule.search offer name ask = ((rule.candidates offer name).map String.ofList).findM? ask := by
  simp only [search, findSomeM?_findM?, candidates, List.flatMap_cons, List.flatMap_nil,
    List.append_nil, List.map_append]

/-- The search asks about the candidates, up to the first that is an action. -/
theorem AffixRules.search_eq (rules : AffixRules) (name : String) :
    rules.search name ask = (rules.candidates name).findM? ask := by
  simp only [search, AffixRule.search_eq, findSomeM?_findM?, candidates, List.map_append,
    List.map_flatMap, findM?_append]
  refine bind_congr fun found => ?_
  cases found <;> rfl

end Search

end FormRules
