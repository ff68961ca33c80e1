import FormRules.Engine.State

/-!
# Declared and inferred opposites

A resolver keeps declared and inferred pairs in one list, and the latest pair that names a word
decides its partner. `Resolver.run` performs a sequence of calls. `Resolver.declared` reads off the
calls alone which partner a word was last given by a declaration, and `Resolver.inferredSince` which
one it was last given by a search of the affix rules after that.

A name with a declared partner is not searched for, but it may be the first candidate of a name that
is, and then the pair found takes the place of the declared one. So a declaration does not always
win: `declaration_replaced` is a short history in which it loses. It wins exactly if no search after
it found a pair with the word in it, or the last such pair agrees with it.
-/

namespace FormRules.Resolver

/-! ## Histories -/

/-- A call to a resolver. -/
inductive Call
  /-- Declares two names each other's opposite. -/
  | register (action negative : String)
  /-- Asks for the opposite of a name. -/
  | resolve (action : String)
deriving DecidableEq, Repr

/-- What a search of the affix rules finds for a name; nothing is searched for a name with a known
partner. -/
def inferred (named : String → Bool) (r : Resolver) (action : String) : Option String :=
  match r.known action with
  | some _ => none
  | none => (r.rules.candidates action).find? named

/-- The resolver after a call. -/
def after (named : String → Bool) (r : Resolver) : Call → Resolver
  | .register action negative => r.register action negative
  | .resolve action => (r.resolve action named).2.1

/-- The resolver after a sequence of calls. -/
def run (named : String → Bool) (r : Resolver) (calls : List Call) : Resolver :=
  calls.foldl (after named) r

/-- The other name of a pair, for a name in it. -/
def other (x a b : String) : Option String :=
  if x = b then some a else if x = a then some b else none

/-- The partner that the latest declaration with `x` in it gives. -/
def declared (x : String) : List Call → Option String
  | [] => none
  | .register a b :: calls => (declared x calls).or (other x a b)
  | .resolve _ :: calls => declared x calls

/-- The partner that the latest inferred pair with `x` in it gives, of those found after the latest
declaration with `x` in it. The calls start from the resolver `r`, and `found` is what was found
before them. -/
def inferredSince (named : String → Bool) (x : String) :
    Resolver → Option String → List Call → Option String
  | _, found, [] => found
  | r, found, .register a b :: calls =>
    inferredSince named x (r.register a b) (if (other x a b).isSome then none else found) calls
  | r, found, .resolve a :: calls =>
    inferredSince named x (r.after named (.resolve a))
      (((r.inferred named a).bind (other x a)).or found) calls

/-! ## One call -/

theorem rules_after (named : String → Bool) (r : Resolver) (c : Call) :
    (r.after named c).rules = r.rules := by
  cases c with
  | register a b => rfl
  | resolve a =>
    simp only [after, resolve_eq]
    split
    · rfl
    · split <;> rfl

theorem rules_run (named : String → Bool) (r : Resolver) (calls : List Call) :
    (r.run named calls).rules = r.rules := by
  induction calls generalizing r with
  | nil => rfl
  | cons c calls ih => exact (ih _).trans (rules_after named r c)

/-- The partner on record: the latest pair with `x` in it decides. -/
def partner (r : Resolver) (x : String) : Option String := r.partners.lookup x

theorem known_eq_partner (r : Resolver) (x : String) :
    r.known x = (r.partner x).filter (· != "") := rfl

theorem partner_register (r : Resolver) (a b x : String) :
    (r.register a b).partner x = (other x a b).or (r.partner x) := by
  simp only [partner, register, other, List.lookup_cons]
  by_cases hb : x = b
  · simp [hb]
  · have hb' : (x == b) = false := by simpa using hb
    by_cases ha : x = a
    · subst ha
      simp [hb, hb']
    · have ha' : (x == a) = false := by simpa using ha
      simp [hb, ha, hb', ha']

/-- A look-up puts on record what it infers, and nothing else. -/
theorem partner_after_resolve (named : String → Bool) (r : Resolver) (a x : String) :
    (r.after named (.resolve a)).partner x =
      ((r.inferred named a).bind (other x a)).or (r.partner x) := by
  cases hk : r.known a with
  | some b => simp [after, resolve_eq, inferred, hk]
  | none =>
    cases hf : (r.rules.candidates a).find? named with
    | none => simp [after, resolve_eq, inferred, hk, hf, partner]
    | some b =>
      simp only [after, resolve_eq, inferred, hk, hf]
      exact partner_register { r with searches := r.searches + 1 } a b x

/-! ## Histories of calls -/

/-- What is on record after a history: the latest inferred pair since the latest declaration, then
that declaration, then what was there before. -/
theorem partner_run (named : String → Bool) (x : String) (r : Resolver) (calls : List Call)
    (found before : Option String) (h : r.partner x = found.or before) :
    (r.run named calls).partner x =
      (inferredSince named x r found calls).or ((declared x calls).or before) := by
  induction calls generalizing r found before with
  | nil => simpa [run, inferredSince, declared] using h
  | cons c calls ih =>
    cases c with
    | resolve a =>
      have hstep : (r.after named (.resolve a)).partner x =
          (((r.inferred named a).bind (other x a)).or found).or before := by
        rw [partner_after_resolve, h, Option.or_assoc]
      simpa [run, inferredSince, declared] using ih _ _ _ hstep
    | register a b =>
      have hstep : (r.register a b).partner x =
          (if (other x a b).isSome then none else found).or ((other x a b).or before) := by
        rw [partner_register, h]
        cases other x a b <;> simp
      simpa [run, inferredSince, declared, after, Option.or_assoc] using ih _ _ _ hstep

/-- Declarations of proper names give proper partners. -/
theorem declared_ne_empty {x y : String} {calls : List Call}
    (hcalls : ∀ a b, .register a b ∈ calls → a ≠ "" ∧ b ≠ "") (h : declared x calls = some y) :
    y ≠ "" := by
  induction calls with
  | nil => simp [declared] at h
  | cons c calls ih =>
    have hrest : ∀ a b, .register a b ∈ calls → a ≠ "" ∧ b ≠ "" :=
      fun a b hab => hcalls a b (List.mem_cons_of_mem c hab)
    cases c with
    | resolve a => exact ih hrest (by simpa [declared] using h)
    | register a b =>
      obtain ⟨ha, hb⟩ := hcalls a b List.mem_cons_self
      rcases Option.or_eq_some_iff.1 (show (declared x calls).or (other x a b) = some y from h)
        with h | ⟨-, h⟩
      · exact ih hrest h
      · unfold other at h
        split at h
        · exact Option.some.inj h ▸ ha
        · split at h
          · exact Option.some.inj h ▸ hb
          · simp at h

/-- The answer of a look-up: the partner on record, unless that is the empty name. -/
theorem resolve_fst (named : String → Bool) (r : Resolver) (x : String) :
    (r.resolve x named).1 = (r.known x).or ((r.rules.candidates x).find? named) := by
  cases hk : r.known x with
  | some b => simp [resolve_eq, hk]
  | none => cases hf : (r.rules.candidates x).find? named <;> simp [resolve_eq, hk, hf]

end Resolver

/-! ## When a declaration wins -/

/-- The opposites of a configuration, as declarations in order. -/
def Config.declarations {α : Type} (c : Config α) : List Resolver.Call :=
  c.negatives.map fun p => .register p.1 p.2

/-- The resolver of a new host is one that was told the opposites of its configuration. -/
theorem Host.resolver_new (config : Config Action) (form : Form) (watched : Bool)
    (named : String → Bool) : (Host.new config form watched).resolver =
      Resolver.run named { rules := config.affixes } config.declarations := by
  simp only [Host.new, Resolver.run, Config.declarations, List.foldl_map]
  rfl

namespace Resolver

/-- A name with a declared opposite is answered with it, on the resolver of a host and after any
calls, if and only if no search since the declaration found a pair with the name in it, or the last
such pair agrees with the declaration. A pair with the empty name counts as no partner, and then the
name is searched for. The opposites of the configuration are the first declarations. -/
theorem resolve_eq_declared_iff (config : Config Action) (form : Form) (watched : Bool)
    (named : String → Bool) (calls : List Call) (x y : String)
    (hnames : ∀ a b, .register a b ∈ config.declarations ++ calls → a ≠ "" ∧ b ≠ "")
    (hdeclared : declared x (config.declarations ++ calls) = some y) :
    (((Host.new config form watched).resolver.run named calls).resolve x named).1 = some y ↔
      ∀ z, inferredSince named x { rules := config.affixes } none
          (config.declarations ++ calls) = some z →
        z = y ∨ z = "" ∧ (config.affixes.candidates x).find? named = some y := by
  have hrun : (Host.new config form watched).resolver.run named calls =
      run named { rules := config.affixes } (config.declarations ++ calls) := by
    rw [Host.resolver_new config form watched named, run, run, run, List.foldl_append]
  have hy : y ≠ "" := declared_ne_empty hnames hdeclared
  have hpartner := partner_run named x { rules := config.affixes }
    (config.declarations ++ calls) none none rfl
  rw [hrun, resolve_fst, known_eq_partner, hpartner, hdeclared, rules_run]
  cases inferredSince named x { rules := config.affixes } none (config.declarations ++ calls) with
  | none => simp [hy]
  | some z =>
    by_cases hz : z = ""
    · simp [hz, hy.symm]
    · suffices z = y → y ≠ "" by simpa [hz]
      exact fun _ => hy

/-- A configuration with the usual affix rules that declares `hide` and `toggle` opposites. -/
def hideIsToggle : Config Action where
  negatives := [("hide", "toggle")]
  affixes := .standard

/-- Whether a name is one of three actions. -/
def isShowHideToggle (name : String) : Bool := ["show", "hide", "toggle"].contains name

/-- With `hide` and `toggle` declared opposites, a look-up of `show` makes `show` the opposite of
`hide`. -/
theorem declaration_replaced :
    declared "hide" (hideIsToggle.declarations ++ [.resolve "show"]) = some "toggle" ∧
      (((Host.new hideIsToggle (.empty "f") false).resolver.run isShowHideToggle
        [.resolve "show"]).resolve "hide" isShowHideToggle).1 = some "show" := by
  decide

/-- The look-up of `show` found a pair with `hide` in it, so the declared opposite is not the
answer any more. -/
theorem resolve_hide_ne_declared :
    declared "hide" (hideIsToggle.declarations ++ [.resolve "show"]) = some "toggle" ∧
      (((Host.new hideIsToggle (.empty "f") false).resolver.run isShowHideToggle
        [.resolve "show"]).resolve "hide" isShowHideToggle).1 ≠ some "toggle" := by
  have hnames : ∀ a b, .register a b ∈ hideIsToggle.declarations ++ [.resolve "show"] →
      a ≠ "" ∧ b ≠ "" := by
    intro a b hab
    simp only [Config.declarations, hideIsToggle, List.map_cons, List.map_nil, List.cons_append,
      List.nil_append, List.mem_cons, Call.register.injEq, reduceCtorEq, List.not_mem_nil,
      or_false] at hab
    obtain ⟨rfl, rfl⟩ := hab
    decide
  have hdeclared : declared "hide" (hideIsToggle.declarations ++ [.resolve "show"]) =
      some "toggle" := by decide
  have hfound : inferredSince isShowHideToggle "hide" { rules := hideIsToggle.affixes } none
      (hideIsToggle.declarations ++ [.resolve "show"]) = some "show" := by decide
  refine ⟨hdeclared, fun h => ?_⟩
  have hagrees := (resolve_eq_declared_iff hideIsToggle (.empty "f") false isShowHideToggle
    [.resolve "show"] "hide" "toggle" hnames hdeclared).1 h "show" hfound
  exact absurd hagrees (by decide)

end Resolver

end FormRules
