import FormRules.Proofs.Changes
import FormRules.Proofs.Drafts
import FormRules.Negation.Resolver
import FormRules.Script.Basic

/-!
# The default configuration

What the built-in names, conditions and affix rules promise together. Every built-in action but
those on the choice of options reports what it changes (`BuiltinAction.reports`), and the opposite
that the usual affix rules find for the name of such an action is the name of another
(`Resolver.reporting_resolve`). The built-in conditions on values look at nothing but the
value (`Config.readsValueOnly`).
-/

namespace FormRules

/-- The default configuration. -/
def Config.builtin : Config Action :=
  match (Draft.withDefaults .builtin).build with
  | .ok config => config
  | .error _ => {}

set_option maxRecDepth 100000 in
/-- The defaults pass the checks. -/
theorem Draft.build_withDefaults : (withDefaults .builtin).build = .ok Config.builtin := rfl

/-! ## Conditions on values -/

namespace Evaluation

/-- The patterns of the built-in conditions on values; the blank one is that of strict
equality. -/
def valuePatterns : List String :=
  ["empty", "false", "not-empty", "true", "value:.+", "not:.+", "file-extension:.+",
    "not-file-extension:.+", ""]

/-- The built-in conditions on values look at nothing but the value. -/
theorem readsValueOnly_of_mem_builtins {pattern : String} {default : Bool} {predicate : Predicate}
    (h : (pattern, default, predicate) ∈ builtins) (hp : pattern ∈ valuePatterns) :
    ∀ flags flags' c f f' v, predicate flags c f v = predicate flags' c f' v := by
  simp only [builtins, List.mem_cons, Prod.mk.injEq, List.not_mem_nil, or_false] at h
  rcases h with h | h | h | h | h | h | h | h | h | h | h | h | h | h
  all_goals
    obtain ⟨rfl, -, rfl⟩ := h
    first
    | exact fun _ _ _ _ _ _ => rfl
    | exact absurd hp (by decide)

end Evaluation

/-- Under the default configuration the conditions on values look at nothing but the value. -/
theorem Config.readsValueOnly {config : Config Action}
    (hconfig : (Draft.withDefaults .builtin).build = .ok config) {c : Value}
    (hc : (config.evaluations.lookup c).pattern ∈ Evaluation.valuePatterns) :
    (config.evaluations.lookup c).ReadsValueOnly := by
  obtain ⟨-, hmerger⟩ := Draft.build_eq_ok_iff.1 hconfig
  unfold EvaluationTable.lookup at hc ⊢
  cases hfind : config.evaluations.entries.find? (·.covers c.asText) with
  | none => exact fun _ _ _ _ _ _ => rfl
  | some entry =>
    rw [hfind] at hc
    obtain ⟨e, he, rfl⟩ := Draft.exists_of_mem_entries (hmerger ▸ List.mem_of_find?_eq_some hfind)
    obtain ⟨⟨pattern, default, predicate⟩, hmem, rfl⟩ := List.mem_map.1 he
    exact Evaluation.readsValueOnly_of_mem_builtins hmem hc

/-! ## Actions that report -/

namespace BuiltinAction

/-- Whether everything that the action changes is reported. Hiding an option may move the selection
of its list, and that is not. -/
def reports : BuiltinAction → Bool
  | .effect e _ => e != .optionVisible
  | _ => true

/-- The names of the built-in actions that report what they change. -/
def reportingNames : List String := (all.filter (·.2.reports)).map Prod.fst

theorem reports_of_mem_reportingNames {name : String} {a : BuiltinAction} (h : (name, a) ∈ all)
    (hname : name ∈ reportingNames) : a.reports = true := by
  have hall : ∀ p ∈ all, p.1 ∈ reportingNames → p.2.reports = true := by decide
  exact hall _ h hname

/-- An action that reports does not touch the choice of options. -/
theorem ne_optionVisible_of_mem_plan {a : BuiltinAction} (h : a.reports = true)
    {classes : ClassNames} {args : Args} {field : String} {e : Effect} {s : Switch}
    (he : .effect field e s ∈ a.plan classes args) : e ≠ .optionVisible := by
  rintro rfl
  cases a with
  | effect e s => simp_all [plan, reports]
  | classed s index =>
    simp only [plan] at he
    split at he <;> simp at he
  | collapse s =>
    simp only [plan] at he
    split at he <;> simp at he
  | required s =>
    simp only [plan, List.mem_cons] at he
    rcases he with he | he
    · simp at he
    · split at he <;> simp at he
  | write =>
    simp only [plan] at he
    split at he <;> simp at he

end BuiltinAction

/-- Under the default configuration a reporting name is that of a built-in action that reports. -/
theorem Config.reports_of_get? {config : Config Action}
    (hconfig : (Draft.withDefaults .builtin).build = .ok config) {name : String} {action : Action}
    (hname : name ∈ BuiltinAction.reportingNames) (h : config.actions.get? name = some action) :
    ∃ a, action = .builtin a ∧ a.reports = true := by
  obtain ⟨-, rfl⟩ := Draft.build_eq_ok_iff.1 hconfig
  obtain ⟨d, hd, hdname, rfl⟩ := Draft.exists_of_get?_registry h
  obtain ⟨⟨n, a⟩, hmem, rfl⟩ := List.mem_map.1 hd
  obtain rfl : n = name := hdname
  exact ⟨a, rfl, BuiltinAction.reports_of_mem_reportingNames hmem hname⟩

theorem Config.mem_all_of_contains {config : Config Action}
    (hconfig : (Draft.withDefaults .builtin).build = .ok config) {name : String}
    (h : config.actions.contains name = true) : name ∈ BuiltinAction.all.map Prod.fst := by
  obtain ⟨-, rfl⟩ := Draft.build_eq_ok_iff.1 hconfig
  have hname := (Draft.contains_registry _ name).1 h
  rwa [Draft.withDefaults, List.map_map] at hname

/-! ## Opposites -/

set_option maxRecDepth 100000 in
/-- The opposites of reporting names, if they are actions at all, report. -/
theorem AffixRules.reporting_candidates : ∀ name ∈ BuiltinAction.reportingNames,
    ∀ c ∈ AffixRules.standard.candidates name, c ∈ BuiltinAction.all.map Prod.fst →
      c ∈ BuiltinAction.reportingNames := by
  decide +kernel

namespace Resolver

/-- The resolver knows pairs of reporting names only, and has the usual rules for others. -/
structure IsReporting (r : Resolver) : Prop where
  rules : r.rules = .standard
  partners : ∀ p ∈ r.partners, p.2 ∈ BuiltinAction.reportingNames

theorem isReporting_known {r : Resolver} (h : r.IsReporting) {a b : String}
    (hk : r.known a = some b) : b ∈ BuiltinAction.reportingNames := by
  obtain ⟨hlookup, -⟩ := Option.filter_eq_some_iff.1 hk
  obtain ⟨l₁, l₂, heq, -⟩ := List.lookup_eq_some_iff.1 hlookup
  exact h.partners (a, b) (by simp [heq])

/-- The opposite of a reporting name reports, and the resolver still knows such names only. -/
theorem reporting_resolve {r : Resolver} (h : r.IsReporting) {config : Config Action}
    (hconfig : (Draft.withDefaults .builtin).build = .ok config) {name : String}
    (hname : name ∈ BuiltinAction.reportingNames) :
    (∀ b, (r.resolve name config.actions.contains).1 = some b →
        b ∈ BuiltinAction.reportingNames) ∧
      (r.resolve name config.actions.contains).2.1.IsReporting := by
  rw [resolve_eq]
  cases hk : r.known name with
  | some b =>
    refine ⟨fun c hc => ?_, h⟩
    obtain rfl : b = c := Option.some.inj hc
    exact isReporting_known h hk
  | none =>
    cases hfind : (r.rules.candidates name).find? config.actions.contains with
    | none =>
      simp only [hfind]
      exact ⟨fun b hb => by simp at hb, h.rules, h.partners⟩
    | some b =>
      have hb : b ∈ BuiltinAction.reportingNames := by
        refine AffixRules.reporting_candidates name hname b ?_
          (Config.mem_all_of_contains hconfig (List.find?_some hfind))
        rw [← h.rules]
        exact List.mem_of_find?_eq_some hfind
      simp only [hfind]
      refine ⟨fun c hc => Option.some.inj hc ▸ hb, h.rules, fun p hp => ?_⟩
      simp only [register, List.mem_cons] at hp
      rcases hp with rfl | rfl | hp
      · exact hname
      · exact hb
      · exact h.partners p hp

/-- The resolver of a new host under the default configuration knows no pair. -/
theorem isReporting_new {config : Config Action}
    (hconfig : (Draft.withDefaults .builtin).build = .ok config) (form : Form) (watched : Bool) :
    (Host.new config form watched).resolver.IsReporting := by
  obtain ⟨-, rfl⟩ := Draft.build_eq_ok_iff.1 hconfig
  simp only [Host.new, Draft.merger, Draft.withDefaults, List.foldl_nil]
  exact ⟨rfl, by simp⟩

end Resolver

end FormRules
