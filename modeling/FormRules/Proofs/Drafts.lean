import FormRules.Config
import FormRules.Proofs.Registrations

/-!
# Building a configuration

The calls on a draft only collect; what was registered, declared and given is checked when it is
built. Each check goes through its list and reports the first fault (`FirstFault`): a plain
registration of a name that was registered before, then a declared opposite with a side that nothing
registers, then a pattern that the draft's regular expressions refuse. If there is no fault, a
configuration is made, and it is a merger (`Config.Merges`): each name and each pattern stands once,
where it came first, with what was given for it last. `Draft.build_run` is the whole account, for any
regular expressions.

A pattern is judged between its anchors, so its own parentheses, flags and comments take part in
that. One that closes the group around it is accepted though it is not valid by itself, and one whose
comment swallows the end of that group is refused though it is (`Draft.build_by_itself`).
-/

namespace FormRules

/-! ## The first fault -/

section Faults

variable {β : Type} {fault : List β → β → Prop} {x y : β} {xs : List β}

/-- No element is at fault behind those before it. -/
def Faultless (fault : List β → β → Prop) (xs : List β) : Prop :=
  ∀ before x after, xs = before ++ x :: after → ¬ fault before x

/-- The element is at fault behind those before it, and none of these is. -/
def FirstFault (fault : List β → β → Prop) (xs : List β) (x : β) : Prop :=
  ∃ before after, xs = before ++ x :: after ∧ fault before x ∧ Faultless fault before

@[simp] theorem faultless_nil : Faultless fault [] := by
  intro before x after h
  simp at h

@[simp] theorem not_firstFault_nil : ¬ FirstFault fault [] x := by
  rintro ⟨before, after, h, -⟩
  simp at h

/-- A list is faultless if its head is no fault, and its tail has none behind the head. -/
theorem faultless_cons : Faultless fault (x :: xs) ↔
    ¬ fault [] x ∧ Faultless (fun before => fault (x :: before)) xs := by
  constructor
  · refine fun h => ⟨h [] x xs rfl, fun before y after hxs => h (x :: before) y after ?_⟩
    rw [hxs, List.cons_append]
  · rintro ⟨hx, hxs⟩ before y after h
    rcases List.cons_eq_append_iff.1 h with ⟨rfl, hy⟩ | ⟨before', rfl, hbefore⟩
    · obtain ⟨rfl, -⟩ := List.cons.inj hy
      exact hx
    · exact hxs before' y after hbefore

/-- The first fault of a list is its head, or the first one of its tail. -/
theorem firstFault_cons : FirstFault fault (x :: xs) y ↔
    fault [] x ∧ y = x ∨ ¬ fault [] x ∧ FirstFault (fun before => fault (x :: before)) xs y := by
  constructor
  · rintro ⟨before, after, h, hy, hbefore⟩
    rcases List.cons_eq_append_iff.1 h with ⟨rfl, hyx⟩ | ⟨before', rfl, hxs⟩
    · obtain ⟨rfl, -⟩ := List.cons.inj hyx
      exact Or.inl ⟨hy, rfl⟩
    · obtain ⟨hx, hbefore⟩ := faultless_cons.1 hbefore
      exact Or.inr ⟨hx, before', after, hxs, hy, hbefore⟩
  · rintro (⟨hx, rfl⟩ | ⟨hx, before, after, rfl, hy, hbefore⟩)
    · exact ⟨[], xs, rfl, hx, faultless_nil⟩
    · exact ⟨x :: before, after, rfl, hy, faultless_cons.2 ⟨hx, hbefore⟩⟩

/-- In a faultless list no element is at fault. -/
theorem not_of_faultless {P : β → Prop} (h : Faultless (fun _ => P) xs) (hx : x ∈ xs) : ¬ P x := by
  obtain ⟨before, after, rfl⟩ := List.append_of_mem hx
  exact h before x after rfl

/-- Where a fault has nothing to do with what is before it, a search finds the first. -/
theorem find?_iff (xs : List β) {P : β → Prop} {p : β → Bool} (hp : ∀ x, p x = true ↔ P x) :
    (xs.find? p = none ↔ Faultless (fun _ => P) xs) ∧
      ∀ x, xs.find? p = some x ↔ FirstFault (fun _ => P) xs x := by
  induction xs with
  | nil => simp
  | cons x xs ih =>
    rw [List.find?_cons, faultless_cons]
    simp only [firstFault_cons, ← hp]
    cases p x with
    | true => simp [eq_comm]
    | false => simpa using ih

end Faults

/-! ## Calls -/

namespace Draft

variable {α : Type}

/-- A call on a draft. -/
inductive Call (α : Type)
  | action (name : String) (action : α)
  | overrideAction (name : String) (action : α)
  | negative (action negative : String)
  | evaluation (e : EvaluationDef)
  | startAffix (affix negative : String)
  | endAffix (affix negative : String)
  | affixes (rules : AffixRules)
  | classes (names : ClassNames)

/-- The draft after a call. -/
def call (d : Draft α) : Call α → Draft α
  | .action name a => d.addAction name a
  | .overrideAction name a => d.overrideAction name a
  | .negative a b => d.addNegative a b
  | .evaluation e => d.addEvaluation e
  | .startAffix affix negative => { d with affixes := d.affixes.putPrefix affix negative }
  | .endAffix affix negative => { d with affixes := d.affixes.putPostfix affix negative }
  | .affixes rules => { d with affixes := rules }
  | .classes names => { d with classes := names }

/-- The draft after some calls. -/
def run (d : Draft α) (calls : List (Call α)) : Draft α := calls.foldl call d

/-- What a call registers. -/
def Call.registration? : Call α → Option (ActionDef α)
  | .action name a => some { name, action := a }
  | .overrideAction name a => some { name, action := a, override := true }
  | _ => none

/-- The opposites that a call declares. -/
def Call.negative? : Call α → Option (String × String)
  | .negative a b => some (a, b)
  | _ => none

/-- The evaluation that a call gives. -/
def Call.evaluation? : Call α → Option EvaluationDef
  | .evaluation e => some e
  | _ => none

/-- The draft has what it started with and what the calls added, in order. -/
structure Collects (start : Draft α) (calls : List (Call α)) (d : Draft α) : Prop where
  actions : d.actions = start.actions ++ calls.filterMap Call.registration?
  negatives : d.negatives = start.negatives ++ calls.filterMap Call.negative?
  evaluations : d.evaluations = start.evaluations ++ calls.filterMap Call.evaluation?
  regex : d.regex = start.regex

/-- Each call adds what it gives behind what was there, and none gives regular expressions. -/
theorem collects_run (start : Draft α) (calls : List (Call α)) :
    Collects start calls (start.run calls) := by
  induction calls generalizing start with
  | nil => constructor <;> simp [run]
  | cons c calls ih =>
    have hrun : start.run (c :: calls) = (start.call c).run calls := rfl
    obtain ⟨hactions, hnegatives, hevaluations, hregex⟩ := ih (start.call c)
    rw [hrun]
    constructor
    · rw [hactions]
      cases c <;> simp [call, addAction, overrideAction, addNegative, addEvaluation,
        List.filterMap_cons, Call.registration?]
    · rw [hnegatives]
      cases c <;> simp [call, addAction, overrideAction, addNegative, addEvaluation,
        List.filterMap_cons, Call.negative?]
    · rw [hevaluations]
      cases c <;> simp [call, addAction, overrideAction, addNegative, addEvaluation,
        List.filterMap_cons, Call.evaluation?]
    · rw [hregex]
      cases c <;> rfl

/-! ## Names -/

/-- A plain registration of a name that was registered before. -/
def Repeats (before : List (ActionDef α)) (d : ActionDef α) : Prop :=
  d.override = false ∧ d.name ∈ before.map ActionDef.name

/-- The registrations `before` have been seen. -/
theorem duplicate?_iff (before ds : List (ActionDef α)) (seen : List String)
    (hseen : ∀ name, name ∈ seen ↔ name ∈ before.map ActionDef.name) :
    (duplicate? seen ds = none ↔ Faultless (fun more => Repeats (before ++ more)) ds) ∧
      ∀ name, duplicate? seen ds = some name ↔
        ∃ d, FirstFault (fun more => Repeats (before ++ more)) ds d ∧ d.name = name := by
  induction ds generalizing before seen with
  | nil => simp [duplicate?]
  | cons d ds ih =>
    have hd : (seen.contains d.name && !d.override) = true ↔ Repeats before d := by
      simp [Repeats, hseen, and_comm]
    rw [duplicate?, faultless_cons]
    simp only [firstFault_cons, List.append_nil]
    by_cases hrepeats : Repeats before d
    · rw [if_pos (hd.2 hrepeats)]
      simp [hrepeats]
    · have hmore := ih (before ++ [d]) (d.name :: seen) (by simp [hseen, or_comm])
      rw [if_neg (mt hd.1 hrepeats)]
      simpa [hrepeats] using hmore

/-- The registry is made by one registration after the other. -/
theorem keeps_registry (ds : List (ActionDef α)) :
    (registry ds).toTables.Keeps (ds.map fun d => (d.name, d.action)) := by
  induction ds using List.reverseRecOn with
  | nil => exact Registry.Tables.Keeps.new
  | append_singleton ds d ih =>
    obtain ⟨isNew, t, hregister, -, hkeeps⟩ := ih.register d.name d.action
    have hregistry : registry (ds ++ [d]) = (registry ds).insert d.name d.action := by
      simp [registry]
    rw [Registry.register_toTables] at hregister
    obtain ⟨-, rfl⟩ := Prod.mk.inj (Option.some.inj hregister)
    rwa [hregistry, List.map_append, List.map_singleton]

/-- A name that is registered again keeps its place. -/
theorem names_registry (ds : List (ActionDef α)) :
    (registry ds).names = (ds.map ActionDef.name).eraseDups := by
  rw [(keeps_registry ds).names, List.map_map]
  rfl

/-- The action of a name is the one that was registered last. -/
theorem get?_registry (ds : List (ActionDef α)) (name : String) : (registry ds).get? name =
    (ds.reverse.find? fun d => d.name = name).map ActionDef.action := by
  have hget := (keeps_registry ds).get name
  rw [Registry.get_toTables, ← List.map_reverse, List.find?_map, Option.map_map] at hget
  exact Option.some.inj hget

/-- The action of a name is one that was registered under it. -/
theorem exists_of_get?_registry {ds : List (ActionDef α)} {name : String} {a : α}
    (h : (registry ds).get? name = some a) : ∃ d ∈ ds, d.name = name ∧ d.action = a := by
  rw [get?_registry, Option.map_eq_some_iff] at h
  obtain ⟨d, hd, rfl⟩ := h
  refine ⟨d, List.mem_reverse.1 (List.mem_of_find?_eq_some hd), ?_, rfl⟩
  simpa using List.find?_some hd

/-- The names with an action are those that were registered. -/
theorem contains_registry (ds : List (ActionDef α)) (name : String) :
    (registry ds).contains name = true ↔ name ∈ ds.map ActionDef.name := by
  rw [(keeps_registry ds).contains_iff, List.map_map]
  rfl

/-! ## Opposites -/

/-- Nothing registers the name. -/
def Unregistered (ds : List (ActionDef α)) (name : String) : Prop :=
  name ∉ ds.map ActionDef.name

/-- Nothing registers one of the names. -/
def Undefined (ds : List (ActionDef α)) (p : String × String) : Prop :=
  Unregistered ds p.1 ∨ Unregistered ds p.2

/-- The opposite that is reported is the first one with a side that nothing registers, and the side
is its first such. -/
theorem undefined?_iff (ds : List (ActionDef α)) (ps : List (String × String)) :
    (undefined? (registry ds) ps = none ↔ Faultless (fun _ => Undefined ds) ps) ∧
      ∀ action name, undefined? (registry ds) ps = some (action, name) ↔
        ∃ p, FirstFault (fun _ => Undefined ds) ps p ∧ p.1 = action ∧
          FirstFault (fun _ => Unregistered ds) [p.1, p.2] name := by
  induction ps with
  | nil => simp [undefined?]
  | cons p ps ih =>
    obtain ⟨a, b⟩ := p
    have hnamed : ∀ name, (!(registry ds).contains name) = true ↔ Unregistered ds name := by
      simp [Unregistered, ← contains_registry]
    obtain ⟨hnone, hsome⟩ := find?_iff [a, b] hnamed
    have hpair : Undefined ds (a, b) ↔ ¬ Faultless (fun _ => Unregistered ds) [a, b] := by
      simp only [faultless_cons, Undefined, faultless_nil]
      tauto
    have hfirst : ∀ p, FirstFault (fun _ => Undefined ds) ((a, b) :: ps) p ↔ _ := fun p =>
      firstFault_cons
    rw [undefined?, faultless_cons]
    simp only [hfirst, hpair, ← hnone]
    cases hfind : [a, b].find? fun name => !(registry ds).contains name with
    | some side =>
      have hside : ∀ name, FirstFault (fun _ => Unregistered ds) [a, b] name ↔ side = name := by
        simp [← hsome, hfind]
      simp [hside]
    | none => simpa using ih

/-! ## Evaluations -/

section Table

variable (regex : Regex)

/-- The pattern is refused: between its anchors it is no regular expression. -/
def Unreadable (e : EvaluationDef) : Prop := regex (Regex.whole e.pattern) = none

/-- The entry that is given for a pattern that is not refused. -/
def entry (e : EvaluationDef) : Evaluation :=
  ⟨e.pattern, regex (Regex.whole e.pattern), e.default, e.predicate, e.label⟩

variable {regex}

/-- A pattern that is refused between its anchors is not compiled. -/
theorem compile_of_unreadable {e : EvaluationDef} (h : Unreadable regex e) :
    Evaluation.compile e.pattern e.default e.predicate e.label regex =
      .error (.invalidPattern e.pattern) := by
  unfold Unreadable at h
  rw [Evaluation.compile, h]

/-- Any other pattern is compiled. -/
theorem compile_of_readable {e : EvaluationDef} (h : ¬ Unreadable regex e) :
    Evaluation.compile e.pattern e.default e.predicate e.label regex = .ok (entry regex e) := by
  obtain ⟨found, hfound⟩ := Option.ne_none_iff_exists'.1 h
  rw [Evaluation.compile, entry, hfound]

/-- A table is refused for its first pattern that is. -/
theorem table_eq_error_iff {t : EvaluationTable} {es : List EvaluationDef} {error : ConfigError} :
    table t es regex = .error error ↔
      ∃ e, FirstFault (fun _ => Unreadable regex) es e ∧ .invalidPattern e.pattern = error := by
  induction es generalizing t with
  | nil => simp [table]
  | cons e es ih =>
    rw [table]
    simp only [firstFault_cons]
    by_cases he : Unreadable regex e
    · rw [compile_of_unreadable he]
      simp [he]
    · rw [compile_of_readable he]
      simpa [he] using ih

/-- A table is made of all entries, in their order, if none is refused. -/
theorem table_eq_ok_iff {t t' : EvaluationTable} {es : List EvaluationDef} :
    table t es regex = .ok t' ↔ Faultless (fun _ => Unreadable regex) es ∧
      t' = (es.map (entry regex)).foldl EvaluationTable.insert t := by
  induction es generalizing t with
  | nil => simp [table, eq_comm]
  | cons e es ih =>
    rw [table]
    simp only [faultless_cons]
    by_cases he : Unreadable regex e
    · rw [compile_of_unreadable he]
      simp [he]
    · rw [compile_of_readable he]
      simpa [he] using ih

end Table

/-- Entries that are inserted in turn are those of a roster. -/
theorem foldl_insert (xs : List Evaluation) :
    xs.foldl EvaluationTable.insert {} = ⟨Roster.ofList Evaluation.pattern xs⟩ := by
  induction xs using List.reverseRecOn with
  | nil => rfl
  | append_singleton xs x ih =>
    rw [List.foldl_append, ih, Roster.ofList_append_singleton]
    rfl

/-! ## Checks -/

/-- The draft has no fault. -/
structure IsSound (d : Draft α) : Prop where
  names : Faultless Repeats d.actions
  opposites : Faultless (fun _ => Undefined d.actions) d.negatives
  patterns : Faultless (fun _ => Unreadable d.regex) d.evaluations

/-- What is reported: the first plain registration of a name that was registered before; without one
the first opposites of which one is not registered, and the first of the two that is not; and
without such the first pattern that is refused. -/
def Reports (d : Draft α) : ConfigError → Prop
  | .duplicateAction name => ∃ a, FirstFault Repeats d.actions a ∧ a.name = name
  | .undefinedNegative action name =>
    Faultless Repeats d.actions ∧
      ∃ p, FirstFault (fun _ => Undefined d.actions) d.negatives p ∧ p.1 = action ∧
        FirstFault (fun _ => Unregistered d.actions) [p.1, p.2] name
  | .invalidPattern pattern =>
    Faultless Repeats d.actions ∧ Faultless (fun _ => Undefined d.actions) d.negatives ∧
      ∃ e, FirstFault (fun _ => Unreadable d.regex) d.evaluations e ∧ e.pattern = pattern
  | .unknownForm _ => False

/-- The configuration of a draft without faults. -/
def merger (d : Draft α) : Config α where
  actions := registry d.actions
  negatives := d.negatives
  evaluations := ⟨Roster.ofList Evaluation.pattern (d.evaluations.map (entry d.regex))⟩
  affixes := d.affixes
  classes := d.classes
  regex := d.regex

/-- The checks one after the other. -/
theorem build_eq (d : Draft α) : d.build =
    match duplicate? [] d.actions with
    | some name => .error (.duplicateAction name)
    | none =>
      match undefined? (registry d.actions) d.negatives with
      | some (action, name) => .error (.undefinedNegative action name)
      | none => (table {} d.evaluations d.regex).map fun t => { d.merger with evaluations := t } := by
  unfold build
  dsimp only
  cases duplicate? [] d.actions with
  | some name => rfl
  | none =>
    cases undefined? (registry d.actions) d.negatives with
    | some p => rfl
    | none => cases table {} d.evaluations d.regex <;> rfl

/-- A draft is refused for just what it reports. -/
theorem build_eq_error_iff {d : Draft α} {error : ConfigError} :
    d.build = .error error ↔ d.Reports error := by
  obtain ⟨hfresh, hduplicate⟩ := duplicate?_iff [] d.actions [] (by simp)
  obtain ⟨hdefined, hundefined⟩ := undefined?_iff d.actions d.negatives
  simp only [List.nil_append] at hfresh hduplicate
  rw [build_eq]
  cases hd : duplicate? [] d.actions with
  | some name =>
    cases error <;> simp [Reports, ← hfresh, ← hduplicate, hd]
  | none =>
    cases hu : undefined? (registry d.actions) d.negatives with
    | some p =>
      cases error <;>
        simp [Reports, ← hfresh, ← hduplicate, ← hdefined, ← hundefined, hd, hu, Prod.ext_iff]
    | none =>
      have hmap : ∀ (t : Except ConfigError EvaluationTable) (f : EvaluationTable → Config α),
          t.map f = .error error ↔ t = .error error := by
        rintro (_ | _) f <;> simp [Except.map]
      rw [hmap, table_eq_error_iff]
      cases error <;> simp [Reports, ← hfresh, ← hduplicate, ← hdefined, ← hundefined, hd, hu]

/-- A draft without a fault becomes its merger. -/
theorem build_eq_ok_iff {d : Draft α} {config : Config α} :
    d.build = .ok config ↔ d.IsSound ∧ config = d.merger := by
  obtain ⟨hfresh, -⟩ := duplicate?_iff [] d.actions [] (by simp)
  obtain ⟨hdefined, -⟩ := undefined?_iff d.actions d.negatives
  simp only [List.nil_append] at hfresh
  have hsound : d.IsSound ↔ duplicate? [] d.actions = none ∧
      undefined? (registry d.actions) d.negatives = none ∧
      Faultless (fun _ => Unreadable d.regex) d.evaluations := by
    rw [hfresh, hdefined]
    exact ⟨fun h => ⟨h.names, h.opposites, h.patterns⟩, fun h => ⟨h.1, h.2.1, h.2.2⟩⟩
  rw [build_eq, hsound]
  cases duplicate? [] d.actions with
  | some name => simp
  | none =>
    cases undefined? (registry d.actions) d.negatives with
    | some p => simp
    | none =>
      have hmap : ∀ (t : Except ConfigError EvaluationTable) (f : EvaluationTable → Config α),
          t.map f = .ok config ↔ ∃ t', t = .ok t' ∧ config = f t' := by
        rintro (_ | _) f <;> simp [Except.map, eq_comm]
      simp [hmap, table_eq_ok_iff, foldl_insert, merger, and_assoc]

end Draft

/-! ## What a configuration keeps -/

/-- The configuration has each name and each pattern of the draft once, where it came first, and
under it what was registered or given last. All names in its opposites are registered. -/
structure Config.Merges {α : Type} (c : Config α) (d : Draft α) : Prop where
  names : c.actions.names = (d.actions.map ActionDef.name).eraseDups
  nodup_names : c.actions.names.Nodup
  action : ∀ name, c.actions.get? name =
    (d.actions.reverse.find? fun a => a.name = name).map ActionDef.action
  negatives : c.negatives = d.negatives
  registered : ∀ p ∈ c.negatives, c.actions.contains p.1 = true ∧ c.actions.contains p.2 = true
  patterns : c.evaluations.patterns = (d.evaluations.map EvaluationDef.pattern).eraseDups
  nodup_patterns : c.evaluations.patterns.Nodup
  entry : ∀ x ∈ c.evaluations.entries, ∃ e found,
    d.evaluations.reverse.find? (fun e => e.pattern = x.pattern) = some e ∧
      d.regex (Regex.whole e.pattern) = some found ∧
      x = ⟨e.pattern, some found, e.default, e.predicate, e.label⟩
  affixes : c.affixes = d.affixes
  classes : c.classes = d.classes
  regex : c.regex = d.regex

namespace Draft

variable {α : Type}

/-- The entries of a configuration are those that were given. -/
theorem exists_of_mem_entries {d : Draft α} {x : Evaluation}
    (hx : x ∈ d.merger.evaluations.entries) : ∃ e ∈ d.evaluations, entry d.regex e = x :=
  List.mem_map.1 (Roster.mem_of_mem_ofList hx)

/-- Patterns stand in the order in which they were first given. -/
theorem patterns_merger (d : Draft α) : d.merger.evaluations.patterns =
    (d.evaluations.map EvaluationDef.pattern).eraseDups := by
  rw [merger, EvaluationTable.patterns, Roster.keys_ofList, List.map_map]
  rfl

/-- The merger of a draft without a fault merges it. -/
theorem merges_merger {d : Draft α} (h : d.IsSound) : d.merger.Merges d where
  names := names_registry d.actions
  nodup_names := names_registry d.actions ▸ nodup_eraseDups _
  action := get?_registry d.actions
  negatives := rfl
  registered p hp := by
    have hp := not_of_faultless h.opposites hp
    simpa only [Undefined, Unregistered, not_or, not_not, ← contains_registry, merger] using hp
  patterns := patterns_merger d
  nodup_patterns := patterns_merger d ▸ nodup_eraseDups _
  entry x hx := by
    have hlast := Roster.mem_ofList_iff.1 hx
    rw [← List.map_reverse, List.find?_map, Option.map_eq_some_iff] at hlast
    obtain ⟨e, he, rfl⟩ := hlast
    have hmem : e ∈ d.evaluations := List.mem_reverse.1 (List.mem_of_find?_eq_some he)
    have hreadable : ¬ Unreadable d.regex e := not_of_faultless h.patterns hmem
    obtain ⟨found, hfound⟩ := Option.ne_none_iff_exists'.1 hreadable
    exact ⟨e, found, he, hfound, by rw [entry, hfound]⟩
  affixes := rfl
  classes := rfl
  regex := rfl

/-- An action in the place of another one keeps its position. -/
example : ((run {} [.action "show" 1, .action "hide" 2, .overrideAction "show" 3]).build.map
    fun c : Config Nat => c.actions.entries) = .ok [("show", 3), ("hide", 2)] := rfl

/-- A draft has what the calls on it added. It is built if and only if it has no fault, and then
into a configuration that merges it; otherwise the first fault is reported. Whether a pattern is at
fault is said by the regular expressions of the draft, of the pattern between its anchors. -/
theorem build_run (start : Draft α) (calls : List (Call α)) :
    Collects start calls (start.run calls) ∧
    (∀ error, (start.run calls).build = .error error ↔ (start.run calls).Reports error) ∧
    ((∃ config, (start.run calls).build = .ok config ∧ config.Merges (start.run calls)) ↔
      (start.run calls).IsSound) := by
  refine ⟨collects_run start calls, fun error => build_eq_error_iff, ?_, fun hsound => ?_⟩
  · rintro ⟨config, hbuild, -⟩
    exact (build_eq_ok_iff.1 hbuild).1
  · exact ⟨_, build_eq_ok_iff.2 ⟨hsound, rfl⟩, merges_merger hsound⟩

/-- A condition with this pattern holds of everything. -/
def always (pattern : String) : EvaluationDef where
  pattern := pattern
  default := true
  predicate := fun _ _ _ _ => true

/-- A pattern that is not valid by itself is accepted if it closes the group that it is put in, and
one that is valid by itself is refused if its comment takes in the end of that group. -/
theorem build_by_itself :
    Pattern.regex "a)|(b" = none ∧
    (∃ config, (run ({} : Draft Unit) [.evaluation (always "a)|(b")]).build = .ok config) ∧
    (Pattern.regex "(?x)a#").isSome = true ∧
    (run ({} : Draft Unit) [.evaluation (always "(?x)a#")]).build =
      .error (.invalidPattern "(?x)a#") :=
  ⟨rfl, ⟨_, rfl⟩, rfl, rfl⟩

end Draft

end FormRules
