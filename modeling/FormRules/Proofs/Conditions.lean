import FormRules.Proofs.Defaults
import FormRules.Proofs.Matching

/-!
# The default conditions

Which of the built-in entries a condition is taken for, and what it says of a field then.

The patterns of the default table are words, and words with a line behind them (`Pattern.builtin`).
What they match is said by a test on the text (`Pattern.isFor`), so the entry for a condition can be
found by looking at its beginning (`EvaluationTable.lookup_builtin`). A line has at least one
character and no line feed: an argument of several lines is not one, and a condition with such an
argument is compared with the value as it stands (`Host.check_value`).

Conditions come in pairs of opposites (`Evaluation.IsOpposite`), whose entries contradict each other
on every field and by default. A check of several fields asks for all of them, and so both of a pair
may fail, but not both hold (`Host.check_opposite`).
-/

namespace FormRules

/-! ## Words and arguments as patterns -/

namespace Pattern

/-- The pattern matches all that follows in a text. -/
def SpansRest (p : Pattern) (before rest : List Char) : Prop :=
  p.Matches (before ++ rest).toArray before.length (before ++ rest).length

/-- Characters one after the other, and then a pattern. -/
def behind (cs : List Char) (p : Pattern) : Pattern :=
  cs.foldr (fun c p => .seq (.set (.one c)) p) p

/-- A text as a pattern. -/
def word : List Char → Pattern
  | [] => .empty
  | [c] => .set (.one c)
  | c :: cs => .seq (.set (.one c)) (word cs)

/-- One line of at least one character. -/
def line : Pattern := .loop (dot {}) 1 none

section Rest

variable {before rest : List Char} {p : Pattern} {s : CharSet} {c : Char} {cs : List Char}

theorem spansRest_empty : Pattern.empty.SpansRest before rest ↔ rest = [] := by
  simp [SpansRest, Matches]

theorem spansRest_set :
    (Pattern.set s).SpansRest before rest ↔ ∃ c, s.has c = true ∧ rest = [c] := by
  cases rest with
  | nil => simp [SpansRest, Matches]
  | cons d ds =>
    simp [SpansRest, Matches]

/-- A character in front is taken first. -/
theorem spansRest_seq_one : (Pattern.seq (.set (.one c)) p).SpansRest before rest ↔
    ∃ ds, rest = c :: ds ∧ p.SpansRest (before ++ [c]) ds := by
  cases rest with
  | nil => simp [SpansRest, Matches]
  | cons d ds =>
    have hsplit : before ++ d :: ds = before ++ [d] ++ ds := by simp
    constructor
    · rintro ⟨k, ⟨⟨e, he, hc⟩, rfl⟩, hp⟩
      obtain rfl : d = e := by simpa using he
      obtain rfl : d = c := by simpa [CharSet.has] using hc
      refine ⟨ds, rfl, ?_⟩
      rwa [SpansRest, ← hsplit, List.length_append, List.length_singleton]
    · rintro ⟨es, heq, hp⟩
      obtain ⟨rfl, rfl⟩ := List.cons.inj heq
      refine ⟨before.length + 1, ⟨⟨d, by simp, by simp [CharSet.has]⟩, rfl⟩, ?_⟩
      rwa [SpansRest, ← hsplit, List.length_append, List.length_singleton] at hp

/-- A word spans itself. -/
theorem spansRest_word : (word cs).SpansRest before rest ↔ rest = cs := by
  induction cs generalizing before rest with
  | nil => exact spansRest_empty
  | cons c cs ih =>
    cases cs with
    | nil => simp [word, spansRest_set, CharSet.has]
    | cons d cs => simp [word, spansRest_seq_one, ih]

/-- What stands behind a word spans what is left behind it. -/
theorem spansRest_behind : (behind cs p).SpansRest before rest ↔
    ∃ ds, rest = cs ++ ds ∧ p.SpansRest (before ++ cs) ds := by
  induction cs generalizing before rest with
  | nil => simp [behind]
  | cons c cs ih =>
    have hcons : behind (c :: cs) p = .seq (.set (.one c)) (behind cs p) := rfl
    simp only [hcons, spansRest_seq_one, ih]
    constructor
    · rintro ⟨_, rfl, ds, rfl, hp⟩
      exact ⟨ds, rfl, by simpa using hp⟩
    · rintro ⟨ds, rfl, hp⟩
      exact ⟨_, rfl, ds, rfl, by simpa using hp⟩

/-- Characters of a set are taken one by one. -/
theorem inSteps_set {text : Array Char} {n i j : Nat} :
    InSteps ((Pattern.set s).Matches text) n i j ↔
      j = i + n ∧ ∀ k, i ≤ k → k < j → ∃ c, text[k]? = some c ∧ s.has c = true := by
  induction n generalizing j with
  | zero =>
    simp only [InSteps, Nat.add_zero]
    constructor
    · rintro rfl
      exact ⟨rfl, fun k hik hki => absurd hki (Nat.not_lt.2 hik)⟩
    · exact fun h => h.1.symm
  | succ n ih =>
    simp only [InSteps, ih]
    constructor
    · rintro ⟨k, ⟨rfl, hbefore⟩, hlast, rfl⟩
      refine ⟨rfl, fun m him hmj => ?_⟩
      rcases Nat.lt_or_ge m (i + n) with hlt | hge
      · exact hbefore m him hlt
      · obtain rfl : m = i + n := by omega
        exact hlast
    · rintro ⟨rfl, hall⟩
      exact ⟨i + n, ⟨rfl, fun k hik hk => hall k hik (by omega)⟩,
        hall (i + n) (by omega) (by omega), rfl⟩

/-- A line spans one character at least, and no line feed. -/
theorem spansRest_line : line.SpansRest before rest ↔ rest ≠ [] ∧ '\n' ∉ rest := by
  have hsteps : line.SpansRest before rest ↔ ∃ n, 1 ≤ n ∧
      InSteps ((dot {}).Matches (before ++ rest).toArray) n before.length
        (before ++ rest).length := by
    simp [SpansRest, line, Matches]
  have hget : ∀ k, (before ++ rest).toArray[before.length + k]? = rest[k]? := by
    intro k
    simp [List.getElem?_append_right]
  simp only [hsteps, dot, inSteps_set, List.length_append, Nat.add_left_cancel_iff]
  constructor
  · rintro ⟨n, hn, rfl, hall⟩
    refine ⟨List.ne_nil_of_length_pos hn, fun hmem => ?_⟩
    obtain ⟨k, hk, hline⟩ := List.mem_iff_getElem.1 hmem
    obtain ⟨c, hc, hdot⟩ := hall (before.length + k) (by omega) (by omega)
    rw [hget, List.getElem?_eq_getElem hk, hline] at hc
    obtain rfl := Option.some.inj hc
    simp [CharSet.has] at hdot
  · rintro ⟨hne, hline⟩
    refine ⟨rest.length, List.length_pos_of_ne_nil hne, rfl, fun k hk hk' => ?_⟩
    obtain ⟨m, rfl⟩ := Nat.exists_eq_add_of_le hk
    have hm : m < rest.length := by omega
    rw [hget, List.getElem?_eq_getElem hm]
    refine ⟨_, rfl, ?_⟩
    have hne : rest[m] ≠ '\n' := fun h => hline (h ▸ List.getElem_mem hm)
    simpa [CharSet.has] using hne

end Rest

/-- What a built-in pattern reads as: a word, or a word with a line behind it. -/
def builtin (pattern : List Char) : Pattern :=
  if ['.', '+'] <:+ pattern then behind pattern.dropLast.dropLast line else word pattern

/-- Whether a built-in pattern is for a text. -/
def isFor (pattern text : List Char) : Bool :=
  if ['.', '+'] <:+ pattern then
    (Text.after? pattern.dropLast.dropLast text).any fun a => a != [] && !a.contains '\n'
  else text == pattern

/-- The built-in patterns span the texts that they are for. -/
theorem spans_builtin {pattern text : List Char} :
    (builtin pattern).Spans text ↔ isFor pattern text = true := by
  have hrest : (builtin pattern).Spans text ↔ (builtin pattern).SpansRest [] text := Iff.rfl
  rw [hrest, builtin, isFor]
  split
  · rw [spansRest_behind, Option.any_eq_true]
    simp only [spansRest_line, Text.after?_eq_some_iff]
    simp
  · rw [spansRest_word]
    simp

end Pattern

/-! ## The default table -/

namespace Evaluation

/-- The entry for a built-in condition. -/
def ofBuiltin (b : String × Bool × Predicate) : Evaluation :=
  ⟨b.1, some (Pattern.builtin b.1.toList).anchored.isFoundIn, b.2.1, b.2.2, none⟩

/-- A built-in entry covers the conditions that its pattern is for. -/
theorem covers_ofBuiltin (b : String × Bool × Predicate) (condition : String) :
    (ofBuiltin b).covers condition = Pattern.isFor b.1.toList condition.toList := by
  rw [Bool.eq_iff_iff, ← Pattern.spans_builtin]
  exact Pattern.isFoundIn_anchored

end Evaluation

set_option maxRecDepth 100000 in
/-- The built-in table has the built-in entries. -/
theorem Config.entries_builtin :
    Config.builtin.evaluations.entries = Evaluation.builtins.map Evaluation.ofBuiltin := rfl

namespace EvaluationTable

/-- The built-in condition that a text is taken for. -/
def builtinFor (text : List Char) : Option (String × Bool × Predicate) :=
  Evaluation.builtins.find? fun b => Pattern.isFor b.1.toList text

/-- The entry for a condition is found by the beginning of its text, or it is compared with the
value. -/
theorem lookup_builtin (c : Value) : Config.builtin.evaluations.lookup c =
    ((builtinFor c.asText.toList).map Evaluation.ofBuiltin).getD .strictEquality := by
  unfold lookup builtinFor
  rw [Config.entries_builtin, List.find?_map]
  congr 3
  funext b
  exact Evaluation.covers_ofBuiltin b c.asText

/-- A condition for arguments of one line, if `b` is what its beginning is taken for. -/
def TakesLines (start : String) (b : String × Bool × Predicate) : Prop :=
  ∀ a, builtinFor (start.toList ++ a) =
    match a != [] && !a.contains '\n' with
    | true => some b
    | false => none

section Lines

variable {start a : String} {b : String × Bool × Predicate} {c : Value}

/-- A word that takes a line does so with every argument of one line. -/
theorem TakesLines.builtinFor_append (h : TakesLines start b) (ha : a ≠ "")
    (hline : '\n' ∉ a.toList) : builtinFor (start ++ a).toList = some b := by
  have hcond : (a.toList != [] && !a.toList.contains '\n') = true := by
    simp [ha, hline]
  rw [String.toList_append, h, hcond]

/-- A condition that is such a word and a line behind it gets the entry of the word. -/
theorem TakesLines.lookup (h : TakesLines start b) (hc : c.asText = start ++ a) (ha : a ≠ "")
    (hline : '\n' ∉ a.toList) :
    Config.builtin.evaluations.lookup c = Evaluation.ofBuiltin b := by
  rw [lookup_builtin, hc, h.builtinFor_append ha hline]
  rfl

/-- No pattern is for an argument of several lines. -/
theorem TakesLines.lookup_lines (h : TakesLines start b) (hc : c.asText = start ++ a)
    (hlines : '\n' ∈ a.toList) : Config.builtin.evaluations.lookup c = .strictEquality := by
  have hcond : (a.toList != [] && !a.toList.contains '\n') = false := by
    simp [hlines]
  rw [lookup_builtin, hc, String.toList_append, h, hcond]
  rfl

end Lines

set_option maxRecDepth 100000 in
/-- The conditions with an argument are told apart by what is in front of it. -/
theorem takesLines_builtin :
    TakesLines "value:"
      ("value:.+", false, fun _ c _ v => Evaluation.equalsArgument "value:" c v) ∧
    TakesLines "not:" ("not:.+", true, fun _ c _ v => !Evaluation.equalsArgument "not:" c v) ∧
    TakesLines "file-extension:" ("file-extension:.+", false,
      fun _ c _ v => Evaluation.hasListedExtension "file-extension:" c v) ∧
    TakesLines "not-file-extension:" ("not-file-extension:.+", true,
      fun _ c _ v => !Evaluation.hasListedExtension "not-file-extension:" c v) :=
  ⟨fun _ => rfl, fun _ => rfl, fun _ => rfl, fun _ => rfl⟩

end EvaluationTable

namespace Evaluation

/-- The argument of a condition is what stands behind the word. -/
theorem argument_append {c : Value} {start a : String} (hc : c.asText = start ++ a) :
    argument start c = a.toList := by
  have hafter : Text.after? start.toList (start ++ a).toList = some a.toList :=
    Text.after?_eq_some_iff.2 String.toList_append
  rw [argument, hc, hafter, Option.getD_some]

/-- A field is compared with the argument by its text. -/
theorem equalsArgument_iff {c : Value} {start a : String} (hc : c.asText = start ++ a)
    (v : Option Value) : equalsArgument start c v = true ↔ v = some (.text a) := by
  unfold equalsArgument
  split
  · next s => simp [argument_append hc, String.toList_inj]
  · next h =>
    simp only [Bool.false_eq_true, false_iff]
    rintro rfl
    exact h a rfl

/-- Strict equality with a text is equality. -/
theorem strictEquality_iff {flags : Flags} {f : FieldState} (s : String) (v : Option Value) :
    strictEquality.predicate flags (.text s) f v = true ↔ v = some (.text s) := by
  have hstrict : strictEquality.predicate flags (.text s) f v = v.any (Value.text s).strictEq := rfl
  rw [hstrict, Option.any_eq_true]
  constructor
  · rintro ⟨t, rfl, ht⟩
    cases t with
    | text t =>
      rw [Value.strictEq_text, beq_iff_eq] at ht
      rw [ht]
    | _ => cases ht
  · rintro rfl
    exact ⟨_, rfl, by simp⟩

/-- Conditions that are each other's opposite, by their texts. An argument is one line. -/
inductive IsOpposite : String → String → Prop
  | required : IsOpposite "required" "not-required"
  | readonly : IsOpposite "readonly" "not-readonly"
  | empty : IsOpposite "empty" "not-empty"
  | truth : IsOpposite "false" "true"
  | valid : IsOpposite "valid" "not-valid"
  | value (a : String) (ha : a ≠ "") (hline : '\n' ∉ a.toList) :
    IsOpposite ("value:" ++ a) ("not:" ++ a)
  | extension (a : String) (ha : a ≠ "") (hline : '\n' ∉ a.toList) :
    IsOpposite ("file-extension:" ++ a) ("not-file-extension:" ++ a)

/-- An entry says of every field the contrary of another, and so do the defaults. -/
structure Negates (e e' : Evaluation) (c c' : Value) : Prop where
  default : e'.default = !e.default
  predicate : ∀ flags f v, e'.predicate flags c' f v = !e.predicate flags c f v

/-- Two conditions negate each other if their built-in entries do. -/
theorem negates_of_builtinFor {c c' : Value} {t t' : String} (hc : c.asText = t)
    (hc' : c'.asText = t')
    (h : ∃ b b', EvaluationTable.builtinFor t.toList = some b ∧
      EvaluationTable.builtinFor t'.toList = some b' ∧ (ofBuiltin b).Negates (ofBuiltin b') c c') :
    (Config.builtin.evaluations.lookup c).Negates (Config.builtin.evaluations.lookup c') c c' := by
  obtain ⟨b, b', hb, hb', hnegates⟩ := h
  rw [EvaluationTable.lookup_builtin, EvaluationTable.lookup_builtin, hc, hc', hb, hb']
  exact hnegates

/-- The entries of opposite conditions contradict each other. -/
theorem IsOpposite.negates {c c' : Value} (h : IsOpposite c.asText c'.asText) :
    (Config.builtin.evaluations.lookup c).Negates (Config.builtin.evaluations.lookup c') c c' := by
  generalize hc : c.asText = t at h
  generalize hc' : c'.asText = t' at h
  refine negates_of_builtinFor hc hc' ?_
  cases h with
  | required => exact ⟨_, _, rfl, rfl, rfl, fun _ _ _ => rfl⟩
  | readonly => exact ⟨_, _, rfl, rfl, rfl, fun _ _ _ => rfl⟩
  | empty => exact ⟨_, _, rfl, rfl, rfl, fun _ _ _ => (Bool.not_not _).symm⟩
  | truth => exact ⟨_, _, rfl, rfl, rfl, fun _ _ _ => (Bool.not_not _).symm⟩
  | valid => exact ⟨_, _, rfl, rfl, rfl, fun _ _ _ => rfl⟩
  | value a ha hline =>
    obtain ⟨hvalue, hnot, -⟩ := EvaluationTable.takesLines_builtin
    refine ⟨_, _, hvalue.builtinFor_append ha hline, hnot.builtinFor_append ha hline, rfl,
      fun _ _ v => ?_⟩
    have hequals : equalsArgument "not:" c' v = equalsArgument "value:" c v := by
      rw [Bool.eq_iff_iff, equalsArgument_iff hc', equalsArgument_iff hc]
    exact congrArg (! ·) hequals
  | extension a ha hline =>
    obtain ⟨-, -, hlisted, hnot⟩ := EvaluationTable.takesLines_builtin
    refine ⟨_, _, hlisted.builtinFor_append ha hline, hnot.builtinFor_append ha hline, rfl,
      fun _ _ v => ?_⟩
    have hequals : hasListedExtension "not-file-extension:" c' v =
        hasListedExtension "file-extension:" c v := by
      unfold hasListedExtension
      rw [argument_append hc', argument_append hc]
    exact congrArg (! ·) hequals

end Evaluation

/-! ## Checks under the default table -/

/-- The answer to a check is that of the host for the fields of the identifier. -/
theorem Engine.answer_eval (e : Engine) (h : HostId) (host : Host) (field : String) (c : Value) :
    (e.hostStep h host (.eval field c)).answer =
      .truth (host.check e.flags (Spec.lenient field) c).value := by
  rw [← Spec.value_read]
  rfl

/-- A host with the default configuration, on a form of one text field. -/
def noteHost (text : String) : Host :=
  .new .builtin ((Form.empty "order").add { id := "note", kind := .text, value := text }) false

/-- Flags of which none is set. -/
def noFlags : Flags := fun _ => false

/-- The note of an order. -/
def noteField : Spec := .fields [⟨"note", []⟩]

namespace Host

variable {host : Host}

/-- What the entry for a condition says of one field. -/
def saysOf (host : Host) (flags : Flags) (c : Value) (k : Handle) : Bool :=
  match host.form.field? k with
  | some f => (host.evaluations.lookup c).predicate flags c f (host.form.value? k)
  | none => true

/-- A check asks each field that is picked, and the default decides if there is none. -/
theorem value_check_eq (host : Host) (flags : Flags) (spec : Spec) (c : Value) :
    (host.check flags spec c).value =
      if (host.resolve spec false).value = [] then (host.evaluations.lookup c).default
      else (host.resolve spec false).value.all (host.saysOf flags c) := by
  rw [value_check, value_resolve]
  rfl

/-- What a host says of a field that is picked is the entry's predicate of it. -/
theorem saysOf_of_mem {spec : Spec} {k : Handle} (hk : k ∈ (host.resolve spec false).value)
    (flags : Flags) (c : Value) : ∃ f, host.saysOf flags c k =
      (host.evaluations.lookup c).predicate flags c f (host.form.value? k) := by
  rw [value_resolve] at hk
  obtain ⟨f, hf⟩ := Form.exists_field_of_mem_pick hk
  exact ⟨f, by rw [saysOf, hf]⟩

/-- Opposite conditions contradict each other on every field, and by default. So for an identifier
of one field, or none, exactly one of them holds, and for one of more fields at most one. -/
theorem check_opposite (host : Host) (hbuiltin : host.evaluations = Config.builtin.evaluations)
    (c c' : Value) (hopposite : Evaluation.IsOpposite c.asText c'.asText) (flags : Flags)
    (spec : Spec) :
    ((host.resolve spec false).value.length ≤ 1 →
      (host.check flags spec c').value = !(host.check flags spec c).value) ∧
    ((host.check flags spec c).value && (host.check flags spec c').value) = false := by
  obtain ⟨hdefault, hpredicate⟩ := hbuiltin ▸ hopposite.negates
  have hfield : ∀ k ∈ (host.resolve spec false).value,
      host.saysOf flags c' k = !host.saysOf flags c k := by
    intro k hk
    rw [value_resolve] at hk
    obtain ⟨f, hf⟩ := Form.exists_field_of_mem_pick hk
    simp only [saysOf, hf, hpredicate]
  rw [value_check_eq, value_check_eq]
  cases hresolved : (host.resolve spec false).value with
  | nil => simp [hdefault]
  | cons k ks =>
    have hk : host.saysOf flags c' k = !host.saysOf flags c k :=
      hfield k (hresolved ▸ List.mem_cons_self)
    simp only [List.cons_ne_nil, if_false, List.all_cons, hk]
    constructor
    · intro hlength
      obtain rfl : ks = [] := List.eq_nil_of_length_eq_zero (by simpa using hlength)
      simp only [List.all_nil, Bool.and_true]
    · cases host.saysOf flags c k <;> simp

/-- A note is empty or not, and says one thing or does not. -/
theorem check_opposite_note :
    (((noteHost "soon").check noFlags noteField (.text "not-empty")).value =
      !((noteHost "soon").check noFlags noteField (.text "empty")).value) ∧
    (((noteHost "soon").check noFlags noteField (.text ("not:" ++ "later"))).value =
      !((noteHost "soon").check noFlags noteField (.text ("value:" ++ "later"))).value) := by
  have hone : ((noteHost "soon").resolve noteField false).value.length ≤ 1 := by decide +kernel
  have hempty := check_opposite (noteHost "soon") rfl (.text "empty") (.text "not-empty") .empty
    noFlags noteField
  have hvalue := check_opposite (noteHost "soon") rfl (.text ("value:" ++ "later"))
    (.text ("not:" ++ "later")) (.value "later" (by decide) (by decide)) noFlags noteField
  exact ⟨hempty.1 hone, hvalue.1 hone⟩

/-- A condition whose entry looks for a text holds if all fields read it. -/
theorem check_iff_forall {flags : Flags} {spec : Spec} {c : Value} {s : String}
    (hdefault : (host.evaluations.lookup c).default = false)
    (hpredicate : ∀ f v, (host.evaluations.lookup c).predicate flags c f v = true ↔
      v = some (.text s)) :
    (host.check flags spec c).value = true ↔
      (host.resolve spec false).value ≠ [] ∧
        ∀ k ∈ (host.resolve spec false).value, host.form.value? k = some (.text s) := by
  rw [value_check_eq]
  split
  · next hnil => simp [hdefault, hnil]
  · next hne =>
    rw [List.all_eq_true, and_iff_right hne]
    refine forall₂_congr fun k hk => ?_
    obtain ⟨f, hf⟩ := saysOf_of_mem hk flags c
    rw [hf, hpredicate]

/-- A condition whose entry excludes a text holds if no field reads it. -/
theorem check_iff_forall_ne {flags : Flags} {spec : Spec} {c : Value} {s : String}
    (hdefault : (host.evaluations.lookup c).default = true)
    (hpredicate : ∀ f v, (host.evaluations.lookup c).predicate flags c f v = true ↔
      v ≠ some (.text s)) :
    (host.check flags spec c).value = true ↔
      ∀ k ∈ (host.resolve spec false).value, host.form.value? k ≠ some (.text s) := by
  rw [value_check_eq]
  split
  · next hnil => simp [hdefault, hnil]
  · rw [List.all_eq_true]
    refine forall₂_congr fun k hk => ?_
    obtain ⟨f, hf⟩ := saysOf_of_mem hk flags c
    rw [hf, hpredicate]

/-- Conditions with a text as their argument compare the value with this text, unless it has several
lines. A text of several lines makes a condition that no pattern is for, and the value is compared
with all of it, whatever stands in front. -/
theorem check_value (host : Host) (hbuiltin : host.evaluations = Config.builtin.evaluations)
    (s : String) (hs : s ≠ "") (flags : Flags) (spec : Spec) :
    ('\n' ∉ s.toList →
      ((host.check flags spec (.text ("value:" ++ s))).value = true ↔
        (host.resolve spec false).value ≠ [] ∧
          ∀ k ∈ (host.resolve spec false).value, host.form.value? k = some (.text s)) ∧
      ((host.check flags spec (.text ("not:" ++ s))).value = true ↔
        ∀ k ∈ (host.resolve spec false).value, host.form.value? k ≠ some (.text s))) ∧
    ('\n' ∈ s.toList → ∀ start ∈ ["value:", "not:"],
      ((host.check flags spec (.text (start ++ s))).value = true ↔
        (host.resolve spec false).value ≠ [] ∧
          ∀ k ∈ (host.resolve spec false).value,
            host.form.value? k = some (.text (start ++ s)))) := by
  obtain ⟨hvalue, hnot, -⟩ := EvaluationTable.takesLines_builtin
  refine ⟨fun hline => ⟨?_, ?_⟩, fun hlines start hstart => ?_⟩
  · have hlookup := hbuiltin ▸ hvalue.lookup (c := .text ("value:" ++ s)) rfl hs hline
    refine check_iff_forall (by rw [hlookup]; rfl) fun f v => ?_
    rw [hlookup]
    exact Evaluation.equalsArgument_iff rfl v
  · have hlookup := hbuiltin ▸ hnot.lookup (c := .text ("not:" ++ s)) rfl hs hline
    refine check_iff_forall_ne (by rw [hlookup]; rfl) fun f v => ?_
    rw [hlookup, Ne, ← Evaluation.equalsArgument_iff (c := .text ("not:" ++ s)) rfl v]
    exact Bool.not_eq_eq_eq_not.trans Bool.eq_false_iff
  · obtain ⟨b, hb⟩ : ∃ b, EvaluationTable.TakesLines start b := by
      rcases List.mem_cons.1 hstart with rfl | hstart
      · exact ⟨_, hvalue⟩
      · obtain rfl := List.mem_singleton.1 hstart
        exact ⟨_, hnot⟩
    have hlookup := hbuiltin ▸ hb.lookup_lines (c := .text (start ++ s)) rfl hlines
    refine check_iff_forall (by rw [hlookup]; rfl) fun f v => ?_
    rw [hlookup]
    exact Evaluation.strictEquality_iff _ v

/-- A note of one line is what it says. One of two lines would have to say the whole condition. -/
theorem check_value_note :
    ((noteHost "soon").check noFlags noteField (.text ("value:" ++ "soon"))).value = true ∧
    ((noteHost "soon").check noFlags noteField (.text ("not:" ++ "soon"))).value = false ∧
    ((noteHost "value:so\non").check noFlags noteField
      (.text ("value:" ++ "so\non"))).value = true := by
  have hresolved : ∀ text, ((noteHost text).resolve noteField false).value = [0] := fun _ => rfl
  have hread : ∀ text, (noteHost text).form.value? 0 = some (.text text) := fun _ => rfl
  have hline := (check_value (noteHost "soon") rfl "soon" (by decide) noFlags noteField).1
    (by decide)
  have hlines := (check_value (noteHost "value:so\non") rfl "so\non" (by decide) noFlags
    noteField).2 (by decide) "value:" (by decide)
  rw [hresolved, List.forall_mem_singleton, List.forall_mem_singleton, hread] at hline
  rw [hresolved, List.forall_mem_singleton, hread] at hlines
  exact ⟨hline.1.2 ⟨by decide, rfl⟩, Bool.eq_false_iff.2 fun h => hline.2.1 h rfl,
    hlines.2 ⟨by decide, rfl⟩⟩

/-- A note of two lines is not found by either condition with these lines. -/
theorem lines_not_compared :
    (noteHost "so\non").form.value? 0 = some (.text "so\non") ∧
    ((noteHost "so\non").resolve noteField false).value = [0] ∧
    ((noteHost "so\non").check noFlags noteField (.text ("value:" ++ "so\non"))).value = false ∧
    ((noteHost "so\non").check noFlags noteField (.text ("not:" ++ "later\n"))).value = false :=
  ⟨rfl, rfl, by decide +kernel, by decide +kernel⟩

end Host

end FormRules
