import FormRules.Proofs.Freshness
import FormRules.Proofs.Switches
import Mathlib.Data.List.Flatten
import Mathlib.Data.List.Pairwise
import Mathlib.Logic.Relation

/-!
# Sheets of rules

A sheet is a form of texts and checkboxes with the calls that are made on it: rules without brackets
whose actions set and unset properties, and writes. Two things are read off a sheet before anything
runs. `Sheet.Drives` says which properties of which fields an action of a rule may switch, and
`Sheet.Feeds` which rules may be triggered by the boxes that a rule checks. A sheet is orderly
(`Sheet.IsOrderly`) if no property is driven twice and no rule feeds itself, not even through others.

What every task of a run may switch (`Task.Orders`) and whom it may wake (`Task.Wakes`) is read off
the sheet in the same way, so that a run can be followed by looking at its agenda.
-/

namespace FormRules

open BuiltinAction

/-! ## Rules and calls -/

/-- An action of a rule, which runs while the rule holds, or else while it fails. -/
structure Command where
  failing : Bool
  name : String
  args : Args

/-- Actions that are attached together. -/
structure Attachment where
  failing : Bool
  names : List String
  args : Args

/-- A condition on the value of a field, joined to those before it. -/
structure Part where
  isOr : Bool
  condition : Value
  field : String

/-- A rule without brackets: its conditions, and then its attachments. -/
structure SwitchRule where
  condition : Value
  field : String
  parts : List Part
  attachments : List Attachment

namespace Attachment

/-- The results on which the actions run as named; on the others their opposites do. -/
def polarity (a : Attachment) : Polarity := if a.failing then .failing else .holding

/-- The actions as the tokens of a list, each by its name. -/
def tokens (a : Attachment) : List (Token Step) := a.names.map .named

/-- The operation of a chain that attaches. -/
def op (a : Attachment) : ChainOp Step := .attach a.polarity a.tokens a.args

/-- What the attachment leaves with a query: a callback for the one host of a sheet that runs on every
result. -/
def callback (a : Attachment) : Callback := .attached 0 a.polarity a.tokens a.args false

/-- The actions one by one. -/
def commands (a : Attachment) : List Command := a.names.map (⟨a.failing, ·, a.args⟩)

end Attachment

/-- The operations of a chain that add the condition. -/
def Part.ops (p : Part) : List (ChainOp Step) :=
  [if p.isOr then .or else .and, .when (.value p.condition) (some p.field)]

namespace SwitchRule

/-- The conditions, each with its field. -/
def conditions (r : SwitchRule) : List (Value × String) :=
  (r.condition, r.field) :: r.parts.map fun p => (p.condition, p.field)

/-- All actions of the rule, in the order in which they are attached. -/
def commands (r : SwitchRule) : List Command := r.attachments.flatMap Attachment.commands

/-- The chain that builds the rule. -/
def chain (r : SwitchRule) : List (ChainOp Step) :=
  .when (.value r.condition) (some r.field) ::
    (r.parts.flatMap Part.ops ++ r.attachments.map Attachment.op)

end SwitchRule

/-- What is asked of a host: to build a rule, or to write a value. -/
inductive Call
  | rule (r : SwitchRule) (name : Option String)
  | write (field : String) (v : Value) (automatic : Bool)

namespace Call

/-- The call as a step of a script. -/
def step : Call → Step
  | rule r name => .rule r.chain name none
  | write field v automatic => .write field v automatic

/-- The rule that is built, if the call builds one. -/
def rule? : Call → Option SwitchRule
  | rule r _ => some r
  | write .. => none

/-- The field that is written to. -/
def written? : Call → Option String
  | rule .. => none
  | write field _ _ => some field

end Call

/-- A form, and what is asked of its host. -/
structure Sheet where
  form : Form
  calls : List Call

/-- What a list of actions is to bring about on a form, or the opposite of it: that `e` is `on` at
`h`. -/
def Form.Orders (form : Form) (tokens : List (Token Step)) (args : Args) (negate : Bool)
    (h : Handle) (e : Effect) (on : Bool) : Prop :=
  h ∈ form.pick (Spec.lenient args.field) ∧
    ∃ name, .named name ∈ tokens ∧ (e, on != negate) ∈ switchesOf name args

namespace Sheet

/-- The rules, in the order in which they are built. -/
def rules (S : Sheet) : List SwitchRule := S.calls.filterMap Call.rule?

/-- The script that makes the calls of the sheet, one after the other. -/
def steps (S : Sheet) : List Step := S.calls.map Call.step

/-- Whether some call writes to the group of a field. -/
def Writes (S : Sheet) (h : Handle) : Prop :=
  ∃ field v automatic, .write field v automatic ∈ S.calls ∧
    h ∈ S.form.pick (Spec.lenient field).trigger

/-- Whether an action may switch the property of the field. -/
def Drives (S : Sheet) (c : Command) (h : Handle) (e : Effect) : Prop :=
  h ∈ S.form.pick (Spec.lenient c.args.field) ∧ ∃ on, (e, on) ∈ switchesOf c.name c.args

/-- Whether the rule has a condition on the group of the field. -/
def Watches (S : Sheet) (i : QueryId) (h : Handle) : Prop :=
  ∃ r, S.rules[i]? = some r ∧ ∃ c ∈ r.conditions, h ∈ S.form.pick (Spec.lenient c.2).trigger

/-- Whether one rule checks a box that the other has a condition on. -/
def Feeds (S : Sheet) (i j : QueryId) : Prop :=
  ∃ r, S.rules[i]? = some r ∧ ∃ c ∈ r.commands, ∃ h, S.Drives c h .checked ∧ S.Watches j h

/-- Writes are looked for among the calls. -/
instance (S : Sheet) (h : Handle) : Decidable (S.Writes h) :=
  decidable_of_iff (∃ c ∈ S.calls, c.written?.any fun field =>
    h ∈ S.form.pick (Spec.lenient field).trigger) (by
    constructor
    · rintro ⟨c | ⟨field, v, automatic⟩, hc, hany⟩
      · simp [Call.written?] at hany
      · exact ⟨field, v, automatic, hc, by simpa [Call.written?] using hany⟩
    · exact fun ⟨field, v, automatic, hc, hh⟩ => ⟨_, hc, by simpa [Call.written?] using hh⟩)

/-- What an action drives is looked up among its switches. -/
instance (S : Sheet) (c : Command) (h : Handle) (e : Effect) : Decidable (S.Drives c h e) :=
  decidable_of_iff (h ∈ S.form.pick (Spec.lenient c.args.field) ∧
    ∃ p ∈ switchesOf c.name c.args, p.1 = e)
    ⟨fun ⟨hh, p, hp, heq⟩ => ⟨hh, p.2, heq ▸ hp⟩, fun ⟨hh, _, hp⟩ => ⟨hh, _, hp, rfl⟩⟩

/-- What a rule watches is looked for among its conditions. -/
instance (S : Sheet) (i : QueryId) (h : Handle) : Decidable (S.Watches i h) :=
  inferInstanceAs (Decidable (∃ r ∈ S.rules[i]?, ∃ c ∈ r.conditions,
    h ∈ S.form.pick (Spec.lenient c.2).trigger))

/-- Whom a rule feeds is decided by the boxes that its actions check, which are finitely many. -/
instance (S : Sheet) (i j : QueryId) : Decidable (S.Feeds i j) :=
  decidable_of_iff (∃ r ∈ S.rules[i]?, ∃ c ∈ r.commands,
    ∃ h ∈ S.form.pick (Spec.lenient c.args.field), S.Drives c h .checked ∧ S.Watches j h)
    ⟨fun ⟨r, hr, c, hc, h, _, hd, hw⟩ => ⟨r, hr, c, hc, h, hd, hw⟩,
      fun ⟨r, hr, c, hc, h, hd, hw⟩ => ⟨r, hr, c, hc, h, hd.1, hd, hw⟩⟩

/-- Only rules of the sheet feed each other. -/
theorem Feeds.lt_length {S : Sheet} {i j : QueryId} (h : S.Feeds i j) :
    i < S.rules.length ∧ j < S.rules.length := by
  obtain ⟨r, hr, c, hc, k, hd, r', hr', hw⟩ := h
  exact ⟨(List.getElem?_eq_some_iff.1 hr).1, (List.getElem?_eq_some_iff.1 hr').1⟩

/-- What the attachment `i` of the rule `q` is to bring about when the rule comes to `b`. -/
def Wants (S : Sheet) (q : QueryId) (i : Nat) (b : Bool) (h : Handle) (e : Effect) (on : Bool) :
    Prop :=
  ∃ r a, S.rules[q]? = some r ∧ r.attachments[i]? = some a ∧
    S.form.Orders a.tokens a.args (b == a.failing) h e on

/-- Rules on values, no two of whose actions drive the same property of a field, and none of which
feeds itself. -/
structure IsOrderly (S : Sheet) : Prop where
  plain : S.form.IsPlain
  conditions : ∀ r ∈ S.rules, ∀ c ∈ r.conditions,
    (Config.builtin.evaluations.lookup c.1).pattern ∈ Evaluation.valuePatterns ∧
      c.2.toList.all Text.isBlank = false
  names : ∀ r ∈ S.rules, ∀ c ∈ r.commands, c.name ∈ switchNames
  /-- Targets are named without values. -/
  targets : ∀ r ∈ S.rules, ∀ c ∈ r.commands,
    (Spec.lenient c.args.field).trigger = Spec.lenient c.args.field
  boxes : ∀ r ∈ S.rules, ∀ c ∈ r.commands, ∀ h, S.Drives c h .checked → S.form.isBox h
  distinct : (S.rules.flatMap SwitchRule.commands).Pairwise fun c c' =>
    ∀ h e, S.Drives c h e → ¬ S.Drives c' h e
  acyclic : ∀ i, ¬ Relation.TransGen S.Feeds i i

end Sheet

/-- No action switches a property both on and off. -/
theorem BuiltinAction.switchesOf_unique {name : String} {args : Args} {e e' : Effect}
    {on on' : Bool} (h : (e, on) ∈ switchesOf name args) (h' : (e', on') ∈ switchesOf name args) :
    on = on' := by
  unfold switchesOf at h h'
  cases ha : all.lookup name with
  | none => simp [ha] at h
  | some a =>
    rw [ha] at h h'
    exact switches_unique a h h'

namespace Sheet

variable {S : Sheet} {q q' : QueryId} {i i' : Nat} {b b' : Bool} {h : Handle} {e : Effect}
  {on on' : Bool}

/-- What an attachment wants is the business of one of its commands. -/
theorem Wants.exists_command (hw : S.Wants q i b h e on) : ∃ r, S.rules[q]? = some r ∧
    ∃ c ∈ r.commands, S.Drives c h e ∧ (e, on != (b == c.failing)) ∈ switchesOf c.name c.args := by
  obtain ⟨r, a, hr, ha, hpick, name, hname, hswitch⟩ := hw
  have hname' : name ∈ a.names := by simpa [Attachment.tokens] using hname
  have hmem : (⟨a.failing, name, a.args⟩ : Command) ∈ r.commands :=
    List.mem_flatMap.2 ⟨a, List.mem_of_getElem? ha, List.mem_map.2 ⟨name, hname', rfl⟩⟩
  exact ⟨r, hr, _, hmem, ⟨hpick, _, hswitch⟩, hswitch⟩

/-- A property of a field is driven by one action only. -/
theorem IsOrderly.eq_of_drives (hS : S.IsOrderly) {r r' : SwitchRule} {c c' : Command}
    (hr : S.rules[q]? = some r) (hr' : S.rules[q']? = some r') (hc : c ∈ r.commands)
    (hc' : c' ∈ r'.commands) (hd : S.Drives c h e) (hd' : S.Drives c' h e) : q = q' ∧ c = c' := by
  obtain ⟨hinner, houter⟩ := List.pairwise_flatMap.1 hS.distinct
  rcases Nat.lt_trichotomy q q' with hlt | rfl | hgt
  · obtain ⟨hq, rfl⟩ := List.getElem?_eq_some_iff.1 hr
    obtain ⟨hq', rfl⟩ := List.getElem?_eq_some_iff.1 hr'
    exact absurd hd' (List.pairwise_iff_getElem.1 houter q q' hq hq' hlt c hc c' hc' h e hd)
  · obtain rfl := Option.some.inj (hr.symm.trans hr')
    have hsymm : Std.Symm fun c c' : Command => ∀ h e, S.Drives c h e → ¬ S.Drives c' h e :=
      ⟨fun c c' hcc h e hd' hd => hcc h e hd hd'⟩
    by_contra hne
    have hcc : c ≠ c' := fun heq => hne ⟨rfl, heq⟩
    exact (hinner r (List.mem_of_getElem? hr)).forall hc hc' hcc h e hd hd'
  · obtain ⟨hq, rfl⟩ := List.getElem?_eq_some_iff.1 hr
    obtain ⟨hq', rfl⟩ := List.getElem?_eq_some_iff.1 hr'
    exact absurd hd (List.pairwise_iff_getElem.1 houter q' q hq' hq hgt c' hc' c hc h e hd')

/-- On an orderly sheet whoever wants something of a property is one rule, which wants one thing of it
for each of its results. -/
theorem IsOrderly.unique (hS : S.IsOrderly) (hw : S.Wants q i b h e on)
    (hw' : S.Wants q' i' b' h e on') : q = q' ∧ (b = b' → on = on') := by
  obtain ⟨r, hr, c, hc, hd, hswitch⟩ := hw.exists_command
  obtain ⟨r', hr', c', hc', hd', hswitch'⟩ := hw'.exists_command
  obtain ⟨rfl, rfl⟩ := hS.eq_of_drives hr hr' hc hc' hd hd'
  refine ⟨rfl, ?_⟩
  rintro rfl
  have hsame := switchesOf_unique hswitch hswitch'
  cases on <;> cases on' <;> simp_all

/-- The visibility of options is nothing that the rules of an orderly sheet drive. -/
theorem Wants.ne_optionVisible (hS : S.IsOrderly) (hw : S.Wants q i b h e on) :
    e ≠ .optionVisible := by
  obtain ⟨r, hr, c, hc, -, hswitch⟩ := hw.exists_command
  obtain ⟨-, a, -, -, ha, hisSwitch, -⟩ :=
    partner_lookup c.name (hS.names r (List.mem_of_getElem? hr) c hc)
  rw [switchesOf, ha] at hswitch
  exact ne_optionVisible_of_mem_switches hisSwitch hswitch

end Sheet

namespace Task

/-! ## What tasks bring about -/

/-- Whether the task is to bring about that `e` is `on` at `h`, by itself or by what follows. -/
def Orders (S : Sheet) (h : Handle) (e : Effect) (on : Bool) : Task → Prop
  | .round q b _ pending => ∃ i ∈ pending, S.Wants q i b h e on
  | .deliver q i b _ => S.Wants q i b h e on
  | .dispatch _ tokens args negate .. => S.form.Orders tokens args negate h e on
  | .perform _ action args _ => h ∈ S.form.pick (Spec.lenient args.field) ∧
      ∃ a, action = .builtin a ∧ (e, on) ∈ a.switches args
  | .effect _ field x s .. => h ∈ S.form.pick (Spec.lenient field) ∧ x = e ∧ s = .ofBool on
  | _ => False

/-- Whether the task may come to trigger the rule without an order. -/
def Rouses (S : Sheet) (j : QueryId) : Task → Prop
  | .trigger q => q = j
  | .inform listeners .. => .query j ∈ listeners
  | .notify _ changed _ => ∃ h ∈ changed, S.Watches j h
  | .step _ | .chain .. | .write .. => True
  | _ => False

/-- Whether the task may come to trigger the rule before it triggers any other. -/
def Wakes (S : Sheet) (j : QueryId) (t : Task) : Prop :=
  t.Rouses S j ∨ ∃ h on, t.Orders S h .checked on ∧ S.Watches j h

/-- Whether the task builds a rule. -/
def Opens : Task → Prop
  | .step _ | .chain .. => True
  | _ => False

/-- Whether the task stays below those that build a rule. -/
def IsOuter : Task → Prop
  | .step _ | .ran _ | .answer _ | .hold .. => True
  | _ => False

/-- Whether the task is to add conditions to a rule. -/
def Builds : Task → Prop
  | .chain _ ops _ => ∃ op ∈ ops, ∀ a : Attachment, op ≠ a.op
  | _ => False

/-- The chain that a task starts. -/
def chain? : Task → Option (List (ChainOp Step))
  | .step (.rule ops _ _) => some ops
  | _ => none

/-- `t` may stand in front of `t'` on an agenda: what it may trigger, even through others, has no
orders left in `t'`. -/
structure Before (S : Sheet) (t t' : Task) : Prop where
  orders : ∀ j q, t.Wakes S j → Relation.ReflTransGen S.Feeds j q →
    ∀ i b h e on, S.Wants q i b h e on → ∀ on', ¬ t'.Orders S h e on'
  outer : t.Opens → t'.IsOuter
  builds : ¬ t'.Builds

end Task

/-! ## Engines on a sheet -/

/-- The subscriptions of rules to what they watch, and a form with the fields of the sheet. -/
structure Host.Follows (S : Sheet) (n : Nat) (host : Host) : Prop where
  config : host.config = Config.builtin
  fields : S.form.SameIds host.form
  kinds : host.form.kinds = S.form.kinds
  resolver : host.resolver.IsPaired
  subscriptions : ∀ sub ∈ host.subscriptions, ∃ q < n, sub.listener = .query q ∧
    ∀ h, sub.covers h = true → S.Watches q h

/-- A query that is the rule at its position, with the first of the attachments. -/
structure Query.Follows (S : Sheet) (q : QueryId) (s : Query) : Prop where
  parent : s.parent = none
  rule : ∃ r, S.rules[q]? = some r ∧ s.callbacks <+: r.attachments.map Attachment.callback

/-- A facet of the rule `r` that `k` attachments have been made to, and the operations that are left
of its chain. -/
inductive SwitchRule.Continues (r : SwitchRule) (k : Nat) : FacetKind → List (ChainOp Step) → Prop
  | condition {v : Value} {field : String} {parts : List Part} (h : (v, field) ∈ r.conditions)
      (hparts : ∀ p ∈ parts, (p.condition, p.field) ∈ r.conditions) :
      Continues r k .condition (.when (.value v) (some field) ::
        (parts.flatMap Part.ops ++ (r.attachments.drop k).map Attachment.op))
  | junction {parts : List Part} (hparts : ∀ p ∈ parts, (p.condition, p.field) ∈ r.conditions) :
      Continues r k .junction (parts.flatMap Part.ops ++ (r.attachments.drop k).map Attachment.op)

namespace Engine

/-- A task of a run on the sheet. -/
def Follows (S : Sheet) (e : Engine) : Task → Prop
  | .step s => ∃ c ∈ S.calls, s = c.step
  | .chain f ops _ => f.host = 0 ∧ f.query + 1 = e.queries.length ∧
      ∃ r, S.rules[f.query]? = some r ∧ r.Continues (e.callbacks f.query).length f.kind ops
  | .trigger q => q < e.queries.length
  | .round q _ _ pending => ∀ i ∈ pending, i < (e.callbacks q).length
  | .deliver q i _ _ => i < (e.callbacks q).length
  | .dispatch h tokens args .. => h = 0 ∧ ∃ (q : QueryId) (r : SwitchRule),
      S.rules[q]? = some r ∧ ∃ a ∈ r.attachments, args = a.args ∧ tokens ⊆ a.tokens
  | .perform h action args _ => h = 0 ∧ ∃ r ∈ S.rules, ∃ c ∈ r.commands, args = c.args ∧
      ∃ a, action = .builtin a ∧ a.isSwitch = true ∧
        ∀ x on, (x, on) ∈ a.switches args → ∃ on', (x, on') ∈ switchesOf c.name args
  | .effect h field x s .. => h = 0 ∧ x ≠ .optionVisible ∧ (∃ on, s = .ofBool on) ∧
      ∃ r ∈ S.rules, ∃ c ∈ r.commands, field = c.args.field ∧
        ∃ on, (x, on) ∈ switchesOf c.name c.args
  | .write h field .. => h = 0 ∧ ∃ v automatic, .write field v automatic ∈ S.calls
  | .notify h .. => h = 0
  | .inform listeners .. => ∀ l ∈ listeners, ∃ q < e.queries.length, l = .query q
  | .summarize _ | .flagSet _ => False
  | _ => True

/-- An engine in a run on the sheet. -/
structure IsOn (S : Sheet) (e : Engine) : Prop where
  plain : e.IsPlain Config.builtin
  fresh : ∀ r, e.Fresh r
  host : ∃ host, e.hosts = [host] ∧ host.Follows S e.queries.length
  queries : ∀ q s, e.query? q = some s → s.Follows S q
  /-- The rules that are still to be built are on the agenda. -/
  script : (S.rules.drop e.queries.length).map SwitchRule.chain = e.agenda.filterMap Task.chain?
  /-- A rule has all its attachments, or its chain goes on. -/
  attached : ∀ q r, q < e.queries.length → S.rules[q]? = some r →
    (e.callbacks q).length = r.attachments.length ∨
      ∃ f ops name, .chain f ops name ∈ e.agenda ∧ f.query = q
  /-- While conditions are added, the rule has not been triggered. -/
  building : ∀ f ops name, .chain f ops name ∈ e.agenda → (Task.chain f ops name).Builds →
    e.last? f.query = none
  tasks : ∀ t ∈ e.agenda, e.Follows S t
  stacked : e.agenda.Pairwise (Task.Before S)
  /-- All orders are those of rules in their last states. -/
  orders : ∀ t ∈ e.agenda, ∀ h x on, t.Orders S h x on →
    ∃ q i b, e.last? q = some b ∧ S.Wants q i b h x on
  /-- What a rule wants in its last state is there, or is ordered. -/
  synced : ∀ q i b h x on, e.last? q = some b → i < (e.callbacks q).length → S.Wants q i b h x on →
    (x = .checked → ¬ S.Writes h) →
      (∀ host, e.host? 0 = some host → host.form.shows h x = some on) ∨
        ∃ t ∈ e.agenda, ∃ on', t.Orders S h x on'

end Engine

end FormRules
