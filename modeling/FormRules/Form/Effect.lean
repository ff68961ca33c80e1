import FormRules.Form.Basic

/-!
# Effects on forms

An effect is a property that an action switches on, off or over. `Form.apply` brings the addressed
fields to the wanted state and reports those whose checked state it set; `Form.write` fills in a
value and reports the fields that changed.

Checking a radio button unchecks the rest of its group. Hiding a selected option moves the selection
to the first option of its list that is still offered.
-/

namespace FormRules

/-- A property of a field that an action switches. -/
inductive Effect
  | visible
  | disabled
  | required
  | readonly
  | checked
  /-- Whether an option is offered: hidden and disabled together when it is not. -/
  | optionVisible
  | classed (name : String)
deriving DecidableEq, Repr, Inhabited

/-- How an effect is applied. -/
inductive Switch
  | set
  | unset
  | toggle
deriving DecidableEq, Repr, Inhabited

namespace Switch

/-- The state that a field should end up in. -/
def next : Switch → Bool → Bool
  | set, _ => true
  | unset, _ => false
  | toggle, current => !current

/-- Reads a switch by name; any other name switches off. -/
def ofName (name : String) : Switch :=
  if name = "set" then set else if name = "toggle" then toggle else unset

/-- The name of a switch. -/
def name : Switch → String
  | set => "set"
  | unset => "unset"
  | toggle => "toggle"

/-- The switch that brings about a state. -/
def ofBool (on : Bool) : Switch := if on then set else unset

end Switch

namespace Effect

/-- Whether the property holds of a field now. -/
def holds (e : Effect) (f : FieldState) : Bool :=
  match e with
  | visible => f.visible
  | disabled => f.disabled
  | required => f.required
  | readonly => f.readonly
  | checked => f.kind.isCheckable && f.checked
  | optionVisible => !f.hidden || !f.disabled
  | classed name => f.hasClass name

/-- The field with the property switched to `on`. A text field cannot be checked. -/
def put (e : Effect) (on : Bool) (f : FieldState) : FieldState :=
  match e with
  | visible => { f with visible := on }
  | disabled => { f with disabled := on }
  | required => { f with required := on }
  | readonly => { f with readonly := on }
  | checked => if f.kind.isCheckable then { f with checked := on } else f
  | optionVisible => { f with hidden := !on, disabled := !on }
  | classed name =>
    { f with classes := if on then f.classes ++ [name] else f.classes.filter (· != name) }

/-- Whether switching the property of such a field changes its checked state. -/
def isCheck (e : Effect) (f : FieldState) : Bool := e == checked && f.kind.isCheckable

end Effect

namespace Form

/-- The form with the field behind a handle replaced by `g` of it. -/
def modify (form : Form) (h : Handle) (g : FieldState → FieldState) : Form :=
  { form with fields := form.fields.modify h g }

/-- Unchecks the radio buttons of group `id`, except the one at `h`. -/
def uncheckOthers (form : Form) (h : Handle) (id : String) : Form :=
  { form with
    fields := form.fields.mapIdx fun i f =>
      if i != h && f.kind == .radio && f.id == id then { f with checked := false } else f }

/-- Switches a property of one field to `on`. -/
def switchField (form : Form) (h : Handle) (e : Effect) (on : Bool) (f : FieldState) : Form :=
  let form := form.modify h (e.put on)
  if e = .checked ∧ on ∧ f.kind = .radio then form.uncheckOthers h f.id else form

/-- One handle of `apply`: the form after it, and whether the field's checked state was set. -/
def applyOne (form : Form) (e : Effect) (s : Switch) (h : Handle) : Form × Bool :=
  match form.field? h with
  | none => (form, false)
  | some f =>
    let now := e.holds f
    let next := s.next now
    if now = next then (form, false) else (form.switchField h e next f, e.isCheck f)

/-- Runs an operation on one handle after the other, and collects the handles that it reports. -/
def applyEach (op : Form → Handle → Form × Bool) : Form → List Handle → Form × List Handle
  | form, [] => (form, [])
  | form, h :: hs =>
    let (form, changed) := op form h
    let (form, rest) := applyEach op form hs
    (form, if changed then h :: rest else rest)

/-- Moves the selection off the option at `h` if it was hidden. -/
def repairOne (form : Form) (h : Handle) : Form :=
  match form.field? h with
  | none => form
  | some f =>
    if f.kind = .option ∧ f.hidden ∧ f.disabled ∧ f.checked then
      let form := form.modify h fun f => { f with checked := false }
      match form.fields.findIdx? (·.isOffered f.id) with
      | some i => form.modify i fun f => { f with checked := true }
      | none => form
    else form

/-- Moves the selection off the hidden options among `hs`. -/
def repairSelection (form : Form) (hs : List Handle) : Form := hs.foldl repairOne form

/-- Applies an effect to the fields `hs` that are not yet as wanted; reports those whose checked
state was set. -/
def apply (form : Form) (hs : List Handle) (e : Effect) (s : Switch) : Form × List Handle :=
  let (form, changed) := applyEach (fun form h => form.applyOne e s h) form hs
  let form := if e = .optionVisible then form.repairSelection hs else form
  (form.refresh, changed)

/-- How writing a value checks a box, button or option: a boolean switches it, the field's own value
checks it, and any other value leaves it. -/
def writeSwitch? (f : FieldState) : Value → Option Switch
  | .bool on => some (.ofBool on)
  | v => if f.value = v.asText then some .set else none

/-- One handle of `write`: the form after it, and whether the field changed. -/
def writeOne (v : Value) (form : Form) (h : Handle) : Form × Bool :=
  match form.field? h with
  | none => (form, false)
  | some f =>
    if f.kind.isCheckable then
      match writeSwitch? f v with
      | some s =>
        let (form, changed) := form.apply [h] .checked s
        (form, !changed.isEmpty)
      | none => (form, false)
    else if f.value = v.asText then (form, false)
    else (form.modify h fun f => { f with value := v.asText }, true)

/-- Writes a value to the fields `hs`; reports those that changed. -/
def write (form : Form) (hs : List Handle) (v : Value) : Form × List Handle :=
  let (form, changed) := applyEach (writeOne v) form hs
  (form.refresh, changed)

end Form

end FormRules
