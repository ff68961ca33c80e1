import FormRules.Field.Spec
import FormRules.Value

/-!
# Forms

A form is a list of fields in document order; a field is addressed by its handle, which is its
position. Fields that share an id are one group, and the values of a selector pick members of it.

`Form.resolve` finds the fields of a selector, `Form.groupValue` reads a group, and `Form.refresh`
recomputes which fields are valid. A field is valid unless it is required and unanswered.
-/

namespace FormRules

/-- The position of a field in its form. -/
abbrev Handle := Nat

/-- The kinds of field. -/
inductive FieldKind
  /-- Always active; its value is its content. -/
  | text
  /-- Has its value while checked. -/
  | checkbox
  /-- Member of a group of which one is checked. -/
  | radio
  /-- Entry of a select list; checked means selected. -/
  | option
deriving DecidableEq, Repr, Inhabited

/-- Whether fields of this kind are checked rather than filled in. -/
def FieldKind.isCheckable : FieldKind → Bool
  | .text => false
  | _ => true

/-- Whether fields of this kind share one answer with their group. -/
def FieldKind.isChoice : FieldKind → Bool
  | .radio | .option => true
  | _ => false

/-- A field as conditions and effects see it. -/
structure FieldState where
  id : String
  kind : FieldKind
  value : String
  checked : Bool := false
  disabled : Bool := false
  required : Bool := false
  readonly : Bool := false
  visible : Bool := true
  hidden : Bool := false
  valid : Bool := true
  classes : List String := []
deriving DecidableEq, Repr, Inhabited

/-- Whether the field carries the class. -/
def FieldState.hasClass (f : FieldState) (c : String) : Bool := f.classes.contains c

/-- Whether the field is of the select list `id` and can still be chosen. -/
def FieldState.isOffered (f : FieldState) (id : String) : Bool :=
  f.id == id && f.kind == .option && (!f.hidden || !f.disabled)

/-- A form: its id and its fields in document order. -/
structure Form where
  id : String
  fields : List FieldState
deriving DecidableEq, Repr, Inhabited

namespace Form

/-- The field behind a handle. -/
def field? (form : Form) (h : Handle) : Option FieldState := form.fields[h]?

/-- Every handle of the form. -/
def handles (form : Form) : List Handle := List.range form.fields.length

/-! ## Validity -/

/-- Whether a field has an answer: content, a check, or a checked member of its group. -/
def isAnswered (fields : List FieldState) (f : FieldState) : Bool :=
  match f.kind with
  | .text => f.value != ""
  | .checkbox => f.checked
  | kind => fields.any fun g => g.id == f.id && g.kind == kind && g.checked

/-- Recomputes which fields are valid. -/
def refresh (form : Form) : Form :=
  { form with
    fields := form.fields.map fun f =>
      { f with valid := !f.required || isAnswered form.fields f } }

/-! ## Building -/

/-- A form without fields. -/
def empty (id : String) : Form := ⟨id, []⟩

/-- The form with one more field at its end. -/
def add (form : Form) (f : FieldState) : Form :=
  { form with fields := form.fields ++ [f] }.refresh

/-- A group of checkable fields under one id, of which those with value `checked` are checked. -/
def addGroup (form : Form) (kind : FieldKind) (id : String) (values : List String)
    (checked : Option String) : Form :=
  values.foldl
    (fun form v => form.add { id, kind, value := v, checked := checked == some v }) form

/-! ## Resolving selectors -/

/-- Whether a selector's name means this field of the form. -/
def isNamed (form : Form) (name : String) (f : FieldState) : Bool :=
  name == formAlias || name == form.id || f.id == name

/-- The handles of the fields that satisfy `p`, in document order. -/
def handlesWhere (form : Form) (p : FieldState → Bool) : List Handle :=
  form.handles.filter fun h => (form.field? h).any p

/-- Appends the handles that are not there yet. -/
def unionHandles (known new : List Handle) : List Handle :=
  new.foldl (fun acc h => if acc.contains h then acc else acc ++ [h]) known

/-- The fields of a selector: its whole group, or, for each of its values in turn, the members with
that value. -/
def resolve (form : Form) (s : Selector) : List Handle :=
  if s.values = [] then form.handlesWhere (form.isNamed s.name)
  else s.values.foldl
    (fun found v =>
      unionHandles found (form.handlesWhere fun f => form.isNamed s.name f && f.value == v)) []

/-! ## Reading values -/

/-- The value of the first active field among `hs`. A radio button or option is active only while
checked, and a group without a checked one reads as zero; a box that is not checked reads as
zero. -/
def groupValue (form : Form) : List Handle → Option Value
  | [] => none
  | h :: hs =>
    match form.field? h with
    | none => form.groupValue hs
    | some f =>
      if f.kind.isChoice then
        if f.checked then some (.text f.value) else some ((form.groupValue hs).getD (.int 0))
      else if f.kind.isCheckable && !f.checked then some (.int 0)
      else some (.text f.value)

/-- The value of one field. -/
def value? (form : Form) (h : Handle) : Option Value := form.groupValue [h]

end Form

end FormRules
