import FormRules.Action.Token
import FormRules.Diagnostic
import FormRules.Form.Effect

/-!
# Built-in actions

Every built-in action is a short plan of effects on the fields that its first argument names. The
general forms read their switch from the second argument.
-/

namespace FormRules

/-- The classes that built-in actions put on fields. -/
structure ClassNames where
  /-- Marks required fields. -/
  requiredIndicator : String := "required"
  /-- Marks expanded sections. -/
  collapseShow : String := "show"
deriving DecidableEq, Repr, Inhabited

/-- Where an action has its switch from: fixed, or named by the second argument. -/
inductive SwitchSource
  | fixed (s : Switch)
  | argument
deriving DecidableEq, Repr, Inhabited

/-- The kinds of built-in action. -/
inductive BuiltinAction
  | effect (e : Effect) (s : SwitchSource)
  /-- A class that the argument at `index` names. -/
  | classed (s : SwitchSource) (index : Nat)
  /-- The class of expanded sections. -/
  | collapse (s : SwitchSource)
  /-- The required flag, together with its class. -/
  | required (s : SwitchSource)
  /-- Writes the second argument, if it is given. -/
  | write
deriving DecidableEq, Repr, Inhabited

/-- One operation of an action on the fields that an identifier names. -/
inductive Operation
  | effect (field : String) (e : Effect) (s : Switch)
  | write (field : String) (v : Value)
  | note (d : Diagnostic)
deriving Inhabited

/-- The switch for these arguments. -/
def SwitchSource.read (s : SwitchSource) (args : Args) : Switch :=
  match s with
  | fixed s => s
  | argument => .ofName (args.text 1)

namespace BuiltinAction

/-- What an action does with these arguments. Without a class name there is nothing to do. -/
def plan (classes : ClassNames) (args : Args) : BuiltinAction → List Operation
  | effect e s => [.effect args.field e (s.read args)]
  | classed s index =>
    let name := args.text index
    if name = "" then [.note (.noClassName args.field)]
    else [.effect args.field (.classed name) (s.read args)]
  | collapse s =>
    if classes.collapseShow = "" then []
    else [.effect args.field (.classed classes.collapseShow) (s.read args)]
  | required s =>
    .effect args.field .required (s.read args) ::
      if classes.requiredIndicator = "" then []
      else [.effect args.field (.classed classes.requiredIndicator) (s.read args)]
  | write => match args[1]? with
    | some v => [.write args.field v]
    | none => []

/-- The built-in actions by name. -/
def all : List (String × BuiltinAction) :=
  let on := SwitchSource.fixed .set
  let off := SwitchSource.fixed .unset
  let flip := SwitchSource.fixed .toggle
  [("enable", effect .disabled off), ("disable", effect .disabled on),
    ("showOption", effect .optionVisible on), ("hideOption", effect .optionVisible off),
    ("show", effect .visible on), ("hide", effect .visible off), ("toggle", effect .visible flip),
    ("showElement", effect .visible on), ("hideElement", effect .visible off),
    ("toggleElement", effect .visible flip),
    ("fadeIn", effect .visible on), ("fadeOut", effect .visible off),
    ("slideDown", effect .visible on), ("slideUp", effect .visible off),
    ("class", classed .argument 2), ("addClass", classed on 1), ("removeClass", classed off 1),
    ("toggleClass", classed flip 1),
    ("collapse", collapse .argument), ("showCollapse", collapse on),
    ("hideCollapse", collapse off), ("toggleCollapse", collapse flip),
    ("required", required .argument), ("setRequired", required on),
    ("unsetRequired", required off), ("toggleRequired", required flip),
    ("readonly", effect .readonly .argument), ("setReadonly", effect .readonly on),
    ("unsetReadonly", effect .readonly off), ("toggleReadonly", effect .readonly flip),
    ("checked", effect .checked .argument), ("setChecked", effect .checked on),
    ("unsetChecked", effect .checked off), ("toggleChecked", effect .checked flip),
    ("val", write)]

end BuiltinAction

end FormRules
