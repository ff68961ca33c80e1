import FormRules.Transcript

/-!
# Bootstrap

Scripts are collected by form. A bootstrap binds each script to the first form with its id, in the
order in which the scripts' forms came first, and fails before anything runs if there is none. Then
it runs script after script, each on a host of its own and to its end, and tells the listeners when a
form is ready and when all are.
-/

namespace FormRules

/-- A script for the form with an id. -/
structure FormScript where
  form : String
  label : String
  steps : List Step
deriving Inhabited

/-- Scripts by form, and the labels of those who listen. -/
structure Bootstrap where
  scripts : List FormScript := []
  listeners : List String := []
deriving Inhabited

namespace Bootstrap

/-- Registers a script, in the place of an earlier one for its form. -/
def script (b : Bootstrap) (s : FormScript) : Bootstrap :=
  { b with scripts := Roster.put FormScript.form s b.scripts }

/-- Registers a listener. -/
def listener (b : Bootstrap) (label : String) : Bootstrap :=
  { b with listeners := b.listeners ++ [label] }

/-- The bootstrap in a diagnostic text. -/
def describe (b : Bootstrap) : String :=
  "Bootstrap \x7b forms: " ++ Text.quotedList (b.scripts.map FormScript.form) ++ ", listeners: " ++
    toString b.listeners.length ++ " \x7d"

/-- The scripts, each with the first form with its id among those that are left; or the id of the
first script for which there is none. A form is marked if its host is to be watched. -/
def bind : List (Form × Bool) → List FormScript → Except String (List (FormScript × Form × Bool))
  | _, [] => .ok []
  | forms, s :: ss =>
    match forms.find? fun f => f.1.id = s.form with
    | none => .error s.form
    | some f =>
      (bind (forms.eraseP fun f => f.1.id = s.form) ss).map fun bound => (s, f) :: bound

/-- Runs one script on a new host, to its end, and then tells that its form is ready. There is no
result if the script takes more than `fuel` tasks. -/
def runScript (fuel : Nat) (listeners : List String) (config : Config Action) (e : Engine)
    (bound : FormScript × Form × Bool) : Option Engine := do
  let (s, form, watched) := bound
  let (h, e) := e.addHost (.new config form watched)
  let e := { e with pinned := h :: e.pinned }
  let e := (e.record [.script s.label form.id]).openSession (some h)
  let e ← { e with agenda := Task.ofScript s.steps }.finish? fuel
  return (e.note (.formReady s.form)).record (listeners.map fun l => .formReady l s.form)

/-- Runs the scripts on their forms. The engine holds one host and one session for each. There is no
result if one of the scripts takes more than `fuel` tasks. -/
def run? (fuel : Nat) (b : Bootstrap) (config : Config Action) (forms : List (Form × Bool)) :
    Option (Except ConfigError Engine × List Event) :=
  match bind forms b.scripts with
  | .error id => some (.error (.unknownForm id), [.diagnostic (.unknownForm id)])
  | .ok bound => do
    let e ← bound.foldlM (runScript fuel b.listeners config) {}
    let e := (e.note (.allReady bound.length)).record (b.listeners.map .allReady)
    return (.ok e, e.log.toList)

/-- The bootstrap returns `r`, however long that takes. -/
def Returns (b : Bootstrap) (config : Config Action) (forms : List (Form × Bool))
    (r : Except ConfigError Engine × List Event) : Prop :=
  ∃ fuel, b.run? fuel config forms = some r

/-! ## Outer layer -/

/-- Runs the scripts, for a caller who waits as long as the budget of a step allows. Who waits in
vain is told of nothing. -/
def run (b : Bootstrap) (config : Config Action) (forms : List (Form × Bool)) :
    Except ConfigError Engine × List Event :=
  (b.run? budget config forms).getD (.ok {}, [])

/-- Performs a step of the session that was opened as number `i`, if there is one. -/
def takeStep (e : Engine) (i : SessionId) (s : Step) : Option Entry × Engine :=
  if i < e.sessions.length then
    let (entry, e) := { e with current := i }.takeStep s
    (some entry, e)
  else (none, e)

end Bootstrap

end FormRules
