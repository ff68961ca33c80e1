import FormRules.Session

/-!
# Transcripts

The outer layer, for a program that takes a session through a script and shows what happens. Each
step of a transcript has an answer, the events since the step began, and the fields of the form that
differ from those that the session showed last: after the step before, or when it was opened.

Rules whose actions trigger each other for ever do not come to an end. Only a transcript cuts them
off, so that it can go on with the next step.
-/

namespace FormRules

/-- How many tasks a step of a transcript may take. -/
def budget : Nat := 10000000

/-- What a step did. -/
structure Entry where
  answer : Answer
  events : List Event
  /-- The fields that differ from those shown last, by handle. -/
  diff : List (Handle × FieldState)
deriving Inhabited

/-- The fields of `after` that differ from those of `before`, by handle. -/
def diffFields (before after : List FieldState) : List (Handle × FieldState) :=
  (after.zipIdx.filter fun (f, h) => before[h]? != some f).map fun (f, h) => (h, f)

namespace Engine

/-- What a step did, from the engines before and after it. -/
def entry (before after : Engine) : Entry where
  answer := if after.agenda.isEmpty then after.answer else .unsettled
  events := (after.log.extract before.log.size after.log.size).toList
  diff := match after.fields? with
    | some fields => diffFields before.session.shown fields
    | none => []

/-- Performs a step of the running session, as far as the budget allows. -/
def takeStep (e : Engine) (s : Step) : Entry × Engine :=
  let after := { e with agenda := [.step s] }.run budget
  (entry e after, after.updateSession fun session =>
    { session with shown := after.fields?.getD session.shown })

/-- Performs the steps of a script one after the other. -/
def transcript (e : Engine) : List Step → List Entry × Engine
  | [] => ([], e)
  | s :: ss =>
    let (entry, e) := e.takeStep s
    let (entries, e) := transcript e ss
    (entry :: entries, e)

end Engine

end FormRules
