import FormRules.Engine.Machine

/-!
# Sessions

A session runs scripts against one host, or against none. It remembers the fields of its host's form
as they were when it was opened, so that a change can be told from them.
-/

namespace FormRules.Engine

/-- Adds a session on a host and makes it the running one. -/
def openSession (e : Engine) (host : Option HostId) : Engine :=
  let shown := match host.bind e.host? with
    | some h => h.form.fields
    | none => []
  { e with sessions := e.sessions ++ [{ host, shown }], current := e.sessions.length }

/-- Adds a host. -/
def addHost (e : Engine) (host : Host) : HostId × Engine :=
  (e.hosts.length, { e with hosts := e.hosts ++ [host] })

/-- The fields of the form of the running session's host. -/
def fields? (e : Engine) : Option (List FieldState) :=
  (e.session.host.bind e.host?).map fun h => h.form.fields

/-- An engine with one session and no host. -/
def withoutHost : Engine := openSession {} none

/-- An engine with one session, on a host for the form. -/
def onForm (config : Config Action) (form : Form) (watched : Bool) : Engine :=
  let (h, e) := ({} : Engine).addHost (.new config form watched)
  e.openSession (some h)

end FormRules.Engine
