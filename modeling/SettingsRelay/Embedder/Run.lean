import SettingsRelay.Embedder.Perform

/-!
# Runs

A run performs steps one after the other. Each call that they lead to is noted; then the steps
left for it are performed, and a session that was asked to make its preferences anew does so. Such
steps lead to calls in turn, and reactions are built in levels for that: a level reacts to a call
by running steps under the level below. Each script is run once, so a run with few scripts cannot
get deep, and `levels` counts enough of them.
-/

namespace SettingsRelay

namespace Desk

/-- Performs steps, each with the events that happen on the way. -/
def answers : List Step → Op Desk (List Answer)
  | [] => return []
  | step :: rest => do
    let outer := (← get).embedder.events
    modify (·.onDesk fun d => { d with events := [] })
    let reply ← step.perform
    let events := (← get).embedder.events
    modify (·.onDesk fun d => { d with events := outer })
    return (reply, events) :: (← answers rest)

def note (c : Call) (w : World Desk) : World Desk :=
  w.onDesk fun d => d.addEvent (.call (d.label c.target) c)

/-- Runs the steps left for a call. -/
def runScript (react : Reaction Desk) (c : Call) (w : World Desk) : World Desk :=
  let name := w.embedder.label c.target
  match w.embedder.takeScript? c.event name with
  | some (script, desk) =>
    let (answers, w) := (answers script.steps).run react { w with embedder := desk }
    w.onDesk (·.addEvent (.script c.event name answers))
  | none => w

/-- Has a session that was asked to make its preferences anew do so in its record, through the
bridge that its context has for it. -/
def refresh (s : SessionRef) : Op Desk Unit := do
  let w ← get
  let names := if w.isAlive s.object then w.embedder.refreshes.lookup s else none
  match names with
  | some (context, record) =>
    match w.embedder.find? .context context, w.embedder.records.lookup record with
    | some c, some p =>
      Op.keeping s.object do
        Op.keeping c.object do
          let _ ← populateRecord record p (Bridge.populateFor c s)
    | _, _ => return
  | none => return

/-- What calls lead to, for so many levels of calls within calls. -/
def reaction : Nat → Reaction Desk
  | 0 => note
  | level + 1 => fun c w =>
    let w := runScript (reaction level) c (note c w)
    match c with
    | .preferencesChanged s => ((refresh s).run (reaction level) w).2
    | _ => w

/-- The levels that steps need: two for each script, one for its call and one for the preferences
that a session makes anew, and two for the steps themselves. -/
def levels (steps : List Step) : Nat := 2 * stepScripts steps + 2

def run (steps : List Step) : List Answer × World Desk :=
  (answers steps).run (reaction (levels steps)) { embedder := {} }

end Desk

end SettingsRelay
