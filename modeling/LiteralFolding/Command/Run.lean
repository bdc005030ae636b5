-- The command as a whole: from arguments, environment and store to exit code, output and
-- store.
import LiteralFolding.Command.Arguments
import LiteralFolding.Files.Project
import LiteralFolding.Report.Summary
import LiteralFolding.Settings.Load

namespace LiteralFolding.Command

/-- What the command finds when it starts. -/
structure World where
  store : Store
  environment : List (Text × Text) := []
  grammar : Grammar

/-- What the command leaves behind. -/
structure Outcome where
  code : Nat
  output : Text := []
  /-- What is said apart from the output. -/
  complaint : Text := []
  store : Store

/-- Why a request fails. -/
inductive Failure where
  | settings (error : SettingsError)
  | project (error : ProjectError)
  deriving DecidableEq, Repr

def Failure.message : Failure → Text
  | .settings e => e.message
  | .project e => e.message

/-- What a failure leaves behind. -/
def failed (failure : Failure) (store : Store) : Outcome :=
  { code := 1, complaint := "Error: ".toList ++ failure.message ++ ['\n'], store }

def ofProject : Except ProjectError α → Except Failure α
  | .ok a => .ok a
  | .error e => .error (.project e)

/-- Loads the settings, lets the arguments override them, and checks the result. -/
def settingsFor (world : World) (request : Request) : Except Failure Settings :=
  match Settings.load world.store request.config world.environment with
  | .error e => .error (.settings e)
  | .ok loaded =>
    let settings : Settings := { loaded with
      fold := { loaded.fold with
        transform := request.transform.getD loaded.fold.transform
        property := request.property.getD loaded.fold.property } }
    match settings.fault? with
    | some e => .error (.settings e)
    | none => .ok settings

/-- The changed sources one after the other, under their paths when there are several. -/
def listing (changed : List FoldedSource) : Text :=
  let headed := 1 < changed.length
  changed.flatMap fun f =>
    (if headed then "==> ".toList ++ f.path ++ " <==\n".toList else []) ++ f.text

def pathLines (changed : List FoldedSource) : Text := changed.flatMap fun f => f.path ++ ['\n']

def perform (world : World) (request : Request) : Except Failure Outcome := do
  let settings ← settingsFor world request
  let folded ← ofProject (Project.run world.store world.grammar settings request.paths)
  let changed := Project.changed folded
  match request.task with
  | .report =>
    let output := match request.form with
      | .text => Report.text folded
      | .json => Report.json folded
    .ok { code := 0, output, store := world.store }
  | .fold =>
    if request.write then
      match Project.write world.store folded with
      | .ok store => .ok { code := 0, store }
      | .error failure => .ok (failed (.project failure) failure.store)
    else if request.check then
      .ok { code := if changed.isEmpty then 0 else 1, output := pathLines changed, store := world.store }
    else .ok { code := 0, output := listing changed, store := world.store }

def versionLine : Text := "tplfold 0.1.0\n".toList

def usage : Text :=
  ("Fold constant template expressions into string literals\n\n" ++
    "Usage: tplfold [OPTIONS] <rewrite|report> <PATHS>...\n").toList

def run (world : World) (args : List Text) : Outcome :=
  match Request.read args with
  | .error .refused => { code := 2, complaint := usage, store := world.store }
  | .error .help => { code := 0, output := usage, store := world.store }
  | .error .version => { code := 0, output := versionLine, store := world.store }
  | .ok request =>
    match perform world request with
    | .ok outcome => outcome
    | .error e => failed e world.store

end LiteralFolding.Command
