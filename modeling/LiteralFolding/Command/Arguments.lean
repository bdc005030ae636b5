-- The arguments of the command: options on either side of the subcommand, then paths.
import LiteralFolding.Settings.Basic

namespace LiteralFolding.Command

inductive ReportForm where
  | text
  | json
  deriving DecidableEq, Repr

def ReportForm.ofWord? (t : Text) : Option ReportForm :=
  if t = "text".toList then some .text else if t = "json".toList then some .json else none

inductive Task where
  | fold
  | report
  deriving DecidableEq, Repr

def Task.ofWord? (t : Text) : Option Task :=
  if t = "rewrite".toList then some .fold else if t = "report".toList then some .report else none

/-- The options. -/
inductive Switch where
  | config
  | verbose
  | transform
  | property
  | write
  | check
  | format
  | help
  | version
  deriving DecidableEq, Repr

namespace Switch

def word : Switch → String
  | .config => "config"
  | .verbose => "verbose"
  | .transform => "transform"
  | .property => "property"
  | .write => "write"
  | .check => "check"
  | .format => "format"
  | .help => "help"
  | .version => "version"

def letter? : Switch → Option Char
  | .config => some 'c'
  | .verbose => some 'v'
  | .transform => some 't'
  | .property => some 'p'
  | .help => some 'h'
  | .version => some 'V'
  | .write | .check | .format => none

def takesValue : Switch → Bool
  | .config | .transform | .property | .format => true
  | _ => false

/-- The options before the subcommand, and those after each. -/
def available : Option Task → List Switch
  | none => [.config, .verbose, .transform, .property, .help, .version]
  | some .fold => [.config, .verbose, .transform, .property, .write, .check, .help]
  | some .report => [.config, .verbose, .transform, .property, .format, .help]

def ofWord? (task : Option Task) (t : Text) : Option Switch :=
  (available task).find? fun s => s.word.toList = t

def ofLetter? (task : Option Task) (c : Char) : Option Switch :=
  (available task).find? fun s => s.letter? = some c

end Switch

/-- What the arguments say on one side of the subcommand. -/
structure Given where
  config : Option Text := none
  verbose : Bool := false
  transform : Option TransformKind := none
  property : Option Text := none
  write : Bool := false
  check : Bool := false
  format : Option ReportForm := none
  paths : List Text := []
  deriving DecidableEq, Repr

/-- What ends the reading of arguments before anything is done. -/
inductive Halt where
  | refused
  | help
  | version
  deriving DecidableEq, Repr

namespace Given

/-- Fills a place once. -/
def once (place : Option α) (value : Option α) : Except Halt (Option α) :=
  match place, value with
  | none, some v => .ok (some v)
  | _, _ => .error .refused

def raise (flag : Bool) : Except Halt Bool := if flag then .error .refused else .ok true

/-- A path is not empty. -/
def path? (t : Text) : Option Text := if t.isEmpty then none else some t

def withFlag (g : Given) : Switch → Except Halt Given
  | .verbose => (raise g.verbose).map fun verbose => { g with verbose }
  | .write => (raise g.write).map fun write => { g with write }
  | .check => (raise g.check).map fun check => { g with check }
  | .help => .error .help
  | .version => .error .version
  | _ => .error .refused

def withValue (g : Given) (value : Text) : Switch → Except Halt Given
  | .config => (once g.config (path? value)).map fun config => { g with config }
  | .transform =>
    (once g.transform (TransformKind.ofWord? value)).map fun transform => { g with transform }
  | .property => (once g.property (some value)).map fun property => { g with property }
  | .format => (once g.format (ReportForm.ofWord? value)).map fun format => { g with format }
  | _ => .error .refused

def withPath (g : Given) (path : Text) : Except Halt Given :=
  match path? path with
  | some path => .ok { g with paths := g.paths ++ [path] }
  | none => .error .refused

end Given

/-- Could this argument be a value? One that starts with a dash is an option, but for the dash
alone. -/
def isValue : Text → Bool
  | '-' :: _ :: _ => false
  | _ => true

/-- What a group of letters leaves behind: all is said, or an option waits for the next
argument. -/
inductive Pending where
  | nothing
  | value (of : Switch)
  deriving DecidableEq, Repr

/-- The letters after a dash. The first that takes a value takes the rest of the group. -/
def readLetters (task : Option Task) (g : Given) : Text → Except Halt (Given × Pending)
  | [] => .ok (g, .nothing)
  | c :: rest =>
    match Switch.ofLetter? task c with
    | none => .error .refused
    | some s =>
      if s.takesValue then
        match rest with
        | [] => .ok (g, .value s)
        | '=' :: value => (g.withValue value s).map (·, .nothing)
        | value => (g.withValue value s).map (·, .nothing)
      else
        match g.withFlag s with
        | .error halt => .error halt
        | .ok g => readLetters task g rest

/-- The name after two dashes, with a value if an equals sign follows it. -/
def readWord (task : Option Task) (g : Given) (t : Text) : Except Halt (Given × Pending) :=
  let name := t.takeWhile (· ≠ '=')
  let value? : Option Text :=
    match t.dropWhile (· ≠ '=') with
    | [] => none
    | _ :: value => some value
  match Switch.ofWord? task name with
  | none => .error .refused
  | some s =>
    match s.takesValue, value? with
    | true, some value => (g.withValue value s).map (·, .nothing)
    | true, none => .ok (g, .value s)
    | false, some _ => .error .refused
    | false, none => (g.withFlag s).map (·, .nothing)

structure Request where
  config : Option Text
  verbose : Bool
  transform : Option TransformKind
  property : Option Text
  task : Task
  paths : List Text
  write : Bool
  check : Bool
  form : ReportForm
  deriving DecidableEq, Repr

/-- Puts both sides together; what stands after the subcommand wins. -/
def Request.of (before after : Given) (task : Task) : Except Halt Request :=
  if after.paths.isEmpty || (after.write && after.check) then .error .refused
  else .ok {
    config := after.config.or before.config
    verbose := after.verbose || before.verbose
    transform := after.transform.or before.transform
    property := after.property.or before.property
    task
    paths := after.paths
    write := after.write
    check := after.check
    form := after.format.getD .text }

/-- Reads the arguments after the subcommand. -/
def readTask (task : Task) (g : Given) (pending : Pending) : List Text → Except Halt Given
  | [] => if pending = .nothing then .ok g else .error .refused
  | arg :: args =>
    match pending with
    | .value s => do
      if isValue arg then readTask task (← g.withValue arg s) .nothing args else .error .refused
    | .nothing =>
      match arg with
      | ['-', '-'] => args.foldlM Given.withPath g
      | '-' :: '-' :: t => do
        let (g, pending) ← readWord (some task) g t
        readTask task g pending args
      | '-' :: c :: t => do
        let (g, pending) ← readLetters (some task) g (c :: t)
        readTask task g pending args
      | path => do readTask task (← g.withPath path) .nothing args

def helpWord : Text := "help".toList

/-- What comes of asking for help: at most one subcommand may be named. -/
def helpFor : List Text → Halt
  | [] => .help
  | [word] => if (Task.ofWord? word).isSome || word = helpWord then .help else .refused
  | _ => .refused

/-- Reads the arguments up to the subcommand and then the rest. -/
def readArguments (g : Given) (pending : Pending) : List Text → Except Halt Request
  | [] => .error .refused
  | arg :: args =>
    match pending with
    | .value s => do
      if isValue arg then readArguments (← g.withValue arg s) .nothing args else .error .refused
    | .nothing =>
      match arg with
      | ['-', '-'] => .error .refused
      | '-' :: '-' :: t => do
        let (g, pending) ← readWord none g t
        readArguments g pending args
      | '-' :: c :: t => do
        let (g, pending) ← readLetters none g (c :: t)
        readArguments g pending args
      | word =>
        match Task.ofWord? word with
        | some task => do Request.of g (← readTask task {} .nothing args) task
        | none => if word = helpWord then .error (helpFor args) else .error .refused

def Request.read (args : List Text) : Except Halt Request := readArguments {} .nothing args

end LiteralFolding.Command
