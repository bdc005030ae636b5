-- The values of a TOML document, and the tables it is built from.
import LiteralFolding.Datum.Basic
import LiteralFolding.Toml.Datetime

namespace LiteralFolding

namespace Toml

/-- How a table came to be, which decides what may still be added to it. -/
inductive Origin where
  /-- By a header of its own, or as the document itself. -/
  | header
  /-- By a header of a table below it. -/
  | implied
  /-- By a dotted key. -/
  | dotted
  /-- Between braces. -/
  | inline
  deriving DecidableEq, Repr

end Toml

/-- A value of a document. -/
inductive Toml where
  | string (text : Text)
  | integer (n : Int)
  | float (x : Number)
  | boolean (b : Bool)
  | datetime (d : Toml.Datetime)
  | array (items : List Toml)
  | table (origin : Toml.Origin) (members : List (Text × Toml))
  /-- A list of tables, each made by a header of its own. -/
  | tables (items : List (List (Text × Toml)))

namespace Toml

/-- A table while the document is read. -/
structure Table where
  origin : Origin
  members : List (Text × Toml)

namespace Table

def put (t : Table) (key : Text) (value : Toml) : Table :=
  { t with members := Members.put key value t.members }

/-- Changes the table at the end of a path. A missing table is made and remembers `how` it came
to be. In a list of tables the last one is meant. Dotted keys add to no table with a header,
and nothing adds to a table between braces. -/
def change (how : Origin) (f : Table → Option Table) : List Text → Table → Option Table
  | [], t => f t
  | key :: path, t =>
    match Members.get? key t.members with
    | none =>
      (change how f path ⟨how, []⟩).map fun u => t.put key (.table u.origin u.members)
    | some (.table origin members) =>
      if origin = .inline ∨ (origin = .header ∧ how = .dotted) then none
      else (change how f path ⟨origin, members⟩).map fun u => t.put key (.table u.origin u.members)
    | some (.tables items) =>
      (items.getLast?.bind fun members => change how f path ⟨.header, members⟩).map fun u =>
        t.put key (.tables (items.dropLast ++ [u.members]))
    | some _ => none

/-- Gives a dotted key its value: the tables on the way are made by such keys, and the key
itself is new. -/
def assign (path : List Text) (value : Toml) (t : Table) : Option Table :=
  path.getLast?.bind fun key =>
    t.change .dotted
      (fun u =>
        if u.origin = .dotted ↔ path.dropLast = [] then none
        else if (Members.get? key u.members).isSome then none
        else some (u.put key value))
      path.dropLast

def openTable (path : List Text) (t : Table) : Option Table :=
  path.getLast?.bind fun key =>
    t.change .implied
      (fun u =>
        match Members.get? key u.members with
        | none => some (u.put key (.table .header []))
        | some (.table .implied members) => some (u.put key (.table .header members))
        | some _ => none)
      path.dropLast

/-- Adds one more table to a list by its header. -/
def openElement (path : List Text) (t : Table) : Option Table :=
  path.getLast?.bind fun key =>
    t.change .implied
      (fun u =>
        match Members.get? key u.members with
        | none => some (u.put key (.tables [[]]))
        | some (.tables items) => some (u.put key (.tables (items ++ [[]])))
        | some _ => none)
      path.dropLast

end Table

mutual

/-- The value as a datum: a date is its written form, and all tables are alike. -/
def datum : Toml → Datum
  | .string t => .text t
  | .integer n => .integer n
  | .float x => .number x
  | .boolean b => .boolean b
  | .datetime d => .text d.text
  | .array items => .list (datumAll items)
  | .table _ members => .table (datumMembers members)
  | .tables items => .list (datumTables items)

def datumAll : List Toml → List Datum
  | [] => []
  | v :: vs => datum v :: datumAll vs

def datumMembers : List (Text × Toml) → List (Text × Datum)
  | [] => []
  | (key, v) :: ms => (key, datum v) :: datumMembers ms

def datumTables : List (List (Text × Toml)) → List Datum
  | [] => []
  | ms :: rest => .table (datumMembers ms) :: datumTables rest

end

end Toml

end LiteralFolding
