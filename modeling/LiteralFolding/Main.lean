-- The program: reads a bundle of files from its input, runs the command on it, and prints what
-- the command says and the files it changed.
import LiteralFolding.Command.Bundle

partial def LiteralFolding.Command.readAll (input : IO.FS.Stream) (before : String) : IO String := do
  let line ← input.getLine
  if line.isEmpty then return before else readAll input (before ++ line)

open LiteralFolding.Command in
/-- Runs the command on the bundle that its input holds. -/
def main (args : List String) : IO UInt32 := do
  let input ← readAll (← IO.getStdin) ""
  match Bundle.read? input.toList with
  | none =>
    IO.eprintln "Error: the input is no bundle"
    return 1
  | some bundle =>
    let outcome := run bundle.world (args.map String.toList)
    IO.print (String.ofList (bundledOutput bundle outcome))
    IO.eprint (String.ofList outcome.complaint)
    return outcome.code.toUInt32
