import SassModules.CommandLine.Run
import SassModules.Json.Reader
import SassModules.Yaml.Document

/-!
# The program

The command line works on a snapshot of a file tree. The snapshot is one JSON object on the standard input, from paths to
the texts of files; a relative path is seen from the working directory. Files that the command writes are written to the
real disk.
-/

namespace SassModules.Program

/-- The disk of a snapshot. -/
def diskOf (cwd home : Path) (snapshot : Json) : Disk :=
  let fields := match snapshot with
    | .object fields => fields
    | _ => []
  let put (d : Disk) (f : Text × Json) : Disk :=
    d.insert (cwd.join (Path.ofText f.1)).normalize.names (.file (Utf8.encode (f.2.text?.getD [])))
  fields.foldl put ((Disk.empty cwd home).insert cwd.normalize.names .dir)

/-- Everything on the standard input. -/
partial def readAll (input : IO.FS.Stream) (front : String) : IO String := do
  let line ← input.getLine
  if line.isEmpty then return front else readAll input (front ++ line)

/-- A path from the environment. -/
def pathFrom (name fallback : String) : IO Path := do
  return Path.ofText ((← IO.getEnv name).getD fallback).toList

/-- How to call the program. -/
def usage : String :=
  "usage: sassmodules definition FILE LINE COLUMN [-f text|json]\n" ++
  "       sassmodules complete FILE LINE COLUMN [-f text|json]\n" ++
  "       sassmodules graph [DIR] [--entry FILE] [-f ascii|json] [--ascii-style tree|ascii] [--exclude-dir NAME...]\n" ++
  "                         [--max-depth N] [--ignore-missing] [--show-builtins]\n" ++
  "every command: [--root DIR] [--config FILE] [--trace off|messages|verbose] [-o FILE]\n"

/-- Print an outcome and write its files. -/
def present (o : CommandLine.Outcome) : IO UInt32 := do
  for (file, content) in o.written do
    IO.FS.writeFile file.str (Text.str content)
  IO.print (Text.str o.stdout)
  IO.eprint (Text.str o.stderr)
  return UInt32.ofNat o.code

/-- Run the command line on the snapshot. -/
def run (args : List String) : IO UInt32 := do
  let cwd ← pathFrom "PWD" "/"
  let home ← pathFrom "HOME" "/"
  match CommandLine.Request.ofArguments (args.map String.toList) with
  | .error .help =>
    IO.print usage
    return UInt32.ofNat CommandLine.Refusal.help.code
  | .error .usage =>
    IO.eprint usage
    return UInt32.ofNat CommandLine.Refusal.usage.code
  | .ok request =>
    let snapshot := (Json.ofText? (← readAll (← IO.getStdin) "").toList).getD .null
    match request.run Yaml.read (Session.start (diskOf cwd home snapshot)) with
    | .ok outcome _ => present outcome
    | .error fault _ =>
      IO.eprintln fault.message
      return 1

end SassModules.Program

/-- The command line program. -/
def main (args : List String) : IO UInt32 := SassModules.Program.run args
