import ElfLoader.CommandLine.Start
import ElfLoader.FileSystem.Snapshot
import ElfLoader.Inspector.Answer
import ElfLoader.Inspector.Prompt
import ElfLoader.StyleFile

/-!
# The program

`main` starts the program that the command line names and then answers commands about
it, one on each line of the input. All decisions are made elsewhere; this file reads
files and lines, and prints.

A library is looked for under its exact name here: the files of a host's directories
are not listed.
-/

namespace ElfLoader.Main

/-- Prints notices. -/
def printNotices (notices : List Notice) : IO Unit :=
  notices.forM fun n => IO.eprintln n.shown

/-- Writes the style file of a user who has none. -/
def writeStyles : IO Unit := do
  match ← IO.getEnv "HOME" with
  | none => IO.println "couldn't find home directory"
  | some home =>
    try
      IO.FS.createDirAll (StyleFile.directory home)
      let handle ← IO.FS.Handle.mk (StyleFile.path home) .writeNew
      handle.putStr StyleFile.content
    catch
      | .alreadyExists .. => return ()
      | _ => IO.println (StyleFile.complaint (StyleFile.directory home))

/-- The variables of the environment that matter. -/
def environment : IO Environment :=
  LibraryPath.variableNames.filterMapM fun name => do
    return (← IO.getEnv name).map fun value => (name, value)

/-- Adds the file of a path to a snapshot, if it can be read. -/
def fetch (fs : FileSystem) (path : String) : IO (Option FileSystem) := do
  try
    let real ← IO.FS.realPath path
    let content ← IO.FS.readBinFile path
    return some (fs.record path real.toString content)
  catch _ => return none

/-- Adds the first of some paths that can be read. -/
def fetchFirst (fs : FileSystem) : List String → IO (Option FileSystem)
  | [] => return none
  | path :: rest => do
    match ← fetch fs path with
    | some fs => return some fs
    | none => fetchFirst fs rest

/-- The paths where a library can be. -/
def candidates (path : LibraryPath) (name : String) : List String :=
  if Path.hasSlash name then [name] else path.directories.map fun d => Path.join d name

/-- Loads the program, with more and more files until no library is missing or a missing
one is nowhere to be found. -/
partial def load (o : StartOptions) (vars : Environment) (fs : FileSystem) :
    IO StartOutcome := do
  let outcome := o.load fs vars
  match outcome.result with
  | .error (.load (.fileNotFound name (some _))) =>
    match ← fetchFirst fs (candidates (o.config vars).libraryPath name) with
    | some more => load o vars more
    | none => return outcome
  | _ => return outcome

/-- Answers commands until there are no more. -/
partial def answerAll (l : Loader) (input : IO.FS.Stream) : IO Unit := do
  IO.print (Prompt.standard.left ++ Prompt.standard.indicator)
  (← IO.getStdout).flush
  let line ← input.getLine
  if line.isEmpty then return ()
  let words := (Fields.split ' ' (line.replace "\n" "")).filter fun w => !w.isEmpty
  match Command.parse words with
  | .error e => IO.eprintln e.text
  | .ok .quit => return ()
  | .ok command =>
    let answer := Inspector.answer l command
    answer.lines.forM fun text => IO.println text
    printNotices answer.notices
  answerAll l input

/-- Starts the program that the options name, and answers commands about it. -/
def start (o : StartOptions) : IO UInt32 := do
  let vars ← environment
  let bare := FileSystem.bare (FileSystem.lexical [] (← IO.currentDir).toString)
  let fs := (← fetch bare o.executable).getD bare
  let outcome ← load o vars fs
  printNotices outcome.notices
  match outcome.result with
  | .error e =>
    printNotices [o.failureNotice e]
    return 1
  | .ok l =>
    answerAll l (← IO.getStdin)
    return 0

end ElfLoader.Main

open ElfLoader in
/-- Writes the style file, reads the command line and starts. -/
def main (args : List String) : IO UInt32 := do
  Main.writeStyles
  match StartOptions.parse args with
  | .error e =>
    IO.eprintln e.text
    return e.exitCode
  | .ok o => Main.start o
