import Climb.Command.Run

/-! The program itself: arguments, settings and standard input in, two streams and a status out. -/

namespace Climb

/-- What stands at a path. -/
def readEntry (path : String) : IO (Option Entry) := do
  try
    return some (.file (← IO.FS.readFile path))
  catch
  | .noFileOrDirectory .. => return none
  | _ => return some .directory

/-- The settings of the nearest document, in a directory given by its parts or above it. -/
def nearestSettings : Nat → List String → IO (Except Error Settings)
  | 0, _ => return .ok {}
  | bound + 1, place => do
    match ← readEntry (String.intercalate "/" (place ++ [Settings.fileName])) with
    | some entry => return Settings.ofEntry entry
    | none => nearestSettings bound place.dropLast

/-- The settings of a run, none if the document that was asked for is no file. -/
def loadSettings : Option String → IO (Option (Except Error Settings))
  | some path => do
    match ← readEntry path with
    | some (.file text) => return some (Settings.ofDocument text)
    | _ => return none
  | none => do
    let place := pathParts (← IO.currentDir).toString
    return some (← nearestSettings place.length place)

/-- Reads a stream to its end. -/
partial def readAll (stream : IO.FS.Stream) (before : String) : IO String := do
  let line ← stream.getLine
  if line.isEmpty then return before else readAll stream (before ++ line)

/-- The report of a run with the given arguments. -/
def reportOf (args : List String) : IO Report := do
  match Startup.ofArgs args with
  | .answered report => return report
  | .chosen options command rest =>
    let settings ← loadSettings options.config
    let terminal ← (← IO.getStderr).isTty
    -- The standard input is read only if no expression is given.
    let needed := ((CommandOptions.read command {} rest).map (·.arguments)) == some []
    let input ← if needed then readAll (← IO.getStdin) "" else pure ""
    return command.runWith settings terminal options.verbose rest input

/-- Runs the program and returns its exit status. -/
def runWithStreams (args : List String) : IO UInt32 := do
  let report ← reportOf args
  (← IO.getStdout).putStr report.out
  (← IO.getStderr).putStr report.err
  if let some failure := report.escaped then
    (← IO.getStderr).putStrLn failure.message
  return report.exit.toUInt32

end Climb

/-- The program. -/
def main (args : List String) : IO UInt32 :=
  Climb.runWithStreams args
