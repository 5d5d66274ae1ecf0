import BuildPipeline.CommandLine.Commands
import BuildPipeline.Json.Quoted
import BuildPipeline.Timestamp
import Std.Time.DateTime.Timestamp

/-! The program on the machine's own files, clock and streams. -/

namespace BuildPipeline

def FileFault.ofError : IO.Error → FileFault
  | .noFileOrDirectory .. => .missing
  | .inappropriateType .. => .isDirectory
  | error => .other (Text.ofString (toString error))

def attempt (action : IO α) : IO (Except FileFault α) := do
  try return .ok (← action)
  catch error => return .error (.ofError error)

/-- The path in the machine's own form. -/
def Path.native (path : Path) : String :=
  path.text.toString

/-- An absolute text stays what it is below any directory. -/
def kindAt? (path : Path) : IO (Option EntryKind) := do
  let place := (← IO.currentDir) / path.native
  if ← place.isDir then return some .directory
  else if ← place.pathExists then return some .file
  else return none

instance : FileSystem IO where
  kind? := kindAt?
  readText path := attempt (Text.ofString <$> IO.FS.readFile path.native)
  makeDirectory path := attempt (IO.FS.createDirAll path.native)
  writeText path text := attempt (IO.FS.writeFile path.native text.toString)
  rename source target := attempt (IO.FS.rename source.native target.native)
  remove path := do
    if (← kindAt? path).isSome then attempt (IO.FS.removeFile path.native) else return .ok ()

/-- The variables that a run may consult. -/
def readEnvironment : IO Environment := do
  [upToDateVariable, untouchedVariable, depthVariable].filterMapM fun name => do
    return (← IO.getEnv name.toString).map fun value => (name, Text.ofString value)

def readSurroundings : IO Surroundings := do
  let directory := Path.root.resolve (Text.ofString (← IO.currentDir).toString)
  return { directory, environment := ← readEnvironment }

def readStamp : IO RunStamp := do
  let now ← Std.Time.Timestamp.now
  let tag ← IO.rand 0 0xFFFFFFFFFFFF
  return {
    timestamp := timestampText now.toMillisecondsSinceUnixEpoch.val.toNat
    tag := Json.hexDigits 12 tag }

def printLines (stream : IO.FS.Stream) (lines : List Text) : IO Unit :=
  lines.forM fun line => stream.putStrLn line.toString

def runProgram (texts : List String) : IO UInt32 := do
  let invocation : Invocation ← invoke (← readSurroundings) (← readStamp) (texts.map Text.ofString)
  printLines (← IO.getStdout) invocation.output
  printLines (← IO.getStderr) invocation.notes
  return invocation.status.toUInt32

end BuildPipeline

def main (texts : List String) : IO UInt32 :=
  BuildPipeline.runProgram texts
