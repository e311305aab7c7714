import ConditionalAssignment.Command

/-!
# The program

The program reads the bytes of the sources that its arguments name, runs the
command on them and prints what the run leaves behind.
-/

namespace ConditionalAssignment

/-- The bytes of a file, if it can be read. -/
def readFile? (path : String) : IO (Option ByteArray) := do
  match ← (IO.FS.readBinFile path).toBaseIO with
  | .ok bytes => return some bytes
  | .error _ => return none

/-- All bytes that are left of a stream, behind the bytes already read. -/
partial def readAll
    (stream : IO.FS.Stream)
    (bytes : ByteArray) : IO ByteArray := do
  let more ← stream.read 65536
  if more.isEmpty then
    return bytes
  else
    readAll stream (bytes ++ more)

/-- Load the bytes of the sources with given paths. -/
def load (paths : List String) : IO Inputs := do
  let standardInput ←
    if paths.contains "-" then
      readAll (← IO.getStdin) ByteArray.empty
    else
      pure ByteArray.empty
  let files ← (paths.filter (· != "-")).mapM fun path => do
    return (path, ← readFile? path)
  return ⟨standardInput, fun path => (files.lookup path).join⟩

end ConditionalAssignment

/-- Run the command that the arguments ask for. -/
def main (arguments : List String) : IO UInt32 := do
  let paths := ConditionalAssignment.Invocation.pathsOf arguments
  let inputs ← ConditionalAssignment.load paths
  let completion := ConditionalAssignment.run arguments inputs
  IO.print completion.output
  IO.eprint completion.diagnostics
  return completion.exitCode.toUInt32
