import Conquest.CommandLine

/-!
# The program

Reads the files that the arguments name, draws a seed, and prints what the run leaves behind.
-/

namespace Conquest.CommandLine

/-- The cause of an error that the system reports. -/
def causeOf : IO.Error → FileError
  | .noFileOrDirectory .. => .missing
  | .inappropriateType _ code _ => if code = 21 then .isDirectory else .notDirectory
  | .invalidArgument .. => .nameTooLong
  | .userError _ => .notText
  | e => .other (toString e)

/-- The text of a file, or why it cannot be read. -/
def readText (path : String) : IO (Except FileError String) := do
  try
    return .ok (← IO.FS.readFile path)
  catch e => return .error (causeOf e)

/-- The texts of the files that some arguments name. -/
def readFiles (args : List String) : IO Files := do
  match readArguments args with
  | .error _ => return fun _ => .error .missing
  | .ok (i, scenario) =>
    let paths := scenario :: i.config.toList
    let texts ← paths.mapM fun path => do return (path, ← readText path)
    return fun path => (texts.lookup path).getD (.error .missing)

/-- A seed from the system. -/
def drawSeed : IO Nat := do
  let bytes ← IO.getRandomBytes 8
  return bytes.toList.foldl (fun n byte => 256 * n + byte.toNat) 0

end Conquest.CommandLine

open Conquest.CommandLine in
def main (args : List String) : IO UInt32 := do
  let outcome := run args (← readFiles args) (← drawSeed)
  for message in outcome.messages do IO.eprintln message
  IO.print outcome.output
  return outcome.code.toUInt32
