import CallFlow.Cli.Run

/-!
The program.
-/
namespace CallFlow

open CallFlow.Files

def fileError : IO.Error → FileError
  | .noFileOrDirectory _ _ _ => .notFound
  | .inappropriateType _ 21 _ => .isDirectory
  | .inappropriateType _ _ _ => .notDirectory
  | .resourceExhausted _ _ _ => .noSpace
  | e => .other (toString e)

def attempt (action : IO α) : IO (Except FileError α) := do
  try
    return .ok (← action)
  catch e =>
    return .error (fileError e)

instance : Storage IO where
  Handle := IO.FS.Handle
  read path := attempt (IO.FS.readBinFile path)
  create path := attempt (IO.FS.Handle.mk path .write)
  write handle bytes := attempt do
    handle.write bytes
    handle.flush

end CallFlow

open CallFlow in
def main (args : List String) : IO UInt32 := do
  let outcome ← Cli.run (args.map Text.RawText.ofString)
  for line in outcome.logs do
    IO.eprintln line
  IO.print outcome.stdout
  IO.eprint outcome.stderr
  return if outcome.success then 0 else 1
