/-!
Reading and writing files.

`Storage` is what the program needs of the place where files are kept.
-/
namespace CallFlow.Files

inductive FileError where
  | notFound
  | notDirectory
  | isDirectory
  | noSpace
  | outOfMemory
  /-- The bytes of a file are no UTF-8. -/
  | invalidText
  | other (description : String)
deriving DecidableEq, Repr, Inhabited

def FileError.message : FileError → String
  | notFound => "No such file or directory (os error 2)"
  | notDirectory => "Not a directory (os error 20)"
  | isDirectory => "Is a directory (os error 21)"
  | noSpace => "No space left on device (os error 28)"
  | outOfMemory => "out of memory"
  | invalidText => "stream did not contain valid UTF-8"
  | other description => description

class Storage (m : Type → Type) where
  Handle : Type
  read : String → m (Except FileError ByteArray)
  create : String → m (Except FileError Handle)
  write : Handle → ByteArray → m (Except FileError Unit)

end CallFlow.Files
