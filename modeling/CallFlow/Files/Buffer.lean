import CallFlow.Files.Basic

/-!
Writing to a file through a buffer.

A buffer holds bytes back while there is room for more. Bytes that could not be written stay in it.
-/
namespace CallFlow.Files.Buffer

def capacity : Nat := 8192

variable {m : Type → Type} [Monad m] [Storage m]

def hold (bytes : List UInt8) : ExceptT FileError (StateT (List UInt8) m) Unit :=
  modify (· ++ bytes)

def pass (handle : Storage.Handle m) (bytes : List UInt8)
    : ExceptT FileError (StateT (List UInt8) m) Unit :=
  ExceptT.mk (StateT.lift (Storage.write handle bytes.toByteArray))

def flush (handle : Storage.Handle m) : ExceptT FileError (StateT (List UInt8) m) Unit := do
  match ← get with
  | [] => return ()
  | held =>
    pass handle held
    set ([] : List UInt8)

def holdOrPass (handle : Storage.Handle m) (bytes : List UInt8)
    : ExceptT FileError (StateT (List UInt8) m) Unit :=
  if bytes.length < capacity then hold bytes else pass handle bytes

def put (handle : Storage.Handle m) (bytes : List UInt8)
    : ExceptT FileError (StateT (List UInt8) m) Unit := do
  let room := capacity - (← get).length
  if bytes.length < room then
    hold bytes
  else
    if room < bytes.length then
      flush handle
    holdOrPass handle bytes

/--
Carries out an action that writes to a file with an empty buffer. What is still held behind a failure is
tried once more, whatever comes of it.
-/
def run (handle : Storage.Handle m) (action : ExceptT FileError (StateT (List UInt8) m) Unit)
    : m (Except FileError Unit) := do
  let (result, held) ← action.run.run []
  let _ ← (flush handle).run.run held
  return result

end CallFlow.Files.Buffer
