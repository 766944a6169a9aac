import CallFlow.Files.Basic
import CallFlow.Text.Line

/-!
Trees of files.

A tree has an entry for each path. Paths are lists of names from the root directory. The working
directory and the directories above it are there always. A path that is given as text is followed
name by name, from the root if it begins with a slash and else from the working directory; all names
before the last have to be directories.
-/
namespace CallFlow.Files

open CallFlow.Text

-- Preferred to another instance that is in scope where more of the library is imported.
instance decidableEqByteArray : DecidableEq ByteArray := ByteArray.instDecidableEq

inductive Entry where
  | file (content : ByteArray)
  | directory
  /-- A device that never has space. -/
  | full
deriving DecidableEq, Inhabited

abbrev Path := List String

structure Tree where
  here : Path := []
  entries : List (Path × Entry) := []
deriving DecidableEq, Inhabited

namespace Tree

def entry? (t : Tree) (path : Path) : Option Entry :=
  if path.isPrefixOf t.here then some .directory else t.entries.lookup path

def setIn (path : Path) (e : Entry) : List (Path × Entry) → List (Path × Entry)
  | [] => [(path, e)]
  | (p, d) :: rest => if p = path then (p, e) :: rest else (p, d) :: setIn path e rest

def set (t : Tree) (path : Path) (e : Entry) : Tree := { t with entries := setIn path e t.entries }

def start (t : Tree) (path : String) : Path :=
  if path.toList.head? = some '/' then [] else t.here

def names (path : String) : List String := (pieces '/' path.toList).map String.ofList

/--
Where a name leads from a path. An empty name or a dot stays, and two dots go back.
-/
def step (path : Path) (name : String) : Path :=
  if name = "" ∨ name = "." then path
  else if name = ".." then path.dropLast
  else path ++ [name]

def walk (t : Tree) (path : Path) : List String → Except FileError Path
  | [] => .ok path
  | name :: names =>
    match t.entry? path with
    | none => .error .notFound
    | some .directory => walk t (step path name) names
    | some _ => .error .notDirectory

def locate (t : Tree) (path : String) : Except FileError Path :=
  if path = "" then .error .notFound
  else walk t (t.start path) (names path)

/--
The path of a file to be written: it has to be named, in a directory.
-/
def locateNew (t : Tree) (path : String) : Except FileError Path :=
  if path = "" then .error .notFound
  else
    let names := (names path).reverse
    match names.dropWhile (· = "") with
    | [] => .error .isDirectory
    | name :: before => do
      let above ← walk t (t.start path) before.reverse
      match t.entry? above with
      | none => .error .notFound
      | some .directory =>
        if name = "." ∨ name = ".." ∨ names.head? = some "" then .error .isDirectory
        else .ok (above ++ [name])
      | some _ => .error .notDirectory

def read (t : Tree) (path : String) : Except FileError ByteArray := do
  let path ← t.locate path
  match t.entry? path with
  | none => .error .notFound
  | some .directory => .error .isDirectory
  | some (.file content) => .ok content
  -- There is no end of the bytes that can be read there.
  | some .full => .error .outOfMemory

def create (t : Tree) (path : String) : Except FileError (Path × Tree) := do
  let path ← t.locateNew path
  match t.entry? path with
  | some .directory => .error .isDirectory
  | some .full => .ok (path, t)
  | _ => .ok (path, t.set path (.file .empty))

def write (t : Tree) (path : Path) (bytes : ByteArray) : Except FileError Tree :=
  match t.entry? path with
  | none => .error .notFound
  | some .directory => .error .isDirectory
  | some .full => if bytes.isEmpty then .ok t else .error .noSpace
  | some (.file content) => .ok (t.set path (.file (content ++ bytes)))

def add (t : Tree) (path : Path) (e : Entry) : Tree :=
  let path := t.here ++ path
  let above := (List.range path.length).map (path.take ·)
  (above.foldl (fun (t : Tree) p => if t.entry? p = none then t.set p .directory else t) t).set
    path e

def base : Tree where
  here := ["work"]
  entries := [(["dev"], .directory), (["dev", "full"], .full)]

/--
The files of a tree that are not in another one, or not with the same content. Paths below the working
directory are shown from there on, and others with a slash before them.
-/
def changes (before after : Tree) : List (Path × ByteArray) :=
  after.entries.filterMap fun (p, e) =>
    match e with
    | .file content =>
      if before.entry? p = some e then none
      else if after.here.isPrefixOf p then some (p.drop after.here.length, content)
      else some ("" :: p, content)
    | _ => none

instance : Storage (StateM Tree) where
  Handle := Path
  read path := fun t => (t.read path, t)
  create path := fun t =>
    match t.create path with
    | .ok (path, t) => (.ok path, t)
    | .error e => (.error e, t)
  write path bytes := fun t =>
    match t.write path bytes with
    | .ok t => (.ok (), t)
    | .error e => (.error e, t)

end Tree

end CallFlow.Files
