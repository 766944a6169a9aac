/-!
The built-in functions of Python, which do not count as calls.

Their names are kept in order, so a name is looked up by halving.
-/
namespace CallFlow.Functions

def builtins : Array String :=
  #["__import__", "abs", "all", "any", "ascii", "bin", "bool", "callable", "chr", "classmethod",
    "complex", "delattr", "dict", "dir", "divmod", "enumerate", "eval", "filter", "float", "format",
    "frozenset", "getattr", "globals", "hasattr", "hash", "help", "hex", "id", "input", "int",
    "isinstance", "issubclass", "iter", "len", "list", "locals", "map", "max", "min", "next",
    "object", "oct", "open", "ord", "pow", "print", "property", "range", "repr", "reversed",
    "round", "set", "setattr", "slice", "sorted", "staticmethod", "str", "sum", "super", "tuple",
    "type", "vars", "zip"]

def searchSorted (names : Array String) (name : String) (lo hi : Nat) : Bool :=
  if lo < hi then
    match names[lo + (hi - lo) / 2]? with
    | none => false
    | some found =>
      if name < found then searchSorted names name lo (lo + (hi - lo) / 2)
      else if found < name then searchSorted names name (lo + (hi - lo) / 2 + 1) hi
      else true
  else false
termination_by hi - lo

def isBuiltin (name : String) : Bool := searchSorted builtins name 0 builtins.size

end CallFlow.Functions
