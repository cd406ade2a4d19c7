import PqcScan.Python.Str

/-!
# Paths and files

What the file-system probes use of `pathlib`: the parts of a path, and a tree of files
whose entries come in the order in which the operating system lists them.
-/

namespace PqcScan
namespace Python

/-- A `Path` by its parts; an absolute path has the root as its first part. -/
structure Path where
  parts : List String
  deriving DecidableEq

namespace Path

/-- `str(path)`. -/
def str (path : Path) : String :=
  match path.parts with
  | [] => "."
  | "/" :: rest => "/" ++ String.intercalate "/" rest
  | parts => String.intercalate "/" parts

/-- `path.name`. -/
def name (path : Path) : List Char :=
  match path.parts.getLast? with
  | none => []
  | some part => if part = "/" then [] else part.toList

/-- `path.suffix`: the name from its last dot on, which is neither its first
nor its last character. -/
def suffix (path : Path) : List Char :=
  let tail := path.name.reverse.takeWhile (· != '.')
  if tail ≠ [] ∧ tail.length + 1 < path.name.length then '.' :: tail.reverse else []

end Path

/-- The files that a probe finds. -/
structure FileSystem where
  exists_ : Path → Bool
  isFile : Path → Bool
  /-- `path.rglob("*")`. -/
  below : Path → List Path
  /-- `path.read_text`, or nothing for an `OSError`. -/
  readText : Path → Option (List Char)
  exists_of_isFile : ∀ path, isFile path = true → exists_ path = true

end Python
end PqcScan
