/-! # Places in a file system

Paths as texts. Two paths are one place when their parts agree; empty parts and single dots
do not count, except for a dot in front. -/
namespace SeriesLog.Cli

structure Place where
  isAbsolute : Bool
  parts : List String
  deriving DecidableEq, Repr

namespace Place

def counts (part : String) : Bool := part != "" && part != "."

def ofPath (path : String) : Place :=
  match path.splitOn "/" with
  | "" :: rest => ⟨path != "", rest.filter counts⟩
  | first :: rest => ⟨false, first :: rest.filter counts⟩
  | [] => ⟨false, []⟩

def inside (directory path : String) : String :=
  if directory.isEmpty || directory.endsWith "/" then directory ++ path
  else directory ++ "/" ++ path

end Place

end SeriesLog.Cli
