/-! Paths of a Unix file system: what stands between slashes, read from left to right. -/
namespace ShaderGraph

structure Path where
  absolute : Bool
  components : List String
  dotted : Bool
  deriving DecidableEq, Repr

namespace Path

def split : List Char → List (List Char)
  | [] => [[]]
  | '/' :: rest => [] :: split rest
  | c :: rest => match split rest with
    | [] => [[c]]
    | first :: others => (c :: first) :: others

def parse (text : String) : Path :=
  let parts := ((split text.toList).map String.ofList).filter fun part => !part.isEmpty
  ⟨text.startsWith "/", parts.filter fun part => part != ".", parts.getLast? == some "."⟩

def text (p : Path) : String :=
  let names := "/".intercalate p.components
  if p.absolute then "/" ++ names else if names.isEmpty then "." else names

def parent (p : Path) : Path := ⟨p.absolute, p.components.dropLast, false⟩

def join (directory file : String) : String :=
  if directory.endsWith "/" then directory ++ file else directory ++ "/" ++ file

end Path

end ShaderGraph
