import ShaderGraph.Failure
/-! Swizzle patterns: one to four component letters, all spatial (`xyzw`) or all color
(`rgba`). A letter's place in its set is its component. -/
namespace ShaderGraph

inductive Component
  | x
  | y
  | z
  | w
  deriving DecidableEq, Repr

namespace Component

def index : Component → Nat
  | .x => 0
  | .y => 1
  | .z => 2
  | .w => 3

def letter : Component → Char
  | .x => 'x'
  | .y => 'y'
  | .z => 'z'
  | .w => 'w'

def title : Component → String
  | .x => "X"
  | .y => "Y"
  | .z => "Z"
  | .w => "W"

def all : List Component := [.x, .y, .z, .w]

def ofSpatial? : Char → Option Component
  | 'x' => some .x
  | 'y' => some .y
  | 'z' => some .z
  | 'w' => some .w
  | _ => none

def ofColor? : Char → Option Component
  | 'r' => some .x
  | 'g' => some .y
  | 'b' => some .z
  | 'a' => some .w
  | _ => none

theorem spatialOfLetter (c : Component) : ofSpatial? c.letter = some c := by cases c <;> rfl

def letters (pattern : List Component) : String := String.ofList (pattern.map letter)

def parse (pattern : String) : Except Error (List Component) :=
  if pattern.isEmpty || 4 < pattern.utf8ByteSize then
    .error (.invalidSwizzle s!"'{pattern}' must have 1 to 4 components")
  else match pattern.toList.mapM ofSpatial? with
    | some cs => .ok cs
    | none => match pattern.toList.mapM ofColor? with
      | some cs => .ok cs
      | none => .error (.invalidSwizzle s!"'{pattern}' mixes or uses unknown component letters")

end Component

end ShaderGraph
