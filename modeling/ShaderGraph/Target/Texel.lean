import ShaderGraph.Program
/-! Texels on the wire. Texture loads and stores always move four components, so a shorter
texel is picked out of a load and padded for a store. -/
namespace ShaderGraph.Storage

def width (s : Storage) : Nat := s.texelTy.componentCount?.getD 4

def kind (s : Storage) : ScalarKind := s.texelTy.scalarKind?.getD .float

def pick (s : Storage) : String :=
  match s.width with
  | 1 => ".x"
  | 2 => ".xy"
  | _ => ""

def zeroText : ScalarKind → String
  | .float => "0.0"
  | .uint => "0u"
  | _ => "0"

def padding (s : Storage) : List String := List.replicate (4 - s.width) (zeroText s.kind)

def padded (s : Storage) (vec value : String) : String :=
  if 4 ≤ s.width then value
  else vec ++ "(" ++ ", ".intercalate (value :: s.padding) ++ ")"

end ShaderGraph.Storage
