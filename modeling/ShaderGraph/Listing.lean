/-! Source text as a list of lines and changes of indentation, written out last. Lines
stand four spaces in per level; an empty line is written without any. -/
namespace ShaderGraph

inductive Item
  | line (text : String)
  | blank
  | indent
  | dedent
  deriving DecidableEq, Repr

abbrev Listing := List Item

structure Writer where
  text : String := ""
  level : Nat := 0
  deriving DecidableEq, Repr

namespace Writer

def margin : Nat → String
  | 0 => ""
  | n + 1 => "    " ++ margin n

def written (level : Nat) (text : String) : String :=
  if text.isEmpty then "\n" else margin level ++ text ++ "\n"

def put (w : Writer) : Item → Writer
  | .line text => { w with text := w.text ++ written w.level text }
  | .blank => { w with text := w.text ++ "\n" }
  | .indent => { w with level := w.level + 1 }
  | .dedent => { w with level := w.level - 1 }

def write (w : Writer) (items : Listing) : Writer := items.foldl put w

end Writer

namespace Listing

def text (items : Listing) : String := (Writer.write {} items).text

def nested (items : Listing) : Listing := .indent :: (items ++ [.dedent])

end Listing

end ShaderGraph
