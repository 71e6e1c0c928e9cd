import ShaderGraph.Dump
import ShaderGraph.Glsl.Shader
import ShaderGraph.Wgsl.Module
/-! Backends by target identifier. Where two answer to one identifier the earlier one wins. -/
namespace ShaderGraph

def listingBackend : Backend where
  name := "KSL pseudocode"
  targets := ["ksl", "ir"]
  files p _ := do return [⟨s!"{p.name}.ksl", none, ← p.dump⟩]

structure Registry where
  backends : List Backend := []

namespace Registry

def quoted (text : String) : String := "\"" ++ text ++ "\""

def register (r : Registry) (b : Backend) : Logged Registry :=
  let targets := ", ".intercalate (b.targets.map quoted)
  ⟨⟨r.backends ++ [b]⟩, [⟨.debug, s!"registered backend {b.name} ([{targets}])"⟩]⟩

def registerAll (r : Registry) : List Backend → Logged Registry
  | [] => ⟨r, []⟩
  | b :: rest =>
    let one := r.register b
    let all := one.value.registerAll rest
    ⟨all.value, one.log ++ all.log⟩

def empty : Registry := {}

def basic : Logged Registry := empty.registerAll [listingBackend]

def full : Logged Registry :=
  empty.registerAll [listingBackend, Glsl.backend .desktop, Glsl.backend .es, Wgsl.backend]

def find? (r : Registry) (target : String) : Option Backend :=
  r.backends.find? fun b => b.targets.contains target

def targets (r : Registry) : List String := (r.backends.map Backend.targets).flatten

end Registry

end ShaderGraph
