import ShaderGraph.Proofs.Textures.Glsl
import ShaderGraph.Proofs.Textures.Wgsl
/-! What is written for a program accesses textures as they are declared, whatever the target. -/
namespace ShaderGraph

open Compile

section

variable {p : Program} {b : Backend} {f : Frozen} {o : Options}

def Backend.stop? (b : Backend) (p : Program) (o : Options) : Option Stop :=
  match b.files p o {} with
  | .ok _ _ => none
  | .error why _ => some why

theorem compiles (unstopped : b.stop? f.program o = none) :
    ∃ out, (b.compile f o).result = .ok out := by
  unfold Backend.stop? at unstopped
  split at unstopped
  · rename_i files r ran
    exact ⟨⟨files, r.diagnostics⟩, by simp only [Backend.compile, ran]⟩
  · cases unstopped

theorem compileStops {why : Stop} (stopped : b.stop? f.program o = some why) :
    (b.compile f o).result = .error why := by
  unfold Backend.stop? at stopped
  split at stopped
  · cases stopped
  · rename_i r ran
    cases stopped
    simp only [Backend.compile, ran]

end

end ShaderGraph
