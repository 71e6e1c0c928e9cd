import ShaderGraph.Proofs.Declaring
import ShaderGraph.Proofs.Generation
import ShaderGraph.Proofs.Respelling
/-! Textures in GLSL. The declarations of a shader are chosen from the accesses of the whole
program, and a texture operand reads its uniform directly, so that each access in the body of the
shader is one that the declaration of its texture allows. -/
namespace ShaderGraph

open Compile

inductive Glsl.Permitted (p : Program) (version : GlslVersion) (o : Options) (lines : List String) :
    VarId → Access → Prop
  | sample {v : VarId} {var : Variable} {s : Sampler} (inside : v ∈ p.uniforms)
      (at_ : p.vars.get? v = some var) (ty : var.ty = .sampler s)
      (declared : (if version.isEs then
          s!"uniform {o.precision.qualifier} {samplerName s} {var.name};"
        else s!"uniform {samplerName s} {var.name};") ∈ lines)
      (sampled : s ≠ ⟨.cubeArray, .depth⟩)
      (es : version.isEs = true → s.dim ≠ .d1 ∧ s.dim ≠ .cubeArray) :
      Permitted p version o lines v (.sample var.name s)
  | load {v : VarId} {var : Variable} {s : Storage} {usage : Usage} {format : String}
      (inside : v ∈ p.uniforms) (at_ : p.vars.get? v = some var) (ty : var.ty = .storage s)
      (used : p.storageUsage v = .ok usage) (formatted : imageFormat? s.texelTy = some format)
      (declared : s!"layout({format}) uniform {access usage}highp {imageName s} {var.name};" ∈
        lines)
      (readable : access usage = "readonly " ∨ access usage = "")
      (texel : s.texelTy.componentCount? ≠ some 3) :
      Permitted p version o lines v (.load var.name s)
  | store {v : VarId} {var : Variable} {s : Storage} {usage : Usage} {format : String}
      (inside : v ∈ p.uniforms) (at_ : p.vars.get? v = some var) (ty : var.ty = .storage s)
      (used : p.storageUsage v = .ok usage) (formatted : imageFormat? s.texelTy = some format)
      (declared : s!"layout({format}) uniform {access usage}highp {imageName s} {var.name};" ∈
        lines)
      (writable : access usage = "writeonly " ∨ access usage = "")
      (texel : s.texelTy.componentCount? ≠ some 3) :
      Permitted p version o lines v (.store var.name s)

/-- A file is written for a stage: the declarations `lines` of the uniforms stand before the
interface and the body. -/
structure Glsl.Written (p : Program) (version : GlslVersion) (o : Options) (stage : Stage)
    (file : OutputFile) (lines : List String) (body : Listing) : Prop where
  kind : file.stage = some stage.kind
  declared : ∃ r s, uniformLines p version o p.uniforms r = .ok lines s
  source : ∃ workgroup inputs outputs,
    (∃ r s, workgroupLines version stage.workgroup r = .ok workgroup s) ∧
    interfaceLines p version stage.kind .input stage.inputs = .ok inputs ∧
    interfaceLines p version stage.kind .output stage.outputs = .ok outputs ∧
    file.source = Listing.text (header version o ++ workgroup ++ setApart p.uniforms.isEmpty lines
      ++ setApart (stage.inputs.isEmpty && stage.outputs.isEmpty) (inputs ++ outputs)
      ++ .blank :: .line "void main() \x7b" :: Listing.nested body ++ [.line "\x7d"])
  confined : Confined p spelling respelled (Permitted p version o lines) o.annotate stage body
  samplers : ∀ v var t, p.vars.get? v = some var → var.ty = .sampler t →
    v ∈ p.uniforms ∧ t ≠ ⟨.cubeArray, .depth⟩ ∧
      (version.isEs = true → t.dim ≠ .d1 ∧ t.dim ≠ .cubeArray)

section

variable {p : Program} {version : GlslVersion} {o : Options} {lines : List String} {r s : Report}

theorem glslReadable {usage : Usage} (loads : usage.loads = true) :
    Glsl.access usage = "readonly " ∨ Glsl.access usage = "" := by
  unfold Glsl.access
  rw [loads]
  cases usage.stores with
  | true => exact .inr rfl
  | false => exact .inl rfl

theorem glslWritable {usage : Usage} (stores : usage.stores = true) :
    Glsl.access usage = "writeonly " ∨ Glsl.access usage = "" := by
  unfold Glsl.access
  rw [stores]
  cases usage.loads with
  | true => exact .inr rfl
  | false => exact .inl rfl

theorem glslImage (declared : Glsl.uniformLines p version o p.uniforms r = .ok lines s) {v : VarId}
    {var : Variable} {t : Storage} (inside : v ∈ p.uniforms) (at_ : p.vars.get? v = some var)
    (ty : var.ty = .storage t) : ∃ usage format, p.storageUsage v = .ok usage ∧
      Glsl.imageFormat? t.texelTy = some format ∧
      s!"layout({format}) uniform {Glsl.access usage}highp {Glsl.imageName t} {var.name};" ∈
        lines := by
  obtain ⟨_, usage, line, _, _, there, used, written, among⟩ := uniformLinesOk declared inside
  cases at_.symm.trans there
  simp only [Glsl.uniformLine, ty] at written
  obtain ⟨format, made, rfl⟩ := imageLineOk written
  exact ⟨usage, format, used, made, among⟩

theorem glslSampler (declared : Glsl.uniformLines p version o p.uniforms r = .ok lines s)
    {v : VarId} {var : Variable} {t : Sampler} (inside : v ∈ p.uniforms)
    (at_ : p.vars.get? v = some var) (ty : var.ty = .sampler t) :
    (version.isEs = true → t.dim ≠ .d1 ∧ t.dim ≠ .cubeArray) ∧ t ≠ ⟨.cubeArray, .depth⟩ ∧
      (if version.isEs then s!"uniform {o.precision.qualifier} {Glsl.samplerName t} {var.name};"
        else s!"uniform {Glsl.samplerName t} {var.name};") ∈ lines := by
  obtain ⟨_, usage, line, _, _, there, used, written, among⟩ := uniformLinesOk declared inside
  cases at_.symm.trans there
  simp only [Glsl.uniformLine, ty] at written
  obtain ⟨es, shadow, rfl⟩ := samplerLineOk written
  exact ⟨es, shadow, among⟩

theorem Built.glslPermitted (built : Built p)
    (declared : Glsl.uniformLines p version o p.uniforms r = .ok lines s) {among : List StmtId}
    {v : VarId} {access : Access} (makes : p.Accesses Glsl.spelling among v access) :
    Glsl.Permitted p version o lines v access := by
  cases makes with
  | sample _ _ _ varAt ty =>
    obtain ⟨inside, same, -⟩ := built.resourceName varAt (ty ▸ rfl)
    obtain ⟨es, shadow, line⟩ := glslSampler declared inside varAt ty
    rw [same]
    exact .sample inside varAt ty line shadow es
  | load at_ op texture varAt ty =>
    obtain ⟨inside, same, -⟩ := built.resourceName varAt (ty ▸ rfl)
    obtain ⟨usage, format, used, made, line⟩ := glslImage declared inside varAt ty
    have loads := usageLoads used ⟨_, _, _, _, at_, op, texture⟩
    rw [same]
    exact .load inside varAt ty used made line (glslReadable loads) (formatSize made)
  | store _ at_ kind texture varAt ty =>
    obtain ⟨inside, same, -⟩ := built.resourceName varAt (ty ▸ rfl)
    obtain ⟨usage, format, used, made, line⟩ := glslImage declared inside varAt ty
    have stores := usageStores used ⟨_, _, _, _, _, at_, kind, texture⟩
    rw [same]
    exact .store inside varAt ty used made line (glslWritable stores) (formatSize made)

theorem glslFileOk {stage : Stage} {file : OutputFile}
    (ran : Glsl.stageFile p version o stage r = .ok file s) : file.stage = some stage.kind ∧
      ∃ workgroup lines inputs outputs body,
        (∃ t u, Glsl.workgroupLines version stage.workgroup t = .ok workgroup u) ∧
        (∃ t u, Glsl.uniformLines p version o p.uniforms t = .ok lines u) ∧
        Glsl.interfaceLines p version stage.kind .input stage.inputs = .ok inputs ∧
        Glsl.interfaceLines p version stage.kind .output stage.outputs = .ok outputs ∧
        (∃ w, Emit.scope p Glsl.dialect o.annotate stage.main {} = .ok body w) ∧
        file.source = Listing.text (Glsl.header version o ++ workgroup
          ++ Glsl.setApart p.uniforms.isEmpty lines
          ++ Glsl.setApart (stage.inputs.isEmpty && stage.outputs.isEmpty) (inputs ++ outputs)
          ++ .blank :: .line "void main() \x7b" :: Listing.nested body ++ [.line "\x7d"]) := by
  simp only [Glsl.stageFile, bindOk, liftOk] at ran
  obtain ⟨positioned, _, -, ran⟩ := ran
  obtain ⟨t, ran⟩ : ∃ t, Glsl.settled p version o stage t = .ok file s := afterOk ran
  simp only [Glsl.settled, Glsl.shader, bindOk, liftOk, pureOk] at ran
  obtain ⟨_, _, ⟨workgroup, _, sized, lines, _, declared, inputs, _, ⟨read, -⟩, outputs, _,
    ⟨written, -⟩, body, _, walked, rfl, -⟩, _, _, -, rfl, -⟩ := ran
  exact ⟨rfl, workgroup, lines, inputs, outputs, body, ⟨_, _, sized⟩, ⟨_, _, declared⟩, read, written,
    walkOk walked, rfl⟩

theorem Built.glslFile (built : Built p) {stage : Stage} (inside : stage ∈ p.stages)
    {file : OutputFile} (ran : Glsl.stageFile p version o stage r = .ok file s) :
    ∃ lines body, Glsl.Written p version o stage file lines body := by
  obtain ⟨kind, workgroup, lines, inputs, outputs, body, sized, ⟨_, _, declared⟩, read, written,
    ⟨_, emitted⟩, source⟩ := glslFileOk ran
  refine ⟨lines, body, kind, ⟨_, _, declared⟩,
    ⟨workgroup, inputs, outputs, sized, read, written, source⟩, ?_, ?_⟩
  · exact built.confined inside (fun _ _ _ _ => built.glslPermitted declared)
      (fun _ _ => built.glslAlike) emitted
  · intro v var t at_ ty
    obtain ⟨among, -⟩ := built.resourceVar at_ (ty ▸ rfl)
    obtain ⟨es, shadow, -⟩ := glslSampler declared among at_ ty
    exact ⟨among, shadow, es⟩

theorem versionChosen {flavor : Glsl.Flavor} {asked : GlslVersion}
    (ran : Glsl.chooseVersion flavor asked r = .ok version s) : version.isEs = (flavor == .es) := by
  unfold Glsl.chooseVersion at ran
  split at ran
  · rename_i same
    cases (pureOk.mp ran).1
    exact beq_iff_eq.mp same
  · obtain ⟨_, _, -, ran⟩ := bindOk.mp ran
    cases (pureOk.mp ran).1
    cases flavor <;> rfl

theorem glslFilesOk {flavor : Glsl.Flavor} {files : List OutputFile}
    (ran : Glsl.files flavor p o r = .ok files s) : ∃ version, version.isEs = (flavor == .es) ∧
      List.Forall₂ (fun stage file => stage ∈ p.stages ∧
        ∃ t u, Glsl.stageFile p version o stage t = .ok file u) p.stages files := by
  unfold Glsl.files at ran
  split at ran
  · cases ran
  · obtain ⟨version, _, chosen, ran⟩ := bindOk.mp ran
    exact ⟨version, versionChosen chosen,
      List.forall₂_and_left _ _ |>.mpr ⟨fun _ inside => inside, mapMOk ran⟩⟩

theorem Built.glslFiles (built : Built p) {flavor : Glsl.Flavor} {files : List OutputFile}
    (ran : Glsl.files flavor p o r = .ok files s) : ∃ version, version.isEs = (flavor == .es) ∧
      List.Forall₂ (fun stage file => ∃ lines body, Glsl.Written p version o stage file lines body)
        p.stages files := by
  obtain ⟨version, chosen, each⟩ := glslFilesOk ran
  exact ⟨version, chosen, each.imp fun _ _ ⟨inside, _, _, made⟩ => built.glslFile inside made⟩

end

end ShaderGraph
