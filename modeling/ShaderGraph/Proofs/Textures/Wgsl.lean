import ShaderGraph.Proofs.Declaring
import ShaderGraph.Proofs.Generation
import ShaderGraph.Proofs.Replay
import ShaderGraph.Proofs.Respelling
/-! Textures in WGSL. An entry point accesses textures as the bindings of the module allow, and one
for vertices stores to none. A module is refused for it only where a vertex stage has a store. -/
namespace ShaderGraph

open Compile

inductive Wgsl.Permitted (p : Program) (stage : StageKind) (bindings : List Binding) :
    VarId → Access → Prop
  | sample {v : VarId} {var : Variable} {s : Sampler} {number : UInt32} {kind : String}
      (inside : v ∈ p.uniforms) (at_ : p.vars.get? v = some var) (ty : var.ty = .sampler s)
      (declared : ⟨number, "", var.name, textureName s⟩ ∈ bindings)
      (paired : ⟨number + 1, "", s!"{var.name}_sampler", kind⟩ ∈ bindings)
      (sampled : s ≠ ⟨.cubeArray, .depth⟩) : Permitted p stage bindings v (.sample var.name s)
  | load {v : VarId} {var : Variable} {s : Storage} {usage : Usage} {number : UInt32}
      (inside : v ∈ p.uniforms) (at_ : p.vars.get? v = some var) (ty : var.ty = .storage s)
      (used : p.storageUsage v = .ok usage)
      (declared : ⟨number, "", var.name, storageName s (access usage)⟩ ∈ bindings)
      (readable : access usage = "read" ∨ access usage = "read_write")
      (texel : s.texelTy.componentCount? ≠ some 3) : Permitted p stage bindings v (.load var.name s)
  | store {v : VarId} {var : Variable} {s : Storage} {usage : Usage} {number : UInt32}
      (inside : v ∈ p.uniforms) (at_ : p.vars.get? v = some var) (ty : var.ty = .storage s)
      (used : p.storageUsage v = .ok usage)
      (declared : ⟨number, "", var.name, storageName s (access usage)⟩ ∈ bindings)
      (writable : access usage = "write" ∨ access usage = "read_write")
      (texel : s.texelTy.componentCount? ≠ some 3) (notVertex : stage ≠ .vertex) :
      Permitted p stage bindings v (.store var.name s)

structure Wgsl.Written (p : Program) (o : Options) (bindings : List Binding) (stage : Stage)
    (entry : EntryPoint) : Prop where
  kind : entry.stage = stage.kind
  inputs : ∃ r s, members p stage false r = .ok entry.inputs s
  outputs : ∃ r s, members p stage true r = .ok entry.outputs s
  confined : Confined p (spelling stage.kind) (respelled stage.kind)
    (Permitted p stage.kind bindings) o.annotate stage entry.body
  storeless : stage.kind = .vertex → ¬ p.StoresUnder stage

section

variable {p : Program} {r s : Report} {bindings : List Wgsl.Binding}

theorem wgslReadable {usage : Usage} (loads : usage.loads = true) :
    Wgsl.access usage = "read" ∨ Wgsl.access usage = "read_write" := by
  unfold Wgsl.access
  rw [loads]
  cases usage.stores with
  | true => exact .inr rfl
  | false => exact .inl rfl

theorem wgslWritable {usage : Usage} (stores : usage.stores = true) :
    Wgsl.access usage = "write" ∨ Wgsl.access usage = "read_write" := by
  unfold Wgsl.access
  rw [stores]
  cases usage.loads with
  | true => exact .inr rfl
  | false => exact .inl rfl

theorem wgslImage {number : UInt32}
    (bound : Wgsl.bindUniforms p number p.uniforms r = .ok bindings s) {v : VarId} {var : Variable}
    {t : Storage} (inside : v ∈ p.uniforms) (at_ : p.vars.get? v = some var)
    (ty : var.ty = .storage t) : t.texelTy.componentCount? ≠ some 3 ∧
      ∃ usage n, p.storageUsage v = .ok usage ∧
        ⟨n, "", var.name, Wgsl.storageName t (Wgsl.access usage)⟩ ∈ bindings := by
  obtain ⟨own, among, made⟩ := boundAmong bound inside at_
  cases made with
  | storage again used texel =>
    cases ty.symm.trans again
    exact ⟨texel, _, _, used, among List.mem_cons_self⟩
  | sampler again => cases ty.symm.trans again
  | value plain =>
    rw [ty] at plain
    cases plain

theorem wgslSampler {number : UInt32}
    (bound : Wgsl.bindUniforms p number p.uniforms r = .ok bindings s) {v : VarId} {var : Variable}
    {t : Sampler} (inside : v ∈ p.uniforms) (at_ : p.vars.get? v = some var)
    (ty : var.ty = .sampler t) : t ≠ ⟨.cubeArray, .depth⟩ ∧
      ∃ n kind, ⟨n, "", var.name, Wgsl.textureName t⟩ ∈ bindings ∧
        ⟨n + 1, "", s!"{var.name}_sampler", kind⟩ ∈ bindings := by
  obtain ⟨own, among, made⟩ := boundAmong bound inside at_
  cases made with
  | sampler again shadow =>
    cases ty.symm.trans again
    exact ⟨shadow, _, _, among List.mem_cons_self,
      among (List.mem_cons_of_mem _ List.mem_cons_self)⟩
  | storage again => cases ty.symm.trans again
  | value plain =>
    rw [ty] at plain
    cases plain

theorem Built.wgslPermitted (built : Built p) {number : UInt32}
    (bound : Wgsl.bindUniforms p number p.uniforms r = .ok bindings s) {stage : StageKind}
    {among : List StmtId} (storeless : stage = .vertex → ∀ id ∈ among, ¬ p.StoresAt id)
    {v : VarId} {access : Access} (makes : p.Accesses (Wgsl.spelling stage) among v access) :
    Wgsl.Permitted p stage bindings v access := by
  cases makes with
  | sample _ _ _ varAt ty =>
    obtain ⟨inside, -, same⟩ := built.resourceName varAt (ty ▸ rfl)
    obtain ⟨shadow, _, _, texture, sampler⟩ := wgslSampler bound inside varAt ty
    rw [same]
    exact .sample inside varAt ty texture sampler shadow
  | load at_ op texture varAt ty =>
    obtain ⟨inside, -, same⟩ := built.resourceName varAt (ty ▸ rfl)
    obtain ⟨texel, usage, _, used, binding⟩ := wgslImage bound inside varAt ty
    have loads := usageLoads used ⟨_, _, _, _, at_, op, texture⟩
    rw [same]
    exact .load inside varAt ty used binding (wgslReadable loads) texel
  | store here at_ kind texture varAt ty =>
    obtain ⟨inside, -, same⟩ := built.resourceName varAt (ty ▸ rfl)
    obtain ⟨texel, usage, _, used, binding⟩ := wgslImage bound inside varAt ty
    have stores := usageStores used ⟨_, _, _, _, _, at_, kind, texture⟩
    rw [same]
    exact .store inside varAt ty used binding (wgslWritable stores) texel
      fun vertex => storeless vertex _ here ⟨_, _, _, _, at_, kind⟩

theorem storeIn {kind : StageKind} {node : Statement} (found : (match node.kind with
      | .act (.store ..) => do return (← p.scopes.fetch node.scope).stage == kind
      | _ => .ok false : Outcome Bool) = .ok true) :
    ∃ storage coord value home, node.kind = .act (.store storage coord value) ∧
      p.scopes.get? node.scope = some home ∧ home.stage = kind := by
  split at found
  · rename_i storage coord value named
    simp only [Outcome.bindOk, Outcome.pureOk, Arena.fetchOk, beq_iff_eq] at found
    obtain ⟨home, homeAt, same⟩ := found
    exact ⟨storage, coord, value, home, named, homeAt, same⟩
  · cases found

theorem Forest.storesIn (forest : Forest p) {kind : StageKind} {found : Bool}
    (made : Wgsl.storesIn p kind = .ok found) :
    found = true ↔ ∃ stage ∈ p.stages, stage.kind = kind ∧ p.StoresUnder stage := by
  constructor
  · rintro rfl
    obtain ⟨node, inside, holds⟩ := anySome made
    obtain ⟨s, at_⟩ := Arena.memNodes.mp inside
    obtain ⟨storage, coord, value, home, named, homeAt, rfl⟩ := storeIn holds
    -- the scan does not follow scopes, but each statement stands in the body of some stage
    obtain ⟨stage, among, body, laidOut, here⟩ := forest.visited at_
    obtain ⟨_, _, there, again, same⟩ := forest.ofBody among laidOut s here
    cases at_.symm.trans there
    cases homeAt.symm.trans again
    exact ⟨stage, among, same.symm, body, laidOut, s, here, node, storage, coord, value, at_, named⟩
  · rintro ⟨stage, inside, rfl, body, laidOut, s, among, node, storage, coord, value, at_, named⟩
    obtain ⟨_, home, there, homeAt, same⟩ := forest.ofBody inside laidOut s among
    cases at_.symm.trans there
    refine anyHas made (Arena.memNodes.mpr ⟨s, at_⟩) ?_
    simp only [named, Arena.fetchOfGet homeAt, Bind.bind, Except.bind, same]
    exact congrArg Except.ok (beq_self_eq_true _)

theorem wgslEntryOk {o : Options} {stage : Stage} {entry : Wgsl.EntryPoint}
    (ran : Wgsl.entryPoint p o stage r = .ok entry s) : entry.stage = stage.kind ∧
      (∃ t u, Wgsl.members p stage false t = .ok entry.inputs u) ∧
      (∃ t u, Wgsl.members p stage true t = .ok entry.outputs u) ∧
      (∃ w, Emit.scope p (Wgsl.dialect stage.kind) o.annotate stage.main {} = .ok entry.body w) ∧
      ∃ stores, Wgsl.storesIn p stage.kind = .ok stores ∧ (stage.kind = .vertex → stores = false) := by
  simp only [Wgsl.entryPoint, bindOk, liftOk] at ran
  obtain ⟨positioned, _, -, stores, _, ⟨stored, -⟩, ran⟩ := ran
  obtain ⟨w, ran⟩ : ∃ w, Wgsl.settled p o stage positioned stores w = .ok entry s := afterOk ran
  unfold Wgsl.settled at ran
  split at ran
  · exact (unsupportedOk ran).elim
  · rename_i quiet
    simp only [bindOk, pureOk] at ran
    obtain ⟨inputs, _, read, outputs, _, written, body, _, walked, _, _, -, rfl, -⟩ := ran
    refine ⟨rfl, ⟨_, _, read⟩, ⟨_, _, written⟩, walkOk walked, stores, stored, fun vertex => ?_⟩
    simpa [vertex] using quiet

theorem wgslModuleOk {o : Options} {m : Wgsl.Module}
    (ran : Wgsl.Module.ofProgram p o r = .ok m s) :
    (∃ t u, Wgsl.bindUniforms p 0 p.uniforms t = .ok m.bindings u) ∧
      List.Forall₂ (fun stage entry => stage ∈ p.stages ∧
        ∃ t u, Wgsl.entryPoint p o stage t = .ok entry u) p.stages m.entryPoints := by
  unfold Wgsl.Module.ofProgram at ran
  split at ran
  · cases ran
  · simp only [bindOk, pureOk] at ran
    obtain ⟨bindings, _, bound, entries, _, walked, rfl, -⟩ := ran
    exact ⟨⟨_, _, bound⟩, List.forall₂_and_left _ _ |>.mpr ⟨fun _ inside => inside, mapMOk walked⟩⟩

theorem Built.wgslEntry (built : Built p) {o : Options} {number : UInt32} {t u : Report}
    (bound : Wgsl.bindUniforms p number p.uniforms t = .ok bindings u) {stage : Stage}
    (inside : stage ∈ p.stages) {entry : Wgsl.EntryPoint}
    (ran : Wgsl.entryPoint p o stage r = .ok entry s) : Wgsl.Written p o bindings stage entry := by
  obtain ⟨kind, inputs, outputs, ⟨_, emitted⟩, stores, stored, quiet⟩ := wgslEntryOk ran
  have storeless (vertex : stage.kind = .vertex) : ¬ p.StoresUnder stage := fun under => by
    have found := (built.forest.storesIn stored).mpr ⟨stage, inside, rfl, under⟩
    rw [quiet vertex] at found
    cases found
  refine ⟨kind, inputs, outputs, ?_, storeless⟩
  refine built.confined inside (fun body laidOut v access makes => ?_)
    (fun _ _ => built.wgslAlike) emitted
  exact built.wgslPermitted bound
    (fun vertex id here store => storeless vertex ⟨body, laidOut, id, here, store⟩) makes

theorem Built.wgslModule (built : Built p) {o : Options} {m : Wgsl.Module}
    (ran : Wgsl.Module.ofProgram p o r = .ok m s) :
    (∃ t u, Wgsl.bindUniforms p 0 p.uniforms t = .ok m.bindings u) ∧
      List.Forall₂ (Wgsl.Written p o m.bindings) p.stages m.entryPoints := by
  obtain ⟨⟨_, _, bound⟩, each⟩ := wgslModuleOk ran
  exact ⟨⟨_, _, bound⟩, each.imp fun _ _ ⟨inside, _, _, made⟩ => built.wgslEntry bound inside made⟩

abbrev vertexStores : String := "storage texture writes in a vertex stage"

def Stop.Other (why : Stop) : Prop := why ≠ .refused (.unsupported vertexStores)

end

end ShaderGraph
