import ShaderGraph.Glsl.Shader
import ShaderGraph.Proofs.Compiling
import ShaderGraph.Proofs.Reading
import ShaderGraph.Wgsl.Module
/-! What a target declares. A compilation that ends well has declared each uniform, and the line
or binding it wrote says what the texture is for, as the accesses of the whole program have it. -/
namespace ShaderGraph

open Compile

section

variable {r s : Report} {version : GlslVersion} {o : Options} {name line : String}

theorem samplerLineOk {t : Sampler} (ran : Glsl.samplerLine version o name t r = .ok line s) :
    (version.isEs = true → t.dim ≠ .d1 ∧ t.dim ≠ .cubeArray) ∧ t ≠ ⟨.cubeArray, .depth⟩ ∧
      line = if version.isEs then s!"uniform {o.precision.qualifier} {Glsl.samplerName t} {name};"
        else s!"uniform {Glsl.samplerName t} {name};" := by
  unfold Glsl.samplerLine at ran
  split at ran
  · exact (unsupportedOk ran).elim
  · rename_i es
    split at ran
    · exact (unsupportedOk ran).elim
    · rename_i shadow
      refine ⟨fun isEs => ?_, shadow, ?_⟩
      · simpa [isEs] using es
      · split at ran
        · rename_i isEs
          rw [if_pos isEs, (pureOk.mp ran).1]
        · rename_i desktop
          rw [if_neg desktop, (pureOk.mp ran).1]

theorem imageLineOk {t : Storage} {usage : Usage}
    (ran : Glsl.imageLine version name t usage r = .ok line s) :
    ∃ format, Glsl.imageFormat? t.texelTy = some format ∧
      line = s!"layout({format}) uniform {Glsl.access usage}highp {Glsl.imageName t} {name};" := by
  unfold Glsl.imageLine at ran
  split at ran
  · exact (unsupportedOk ran).elim
  · cases made : Glsl.imageFormat? t.texelTy with
    | none =>
      rw [made] at ran
      exact (unsupportedOk ran).elim
    | some format =>
      rw [made] at ran
      dsimp only at ran
      split at ran
      · exact (unsupportedOk ran).elim
      · exact ⟨format, rfl, (pureOk.mp ran).1.symm⟩

theorem uniformLinesEach {p : Program} {vs : List VarId} {lines : List String}
    (ran : Glsl.uniformLines p version o vs r = .ok lines s) :
    List.Forall₂ (fun v line => ∃ var usage t u, p.vars.get? v = some var ∧
      p.storageUsage v = .ok usage ∧ Glsl.uniformLine version o var usage t = .ok line u) vs lines := by
  induction vs generalizing r s lines with
  | nil =>
    cases (pureOk.mp ran).1
    exact .nil
  | cons w rest ih =>
    simp only [Glsl.uniformLines, bindOk, liftOk, pureOk, Arena.fetchOk] at ran
    obtain ⟨var, _, ⟨at_, rfl⟩, usage, _, ⟨used, rfl⟩, line, _, written, others, _, more, rfl, -⟩ := ran
    exact .cons ⟨var, usage, _, _, at_, used, written⟩ (ih more)

theorem uniformLinesOk {p : Program} {vs : List VarId} {lines : List String}
    (ran : Glsl.uniformLines p version o vs r = .ok lines s) {v : VarId} (inside : v ∈ vs) :
    ∃ var usage line t u, p.vars.get? v = some var ∧ p.storageUsage v = .ok usage ∧
      Glsl.uniformLine version o var usage t = .ok line u ∧ line ∈ lines := by
  obtain ⟨line, there, var, usage, t, u, at_, used, written⟩ :=
    pairedSource (uniformLinesEach ran).flip inside
  exact ⟨var, usage, line, t, u, at_, used, written, there⟩

theorem formatSize {texel : Ty} {format : String} (made : Glsl.imageFormat? texel = some format) :
    texel.componentCount? ≠ some 3 := by
  intro three
  unfold Glsl.imageFormat? at made
  rw [three] at made
  cases made

end

inductive Wgsl.Bound (p : Program) (v : VarId) (var : Variable) : List Binding → Prop
  | sampler {t : Sampler} {number : UInt32} {kind : String} (ty : var.ty = .sampler t)
      (shadow : t ≠ ⟨.cubeArray, .depth⟩) : Bound p v var [⟨number, "", var.name, textureName t⟩,
        ⟨number + 1, "", s!"{var.name}_sampler", kind⟩]
  | storage {t : Storage} {usage : Usage} {number : UInt32} (ty : var.ty = .storage t)
      (used : p.storageUsage v = .ok usage) (texel : t.texelTy.componentCount? ≠ some 3)
      (single : usage.loads = true → usage.stores = true → t.texelTy.componentCount? = some 1) :
      Bound p v var [⟨number, "", var.name, storageName t (access usage)⟩]
  | value {number : UInt32} (plain : var.ty.isResource = false) :
      Bound p v var [⟨number, "<uniform>", var.name, typeName var.ty⟩]

inductive Wgsl.Takes (p : Program) (number : UInt32) (v : VarId) (var : Variable) :
    List Binding → Prop
  | sampler {t : Sampler} {kind : String} (ty : var.ty = .sampler t)
      (shadow : t ≠ ⟨.cubeArray, .depth⟩) (word : kind = "sampler" ∨ kind = "sampler_comparison") :
      Takes p number v var [⟨number, "", var.name, textureName t⟩,
        ⟨number + 1, "", s!"{var.name}_sampler", kind⟩]
  | storage {t : Storage} {usage : Usage} (ty : var.ty = .storage t)
      (used : p.storageUsage v = .ok usage) (texel : t.texelTy.componentCount? ≠ some 3)
      (single : usage.loads = true → usage.stores = true → t.texelTy.componentCount? = some 1) :
      Takes p number v var [⟨number, "", var.name, storageName t (access usage)⟩]
  | value (plain : var.ty.isResource = false) :
      Takes p number v var [⟨number, "<uniform>", var.name, typeName var.ty⟩]

inductive Wgsl.Numbered (p : Program) : UInt32 → List VarId → List (List Binding) → Prop
  | nil {number : UInt32} : Numbered p number [] []
  | cons {number : UInt32} {v : VarId} {var : Variable} {rest : List VarId} {own : List Binding}
      {groups : List (List Binding)} (at_ : p.vars.get? v = some var)
      (takes : Takes p number v var own)
      (later : Numbered p (number + .ofNat own.length) rest groups) :
      Numbered p number (v :: rest) (own :: groups)

section

variable {p : Program} {r s : Report} {number : UInt32} {name : String} {own : List Wgsl.Binding}

theorem samplerBindingsOk {t : Sampler} (ran : Wgsl.samplerBindings number name t r = .ok own s) :
    t ≠ ⟨.cubeArray, .depth⟩ ∧ ∃ kind, (kind = "sampler" ∨ kind = "sampler_comparison") ∧
      own = [⟨number, "", name, Wgsl.textureName t⟩, ⟨number + 1, "", s!"{name}_sampler", kind⟩] := by
  unfold Wgsl.samplerBindings at ran
  split at ran
  · exact (unsupportedOk ran).elim
  · rename_i shadow
    refine ⟨shadow, _, ?_, (pureOk.mp ran).1.symm⟩
    cases t.kind with
    | color => exact .inl rfl
    | depth => exact .inr rfl

theorem storageBindingOk {t : Storage} {usage : Usage}
    (ran : Wgsl.storageBinding number name t usage r = .ok own s) :
    t.texelTy.componentCount? ≠ some 3 ∧
      (usage.loads = true → usage.stores = true → t.texelTy.componentCount? = some 1) ∧
      own = [⟨number, "", name, Wgsl.storageName t (Wgsl.access usage)⟩] := by
  unfold Wgsl.storageBinding at ran
  split at ran
  · exact (unsupportedOk ran).elim
  · rename_i known
    split at ran
    · exact (unsupportedOk ran).elim
    · rename_i single
      refine ⟨fun three => known ?_, fun loads stores => ?_, (pureOk.mp ran).1.symm⟩
      · unfold Wgsl.texelFormat?
        rw [three]
        rfl
      · simpa [loads, stores] using single

theorem valueBindingOk {ty : Ty} (ran : Wgsl.valueBinding number name ty r = .ok own s) :
    own = [⟨number, "<uniform>", name, Wgsl.typeName ty⟩] := by
  unfold Wgsl.valueBinding at ran
  cases elem : ty.element?.map Prod.fst with
  | none =>
    rw [elem] at ran
    dsimp only at ran
    split at ran
    · exact (unsupportedOk ran).elim
    · exact (pureOk.mp ran).1.symm
  | some elem =>
    rw [elem] at ran
    dsimp only at ran
    split at ran
    · exact (unsupportedOk ran).elim
    · split at ran
      · exact (pureOk.mp ran).1.symm
      · exact (unsupportedOk ran).elim

theorem Wgsl.Takes.bound {v : VarId} {var : Variable} (takes : Wgsl.Takes p number v var own) :
    Wgsl.Bound p v var own := by
  cases takes with
  | sampler ty shadow => exact .sampler ty shadow
  | storage ty used texel single => exact .storage ty used texel single
  | value plain => exact .value plain

theorem uniformBindingsTake {v : VarId} (ran : Wgsl.uniformBindings p number v r = .ok own s) :
    ∃ var, p.vars.get? v = some var ∧ Wgsl.Takes p number v var own := by
  simp only [Wgsl.uniformBindings, bindOk, liftOk, Arena.fetchOk] at ran
  obtain ⟨var, _, ⟨at_, -⟩, ran⟩ := ran
  refine ⟨var, at_, ?_⟩
  cases ty : var.ty with
  | sampler t =>
    rw [ty] at ran
    obtain ⟨shadow, kind, word, rfl⟩ := samplerBindingsOk ran
    exact .sampler ty shadow word
  | storage t =>
    rw [ty] at ran
    simp only [bindOk, liftOk] at ran
    obtain ⟨usage, _, ⟨used, -⟩, ran⟩ := ran
    obtain ⟨texel, single, rfl⟩ := storageBindingOk ran
    exact .storage ty used texel single
  | _ =>
    rw [ty] at ran
    rw [valueBindingOk ran, ← ty]
    exact .value (by rw [ty]; rfl)

theorem bindUniformsNumbered {vs : List VarId} {bindings : List Wgsl.Binding}
    (ran : Wgsl.bindUniforms p number vs r = .ok bindings s) :
    ∃ groups, bindings = groups.flatten ∧ Wgsl.Numbered p number vs groups := by
  induction vs generalizing r s number bindings with
  | nil =>
    cases (pureOk.mp ran).1
    exact ⟨[], rfl, .nil⟩
  | cons v rest ih =>
    simp only [Wgsl.bindUniforms, bindOk, pureOk] at ran
    obtain ⟨own, _, made, others, _, more, rfl, -⟩ := ran
    obtain ⟨groups, rfl, each⟩ := ih more
    obtain ⟨var, at_, takes⟩ := uniformBindingsTake made
    exact ⟨own :: groups, rfl, .cons at_ takes each⟩

theorem Wgsl.Numbered.each {vs : List VarId} {groups : List (List Wgsl.Binding)}
    (numbered : Wgsl.Numbered p number vs groups) : List.Forall₂ (fun v own =>
      ∃ number var, p.vars.get? v = some var ∧ Wgsl.Takes p number v var own) vs groups := by
  induction numbered with
  | nil => exact .nil
  | cons at_ takes _ ih => exact .cons ⟨_, _, at_, takes⟩ ih

theorem bindUniformsOk {vs : List VarId} {bindings : List Wgsl.Binding}
    (ran : Wgsl.bindUniforms p number vs r = .ok bindings s) :
    ∃ groups, bindings = groups.flatten ∧ List.Forall₂ (fun v own =>
      ∃ var, p.vars.get? v = some var ∧ Wgsl.Bound p v var own) vs groups := by
  obtain ⟨groups, same, numbered⟩ := bindUniformsNumbered ran
  exact ⟨groups, same, numbered.each.imp fun _ _ ⟨_, var, at_, takes⟩ => ⟨var, at_, takes.bound⟩⟩

theorem boundAmong {vs : List VarId} {bindings : List Wgsl.Binding}
    (ran : Wgsl.bindUniforms p number vs r = .ok bindings s) {v : VarId} (inside : v ∈ vs)
    {var : Variable} (at_ : p.vars.get? v = some var) :
    ∃ own, own ⊆ bindings ∧ Wgsl.Bound p v var own := by
  obtain ⟨groups, rfl, each⟩ := bindUniformsOk ran
  obtain ⟨own, listed, _, there, bound⟩ := pairedSource each.flip inside
  cases at_.symm.trans there
  exact ⟨own, fun b inside => List.mem_flatten_of_mem listed inside, bound⟩

end

namespace Program

variable (p : Program)

def Loads (v : VarId) : Prop :=
  ∃ e node storage coord, p.exprs.get? e = some node ∧ node.op = .load storage coord ∧
    p.AtVar storage v

def Stores (v : VarId) : Prop :=
  ∃ s node storage coord value, p.stmts.get? s = some node ∧
    node.kind = .act (.store storage coord value) ∧ p.AtVar storage v

def StoresAt (s : StmtId) : Prop :=
  ∃ node storage coord value, p.stmts.get? s = some node ∧
    node.kind = .act (.store storage coord value)

def StoresUnder (stage : Stage) : Prop :=
  ∃ body, p.body stage.main = .ok body ∧ ∃ s ∈ body.preorder, p.StoresAt s

end Program

section

variable {p : Program}

theorem anyHas {α : Type} {f : α → Outcome Bool} {as : List α} {b : Bool} (made : as.anyM f = .ok b)
    {a : α} (inside : a ∈ as) (holds : f a = .ok true) : b = true := by
  induction as with
  | nil => cases inside
  | cons x rest ih =>
    simp only [List.anyM, Outcome.bindOk] at made
    obtain ⟨here, first, made⟩ := made
    cases here with
    | true => exact (Except.ok.inj made).symm
    | false =>
      rcases List.mem_cons.mp inside with rfl | later
      · cases first.symm.trans holds
      · exact ih made later

theorem anySome {α : Type} {f : α → Outcome Bool} {as : List α} (made : as.anyM f = .ok true) :
    ∃ a ∈ as, f a = .ok true := by
  induction as with
  | nil => cases made
  | cons x rest ih =>
    simp only [List.anyM, Outcome.bindOk] at made
    obtain ⟨here, first, made⟩ := made
    cases here with
    | true => exact ⟨x, List.mem_cons_self, first⟩
    | false =>
      obtain ⟨a, inside, holds⟩ := ih made
      exact ⟨a, List.mem_cons_of_mem _ inside, holds⟩

theorem isReadTrue {e : ExprId} {v : VarId} (read : p.AtVar e v) : p.isRead v e = .ok true := by
  obtain ⟨node, at_, op⟩ := read
  simp only [Program.isRead, Arena.fetchOfGet at_, op, Bind.bind, Except.bind]
  exact congrArg Except.ok (beq_self_eq_true _)

theorem usageLoads {v : VarId} {usage : Usage} (used : p.storageUsage v = .ok usage)
    (loads : p.Loads v) : usage.loads = true := by
  obtain ⟨e, node, storage, coord, at_, op, read⟩ := loads
  simp only [Program.storageUsage, Outcome.bindOk, Outcome.pureOk] at used
  obtain ⟨found, loaded, stores, -, rfl⟩ := used
  refine anyHas loaded (Arena.memNodes.mpr ⟨_, at_⟩) ?_
  simp only [Program.loadsFrom, op]
  exact isReadTrue read

theorem usageStores {v : VarId} {usage : Usage} (used : p.storageUsage v = .ok usage)
    (stores : p.Stores v) : usage.stores = true := by
  obtain ⟨s, node, storage, coord, value, at_, kind, read⟩ := stores
  simp only [Program.storageUsage, Outcome.bindOk, Outcome.pureOk] at used
  obtain ⟨loads, -, found, stored, rfl⟩ := used
  refine anyHas stored (Arena.memNodes.mpr ⟨_, at_⟩) ?_
  simp only [Program.storesTo, kind]
  exact isReadTrue read

end

end ShaderGraph
