import ShaderGraph.Proofs.Textures
/-! What a storage texture is reported to be used for. Stores are counted by statements, but loads
by the nodes that were ever built, so that a load that no statement reads is reported too. Then a
texture that is only written is declared as read and written, or refused where a target has no
such texture. -/
namespace ShaderGraph

open Compile Relation

namespace Program

variable (p : Program)

def LoadsAt (e : ExprId) (v : VarId) : Prop :=
  ∃ node storage coord, p.exprs.get? e = some node ∧ node.op = .load storage coord ∧
    p.AtVar storage v

def ReadsIn (s : StmtId) (e : ExprId) : Prop :=
  ∃ node used, p.stmts.get? s = some node ∧ p.Uses node.kind used ∧ ReflTransGen p.Follows used e

def LoadsIn (s : StmtId) (v : VarId) : Prop := ∃ e, p.ReadsIn s e ∧ p.LoadsAt e v

def Kept (v : VarId) : Prop := ∀ e, p.LoadsAt e v → ∃ s, p.ReadsIn s e

def Wide (v : VarId) (usage : Usage) : Prop :=
  ∃ t, p.Uniform v (.storage t) ∧ t.texelTy.componentCount? ≠ some 1 ∧ p.storageUsage v = .ok usage

end Program

def Stop.Begins (pre : String) (why : Stop) : Prop :=
  ∃ rest, why = .refused (.unsupported (pre ++ rest))

section

variable {p q : Program} {v : VarId}

theorem isReadIff {e : ExprId} : p.isRead v e = .ok true ↔ p.AtVar e v := by
  refine ⟨fun read => ?_, isReadTrue⟩
  simp only [Program.isRead, Outcome.bindOk, Outcome.pureOk, Arena.fetchOk, beq_iff_eq] at read
  exact read

theorem usageExact {usage : Usage} (used : p.storageUsage v = .ok usage) :
    (usage.loads = true ↔ ∃ e, p.LoadsAt e v) ∧ (usage.stores = true ↔ p.Stores v) := by
  refine ⟨⟨fun loads => ?_, usageLoads used⟩, fun stores => ?_, usageStores used⟩
  · simp only [Program.storageUsage, Outcome.bindOk, Outcome.pureOk] at used
    obtain ⟨_, loaded, _, -, rfl⟩ := used
    simp only at loads
    subst loads
    obtain ⟨node, inside, read⟩ := anySome loaded
    obtain ⟨e, at_⟩ := Arena.memNodes.mp inside
    unfold Program.loadsFrom at read
    split at read
    · rename_i storage coord op
      exact ⟨e, node, storage, coord, at_, op, isReadIff.mp read⟩
    · cases read
  · simp only [Program.storageUsage, Outcome.bindOk, Outcome.pureOk] at used
    obtain ⟨_, -, _, stored, rfl⟩ := used
    simp only at stores
    subst stores
    obtain ⟨node, inside, read⟩ := anySome stored
    obtain ⟨s, at_⟩ := Arena.memNodes.mp inside
    unfold Program.storesTo at read
    split at read
    · rename_i storage coord value kind
      exact ⟨s, node, storage, coord, value, at_, kind, isReadIff.mp read⟩
    · cases read

theorem Program.AtVar.mono (grows : Grows p q) {e : ExprId} (read : p.AtVar e v) : q.AtVar e v := by
  obtain ⟨node, at_, op⟩ := read
  obtain ⟨_, there, rfl⟩ := grows.exprs at_
  exact ⟨node, there, op⟩

theorem Program.LoadsAt.mono (grows : Grows p q) {e : ExprId} (loads : p.LoadsAt e v) :
    q.LoadsAt e v := by
  obtain ⟨node, storage, coord, at_, op, read⟩ := loads
  obtain ⟨_, there, rfl⟩ := grows.exprs at_
  exact ⟨node, storage, coord, there, op, read.mono grows⟩

theorem Program.Stores.mono (grows : Grows p q) (stores : p.Stores v) : q.Stores v := by
  obtain ⟨s, node, storage, coord, value, at_, kind, read⟩ := stores
  obtain ⟨_, there, reads, rfl⟩ := grows.stmts at_
  exact ⟨s, _, storage, coord, value, there, kind, read.mono grows⟩

theorem failureBegins {pre : String} (e : Failure) : ¬ (Stop.ofFailure e).Begins pre := by
  rintro ⟨rest, same⟩
  cases e <;> cases same

theorem apartBegins {pre first rest : String} (apart : first.toList.head? ≠ pre.toList.head?)
    (filled : pre.toList ≠ [] ∧ first.toList ≠ []) :
    ¬ (Stop.refused (.unsupported (first ++ rest))).Begins pre := by
  rintro ⟨other, same⟩
  have texts := congrArg (fun text : String => text.toList.head?)
    (Refusal.unsupported.inj (Stop.refused.inj same))
  simp only [String.toList_append, List.head?_append_of_ne_nil _ filled.1,
    List.head?_append_of_ne_nil _ filled.2] at texts
  exact apart texts

section

variable {α β : Type} {pre : String} {P : Stop → Prop}

abbrev BlamedOn (pre : String) (P : Stop → Prop) (x : Compile α) : Prop :=
  StopsFor (fun why => why.Begins pre → P why) x

theorem liftBlamed {x : Outcome α} {f : α → Compile β}
    (second : ∀ a, x = .ok a → BlamedOn pre P (f a)) : BlamedOn pre P (liftM x >>= f) :=
  StopsFor.lift (fun e _ begins => absurd begins (failureBegins e)) second

theorem apartBlamed {first rest : String} (apart : first.toList.head? ≠ pre.toList.head?)
    (filled : pre.toList ≠ [] ∧ first.toList ≠ []) :
    BlamedOn pre P (Compile.unsupported (first ++ rest) : Compile α) :=
  .refuse fun begins => absurd begins (apartBegins apart filled)

theorem wordBlamed {what : String} (apart : what.toList.head? ≠ pre.toList.head?)
    (filled : pre.toList ≠ [] ∧ what.toList ≠ []) :
    BlamedOn pre P (Compile.unsupported what : Compile α) := by
  have blamed : BlamedOn pre P (Compile.unsupported (what ++ "") : Compile α) :=
    apartBlamed apart filled
  rwa [String.append_empty] at blamed

theorem causeBlamed (what : String) (cause : P (.refused (.unsupported what))) :
    BlamedOn pre P (Compile.unsupported what : Compile α) := .refuse fun _ => cause

theorem walkBlamed (x : Emit α) : BlamedOn pre P (Compile.walk x) :=
  StopsFor.walk fun e _ _ begins => absurd begins (failureBegins e)

end

structure Program.Image (p : Program) (v : VarId) (name : String) (t : Storage) (usage : Usage) :
    Prop where
  texture : p.Uniform v (.storage t)
  named : (p.vars.get? v).map Variable.name = some name
  used : p.storageUsage v = .ok usage

theorem Built.image (built : Built p) {var : Variable} {t : Storage} {usage : Usage}
    (at_ : p.vars.get? v = some var) (ty : var.ty = .storage t) (used : p.storageUsage v = .ok usage) :
    p.Image v var.name t usage :=
  ⟨ty ▸ built.resourceVar at_ (ty ▸ rfl), congrArg (Option.map Variable.name) at_, used⟩

def Program.Mixed (p : Program) : Prop :=
  ∃ v usage, p.Wide v usage ∧ usage.loads = true ∧ usage.stores = true

def Program.MixedSo (p : Program) (why : Stop) : Prop := ∃ v name t usage, p.Image v name t usage ∧
  (Wgsl.texelFormat? t.texelTy).isSome = true ∧ t.texelTy.componentCount? ≠ some 1 ∧
  usage.loads = true ∧ usage.stores = true ∧
  why = .refused (.unsupported s!"read_write storage texture of {t.texelTy.name} ({name})")

theorem Program.MixedSo.mixed {why : Stop} (so : p.MixedSo why) : p.Mixed := by
  obtain ⟨v, _, t, usage, image, -, wide, loads, stores, -⟩ := so
  exact ⟨v, usage, ⟨t, image.texture, wide, image.used⟩, loads, stores⟩

theorem Built.bindingBlamed (built : Built p) (number : UInt32) :
    BlamedOn "read_write storage texture of " p.MixedSo (Wgsl.uniformBindings p number v) := by
  refine liftBlamed fun var at_ => ?_
  split
  · refine .ite (fun _ => ?_) fun _ => .pure _
    rw [String.append_assoc]
    exact apartBlamed (by decide) (by decide)
  · rename_i t ty
    refine liftBlamed fun usage used =>
      .ite (fun _ => ?_) fun known => .ite (fun mixed => causeBlamed _ ?_) fun _ => .pure _
    · rw [String.append_assoc, String.append_assoc, String.append_assoc]
      exact apartBlamed (by decide) (by decide)
    · simp only [Bool.and_eq_true, decide_eq_true_eq] at mixed
      obtain ⟨⟨loads, stores⟩, wide⟩ := mixed
      exact ⟨v, _, t, usage, built.image (Arena.fetchOk.mp at_) ty used,
        by simpa [Option.isSome_iff_ne_none] using known, wide, loads, stores, rfl⟩
  · refine .ite (fun _ => apartBlamed (by decide) (by decide)) fun _ => ?_
    split
    · refine .ite (fun _ => .pure _) fun _ => ?_
      rw [String.append_assoc, String.append_assoc]
      exact apartBlamed (by decide) (by decide)
    · exact .pure _

theorem Built.bindingsBlamed (built : Built p) (vs : List VarId) (number : UInt32) :
    BlamedOn "read_write storage texture of " p.MixedSo (Wgsl.bindUniforms p number vs) := by
  induction vs generalizing number with
  | nil => exact .pure _
  | cons v rest ih =>
    exact .bind (built.bindingBlamed number) fun _ => .bind (ih _) fun _ => .pure _

theorem membersBlamed {P : Stop → Prop} (stage : Stage) (output : Bool) :
    BlamedOn "read_write storage texture of " P (Wgsl.members p stage output) :=
  .ite (fun _ => wordBlamed (by decide) (by decide)) fun _ =>
    liftBlamed fun _ _ => liftBlamed fun _ _ => .pure _

theorem entryBlamed {P : Stop → Prop} (o : Options) (stage : Stage) :
    BlamedOn "read_write storage texture of " P (Wgsl.entryPoint p o stage) := by
  refine liftBlamed fun positioned _ => liftBlamed fun stores _ => ?_
  have rest : BlamedOn "read_write storage texture of " P
      (Wgsl.settled p o stage positioned stores) :=
    .ite (fun _ => wordBlamed (by decide) (by decide)) fun _ =>
      .bind (membersBlamed stage false) fun _ => .bind (membersBlamed stage true) fun _ =>
        .bind (walkBlamed _) fun _ => .bind (.modify _) fun _ => .pure _
  exact .ite (fun _ => .bind (.modify _) fun _ => rest) fun _ => rest

theorem noStagesBlamed {α : Type} {pre : String} {P : Stop → Prop} :
    BlamedOn pre P (Compile.refuse (.other "program has no stages") : Compile α) :=
  .refuse fun begins => by
    obtain ⟨rest, same⟩ := begins
    cases same

theorem Built.wgslTold (built : Built p) (o : Options) :
    BlamedOn "read_write storage texture of " p.MixedSo (Wgsl.files p o) := by
  refine .bind (.ite (fun _ => noStagesBlamed) fun _ => ?_) fun _ => .pure _
  exact .bind (built.bindingsBlamed _ _) fun _ => .bind (.mapM fun stage _ => entryBlamed o stage)
    fun _ => .pure _

theorem Built.wgslBlamed (built : Built p) (o : Options) :
    BlamedOn "read_write storage texture of " (fun _ => p.Mixed) (Wgsl.files p o) :=
  fun r why s stopped begins => (built.wgslTold o r why s stopped begins).mixed

def Program.Undirected (p : Program) : Prop :=
  ∃ v usage, p.Wide v usage ∧ usage.loads = usage.stores

def Program.UndirectedSo (p : Program) (why : Stop) : Prop := ∃ v name t usage format,
  p.Image v name t usage ∧ Glsl.imageFormat? t.texelTy = some format ∧
  t.texelTy.componentCount? ≠ some 1 ∧ usage.loads = usage.stores ∧
  why = .refused (.unsupported s!"read-write {format} image in GLSL ES ({name})")

theorem Program.UndirectedSo.undirected {why : Stop} (so : p.UndirectedSo why) : p.Undirected := by
  obtain ⟨v, _, t, usage, _, image, -, wide, same, -⟩ := so
  exact ⟨v, usage, ⟨t, image.texture, wide, image.used⟩, same⟩

theorem samplerBlamed {P : Stop → Prop} {version : GlslVersion} {o : Options} {name : String}
    (s : Sampler) : BlamedOn "read-write " P (Glsl.samplerLine version o name s) := by
  refine .ite (fun _ => ?_) fun _ => .ite (fun _ => ?_) fun _ =>
    .ite (fun _ => .pure _) fun _ => .pure _
  · obtain ⟨dim, kind⟩ := s
    rw [String.append_assoc, String.append_assoc]
    cases dim <;> cases kind <;> exact apartBlamed (by decide) (by decide)
  · rw [String.append_assoc]
    exact apartBlamed (by decide) (by decide)

theorem accessEmpty {usage : Usage} :
    (Glsl.access usage).isEmpty = true ↔ usage.loads = usage.stores := by
  unfold Glsl.access
  cases usage.loads <;> cases usage.stores <;> simp

theorem Program.Image.blamed {version : GlslVersion} {name : String} {t : Storage} {usage : Usage}
    (image : p.Image v name t usage) :
    BlamedOn "read-write " p.UndirectedSo (Glsl.imageLine version name t usage) := by
  refine .ite (fun _ => ?_) fun _ => ?_
  · rw [String.append_assoc]
    exact apartBlamed (by decide) (by decide)
  · split
    · exact apartBlamed (by decide) (by decide)
    · rename_i format known
      refine .ite (fun mixed => causeBlamed _ ?_) fun _ => .pure _
      simp only [Bool.and_eq_true, decide_eq_true_eq] at mixed
      obtain ⟨⟨-, unsaid⟩, wide⟩ := mixed
      exact ⟨v, name, t, usage, format, image, known, wide, accessEmpty.mp unsaid, rfl⟩

theorem Built.linesBlamed (built : Built p) (version : GlslVersion) (o : Options)
    (vs : List VarId) : BlamedOn "read-write " p.UndirectedSo (Glsl.uniformLines p version o vs) := by
  induction vs with
  | nil => exact .pure _
  | cons v rest ih =>
    refine liftBlamed fun var at_ => liftBlamed fun usage used =>
      .bind ?_ fun _ => .bind ih fun _ => .pure _
    unfold Glsl.uniformLine
    split
    · exact samplerBlamed _
    · rename_i t ty
      exact (built.image (Arena.fetchOk.mp at_) ty used).blamed
    · exact .pure _
    · exact .pure _

theorem workgroupBlamed {P : Stop → Prop} (version : GlslVersion) (w : Option Workgroup) :
    BlamedOn "read-write " P (Glsl.workgroupLines version w) := by
  cases w with
  | none => exact .pure _
  | some w => exact .ite (fun _ => .pure _) fun _ => apartBlamed (by decide) (by decide)

theorem Built.glslTold (built : Built p) (flavor : Glsl.Flavor) (o : Options) :
    BlamedOn "read-write " p.UndirectedSo (Glsl.files flavor p o) := by
  have version : BlamedOn "read-write " p.UndirectedSo (Glsl.chooseVersion flavor o.version) :=
    .ite (fun _ => .pure _) fun _ => .bind (.modify _) fun _ => .pure _
  refine .ite (fun _ => noStagesBlamed) fun _ => .bind version fun version =>
    .mapM fun stage _ => ?_
  have shader : BlamedOn "read-write " p.UndirectedSo (Glsl.shader p version o stage) :=
    .bind (workgroupBlamed _ _) fun _ => .bind (built.linesBlamed _ _ _) fun _ =>
      liftBlamed fun _ _ => liftBlamed fun _ _ => .bind (walkBlamed _) fun _ => .pure _
  have rest : BlamedOn "read-write " p.UndirectedSo (Glsl.settled p version o stage) :=
    .bind shader fun _ => .bind (.modify _) fun _ => .pure _
  exact liftBlamed fun _ _ => .ite (fun _ => .bind (.modify _) fun _ => rest) fun _ => rest

theorem Built.glslBlamed (built : Built p) (flavor : Glsl.Flavor) (o : Options) :
    BlamedOn "read-write " (fun _ => p.Undirected) (Glsl.files flavor p o) :=
  fun r why s stopped begins => (built.glslTold flavor o r why s stopped begins).undirected

theorem mixedRefused (built : Built p) {o : Options} {files : List OutputFile} {r s : Report}
    (ran : Wgsl.files p o r = .ok files s) : ¬ p.Mixed := by
  rintro ⟨v, usage, ⟨t, ⟨inside, var, at_, -, ty⟩, wide, used⟩, loads, stores⟩
  obtain ⟨m, _, made, -⟩ := bindOk.mp ran
  obtain ⟨⟨_, _, bound⟩, -⟩ := built.wgslModule made
  obtain ⟨own, -, made⟩ := boundAmong bound inside at_
  cases made with
  | storage again known _ single =>
    cases ty.symm.trans again
    cases used.symm.trans known
    exact wide (single loads stores)
  | sampler again => cases ty.symm.trans again
  | value plain =>
    rw [ty] at plain
    cases plain

theorem undirectedRefused (built : Built p) {o : Options} {files : List OutputFile} {r s : Report}
    (ran : Glsl.files .es p o r = .ok files s) : ¬ p.Undirected := by
  rintro ⟨v, usage, ⟨t, ⟨inside, var, at_, -, ty⟩, wide, used⟩, same⟩
  obtain ⟨stage, rest, stages⟩ : ∃ stage rest, p.stages = stage :: rest := by
    refine List.exists_cons_of_ne_nil fun none => ?_
    simp only [Glsl.files, none, List.isEmpty_nil, if_true] at ran
    cases ran
  obtain ⟨version, es, each⟩ := built.glslFiles ran
  rw [stages] at each
  cases each with
  | cons written =>
    obtain ⟨lines, body, written⟩ := written
    obtain ⟨_, _, declared⟩ := written.declared
    obtain ⟨_, _, line, _, _, there, again, made, -⟩ := uniformLinesOk declared inside
    cases at_.symm.trans there
    cases used.symm.trans again
    simp only [Glsl.uniformLine, ty] at made
    obtain ⟨format, known, -⟩ := imageLineOk made
    have isEs : version.isEs = true := es
    unfold Glsl.imageLine at made
    simp only [known, accessEmpty.mpr same, isEs, wide, ne_eq, not_false_eq_true, decide_true,
      Bool.and_self, if_true] at made
    split at made <;> exact unsupportedOk made

theorem storageReported (reachable : Reachable p) :
    (∀ v t, p.Uniform v (.storage t) → ∃ usage, p.storageUsage v = .ok usage ∧
      (usage.loads = true ↔ ∃ e, p.LoadsAt e v) ∧ (usage.stores = true ↔ p.Stores v) ∧
      ((∃ s, p.LoadsIn s v) → usage.loads = true) ∧
      (p.Kept v → usage.loads = true → ∃ s, p.LoadsIn s v) ∧
      ∀ call q, Step p call q → ∃ later, q.storageUsage v = .ok later ∧
        (usage.loads = true → later.loads = true) ∧ (usage.stores = true → later.stores = true)) ∧
    ∀ f : Frozen, f.program = p → ∀ o : Options,
      (p.Mixed → ∀ out, (Wgsl.backend.compile f o).result ≠ .ok out) ∧
      (∀ rest, (Wgsl.backend.compile f o).result =
        .error (.refused (.unsupported ("read_write storage texture of " ++ rest))) → p.Mixed) ∧
      (p.Undirected → ∀ out, ((Glsl.backend .es).compile f o).result ≠ .ok out) ∧
      ∀ flavor rest, ((Glsl.backend flavor).compile f o).result =
        .error (.refused (.unsupported ("read-write " ++ rest))) → p.Undirected := by
  have built := reachableBuilt reachable
  refine ⟨fun v t _ => ?_, ?_⟩
  · obtain ⟨usage, used⟩ := built.usageOk v
    obtain ⟨loads, stores⟩ := usageExact used
    refine ⟨usage, used, loads, stores, fun ⟨_, e, _, at_⟩ => loads.mpr ⟨e, at_⟩,
      fun kept reported => ?_, fun call q step => ?_⟩
    · obtain ⟨e, at_⟩ := loads.mp reported
      obtain ⟨s, read⟩ := kept e at_
      exact ⟨s, e, read, at_⟩
    · have grows := (stepEdits step).grows
      obtain ⟨later, usedLater⟩ := (built.edits (stepEdits step)).usageOk v
      obtain ⟨loadsLater, storesLater⟩ := usageExact usedLater
      refine ⟨later, usedLater, fun reported => ?_, fun reported => ?_⟩
      · obtain ⟨e, at_⟩ := loads.mp reported
        exact loadsLater.mpr ⟨e, at_.mono grows⟩
      · exact storesLater.mpr ((stores.mp reported).mono grows)
  · rintro f rfl o
    refine ⟨fun mixed out compiled => ?_, fun rest refused => ?_, fun undirected out compiled => ?_,
      fun flavor rest refused => ?_⟩
    · obtain ⟨_, ran⟩ := compiledOk compiled
      exact mixedRefused built ran mixed
    · obtain ⟨_, stopped⟩ := compiledError refused
      exact built.wgslBlamed o _ _ _ stopped ⟨rest, rfl⟩
    · obtain ⟨_, ran⟩ := compiledOk compiled
      exact undirectedRefused built ran undirected
    · obtain ⟨_, stopped⟩ := compiledError refused
      cases flavor with
      | desktop => exact built.glslBlamed .desktop o _ _ _ stopped ⟨rest, rfl⟩
      | es => exact built.glslBlamed .es o _ _ _ stopped ⟨rest, rfl⟩

def droppedRun : List Call :=
  [.addCompute ⟨1, 1, 1⟩, .uniform "image" (.storage ⟨.d2, .vector .four .float⟩), .read ⟨0⟩,
    .literal (.int 0), .compose .int2 [⟨1⟩, ⟨1⟩], .literal (.float ⟨0⟩),
    .compose .float4 [⟨3⟩, ⟨3⟩, ⟨3⟩, ⟨3⟩], .load ⟨0⟩ ⟨2⟩, .store ⟨0⟩ ⟨0⟩ ⟨2⟩ ⟨4⟩]

theorem droppedRuns : ∃ p, Program.after { name := "p" } droppedRun = some p ∧ p.check = .ok [] ∧
    p.storageUsage ⟨0⟩ = .ok ⟨true, true⟩ ∧ p.slots.size = 0 ∧
    (p.vars.get? ⟨0⟩).map Variable.ty = some (.storage ⟨.d2, .vector .four .float⟩) ∧
    (p.exprs.nodes.toList.map fun node => node.op matches .load ..) =
      [false, false, false, false, false, true] ∧
    p.stmts.nodes.toList.map Statement.kind = [.act (.store ⟨0⟩ ⟨2⟩ ⟨4⟩)] :=
  ⟨_, rfl, rfl, rfl, rfl, rfl, rfl, rfl⟩

theorem droppedStopped : (Program.after { name := "p" } droppedRun).map (fun p =>
    (Wgsl.backend.stop? p {}, (Glsl.backend .es).stop? p { version := .es310 })) =
    some (some (.refused (.unsupported "read_write storage texture of float4 (image)")),
      some (.refused (.unsupported "read-write rgba32f image in GLSL ES (image)"))) := by
  decide +kernel

theorem Built.droppedTexture (built : Built p)
    (ty : (p.vars.get? v).map Variable.ty = some (.storage ⟨.d2, .vector .four .float⟩)) :
    p.Uniform v (.storage ⟨.d2, .vector .four .float⟩) := by
  obtain ⟨var, at_, same⟩ := Option.map_eq_some_iff.mp ty
  exact same ▸ built.resourceVar at_ (same ▸ rfl)

theorem storageReportedDropped : ∃ (p : Program) (f : Frozen),
    Program.after { name := "p" } droppedRun = some p ∧ f.program = p ∧ (∃ e, p.LoadsAt e ⟨0⟩) ∧
    p.Stores ⟨0⟩ ∧ ∀ o out, (Wgsl.backend.compile f o).result ≠ .ok out := by
  obtain ⟨p, ran, passed, used, -, ty, -⟩ := droppedRuns
  have reachable := (Reachable.new "p").after ran
  have texture := (reachableBuilt reachable).droppedTexture ty
  obtain ⟨reported, compiled⟩ := storageReported reachable
  obtain ⟨usage, again, loads, stores, -⟩ := reported _ _ texture
  cases used.symm.trans again
  let f : Frozen := ⟨p, _, passed⟩
  have mixed : p.Mixed := ⟨⟨0⟩, _, ⟨_, texture, by decide, used⟩, rfl, rfl⟩
  exact ⟨p, f, ran, rfl, loads.mp rfl, stores.mp rfl, fun o => (compiled f rfl o).1 mixed⟩

theorem loadAmong {flags : List Bool} {e : ExprId}
    (marked : (p.exprs.nodes.toList.map fun node => node.op matches .load ..) = flags)
    (loads : p.LoadsAt e v) : flags[e.index]? = some true := by
  obtain ⟨node, storage, coord, at_, op, -⟩ := loads
  have there : p.exprs.nodes.toList[e.index]? = some node := by
    rw [Array.getElem?_toList]
    exact at_
  rw [← marked, List.getElem?_map, there, Option.map_some, op]

theorem droppedLoadReported : ∃ (p : Program) (f : Frozen) (v : VarId) (t : Storage)
    (usage : Usage), Reachable p ∧ f.program = p ∧ p.Uniform v (.storage t) ∧
    p.storageUsage v = .ok usage ∧ usage.loads = true ∧ (∀ s, ¬ p.LoadsIn s v) ∧
    (Wgsl.backend.compile f {}).result =
      .error (.refused (.unsupported "read_write storage texture of float4 (image)")) ∧
    ((Glsl.backend .es).compile f { version := .es310 }).result =
      .error (.refused (.unsupported "read-write rgba32f image in GLSL ES (image)")) := by
  obtain ⟨p, ran, passed, used, slotless, ty, marked, kinds⟩ := droppedRuns
  have stopped := droppedStopped
  rw [ran] at stopped
  simp only [Option.map_some, Option.some.injEq, Prod.mk.injEq] at stopped
  obtain ⟨wgsl, es⟩ := stopped
  have reachable := (Reachable.new "p").after ran
  have built := reachableBuilt reachable
  refine ⟨p, ⟨p, _, passed⟩, ⟨0⟩, _, _, reachable, rfl, built.droppedTexture ty, used, rfl,
    fun s reads => ?_, compileStops wgsl, compileStops es⟩
  obtain ⟨e, ⟨node, first, stmtAt, uses, follows⟩, loads⟩ := reads
  have kind : node.kind = .act (.store ⟨0⟩ ⟨2⟩ ⟨4⟩) := by
    have inside := List.mem_map_of_mem (f := Statement.kind) (Arena.memNodes.mpr ⟨s, stmtAt⟩)
    rw [kinds] at inside
    exact List.mem_singleton.mp inside
  -- the statement reads older nodes than the load, and there is no slot to lead to it
  have older : e.index ≤ 4 := by
    clear loads
    induction follows with
    | refl =>
      rw [kind] at uses
      cases uses <;> decide
    | tail _ step ih =>
      cases step with
      | operand step =>
        have less := (built.operand step).1
        omega
      | bound reader bound =>
        have stands := (built.bound bound).1
        omega
  have flag := loadAmong marked loads
  have among : e.index = 0 ∨ e.index = 1 ∨ e.index = 2 ∨ e.index = 3 ∨ e.index = 4 := by omega
  rcases among with i | i | i | i | i <;> rw [i] at flag <;> cases flag

end

end ShaderGraph
