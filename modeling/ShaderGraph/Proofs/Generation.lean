import ShaderGraph.Glsl.Shader
import ShaderGraph.Proofs.Checking
import ShaderGraph.Proofs.Compiling
import ShaderGraph.Proofs.Rendering
import ShaderGraph.Wgsl.Module
/-! Checking a program is enough to write it out. Where every slot is bound and none reaches
itself, each form of each statement renders, so the walk through a body ends well from any state
of the walk, and what is left for a target to refuse is what it cannot express. -/
namespace ShaderGraph

def Flows {α : Type} (x : Emit α) : Prop := ∀ w, ∃ a v, x w = .ok a v

namespace Flows

variable {α β : Type}

theorem pure (a : α) : Flows (Pure.pure a : Emit α) := fun w => ⟨a, w, rfl⟩

theorem bind {x : Emit α} {f : α → Emit β} (first : Flows x) (second : ∀ a, Flows (f a)) :
    Flows (x >>= f) := by
  intro w
  obtain ⟨a, v, ran⟩ := first w
  obtain ⟨b, u, later⟩ := second a v
  refine ⟨b, u, ?_⟩
  change EStateM.bind x f w = _
  rw [EStateM.bind, ran]
  exact later

theorem lift {x : Outcome α} {f : α → Emit β} {a : α} (made : x = .ok a) (second : Flows (f a)) :
    Flows (liftM x >>= f) := by
  subst made
  exact second

theorem modify (f : Walk → Walk) : Flows (modify f : Emit Unit) := fun w => ⟨(), f w, rfl⟩

theorem get : Flows (MonadState.get : Emit Walk) := fun w => ⟨w, w, rfl⟩

end Flows

section

variable {p : Program} {d : Dialect}

theorem fetchStamped {set : Stamps} (stamped : p.Stamped set) {s : Stamp} (inside : s ∈ set.toList) :
    ∃ var, p.vars.fetch s.var = .ok var := by
  obtain ⟨var, at_⟩ := Arena.atBelow (stamped s inside)
  exact ⟨var, Arena.fetchOfGet at_⟩

theorem stampsTextOk {set : Stamps} (stamped : p.Stamped set) :
    ∃ text, p.stampsText set = .ok text := by
  have each : ∀ s ∈ set.toList, ∃ text, p.stampText s = .ok text := by
    intro s inside
    obtain ⟨var, read⟩ := fetchStamped stamped inside
    exact ⟨_, by simp only [Program.stampText, read, Bind.bind, Except.bind]; rfl⟩
  obtain ⟨texts, made⟩ := Outcome.mapMTotal each
  exact ⟨_, by simp only [Program.stampsText, made, Bind.bind, Except.bind]; rfl⟩

theorem remarkOk {annotate : Bool} {reads : Stamps} (stamped : p.Stamped reads) :
    ∃ lines, Emit.readsRemark p annotate reads = .ok lines := by
  obtain ⟨text, made⟩ := stampsTextOk stamped
  unfold Emit.readsRemark
  split
  · exact ⟨_, by simp only [made, Bind.bind, Except.bind]; rfl⟩
  · exact ⟨[], rfl⟩

theorem reportFlows {stage : StageKind} {block : Block} {stamps : List Stamp}
    (stand : ∀ s ∈ stamps, ∃ var, p.vars.fetch s.var = .ok var) :
    Flows (Emit.reportAll p stage block stamps) := by
  induction stamps with
  | nil => exact .pure ()
  | cons s rest ih =>
    obtain ⟨var, read⟩ := stand s List.mem_cons_self
    have later := ih fun t inside => stand t (List.mem_cons_of_mem _ inside)
    exact .lift read (.bind .get fun w => .bind (.modify _) fun _ => later)

def Dialect.Assigns (d : Dialect) (p : Program) : Prop :=
  ∀ target value, Proper p (.act (.assign target value)) → ∃ lines, d.assign p target value = .ok lines

theorem Built.actionOk (built : Built p) (filled : p.Filled) (acyclic : p.Acyclic)
    (assigns : d.Assigns p) {action : Action} (proper : Proper p (.act action)) :
    ∃ lines, Emit.actionLines p d action = .ok lines := by
  have render : ∀ {e t}, p.HasTy e t → ∃ text, p.render d.spelling e = .ok text :=
    fun typed => built.renderOk filled acyclic typed.below
  cases proper with
  | @declare v var init at_ typed =>
    have read : p.vars.fetch v = .ok var := Arena.fetchOfGet at_
    cases init with
    | none => exact ⟨_, by simp only [Emit.actionLines, read]; rfl⟩
    | some e =>
      obtain ⟨text, made⟩ := render (typed e rfl)
      exact ⟨_, by simp only [Emit.actionLines, Option.mapM_some, made, read]; rfl⟩
  | assign target value rooted => exact assigns _ _ (.assign target value rooted)
  | store texture place texel =>
    obtain ⟨s, storage⟩ := render texture
    obtain ⟨c, coord⟩ := render place
    obtain ⟨v, value⟩ := render texel
    exact ⟨_, by
      simp only [Emit.actionLines, storageTyOk texture, storage, coord, value, Bind.bind, Except.bind]
      rfl⟩

theorem Built.bodyFlows (built : Built p) (filled : p.Filled) (acyclic : p.Acyclic)
    (assigns : d.Assigns p) {annotate : Bool} {l : List StmtId} {body : Body} (laid : Laid p l body) :
    ∀ stage, Flows (Emit.body p d annotate stage body) := by
  have render : ∀ {e t}, p.HasTy e t → ∃ text, p.render d.spelling e = .ok text :=
    fun typed => built.renderOk filled acyclic typed.below
  have remark : ∀ {s node}, p.stmts.get? s = some node →
      ∃ lines, Emit.readsRemark p annotate node.reads = .ok lines :=
    fun at_ => remarkOk (built.stamped at_)
  induction laid with
  | done => exact fun _ => .pure _
  | act at_ kind _ next =>
    intro stage
    obtain ⟨_, remarked⟩ := remark at_
    obtain ⟨_, written⟩ := built.actionOk filled acyclic assigns (kind ▸ built.proper at_)
    refine .lift remarked (.lift written ?_)
    exact .bind (.modify _) fun _ => .bind (next stage) fun _ => .pure _
  | branch at_ kind yesAt noAt _ _ _ inYes inNo next =>
    intro stage
    obtain ⟨_, remarked⟩ := remark at_
    have proper := built.proper at_
    rw [kind] at proper
    cases proper with
    | branch typed =>
      obtain ⟨_, condition⟩ := render typed
      refine .lift remarked (.lift condition (.lift (Arena.fetchOfGet yesAt) ?_))
      refine .bind (inYes _) fun _ => .lift (Arena.fetchOfGet noAt) ?_
      exact .bind (inNo _) fun _ => .bind (.modify _) fun _ => .bind (next stage) fun _ => .pure _
  | loop at_ kind homeAt _ _ within next =>
    intro stage
    obtain ⟨_, remarked⟩ := remark at_
    have proper := built.proper at_
    rw [kind] at proper
    cases proper with
    | loop counterAt _ startTyped stopTyped =>
      obtain ⟨_, first⟩ := render startTyped
      obtain ⟨_, last⟩ := render stopTyped
      refine .lift remarked (.lift first (.lift last (.lift (Arena.fetchOfGet counterAt) ?_)))
      refine .lift (Arena.fetchOfGet homeAt) (.bind (within _) fun _ => ?_)
      exact .bind (.modify _) fun _ => .bind (next stage) fun _ => .pure _
  | @block s node _ _ _ _ _ _ at_ kind blockAt homeAt _ _ within next =>
    intro stage
    obtain ⟨_, remarked⟩ := remark at_
    refine .lift remarked (.bind .get fun w => .bind (reportFlows fun s stale => ?_) fun _ => ?_)
    · exact fetchStamped (built.stamped at_) (List.mem_of_mem_filter stale)
    · refine .lift (Arena.fetchOfGet homeAt) (.bind (within _) fun _ => ?_)
      exact .bind (.modify _) fun _ => .bind (next stage) fun _ => .pure _

theorem Built.scopeFlows (built : Built p) (filled : p.Filled) (acyclic : p.Acyclic)
    (assigns : d.Assigns p) {annotate : Bool} {stage : Stage} (inside : stage ∈ p.stages) :
    Flows (Emit.scope p d annotate stage.main) := by
  obtain ⟨home, homeAt, -⟩ := built.forest.mains inside
  obtain ⟨body, laidOut, laid⟩ := built.forest.body homeAt
  exact .lift (Arena.fetchOfGet homeAt)
    (.lift laidOut (built.bodyFlows filled acyclic assigns laid _))

def Dialect.Plain (d : Dialect) : Prop :=
  ∃ spelling declare loopHeader, d = { spelling, declare, loopHeader }

theorem Built.plainAssigns (built : Built p) (filled : p.Filled) (acyclic : p.Acyclic)
    (plain : d.Plain) : d.Assigns p := by
  obtain ⟨spelling, declare, loopHeader, rfl⟩ := plain
  intro target value proper
  cases proper with
  | assign _ typed rooted =>
    obtain ⟨t, targeted⟩ : ∃ text, p.renderTarget spelling target = .ok text :=
      built.targetOk filled acyclic (rootedOf rooted)
    obtain ⟨v, rendered⟩ : ∃ text, p.render spelling value = .ok text :=
      built.renderOk filled acyclic typed.below
    exact ⟨_, by simp only [targeted, rendered, Bind.bind, Except.bind]; rfl⟩

theorem Built.writesOk (built : Built p) (filled : p.Filled) (acyclic : p.Acyclic) {sp : Spelling}
    {target : ExprId} {node : Expr} {v : VarId} {text : String}
    (at_ : p.exprs.get? target = some node) (rooted : Rooted p target v) {w : Wgsl.Write}
    (inside : w ∈ Wgsl.writes target node.op) : ∃ line, w.text p sp text = .ok line := by
  have whole : ∃ line, (Wgsl.Write.whole target).text p sp text = .ok line := by
    obtain ⟨t, targeted⟩ : ∃ text, p.renderTarget sp target = .ok text :=
      built.targetOk filled acyclic rooted
    exact ⟨_, by simp only [Wgsl.Write.text, targeted]; rfl⟩
  have parts : ∀ {vector pattern}, node.op = .swizzle vector pattern → ∀ component source,
      ∃ line, (Wgsl.Write.part vector component source).text p sp text = .ok line := by
    intro vector pattern op component source
    have chain := rooted.chain at_
    rw [op] at chain
    obtain ⟨t, targeted⟩ : ∃ text, p.renderTarget sp vector = .ok text :=
      built.targetOk filled acyclic chain.2
    exact ⟨_, by simp only [Wgsl.Write.text, targeted]; rfl⟩
  unfold Wgsl.writes at inside
  split at inside
  · rename_i vector pattern op
    split at inside
    · rcases List.mem_cons.mp inside with rfl | inside
      · exact ⟨_, rfl⟩
      · obtain ⟨⟨component, source⟩, -, rfl⟩ := List.mem_map.mp inside
        exact parts op component source
    · exact List.mem_singleton.mp inside ▸ whole
  · exact List.mem_singleton.mp inside ▸ whole

theorem Built.wgslAssigns (built : Built p) (filled : p.Filled) (acyclic : p.Acyclic)
    (stage : StageKind) : (Wgsl.dialect stage).Assigns p := by
  intro target value proper
  cases proper with
  | assign targetTyped typed rooted =>
    obtain ⟨node, at_, -⟩ := targetTyped
    obtain ⟨v, rendered⟩ : ∃ text, p.render (Wgsl.spelling stage) value = .ok text :=
      built.renderOk filled acyclic typed.below
    obtain ⟨lines, written⟩ : ∃ lines, (Wgsl.writes target node.op).mapM
        (Wgsl.Write.text p (Wgsl.spelling stage) v) = .ok lines :=
      Outcome.mapMTotal fun w inside =>
        built.writesOk filled acyclic at_ (rootedOf rooted) inside
    simp only [Wgsl.dialect, Wgsl.assign, rendered, Arena.fetchOfGet at_, written, Bind.bind,
      Except.bind]
    split <;> exact ⟨_, rfl⟩

end

def Stop.Allowed : Stop → Prop
  | .refused (.unsupported _) => True
  | .refused (.other _) => True
  | .refused (.program _) => False
  | .aborted _ => False

def Blameless {α : Type} (x : Compile α) : Prop := ∀ r stop s, x r = .error stop s → stop.Allowed

namespace Blameless

open Compile

variable {α β : Type}

theorem pure (a : α) : Blameless (Pure.pure a : Compile α) := StopsFor.pure a

theorem bind {x : Compile α} {f : α → Compile β} (first : Blameless x)
    (second : ∀ a, Blameless (f a)) : Blameless (x >>= f) := StopsFor.bind first second

theorem lift {x : Outcome α} {f : α → Compile β} {a : α} (made : x = .ok a)
    (second : Blameless (f a)) : Blameless (liftM x >>= f) := by
  subst made
  exact second

theorem unsupported (what : String) : Blameless (Compile.unsupported what : Compile α) :=
  StopsFor.refuse trivial

theorem other (what : String) : Blameless (Compile.refuse (.other what) : Compile α) :=
  StopsFor.refuse trivial

theorem diagnose (d : Diagnostic) : Blameless (Compile.diagnose d) := StopsFor.modify _

theorem note (m : Message) : Blameless (Compile.note m) := StopsFor.modify _

theorem walk {x : Emit α} (flows : Flows x) : Blameless (Compile.walk x) :=
  StopsFor.walk fun e v failed => by
    obtain ⟨a, w, ran⟩ := flows {}
    cases ran.symm.trans failed

theorem ite {c : Prop} [Decidable c] {x y : Compile α} (yes : Blameless x) (no : Blameless y) :
    Blameless (if c then x else y) := StopsFor.ite (fun _ => yes) fun _ => no

theorem mapM {f : α → Compile β} {as : List α} (each : ∀ a ∈ as, Blameless (f a)) :
    Blameless (as.mapM f) := StopsFor.mapM each

end Blameless

section

variable {p : Program}

theorem anyTotal {α : Type} {f : α → Outcome Bool} {as : List α} (each : ∀ a ∈ as, ∃ b, f a = .ok b) :
    ∃ b, as.anyM f = .ok b := by
  induction as with
  | nil => exact ⟨false, rfl⟩
  | cons a rest ih =>
    obtain ⟨b, made⟩ := each a List.mem_cons_self
    obtain ⟨c, others⟩ := ih fun x inside => each x (List.mem_cons_of_mem _ inside)
    cases b with
    | true => exact ⟨true, by simp only [List.anyM, made]; rfl⟩
    | false => exact ⟨c, by simp only [List.anyM, made]; exact others⟩

theorem isReadOk {v : VarId} {e : ExprId} (below : e.index < p.exprs.size) :
    ∃ b, p.isRead v e = .ok b := by
  obtain ⟨node, at_⟩ := Arena.atBelow below
  exact ⟨_, by simp only [Program.isRead, Arena.fetchOfGet at_]; rfl⟩

theorem Built.usageOk (built : Built p) (v : VarId) : ∃ usage, p.storageUsage v = .ok usage := by
  obtain ⟨loads, loaded⟩ : ∃ b, p.exprs.nodes.toList.anyM (p.loadsFrom v) = .ok b := by
    refine anyTotal fun node inside => ?_
    obtain ⟨e, at_⟩ := Arena.memNodes.mp inside
    unfold Program.loadsFrom
    split
    · rename_i storage coord op
      exact isReadOk (built.operand (e := e) ⟨node, at_, op ▸ List.mem_cons_self⟩).2
    · exact ⟨false, rfl⟩
  obtain ⟨stores, stored⟩ : ∃ b, p.stmts.nodes.toList.anyM (p.storesTo v) = .ok b := by
    refine anyTotal fun node inside => ?_
    obtain ⟨s, at_⟩ := Arena.memNodes.mp inside
    have proper := built.proper at_
    unfold Program.storesTo
    split
    · rename_i storage coord value kind
      rw [kind] at proper
      cases proper with
      | store texture => exact isReadOk texture.below
    · exact ⟨false, rfl⟩
  exact ⟨_, by simp only [Program.storageUsage, loaded, stored]; rfl⟩

theorem Built.varsOk (built : Built p) {stage : Stage} (inside : stage ∈ p.stages) {vs : List VarId}
    (listed : ∀ v ∈ vs, v ∈ stage.inputs ++ stage.outputs ++ stage.builtins) :
    ∃ vars, vs.mapM p.vars.fetch = .ok vars := by
  refine Outcome.mapMTotal fun v there => ?_
  obtain ⟨var, at_⟩ := (built.stage inside).1 v (listed v there)
  exact ⟨var, Arena.fetchOfGet at_⟩

theorem Built.builtinOk (built : Built p) {stage : Stage} (inside : stage ∈ p.stages)
    (value : Builtin) : ∃ b, Glsl.usesBuiltin p value stage = .ok b := by
  refine anyTotal fun v there => ?_
  obtain ⟨var, at_⟩ := (built.stage inside).1 v (List.mem_append_right _ there)
  exact ⟨_, by simp only [Arena.fetchOfGet at_]; rfl⟩

theorem blamelessVersion (flavor : Glsl.Flavor) (asked : GlslVersion) :
    Blameless (Glsl.chooseVersion flavor asked) :=
  .ite (.pure _) (.bind (.diagnose _) fun _ => .pure _)

theorem blamelessUniform (version : GlslVersion) (o : Options) (v : Variable) (usage : Usage) :
    Blameless (Glsl.uniformLine version o v usage) := by
  unfold Glsl.uniformLine
  split
  · exact .ite (.unsupported _) (.ite (.unsupported _) (.ite (.pure _) (.pure _)))
  · refine .ite (.unsupported _) ?_
    split
    · exact .unsupported _
    · exact .ite (.unsupported _) (.pure _)
  · exact .pure _
  · exact .pure _

theorem Built.blamelessUniforms (built : Built p) (version : GlslVersion) (o : Options)
    {vs : List VarId} (inside : ∀ v ∈ vs, v ∈ p.uniforms) :
    Blameless (Glsl.uniformLines p version o vs) := by
  induction vs with
  | nil => exact .pure _
  | cons v rest ih =>
    obtain ⟨var, at_⟩ := built.uniform (inside v List.mem_cons_self)
    obtain ⟨usage, used⟩ := built.usageOk v
    have later := ih fun w there => inside w (List.mem_cons_of_mem _ there)
    exact .lift (Arena.fetchOfGet at_) (.lift used
      (.bind (blamelessUniform _ _ _ _) fun _ => .bind later fun _ => .pure _))

theorem blamelessWorkgroup (version : GlslVersion) (w : Option Workgroup) :
    Blameless (Glsl.workgroupLines version w) := by
  cases w with
  | none => exact .pure _
  | some w => exact .ite (.pure _) (.unsupported _)

structure Checked (p : Program) : Prop where
  built : Built p
  filled : p.Filled
  acyclic : p.Acyclic

/-- The file of a stage, once it is known whether the stage has a position. -/
def Glsl.settled (p : Program) (version : GlslVersion) (o : Options) (stage : Stage) :
    Compile OutputFile := do
  let listing ← shader p version o stage
  Compile.note ⟨.debug, s!"generated {p.name} GLSL {stage.kind.name} shader"⟩
  return ⟨s!"{p.name}.{extension stage.kind}", some stage.kind, listing.text⟩

theorem Checked.blamelessGlsl (checked : Checked p) (flavor : Glsl.Flavor) (o : Options) :
    Blameless (Glsl.files flavor p o) := by
  have built := checked.built
  have assigns : Glsl.dialect.Assigns p :=
    built.plainAssigns checked.filled checked.acyclic ⟨_, _, _, rfl⟩
  unfold Glsl.files
  split
  · exact .other _
  refine .bind (blamelessVersion _ _) fun version => .mapM fun stage inside => ?_
  obtain ⟨positioned, uses⟩ := built.builtinOk inside .position
  have shader : Blameless (Glsl.shader p version o stage) := by
    obtain ⟨ins, inputs⟩ := built.varsOk inside fun v there =>
      List.mem_append_left _ (List.mem_append_left _ there)
    obtain ⟨outs, outputs⟩ := built.varsOk inside fun v there =>
      List.mem_append_left _ (List.mem_append_right _ there)
    refine .bind (blamelessWorkgroup _ _) fun _ =>
      .bind (built.blamelessUniforms _ _ fun _ there => there) fun _ => ?_
    refine .lift (a := _) (by simp only [Glsl.interfaceLines, inputs]; rfl) ?_
    refine .lift (a := _) (by simp only [Glsl.interfaceLines, outputs]; rfl) ?_
    exact .bind (.walk (built.scopeFlows checked.filled checked.acyclic assigns inside))
      fun _ => .pure _
  have rest : Blameless (Glsl.settled p version o stage) :=
    .bind shader fun _ => .bind (.note _) fun _ => .pure _
  exact .lift uses (.ite (.bind (.diagnose _) fun _ => rest) rest)

theorem Built.blamelessBinding (built : Built p) {v : VarId} {var : Variable}
    (at_ : p.vars.get? v = some var) (number : UInt32) :
    Blameless (Wgsl.uniformBindings p number v) := by
  refine .lift (Arena.fetchOfGet at_) ?_
  split
  · exact .ite (.unsupported _) (.pure _)
  · obtain ⟨usage, used⟩ := built.usageOk v
    exact .lift used (.ite (.unsupported _) (.ite (.unsupported _) (.pure _)))
  · refine .ite (.unsupported _) ?_
    split
    · exact .ite (.pure _) (.unsupported _)
    · exact .pure _

theorem Built.blamelessBindings (built : Built p) {vs : List VarId}
    (inside : ∀ v ∈ vs, v ∈ p.uniforms) (number : UInt32) :
    Blameless (Wgsl.bindUniforms p number vs) := by
  induction vs generalizing number with
  | nil => exact .pure _
  | cons v rest ih =>
    obtain ⟨var, at_⟩ := built.uniform (inside v List.mem_cons_self)
    exact .bind (built.blamelessBinding at_ number) fun own =>
      .bind (ih (fun w there => inside w (List.mem_cons_of_mem _ there)) _) fun _ => .pure _

theorem Built.blamelessMembers (built : Built p) {stage : Stage} (inside : stage ∈ p.stages)
    (output : Bool) : Blameless (Wgsl.members p stage output) := by
  obtain ⟨located, read⟩ : ∃ vars, (if output then stage.outputs else stage.inputs).mapM
      p.vars.fetch = .ok vars := by
    refine built.varsOk inside fun v there => ?_
    cases output with
    | true => exact List.mem_append_left _ (List.mem_append_right _ there)
    | false => exact List.mem_append_left _ (List.mem_append_left _ there)
  obtain ⟨values, readToo⟩ : ∃ vars, stage.builtins.mapM p.vars.fetch = .ok vars :=
    built.varsOk inside fun v there => List.mem_append_right _ there
  exact .ite (.unsupported _) (.lift read (.lift readToo (.pure _)))

theorem Built.storesOk (built : Built p) (kind : StageKind) : ∃ b, Wgsl.storesIn p kind = .ok b := by
  refine anyTotal fun node inside => ?_
  obtain ⟨s, at_⟩ := Arena.memNodes.mp inside
  obtain ⟨home, homeAt, -⟩ := built.forest.placed at_
  split
  · exact ⟨_, by simp only [Arena.fetchOfGet homeAt]; rfl⟩
  · exact ⟨false, rfl⟩

def Wgsl.settled (p : Program) (o : Options) (stage : Stage) (positioned stores : Bool) :
    Compile EntryPoint := do
  if stage.kind = .vertex && stores then
    Compile.unsupported "storage texture writes in a vertex stage"
  else
    let inputs ← members p stage false
    let outputs ← members p stage true
    let body ← Compile.walk (Emit.scope p (dialect stage.kind) o.annotate stage.main)
    Compile.note ⟨.debug, s!"generated {p.name} WGSL {stage.kind.name} entry point"⟩
    return ⟨stage.kind, stage.workgroup, inputs, outputs,
      stage.kind = .vertex && !positioned, body⟩

theorem Checked.blamelessWgsl (checked : Checked p) (o : Options) :
    Blameless (Wgsl.files p o) := by
  have built := checked.built
  refine .bind (.ite (.other _) ?_) fun _ => .pure _
  refine .bind (built.blamelessBindings (fun _ there => there) _) fun _ =>
    .bind (.mapM fun stage inside => ?_) fun _ => .pure _
  obtain ⟨positioned, uses⟩ := built.builtinOk inside .position
  obtain ⟨stores, stored⟩ := built.storesOk stage.kind
  have assigns := built.wgslAssigns checked.filled checked.acyclic stage.kind
  have written : Blameless (Compile.walk (Emit.scope p (Wgsl.dialect stage.kind) o.annotate stage.main)) :=
    .walk (built.scopeFlows checked.filled checked.acyclic assigns inside)
  have rest : Blameless (Wgsl.settled p o stage positioned stores) :=
    .ite (.unsupported _) (.bind (built.blamelessMembers inside _) fun _ =>
      .bind (built.blamelessMembers inside _) fun _ => .bind written fun _ =>
      .bind (.note _) fun _ => .pure _)
  exact .lift uses (.lift stored (.ite (.bind (.diagnose _) fun _ => rest) rest))

theorem Built.checked (built : Built p) {log : List Message} (passed : p.check = .ok log) :
    Checked p := by
  obtain ⟨acyclic, bound, -⟩ := built.checkOk.mp ⟨log, passed⟩
  refine ⟨built, fun s slot slotAt => ?_, acyclic⟩
  obtain ⟨block, blockAt, inside⟩ := (built.slot slotAt).owner
  obtain ⟨value, other, there, holds⟩ := bound _ _ blockAt s inside
  cases slotAt.symm.trans there
  exact ⟨value, holds⟩

theorem Checked.blameless (checked : Checked p) {b : Backend}
    (known : b = Wgsl.backend ∨ ∃ flavor, b = Glsl.backend flavor) (o : Options) :
    Blameless (b.files p o) := by
  rcases known with rfl | ⟨flavor, rfl⟩
  · exact checked.blamelessWgsl o
  · cases flavor with
    | desktop => exact checked.blamelessGlsl .desktop o
    | es => exact checked.blamelessGlsl .es o

theorem Blameless.compile {b : Backend} {f : Frozen} {o : Options}
    (blameless : Blameless (b.files f.program o)) {stop : Stop}
    (failed : (b.compile f o).result = .error stop) : stop.Allowed := by
  obtain ⟨r, ran⟩ := compiledError failed
  exact blameless _ _ _ ran

theorem checkedGenerates (reachable : Reachable p) {log : List Message}
    (passed : p.check = .ok log) :
    (∀ (sp : Spelling) (e : ExprId), e.index < p.exprs.size → ∃ text, p.render sp e = .ok text) ∧
    (∀ (sp : Spelling) (s : StmtId) (node : Statement) (target value : ExprId),
      p.stmts.get? s = some node → node.kind = .act (.assign target value) →
      ∃ text, p.renderTarget sp target = .ok text) ∧
    (∀ d : Dialect, d.Plain ∨ d = Glsl.dialect ∨ (∃ kind, d = Wgsl.dialect kind) →
      ∀ stage ∈ p.stages, ∀ annotate walk, ∃ lines after,
        Emit.scope p d annotate stage.main walk = .ok lines after) ∧
    (∀ b : Backend, b = Wgsl.backend ∨ (∃ flavor, b = Glsl.backend flavor) →
      ∀ (f : Frozen) (o : Options), f.program = p → ∀ stop, (b.compile f o).result = .error stop →
        (∃ what, stop = .refused (.unsupported what)) ∨ ∃ what, stop = .refused (.other what)) := by
  have checked := (reachableBuilt reachable).checked passed
  have ⟨built, filled, acyclic⟩ := checked
  refine ⟨fun sp e => built.renderOk filled acyclic, ?_, ?_, ?_⟩
  · intro sp s node target value at_ kind
    have proper := built.proper at_
    rw [kind] at proper
    cases proper with
    | assign _ _ rooted => exact built.targetOk filled acyclic (rootedOf rooted)
  · intro d known stage inside annotate
    have assigns : d.Assigns p := by
      rcases known with plain | rfl | ⟨kind, rfl⟩
      · exact built.plainAssigns filled acyclic plain
      · exact built.plainAssigns filled acyclic ⟨_, _, _, rfl⟩
      · exact built.wgslAssigns filled acyclic kind
    exact built.scopeFlows filled acyclic assigns inside
  · intro b known f o frozen stop failed
    subst frozen
    have allowed := (checked.blameless known o).compile failed
    match stop with
    | .refused (.unsupported what) => exact .inl ⟨what, rfl⟩
    | .refused (.other what) => exact .inr ⟨what, rfl⟩
    | .refused (.program _) => exact allowed.elim
    | .aborted _ => exact allowed.elim

def boundRun : List Call :=
  [.addStage .fragment, .literal (.int 0), .declare ⟨0⟩ "v" .int1 (some ⟨0⟩), .read ⟨0⟩,
    .block ⟨0⟩ "use", .input ⟨0⟩ (some "x") .int1 (some ⟨1⟩), .assign ⟨1⟩ ⟨1⟩ ⟨2⟩]

theorem boundRuns : ∃ p, Program.after { name := "p" } boundRun = some p ∧ p.check = .ok [] :=
  ⟨_, rfl, rfl⟩

theorem checkedGeneratesBound : ∃ p, Program.after { name := "p" } boundRun = some p ∧
    p.check = .ok [] ∧ (∃ text, p.render (Wgsl.spelling .fragment) ⟨2⟩ = .ok text) ∧
    ∀ stage ∈ p.stages, ∃ lines after, Emit.scope p Glsl.dialect true stage.main {} = .ok lines after := by
  obtain ⟨p, ran, passed⟩ := boundRuns
  obtain ⟨renders, -, writes, -⟩ := checkedGenerates ((Reachable.new "p").after ran) passed
  have sized : (⟨2⟩ : ExprId).index < p.exprs.size := by
    cases ran
    decide
  exact ⟨p, ran, passed, renders (Wgsl.spelling .fragment) ⟨2⟩ sized,
    fun stage inside => writes Glsl.dialect (.inr (.inl rfl)) stage inside true {}⟩

end

end ShaderGraph
