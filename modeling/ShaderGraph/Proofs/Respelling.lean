import ShaderGraph.Glsl.Dialect
import ShaderGraph.Proofs.Layout
import ShaderGraph.Proofs.Rendering
import ShaderGraph.Proofs.Resources
import ShaderGraph.Wgsl.Dialect
/-! Texture accesses, told from the rest of a text. Let a spelling be changed in how it writes the
accesses that are not permitted. Where a body makes permitted ones alone it is written as before,
so that no other access stands in its text. -/
namespace ShaderGraph

inductive Access
  | sample (texture : String) (sampler : Sampler)
  | load (texture : String) (storage : Storage)
  | store (texture : String) (storage : Storage)
  deriving DecidableEq, Repr

def Spelling.Alike (permitted : Access → Prop) (a b : Spelling) : Prop :=
  ∃ sample load store, b = { a with sample, load, store } ∧
    (∀ texture s coord, permitted (.sample texture s) →
      sample texture s coord = a.sample texture s coord) ∧
    (∀ texture s coord, permitted (.load texture s) →
      load texture s coord = a.load texture s coord) ∧
    ∀ texture s coord value, permitted (.store texture s) →
      store texture s coord value = a.store texture s coord value

/-- The accesses to a variable that expressions of the program make, and the statements `among` its
own. -/
inductive Program.Accesses (p : Program) (sp : Spelling) (among : List StmtId) :
    VarId → Access → Prop
  | sample {e sampler coord : ExprId} {node : Expr} {v : VarId} {var : Variable} {s : Sampler}
      (at_ : p.exprs.get? e = some node) (op : node.op = .sample sampler coord)
      (texture : p.AtVar sampler v) (varAt : p.vars.get? v = some var) (ty : var.ty = .sampler s) :
      Accesses p sp among v (.sample (sp.read var) s)
  | load {e storage coord : ExprId} {node : Expr} {v : VarId} {var : Variable} {s : Storage}
      (at_ : p.exprs.get? e = some node) (op : node.op = .load storage coord)
      (texture : p.AtVar storage v) (varAt : p.vars.get? v = some var) (ty : var.ty = .storage s) :
      Accesses p sp among v (.load (sp.read var) s)
  | store {id : StmtId} {storage coord value : ExprId} {node : Statement} {v : VarId}
      {var : Variable} {s : Storage} (inside : id ∈ among) (at_ : p.stmts.get? id = some node)
      (kind : node.kind = .act (.store storage coord value)) (texture : p.AtVar storage v)
      (varAt : p.vars.get? v = some var) (ty : var.ty = .storage s) :
      Accesses p sp among v (.store (sp.read var) s)

structure Dialect.Alike (permitted : Access → Prop) (p : Program) (d e : Dialect) : Prop where
  spelling : d.spelling.Alike permitted e.spelling
  declare : e.declare = d.declare
  loopHeader : e.loopHeader = d.loopHeader
  assign : e.assign p = d.assign p

section

variable {p : Program} {permitted : Access → Prop} {among : List StmtId}

theorem Spelling.Alike.stores {a b : Spelling} (alike : a.Alike permitted b) {texture : String}
    {s : Storage} (allowed : permitted (.store texture s)) :
    b.store texture s = a.store texture s := by
  obtain ⟨_, _, _, rfl, -, -, stores⟩ := alike
  funext coord value
  exact stores _ _ _ _ allowed

theorem renderReadWithin {sp : Spelling} {e : ExprId} {v : VarId} {var : Variable}
    (read : p.AtVar e v) (varAt : p.vars.get? v = some var) (fuel : Nat) (opened : List SlotId) :
    p.renderWithin sp (fuel + 1) opened e = .ok (sp.read var) := by
  obtain ⟨node, at_, op⟩ := read
  simp only [Program.renderWithin, Arena.fetchOfGet at_, Program.renderNode, op,
    Arena.fetchOfGet varAt, Bind.bind, Except.bind]
  rfl

theorem renderRead {sp : Spelling} {e : ExprId} {v : VarId} {var : Variable} (read : p.AtVar e v)
    (varAt : p.vars.get? v = some var) : p.render sp e = .ok (sp.read var) := by
  obtain ⟨node, at_, -⟩ := id read
  have deep : 0 < p.depthBound := Nat.mul_pos (Nat.succ_pos _) (Nat.succ_pos _)
  rw [Program.render, Arena.findOfGet at_, ← Nat.sub_add_cancel deep]
  exact renderReadWithin read varAt _ _

theorem Built.texture (built : Built p) {e : ExprId} {ty : Ty} (typed : p.HasTy e ty)
    (resource : ty.isResource = true) :
    ∃ v var, p.AtVar e v ∧ v ∈ p.uniforms ∧ p.vars.get? v = some var ∧ var.kind = .uniform ∧
      var.ty = ty := by
  obtain ⟨node, at_, rfl⟩ := typed
  obtain ⟨v, op, inside, var, varAt, kind, same⟩ := built.resource at_ resource
  exact ⟨v, var, ⟨node, at_, op⟩, inside, varAt, kind, same⟩

section

variable {a b : Spelling}

theorem Built.renderNodeAlike (built : Built p) (alike : a.Alike permitted b)
    (held : ∀ v access, p.Accesses a among v access → permitted access) {e : ExprId} {node : Expr}
    (at_ : p.exprs.get? e = some node) (fuel : Nat) (opened : List SlotId) :
    p.renderNode b (p.renderWithin a fuel) opened node =
      p.renderNode a (p.renderWithin a fuel) opened node := by
  obtain ⟨sample, load, store, rfl, samples, loads, -⟩ := alike
  have fits := (built.expr at_).1
  cases op : node.op with
  | sample sampler coord =>
    rw [op] at fits
    generalize node.ty = ty at fits
    cases fits with
    | sample texture =>
      obtain ⟨v, var, read, -, varAt, -, same⟩ := built.texture texture rfl
      have agree := fun c => samples _ _ c (held _ _ (.sample at_ op read varAt same))
      simp only [Program.renderNode, op, samplerTyOk texture]
      -- without fuel neither gets to the texture; with any, its operand is the name of the uniform
      cases fuel with
      | zero => rfl
      | succ fuel =>
        rw [renderReadWithin read varAt]
        cases p.renderWithin a (fuel + 1) opened coord with
        | error => rfl
        | ok c => exact congrArg Except.ok (agree c)
  | load storage coord =>
    rw [op] at fits
    generalize node.ty = ty at fits
    cases fits with
    | load texture =>
      obtain ⟨v, var, read, -, varAt, -, same⟩ := built.texture texture rfl
      have agree := fun c => loads _ _ c (held _ _ (.load at_ op read varAt same))
      simp only [Program.renderNode, op, storageTyOk texture]
      cases fuel with
      | zero => rfl
      | succ fuel =>
        rw [renderReadWithin read varAt]
        cases p.renderWithin a (fuel + 1) opened coord with
        | error => rfl
        | ok c => exact congrArg Except.ok (agree c)
  | _ => simp only [Program.renderNode, op]

theorem Built.renderWithinAlike (built : Built p) (alike : a.Alike permitted b)
    (held : ∀ v access, p.Accesses a among v access → permitted access) (fuel : Nat) :
    p.renderWithin b fuel = p.renderWithin a fuel := by
  induction fuel with
  | zero => rfl
  | succ fuel ih =>
    funext opened e
    simp only [Program.renderWithin, ih]
    cases at_ : p.exprs.get? e with
    | none => simp only [Arena.fetch, at_]; rfl
    | some node =>
      simp only [Arena.fetchOfGet at_]
      exact built.renderNodeAlike alike held at_ fuel opened

theorem Built.renderAlike (built : Built p) (alike : a.Alike permitted b)
    (held : ∀ v access, p.Accesses a among v access → permitted access) :
    p.render b = p.render a := by
  funext e
  simp only [Program.render, built.renderWithinAlike alike held]

theorem Built.renderTargetAlike (built : Built p) (alike : a.Alike permitted b)
    (held : ∀ v access, p.Accesses a among v access → permitted access) :
    p.renderTarget b = p.renderTarget a := by
  have same := built.renderWithinAlike alike held
  have within (fuel : Nat) : p.renderTargetWithin b fuel = p.renderTargetWithin a fuel := by
    obtain ⟨sample, load, store, rfl, -⟩ := alike
    induction fuel with
    | zero => rfl
    | succ fuel ih =>
      funext e
      simp only [Program.renderTargetWithin, ih, Program.renderTargetNode, same]
  funext e
  simp only [Program.renderTarget, within]

end

section

variable {d e : Dialect}

theorem Built.actionAlike (built : Built p) (alike : d.Alike permitted p e)
    (held : ∀ v access, p.Accesses d.spelling among v access → permitted access) {id : StmtId}
    {node : Statement} {action : Action} (inside : id ∈ among) (at_ : p.stmts.get? id = some node)
    (kind : node.kind = .act action) :
    Emit.actionLines p e action = Emit.actionLines p d action := by
  have render := built.renderAlike alike.spelling held
  have proper := built.proper at_
  rw [kind] at proper
  cases proper with
  | declare => simp only [Emit.actionLines, render, alike.declare]
  | assign => exact congrFun (congrFun alike.assign _) _
  | store texture =>
    obtain ⟨v, var, read, -, varAt, -, same⟩ := built.texture texture rfl
    have agree := alike.spelling.stores (held _ _ (.store inside at_ kind read varAt same))
    have shown : p.render d.spelling _ = .ok (d.spelling.read var) := renderRead read varAt
    simp only [Emit.actionLines, storageTyOk texture, render, shown, Bind.bind, Except.bind, agree]

theorem Built.bodyAlike (built : Built p) (alike : d.Alike permitted p e)
    (held : ∀ v access, p.Accesses d.spelling among v access → permitted access) {annotate : Bool}
    {l : List StmtId} {body : Body} (laid : Laid p l body) (inside : body.preorder ⊆ among) :
    ∀ stage, Emit.body p e annotate stage body = Emit.body p d annotate stage body := by
  have render := built.renderAlike alike.spelling held
  induction laid with
  | done => exact fun _ => rfl
  | act at_ kind _ next =>
    simp only [Body.preorder, List.cons_subset] at inside
    have line := built.actionAlike alike held inside.1 at_ kind
    intro stage
    simp only [Emit.body, line, next inside.2]
  | branch _ _ _ _ _ _ _ inYes inNo next =>
    simp only [Body.preorder, List.cons_subset, List.append_subset] at inside
    obtain ⟨-, ⟨yes, no⟩, rest⟩ := inside
    intro stage
    simp only [Emit.body, render, inYes yes, inNo no, next rest]
  | loop _ _ _ _ _ within next =>
    simp only [Body.preorder, List.cons_subset, List.append_subset] at inside
    obtain ⟨-, inner, rest⟩ := inside
    intro stage
    simp only [Emit.body, render, alike.loopHeader, within inner, next rest]
  | block _ _ _ _ _ _ within next =>
    simp only [Body.preorder, List.cons_subset, List.append_subset] at inside
    obtain ⟨-, inner, rest⟩ := inside
    intro stage
    simp only [Emit.body, within inner, next rest]

theorem Built.scopeAlike (built : Built p) (alike : d.Alike permitted p e) {c : ScopeId}
    {body : Body} (laidOut : p.body c = .ok body)
    (held : ∀ v access, p.Accesses d.spelling body.preorder v access → permitted access)
    (annotate : Bool) : Emit.scope p e annotate c = Emit.scope p d annotate c := by
  cases homeAt : p.scopes.get? c with
  | none => simp only [Emit.scope, Arena.fetch, homeAt]; rfl
  | some home =>
    have laid := built.forest.laid homeAt laidOut
    simp only [Emit.scope, Arena.fetchOfGet homeAt, laidOut]
    exact built.bodyAlike alike held laid (List.Subset.refl _) home.stage

end

/-- `text` is what is written for a stage, and the accesses in it are permitted. No other one is
made in the body of the stage, and however others are spelled the text is the same. -/
structure Confined (p : Program) (sp : Spelling) (respelled : Spelling → Dialect)
    (permitted : VarId → Access → Prop) (annotate : Bool) (stage : Stage) (text : Listing) :
    Prop where
  accesses : ∀ body, p.body stage.main = .ok body →
    ∀ v access, p.Accesses sp body.preorder v access → permitted v access
  text : ∀ b, sp.Alike (fun access => ∃ v, permitted v access) b →
    ∃ walk, Emit.scope p (respelled b) annotate stage.main {} = .ok text walk

theorem Built.confined (built : Built p) {permitted : VarId → Access → Prop} {d : Dialect}
    {respelled : Spelling → Dialect} {stage : Stage} (inside : stage ∈ p.stages)
    (held : ∀ body, p.body stage.main = .ok body →
      ∀ v access, p.Accesses d.spelling body.preorder v access → permitted v access)
    (alike : ∀ b among, d.spelling.Alike (fun access => ∃ v, permitted v access) b →
      (∀ v access, p.Accesses d.spelling among v access → ∃ w, permitted w access) →
      d.Alike (fun access => ∃ v, permitted v access) p (respelled b))
    {annotate : Bool} {text : Listing} {w : Walk}
    (emitted : Emit.scope p d annotate stage.main {} = .ok text w) :
    Confined p d.spelling respelled permitted annotate stage text where
  accesses := held
  text := by
    intro b spelled
    obtain ⟨home, homeAt, -⟩ := built.forest.mains inside
    obtain ⟨body, laidOut, -⟩ := built.forest.body homeAt
    have within (v : VarId) (access : Access)
        (makes : p.Accesses d.spelling body.preorder v access) : ∃ w, permitted w access :=
      ⟨v, held body laidOut v access makes⟩
    have same := built.scopeAlike (alike b _ spelled within) laidOut within annotate
    exact ⟨w, same ▸ emitted⟩

def Glsl.respelled (sp : Spelling) : Dialect :=
  { spelling := sp, declare := dialect.declare, loopHeader := dialect.loopHeader }

def Wgsl.respelled (stage : StageKind) (sp : Spelling) : Dialect :=
  { dialect stage with spelling := sp, assign := assign sp }

example : Glsl.respelled Glsl.spelling = Glsl.dialect := rfl

example (stage : StageKind) : Wgsl.respelled stage (Wgsl.spelling stage) = Wgsl.dialect stage := rfl

theorem Built.resourceName (built : Built p) {v : VarId} {var : Variable}
    (at_ : p.vars.get? v = some var) (resource : var.ty.isResource = true) :
    v ∈ p.uniforms ∧ Glsl.spelling.read var = var.name ∧
      ∀ stage, (Wgsl.spelling stage).read var = var.name := by
  obtain ⟨inside, again, there, kind, -⟩ := built.resourceVar at_ resource
  cases at_.symm.trans there
  refine ⟨inside, ?_, fun stage => ?_⟩
  · change Glsl.readText var = var.name
    rw [Glsl.readText, kind]
  · change Wgsl.moduleName var = var.name
    rw [Wgsl.moduleName, kind]

theorem Built.glslAlike (built : Built p) {b : Spelling} (alike : Glsl.spelling.Alike permitted b)
    (held : ∀ v access, p.Accesses Glsl.spelling among v access → permitted access) :
    Glsl.dialect.Alike permitted p (Glsl.respelled b) where
  spelling := alike
  declare := rfl
  loopHeader := rfl
  assign := by
    funext target value
    simp only [Glsl.respelled, Glsl.dialect, built.renderAlike alike held,
      built.renderTargetAlike alike held]

theorem Built.wgslAlike (built : Built p) {stage : StageKind} {b : Spelling}
    (alike : (Wgsl.spelling stage).Alike permitted b)
    (held : ∀ v access, p.Accesses (Wgsl.spelling stage) among v access → permitted access) :
    (Wgsl.dialect stage).Alike permitted p (Wgsl.respelled stage b) where
  spelling := alike
  declare := rfl
  loopHeader := rfl
  assign := by
    have target := built.renderTargetAlike alike held
    have writes (text : String) :
        Wgsl.Write.text p b text = Wgsl.Write.text p (Wgsl.spelling stage) text := by
      funext w
      cases w <;> simp only [Wgsl.Write.text, target]
    funext target value
    simp only [Wgsl.respelled, Wgsl.dialect, Wgsl.assign, built.renderAlike alike held, writes]

end

end ShaderGraph
