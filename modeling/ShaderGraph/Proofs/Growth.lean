import Mathlib.Data.List.Basic
import ShaderGraph.Build.Block
import ShaderGraph.Proofs.Arena
/-! Programs only grow. What a call may do to a node that stands already is a relation on
nodes; a program grows into another when every node of every arena is kept in that sense. -/
namespace ShaderGraph

def Arena.Extends {s : NodeSort} {α : Type} (kept : α → α → Prop) (a b : Arena s α) : Prop :=
  ∀ ⦃h n⦄, a.get? h = some n → ∃ m, b.get? h = some m ∧ kept n m

namespace Arena.Extends

variable {s : NodeSort} {α : Type} {kept : α → α → Prop} {a b c : Arena s α}

theorem refl (keeps : ∀ n, kept n n) : a.Extends kept a := fun _ n at_ => ⟨n, at_, keeps n⟩

theorem same (same : b = a) : a.Extends Eq b := fun _ n at_ => ⟨n, same ▸ at_, rfl⟩

theorem trans (chain : ∀ {l m n}, kept l m → kept m n → kept l n) (ab : a.Extends kept b)
    (bc : b.Extends kept c) : a.Extends kept c := by
  intro h n at_
  obtain ⟨m, atB, one⟩ := ab at_
  obtain ⟨l, atC, two⟩ := bc atB
  exact ⟨l, atC, chain one two⟩

theorem push (keeps : ∀ n, kept n n) (n : α) : a.Extends kept (a.push n) :=
  fun _ m at_ => ⟨m, getPushOld at_ n, keeps m⟩

theorem replace (keeps : ∀ n, kept n n) {g : Handle s} {f : α → α}
    (changed : ∀ n, a.get? g = some n → kept n (f n)) : a.Extends kept (a.replace g f) := by
  intro h n at_
  refine ⟨_, getReplaceOld at_ f, ?_⟩
  split
  · rename_i here
    subst here
    exact changed n at_
  · exact keeps n

end Arena.Extends

def Variable.Kept (v w : Variable) : Prop := ∃ mutations, w = { v with mutations }

def Statement.Kept (s t : Statement) : Prop := ∃ reads, t = { s with reads }

def Scope.Kept (s t : Scope) : Prop :=
  ∃ statements, t = { s with statements } ∧ s.statements.Sublist statements

def Block.Kept (b c : Block) : Prop :=
  ∃ inputs outputs, c = { b with inputs, outputs } ∧ b.inputs <+: inputs ∧ b.outputs <+: outputs

def Slot.Kept (s t : Slot) : Prop := ∃ value reads, t = { s with value, reads }

def Stage.Kept (s t : Stage) : Prop :=
  ∃ inputs outputs builtins, t = { s with inputs, outputs, builtins } ∧
    s.inputs <+: inputs ∧ s.outputs <+: outputs ∧ s.builtins <+: builtins

theorem Variable.Kept.refl (v : Variable) : v.Kept v := ⟨_, rfl⟩

theorem Statement.Kept.refl (s : Statement) : s.Kept s := ⟨_, rfl⟩

theorem Scope.Kept.refl (s : Scope) : s.Kept s := ⟨_, rfl, .refl _⟩

theorem Block.Kept.refl (b : Block) : b.Kept b := ⟨_, _, rfl, List.prefix_rfl, List.prefix_rfl⟩

theorem Slot.Kept.refl (s : Slot) : s.Kept s := ⟨_, _, rfl⟩

theorem Stage.Kept.refl (s : Stage) : s.Kept s :=
  ⟨_, _, _, rfl, List.prefix_rfl, List.prefix_rfl, List.prefix_rfl⟩

theorem Variable.Kept.trans {u v w : Variable} (one : u.Kept v) (two : v.Kept w) : u.Kept w := by
  obtain ⟨m, rfl⟩ := one
  obtain ⟨n, rfl⟩ := two
  exact ⟨n, rfl⟩

theorem Statement.Kept.trans {s t u : Statement} (one : s.Kept t) (two : t.Kept u) :
    s.Kept u := by
  obtain ⟨m, rfl⟩ := one
  obtain ⟨n, rfl⟩ := two
  exact ⟨n, rfl⟩

theorem Scope.Kept.trans {s t u : Scope} (one : s.Kept t) (two : t.Kept u) : s.Kept u := by
  obtain ⟨m, rfl, first⟩ := one
  obtain ⟨n, rfl, second⟩ := two
  exact ⟨n, rfl, first.trans second⟩

theorem Block.Kept.trans {b c d : Block} (one : b.Kept c) (two : c.Kept d) : b.Kept d := by
  obtain ⟨i, o, rfl, inputs, outputs⟩ := one
  obtain ⟨j, q, rfl, moreInputs, moreOutputs⟩ := two
  exact ⟨j, q, rfl, inputs.trans moreInputs, outputs.trans moreOutputs⟩

theorem Slot.Kept.trans {s t u : Slot} (one : s.Kept t) (two : t.Kept u) : s.Kept u := by
  obtain ⟨v, r, rfl⟩ := one
  obtain ⟨w, q, rfl⟩ := two
  exact ⟨w, q, rfl⟩

theorem Stage.Kept.trans {s t u : Stage} (one : s.Kept t) (two : t.Kept u) : s.Kept u := by
  obtain ⟨i, o, b, rfl, inputs, outputs, builtins⟩ := one
  obtain ⟨j, q, c, rfl, moreInputs, moreOutputs, moreBuiltins⟩ := two
  exact ⟨j, q, c, rfl, inputs.trans moreInputs, outputs.trans moreOutputs,
    builtins.trans moreBuiltins⟩

structure Grows (p q : Program) : Prop where
  vars : p.vars.Extends Variable.Kept q.vars
  exprs : p.exprs.Extends Eq q.exprs
  stmts : p.stmts.Extends Statement.Kept q.stmts
  scopes : p.scopes.Extends Scope.Kept q.scopes
  blocks : p.blocks.Extends Block.Kept q.blocks
  slots : p.slots.Extends Slot.Kept q.slots
  stages : ∀ ⦃s⦄, s ∈ p.stages → ∃ t ∈ q.stages, s.Kept t
  uniforms : p.uniforms <+: q.uniforms

namespace Grows

theorem refl (p : Program) : Grows p p where
  vars := .refl .refl
  exprs := .refl fun _ => rfl
  stmts := .refl .refl
  scopes := .refl .refl
  blocks := .refl .refl
  slots := .refl .refl
  stages := fun s inside => ⟨s, inside, .refl s⟩
  uniforms := List.prefix_rfl

theorem trans {p q r : Program} (one : Grows p q) (two : Grows q r) : Grows p r where
  vars := .trans .trans one.vars two.vars
  exprs := .trans Eq.trans one.exprs two.exprs
  stmts := .trans .trans one.stmts two.stmts
  scopes := .trans .trans one.scopes two.scopes
  blocks := .trans .trans one.blocks two.blocks
  slots := .trans .trans one.slots two.slots
  stages := fun _ inside => by
    obtain ⟨t, there, kept⟩ := one.stages inside
    obtain ⟨u, last, more⟩ := two.stages there
    exact ⟨u, last, kept.trans more⟩
  uniforms := one.uniforms.trans two.uniforms

end Grows

namespace Program

variable (p : Program)

def spent : Program := { p with nameCounter := p.nameCounter + 1 }

def withVar (v : Variable) : Program := { p with vars := p.vars.push v }

def withExpr (e : Expr) : Program := { p with exprs := p.exprs.push e }

def withStmt (s : Statement) : Program := { p with stmts := p.stmts.push s }

def withScope (s : Scope) : Program := { p with scopes := p.scopes.push s }

def withBlock (b : Block) : Program := { p with blocks := p.blocks.push b }

def withSlot (s : Slot) : Program := { p with slots := p.slots.push s }

def withStage (s : Stage) : Program := { p with stages := p.stages ++ [s] }

def withUniform (v : VarId) : Program := { p with uniforms := p.uniforms ++ [v] }

def mapVar (v : VarId) (f : Variable → Variable) : Program := { p with vars := p.vars.replace v f }

def mapStmt (s : StmtId) (f : Statement → Statement) : Program :=
  { p with stmts := p.stmts.replace s f }

def mapScope (s : ScopeId) (f : Scope → Scope) : Program :=
  { p with scopes := p.scopes.replace s f }

def mapBlock (b : BlockId) (f : Block → Block) : Program :=
  { p with blocks := p.blocks.replace b f }

def mapSlot (s : SlotId) (f : Slot → Slot) : Program := { p with slots := p.slots.replace s f }

def mapStage (kind : StageKind) (f : Stage → Stage) : Program :=
  { p with stages := p.stages.map fun s => if s.kind = kind then f s else s }

def placed (node : Statement) (place : StmtId → List StmtId → List StmtId) : Program :=
  (p.withStmt node).mapScope node.scope fun s =>
    { s with statements := place p.stmts.fresh s.statements }

def atEnd (new : StmtId) (statements : List StmtId) : List StmtId := statements ++ [new]

end Program

namespace Grows

variable (p : Program)

theorem spent : Grows p p.spent := { refl p with }

theorem withVar (v : Variable) : Grows p (p.withVar v) := { refl p with vars := .push .refl v }

theorem withExpr (e : Expr) : Grows p (p.withExpr e) :=
  { refl p with exprs := .push (fun _ => rfl) e }

theorem withStmt (s : Statement) : Grows p (p.withStmt s) :=
  { refl p with stmts := .push .refl s }

theorem withScope (s : Scope) : Grows p (p.withScope s) :=
  { refl p with scopes := .push .refl s }

theorem withBlock (b : Block) : Grows p (p.withBlock b) :=
  { refl p with blocks := .push .refl b }

theorem withSlot (s : Slot) : Grows p (p.withSlot s) := { refl p with slots := .push .refl s }

theorem withStage (s : Stage) : Grows p (p.withStage s) :=
  { refl p with stages := fun t inside => ⟨t, List.mem_append_left _ inside, .refl t⟩ }

theorem withUniform (v : VarId) : Grows p (p.withUniform v) :=
  { refl p with uniforms := List.prefix_append .. }

variable {p}

theorem mapVar {v : VarId} {f : Variable → Variable} (kept : ∀ n, Variable.Kept n (f n)) :
    Grows p (p.mapVar v f) := { refl p with vars := .replace .refl fun n _ => kept n }

theorem mapStmt {s : StmtId} {f : Statement → Statement} (kept : ∀ n, Statement.Kept n (f n)) :
    Grows p (p.mapStmt s f) := { refl p with stmts := .replace .refl fun n _ => kept n }

theorem mapScope {s : ScopeId} {f : Scope → Scope} (kept : ∀ n, Scope.Kept n (f n)) :
    Grows p (p.mapScope s f) := { refl p with scopes := .replace .refl fun n _ => kept n }

theorem mapBlock {b : BlockId} {f : Block → Block} (kept : ∀ n, Block.Kept n (f n)) :
    Grows p (p.mapBlock b f) := { refl p with blocks := .replace .refl fun n _ => kept n }

theorem mapSlot {s : SlotId} {f : Slot → Slot} (kept : ∀ n, Slot.Kept n (f n)) :
    Grows p (p.mapSlot s f) := { refl p with slots := .replace .refl fun n _ => kept n }

theorem mapStage {kind : StageKind} {f : Stage → Stage} (kept : ∀ n, Stage.Kept n (f n)) :
    Grows p (p.mapStage kind f) :=
  { refl p with
    stages := fun t inside => by
      refine ⟨_, List.mem_map_of_mem inside, ?_⟩
      split
      · exact kept t
      · exact .refl t }

theorem placed (node : Statement) {place : StmtId → List StmtId → List StmtId}
    (keeps : ∀ new l, List.Sublist l (place new l)) : Grows p (p.placed node place) :=
  (withStmt p node).trans (mapScope fun _ => ⟨_, rfl, keeps _ _⟩)

end Grows

theorem sublistAtEnd (new : StmtId) (l : List StmtId) : l.Sublist (Program.atEnd new l) :=
  List.sublist_append_left l [new]

theorem sublistInsertBefore (mark new : StmtId) (l : List StmtId) :
    l.Sublist (Build.insertBefore mark new l) := by
  induction l with
  | nil => exact List.nil_sublist _
  | cons s rest ih =>
    simp only [Build.insertBefore]
    split
    · exact List.sublist_cons_self ..
    · exact ih.cons_cons s

end ShaderGraph
