import Mathlib.Logic.Relation
import ShaderGraph.Call
import ShaderGraph.Proofs.Typing
/-! What a builder call can do to a program, as data: an edit says which nodes it adds, which it
changes, and what the checks before it have established. Every later invariant is proved once
for each edit and then holds of every program that calls can build. -/
namespace ShaderGraph

namespace Program

variable (p : Program)

def lexical (scope : ScopeId) (home : Scope) (stem : String) (ty : Ty) : Variable :=
  ⟨s!"{stem}_{p.nameCounter}", ty, .lexical, some home.stage, some scope, 0⟩

def nested (scope : ScopeId) (home : Scope) (name : String) : Scope :=
  ⟨name, home.stage, some scope, some p.stmts.fresh, []⟩

def declared (scope : ScopeId) (home : Scope) (stem : String) (ty : Ty) (init : Option ExprId)
    (reads : Stamps) : Program :=
  (p.spent.withVar (p.lexical scope home stem ty)).placed
    ⟨.act (.declare p.vars.fresh init), scope, reads, [⟨p.vars.fresh, 0⟩]⟩ atEnd

def assigned (scope : ScopeId) (target value : ExprId) (v : VarId) (count : UInt32)
    (reads : Stamps) : Program :=
  (p.mapVar v fun w => { w with mutations := w.mutations + 1 }).placed
    ⟨.act (.assign target value), scope, reads, [⟨v, count⟩]⟩ atEnd

def stored (scope : ScopeId) (storage coord value : ExprId) (reads : Stamps) : Program :=
  p.placed ⟨.act (.store storage coord value), scope, reads, []⟩ atEnd

def opened (scope : ScopeId) (home : Scope) (name : String) : Program :=
  p.spent.withScope (p.nested scope home name)

def forked (scope : ScopeId) (home : Scope) : Program :=
  (p.opened scope home s!"if_{p.nameCounter}_accept").withScope
    (p.nested scope home s!"if_{p.nameCounter}_reject")

def branched (scope : ScopeId) (home : Scope) (condition : ExprId) (reads : Stamps) : Program :=
  let first := p.opened scope home s!"if_{p.nameCounter}_accept"
  (p.forked scope home).placed
    ⟨.branch condition p.scopes.fresh first.scopes.fresh, scope, reads, []⟩ atEnd

def counted (scope : ScopeId) (home : Scope) : Program :=
  let inside := p.opened scope home s!"loop_{p.nameCounter}_body"
  inside.spent.withVar (inside.lexical p.scopes.fresh home "i" .int1)

def looped (scope : ScopeId) (home : Scope) (start stop : ExprId) (reads : Stamps) : Program :=
  (p.counted scope home).placed
    ⟨.loop p.vars.fresh start stop p.scopes.fresh, scope, reads, [⟨p.vars.fresh, 0⟩]⟩ atEnd

def blocked (scope : ScopeId) (home : Scope) (op : String) : Program :=
  ((p.opened scope home s!"{op}_{p.nameCounter}").placed
    ⟨.block p.blocks.fresh, scope, .empty, []⟩ atEnd).withBlock
    ⟨op, s!"{op}_{p.nameCounter}", p.stmts.fresh, scope, p.scopes.fresh, [], []⟩

def slotted (b : BlockId) (name : String) (ty : Ty) : Program :=
  ((p.withExpr ⟨.slot p.slots.fresh, ty, []⟩).withSlot
    ⟨name, ty, b, p.exprs.fresh, none, .empty⟩).mapBlock b fun node =>
      { node with inputs := node.inputs ++ [p.slots.fresh] }

def outputted (b : BlockId) (node : Block) (home : Scope) (stem : String) (ty : Ty) : Program :=
  ((p.spent.withVar (p.lexical node.parent home stem ty)).placed
    ⟨.act (.declare p.vars.fresh none), node.parent, .empty, [⟨p.vars.fresh, 0⟩]⟩
    (Build.insertBefore node.statement)).mapBlock b fun node =>
      { node with outputs := node.outputs ++ [p.vars.fresh] }

def bound (s : SlotId) (value : Option ExprId) (reads : Stamps) : Program :=
  p.mapSlot s fun slot => { slot with value, reads }

def filled (s : SlotId) (value : Option ExprId) (reads : Stamps) (block : StmtId)
    (all : Stamps) : Program :=
  (p.bound s value reads).mapStmt block fun node => { node with reads := all }

end Program

inductive Edit (p : Program) : Program → Prop
  | spend : Edit p p.spent
  | expr {op : Operation} {ty : Ty} {state : List VarId} (fits : Fits p op ty)
      (known : p.stateOf op = .ok state) (room : p.exprs.size < Handle.limit) :
      Edit p (p.withExpr ⟨op, ty, state⟩)
  | stage {kind : StageKind} {workgroup : Option Workgroup} (absent : p.stage? kind = none)
      (sized : if kind = .compute then ∃ w, workgroup = some w ∧ w.isEmpty = false
        else workgroup = none) (room : p.scopes.size < Handle.limit) :
      Edit p ((p.withScope ⟨s!"{kind.name}Main", kind, none, none, []⟩).withStage
        ⟨kind, p.scopes.fresh, [], [], [], workgroup⟩)
  | uniform {name : String} {ty : Ty} (held : ty ≠ .void) (room : p.vars.size < Handle.limit) :
      Edit p ((p.withVar ⟨name, ty, .uniform, none, none, 0⟩).withUniform p.vars.fresh)
  | stageInput {kind : StageKind} {name : String} {ty : Ty} {stage : Stage}
      (plain : Build.isInterfaceTy ty = true) (found : p.stage? kind = some stage)
      (room : p.vars.size < Handle.limit) :
      Edit p ((p.withVar ⟨name, ty, .stageInput (.ofNat stage.inputs.length), some kind, none,
        0⟩).mapStage kind fun s => { s with inputs := s.inputs ++ [p.vars.fresh] })
  | stageOutput {kind : StageKind} {name : String} {ty : Ty} {stage : Stage}
      (plain : Build.isInterfaceTy ty = true) (found : p.stage? kind = some stage)
      (room : p.vars.size < Handle.limit) :
      Edit p ((p.withVar ⟨name, ty, .stageOutput (.ofNat stage.outputs.length), some kind, none,
        0⟩).mapStage kind fun s => { s with outputs := s.outputs ++ [p.vars.fresh] })
  | builtin {value : Builtin} {stage : Stage} (found : p.stage? value.stage = some stage)
      (absent : Build.findBuiltin p value stage.builtins = .ok none)
      (room : p.vars.size < Handle.limit) :
      Edit p ((p.withVar ⟨value.name, value.ty, .builtin value, some value.stage, none,
        0⟩).mapStage value.stage fun s => { s with builtins := s.builtins ++ [p.vars.fresh] })
  | declare {scope : ScopeId} {home : Scope} {stem : String} {ty : Ty} {init : Option ExprId}
      {reads : Stamps} (at_ : p.scopes.get? scope = some home)
      (typed : ∀ e ∈ init, p.HasTy e ty) (storable : ty.isStorable = true)
      (known : Build.initReads (p.spent.withVar (p.lexical scope home stem ty)) init = .ok reads)
      (roomVar : p.vars.size < Handle.limit) (roomStmt : p.stmts.size < Handle.limit) :
      Edit p (p.declared scope home stem ty init reads)
  | assign {scope : ScopeId} {home : Scope} {target value : ExprId} {ty : Ty} {v : VarId}
      {var : Variable} {valueReads targetReads : Stamps} (at_ : p.scopes.get? scope = some home)
      (targetTyped : p.HasTy target ty) (valueTyped : p.HasTy value ty)
      (rooted : p.root target = .ok (some v)) (read : p.vars.get? v = some var)
      (knownValue : p.readStamps value = .ok valueReads)
      (knownTarget : p.targetReads target = .ok targetReads)
      (room : p.stmts.size < Handle.limit) :
      Edit p (p.assigned scope target value v (var.mutations + 1) (valueReads.union targetReads))
  | store {scope : ScopeId} {home : Scope} {storage coord value : ExprId} {s : Storage}
      {coordReads valueReads : Stamps} (at_ : p.scopes.get? scope = some home)
      (texture : p.HasTy storage (.storage s)) (place : p.HasTy coord s.coordTy)
      (texel : p.HasTy value s.texelTy) (knownCoord : p.readStamps coord = .ok coordReads)
      (knownValue : p.readStamps value = .ok valueReads) (room : p.stmts.size < Handle.limit) :
      Edit p (p.stored scope storage coord value (coordReads.union valueReads))
  | branch {scope : ScopeId} {home : Scope} {condition : ExprId} {reads : Stamps}
      (at_ : p.scopes.get? scope = some home) (typed : p.HasTy condition .bool1)
      (known : p.readStamps condition = .ok reads)
      (roomScopes : p.scopes.size + 1 < Handle.limit) (roomStmt : p.stmts.size < Handle.limit) :
      Edit p (p.branched scope home condition reads)
  | loop {scope : ScopeId} {home : Scope} {start stop : ExprId} {startReads stopReads : Stamps}
      (at_ : p.scopes.get? scope = some home) (startTyped : p.HasTy start .int1)
      (stopTyped : p.HasTy stop .int1)
      (knownStart : (p.counted scope home).readStamps start = .ok startReads)
      (knownStop : (p.counted scope home).readStamps stop = .ok stopReads)
      (roomScope : p.scopes.size < Handle.limit) (roomVar : p.vars.size < Handle.limit)
      (roomStmt : p.stmts.size < Handle.limit) :
      Edit p (p.looped scope home start stop (startReads.union stopReads))
  | block {scope : ScopeId} {home : Scope} {op : String} (at_ : p.scopes.get? scope = some home)
      (roomScope : p.scopes.size < Handle.limit) (roomStmt : p.stmts.size < Handle.limit)
      (roomBlock : p.blocks.size < Handle.limit) : Edit p (p.blocked scope home op)
  | slot {b : BlockId} {node : Block} {name : String} {ty : Ty}
      (at_ : p.blocks.get? b = some node) (storable : ty.isStorable = true)
      (roomExpr : p.exprs.size < Handle.limit) (roomSlot : p.slots.size < Handle.limit) :
      Edit p (p.slotted b name ty)
  | output {b : BlockId} {node : Block} {home : Scope} {stem : String} {ty : Ty}
      (at_ : p.blocks.get? b = some node) (around : p.scopes.get? node.parent = some home)
      (storable : ty.isStorable = true) (roomVar : p.vars.size < Handle.limit)
      (roomStmt : p.stmts.size < Handle.limit) : Edit p (p.outputted b node home stem ty)
  | fill {s : SlotId} {slot : Slot} {value : Option ExprId} {reads all : Stamps} {node : Block}
      (at_ : p.slots.get? s = some slot) (typed : ∀ e ∈ value, p.HasTy e slot.ty)
      (known : Build.initReads p value = .ok reads)
      (owner : p.blocks.get? slot.block = some node)
      (gathered : Build.slotReads (p.bound s value reads) node.inputs = .ok all) :
      Edit p (p.filled s value reads node.statement all)

def Edits : Program → Program → Prop := Relation.ReflTransGen Edit

def Aside (p q : Program) : Prop := Edit p q ∧ q.scopes = p.scopes

def Asides : Program → Program → Prop := Relation.ReflTransGen Aside

theorem Asides.edits {p q : Program} (asides : Asides p q) : Edits p q :=
  Relation.ReflTransGen.mono (fun _ _ aside => aside.1) _ _ asides

theorem Asides.scopes {p q : Program} (asides : Asides p q) : q.scopes = p.scopes := by
  induction asides with
  | refl => rfl
  | tail _ last ih => exact last.2.trans ih

theorem Edit.grows {p q : Program} (edit : Edit p q) : Grows p q := by
  cases edit with
  | spend => exact .spent p
  | expr => exact .withExpr p _
  | stage => exact (Grows.withScope p _).trans (.withStage _ _)
  | uniform => exact (Grows.withVar p _).trans (.withUniform _ _)
  | stageInput =>
    exact (Grows.withVar p _).trans (.mapStage fun _ =>
      ⟨_, _, _, rfl, List.prefix_append .., List.prefix_rfl, List.prefix_rfl⟩)
  | stageOutput =>
    exact (Grows.withVar p _).trans (.mapStage fun _ =>
      ⟨_, _, _, rfl, List.prefix_rfl, List.prefix_append .., List.prefix_rfl⟩)
  | builtin =>
    exact (Grows.withVar p _).trans (.mapStage fun _ =>
      ⟨_, _, _, rfl, List.prefix_rfl, List.prefix_rfl, List.prefix_append ..⟩)
  | declare => exact ((Grows.spent p).trans (.withVar _ _)).trans (.placed _ sublistAtEnd)
  | assign => exact (Grows.mapVar fun _ => ⟨_, rfl⟩).trans (.placed _ sublistAtEnd)
  | store => exact .placed _ sublistAtEnd
  | branch =>
    exact (((Grows.spent p).trans (.withScope _ _)).trans (.withScope _ _)).trans
      (.placed _ sublistAtEnd)
  | loop =>
    exact ((((Grows.spent p).trans (.withScope _ _)).trans (.spent _)).trans
      (.withVar _ _)).trans (.placed _ sublistAtEnd)
  | block =>
    exact (((Grows.spent p).trans (.withScope _ _)).trans (.placed _ sublistAtEnd)).trans
      (.withBlock _ _)
  | slot =>
    exact ((Grows.withExpr p _).trans (.withSlot _ _)).trans (.mapBlock fun _ =>
      ⟨_, _, rfl, List.prefix_append .., List.prefix_rfl⟩)
  | output =>
    exact (((Grows.spent p).trans (.withVar _ _)).trans
      (.placed _ (sublistInsertBefore _))).trans (.mapBlock fun _ =>
      ⟨_, _, rfl, List.prefix_rfl, List.prefix_append ..⟩)
  | fill => exact (Grows.mapSlot fun _ => ⟨_, _, rfl⟩).trans (.mapStmt fun _ => ⟨_, rfl⟩)

theorem Edits.grows {p q : Program} (edits : Edits p q) : Grows p q := by
  induction edits with
  | refl => exact .refl p
  | tail _ last ih => exact ih.trans last.grows

inductive Built : Program → Prop
  | new (name : String) : Built { name }
  | edit {p q : Program} (before : Built p) (edit : Edit p q) : Built q

theorem Built.edits {p q : Program} (before : Built p) (edits : Edits p q) : Built q := by
  induction edits with
  | refl => exact before
  | tail _ last ih => exact .edit ih last

end ShaderGraph
