import ShaderGraph.Program
/-! Calls that build a program. A call runs on the program as it is; when it fails, what it
did before it failed stays done. Every node enters through one of the steps here. -/
namespace ShaderGraph

abbrev Build := EStateM Failure Program

namespace Build

variable {α : Type}

def ofOutcome (x : Outcome α) : Build α := fun p =>
  match x with
  | .ok a => .ok a p
  | .error e => .error e p

instance : MonadLift Outcome Build := ⟨ofOutcome⟩

def refuse (e : Error) : Build α := fun p => .error (.rejected e) p

def nextName (stem : String) : Build String := fun p =>
  .ok s!"{stem}_{p.nameCounter}" { p with nameCounter := p.nameCounter + 1 }

def addVariable (v : Variable) : Build VarId := do
  let p ← get
  let (id, vars) ← p.vars.append v
  set { p with vars }
  return id

def addScope (s : Scope) : Build ScopeId := do
  let p ← get
  let (id, scopes) ← p.scopes.append s
  set { p with scopes }
  return id

def addStatement (s : Statement) : Build StmtId := do
  let p ← get
  let (id, stmts) ← p.stmts.append s
  set { p with stmts }
  return id

def addBlockNode (b : Block) : Build BlockId := do
  let p ← get
  let (id, blocks) ← p.blocks.append b
  set { p with blocks }
  return id

def addSlotNode (s : Slot) : Build SlotId := do
  let p ← get
  let (id, slots) ← p.slots.append s
  set { p with slots }
  return id

end Build

def Program.stateOf (p : Program) (op : Operation) : Outcome (List VarId) := do
  let own ← match op with
    | .read v => do return if (← p.vars.fetch v).isMutable then [v] else []
    | _ => .ok []
  let nodes ← op.operands.mapM p.exprs.fetch
  return orderedVars (own ++ (nodes.map Expr.state).flatten)

namespace Build

def addExpr (op : Operation) (ty : Ty) : Build ExprId := do
  let p ← get
  let state ← p.stateOf op
  let (id, exprs) ← p.exprs.append ⟨op, ty, state⟩
  set { p with exprs }
  return id

def adjustVariable (v : VarId) (f : Variable → Variable) : Build Unit := do
  let p ← get
  set { p with vars := ← p.vars.adjust v f }

def adjustScope (s : ScopeId) (f : Scope → Scope) : Build Unit := do
  let p ← get
  set { p with scopes := ← p.scopes.adjust s f }

def adjustStatement (s : StmtId) (f : Statement → Statement) : Build Unit := do
  let p ← get
  set { p with stmts := ← p.stmts.adjust s f }

def adjustBlock (b : BlockId) (f : Block → Block) : Build Unit := do
  let p ← get
  set { p with blocks := ← p.blocks.adjust b f }

def adjustSlot (s : SlotId) (f : Slot → Slot) : Build Unit := do
  let p ← get
  set { p with slots := ← p.slots.adjust s f }

def adjustStage (kind : StageKind) (f : Stage → Stage) : Build Unit :=
  modify fun p => { p with stages := p.stages.map fun s => if s.kind = kind then f s else s }

def placeStatement (scope : ScopeId) (kind : StatementKind) (reads : Stamps)
    (writes : List Stamp) : Build StmtId := do
  let id ← addStatement ⟨kind, scope, reads, writes⟩
  adjustScope scope fun s => { s with statements := s.statements ++ [id] }
  return id

def openScope (name : String) (parent : ScopeId) (owner : StmtId) : Build ScopeId := do
  let outer ← (← get).scopes.fetch parent
  addScope ⟨name, outer.stage, some parent, some owner, []⟩

def newLexical (scope : ScopeId) (name : String) (ty : Ty) : Build VarId := do
  if ty.isStorable then
    let home ← (← get).scopes.fetch scope
    addVariable ⟨name, ty, .lexical, some home.stage, some scope, 0⟩
  else refuse (.unsupportedType s!"local variable of type {ty.name}")

def bump (v : VarId) : Build Stamp := do
  adjustVariable v fun var => { var with mutations := var.mutations + 1 }
  (← get).stampNow v

end Build

end ShaderGraph
