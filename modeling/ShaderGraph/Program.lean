import ShaderGraph.Statement
/-! A shader program: its nodes by sort, its interface, and what can be read off them.
A read through a handle the program keeps never fails in a program that was built by
calls; were it to, the read would end as an `Abort`. -/
namespace ShaderGraph

structure Program where
  name : String
  vars : Arena .var Variable := {}
  exprs : Arena .expr Expr := {}
  stmts : Arena .stmt Statement := {}
  scopes : Arena .scope Scope := {}
  blocks : Arena .block Block := {}
  slots : Arena .slot Slot := {}
  uniforms : List VarId := []
  stages : List Stage := []
  nameCounter : UInt32 := 0
  deriving DecidableEq, Repr

structure Usage where
  loads : Bool
  stores : Bool
  deriving DecidableEq, Repr

namespace Program

def stage? (p : Program) (kind : StageKind) : Option Stage :=
  p.stages.find? fun s => s.kind == kind

def stageMain (p : Program) (kind : StageKind) : Outcome ScopeId :=
  match p.stage? kind with
  | some s => .ok s.main
  | none => reject (.missingStage kind)

def typeOf (p : Program) (e : ExprId) : Outcome Ty := (p.exprs.find e).map Expr.ty

def operandTy (p : Program) (e : ExprId) : Outcome Ty := (p.exprs.fetch e).map Expr.ty

def childScopes (p : Program) (s : StmtId) : Outcome (List ScopeId) := do
  match (← p.stmts.fetch s).kind with
  | .act _ => return []
  | .branch _ accept reject => return [accept, reject]
  | .loop _ _ _ body => return [body]
  | .block b => return [(← p.blocks.fetch b).body]

def rootWithin (p : Program) : Nat → ExprId → Outcome (Option VarId)
  | 0, _ => abort .endless
  | fuel + 1, e => do
    match (← p.exprs.fetch e).op with
    | .read v => return if (← p.vars.fetch v).isMutable then some v else none
    | .column matrix _ => p.rootWithin fuel matrix
    | .element array _ => p.rootWithin fuel array
    | .swizzle vector pattern =>
      if pattern.Nodup then p.rootWithin fuel vector else return none
    | _ => return none

/-- The variable that an assignment through `e` changes: the one behind its columns,
elements and swizzles, if the chain can be assigned to at all. -/
def root (p : Program) (e : ExprId) : Outcome (Option VarId) := p.rootWithin (e.index + 1) e

def stampNow (p : Program) (v : VarId) : Outcome Stamp := do
  return ⟨v, (← p.vars.fetch v).mutations⟩

def readStamps (p : Program) (e : ExprId) : Outcome Stamps := do
  let stamps ← (← p.exprs.fetch e).state.mapM p.stampNow
  return .ofList stamps

def targetReadsWithin (p : Program) : Nat → ExprId → Outcome Stamps
  | 0, _ => abort .endless
  | fuel + 1, e => do
    match (← p.exprs.fetch e).op with
    | .column base index => return (← p.targetReadsWithin fuel base).union (← p.readStamps index)
    | .element base index => return (← p.targetReadsWithin fuel base).union (← p.readStamps index)
    | .swizzle vector _ => p.targetReadsWithin fuel vector
    | _ => return .empty

/-- What the target side of an assignment reads: the indices along its chain. -/
def targetReads (p : Program) (e : ExprId) : Outcome Stamps :=
  p.targetReadsWithin (e.index + 1) e

def stale (p : Program) (set : Stamps) : Outcome (List Stamp) := go set.toList
where
  go : List Stamp → Outcome (List Stamp)
    | [] => .ok []
    | s :: rest => do
      let now ← p.vars.fetch s.var
      let later ← go rest
      return if s.mutation < now.mutations then s :: later else later

def isRead (p : Program) (v : VarId) (e : ExprId) : Outcome Bool := do
  return (← p.exprs.fetch e).op == .read v

def loadsFrom (p : Program) (v : VarId) (e : Expr) : Outcome Bool :=
  match e.op with
  | .load storage _ => p.isRead v storage
  | _ => .ok false

def storesTo (p : Program) (v : VarId) (s : Statement) : Outcome Bool :=
  match s.kind with
  | .act (.store storage _ _) => p.isRead v storage
  | _ => .ok false

def storageUsage (p : Program) (v : VarId) : Outcome Usage := do
  let loads ← p.exprs.nodes.toList.anyM (p.loadsFrom v)
  let stores ← p.stmts.nodes.toList.anyM (p.storesTo v)
  return ⟨loads, stores⟩

def storageTy (p : Program) (e : ExprId) : Outcome Storage := do
  match ← p.operandTy e with
  | .storage s => return s
  | other => reject (.typeMismatch "storage texture" other.name)

def stampText (p : Program) (s : Stamp) : Outcome String := do
  let v ← p.vars.fetch s.var
  return s!"{v.name}@{s.mutation}"

def stampsText (p : Program) (set : Stamps) : Outcome String := do
  return ", ".intercalate (← set.toList.mapM p.stampText)

end Program

end ShaderGraph
