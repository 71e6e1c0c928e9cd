import ShaderGraph.Program
/-! The body of a scope: its statements in order, each with the bodies nested under it.
A program keeps statements by handle; laid out as a body they can be walked by recursion
on the data, an accepting branch before a rejecting one. -/
namespace ShaderGraph

inductive Body
  | done
  | act (id : StmtId) (node : Statement) (action : Action) (rest : Body)
  | branch (id : StmtId) (node : Statement) (condition : ExprId)
      (acceptScope rejectScope : ScopeId) (accept reject rest : Body)
  | loop (id : StmtId) (node : Statement) (counter : VarId) (start stop : ExprId)
      (scope : ScopeId) (inner rest : Body)
  | block (id : StmtId) (node : Statement) (handle : BlockId) (block : Block)
      (inner rest : Body)
  deriving DecidableEq, Repr

namespace Program

def layStatements (p : Program) (sub : ScopeId → Outcome Body) : List StmtId → Outcome Body
  | [] => .ok .done
  | id :: later => do
    let node ← p.stmts.fetch id
    match node.kind with
    | .act action => return .act id node action (← p.layStatements sub later)
    | .branch condition accept reject =>
      let a ← sub accept
      let r ← sub reject
      return .branch id node condition accept reject a r (← p.layStatements sub later)
    | .loop counter start stop scope =>
      let inner ← sub scope
      return .loop id node counter start stop scope inner (← p.layStatements sub later)
    | .block handle =>
      let block ← p.blocks.fetch handle
      let inner ← sub block.body
      return .block id node handle block inner (← p.layStatements sub later)

def bodyWithin (p : Program) : Nat → ScopeId → Outcome Body
  | 0, _ => abort .endless
  | fuel + 1, scope => do
    p.layStatements (p.bodyWithin fuel) (← p.scopes.fetch scope).statements

/-- Scopes nest no deeper than there are scopes. -/
def body (p : Program) (scope : ScopeId) : Outcome Body := p.bodyWithin (p.scopes.size + 1) scope

end Program

namespace Body

def isDone : Body → Bool
  | .done => true
  | _ => false

def preorder : Body → List StmtId
  | .done => []
  | .act id _ _ rest => id :: rest.preorder
  | .branch id _ _ _ _ accept reject rest =>
    id :: (accept.preorder ++ reject.preorder ++ rest.preorder)
  | .loop id _ _ _ _ _ inner rest => id :: (inner.preorder ++ rest.preorder)
  | .block id _ _ _ inner rest => id :: (inner.preorder ++ rest.preorder)

def findBlock (op : String) : Body → Option BlockId
  | .done => none
  | .act _ _ _ rest => rest.findBlock op
  | .branch _ _ _ _ _ accept reject rest =>
    (accept.findBlock op).or ((reject.findBlock op).or (rest.findBlock op))
  | .loop _ _ _ _ _ _ inner rest => (inner.findBlock op).or (rest.findBlock op)
  | .block _ _ handle named inner rest =>
    if named.op = op then some handle else (inner.findBlock op).or (rest.findBlock op)

def collectWrites : Body → Stamps → Stamps
  | .done, set => set
  | .act _ node _ rest, set => rest.collectWrites (set.insertAll node.writes)
  | .branch _ node _ _ _ accept reject rest, set =>
    let set := set.insertAll node.writes
    rest.collectWrites
      ((set.union (accept.collectWrites .empty)).union (reject.collectWrites .empty))
  | .loop _ node _ _ _ _ inner rest, set =>
    rest.collectWrites ((set.insertAll node.writes).union (inner.collectWrites .empty))
  | .block _ node _ _ inner rest, set =>
    rest.collectWrites ((set.insertAll node.writes).union (inner.collectWrites .empty))

end Body

namespace Program

def findBlock (p : Program) (scope : ScopeId) (op : String) : Outcome (Option BlockId) := do
  return (← p.body scope).findBlock op

def scopeWrites (p : Program) (scope : ScopeId) : Outcome Stamps := do
  return (← p.body scope).collectWrites .empty

end Program

end ShaderGraph
