import ShaderGraph.Check
import ShaderGraph.Listing
/-! Writing statements. Targets differ in a few statement forms, which a dialect gives; the
walk through a body is the same for all. It keeps the mutation each variable has reached,
so that a block bound against an older state is reported. -/
namespace ShaderGraph

inductive Severity
  | warning
  | note
  deriving DecidableEq, Repr

def Severity.name : Severity → String
  | .warning => "warning"
  | .note => "note"

structure Diagnostic where
  severity : Severity
  stage : Option StageKind
  message : String
  deriving DecidableEq, Repr

namespace Diagnostic

def warning (message : String) : Diagnostic := ⟨.warning, none, message⟩

def stageWarning (stage : StageKind) (message : String) : Diagnostic :=
  ⟨.warning, some stage, message⟩

def text (d : Diagnostic) : String :=
  match d.stage with
  | some stage => s!"{d.severity.name}: {stage.name} stage: {d.message}"
  | none => s!"{d.severity.name}: {d.message}"

end Diagnostic

structure Dialect where
  spelling : Spelling
  declare : Variable → Option String → String
  loopHeader : Variable → String → String → String
  assign : Program → ExprId → ExprId → Outcome Listing := fun p target value => do
    let t ← p.renderTarget spelling target
    let v ← p.render spelling value
    return [.line s!"{t} = {v};"]

/-- `reached` holds the latest mutation of each variable on the walk. -/
structure Walk where
  reached : Stamps := .empty
  diagnostics : List Diagnostic := []
  log : List Message := []
  deriving DecidableEq, Repr

abbrev Emit := EStateM Failure Walk

namespace Emit

variable {α : Type}

def ofOutcome (x : Outcome α) : Emit α := fun w =>
  match x with
  | .ok a => .ok a w
  | .error e => .error e w

instance : MonadLift Outcome Emit := ⟨ofOutcome⟩

def reportStale (stage : StageKind) (block : Block) (var : Variable) (bound reached : UInt32) :
    Emit Unit :=
  modify fun w => { w with
    diagnostics := w.diagnostics ++ [.stageWarning stage
      s!"block {block.name} was bound to {var.name}@{bound} but runs after {var.name}@{reached}"]
    log := w.log ++ [⟨.warn, s!"block {block.name} reads stale {var.name}"⟩] }

def reportAll (p : Program) (stage : StageKind) (block : Block) : List Stamp → Emit Unit
  | [] => return ()
  | s :: rest => do
    let var ← p.vars.fetch s.var
    let reached := ((← get).reached.get? s.var).map Stamp.mutation
    reportStale stage block var s.mutation (reached.getD 0)
    reportAll p stage block rest

def reach (writes : List Stamp) : Emit Unit :=
  modify fun w => { w with reached := w.reached.insertAll writes }

def readsRemark (p : Program) (annotate : Bool) (reads : Stamps) : Outcome Listing := do
  if annotate && !reads.isEmpty then return [.line ("// deps: " ++ (← p.stampsText reads))]
  else return []

def actionLines (p : Program) (d : Dialect) : Action → Outcome Listing
  | .declare v init => do
    let text ← init.mapM (p.render d.spelling)
    let var ← p.vars.fetch v
    return [.line (d.declare var text)]
  | .assign target value => d.assign p target value
  | .store storage coord value => do
    let ty ← p.storageTy storage
    let s ← p.render d.spelling storage
    let c ← p.render d.spelling coord
    let v ← p.render d.spelling value
    return [.line (d.spelling.store s ty c v ++ ";")]

def body (p : Program) (d : Dialect) (annotate : Bool) (stage : StageKind) :
    Body → Emit Listing
  | .done => return []
  | .act _ node action rest => do
    let remark ← readsRemark p annotate node.reads
    let lines ← actionLines p d action
    reach node.writes
    let later ← body p d annotate stage rest
    return remark ++ lines ++ later
  | .branch _ node condition acceptScope rejectScope accept reject rest => do
    let remark ← readsRemark p annotate node.reads
    let c ← p.render d.spelling condition
    let yes ← body p d annotate (← p.scopes.fetch acceptScope).stage accept
    let no ← body p d annotate (← p.scopes.fetch rejectScope).stage reject
    let otherwise := if reject.isDone then [] else .line "\x7d else \x7b" :: Listing.nested no
    reach node.writes
    let later ← body p d annotate stage rest
    return remark ++ .line s!"if ({c}) \x7b" :: Listing.nested yes ++ otherwise
      ++ .line "\x7d" :: later
  | .loop _ node counter start stop scope inner rest => do
    let remark ← readsRemark p annotate node.reads
    let first ← p.render d.spelling start
    let last ← p.render d.spelling stop
    let var ← p.vars.fetch counter
    let inside ← body p d annotate (← p.scopes.fetch scope).stage inner
    reach node.writes
    let later ← body p d annotate stage rest
    return remark ++ .line (d.loopHeader var first last) :: Listing.nested inside
      ++ .line "\x7d" :: later
  | .block _ node _ block inner rest => do
    let remark ← readsRemark p annotate node.reads
    reportAll p stage block (node.reads.staleIn (← get).reached)
    let named := if annotate then [.line s!"// block {block.name}"] else []
    let inside ← body p d annotate (← p.scopes.fetch block.body).stage inner
    reach node.writes
    let later ← body p d annotate stage rest
    return remark ++ named ++ .line "\x7b" :: Listing.nested inside ++ .line "\x7d" :: later

def scope (p : Program) (d : Dialect) (annotate : Bool) (s : ScopeId) : Emit Listing := do
  let node ← p.scopes.fetch s
  body p d annotate node.stage (← p.body s)

end Emit

end ShaderGraph
