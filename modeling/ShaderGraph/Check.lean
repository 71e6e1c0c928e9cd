import ShaderGraph.Body
import ShaderGraph.Message
import ShaderGraph.Render
/-! Checking a program before it is written out. Bindings are searched for cycles first;
then every body is walked with the variables declared so far, so the error reported is that
of the first statement that breaks the rule. Only a checked program can be frozen. -/
namespace ShaderGraph

namespace Program

variable (p : Program)

def slotsWithin : Nat → List SlotId → ExprId → Outcome (List SlotId)
  | 0, _, _ => abort .endless
  | fuel + 1, found, e => do
    match (← p.exprs.fetch e).op with
    | .slot s => return if s ∈ found then found else found ++ [s]
    | op => op.operands.foldlM (slotsWithin fuel) found

def slotsOf (e : ExprId) : Outcome (List SlotId) := p.slotsWithin (e.index + 1) [] e

/-- Depth-first search along bindings. `path` leads to `s`, and `clean` holds the slots
already known to reach no cycle. -/
def visitSlot : Nat → List SlotId → List SlotId → SlotId → Outcome (List SlotId)
  | 0, _, _, _ => abort .endless
  | fuel + 1, path, clean, s => do
    if s ∈ clean then return clean
    else
      let slot ← p.slots.fetch s
      if s ∈ path then cyclic slot (← p.blocks.fetch slot.block)
      else match slot.value with
        | none => return s :: clean
        | some value =>
          let next ← p.slotsOf value
          return s :: (← next.foldlM (visitSlot fuel (s :: path)) clean)

def checkCycles : Outcome Unit := do
  let slots := p.slots.entries.map Prod.fst
  let _ ← slots.foldlM (p.visitSlot (p.slots.size + 1) []) []
  return ()

def checkRead (scope : Scope) (visible : List VarId) (v : VarId) : Outcome Unit := do
  let var ← p.vars.fetch v
  match var.stage with
  | some owner =>
    if owner = scope.stage then inScope var
    else reject (.wrongStage var.name owner scope.stage)
  | none => inScope var
where
  inScope (var : Variable) : Outcome Unit :=
    if var.isLexical && v ∉ visible then reject (.outOfScope var.name scope.name) else .ok ()

def unboundSlot {α : Type} (slot : Slot) : Outcome α := do
  let block ← p.blocks.fetch slot.block
  reject (.unboundInput slot.name block.name)

def checkReadsWithin (scope : Scope) (visible : List VarId) : Nat → ExprId → Outcome Unit
  | 0, _ => abort .endless
  | fuel + 1, e => do
    match (← p.exprs.fetch e).op with
    | .read v => p.checkRead scope visible v
    | .slot s =>
      let slot ← p.slots.fetch s
      match slot.value with
      | some value => checkReadsWithin scope visible fuel value
      | none => p.unboundSlot slot
    | op => op.operands.forM (checkReadsWithin scope visible fuel)

def checkReads (scope : Scope) (visible : List VarId) (e : ExprId) : Outcome Unit :=
  p.checkReadsWithin scope visible p.depthBound e

def checkBindings (scope : Scope) (visible : List VarId) : List SlotId → Outcome Unit
  | [] => .ok ()
  | s :: rest => do
    let slot ← p.slots.fetch s
    match slot.value with
    | none => p.unboundSlot slot
    | some value =>
      p.checkReads scope visible value
      checkBindings scope visible rest

def checkAction (scope : Scope) (visible : List VarId) : Action → Outcome Unit
  | .declare _ none => .ok ()
  | .declare _ (some init) => p.checkReads scope visible init
  | .assign target value => do
    p.checkReads scope visible target
    p.checkReads scope visible value
  | .store storage coord value => do
    p.checkReads scope visible storage
    p.checkReads scope visible coord
    p.checkReads scope visible value

end Program

def Action.declares (visible : List VarId) : Action → List VarId
  | .declare v _ => v :: visible
  | _ => visible

namespace Program

variable (p : Program)

/-- Walks the body of `scope`. `visible` holds the variables declared on the way to it; a
loop's counter is visible in the loop's body alone. -/
def checkBody (scope : Scope) (visible : List VarId) : Body → Outcome Unit
  | .done => .ok ()
  | .act _ _ action rest => do
    p.checkAction scope visible action
    checkBody scope (action.declares visible) rest
  | .branch _ _ condition acceptScope rejectScope accept reject rest => do
    p.checkReads scope visible condition
    checkBody (← p.scopes.fetch acceptScope) visible accept
    checkBody (← p.scopes.fetch rejectScope) visible reject
    checkBody scope visible rest
  | .loop _ _ counter start stop inside inner rest => do
    p.checkReads scope visible start
    p.checkReads scope visible stop
    checkBody (← p.scopes.fetch inside) (counter :: visible) inner
    checkBody scope visible rest
  | .block _ _ _ block inner rest => do
    p.checkBindings scope visible block.inputs
    checkBody (← p.scopes.fetch block.body) visible inner
    checkBody scope visible rest

def checkWorkgroup (stage : Stage) : Outcome Unit :=
  if stage.kind = .compute then
    let size := stage.workgroup.getD ⟨0, 0, 0⟩
    if size.isEmpty then reject (.invalidWorkgroup size) else .ok ()
  else .ok ()

def checkStage (stage : Stage) : Outcome Unit := do
  checkWorkgroup stage
  p.checkBody (← p.scopes.fetch stage.main) [] (← p.body stage.main)

def unassigned (block : Block) : List VarId → Outcome (List Message)
  | [] => .ok []
  | v :: rest => do
    let var ← p.vars.fetch v
    let later ← unassigned block rest
    if var.mutations = 0 then
      return ⟨.warn, s!"output {var.name} of block {block.name} is never assigned"⟩ :: later
    else return later

def outputWarnings : Outcome (List Message) := do
  let found ← p.blocks.nodes.toList.mapM fun block => p.unassigned block block.outputs
  return found.flatten

def check : Outcome (List Message) := do
  p.checkCycles
  p.stages.forM p.checkStage
  p.outputWarnings

end Program

structure Frozen where
  program : Program
  checked : ∃ log, program.check = .ok log

def Program.freeze (p : Program) : Outcome (Logged Frozen) :=
  match passed : p.check with
  | .error e => .error e
  | .ok log =>
    let sizes := s!"{p.exprs.size} expressions, {p.stmts.size} statements, {p.blocks.size} blocks"
    .ok ⟨⟨p, log, passed⟩, log ++ [⟨.debug, s!"froze program {p.name}: {sizes}"⟩]⟩

end ShaderGraph
