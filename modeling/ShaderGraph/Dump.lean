import ShaderGraph.Check
/-! The readable listing of a program: its uniforms, then each stage with its interface and
its body. A statement that reads mutable state ends in the stamps it was built with. -/
namespace ShaderGraph

namespace Program

variable (p : Program)

def readsRemark (reads : Stamps) : Outcome String := do
  if reads.isEmpty then return "" else return "  // deps: " ++ (← p.stampsText reads)

def actionLine (action : Action) : Outcome String := do
  match action with
  | .declare v init =>
    let var ← p.vars.fetch v
    match init with
    | some e => return s!"{var.ty.name} {var.name} = " ++ (← p.pseudo e)
    | none => return s!"{var.ty.name} {var.name}"
  | .assign target value =>
    let t ← p.pseudoTarget target
    let v ← p.pseudo value
    return s!"{t} = {v}"
  | .store storage coord value =>
    let s ← p.pseudo storage
    let c ← p.pseudo coord
    let v ← p.pseudo value
    return s!"{s}[{c}] = {v}"

def slotLine (s : SlotId) : Outcome String := do
  let slot ← p.slots.fetch s
  match slot.value with
  | some value => return s!"in {slot.ty.name} {slot.name} = " ++ (← p.pseudo value)
  | none => return s!"in {slot.ty.name} {slot.name} = <unbound>"

def deeper (pad : String) : String := pad ++ "    "

def bodyLines (pad : String) : Body → Outcome (List String)
  | .done => .ok []
  | .act _ node action rest => do
    let line ← p.actionLine action
    let remark ← p.readsRemark node.reads
    return (pad ++ line ++ remark) :: (← bodyLines pad rest)
  | .branch _ node condition _ _ accept reject rest => do
    let remark ← p.readsRemark node.reads
    let c ← p.pseudo condition
    let yes ← bodyLines (deeper pad) accept
    let no ← bodyLines (deeper pad) reject
    let otherwise := if reject.isDone then [] else (pad ++ "\x7d else \x7b") :: no
    let later ← bodyLines pad rest
    return s!"{pad}if ({c}) \x7b{remark}" :: (yes ++ otherwise ++ (pad ++ "\x7d") :: later)
  | .loop _ node counter start stop _ inner rest => do
    let remark ← p.readsRemark node.reads
    let i := (← p.vars.fetch counter).name
    let first ← p.pseudo start
    let last ← p.pseudo stop
    let inside ← bodyLines (deeper pad) inner
    let later ← bodyLines pad rest
    return s!"{pad}for ({i} = {first}; {i} < {last}; {i}++) \x7b{remark}"
      :: (inside ++ (pad ++ "\x7d") :: later)
  | .block _ node _ block inner rest => do
    let remark ← p.readsRemark node.reads
    let slots ← block.inputs.mapM p.slotLine
    let inside ← bodyLines (deeper pad) inner
    let later ← bodyLines pad rest
    return s!"{pad}block {block.name} \x7b{remark}"
      :: (slots.map (deeper pad ++ ·) ++ inside ++ (pad ++ "\x7d") :: later)

def uniformLine (v : VarId) : Outcome String := do
  let var ← p.vars.fetch v
  return s!"  uniform {var.ty.name} {var.name}"

def interfaceLine (v : VarId) : Outcome (Option String) := do
  let var ← p.vars.fetch v
  let place := match var.kind with
    | .stageInput location => some s!"@location({location}) in"
    | .stageOutput location => some s!"@location({location}) out"
    | .builtin b => some s!"@builtin({b.name})"
    | .lexical => none
    | .uniform => none
  return place.map fun place => s!"  {place} {var.ty.name} {var.name}"

def stageLines (stage : Stage) : Outcome (List String) := do
  let workgroup := match stage.workgroup with
    | some w => s!" @workgroup_size({w.x}, {w.y}, {w.z})"
    | none => ""
  let interface ← (stage.inputs ++ stage.outputs ++ stage.builtins).mapM p.interfaceLine
  let main ← p.scopes.fetch stage.main
  let body ← p.bodyLines "    " (← p.body stage.main)
  return ["", s!"Stage {stage.kind.name}{workgroup}:"] ++ interface.reduceOption
    ++ [s!"  {main.name} \x7b"] ++ body ++ ["  \x7d"]

def lines : Outcome (List String) := do
  let uniforms ← p.uniforms.mapM p.uniformLine
  let stages ← p.stages.mapM p.stageLines
  return [s!"Program {p.name}:"]
    ++ (if uniforms.isEmpty then [] else "" :: "Uniforms:" :: uniforms) ++ stages.flatten

def dump : Outcome String := do
  return String.join ((← p.lines).map (· ++ "\n"))

end Program

end ShaderGraph
