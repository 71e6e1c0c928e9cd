import ShaderGraph.Build.Basic
/-! Stages and the variables of their interface. A stage kind is added once; locations
count up from zero in the order inputs and outputs are declared. -/
namespace ShaderGraph.Build

def pushStage (kind : StageKind) (workgroup : Option Workgroup) : Build ScopeId := do
  if ((← get).stage? kind).isSome then refuse (.duplicateStage kind)
  else
    let main ← addScope ⟨s!"{kind.name}Main", kind, none, none, []⟩
    modify fun p => { p with stages := p.stages ++ [⟨kind, main, [], [], [], workgroup⟩] }
    return main

def addCompute (size : Workgroup) : Build ScopeId := do
  if size.isEmpty then refuse (.invalidWorkgroup size) else pushStage .compute (some size)

def addStage (kind : StageKind) : Build ScopeId :=
  match kind with
  | .compute => addCompute .unit
  | .vertex => pushStage .vertex none
  | .fragment => pushStage .fragment none

def uniform (name : String) (ty : Ty) : Build VarId := do
  if ty = .void then refuse (.unsupportedType "void uniform")
  else
    let v ← addVariable ⟨name, ty, .uniform, none, none, 0⟩
    modify fun p => { p with uniforms := p.uniforms ++ [v] }
    return v

def isInterfaceTy (ty : Ty) : Bool :=
  !ty.isMatrix && ty.scalarKind?.any ScalarKind.isNumeric

def findStage (kind : StageKind) : Build Stage := do
  match (← get).stage? kind with
  | some s => return s
  | none => refuse (.missingStage kind)

def refuseInterface {α : Type} (ty : Ty) : Build α :=
  refuse (.unsupportedType s!"stage interface variable of type {ty.name}")

def stageInput (kind : StageKind) (name : String) (ty : Ty) : Build VarId := do
  if isInterfaceTy ty then
    let stage ← findStage kind
    let v ← addVariable
      ⟨name, ty, .stageInput (.ofNat stage.inputs.length), some kind, none, 0⟩
    adjustStage kind fun s => { s with inputs := s.inputs ++ [v] }
    return v
  else refuseInterface ty

def stageOutput (kind : StageKind) (name : String) (ty : Ty) : Build VarId := do
  if isInterfaceTy ty then
    let stage ← findStage kind
    let v ← addVariable
      ⟨name, ty, .stageOutput (.ofNat stage.outputs.length), some kind, none, 0⟩
    adjustStage kind fun s => { s with outputs := s.outputs ++ [v] }
    return v
  else refuseInterface ty

def findBuiltin (p : Program) (value : Builtin) : List VarId → Outcome (Option VarId)
  | [] => .ok none
  | v :: rest => do
    if (← p.vars.fetch v).kind = .builtin value then return some v
    else findBuiltin p value rest

def builtin (value : Builtin) : Build VarId := do
  let stage ← findStage value.stage
  match ← findBuiltin (← get) value stage.builtins with
  | some v => return v
  | none =>
    let v ← addVariable ⟨value.name, value.ty, .builtin value, some value.stage, none, 0⟩
    adjustStage value.stage fun s => { s with builtins := s.builtins ++ [v] }
    return v

end ShaderGraph.Build
