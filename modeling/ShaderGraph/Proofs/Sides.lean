import Mathlib.Data.List.ReduceOption
import ShaderGraph.Proofs.Interface
import ShaderGraph.Proofs.Textures
/-! The two sides of a stage. What enters a stage and what leaves it are the members of two structures
in WGSL, which follow the tables of the stage one to one. -/
namespace ShaderGraph

open Compile

/-- Which way a value goes in a variable of a stage: `true` where it leaves the stage. -/
def VariableKind.leaves? : VariableKind → Option Bool
  | .stageInput _ => some false
  | .stageOutput _ => some true
  | .builtin b => some b.isOutput
  | _ => none

namespace Program

variable (p : Program)

def goes (output : Bool) (v : VarId) : Bool :=
  (p.vars.get? v).any fun var => var.kind.leaves? == some output

def side (stage : Stage) (output : Bool) : List VarId := stage.tables.filter (p.goes output)

end Program

namespace Wgsl

variable (p : Program)

def Serves (v : VarId) (m : Member) : Prop := p.vars.get? v = some m.var

def Lists (kind : StageKind) (output : Bool) (v : VarId) (m : Member) : Prop :=
  ∃ var, p.vars.get? v = some var ∧
    (locatedMember kind output var = some m ∨ builtinMember output var = some m)

end Wgsl

section

variable {p : Program} {r s : Report}

theorem Program.goesIff {v : VarId} {var : Variable} (at_ : p.vars.get? v = some var)
    {output : Bool} : p.goes output v = true ↔ var.kind.leaves? = some output := by
  rw [Program.goes, at_]
  exact beq_iff_eq

theorem Built.listedKind (built : Built p) {stage : Stage} (inside : stage ∈ p.stages) {v : VarId} :
    (v ∈ stage.inputs → ∃ location, p.Owns stage.kind v (.stageInput location)) ∧
      (v ∈ stage.outputs → ∃ location, p.Owns stage.kind v (.stageOutput location)) ∧
      (v ∈ stage.builtins → ∃ value, p.Owns stage.kind v (.builtin value)) := by
  obtain ⟨inputs, outputs⟩ := built.located inside
  obtain ⟨values, -, each⟩ := built.ownsBuiltins inside
  refine ⟨fun listed => ?_, fun listed => ?_, fun listed => ?_⟩
  · obtain ⟨j, at_⟩ := List.getElem?_of_mem listed
    obtain ⟨location, -, owns⟩ := inputs j v at_
    exact ⟨location, owns⟩
  · obtain ⟨j, at_⟩ := List.getElem?_of_mem listed
    obtain ⟨location, -, owns⟩ := outputs j v at_
    exact ⟨location, owns⟩
  · obtain ⟨value, -, -, owns⟩ := pairedSource each listed
    exact ⟨value, owns⟩

theorem tableMembers {f : Variable → Option Wgsl.Member} {output : Bool} {vs : List VarId}
    {vars : List Variable} (kept : ∀ v ∈ vs, ∀ var, p.vars.get? v = some var →
      ((f var).isSome = true ↔ var.kind.leaves? = some output))
    (fetched : vs.mapM p.vars.fetch = .ok vars) :
    List.Forall₂ (fun v m => ∃ var, p.vars.get? v = some var ∧ f var = some m)
      (vs.filter (p.goes output)) (vars.map f).reduceOption := by
  have all := Outcome.mapMOk.mp fetched
  clear fetched
  induction all with
  | nil => exact .nil
  | @cons v var vs vars read _ ih =>
    have at_ := Arena.fetchOk.mp read
    obtain ⟨here, later⟩ := List.forall_mem_cons.mp kept
    cases made : f var with
    | none =>
      have stays : ¬ p.goes output v = true := fun goes => by
        have some_ := (here var at_).mpr ((Program.goesIff at_).mp goes)
        rw [made] at some_
        cases some_
      rw [List.filter_cons_of_neg stays, List.map_cons, made, List.reduceOption_cons_of_none]
      exact ih later
    | some m =>
      have goes := (Program.goesIff at_).mpr ((here var at_).mp (by rw [made]; rfl))
      rw [List.filter_cons_of_pos goes, List.map_cons, made, List.reduceOption_cons_of_some]
      exact .cons ⟨var, at_, made⟩ (ih later)

theorem Built.sideSplit (built : Built p) {stage : Stage} (inside : stage ∈ p.stages)
    (output : Bool) :
    p.side stage output = (if output then stage.outputs else stage.inputs).filter (p.goes output) ++
      stage.builtins.filter (p.goes output) := by
  have inputs : ∀ v ∈ stage.inputs, ¬ p.goes true v = true := by
    intro v listed goes
    obtain ⟨location, var, at_, kind, -⟩ := (built.listedKind inside).1 listed
    have leaves := (Program.goesIff at_).mp goes
    rw [kind] at leaves
    cases leaves
  have outputs : ∀ v ∈ stage.outputs, ¬ p.goes false v = true := by
    intro v listed goes
    obtain ⟨location, var, at_, kind, -⟩ := (built.listedKind inside).2.1 listed
    have leaves := (Program.goesIff at_).mp goes
    rw [kind] at leaves
    cases leaves
  rw [Program.side, Stage.tables, List.filter_append, List.filter_append]
  cases output with
  | true => rw [List.filter_eq_nil_iff.mpr inputs]; rfl
  | false => rw [List.filter_eq_nil_iff.mpr outputs, List.append_nil]; rfl

theorem locatedOwn {kind : StageKind} {output : Bool} {var : Variable} {m : Wgsl.Member}
    (made : Wgsl.locatedMember kind output var = some m) : m.var = var := by
  unfold Wgsl.locatedMember at made
  cases which : var.kind <;> rw [which] at made <;> cases made <;> rfl

theorem builtinOwn {output : Bool} {var : Variable} {m : Wgsl.Member}
    (made : Wgsl.builtinMember output var = some m) : m.var = var := by
  unfold Wgsl.builtinMember at made
  cases which : var.kind with
  | builtin value =>
    rw [which] at made
    dsimp only at made
    split at made
    · cases made
      rfl
    · cases made
  | _ =>
    rw [which] at made
    cases made

theorem Wgsl.Lists.serves {kind : StageKind} {output : Bool} {v : VarId} {m : Wgsl.Member}
    (lists : Wgsl.Lists p kind output v m) : Wgsl.Serves p v m := by
  obtain ⟨var, at_, located | valued⟩ := lists
  · rwa [Wgsl.Serves, locatedOwn located]
  · rwa [Wgsl.Serves, builtinOwn valued]

theorem Built.sideMembers (built : Built p) {stage : Stage} (inside : stage ∈ p.stages)
    {output : Bool} {ms : List Wgsl.Member}
    (ran : Wgsl.members p stage output r = .ok ms s) :
    List.Forall₂ (Wgsl.Lists p stage.kind output) (p.side stage output) ms := by
  unfold Wgsl.members at ran
  rw [built.sideSplit inside]
  generalize same : (if output = true then stage.outputs else stage.inputs) = table at ran ⊢
  split at ran
  · exact (unsupportedOk ran).elim
  · simp only [bindOk, liftOk, pureOk] at ran
    obtain ⟨vars, _, ⟨located, -⟩, values, _, ⟨valued, -⟩, rfl, -⟩ := ran
    refine List.rel_append ((tableMembers ?_ located).imp fun v m ⟨var, at_, made⟩ => ⟨var, at_, .inl made⟩)
      ((tableMembers ?_ valued).imp fun v m ⟨var, at_, made⟩ => ⟨var, at_, .inr made⟩)
    · intro v listed var at_
      cases output with
      | true =>
        obtain ⟨location, _, there, kind, -⟩ := (built.listedKind inside).2.1 (same ▸ listed)
        cases at_.symm.trans there
        simp [Wgsl.locatedMember, kind, VariableKind.leaves?]
      | false =>
        obtain ⟨location, _, there, kind, -⟩ := (built.listedKind inside).1 (same ▸ listed)
        cases at_.symm.trans there
        simp [Wgsl.locatedMember, kind, VariableKind.leaves?]
    · intro v listed var at_
      obtain ⟨value, _, there, kind, -⟩ := (built.listedKind inside).2.2 listed
      cases at_.symm.trans there
      simp only [Wgsl.builtinMember, kind, VariableKind.leaves?, Option.some.injEq]
      split <;> simp [*]

theorem Built.listedGoes (built : Built p) {stage : Stage} (inside : stage ∈ p.stages) {v : VarId}
    (listed : v ∈ stage.tables) : ∃ var output, p.vars.get? v = some var ∧
      var.stage = some stage.kind ∧ var.kind.leaves? = some output := by
  obtain ⟨inputs, outputs, builtins⟩ := built.listedKind (v := v) inside
  rcases List.mem_append.mp listed with located | listed
  · rcases List.mem_append.mp located with listed | listed
    · obtain ⟨location, var, at_, kind, own⟩ := inputs listed
      exact ⟨var, false, at_, own, by rw [kind]; rfl⟩
    · obtain ⟨location, var, at_, kind, own⟩ := outputs listed
      exact ⟨var, true, at_, own, by rw [kind]; rfl⟩
  · obtain ⟨value, var, at_, kind, own⟩ := builtins listed
    exact ⟨var, value.isOutput, at_, own, by rw [kind]; rfl⟩

end

end ShaderGraph
