import Mathlib.Data.List.Count
import ShaderGraph.Proofs.Emitting
import ShaderGraph.Proofs.Identifiers
import ShaderGraph.Proofs.Sections
/-! How a WGSL module wires the variables that a stage uses, by its lines. A uniform has a binding.
An input or output has a member in a structure of its stage, a module variable, and a copy before the
body or behind it; they go by its name, so two variables of a stage that are named alike have two of
them. A local is declared before the statement that uses it, in a block that is still open there. -/
namespace ShaderGraph

open Compile Relation

namespace Program

variable (p : Program)

def Touches (s : StmtId) (v : VarId) : Prop :=
  ∃ node, p.stmts.get? s = some node ∧ ((∃ e, p.Uses node.kind e ∧ p.Reads e v) ∨
    ∃ target value, node.kind = .act (.assign target value) ∧ p.root target = .ok (some v))

def names (stage : Stage) (output : Bool) : List String := (p.side stage output).filterMap p.name?

end Program

def Indented (level : Nat) (lines : List String) : Prop :=
  ∀ line ∈ lines, line = "" ∨ Starts (Writer.margin level) line

/-- One of the lines declares the variable, or heads the loop that counts in it, and no line behind
it leaves its block. -/
inductive Dialect.Declared (d : Dialect) (var : Variable) (lines : List String) : Prop
  | line {level : Nat} {init : Option String} {front between : List String}
      (split : lines = front ++ (Writer.margin level ++ d.declare var init) :: between)
      (stays : Indented level between)
  | header {level : Nat} {first last : String} {front between : List String}
      (split : lines = front ++ (Writer.margin level ++ d.loopHeader var first last) :: between)
      (stays : Indented (level + 1) between)

namespace Wgsl

variable (p : Program)

def Binds (v : VarId) (own : List Binding) : Prop :=
  ∃ var, p.vars.get? v = some var ∧ var.kind = .uniform ∧ Bound p v var own

end Wgsl

section

variable {p : Program} {r s : Report} {stage : Stage}

theorem Rooted.reads {e : ExprId} {v : VarId} (rooted : Rooted p e v) : p.Reads e v := by
  induction rooted with
  | read at_ op => exact ⟨_, .refl, _, at_, op⟩
  | column at_ op _ ih | element at_ op _ ih | swizzle at_ op _ _ ih =>
    obtain ⟨o, follows, read⟩ := ih
    exact ⟨o, .head (.operand ⟨_, at_, by rw [op]; exact List.mem_cons_self⟩) follows, read⟩

theorem Program.Touches.reads {s : StmtId} {v : VarId} (touches : p.Touches s v) :
    ∃ node e, p.stmts.get? s = some node ∧ p.Uses node.kind e ∧ p.Reads e v := by
  obtain ⟨node, at_, ⟨e, uses, reads⟩ | ⟨target, value, kind, rooted⟩⟩ := touches
  · exact ⟨node, e, at_, uses, reads⟩
  · exact ⟨node, target, at_, kind ▸ .target, (rootedOf rooted).reads⟩

theorem marginStarts (level more : Nat) :
    Starts (Writer.margin level) (Writer.margin (level + more)) := by
  unfold Starts
  rw [marginText, marginText, Nat.mul_add, List.replicate_add]
  exact List.prefix_append _ _

theorem openIndented {items : Listing} {level more : Nat}
    (stays : ∀ front, front <+: items → front.count .dedent ≤ front.count .indent + more) :
    Indented level (items.shown (level + more)) := by
  induction items generalizing more with
  | nil => exact fun _ none => by cases none
  | cons item rest ih =>
    have behind (front : Listing) (part : front <+: rest) :=
      stays (item :: front) ((List.prefix_cons_inj item).mpr part)
    cases item with
    | line text =>
      refine List.forall_mem_cons.mpr ⟨?_, ih fun front part => by simpa using behind front part⟩
      split
      · exact .inl rfl
      · exact .inr (marginStarts level more).append
    | blank =>
      refine List.forall_mem_cons.mpr ⟨.inl rfl, ih fun front part => ?_⟩
      simpa using behind front part
    | indent =>
      have deeper : ∀ front, front <+: rest →
          front.count .dedent ≤ front.count .indent + (more + 1) := by
        intro front part
        simpa [Nat.add_right_comm, Nat.add_assoc] using behind front part
      exact ih deeper
    | dedent =>
      have one : 1 ≤ more := by simpa using behind [] List.nil_prefix
      obtain ⟨fewer, rfl⟩ := Nat.exists_eq_add_of_le' one
      have outer : ∀ front, front <+: rest → front.count .dedent ≤ front.count .indent + fewer := by
        intro front part
        simpa [← Nat.add_assoc] using behind front part
      exact ih outer

theorem Listing.Open.indented {items : Listing} (stays : items.Open) (level : Nat) :
    Indented level (items.shown level) := by
  have bare : ∀ front, front <+: items → front.count .dedent ≤ front.count .indent + 0 := stays
  exact openIndented bare

theorem Introduced.lines {d : Dialect} {var : Variable} {before : Listing}
    (introduced : Introduced d var before) (declares : ∀ init, d.declare var init ≠ "")
    (heads : ∀ first last, d.loopHeader var first last ≠ "") (level : Nat) :
    d.Declared var (before.shown level) := by
  have full {text : String} (some_ : text ≠ "") : ¬ text.isEmpty = true := fun empty =>
    some_ (String.isEmpty_iff.mp empty)
  cases introduced with
  | @declared init front between split stays =>
    have lines : before.shown level = front.shown level ++
        (Writer.margin (front.reached level) ++ d.declare var init) ::
          between.shown (front.reached level) := by
      rw [split, shownAppend, Listing.shown, if_neg (full (declares init))]
    exact .line lines (stays.indented _)
  | @counted first last front between split stays =>
    have lines : before.shown level = front.shown level ++
        (Writer.margin (front.reached level) ++ d.loopHeader var first last) ::
          between.shown (front.reached level + 1) := by
      rw [split, shownAppend, Listing.shown, if_neg (full (heads first last))]
      rfl
    exact .header lines (stays.indented _)

structure Wgsl.EntryPoint.Follows (p : Program) (stage : Stage) (e : EntryPoint) : Prop where
  fields : ∀ output, (e.fields output).map Declaration.name =
    (if output && e.positionless then ["position"] else []) ++ p.names stage output
  mirrors : e.mirrors.map Declaration.name =
    (p.names stage false ++ p.names stage true).map (stage.kind.name ++ "_" ++ ·)
  copies : ∀ output, (e.copies output).map Declaration.name =
    (p.names stage output).map (stage.kind.name ++ "_" ++ ·)

theorem servedNames {vs : List VarId} {ms : List Wgsl.Member}
    (serve : List.Forall₂ (Wgsl.Serves p) vs ms) :
    ms.map (fun m => m.var.name) = vs.filterMap p.name? := by
  induction serve with
  | nil => rfl
  | @cons v m _ _ at_ _ ih =>
    have named : p.name? v = some m.var.name := congrArg (Option.map Variable.name) at_
    rw [List.map_cons, ih, List.filterMap_cons_some named]

theorem sideListed {output : Bool} {v : VarId} (listed : v ∈ p.side stage output) :
    v ∈ stage.tables :=
  (List.mem_filter.mp listed).1

theorem Built.follows (built : Built p) {o : Options} {e : Wgsl.EntryPoint}
    (inside : stage ∈ p.stages) (ran : Wgsl.entryPoint p o stage r = .ok e s) : e.Follows p stage := by
  obtain ⟨-, ⟨_, _, ins⟩, ⟨_, _, outs⟩, -⟩ := wgslEntryOk ran
  have serves (output : Bool) :
      List.Forall₂ (Wgsl.Serves p) (p.side stage output) (e.members output) := by
    cases output with
    | false => exact (built.sideMembers inside ins).imp fun _ _ lists => lists.serves
    | true => exact (built.sideMembers inside outs).imp fun _ _ lists => lists.serves
  refine ⟨fun output => ?_, ?_, fun output => ?_⟩
  · rw [Wgsl.EntryPoint.fields, List.map_append, List.map_map]
    congr 1
    · split <;> rfl
    · exact servedNames (serves output)
  · rw [Wgsl.EntryPoint.mirrors, List.map_map, Program.names, Program.names,
      ← List.filterMap_append]
    have listed : ∀ v ∈ p.side stage false ++ p.side stage true, v ∈ stage.tables :=
      fun v among => (List.mem_append.mp among).elim sideListed sideListed
    exact built.mirrorNames inside listed (List.rel_append (serves false) (serves true))
  · rw [Wgsl.EntryPoint.copies, List.map_map, Program.names,
      ← built.mirrorNames inside (fun v => sideListed) (serves output)]
    refine List.map_congr_left fun m _ => ?_
    cases output <;> rfl

structure Wgsl.Made (p : Program) (o : Options) (m : Module) (stage : Stage)
    (e : EntryPoint) : Prop where
  inside : stage ∈ p.stages
  whole : ∃ r s, Module.ofProgram p o r = .ok m s
  part : ∃ r s, entryPoint p o stage r = .ok e s

variable {o : Options} {m : Wgsl.Module} {e : Wgsl.EntryPoint}

end

end ShaderGraph
