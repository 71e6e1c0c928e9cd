import ShaderGraph.Proofs.Stamping
import ShaderGraph.Proofs.Sides
/-! The warning of a vertex stage that has no position. A target looks at the built-ins that the
stage has asked for, and not at what is assigned: it warns just where the position was never asked
for. Nothing is assigned to it then, but it may have been asked for, and read, and still never be
assigned. -/
namespace ShaderGraph

open Compile

namespace Program

variable (p : Program)

def Requested (value : Builtin) : Prop :=
  ∃ v var, p.vars.get? v = some var ∧ var.kind = .builtin value

def Assigned (value : Builtin) : Prop :=
  ∃ s node target assigned v var, p.stmts.get? s = some node ∧
    node.kind = .act (.assign target assigned) ∧ p.root target = .ok (some v) ∧
    p.vars.get? v = some var ∧ var.kind = .builtin value

theorem Assigned.requested {p : Program} {value : Builtin} (assigned : p.Assigned value) :
    p.Requested value := by
  obtain ⟨_, _, _, _, v, var, -, -, -, at_, kind⟩ := assigned
  exact ⟨v, var, at_, kind⟩

end Program

inductive Backend.Complains : Backend → Diagnostic → Prop
  | glsl (flavor : Glsl.Flavor) :
      Complains (Glsl.backend flavor) (.stageWarning .vertex "never writes the position built-in")
  | wgsl : Complains Wgsl.backend
      (.stageWarning .vertex "never writes the position built-in; it is left at zero")

def Tells {α : Type} (d : Diagnostic) (x : Compile α) (added : Prop) : Prop :=
  ∀ r a s, x r = .ok a s → (d ∈ s.diagnostics ↔ d ∈ r.diagnostics ∨ added)

namespace Tells

variable {α β : Type} {d : Diagnostic} {one two : Prop}

theorem congr {x : Compile α} (first : Tells d x one) (same : one ↔ two) : Tells d x two :=
  same.eq ▸ first

theorem pure (a : α) : Tells d (Pure.pure a : Compile α) False := by
  intro r b s ran
  cases ran
  rw [or_false]

theorem bind {x : Compile α} {f : α → Compile β} (first : Tells d x one)
    (second : ∀ a, Tells d (f a) two) : Tells d (x >>= f) (one ∨ two) := by
  intro r b s ran
  obtain ⟨a, t, here, later⟩ := bindOk.mp ran
  rw [second a t b s later, first r a t here, or_assoc]

theorem after {x : Compile α} {f : α → Compile β} (first : Tells d x False)
    (second : ∀ a, Tells d (f a) one) : Tells d (x >>= f) one :=
  (first.bind second).congr (by rw [false_or])

theorem lift {x : Outcome α} {f : α → Compile β} (second : ∀ a, x = .ok a → Tells d (f a) one) :
    Tells d (liftM x >>= f) one := by
  cases x with
  | ok a => exact second a rfl
  | error e =>
    intro r b s ran
    cases ran

theorem refuse (why : Refusal) : Tells d (Compile.refuse why : Compile α) one :=
  fun _ _ _ ran => by cases ran

theorem note (m : Message) : Tells d (Compile.note m) False := by
  intro r a s ran
  cases ran
  rw [or_false]

theorem diagnose (other : Diagnostic) : Tells d (Compile.diagnose other) (d = other) := by
  intro r a s ran
  cases ran
  simp

theorem walk {x : Emit α} (silent : ∀ a w, x {} = .ok a w → d ∉ w.diagnostics) :
    Tells d (Compile.walk x) False := by
  intro r a s ran
  unfold Compile.walk at ran
  split at ran
  · rename_i w walked
    cases ran
    simp [silent _ _ walked]
  · cases ran

theorem ite {c : Prop} [Decidable c] {x y : Compile α} (yes : c → Tells d x one)
    (no : ¬ c → Tells d y one) : Tells d (if c then x else y) one := by
  split
  · exact yes ‹_›
  · exact no ‹_›

theorem mapM {f : α → Compile β} {as : List α} {each : α → Prop}
    (tells : ∀ a ∈ as, Tells d (f a) (each a)) : Tells d (as.mapM f) (∃ a ∈ as, each a) := by
  induction as with
  | nil => exact (pure _).congr (by simp)
  | cons a rest ih =>
    rw [List.mapM_cons]
    have first := tells a List.mem_cons_self
    have later := ih fun b inside => tells b (List.mem_cons_of_mem _ inside)
    refine (first.bind fun _ => later.bind fun _ => pure _).congr ?_
    simp

end Tells

section

variable {p : Program}

theorem Built.builtinListed (built : Built p) {v : VarId} {var : Variable} {value : Builtin}
    (at_ : p.vars.get? v = some var) (kind : var.kind = .builtin value) :
    ∃ stage ∈ p.stages, stage.kind = value.stage ∧ v ∈ stage.builtins := by
  have plain : var.isLexical = false := by rw [Variable.isLexical, kind]; rfl
  rcases List.mem_append.mp (built.tableListed at_ plain) with uniform | table
  · obtain ⟨_, there, other⟩ := built.uniformKind uniform
    cases at_.symm.trans there
    cases kind.symm.trans other
  · obtain ⟨stage, among, listed⟩ := List.mem_flatMap.mp table
    obtain ⟨inputs, outputs, -⟩ := built.listedKind (v := v) among
    rcases List.mem_append.mp listed with located | listed
    · rcases List.mem_append.mp located with listed | listed
      · obtain ⟨_, _, there, other, -⟩ := inputs listed
        cases at_.symm.trans there
        cases kind.symm.trans other
      · obtain ⟨_, _, there, other, -⟩ := outputs listed
        cases at_.symm.trans there
        cases kind.symm.trans other
    · obtain ⟨values, -, each⟩ := built.ownsBuiltins among
      obtain ⟨again, -, own, _, there, other, -⟩ := pairedSource each listed
      cases at_.symm.trans there
      cases kind.symm.trans other
      exact ⟨stage, among, own.symm, listed⟩

theorem Built.usesRequested (built : Built p) {stage : Stage} (inside : stage ∈ p.stages)
    {value : Builtin} (own : stage.kind = value.stage) {uses : Bool}
    (ran : Glsl.usesBuiltin p value stage = .ok uses) : uses = true ↔ p.Requested value := by
  constructor
  · rintro rfl
    obtain ⟨v, -, found⟩ := anySome ran
    simp only [Outcome.bindOk, Outcome.pureOk, Arena.fetchOk, beq_iff_eq] at found
    obtain ⟨var, at_, kind⟩ := found
    exact ⟨v, var, at_, kind⟩
  · intro requested
    obtain ⟨v, var, at_, kind⟩ := requested
    obtain ⟨other, among, same, listed⟩ := built.builtinListed at_ kind
    have one : other = stage :=
      List.inj_on_of_nodup_map built.kinds among inside (same.trans own.symm)
    subst one
    refine anyHas ran listed ?_
    simp only [Outcome.bindOk, Outcome.pureOk, Arena.fetchOk, beq_iff_eq]
    exact ⟨var, at_, kind⟩

theorem Built.positionless (built : Built p) {stage : Stage} (inside : stage ∈ p.stages)
    {positioned : Bool} (ran : Glsl.usesBuiltin p .position stage = .ok positioned) :
    (stage.kind = .vertex && !positioned) = true ↔
      stage.kind = .vertex ∧ ¬ p.Requested .position := by
  rw [Bool.and_eq_true, decide_eq_true_eq, Bool.not_eq_true', ← Bool.not_eq_true]
  refine and_congr_right fun vertex => not_congr (built.usesRequested inside ?_ ran)
  rw [vertex]
  rfl

theorem staleMessage (kind : StageKind) (block : Block) (s : Stamp) (reached : UInt32) :
    ∃ rest, (p.staleWarning kind block s reached).message = "block " ++ rest := by
  simp only [Program.staleWarning, Diagnostic.stageWarning, String.append_assoc]
  exact ⟨_, rfl⟩

theorem Built.silent (built : Built p) {stage : Stage} (inside : stage ∈ p.stages) {d : Dialect}
    {annotate : Bool} {lines : Listing} {after : Walk} {other : Diagnostic}
    (ran : Emit.scope p d annotate stage.main {} = .ok lines after)
    (differs : ∀ rest, other.message ≠ "block " ++ rest) : other ∉ after.diagnostics := by
  have forest := built.forest
  obtain ⟨home, homeAt, -⟩ := forest.mains inside
  obtain ⟨body, laidOut, -⟩ := forest.body homeAt
  obtain ⟨-, said⟩ := forest.scopeReplays homeAt laidOut [] {} lines after rfl ran
  rw [said, List.nil_append]
  intro warned
  obtain ⟨visit, -, warned⟩ := List.mem_flatMap.mp warned
  obtain ⟨⟨s, reached⟩, -, rfl⟩ := List.mem_map.mp warned
  obtain ⟨rest, message⟩ := staleMessage (p := p) home.stage visit.block s reached
  exact differs rest message

theorem Backend.Complains.differs {b : Backend} {d : Diagnostic} (complains : b.Complains d)
    (rest : String) : d.message ≠ "block " ++ rest := by
  intro same
  have first := congrArg (fun text => text.toList.head?) same
  rw [String.toList_append] at first
  cases complains <;> cases first

section

variable {d : Diagnostic}

theorem Tells.workgroup (version : GlslVersion) (w : Option Workgroup) :
    Tells d (Glsl.workgroupLines version w) False := by
  cases w with
  | none => exact .pure _
  | some w => exact .ite (fun _ => .pure _) fun _ => .refuse _

theorem Tells.uniform (version : GlslVersion) (o : Options) (v : Variable) (usage : Usage) :
    Tells d (Glsl.uniformLine version o v usage) False := by
  unfold Glsl.uniformLine
  split
  · exact .ite (fun _ => .refuse _) fun _ => .ite (fun _ => .refuse _) fun _ =>
      .ite (fun _ => .pure _) fun _ => .pure _
  · refine .ite (fun _ => .refuse _) fun _ => ?_
    split
    · exact .refuse _
    · exact .ite (fun _ => .refuse _) fun _ => .pure _
  · exact .pure _
  · exact .pure _

theorem Tells.uniforms (version : GlslVersion) (o : Options) (vs : List VarId) :
    Tells d (Glsl.uniformLines p version o vs) False := by
  induction vs with
  | nil => exact .pure _
  | cons v rest ih =>
    exact .lift fun _ _ => .lift fun _ _ => .after (.uniform _ _ _ _) fun _ =>
      .after ih fun _ => .pure _

theorem Tells.version (flavor : Glsl.Flavor) (asked : GlslVersion) {stage : StageKind}
    (about : d.stage = some stage) : Tells d (Glsl.chooseVersion flavor asked) False := by
  refine .ite (fun _ => .pure _) fun _ => ?_
  refine .after ((Tells.diagnose _).congr ⟨fun same => ?_, False.elim⟩) fun _ => .pure _
  rw [same] at about
  cases about

theorem Tells.binding (number : UInt32) (v : VarId) :
    Tells d (Wgsl.uniformBindings p number v) False := by
  refine .lift fun var _ => ?_
  split
  · exact .ite (fun _ => .refuse _) fun _ => .pure _
  · exact .lift fun _ _ => .ite (fun _ => .refuse _) fun _ => .ite (fun _ => .refuse _) fun _ =>
      .pure _
  · refine .ite (fun _ => .refuse _) fun _ => ?_
    split
    · exact .ite (fun _ => .pure _) fun _ => .refuse _
    · exact .pure _

theorem Tells.bindings (number : UInt32) (vs : List VarId) :
    Tells d (Wgsl.bindUniforms p number vs) False := by
  induction vs generalizing number with
  | nil => exact .pure _
  | cons v rest ih =>
    exact .after (.binding _ _) fun _ => .after (ih _) fun _ => .pure _

theorem Tells.members (stage : Stage) (output : Bool) :
    Tells d (Wgsl.members p stage output) False :=
  .ite (fun _ => .refuse _) fun _ => .lift fun _ _ => .lift fun _ _ => .pure _

end

theorem Built.tellsFirst {α : Type} (built : Built p) {stage : Stage} (inside : stage ∈ p.stages)
    {positioned : Bool} (ran : Glsl.usesBuiltin p .position stage = .ok positioned)
    {d other : Diagnostic} (same : stage.kind = .vertex → d = other) {rest : Compile α}
    (silent : Tells d rest False) :
    Tells d (if stage.kind = .vertex && !positioned then
        Compile.diagnose other >>= fun _ => rest else rest)
      (stage.kind = .vertex ∧ ¬ p.Requested .position) := by
  rw [← built.positionless inside ran]
  refine .ite (fun lacks => ?_) fun has => silent.congr ⟨False.elim, has⟩
  have vertex : stage.kind = .vertex := ((built.positionless inside ran).mp lacks).1
  have told := (Tells.diagnose (d := d) other).bind fun _ => silent
  exact told.congr ⟨fun _ => lacks, fun _ => .inl (same vertex)⟩

theorem Built.glslTells (built : Built p) (flavor : Glsl.Flavor) (o : Options) :
    Tells (.stageWarning .vertex "never writes the position built-in") (Glsl.files flavor p o)
      (∃ stage ∈ p.stages, stage.kind = .vertex ∧ ¬ p.Requested .position) := by
  have differs := (Backend.Complains.glsl flavor).differs
  generalize said : Diagnostic.stageWarning .vertex "never writes the position built-in" = d
    at differs ⊢
  have about : d.stage = some .vertex := by
    rw [← said]
    rfl
  refine .ite (fun _ => .refuse _) fun _ => ?_
  refine .after (.version _ _ about) fun version => .mapM fun stage inside => ?_
  have walk : Tells d (Compile.walk (Emit.scope p Glsl.dialect o.annotate stage.main)) False :=
    .walk fun _ _ ran => built.silent inside ran differs
  have shader : Tells d (Glsl.shader p version o stage) False :=
    .after (.workgroup _ _) fun _ => .after (.uniforms _ _ _) fun _ => .lift fun _ _ =>
      .lift fun _ _ => .after walk fun _ => .pure _
  have rest : Tells d (Glsl.settled p version o stage) False :=
    .after shader fun _ => .after (.note _) fun _ => .pure _
  exact .lift fun _ uses => built.tellsFirst inside uses (fun vertex => by rw [vertex, said]) rest

theorem Built.wgslTells (built : Built p) (o : Options) :
    Tells (.stageWarning .vertex "never writes the position built-in; it is left at zero")
      (Wgsl.files p o) (∃ stage ∈ p.stages, stage.kind = .vertex ∧ ¬ p.Requested .position) := by
  have differs := Backend.Complains.wgsl.differs
  generalize said : Diagnostic.stageWarning .vertex
    "never writes the position built-in; it is left at zero" = d at differs ⊢
  have entries : Tells d (Wgsl.Module.ofProgram p o)
      (∃ stage ∈ p.stages, stage.kind = .vertex ∧ ¬ p.Requested .position) := by
    refine .ite (fun _ => .refuse _) fun _ => .after (.bindings _ _) fun _ => ?_
    refine ((Tells.mapM fun stage inside => ?_).bind fun _ => .pure _).congr (by rw [or_false])
    have walk : Tells d
        (Compile.walk (Emit.scope p (Wgsl.dialect stage.kind) o.annotate stage.main)) False :=
      .walk fun _ _ ran => built.silent inside ran differs
    have rest (positioned stores : Bool) :
        Tells d (Wgsl.settled p o stage positioned stores) False :=
      .ite (fun _ => .refuse _) fun _ => .after (.members _ _) fun _ => .after (.members _ _)
        fun _ => .after walk fun _ => .after (.note _) fun _ => .pure _
    exact .lift fun positioned uses => .lift fun stores _ =>
      built.tellsFirst inside uses (fun vertex => by rw [vertex, said]) (rest positioned stores)
  exact (entries.bind fun _ => .pure _).congr (by rw [or_false])

theorem Built.complaint (built : Built p) {b : Backend} {d : Diagnostic} (complains : b.Complains d)
    (o : Options) : Tells d (b.files p o)
      (∃ stage ∈ p.stages, stage.kind = .vertex ∧ ¬ p.Requested .position) := by
  cases complains with
  | glsl flavor =>
    cases flavor with
    | desktop => exact built.glslTells .desktop o
    | es => exact built.glslTells .es o
  | wgsl => exact built.wgslTells o

theorem positionWarned {f : Frozen} (reachable : Reachable f.program) {stage : Stage}
    (inside : stage ∈ f.program.stages) (vertex : stage.kind = .vertex) {b : Backend}
    {d : Diagnostic} (complains : b.Complains d) {o : Options} {out : Output}
    (compiled : (b.compile f o).result = .ok out) :
    (d ∈ out.diagnostics ↔ ¬ f.program.Requested .position) ∧
      (d ∈ out.diagnostics → ¬ f.program.Assigned .position) ∧
      ((d ∈ out.diagnostics ↔ ¬ f.program.Assigned .position) ↔
        (f.program.Requested .position → f.program.Assigned .position)) := by
  have told : d ∈ out.diagnostics ↔ ¬ f.program.Requested .position := by
    obtain ⟨r, ran, said⟩ := compiledReport compiled
    rw [← said, (reachableBuilt reachable).complaint complains o {} _ r ran]
    constructor
    · rintro (none | ⟨_, -, -, unasked⟩)
      · cases none
      · exact unasked
    · exact fun unasked => .inr ⟨stage, inside, vertex, unasked⟩
  have asked : f.program.Assigned .position → f.program.Requested .position :=
    Program.Assigned.requested
  refine ⟨told, fun warned assigned => told.mp warned (asked assigned), ?_⟩
  rw [told, not_iff_not]
  exact ⟨fun same => same.mp, fun covered => ⟨covered, asked⟩⟩

def unaskedRun : List Call := [.addStage .vertex, .builtin .vertexIndex]

theorem unaskedRuns : ∃ p, Program.after { name := "p" } unaskedRun = some p ∧ p.check = .ok [] ∧
    p.stages.map Stage.kind = [.vertex] ∧
    p.vars.nodes.toList.map Variable.kind = [.builtin .vertexIndex] :=
  ⟨_, rfl, rfl, rfl, rfl⟩

theorem unaskedWritten : (Program.after { name := "p" } unaskedRun).map (fun p =>
    Wgsl.backend.stop? p {}) = some none := by decide +kernel

theorem positionWarnedUnasked : ∃ p f out, Program.after { name := "p" } unaskedRun = some p ∧
    f.program = p ∧ (Wgsl.backend.compile f {}).result = .ok out ∧ ¬ p.Requested .position ∧
    .stageWarning .vertex "never writes the position built-in; it is left at zero" ∈
      out.diagnostics ∧ ¬ p.Assigned .position := by
  obtain ⟨p, ran, passed, kinds, vars⟩ := unaskedRuns
  have written := unaskedWritten
  rw [ran] at written
  let f : Frozen := ⟨p, _, passed⟩
  obtain ⟨out, compiled⟩ := compiles (f := f) (Option.some.inj written)
  obtain ⟨stage, inside, vertex⟩ : ∃ stage ∈ p.stages, stage.kind = .vertex :=
    List.mem_map.mp (kinds ▸ List.mem_singleton_self _)
  obtain ⟨warned, unassigned, -⟩ :=
    positionWarned (f := f) ((Reachable.new "p").after ran) inside vertex .wgsl compiled
  have unasked : ¬ p.Requested .position := by
    intro requested
    obtain ⟨v, var, at_, kind⟩ := requested
    have listed := List.mem_map_of_mem (f := Variable.kind) (Arena.memNodes.mpr ⟨v, at_⟩)
    rw [vars, kind] at listed
    simp at listed
  exact ⟨p, f, out, ran, rfl, compiled, unasked, warned.mpr unasked,
    unassigned (warned.mpr unasked)⟩

def onlyReadRun : List Call :=
  [.addStage .vertex, .builtin .position, .read ⟨0⟩, .declare ⟨0⟩ "v" .float4 (some ⟨0⟩)]

theorem onlyReadRuns : ∃ p var, Program.after { name := "p" } onlyReadRun = some p ∧
    p.check = .ok [] ∧ p.stages.map Stage.kind = [.vertex] ∧ p.vars.get? ⟨0⟩ = some var ∧
    var.kind = .builtin .position ∧ p.kinds = [.act (.declare ⟨1⟩ (some ⟨0⟩))] :=
  ⟨_, _, rfl, rfl, rfl, rfl, rfl, rfl⟩

def Backend.said? (b : Backend) (p : Program) (o : Options) : Option (List Diagnostic) :=
  match b.files p o {} with
  | .ok _ r => some r.diagnostics
  | .error _ _ => none

theorem compiledSaying {b : Backend} {f : Frozen} {o : Options} {ds : List Diagnostic}
    (said : b.said? f.program o = some ds) :
    ∃ out, (b.compile f o).result = .ok out ∧ out.diagnostics = ds := by
  unfold Backend.said? at said
  split at said
  · rename_i files r ran
    cases said
    exact ⟨⟨files, r.diagnostics⟩, by simp only [Backend.compile, ran], rfl⟩
  · cases said

theorem onlyReadSilent : (Program.after { name := "p" } onlyReadRun).map (fun p =>
    ((Glsl.backend .desktop).said? p {}, (Glsl.backend .es).said? p { version := .es300 },
      Wgsl.backend.said? p {})) = some (some [], some [], some []) := by decide +kernel

theorem positionUnwarned : ∃ f stage, Program.after { name := "p" } onlyReadRun = some f.program ∧
    Reachable f.program ∧ stage ∈ f.program.stages ∧ stage.kind = .vertex ∧
    f.program.Requested .position ∧ ¬ f.program.Assigned .position ∧
    ∀ b d, Backend.Complains b d → ∃ o out, (b.compile f o).result = .ok out ∧
      d ∉ out.diagnostics := by
  obtain ⟨p, var, ran, passed, stages, at_, kind, kinds⟩ := onlyReadRuns
  have silent := onlyReadSilent
  rw [ran] at silent
  simp only [Option.map_some, Option.some.injEq, Prod.mk.injEq] at silent
  obtain ⟨desktop, es, wgsl⟩ := silent
  let f : Frozen := ⟨p, _, passed⟩
  obtain ⟨stage, inside, vertex⟩ : ∃ stage ∈ p.stages, stage.kind = .vertex :=
    List.mem_map.mp (stages ▸ List.mem_singleton_self _)
  have unassigned : ¬ p.Assigned .position := by
    intro assigned
    obtain ⟨s, node, target, value, -, -, nodeAt, named, -⟩ := assigned
    have listed := List.mem_of_getElem? (kindsAt nodeAt)
    rw [named, kinds] at listed
    simp at listed
  have quiet {b : Backend} {d : Diagnostic} {o : Options} (said : b.said? p o = some []) :
      ∃ o out, (b.compile f o).result = .ok out ∧ d ∉ out.diagnostics := by
    obtain ⟨out, compiled, none⟩ := compiledSaying (f := f) said
    exact ⟨o, out, compiled, none ▸ List.not_mem_nil⟩
  refine ⟨f, stage, ran, (Reachable.new "p").after ran, inside, vertex, ⟨⟨0⟩, var, at_, kind⟩,
    unassigned, fun b d complains => ?_⟩
  cases complains with
  | glsl flavor =>
    cases flavor with
    | desktop => exact quiet desktop
    | es => exact quiet es
  | wgsl => exact quiet wgsl

end

end ShaderGraph
