import ShaderGraph.Proofs.Bracing
import ShaderGraph.Proofs.Sides
/-! Sources that are well nested. Around the bodies stand headers, declarations, structures and
functions, each balanced by itself, so every file that a target makes is well nested. -/
namespace ShaderGraph

open Compile

section

variable {p : Program}

section

variable {version : GlslVersion} {o : Options} {r t : Report}

theorem Glsl.lineEven {v : Variable} {usage : Usage} {line : String} (named : Named v.name)
    (ran : uniformLine version o v usage r = .ok line t) : Even line := by
  have name := named.whole
  unfold uniformLine at ran
  cases kind : v.ty with
  | sampler s =>
    rw [kind] at ran
    obtain ⟨-, -, rfl⟩ := samplerLineOk ran
    have precise : Whole o.precision.qualifier := by cases o.precision <;> decide
    have ty := samplerNameWhole s
    split
    · exact .of (by simp +decide [precise, ty, name]) (by simp +decide) (by simp +decide)
    · exact .of (by simp +decide [ty, name]) (by simp +decide) (by simp +decide)
  | storage s =>
    rw [kind] at ran
    obtain ⟨format, made, rfl⟩ := imageLineOk ran
    have word : Whole format := by
      unfold imageFormat? at made
      split at made <;> cases made <;> decide
    have direction : Whole (access usage) := by
      unfold access
      split <;> decide
    have ty := imageNameWhole s
    exact .of (by simp +decide [word, direction, ty, name]) (by simp +decide) (by simp +decide)
  | array elem size =>
    rw [kind] at ran
    cases (pureOk.mp ran).1
    have ty := valueNameWhole elem
    exact .of (by simp +decide [ty, name]) (by simp +decide) (by simp +decide)
  | _ =>
    rw [kind] at ran
    cases (pureOk.mp ran).1
    have ty := typeNameWhole v.ty
    rw [kind] at ty
    exact .of (by simp +decide [ty, name]) (by simp +decide) (by simp +decide)

theorem Glsl.interfaceEven {stage : StageKind} {dir : Direction} {v : Variable} {line : String}
    (named : Named v.name) (made : interfaceLine version stage dir v = some line) : Even line := by
  obtain ⟨location, -, rfl⟩ := Option.map_eq_some_iff.mp made
  have name := named.whole
  have ty := typeNameWhole v.ty
  have way : Whole dir.qualifier ∧ Begun dir.qualifier := by cases dir <;> decide
  have flat : Whole (interpolation v.ty) ∧
      (Begun (interpolation v.ty) ∨ interpolation v.ty = "") := by
    unfold interpolation
    split <;> decide
  dsimp only
  split <;> split <;> refine .of ?_ ?_ ?_ <;> simp +decide [name, ty, way, flat, or_comm]

theorem Glsl.setApartBalanced {texts : List String} (even : ∀ t ∈ texts, Even t) (isEmpty : Bool) :
    (setApart isEmpty texts).Balanced := by
  unfold setApart
  split
  · exact .done
  · exact .blank (.lines even)

theorem Glsl.headerBalanced (version : GlslVersion) (o : Options) : (header version o).Balanced := by
  have first : Even s!"#version {version.directive}" := by
    cases version <;> exact .of (by decide) (by decide) (by decide)
  have float : Even s!"precision {o.precision.qualifier} float;" := by
    cases o.precision <;> exact .of (by decide) (by decide) (by decide)
  have int : Even s!"precision {o.precision.qualifier} int;" := by
    cases o.precision <;> exact .of (by decide) (by decide) (by decide)
  unfold header
  split
  · exact .line first (.line float (.line int .done))
  · exact .line first .done

theorem Glsl.workgroupBalanced {size : Option Workgroup} {lines : Listing}
    (ran : workgroupLines version size r = .ok lines t) : lines.Balanced := by
  unfold workgroupLines at ran
  split at ran
  · cases (pureOk.mp ran).1
    exact .done
  · split at ran
    · cases (pureOk.mp ran).1
      exact .blank (.line (.of (by simp +decide) (by simp +decide) (by simp +decide)) .done)
    · exact (unsupportedOk ran).elim

theorem Glsl.interfaceLinesEven (worded : p.Worded) {stage : StageKind} {dir : Direction}
    {vs : List VarId} {texts : List String} (made : interfaceLines p version stage dir vs = .ok texts) :
    ∀ t ∈ texts, Even t := by
  simp only [interfaceLines, Outcome.bindOk, Outcome.pureOk] at made
  obtain ⟨vars, fetched, rfl⟩ := made
  intro t inside
  obtain ⟨var, among, own⟩ := List.mem_map.mp (List.reduceOption_mem_iff.mp inside)
  obtain ⟨v, -, at_⟩ := Outcome.mapMSource fetched among
  exact interfaceEven (worded.vars v var (Arena.fetchOk.mp at_)) own

theorem Built.glslNested (built : Built p) (worded : p.Worded) {stage : Stage} {file : OutputFile}
    (ran : Glsl.stageFile p version o stage r = .ok file t) : WellNested file.source := by
  obtain ⟨-, workgroup, lines, inputs, outputs, body, ⟨_, _, sized⟩, ⟨_, _, declared⟩, read, written,
    ⟨_, emitted⟩, source⟩ := glslFileOk ran
  have uniforms : ∀ t ∈ lines, Even t := by
    intro t inside
    obtain ⟨v, -, var, usage, _, _, at_, -, made⟩ := pairedSource (uniformLinesEach declared) inside
    exact Glsl.lineEven (worded.vars v var at_) made
  have interface : ∀ t ∈ inputs ++ outputs, Even t := List.forall_mem_append.mpr
    ⟨Glsl.interfaceLinesEven worded read, Glsl.interfaceLinesEven worded written⟩
  have main := built.scopeBalanced worded (Glsl.framed worded) emitted
  have opener : Opener "void main() \x7b" := .of (by decide) (by decide) (by decide)
  rw [source]
  refine Listing.Balanced.wellNested ?_
  simpa using ((((Glsl.headerBalanced version o).append (Glsl.workgroupBalanced sized)).append
    (Glsl.setApartBalanced uniforms _)).append (Glsl.setApartBalanced interface _)).append
      (.blank (.block opener main.nested))

end

namespace Wgsl

structure Member.Marked (m : Member) : Prop where
  named : Named m.var.name
  mark : Whole m.mark ∧ Begun m.mark
  wire : ∀ ty ∈ m.wire, Whole ty

theorem Takes.even {number : UInt32} {v : VarId} {var : Variable} {own : List Binding}
    (named : Named var.name) (takes : Takes p number v var own) : ∀ b ∈ own, Even b.line := by
  have name := named.whole
  have line {number : UInt32} {space called ty : String} (one : Whole space) (two : Whole called)
      (three : Whole ty) : Even (Binding.line ⟨number, space, called, ty⟩) := by
    unfold Binding.line
    exact .of (by simp +decide [one, two, three]) (by simp +decide) (by simp +decide)
  cases takes with
  | @sampler t kind _ _ word =>
    have sampler : Whole kind := by rcases word with rfl | rfl <;> decide
    have companion : Whole s!"{var.name}_sampler" := by simp +decide [name]
    exact List.forall_mem_cons.mpr ⟨line (by decide) name (textureNameWhole t),
      List.forall_mem_singleton.mpr (line (by decide) companion sampler)⟩
  | @storage t usage =>
    have direction : Whole (access usage) := by
      unfold access
      split <;> decide
    exact List.forall_mem_singleton.mpr (line (by decide) name (storageNameWhole t direction))
  | value => exact List.forall_mem_singleton.mpr (line (by decide) name (typeNameWhole var.ty))

theorem locatedMarked {stage : StageKind} {output : Bool} {v : Variable} {m : Member}
    (named : Named v.name) (made : locatedMember stage output v = some m) : m.Marked := by
  have place (location : UInt32) : Member.Marked ⟨v, if isFlat stage output v.ty then
      s!"@location({location})" ++ " @interpolate(flat)" else s!"@location({location})", none⟩ := by
    refine ⟨named, ?_, fun _ none => by cases none⟩
    dsimp only
    split <;> simp +decide
  unfold locatedMember at made
  cases which : v.kind <;> rw [which] at made <;> cases made <;> exact place _

theorem builtinMarked {output : Bool} {v : Variable} {m : Member}
    (named : Named v.name) (made : builtinMember output v = some m) : m.Marked := by
  have word (b : Builtin) : Whole (builtinAttribute b).1 ∧ ∀ ty ∈ (builtinAttribute b).2, Whole ty := by
    cases b <;> decide
  unfold builtinMember at made
  cases which : v.kind with
  | builtin b =>
    rw [which] at made
    dsimp only at made
    split at made
    · cases made
      exact ⟨named, by simp +decide [word], (word b).2⟩
    · cases made
  | _ =>
    rw [which] at made
    cases made

theorem membersMarked (worded : p.Worded) {stage : Stage} {output : Bool} {ms : List Member}
    {r t : Report} (ran : members p stage output r = .ok ms t) : ∀ m ∈ ms, m.Marked := by
  unfold members at ran
  generalize (if output = true then stage.outputs else stage.inputs) = table at ran
  split at ran
  · exact (unsupportedOk ran).elim
  · simp only [bindOk, liftOk, pureOk] at ran
    obtain ⟨vars, _, ⟨located, -⟩, values, _, ⟨valued, -⟩, rfl, -⟩ := ran
    refine List.forall_mem_append.mpr ⟨fun m inside => ?_, fun m inside => ?_⟩
    · obtain ⟨var, among, own⟩ := List.mem_map.mp (List.reduceOption_mem_iff.mp inside)
      obtain ⟨v, -, at_⟩ := Outcome.mapMSource located among
      exact locatedMarked (worded.vars v var (Arena.fetchOk.mp at_)) own
    · obtain ⟨var, among, own⟩ := List.mem_map.mp (List.reduceOption_mem_iff.mp inside)
      obtain ⟨v, -, at_⟩ := Outcome.mapMSource valued among
      exact builtinMarked (worded.vars v var (Arena.fetchOk.mp at_)) own

namespace EntryPoint

variable {e : EntryPoint}

theorem structBalanced {name : String} {texts : List String} (named : Whole name)
    (even : ∀ t ∈ texts, Even t) : (structLines name texts).Balanced := by
  have opener : Opener s!"struct {name} \x7b" :=
    .of (by simp +decide [named]) (by simp +decide) (by simp +decide)
  simpa [structLines] using (Listing.Balanced.block opener (Listing.Balanced.lines even).nested).append
    (.blank .done)

theorem memberEven {m : Member} (marked : m.Marked) : Even m.line := by
  have name := marked.named.whole
  have ty : Whole (m.wire.getD (typeName m.var.ty)) := by
    cases wire : m.wire with
    | none => exact typeNameWhole _
    | some ty => exact marked.wire ty wire
  unfold Member.line
  exact .of (by simp +decide [marked.mark, name, ty]) (by simp [marked.mark]) (by simp +decide)

theorem copiesEven {m : Member} (marked : m.Marked) :
    Even (moduleVar m) ∧ Even (copyIn m) ∧ Even (copyOut m) := by
  have name := marked.named.whole
  have own := moduleNameWhole name
  have begun := nameBegun marked.named
  have ty := typeNameWhole m.var.ty
  have field : Whole ("input." ++ m.var.name) := by simp +decide [name]
  have value : Whole (if m.wire.isSome then (spelling .fragment).convert m.var.ty ("input." ++ m.var.name)
      else "input." ++ m.var.name) := by
    split
    · exact convertedWhole ty field
    · exact field
  refine ⟨?_, ?_, ?_⟩
  · unfold moduleVar
    exact .of (by simp +decide [own, ty]) (by simp +decide) (by simp +decide)
  · unfold copyIn
    exact .of (by simp +decide only [shownText, wholeAppend, own, value]) (by simp [begun])
      (by simp +decide)
  · unfold copyOut
    exact .of (by simp +decide [name, own]) (by simp +decide) (by simp +decide)

theorem markEven (e : EntryPoint) : Even e.mark := by
  unfold mark
  split
  · exact .of (by simp +decide) (by simp +decide) (by simp +decide)
  · cases e.stage <;> exact .of (by decide) (by decide) (by decide)

theorem structNames (e : EntryPoint) : Whole e.inputName ∧ Whole e.outputName := by
  unfold inputName outputName
  cases e.stage <;> decide

theorem headerOpener (e : EntryPoint) : Opener e.header := by
  obtain ⟨input, output⟩ := structNames e
  have stage : Whole e.stage.name := by cases e.stage <;> decide
  unfold header
  dsimp only
  split <;> split <;> refine .of ?_ ?_ ?_ <;> simp +decide [input, output, stage]

theorem epilogueBalanced (outs : ∀ m ∈ e.outputs, m.Marked) : e.epilogue.Balanced := by
  have output := (structNames e).2
  have first : Even s!"var output: {e.outputName};" :=
    .of (by simp +decide [output]) (by simp +decide) (by simp +decide)
  have zero : Listing.Balanced
      (if e.positionless then [.line "output.position = vec4<f32>(0.0);"] else []) := by
    split
    · exact .line (.of (by decide) (by decide) (by decide)) .done
    · exact .done
  have copies : Listing.Balanced (e.outputs.map (.line ∘ copyOut)) := by
    rw [← List.map_map]
    exact .lines (List.forall_mem_map.mpr fun m inside => (copiesEven (outs m inside)).2.2)
  have last : Listing.Balanced [.line "return output;"] :=
    .line (.of (by decide) (by decide) (by decide)) .done
  unfold epilogue
  split
  · exact .line first ((zero.append copies).append last)
  · exact .done

theorem balanced (ins : ∀ m ∈ e.inputs, m.Marked) (outs : ∀ m ∈ e.outputs, m.Marked)
    (body : e.body.Balanced) : e.listing.Balanced := by
  obtain ⟨inputName, outputName⟩ := structNames e
  have inputStruct : e.inputStruct.Balanced := by
    unfold inputStruct
    split
    · exact .done
    · exact structBalanced inputName (List.forall_mem_map.mpr fun m inside => memberEven (ins m inside))
  have outputStruct : e.outputStruct.Balanced := by
    unfold outputStruct
    split
    · refine structBalanced outputName (List.forall_mem_append.mpr ⟨?_, ?_⟩)
      · split
        · exact List.forall_mem_singleton.mpr (.of (by decide) (by decide) (by decide))
        · exact fun _ none => by cases none
      · exact List.forall_mem_map.mpr fun m inside => memberEven (outs m inside)
    · exact .done
  have moduleVars : e.moduleVars.Balanced := by
    unfold moduleVars
    dsimp only
    split
    · exact .done
    · rw [← List.map_map]
      have all := List.forall_mem_append.mpr ⟨ins, outs⟩
      exact .append (.lines (List.forall_mem_map.mpr fun m inside => (copiesEven (all m inside)).1))
        (.blank .done)
  have copies : Listing.Balanced (e.inputs.map (.line ∘ copyIn)) := by
    rw [← List.map_map]
    exact .lines (List.forall_mem_map.mpr fun m inside => (copiesEven (ins m inside)).2.1)
  have main := (copies.append body).append (epilogueBalanced outs)
  have entry := (Listing.Balanced.block (headerOpener e) main.nested).append (.blank .done)
  simpa [listing] using ((inputStruct.append outputStruct).append moduleVars).append
    (.line (markEven e) entry)

end EntryPoint

end Wgsl

theorem Built.wgslBalanced (built : Built p) (worded : p.Worded) {o : Options} {m : Wgsl.Module}
    {r t : Report} (ran : Wgsl.Module.ofProgram p o r = .ok m t) : m.listing.Balanced := by
  obtain ⟨⟨_, _, bound⟩, each⟩ := wgslModuleOk ran
  obtain ⟨groups, same, numbered⟩ := bindUniformsNumbered bound
  have bindings : Listing.Balanced (m.bindings.map (.line ∘ Wgsl.Binding.line)) := by
    rw [← List.map_map, same]
    refine .lines (List.forall_mem_map.mpr fun b inside => ?_)
    obtain ⟨own, listed, among⟩ := List.mem_flatten.mp inside
    obtain ⟨v, -, _, var, at_, takes⟩ := pairedSource numbered.each listed
    exact takes.even (worded.vars v var at_) b among
  have entries : ∀ l ∈ m.entryPoints.map Wgsl.EntryPoint.listing, l.Balanced := by
    refine List.forall_mem_map.mpr fun e inside => ?_
    obtain ⟨stage, -, -, _, _, made⟩ := pairedSource each inside
    obtain ⟨-, ⟨_, _, ins⟩, ⟨_, _, outs⟩, ⟨_, emitted⟩, -⟩ := wgslEntryOk made
    exact Wgsl.EntryPoint.balanced (Wgsl.membersMarked worded ins) (Wgsl.membersMarked worded outs)
      (built.scopeBalanced worded (Wgsl.framed worded stage.kind) emitted)
  unfold Wgsl.Module.listing
  refine .append ?_ (.flatten entries)
  split
  · exact .done
  · exact bindings.append (.blank .done)

theorem sourcesNested :
    (∀ f : Frozen, Reachable f.program → f.program.Worded →
      ∀ b : Backend, b = Wgsl.backend ∨ (∃ flavor, b = Glsl.backend flavor) →
      ∀ (o : Options) (out : Output), (b.compile f o).result = .ok out →
      ∀ file ∈ out.files, WellNested file.source) ∧
    ∀ (p : Program) (d : Dialect), d.Plain ∨ d = Glsl.dialect ∨ (∃ kind, d = Wgsl.dialect kind) →
      ∀ annotate c before lines after, Emit.scope p d annotate c before = .ok lines after →
      ∀ w : Writer, (∃ added, (w.write lines).text = w.text ++ added) ∧
        (w.write lines).level = w.level := by
  constructor
  · intro f reachable worded b known o out compiled file inside
    have built := reachableBuilt reachable
    obtain ⟨_, ran⟩ := compiledOk compiled
    have glsl {flavor : Glsl.Flavor} {r : Report}
        (ran : Glsl.files flavor f.program o {} = .ok out.files r) : WellNested file.source := by
      obtain ⟨version, -, each⟩ := glslFilesOk ran
      obtain ⟨stage, -, -, _, _, made⟩ := pairedSource each inside
      exact built.glslNested worded made
    rcases known with rfl | ⟨flavor, rfl⟩
    · obtain ⟨m, _, made, written⟩ := bindOk.mp ran
      rw [← (pureOk.mp written).1, List.mem_singleton] at inside
      rw [inside]
      exact (built.wgslBalanced worded made).wellNested
    · cases flavor with
      | desktop => exact glsl ran
      | es => exact glsl ran
  · intro p d known annotate c before lines after emitted
    have steady : d.Steady p := by
      rcases known with plain | rfl | ⟨kind, rfl⟩
      · exact plain.steady
      · exact Dialect.Plain.steady ⟨_, _, _, rfl⟩
      · exact Wgsl.steady kind
    exact scopeAppends steady emitted

def chosenRun : List Call :=
  [.addStage .fragment, .literal (.bool true), .literal (.int 0), .declare ⟨0⟩ "v" .int1 (some ⟨1⟩),
    .read ⟨0⟩, .branch ⟨0⟩ ⟨0⟩, .assign ⟨1⟩ ⟨2⟩ ⟨1⟩, .block ⟨2⟩ "use",
    .input ⟨0⟩ (some "x") .int1 (some ⟨2⟩), .assign ⟨3⟩ ⟨2⟩ ⟨3⟩]

theorem chosenRuns : ∃ p, Program.after { name := "p" } chosenRun = some p ∧ p.check = .ok [] ∧
    p.vars.nodes.toList.map Variable.name = ["v_0"] ∧
    p.blocks.nodes.toList.map Block.name = ["use_2"] ∧
    p.stages.map Stage.main = [⟨0⟩] :=
  ⟨_, rfl, rfl, rfl, rfl, rfl⟩

theorem chosenWritten : (Program.after { name := "p" } chosenRun).map (fun p =>
    (Wgsl.backend.stop? p { annotate := true }, (Glsl.backend .es).stop? p { annotate := true })) =
    some (none, none) := by decide +kernel

theorem sourcesNestedChosen : ∃ p f, Program.after { name := "p" } chosenRun = some p ∧
    f.program = p ∧ p.Worded ∧
    (∃ out, (Wgsl.backend.compile f { annotate := true }).result = .ok out ∧ out.files ≠ [] ∧
      ∀ file ∈ out.files, WellNested file.source) ∧
    (∃ out, ((Glsl.backend .es).compile f { annotate := true }).result = .ok out ∧
      ∀ file ∈ out.files, WellNested file.source) ∧
    ∃ lines after, Emit.scope p (Wgsl.dialect .fragment) true ⟨0⟩ {} = .ok lines after ∧
      (Writer.write ⟨"x", 7⟩ lines).level = 7 := by
  obtain ⟨p, ran, passed, vars, blocks, mains⟩ := chosenRuns
  have written := chosenWritten
  rw [ran] at written
  simp only [Option.map_some, Option.some.injEq, Prod.mk.injEq] at written
  obtain ⟨wgsl, glsl⟩ := written
  let f : Frozen := ⟨p, _, passed⟩
  have worded : p.Worded := .of (by rw [vars]; decide) (by rw [blocks]; decide)
  have reachable := (Reachable.new "p").after ran
  obtain ⟨nested, level⟩ := sourcesNested
  obtain ⟨one, first⟩ := compiles (f := f) wgsl
  obtain ⟨two, second⟩ := compiles (f := f) glsl
  have ⟨built, filled, acyclic⟩ := (reachableBuilt reachable).checked passed
  obtain ⟨stage, inside, main⟩ : ∃ stage ∈ p.stages, stage.main = ⟨0⟩ :=
    List.mem_map.mp (mains ▸ List.mem_singleton_self _)
  obtain ⟨lines, after, emitted⟩ : ∃ lines after,
      Emit.scope p (Wgsl.dialect .fragment) true stage.main {} = .ok lines after :=
    built.scopeFlows filled acyclic (built.wgslAssigns filled acyclic .fragment) inside {}
  have sources := nested f reachable worded
  refine ⟨p, f, ran, rfl, worded,
    ⟨one, first, ?_, sources _ (.inl rfl) _ _ first⟩,
    ⟨two, second, sources _ (.inr ⟨_, rfl⟩) _ _ second⟩, lines, after, main ▸ emitted,
    (level p _ (.inr (.inr ⟨_, rfl⟩)) _ _ _ _ _ emitted ⟨"x", 7⟩).2⟩
  obtain ⟨_, made⟩ := compiledOk first
  obtain ⟨m, _, -, file⟩ := bindOk.mp made
  rw [← (pureOk.mp file).1]
  exact List.cons_ne_nil _ _

end

end ShaderGraph
