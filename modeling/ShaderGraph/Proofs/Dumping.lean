import ShaderGraph.Proofs.Generation
import ShaderGraph.Proofs.Safety
import ShaderGraph.Registry
/-! What is read off a whole program. A listing is written for every built program, checked or not;
a check passes or names an error, and a checked program is compiled or refused. None of them aborts. -/
namespace ShaderGraph

section

variable {p : Program}

theorem listedRemarkOk {reads : Stamps} (stamped : p.Stamped reads) :
    ∃ text, p.readsRemark reads = .ok text := by
  obtain ⟨text, made⟩ := stampsTextOk stamped
  unfold Program.readsRemark
  split
  · exact ⟨"", rfl⟩
  · exact ⟨_, by simp only [made, Bind.bind, Except.bind]; rfl⟩

theorem Built.actionLineOk (built : Built p) {action : Action} (proper : Proper p (.act action)) :
    ∃ text, p.actionLine action = .ok text := by
  cases proper with
  | @declare v var init at_ =>
    have read : p.vars.fetch v = .ok var := Arena.fetchOfGet at_
    cases init with
    | none => exact ⟨_, by simp only [Program.actionLine, read]; rfl⟩
    | some e =>
      obtain ⟨text, shown⟩ := built.pseudoOk e
      exact ⟨_, by simp only [Program.actionLine, read, shown, Bind.bind, Except.bind]; rfl⟩
  | @assign target value =>
    obtain ⟨t, left⟩ := built.pseudoTargetOk target
    obtain ⟨v, right⟩ := built.pseudoOk value
    exact ⟨_, by simp only [Program.actionLine, left, right, Bind.bind, Except.bind]; rfl⟩
  | @store storage coord value =>
    obtain ⟨s, texture⟩ := built.pseudoOk storage
    obtain ⟨c, place⟩ := built.pseudoOk coord
    obtain ⟨v, texel⟩ := built.pseudoOk value
    exact ⟨_, by simp only [Program.actionLine, texture, place, texel, Bind.bind, Except.bind]; rfl⟩

theorem Built.slotLineOk (built : Built p) {s : SlotId} {slot : Slot}
    (at_ : p.slots.get? s = some slot) : ∃ text, p.slotLine s = .ok text := by
  cases holds : slot.value with
  | none => exact ⟨_, by simp only [Program.slotLine, Arena.fetchOfGet at_, holds, Bind.bind, Except.bind]; rfl⟩
  | some value =>
    obtain ⟨text, shown⟩ := built.pseudoOk value
    exact ⟨_, by
      simp only [Program.slotLine, Arena.fetchOfGet at_, holds, shown, Bind.bind, Except.bind]
      rfl⟩

theorem Built.bodyLinesOk (built : Built p) {l : List StmtId} {body : Body} (laid : Laid p l body) :
    ∀ pad, ∃ lines, p.bodyLines pad body = .ok lines := by
  have remark : ∀ {s node}, p.stmts.get? s = some node → ∃ text, p.readsRemark node.reads = .ok text :=
    fun at_ => listedRemarkOk (built.stamped at_)
  induction laid with
  | done => exact fun _ => ⟨[], rfl⟩
  | act at_ kind _ next =>
    intro pad
    obtain ⟨line, written⟩ := built.actionLineOk (kind ▸ built.proper at_)
    obtain ⟨text, remarked⟩ := remark at_
    obtain ⟨later, rest⟩ := next pad
    exact ⟨_, by simp only [Program.bodyLines, written, remarked, rest, Bind.bind, Except.bind]; rfl⟩
  | @branch _ _ condition _ _ _ _ _ _ _ _ at_ _ _ _ _ _ _ inYes inNo next =>
    intro pad
    obtain ⟨text, remarked⟩ := remark at_
    obtain ⟨c, shown⟩ := built.pseudoOk condition
    obtain ⟨yes, accepted⟩ := inYes (Program.deeper pad)
    obtain ⟨no, rejected⟩ := inNo (Program.deeper pad)
    obtain ⟨later, rest⟩ := next pad
    exact ⟨_, by
      simp only [Program.bodyLines, remarked, shown, accepted, rejected, rest, Bind.bind, Except.bind]
      rfl⟩
  | @loop _ _ _ start stop _ _ _ _ _ at_ kind _ _ _ within next =>
    intro pad
    obtain ⟨text, remarked⟩ := remark at_
    have proper := built.proper at_
    rw [kind] at proper
    cases proper with
    | loop counterAt =>
      obtain ⟨first, started⟩ := built.pseudoOk start
      obtain ⟨last, stopped⟩ := built.pseudoOk stop
      obtain ⟨inside, nested⟩ := within (Program.deeper pad)
      obtain ⟨later, rest⟩ := next pad
      exact ⟨_, by
        simp only [Program.bodyLines, remarked, Arena.fetchOfGet counterAt, started, stopped, nested,
          rest, Bind.bind, Except.bind]
        rfl⟩
  | @block _ _ _ block _ _ _ _ at_ _ blockAt _ _ _ within next =>
    intro pad
    obtain ⟨text, remarked⟩ := remark at_
    obtain ⟨slots, listed⟩ : ∃ slots, block.inputs.mapM p.slotLine = .ok slots := by
      refine Outcome.mapMTotal fun s inside => ?_
      obtain ⟨slot, slotAt, -⟩ := (built.block blockAt).1 s inside
      exact built.slotLineOk slotAt
    obtain ⟨inside, nested⟩ := within (Program.deeper pad)
    obtain ⟨later, rest⟩ := next pad
    exact ⟨_, by
      simp only [Program.bodyLines, remarked, listed, nested, rest, Bind.bind, Except.bind]
      rfl⟩

theorem Built.stageLinesOk (built : Built p) {stage : Stage} (inside : stage ∈ p.stages) :
    ∃ lines, p.stageLines stage = .ok lines := by
  obtain ⟨interface, listed⟩ : ∃ lines,
      (stage.inputs ++ stage.outputs ++ stage.builtins).mapM p.interfaceLine = .ok lines := by
    refine Outcome.mapMTotal fun v there => ?_
    obtain ⟨var, at_⟩ := (built.stage inside).1 v there
    exact ⟨_, by simp only [Program.interfaceLine, Arena.fetchOfGet at_]; rfl⟩
  obtain ⟨home, homeAt, -⟩ := built.forest.mains inside
  obtain ⟨body, laidOut, laid⟩ := built.forest.body homeAt
  obtain ⟨lines, written⟩ := built.bodyLinesOk laid "    "
  exact ⟨_, by
    simp only [Program.stageLines, listed, Arena.fetchOfGet homeAt, laidOut, written, Bind.bind,
      Except.bind]
    rfl⟩

theorem Built.dumpOk (built : Built p) : ∃ text, p.dump = .ok text := by
  obtain ⟨uniforms, declared⟩ : ∃ lines, p.uniforms.mapM p.uniformLine = .ok lines := by
    refine Outcome.mapMTotal fun v inside => ?_
    obtain ⟨var, at_⟩ := built.uniform inside
    exact ⟨_, by simp only [Program.uniformLine, Arena.fetchOfGet at_]; rfl⟩
  obtain ⟨stages, written⟩ : ∃ lines, p.stages.mapM p.stageLines = .ok lines :=
    Outcome.mapMTotal fun _ inside => built.stageLinesOk inside
  exact ⟨_, by simp only [Program.dump, Program.lines, declared, written, Bind.bind, Except.bind]; rfl⟩

theorem Built.checkSafe (built : Built p) : p.check.Safe := by
  refine .bind ?cycles fun _ passed => .bind ?stages fun _ _ => .ofOk built.outputWarnings
  case cycles =>
    rcases built.cyclesEnd with passed | ⟨_, ⟨c, blamed⟩, failed⟩
    · exact .ofOk ⟨_, passed⟩
    · obtain ⟨slot, block, -, -, rfl⟩ := blamed.named
      rw [failed]
      exact .reject _
  case stages =>
    rcases built.walked (built.cyclesOk.mp passed) with ⟨ok, -⟩ | ⟨_, _, _, e, -, -, -, rejected⟩
    · exact .ofOk ⟨_, ok⟩
    · rw [rejected]
      exact .reject e

theorem Built.freezeSafe (built : Built p) : p.freeze.Safe := by
  intro cause failed
  unfold Program.freeze at failed
  split at failed
  · rename_i e refused
    cases failed
    exact built.checkSafe cause refused
  · cases failed

theorem Built.compileSafe (built : Built p) {b : Backend} (known : b ∈ Registry.full.value.backends)
    {f : Frozen} (frozen : f.program = p) (o : Options) (cause : Abort) :
    (b.compile f o).result ≠ .error (.aborted cause) := by
  subst frozen
  intro failed
  obtain ⟨log, passed⟩ := f.checked
  have checked := built.checked passed
  have target (listed : b = Wgsl.backend ∨ ∃ flavor, b = Glsl.backend flavor) : False :=
    (checked.blameless listed o).compile failed
  have all : Registry.full.value.backends =
      [listingBackend, Glsl.backend .desktop, Glsl.backend .es, Wgsl.backend] := rfl
  simp only [all, List.mem_cons, List.not_mem_nil, or_false] at known
  rcases known with rfl | desktop | es | wgsl
  · obtain ⟨text, written⟩ := built.dumpOk
    simp only [Backend.compile, listingBackend, written] at failed
    cases failed
  · exact target (.inr ⟨.desktop, desktop⟩)
  · exact target (.inr ⟨.es, es⟩)
  · exact target (.inl wgsl)

end

end ShaderGraph
