import ShaderGraph.Proofs.Emitting
import ShaderGraph.Proofs.Generation
import ShaderGraph.Proofs.Wording
/-! Braces in what is written for a body. Every statement form opens and closes its own blocks and
indents what stands in them, whatever stands there, so that a body is balanced and leaves the writer
at the level it was at. -/
namespace ShaderGraph

structure Named (name : String) : Prop where
  full : name ≠ ""
  plain : ∀ c ∈ name.toList, c.isWhitespace = false ∧ c ≠ '{' ∧ c ≠ '}'

instance (name : String) : Decidable (Named name) :=
  decidable_of_iff (name ≠ "" ∧ name.toList.all (fun c => !c.isWhitespace && c != '{' && c != '}') = true) <| by
    simp only [List.all_eq_true, Bool.and_eq_true, Bool.not_eq_true', bne_iff_ne, and_assoc]
    exact ⟨fun ⟨full, plain⟩ => ⟨full, plain⟩, fun named => ⟨named.full, named.plain⟩⟩

structure Program.Worded (p : Program) : Prop where
  vars : ∀ v var, p.vars.get? v = some var → Named var.name
  blocks : ∀ b block, p.blocks.get? b = some block → Named block.name

structure Dialect.Framed (d : Dialect) (p : Program) : Prop where
  spelling : d.spelling.Unbroken
  declare : ∀ var init, Named var.name → (∀ text ∈ init, Whole text) → Even (d.declare var init)
  loopHeader : ∀ var first last, Named var.name → Whole first → Whole last →
    Opener (d.loopHeader var first last)
  assign : ∀ target value lines, d.assign p target value = .ok lines → lines.Balanced
  store : ∀ s texture coord value, Whole texture → Whole coord → Whole value →
    Even (d.spelling.store texture s coord value ++ ";")

namespace Named

variable {name : String}

theorem whole (named : Named name) : Whole name := fun inside =>
  absurd (named.plain _ inside).1 (by decide)

theorem begun (named : Named name) : Begun name := by
  have full := named.full
  have plain := named.plain
  rw [ne_eq, ← String.toList_eq_nil_iff] at full
  unfold Begun
  cases code : name.toList with
  | nil => exact absurd code full
  | cons c rest =>
    obtain ⟨seen, -, apart⟩ := plain c (code ▸ List.mem_cons_self)
    simp [seen, apart]

theorem unbraced (named : Named name) : ¬ Braced name := fun braced =>
  (named.plain _ (List.mem_of_getLast? braced)).2.1 rfl

end Named

section

variable {p : Program} {d : Dialect} {annotate : Bool} {body : Body} {lines : Listing}
  {spots : List Spot}

theorem Program.Worded.unbroken (worded : p.Worded) : p.Unbroken where
  vars _ _ at_ := (worded.vars _ _ at_).whole
  blocks _ _ at_ := (worded.blocks _ _ at_).whole

theorem Program.Worded.of (vars : ∀ name ∈ p.vars.nodes.toList.map Variable.name, Named name)
    (blocks : ∀ name ∈ p.blocks.nodes.toList.map Block.name, Named name) : p.Worded where
  vars _ _ at_ := vars _ (List.mem_map_of_mem (Arena.memNodes.mpr ⟨_, at_⟩))
  blocks _ _ at_ := blocks _ (List.mem_map_of_mem (Arena.memNodes.mpr ⟨_, at_⟩))

theorem bracedInside {text : String} (braced : Braced text) : '{' ∈ text.toList :=
  List.mem_of_getLast? braced

theorem Program.Worded.remark (worded : p.Worded) {reads : Stamps} {remark : Listing}
    (remarked : Emit.readsRemark p annotate reads = .ok remark) : remark.Balanced := by
  unfold Emit.readsRemark at remarked
  split at remarked
  · simp only [Outcome.bindOk, Outcome.pureOk] at remarked
    obtain ⟨text, made, rfl⟩ := remarked
    have whole : Whole text := stampsAvoid (by decide) (by decide) (by decide) worded.unbroken.vars made
    have ends : ¬ Braced text := fun braced => by
      refine stampsAvoid (by decide) (by decide) (by decide) (fun v var at_ inside => ?_) made
        (bracedInside braced)
      exact ((worded.vars v var at_).plain _ inside).2.1 rfl
    exact .line (.of (by simp +decide [whole]) (by simp +decide) (by simp +decide [ends])) .done
  · cases remarked
    exact .done

theorem Program.Worded.mark (worded : p.Worded) {b : BlockId} {block : Block} {named : Listing}
    (at_ : p.blocks.get? b = some block)
    (marked : named = if annotate then [.line s!"// block {block.name}"] else []) : named.Balanced := by
  have plain := worded.blocks b block at_
  rw [marked]
  split
  · exact .line (.of (by simp +decide [plain.whole]) (by simp +decide) (by simp +decide [plain.unbraced]))
      .done
  · exact .done

theorem Dialect.Framed.action (framed : d.Framed p) (worded : p.Worded) {action : Action} {own : Listing}
    (written : Emit.actionLines p d action = .ok own) : own.Balanced := by
  have rendered {e : ExprId} {text : String} (made : p.render d.spelling e = .ok text) : Whole text :=
    framed.spelling.rendered worded.unbroken made
  cases action with
  | declare v init =>
    simp only [Emit.actionLines, Outcome.bindOk, Outcome.pureOk, Arena.fetchOk] at written
    obtain ⟨text, made, var, at_, rfl⟩ := written
    refine .line (framed.declare var text (worded.vars v var at_) fun t inside => ?_) .done
    cases init with
    | none =>
      cases made
      cases inside
    | some e =>
      rw [Option.mapM_some] at made
      obtain ⟨own, value, same⟩ := Outcome.bindOk.mp made
      cases same
      cases inside
      exact rendered value
  | assign => exact framed.assign _ _ _ written
  | store =>
    simp only [Emit.actionLines, Outcome.bindOk, Outcome.pureOk] at written
    obtain ⟨ty, -, s, texture, c, coord, v, value, rfl⟩ := written
    exact .line (framed.store ty s c v (rendered texture) (rendered coord) (rendered value)) .done

theorem testOpener {test : String} (whole : Whole test) : Opener s!"if ({test}) \x7b" :=
  .of (by simp +decide [whole]) (by simp +decide) (by simp +decide)

theorem braceOpener : Opener "\x7b" := .of (by decide) (by decide) (by decide)

theorem Laid.balanced (worded : p.Worded) (framed : d.Framed p) {l : List StmtId} (laid : Laid p l body)
    (writes : Writes p d annotate body lines spots) : lines.Balanced := by
  have rendered {e : ExprId} {text : String} (made : p.render d.spelling e = .ok text) : Whole text :=
    framed.spelling.rendered worded.unbroken made
  induction laid generalizing lines spots with
  | done =>
    cases writes
    exact .done
  | act _ _ _ next =>
    cases writes with
    | act remarked written more =>
      exact ((worded.remark remarked).append (framed.action worded written)).append (next more)
  | @branch _ _ _ _ _ _ _ _ _ reject _ _ _ _ _ _ _ _ inYes inNo next =>
    cases writes with
    | @branch _ _ _ _ _ _ _ _ _ yes no _ _ _ _ _ remarked tested first second more =>
      -- the two bodies share the block of the test: it is open behind the first of them
      have inner : (Listing.nested yes ++ Emit.otherwise reject no).Inside := by
        unfold Emit.otherwise
        split
        · exact (inYes first).nested.append fun _ => .done
        · exact (inYes first).nested.append (inNo second).nested.turned
      simpa using ((worded.remark remarked).append (.block (testOpener (rendered tested)) inner)).append
        (next more)
  | loop _ _ _ _ _ within next =>
    cases writes with
    | loop remarked starts stops at_ deep more =>
      have header := framed.loopHeader _ _ _ (worded.vars _ _ at_) (rendered starts) (rendered stops)
      simpa using ((worded.remark remarked).append (.block header (within deep).nested)).append (next more)
  | block _ _ blockAt _ _ _ within next =>
    cases writes with
    | block remarked marked deep more =>
      simpa using (((worded.remark remarked).append (worded.mark blockAt marked)).append
        (.block braceOpener (within deep).nested)).append (next more)

theorem Built.scopeBalanced (built : Built p) (worded : p.Worded) (framed : d.Framed p) {c : ScopeId}
    {w v : Walk} (emitted : Emit.scope p d annotate c w = .ok lines v) : lines.Balanced := by
  simp only [Emit.scope, ranBind, Emit.liftOk, Arena.fetchOk] at emitted
  obtain ⟨home, _, ⟨homeAt, -⟩, body, _, ⟨laidOut, -⟩, ran⟩ := emitted
  obtain ⟨spots, writes⟩ := bodyWrites ran
  exact (built.forest.laid homeAt laidOut).balanced worded framed writes

theorem Spelling.Unbroken.assigned {sp : Spelling} (unbroken : sp.Unbroken) (written : sp.Postfix)
    (worded : p.Worded) (reads : ∀ var, Named var.name → Begun (sp.read var)) {e : ExprId} {text : String}
    (made : p.renderTarget sp e = .ok text) : Whole text ∧ Begun text := by
  obtain ⟨whole, v, var, rest, at_, rfl⟩ := unbroken.target written worded.unbroken made
  exact ⟨whole, by simp [reads var (worded.vars v var at_)]⟩

theorem Glsl.framed (worded : p.Worded) : Glsl.dialect.Framed p where
  spelling := spellingUnbroken
  declare var init named fits := by
    have ty := typeNameWhole var.ty
    cases init with
    | some text =>
      have value := fits text rfl
      change Even s!"{typeName var.ty} {var.name} = {text};"
      exact .of (by simp +decide [ty, named.whole, value]) (by simp [ty]) (by simp +decide)
    | none =>
      change Even s!"{typeName var.ty} {var.name};"
      exact .of (by simp +decide [ty, named.whole]) (by simp [ty]) (by simp +decide)
  loopHeader var first last named starts stops := by
    change Opener s!"for (int {var.name} = {first}; {var.name} < {last}; {var.name}++) \x7b"
    exact .of (by simp +decide [named.whole, starts, stops]) (by simp +decide) (by simp +decide)
  assign target value lines made := by
    simp only [dialect, Outcome.bindOk, Outcome.pureOk] at made
    obtain ⟨t, targeted, v, rendered, rfl⟩ := made
    have reads (var : Variable) (named : Named var.name) : Begun (spelling.read var) := by
      change Begun (readText var)
      unfold readText
      split
      · rename_i b _
        cases b <;> decide
      · exact named.begun
    obtain ⟨whole, begun⟩ := spellingUnbroken.assigned spellingPostfix worded reads targeted
    have text := spellingUnbroken.rendered worded.unbroken rendered
    exact .line (.of (by simp +decide [whole, text]) (by simp [begun]) (by simp +decide)) .done
  store s texture coord value one two three := by
    obtain ⟨whole, begun⟩ := storeWhole s one two three
    change Even (spelling.store texture s coord value ++ ";")
    exact .of (by simp +decide [whole]) (by simp [begun]) (by simp +decide)

theorem Wgsl.nameBegun {v : Variable} (named : Named v.name) : Begun (moduleName v) := by
  unfold moduleName
  split
  · exact named.begun
  · exact named.begun
  · exact named.begun
  · rename_i stage _ _ _
    have word : Begun stage.name := by cases stage <;> decide
    simp [word]

theorem Wgsl.writeEven (worded : p.Worded) {stage : StageKind} {value text : String} (whole : Whole value)
    {w : Write} (made : w.text p (spelling stage) value = .ok text) : Even text := by
  have target {e : ExprId} {text : String} (made : p.renderTarget (spelling stage) e = .ok text) :
      Whole text ∧ Begun text :=
    (spellingUnbroken stage).assigned (spellingPostfix stage) worded (fun _ => nameBegun) made
  cases w with
  | hold =>
    cases made
    exact .of (by simp +decide [whole]) (by simp +decide) (by simp +decide)
  | part vector component source =>
    simp only [Write.text, Outcome.bindOk, Outcome.pureOk] at made
    obtain ⟨base, based, rfl⟩ := made
    obtain ⟨one, begun⟩ := target based
    have letter (c : Component) : Whole (toString c.letter) := by cases c <;> decide
    exact .of (by simp +decide [one, letter]) (by simp [begun]) (by simp +decide)
  | whole e =>
    simp only [Write.text, Outcome.bindOk, Outcome.pureOk] at made
    obtain ⟨t, targeted, rfl⟩ := made
    obtain ⟨one, begun⟩ := target targeted
    exact .of (by simp +decide [one, whole]) (by simp [begun]) (by simp +decide)

theorem Wgsl.framed (worded : p.Worded) (stage : StageKind) : (Wgsl.dialect stage).Framed p where
  spelling := spellingUnbroken stage
  declare var init named fits := by
    have ty := typeNameWhole var.ty
    cases init with
    | some text =>
      have value := fits text rfl
      change Even s!"var {var.name}: {typeName var.ty} = {text};"
      exact .of (by simp +decide [ty, named.whole, value]) (by simp +decide) (by simp +decide)
    | none =>
      change Even s!"var {var.name}: {typeName var.ty};"
      exact .of (by simp +decide [ty, named.whole]) (by simp +decide) (by simp +decide)
  loopHeader var first last named starts stops := by
    change Opener s!"for (var {var.name}: i32 = {first}; {var.name} < {last}; {var.name}++) \x7b"
    exact .of (by simp +decide [named.whole, starts, stops]) (by simp +decide) (by simp +decide)
  assign target value lines made := by
    change assign (spelling stage) p target value = .ok lines at made
    simp only [assign, Outcome.bindOk, Arena.fetchOk] at made
    obtain ⟨text, rendered, node, -, texts, written, made⟩ := made
    have whole := (spellingUnbroken stage).rendered worded.unbroken rendered
    have even : Listing.Balanced (texts.map .line) := .lines fun t inside => by
      obtain ⟨w, -, own⟩ := Outcome.mapMSource written inside
      exact writeEven worded whole own
    split at made
    · cases made
      exact even
    · cases made
      exact .block braceOpener even.nested
  store s texture coord value one two three := by
    obtain ⟨whole, begun⟩ : Whole ((spelling stage).store texture s coord value) ∧
      Begun ((spelling stage).store texture s coord value) := storeWhole s one two three
    change Even ((spelling stage).store texture s coord value ++ ";")
    exact .of (by simp +decide [whole]) (by simp [begun]) (by simp +decide)

theorem remarkSteady {reads : Stamps} {remark : Listing}
    (remarked : Emit.readsRemark p annotate reads = .ok remark) : remark.Steady := by
  unfold Emit.readsRemark at remarked
  split at remarked
  · simp only [Outcome.bindOk, Outcome.pureOk] at remarked
    obtain ⟨text, -, rfl⟩ := remarked
    exact .lines [_]
  · cases remarked
    exact .lines []

theorem namedSteady {block : Block} {named : Listing}
    (marked : named = if annotate then [.line s!"// block {block.name}"] else []) : named.Steady := by
  rw [marked]
  split
  · exact .lines [_]
  · exact .lines []

def Dialect.Steady (d : Dialect) (p : Program) : Prop :=
  ∀ ⦃target value lines⦄, d.assign p target value = .ok lines → lines.Steady

theorem actionSteady (steady : d.Steady p) {action : Action} {own : Listing}
    (written : Emit.actionLines p d action = .ok own) : own.Steady := by
  cases action with
  | declare v init =>
    simp only [Emit.actionLines, Outcome.bindOk, Outcome.pureOk] at written
    obtain ⟨text, -, var, -, rfl⟩ := written
    exact .lines [_]
  | assign => exact steady written
  | store =>
    simp only [Emit.actionLines, Outcome.bindOk, Outcome.pureOk] at written
    obtain ⟨ty, -, s, -, c, -, v, -, rfl⟩ := written
    exact .lines [_]

theorem Writes.steady (assigns : d.Steady p) (writes : Writes p d annotate body lines spots) :
    lines.Steady := by
  induction writes with
  | done => exact .lines []
  | act remarked written _ ih =>
    exact ((remarkSteady remarked).append (actionSteady assigns written)).append ih
  | branch remarked _ _ _ _ yes no ih =>
    refine (((remarkSteady remarked).append (yes.nested.line _)).append ?_).append (ih.line _)
    unfold Emit.otherwise
    split
    · exact .lines []
    · exact no.nested.line _
  | loop remarked _ _ _ _ _ deep ih =>
    exact ((remarkSteady remarked).append (deep.nested.line _)).append (ih.line _)
  | block remarked marked _ _ deep ih =>
    exact (((remarkSteady remarked).append (namedSteady marked)).append (deep.nested.line _)).append
      (ih.line _)

theorem Dialect.Plain.steady (plain : d.Plain) : d.Steady p := by
  obtain ⟨spelling, declare, loopHeader, rfl⟩ := plain
  intro target value lines made
  simp only [Outcome.bindOk, Outcome.pureOk] at made
  obtain ⟨t, -, v, -, rfl⟩ := made
  exact .lines [_]

theorem Wgsl.steady (stage : StageKind) : (Wgsl.dialect stage).Steady p := by
  intro target value lines made
  simp only [dialect, assign, Outcome.bindOk] at made
  obtain ⟨text, -, node, -, texts, -, made⟩ := made
  split at made
  · cases made
    exact .lines texts
  · cases made
    exact ((Listing.Steady.lines texts).nested.line _).append (.lines [_])

theorem scopeSteady (steady : d.Steady p) {c : ScopeId} {before after : Walk}
    (emitted : Emit.scope p d annotate c before = .ok lines after) : lines.Steady := by
  simp only [Emit.scope, ranBind, Emit.liftOk] at emitted
  obtain ⟨_, _, -, body, _, -, ran⟩ := emitted
  obtain ⟨spots, writes⟩ := bodyWrites ran
  exact writes.steady steady

theorem scopeAppends (steady : d.Steady p) {c : ScopeId} {before after : Walk}
    (emitted : Emit.scope p d annotate c before = .ok lines after) (w : Writer) :
    (∃ added, (w.write lines).text = w.text ++ added) ∧ (w.write lines).level = w.level := by
  have level := (scopeSteady steady emitted).level w.level
  refine ⟨⟨String.ofList (Listing.written w.level lines), String.toList_inj.mp ?_⟩, ?_⟩
  · rw [writeText, String.toList_append, String.toList_ofList]
  · rw [writeLevel, level]

end

end ShaderGraph
