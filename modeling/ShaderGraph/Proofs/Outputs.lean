import ShaderGraph.Proofs.Cached
import ShaderGraph.Proofs.Interface
/-! Where the outputs of a block are declared. Each output is put in directly before the block's
statement, so behind the outputs of the block that stand there already; what other calls put into
the same list goes to its end, or before the statement of another block, which is never among
these declarations. -/
namespace ShaderGraph

def Program.DeclaresBare (p : Program) (d : StmtId) (v : VarId) : Prop :=
  ∃ node, p.stmts.get? d = some node ∧ node.kind = .act (.declare v none)

structure Program.Announces (p : Program) (d : StmtId) (v : VarId) : Prop where
  bare : p.DeclaresBare d v
  only : ∀ s, p.Declares s v → s = d

/-- In the list of statements, bare declarations of the variables, in order, end at `s`. -/
def Led (p : Program) (s : StmtId) (vars : List VarId) (statements : List StmtId) : Prop :=
  ∃ before declared after, statements = before ++ declared ++ s :: after ∧
    List.Forall₂ p.DeclaresBare declared vars

section

variable {p q : Program} {s mark new : StmtId} {vars : List VarId} {l statements : List StmtId}

theorem insertBeforeAppend (mark new : StmtId) (l rest : List StmtId) :
    Build.insertBefore mark new (l ++ rest) =
      if mark ∈ l then Build.insertBefore mark new l ++ rest
      else l ++ Build.insertBefore mark new rest := by
  induction l with
  | nil => rfl
  | cons t l ih =>
    simp only [List.cons_append, Build.insertBefore, ih, List.mem_cons]
    by_cases here : t = mark
    · simp [here]
    · by_cases inside : mark ∈ l <;> simp [here, inside, Ne.symm here]

theorem Program.DeclaresBare.mono (grows : Grows p q) {d : StmtId} {v : VarId}
    (declares : p.DeclaresBare d v) : q.DeclaresBare d v := by
  obtain ⟨node, at_, kind⟩ := declares
  obtain ⟨_, there, reads, rfl⟩ := grows.stmts at_
  exact ⟨_, there, kind⟩

theorem Program.DeclaresBare.noBlock {d : StmtId} {v : VarId} (declares : p.DeclaresBare d v)
    {stmt : Statement} {b : BlockId} (at_ : p.stmts.get? d = some stmt) :
    stmt.kind ≠ .block b := by
  obtain ⟨node, there, kind⟩ := declares
  cases at_.symm.trans there
  intro blocks
  cases kind.symm.trans blocks

namespace Led

theorem mono (grows : Grows p q) (led : Led p s vars statements) : Led q s vars statements := by
  obtain ⟨before, declared, after, split, each⟩ := led
  exact ⟨before, declared, after, split, each.imp fun _ _ one => one.mono grows⟩

theorem none (inside : s ∈ statements) : Led p s [] statements := by
  obtain ⟨before, after, rfl⟩ := List.append_of_mem inside
  exact ⟨before, [], after, by simp, .nil⟩

theorem atEnd (led : Led p s vars statements) (new : StmtId) :
    Led p s vars (Program.atEnd new statements) := by
  obtain ⟨before, declared, after, rfl, each⟩ := led
  exact ⟨before, declared, after ++ [new], by simp [Program.atEnd], each⟩

theorem own (led : Led p s vars statements) (once : statements.Nodup) {v : VarId}
    (declares : p.DeclaresBare new v) :
    Led p s (vars ++ [v]) (Build.insertBefore s new statements) := by
  obtain ⟨before, declared, after, rfl, each⟩ := led
  have absent : s ∉ before ++ declared := by
    intro inside
    exact (List.nodup_append.mp once).2.2 s inside s List.mem_cons_self rfl
  refine ⟨before, declared ++ [new], after, ?_, List.rel_append each (.cons declares .nil)⟩
  rw [insertBeforeAppend, if_neg absent, Build.insertBefore, if_pos rfl]
  simp

theorem other (led : Led p s vars statements) {stmt : Statement} {b : BlockId}
    (markAt : p.stmts.get? mark = some stmt) (blocks : stmt.kind = .block b) (apart : s ≠ mark)
    (new : StmtId) : Led p s vars (Build.insertBefore mark new statements) := by
  obtain ⟨before, declared, after, rfl, each⟩ := led
  have absent : mark ∉ declared := by
    intro inside
    obtain ⟨v, declares⟩ := forallOperand each inside
    exact declares.noBlock markAt blocks
  by_cases early : mark ∈ before
  · refine ⟨Build.insertBefore mark new before, declared, after, ?_, each⟩
    rw [List.append_assoc, insertBeforeAppend, if_pos early, List.append_assoc]
  · refine ⟨before, declared, Build.insertBefore mark new after, ?_, each⟩
    rw [insertBeforeAppend, if_neg (by simp [early, absent]), Build.insertBefore, if_neg apart]

end Led

def Ushered (p : Program) : Prop :=
  ∀ ⦃b node⦄, p.blocks.get? b = some node → ∃ home, p.scopes.get? node.parent = some home ∧
    Led p node.statement node.outputs home.statements

theorem Ushered.atEnd (ushered : Ushered p) (grows : Grows p q) {b : BlockId} {node : Block}
    (at_ : p.blocks.get? b = some node) {scopes : Arena .scope Scope}
    (more : p.scopes.Extends Eq scopes) {c : ScopeId}
    (placed : q.scopes = scopes.replace c fun s =>
      { s with statements := Program.atEnd new s.statements }) :
    ∃ home, q.scopes.get? node.parent = some home ∧
      Led q node.statement node.outputs home.statements := by
  obtain ⟨home, homeAt, led⟩ := ushered at_
  obtain ⟨_, there, rfl⟩ := more homeAt
  refine ⟨_, placed ▸ Arena.getReplaceOld there _, ?_⟩
  split
  · exact (led.mono grows).atEnd new
  · exact led.mono grows

theorem Ushered.output (ushered : Ushered p) (built : Built p) {b : BlockId} {node : Block}
    {home : Scope} {stem : String} {ty : Ty} (grows : Grows p (p.outputted b node home stem ty))
    (at_ : p.blocks.get? b = some node) : Ushered (p.outputted b node home stem ty) := by
  intro c inner innerAt
  obtain ⟨old, before, rfl⟩ := Arena.getReplaced innerAt
  have before : p.blocks.get? c = some old := before
  obtain ⟨around, aroundAt, led⟩ := ushered before
  obtain ⟨stmt, markAt, blocks, scope⟩ := built.forest.blocks at_
  have led := led.mono grows
  by_cases here : b = c
  · subst here
    cases at_.symm.trans before
    rw [if_pos rfl]
    refine ⟨_, Arena.getReplaceOld aroundAt _, ?_⟩
    have declares : (p.outputted b node home stem ty).DeclaresBare p.stmts.fresh p.vars.fresh :=
      ⟨_, Arena.getFresh .., rfl⟩
    rw [if_pos rfl]
    exact led.own (built.forest.once aroundAt) declares
  · have apart : old.statement ≠ node.statement := by
      intro same
      obtain ⟨again, againAt, others, -⟩ := built.forest.blocks before
      rw [same] at againAt
      cases againAt.symm.trans markAt
      exact here (StatementKind.block.inj (blocks.symm.trans others))
    obtain ⟨_, laterAt, reads, rfl⟩ := grows.stmts markAt
    rw [if_neg here]
    refine ⟨_, Arena.getReplaceOld aroundAt _, ?_⟩
    split
    · exact led.other laterAt blocks apart _
    · exact led

theorem Edit.ushered (edit : Edit p q) (built : Built p) (ushered : Ushered p) : Ushered q := by
  have grows := edit.grows
  have forest := (Built.edit built edit).forest
  have same : p.scopes.Extends Eq p.scopes := .refl fun _ => rfl
  cases edit with
  | spend | expr | uniform | stageInput | stageOutput | builtin | fill =>
    intro b node at_
    obtain ⟨home, homeAt, led⟩ := ushered at_
    exact ⟨home, homeAt, led.mono grows⟩
  | stage =>
    intro b node at_
    obtain ⟨home, homeAt, led⟩ := ushered at_
    exact ⟨home, Arena.getPushOld homeAt _, led.mono grows⟩
  | slot =>
    intro b node at_
    obtain ⟨old, before, rfl⟩ := Arena.getReplaced at_
    obtain ⟨home, homeAt, led⟩ := ushered before
    refine ⟨home, ?_, ?_⟩
    · split <;> exact homeAt
    · split <;> exact led.mono grows
  | declare | assign | store => exact fun b node at_ => ushered.atEnd grows at_ same rfl
  | branch =>
    exact fun b node at_ => ushered.atEnd grows at_
      (.trans Eq.trans (.push (fun _ => rfl) _) (.push (fun _ => rfl) _)) rfl
  | loop => exact fun b node at_ => ushered.atEnd grows at_ (.push (fun _ => rfl) _) rfl
  | block =>
    intro b node at_
    rcases Arena.getPushed at_ with ⟨rfl, rfl⟩ | before
    · obtain ⟨stmt, stmtAt, -, scope⟩ := forest.blocks at_
      obtain ⟨home, homeAt, inside⟩ := forest.placed stmtAt
      exact ⟨home, scope ▸ homeAt, .none inside⟩
    · exact ushered.atEnd grows before (.push (fun _ => rfl) _) rfl
  | output at_ => exact ushered.output built grows at_

theorem Built.ushered (built : Built p) : Ushered p := by
  induction built with
  | new name => exact fun _ _ at_ => absurd at_ emptyGet
  | edit before edit ih => exact edit.ushered before ih

theorem Built.introducedOnce (built : Built p) {one two : Statement} {v : VarId} {t : StmtId}
    (oneAt : p.stmts.get? s = some one) (first : one.kind.introduced? = some v)
    (twoAt : p.stmts.get? t = some two) (second : two.kind.introduced? = some v) : s = t := by
  induction built generalizing one two with
  | new name => exact absurd oneAt emptyGet
  | @edit p q before edit ih =>
    -- what an older statement brings in stands already, so no new statement brings it in
    have stands {old : Statement} {s : StmtId} (at_ : p.stmts.get? s = some old)
        (brings : old.kind.introduced? = some v) : v ≠ p.vars.fresh := by
      obtain ⟨var, varAt⟩ := (before.proper at_).introduced brings
      exact Arena.neFresh varAt
    rcases edit.introducedFrom oneAt first with ⟨old, oldAt, brings⟩ | ⟨rfl, new⟩
    · rcases edit.introducedFrom twoAt second with ⟨other, otherAt, again⟩ | ⟨-, new⟩
      · exact ih oldAt brings otherAt again
      · exact absurd new (stands oldAt brings)
    · rcases edit.introducedFrom twoAt second with ⟨other, otherAt, again⟩ | ⟨rfl, -⟩
      · exact absurd new (stands otherAt again)
      · rfl

theorem Built.announces (built : Built p) {d : StmtId} {v : VarId}
    (declares : p.DeclaresBare d v) : p.Announces d v := by
  refine ⟨declares, fun s again => ?_⟩
  obtain ⟨node, at_, kind⟩ := declares
  obtain ⟨other, otherAt, brings⟩ := bringsIff.mp (.inl again)
  exact built.introducedOnce otherAt brings at_ (by rw [kind]; rfl)

theorem Built.outputsAscend (built : Built p) {b : BlockId} {node : Block}
    (at_ : p.blocks.get? b = some node) : Ascending node.outputs := by
  induction built generalizing node with
  | new name => exact absurd at_ emptyGet
  | edit before edit ih =>
    cases edit with
    | output blockAt =>
      obtain ⟨old, there, rfl⟩ := Arena.getReplaced at_
      have there := there
      split
      · refine List.pairwise_append.mpr ⟨ih there, List.pairwise_singleton .., ?_⟩
        intro v inside w new
        obtain ⟨var, varAt⟩ := (before.block there).2 v inside
        rw [List.mem_singleton.mp new]
        exact Arena.below varAt
      · exact ih there
    | slot =>
      obtain ⟨old, there, rfl⟩ := Arena.getReplaced at_
      have ascends := ih there
      split <;> exact ascends
    | block =>
      rcases Arena.getPushed at_ with ⟨rfl, rfl⟩ | old
      · exact .nil
      · exact ih old
    | _ => exact ih at_

theorem outputsPrecede (reachable : Reachable p) {b : BlockId} {node : Block}
    (at_ : p.blocks.get? b = some node) :
    ∃ home before declared after, p.scopes.get? node.parent = some home ∧
      home.statements = before ++ declared ++ node.statement :: after ∧
      home.statements.Nodup ∧ List.Forall₂ p.Announces declared node.outputs ∧
      Ascending node.outputs := by
  have built := reachableBuilt reachable
  obtain ⟨home, homeAt, before, declared, after, split, each⟩ := built.ushered at_
  exact ⟨home, before, declared, after, homeAt, split, built.forest.once homeAt,
    each.imp fun _ _ declares => built.announces declares, built.outputsAscend at_⟩

def alternateRun : List Call :=
  [.addStage .fragment, .block ⟨0⟩ "one", .block ⟨0⟩ "two", .output ⟨1⟩ none .int1,
    .declare ⟨0⟩ "v" .int1 none, .output ⟨0⟩ (some "a") .int1, .output ⟨1⟩ none .float2,
    .output ⟨0⟩ (some "b") .int1]

theorem outputsPrecedeAlternate : ∃ p node before declared after,
    Program.after { name := "p" } alternateRun = some p ∧ p.blocks.get? ⟨1⟩ = some node ∧
    node.outputs = [⟨0⟩, ⟨3⟩] ∧ List.Forall₂ p.Announces declared node.outputs ∧
    [⟨4⟩, ⟨6⟩, ⟨0⟩, ⟨2⟩, ⟨5⟩, ⟨1⟩, ⟨3⟩] = before ++ declared ++ node.statement :: after := by
  obtain ⟨p, node, home, ran, at_, outputs, homeAt, statements⟩ : ∃ p node home,
      Program.after { name := "p" } alternateRun = some p ∧ p.blocks.get? ⟨1⟩ = some node ∧
      node.outputs = [⟨0⟩, ⟨3⟩] ∧ p.scopes.get? node.parent = some home ∧
      home.statements = [⟨4⟩, ⟨6⟩, ⟨0⟩, ⟨2⟩, ⟨5⟩, ⟨1⟩, ⟨3⟩] :=
    ⟨_, _, _, rfl, rfl, rfl, rfl, rfl⟩
  obtain ⟨again, before, declared, after, there, split, -, each, -⟩ :=
    outputsPrecede ((Reachable.new "p").after ran) at_
  cases homeAt.symm.trans there
  exact ⟨p, node, before, declared, after, ran, at_, outputs, each, statements ▸ split⟩

end

end ShaderGraph
