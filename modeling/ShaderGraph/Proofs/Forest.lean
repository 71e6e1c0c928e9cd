import ShaderGraph.Proofs.Sound
/-! The scopes of a built program form a forest. Its roots are the main scopes of the stages;
every other scope is nested under the statement that owns it, and every statement stands once, in
the list of its own scope. A call puts one statement in, with the scopes it opens. -/
namespace ShaderGraph

inductive Opens (p : Program) : StatementKind → ScopeId → Prop
  | accept {condition : ExprId} {accept reject : ScopeId} :
      Opens p (.branch condition accept reject) accept
  | reject {condition : ExprId} {accept reject : ScopeId} :
      Opens p (.branch condition accept reject) reject
  | loop {counter : VarId} {start stop : ExprId} {body : ScopeId} :
      Opens p (.loop counter start stop body) body
  | block {b : BlockId} {node : Block} (at_ : p.blocks.get? b = some node) :
      Opens p (.block b) node.body

structure Scope.Under (inner : Scope) (p : Program) (s : StmtId) (outer : ScopeId) : Prop where
  owner : inner.owner = some s
  parent : inner.parent = some outer
  stage : ∃ home, p.scopes.get? outer = some home ∧ inner.stage = home.stage

structure Forest (p : Program) : Prop where
  listed : ∀ ⦃c home⦄, p.scopes.get? c = some home → ∀ s ∈ home.statements,
    ∃ node, p.stmts.get? s = some node ∧ node.scope = c
  placed : ∀ ⦃s node⦄, p.stmts.get? s = some node →
    ∃ home, p.scopes.get? node.scope = some home ∧ s ∈ home.statements
  once : ∀ ⦃c home⦄, p.scopes.get? c = some home → home.statements.Nodup
  nested : ∀ ⦃s node⦄, p.stmts.get? s = some node → ∀ ⦃c⦄, Opens p node.kind c →
    node.scope.index < c.index ∧ ∃ inner, p.scopes.get? c = some inner ∧ inner.Under p s node.scope
  owned : ∀ ⦃c inner⦄, p.scopes.get? c = some inner → ∀ ⦃s⦄, inner.owner = some s →
    ∃ node, p.stmts.get? s = some node ∧ Opens p node.kind c
  roots : ∀ ⦃c home⦄, p.scopes.get? c = some home → home.owner = none →
    ∃ stage ∈ p.stages, stage.main = c
  mains : ∀ ⦃stage⦄, stage ∈ p.stages →
    ∃ home, p.scopes.get? stage.main = some home ∧ home.owner = none ∧ home.stage = stage.kind
  blocks : ∀ ⦃b node⦄, p.blocks.get? b = some node →
    ∃ stmt, p.stmts.get? node.statement = some stmt ∧ stmt.kind = .block b ∧
      stmt.scope = node.parent
  named : ∀ ⦃s node⦄, p.stmts.get? s = some node → ∀ ⦃b⦄, node.kind = .block b →
    ∃ block, p.blocks.get? b = some block ∧ block.statement = s

section Growth

variable {p q : Program}

@[simp] theorem opensAct {action : Action} {c : ScopeId} : ¬ Opens p (.act action) c :=
  fun opens => by cases opens

@[simp] theorem opensBranch {condition : ExprId} {accept reject c : ScopeId} :
    Opens p (.branch condition accept reject) c ↔ c = accept ∨ c = reject := by
  constructor
  · intro opens
    cases opens with
    | accept => exact .inl rfl
    | reject => exact .inr rfl
  · rintro (rfl | rfl)
    · exact .accept
    · exact .reject

@[simp] theorem opensLoop {counter : VarId} {start stop : ExprId} {body c : ScopeId} :
    Opens p (.loop counter start stop body) c ↔ c = body := by
  refine ⟨fun opens => (by cases opens; rfl), ?_⟩
  rintro rfl
  exact .loop

@[simp] theorem opensBlock {b : BlockId} {c : ScopeId} :
    Opens p (.block b) c ↔ ∃ node, p.blocks.get? b = some node ∧ c = node.body := by
  constructor
  · intro opens
    cases opens with
    | block at_ => exact ⟨_, at_, rfl⟩
  · rintro ⟨node, at_, rfl⟩
    exact .block at_

theorem Opens.mono (grows : Grows p q) {kind : StatementKind} {c : ScopeId}
    (opens : Opens p kind c) : Opens q kind c := by
  cases opens with
  | accept => exact .accept
  | reject => exact .reject
  | loop => exact .loop
  | block at_ =>
    obtain ⟨_, there, inputs, outputs, rfl, -⟩ := grows.blocks at_
    have opens := Opens.block there
    exact opens

theorem Opens.back (grows : Grows p q) {kind : StatementKind} {c : ScopeId}
    (stands : ∀ b, kind = .block b → ∃ node, p.blocks.get? b = some node)
    (opens : Opens q kind c) : Opens p kind c := by
  cases opens with
  | accept => exact .accept
  | reject => exact .reject
  | loop => exact .loop
  | @block b node at_ =>
    obtain ⟨old, before⟩ := stands b rfl
    obtain ⟨_, there, inputs, outputs, rfl, -⟩ := grows.blocks before
    cases at_.symm.trans there
    have opens := Opens.block before
    exact opens

theorem Scope.Under.mono (grows : Grows p q) {inner : Scope} {s : StmtId} {outer : ScopeId}
    (under : inner.Under p s outer) : inner.Under q s outer := by
  obtain ⟨home, at_, same⟩ := under.stage
  obtain ⟨_, there, l, rfl, -⟩ := grows.scopes at_
  exact ⟨under.owner, under.parent, _, there, same⟩

theorem Scope.Under.kept {inner later : Scope} {s : StmtId} {outer : ScopeId}
    (under : inner.Under p s outer) (kept : inner.Kept later) : later.Under p s outer := by
  obtain ⟨l, rfl, -⟩ := kept
  exact ⟨under.owner, under.parent, under.stage⟩

structure Framed (p q : Program) : Prop where
  grows : Grows p q
  scopes : q.scopes = p.scopes
  stmts : ∀ ⦃s node⦄, q.stmts.get? s = some node → ∃ old, p.stmts.get? s = some old ∧ old.Kept node
  blocks : ∀ ⦃b node⦄, q.blocks.get? b = some node →
    ∃ old, p.blocks.get? b = some old ∧ old.Kept node
  stages : ∀ ⦃t⦄, t ∈ q.stages → ∃ s ∈ p.stages, s.Kept t

theorem Framed.forest (framed : Framed p q) (forest : Forest p) : Forest q where
  listed := by
    intro c home at_ s inside
    obtain ⟨node, there, same⟩ := forest.listed (framed.scopes ▸ at_) s inside
    obtain ⟨_, later, reads, rfl⟩ := framed.grows.stmts there
    exact ⟨_, later, same⟩
  placed := by
    intro s node at_
    obtain ⟨old, before, reads, rfl⟩ := framed.stmts at_
    have there := forest.placed before
    exact framed.scopes ▸ there
  once := fun c home at_ => forest.once (framed.scopes ▸ at_)
  nested := by
    intro s node at_ c opens
    obtain ⟨old, before, reads, rfl⟩ := framed.stmts at_
    have stands : ∀ b, old.kind = .block b → ∃ node, p.blocks.get? b = some node := by
      intro b kind
      obtain ⟨block, there, -⟩ := forest.named before kind
      exact ⟨block, there⟩
    obtain ⟨less, inner, there, under⟩ := forest.nested before (opens.back framed.grows stands)
    exact ⟨less, inner, framed.scopes ▸ there, under.mono framed.grows⟩
  owned := by
    intro c inner at_ s owner
    obtain ⟨node, there, opens⟩ := forest.owned (framed.scopes ▸ at_) owner
    obtain ⟨_, later, reads, rfl⟩ := framed.grows.stmts there
    exact ⟨_, later, opens.mono framed.grows⟩
  roots := by
    intro c home at_ none
    obtain ⟨stage, inside, same⟩ := forest.roots (framed.scopes ▸ at_) none
    obtain ⟨_, later, i, o, b, rfl, -⟩ := framed.grows.stages inside
    exact ⟨_, later, same⟩
  mains := by
    intro stage inside
    obtain ⟨_, before, i, o, b, rfl, -⟩ := framed.stages inside
    have there := forest.mains before
    exact framed.scopes ▸ there
  blocks := by
    intro b node at_
    obtain ⟨old, before, i, o, rfl, -⟩ := framed.blocks at_
    obtain ⟨stmt, there, kind, scope⟩ := forest.blocks before
    obtain ⟨_, later, reads, rfl⟩ := framed.grows.stmts there
    exact ⟨_, later, kind, scope⟩
  named := by
    intro s node at_ b kind
    obtain ⟨old, before, reads, rfl⟩ := framed.stmts at_
    obtain ⟨block, there, same⟩ := forest.named before kind
    obtain ⟨_, later, i, o, rfl, -⟩ := framed.grows.blocks there
    exact ⟨_, later, same⟩

structure Planted (p q : Program) (node : Statement) (home : Scope) : Prop where
  grows : Grows p q
  around : p.scopes.get? node.scope = some home
  stmts : ∀ ⦃s stmt⦄, q.stmts.get? s = some stmt →
    (s = p.stmts.fresh ∧ stmt = node) ∨ p.stmts.get? s = some stmt
  new : q.stmts.get? p.stmts.fresh = some node
  scopes : ∀ ⦃c inner⦄, q.scopes.get? c = some inner →
    (∃ old, p.scopes.get? c = some old ∧ ((c = node.scope ∧ ∃ l,
      l.Perm (p.stmts.fresh :: old.statements) ∧ inner = { old with statements := l }) ∨
        (c ≠ node.scope ∧ inner = old))) ∨
    (node.scope.index < c.index ∧ Opens q node.kind c ∧ inner.Under q p.stmts.fresh node.scope ∧
      inner.statements = [])
  opened : ∀ ⦃c⦄, Opens q node.kind c → c.index < q.scopes.size ∧ p.scopes.size ≤ c.index
  blocks : ∀ ⦃b block⦄, q.blocks.get? b = some block →
    (∃ old, p.blocks.get? b = some old ∧ old.Kept block) ∨
      (node.kind = .block b ∧ block.statement = p.stmts.fresh ∧ block.parent = node.scope)
  named : ∀ ⦃b⦄, node.kind = .block b →
    ∃ block, q.blocks.get? b = some block ∧ block.statement = p.stmts.fresh
  stages : q.stages = p.stages

namespace Planted

variable {node : Statement} {home : Scope}

theorem forest (planted : Planted p q node home) (forest : Forest p) : Forest q where
  listed := by
    intro c inner at_ s inside
    rcases planted.scopes at_ with ⟨old, before, ⟨rfl, l, perm, rfl⟩ | ⟨-, rfl⟩⟩ | ⟨-, -, -, none⟩
    · rcases List.mem_cons.mp (perm.mem_iff.mp inside) with rfl | inside
      · exact ⟨node, planted.new, rfl⟩
      · obtain ⟨stmt, there, same⟩ := forest.listed before s inside
        obtain ⟨_, later, reads, rfl⟩ := planted.grows.stmts there
        exact ⟨_, later, same⟩
    · obtain ⟨stmt, there, same⟩ := forest.listed before s inside
      obtain ⟨_, later, reads, rfl⟩ := planted.grows.stmts there
      exact ⟨_, later, same⟩
    · simp [none] at inside
  placed := by
    intro s stmt at_
    rcases planted.stmts at_ with ⟨rfl, rfl⟩ | before
    · obtain ⟨now, there, -⟩ := planted.grows.scopes planted.around
      refine ⟨now, there, ?_⟩
      rcases planted.scopes there with ⟨old, -, ⟨-, l, perm, rfl⟩ | ⟨other, -⟩⟩ | ⟨less, -⟩
      · exact perm.mem_iff.mpr List.mem_cons_self
      · exact absurd rfl other
      · exact absurd less (Nat.lt_irrefl _)
    · obtain ⟨outer, there, inside⟩ := forest.placed before
      obtain ⟨_, later, l, rfl, sub⟩ := planted.grows.scopes there
      exact ⟨_, later, sub.subset inside⟩
  once := by
    intro c inner at_
    rcases planted.scopes at_ with ⟨old, before, ⟨rfl, l, perm, rfl⟩ | ⟨-, rfl⟩⟩ | ⟨-, -, -, none⟩
    · refine perm.nodup_iff.mpr (List.nodup_cons.mpr ⟨fun inside => ?_, forest.once before⟩)
      obtain ⟨stmt, there, -⟩ := forest.listed before _ inside
      exact absurd rfl (Arena.neFresh there)
    · exact forest.once before
    · rw [none]
      exact List.nodup_nil
  nested := by
    intro s stmt at_ c opens
    rcases planted.stmts at_ with ⟨rfl, rfl⟩ | before
    · obtain ⟨inside, outside⟩ := planted.opened opens
      obtain ⟨inner, there⟩ := Arena.atBelow inside
      rcases planted.scopes there with ⟨old, before, -⟩ | ⟨less, -, under, -⟩
      · exact absurd (Arena.below before) (Nat.not_lt.mpr outside)
      · exact ⟨less, inner, there, under⟩
    · have stands : ∀ b, stmt.kind = .block b → ∃ node, p.blocks.get? b = some node := by
        intro b kind
        obtain ⟨block, there, -⟩ := forest.named before kind
        exact ⟨block, there⟩
      obtain ⟨less, inner, there, under⟩ := forest.nested before (opens.back planted.grows stands)
      obtain ⟨_, later, kept⟩ := planted.grows.scopes there
      exact ⟨less, _, later, (under.mono planted.grows).kept kept⟩
  owned := by
    intro c inner at_ s owner
    rcases planted.scopes at_ with ⟨old, before, same⟩ | ⟨-, opens, under, -⟩
    · have kept : inner.owner = old.owner := by
        rcases same with ⟨-, l, -, rfl⟩ | ⟨-, rfl⟩ <;> rfl
      obtain ⟨stmt, there, opens⟩ := forest.owned before (kept ▸ owner)
      obtain ⟨_, later, reads, rfl⟩ := planted.grows.stmts there
      exact ⟨_, later, opens.mono planted.grows⟩
    · cases under.owner.symm.trans owner
      exact ⟨node, planted.new, opens⟩
  roots := by
    intro c inner at_ none
    rcases planted.scopes at_ with ⟨old, before, same⟩ | ⟨-, -, under, -⟩
    · have kept : inner.owner = old.owner := by
        rcases same with ⟨-, l, -, rfl⟩ | ⟨-, rfl⟩ <;> rfl
      exact planted.stages ▸ forest.roots before (kept ▸ none)
    · cases under.owner.symm.trans none
  mains := by
    intro stage inside
    obtain ⟨outer, there, owner, kind⟩ := forest.mains (planted.stages ▸ inside)
    obtain ⟨_, later, l, rfl, -⟩ := planted.grows.scopes there
    exact ⟨_, later, owner, kind⟩
  blocks := by
    intro b block at_
    rcases planted.blocks at_ with ⟨old, before, i, o, rfl, -⟩ | ⟨kind, statement, parent⟩
    · obtain ⟨stmt, there, kind, scope⟩ := forest.blocks before
      obtain ⟨_, later, reads, rfl⟩ := planted.grows.stmts there
      exact ⟨_, later, kind, scope⟩
    · exact ⟨node, statement ▸ planted.new, kind, parent.symm⟩
  named := by
    intro s stmt at_ b kind
    rcases planted.stmts at_ with ⟨rfl, rfl⟩ | before
    · exact planted.named kind
    · obtain ⟨block, there, same⟩ := forest.named before kind
      obtain ⟨_, later, i, o, rfl, -⟩ := planted.grows.blocks there
      exact ⟨_, later, same⟩

end Planted

theorem permAtEnd (new : StmtId) (l : List StmtId) : (Program.atEnd new l).Perm (new :: l) :=
  List.perm_append_singleton new l

theorem permInsertBefore (mark new : StmtId) (l : List StmtId) :
    (Build.insertBefore mark new l).Perm (new :: l) := by
  induction l with
  | nil => exact .refl _
  | cons s rest ih =>
    simp only [Build.insertBefore]
    split
    · exact .refl _
    · exact (ih.cons s).trans (.swap new s rest)

theorem placedScope {node : Statement} {place : StmtId → List StmtId → List StmtId}
    (perm : ∀ new l, (place new l).Perm (new :: l)) {c : ScopeId} {inner : Scope}
    (at_ : (p.placed node place).scopes.get? c = some inner) :
    ∃ old, p.scopes.get? c = some old ∧ ((c = node.scope ∧ ∃ l,
      l.Perm (p.stmts.fresh :: old.statements) ∧ inner = { old with statements := l }) ∨
        (c ≠ node.scope ∧ inner = old)) := by
  obtain ⟨old, before, rfl⟩ := Arena.getReplaced at_
  refine ⟨old, before, ?_⟩
  split
  · rename_i here
    exact .inl ⟨here.symm, _, perm _ _, rfl⟩
  · rename_i other
    exact .inr ⟨fun same => other same.symm, rfl⟩

theorem Planted.act {node : Statement} {home : Scope} {action : Action}
    {place : StmtId → List StmtId → List StmtId} (perm : ∀ new l, (place new l).Perm (new :: l))
    (keeps : ∀ new l, List.Sublist l (place new l))
    (around : p.scopes.get? node.scope = some home) (kind : node.kind = .act action) :
    Planted p (p.placed node place) node home where
  grows := .placed node keeps
  around := around
  stmts := fun s stmt at_ => Arena.getPushed at_
  new := Arena.getFresh ..
  scopes := fun c inner at_ => .inl (placedScope perm at_)
  opened := fun c opens => by rw [kind] at opens; cases opens
  blocks := fun b block at_ => .inl ⟨block, at_, .refl _⟩
  named := fun b same => by rw [kind] at same; cases same
  stages := rfl

theorem underNested {scope : ScopeId} {home : Scope} {name : String}
    (around : p.scopes.get? scope = some home) (grows : Grows p q) :
    (p.nested scope home name).Under q p.stmts.fresh scope := by
  obtain ⟨_, there, l, rfl, -⟩ := grows.scopes around
  exact ⟨rfl, rfl, _, there, rfl⟩

theorem plantedScope (p r : Program) {q : Program} {node : Statement} {home : Scope}
    (grows : Grows p q) (around : p.scopes.get? node.scope = some home) (stmts : r.stmts = p.stmts)
    (added : ∀ c inner, r.scopes.get? c = some inner → p.scopes.get? c = some inner ∨
      p.scopes.size ≤ c.index ∧ Opens q node.kind c ∧ ∃ name, inner = p.nested node.scope home name)
    {c : ScopeId} {inner : Scope}
    (at_ : (r.placed node Program.atEnd).scopes.get? c = some inner) :
    (∃ old, p.scopes.get? c = some old ∧ ((c = node.scope ∧ ∃ l,
      l.Perm (p.stmts.fresh :: old.statements) ∧ inner = { old with statements := l }) ∨
        (c ≠ node.scope ∧ inner = old))) ∨
    (node.scope.index < c.index ∧ Opens q node.kind c ∧ inner.Under q p.stmts.fresh node.scope ∧
      inner.statements = []) := by
  have inside := Arena.below around
  obtain ⟨old, there, same⟩ := placedScope permAtEnd at_
  rcases added c old there with before | ⟨outside, opens, name, rfl⟩
  · exact .inl ⟨old, before, stmts ▸ same⟩
  · rcases same with ⟨rfl, -⟩ | ⟨-, rfl⟩
    · exact absurd inside (Nat.not_lt.mpr outside)
    · exact .inr ⟨Nat.lt_of_lt_of_le inside outside, opens, underNested around grows, rfl⟩

theorem Planted.branch {scope : ScopeId} {home : Scope} {condition : ExprId} {reads : Stamps}
    (around : p.scopes.get? scope = some home)
    (grows : Grows p (p.branched scope home condition reads)) :
    ∃ node, Planted p (p.branched scope home condition reads) node home := by
  refine ⟨_, grows, around, fun s stmt at_ => Arena.getPushed at_, Arena.getFresh .., ?_, ?_,
    fun b block at_ => .inl ⟨block, at_, .refl _⟩, fun b kind => (by cases kind), rfl⟩
  · intro c inner at_
    refine plantedScope p (p.forked scope home) grows around rfl (fun c inner at_ => ?_) at_
    rcases Arena.getPushed at_ with ⟨rfl, rfl⟩ | at_
    · exact .inr ⟨Nat.le_of_lt (Nat.lt_of_lt_of_eq (Nat.lt_succ_self _) (Arena.pushSize ..).symm),
        .reject, _, rfl⟩
    · rcases Arena.getPushed at_ with ⟨rfl, rfl⟩ | at_
      · exact .inr ⟨Nat.le_refl _, .accept, _, rfl⟩
      · exact .inl at_
  · intro c opens
    have first : (p.opened scope home s!"if_{p.nameCounter}_accept").scopes.size =
      p.scopes.size + 1 := Arena.pushSize ..
    have sizes : (p.branched scope home condition reads).scopes.size = p.scopes.size + 2 := by
      simp [Program.branched, Program.forked, Program.opened, Program.placed, Program.mapScope,
        Program.withStmt, Program.withScope, Program.spent]
    rw [sizes]
    cases opens with
    | accept => exact ⟨Nat.lt_add_of_pos_right (by decide), Nat.le_refl _⟩
    | reject =>
      rw [Arena.freshIndex, first]
      exact ⟨Nat.lt_succ_self _, Nat.le_succ _⟩

theorem Planted.loop {scope : ScopeId} {home : Scope} {start stop : ExprId} {reads : Stamps}
    (around : p.scopes.get? scope = some home)
    (grows : Grows p (p.looped scope home start stop reads)) :
    ∃ node, Planted p (p.looped scope home start stop reads) node home := by
  refine ⟨_, grows, around, fun s stmt at_ => Arena.getPushed at_, Arena.getFresh .., ?_, ?_,
    fun b block at_ => .inl ⟨block, at_, .refl _⟩, fun b kind => (by cases kind), rfl⟩
  · intro c inner at_
    refine plantedScope p (p.counted scope home) grows around rfl (fun c inner at_ => ?_) at_
    rcases Arena.getPushed at_ with ⟨rfl, rfl⟩ | at_
    · exact .inr ⟨Nat.le_refl _, .loop, _, rfl⟩
    · exact .inl at_
  · intro c opens
    cases opens with
    | loop =>
      simp [Program.looped, Program.counted, Program.opened, Program.placed, Program.mapScope, Program.withStmt,
        Program.withVar, Program.withScope, Program.spent]

theorem Planted.block {scope : ScopeId} {home : Scope} {op : String}
    (around : p.scopes.get? scope = some home) (grows : Grows p (p.blocked scope home op)) :
    ∃ node, Planted p (p.blocked scope home op) node home := by
  refine ⟨_, grows, around, fun s stmt at_ => Arena.getPushed at_, Arena.getFresh .., ?_, ?_,
    ?_, ?_, rfl⟩
  · intro c inner at_
    refine plantedScope p (p.opened scope home s!"{op}_{p.nameCounter}") grows around rfl (fun c inner at_ => ?_) at_
    rcases Arena.getPushed at_ with ⟨rfl, rfl⟩ | at_
    · have named : (p.blocked scope home op).blocks.get? p.blocks.fresh = some _ := Arena.getFresh ..
      have opens := Opens.block named
      exact .inr ⟨Nat.le_refl _, opens, _, rfl⟩
    · exact .inl at_
  · intro c opens
    cases opens with
    | block at_ =>
      rcases Arena.getPushed at_ with ⟨-, rfl⟩ | before
      · simp [Program.blocked, Program.opened, Program.placed, Program.mapScope, Program.withStmt,
          Program.withBlock, Program.withScope, Program.spent]
      · exact absurd rfl (Arena.neFresh before)
  · intro b block at_
    rcases Arena.getPushed at_ with ⟨rfl, rfl⟩ | before
    · exact .inr ⟨rfl, rfl, rfl⟩
    · exact .inl ⟨block, before, .refl _⟩
  · intro b kind
    cases kind
    exact ⟨_, Arena.getFresh .., rfl⟩

theorem Forest.stage (forest : Forest p) {name : String} {kind : StageKind}
    {workgroup : Option Workgroup} :
    Forest ((p.withScope ⟨name, kind, none, none, []⟩).withStage
      ⟨kind, p.scopes.fresh, [], [], [], workgroup⟩) where
  listed := by
    intro c home at_ s inside
    rcases Arena.getPushed at_ with ⟨rfl, rfl⟩ | before
    · cases inside
    · exact forest.listed before s inside
  placed := by
    intro s node at_
    obtain ⟨home, there, inside⟩ := forest.placed at_
    exact ⟨home, Arena.getPushOld there _, inside⟩
  once := by
    intro c home at_
    rcases Arena.getPushed at_ with ⟨rfl, rfl⟩ | before
    · exact List.nodup_nil
    · exact forest.once before
  nested := by
    intro s node at_ c opens
    have stands : ∀ b, node.kind = .block b → ∃ node, p.blocks.get? b = some node := by
      intro b same
      obtain ⟨block, there, -⟩ := forest.named at_ same
      exact ⟨block, there⟩
    have grows := (Grows.withScope p ⟨name, kind, none, none, []⟩).trans (.withStage _
      ⟨kind, p.scopes.fresh, [], [], [], workgroup⟩)
    obtain ⟨less, inner, there, under⟩ := forest.nested at_ (opens.back grows stands)
    exact ⟨less, inner, Arena.getPushOld there _, under.mono grows⟩
  owned := by
    intro c inner at_ s owner
    rcases Arena.getPushed at_ with ⟨rfl, rfl⟩ | before
    · cases owner
    · obtain ⟨node, there, opens⟩ := forest.owned before owner
      exact ⟨node, there, opens.mono (.trans (.withScope p _) (.withStage _ _))⟩
  roots := by
    intro c home at_ none
    rcases Arena.getPushed at_ with ⟨rfl, rfl⟩ | before
    · exact ⟨_, List.mem_append_right _ List.mem_cons_self, rfl⟩
    · obtain ⟨stage, inside, same⟩ := forest.roots before none
      exact ⟨stage, List.mem_append_left _ inside, same⟩
  mains := by
    intro stage inside
    rcases List.mem_append.mp inside with old | new
    · obtain ⟨home, there, same⟩ := forest.mains old
      exact ⟨home, Arena.getPushOld there _, same⟩
    · rw [List.mem_singleton.mp new]
      exact ⟨_, Arena.getFresh .., rfl, rfl⟩
  blocks := forest.blocks
  named := forest.named

theorem Forest.new (name : String) : Forest { name } where
  listed := fun _ _ at_ => absurd at_ emptyGet
  placed := fun _ _ at_ => absurd at_ emptyGet
  once := fun _ _ at_ => absurd at_ emptyGet
  nested := fun _ _ at_ => absurd at_ emptyGet
  owned := fun _ _ at_ => absurd at_ emptyGet
  roots := fun _ _ at_ => absurd at_ emptyGet
  mains := fun _ inside => by cases inside
  blocks := fun _ _ at_ => absurd at_ emptyGet
  named := fun _ _ at_ => absurd at_ emptyGet

theorem Framed.only (grows : Grows p q) (scopes : q.scopes = p.scopes) (stmts : q.stmts = p.stmts)
    (blocks : q.blocks = p.blocks) (stages : q.stages = p.stages) : Framed p q where
  grows := grows
  scopes := scopes
  stmts := fun _ node at_ => ⟨node, stmts ▸ at_, .refl node⟩
  blocks := fun _ node at_ => ⟨node, blocks ▸ at_, .refl node⟩
  stages := fun t inside => ⟨t, stages ▸ inside, .refl t⟩

theorem Framed.mapBlock {b : BlockId} {f : Block → Block} (kept : ∀ n, Block.Kept n (f n)) :
    Framed p (p.mapBlock b f) :=
  { Framed.only (.refl p) rfl rfl rfl rfl with
    grows := .mapBlock kept
    blocks := fun c node at_ => by
      obtain ⟨old, before, rfl⟩ := Arena.getReplaced at_
      refine ⟨old, before, ?_⟩
      split
      · exact kept old
      · exact .refl old }

theorem Framed.mapStmt {s : StmtId} {f : Statement → Statement}
    (kept : ∀ n, Statement.Kept n (f n)) : Framed p (p.mapStmt s f) :=
  { Framed.only (.refl p) rfl rfl rfl rfl with
    grows := .mapStmt kept
    stmts := fun c node at_ => by
      obtain ⟨old, before, rfl⟩ := Arena.getReplaced at_
      refine ⟨old, before, ?_⟩
      split
      · exact kept old
      · exact .refl old }

theorem Framed.mapStage {kind : StageKind} {f : Stage → Stage} (kept : ∀ n, Stage.Kept n (f n)) :
    Framed p (p.mapStage kind f) :=
  { Framed.only (.refl p) rfl rfl rfl rfl with
    grows := .mapStage kept
    stages := fun t inside => by
      obtain ⟨old, before, rfl⟩ := List.mem_map.mp inside
      refine ⟨old, before, ?_⟩
      split
      · exact kept old
      · exact .refl old }

theorem Forest.act (forest : Forest p) {node : Statement} {action : Action}
    {place : StmtId → List StmtId → List StmtId} (perm : ∀ new l, (place new l).Perm (new :: l))
    (keeps : ∀ new l, List.Sublist l (place new l))
    (around : ∃ home, p.scopes.get? node.scope = some home) (kind : node.kind = .act action) :
    Forest (p.placed node place) := by
  obtain ⟨home, around⟩ := around
  exact (Planted.act perm keeps around kind).forest forest

theorem Forest.withLexical (forest : Forest p) (v : Variable) : Forest (p.spent.withVar v) :=
  (Framed.only (.trans (.spent p) (.withVar _ v)) rfl rfl rfl rfl).forest forest

theorem Edit.forest (edit : Edit p q) (forest : Forest p) : Forest q := by
  have grows := edit.grows
  cases edit with
  | spend | expr | uniform => exact (Framed.only grows rfl rfl rfl rfl).forest forest
  | stage => exact forest.stage
  | stageInput | stageOutput | builtin =>
    refine (Framed.mapStage fun _ => ?_).forest
      ((Framed.only (.withVar p _) rfl rfl rfl rfl).forest forest)
    exact ⟨_, _, _, rfl, by simp⟩
  | declare at_ =>
    exact (forest.withLexical _).act permAtEnd sublistAtEnd ⟨_, at_⟩ rfl
  | @assign scope home target value ty v var valueReads targetReads at_ =>
    have changed : Grows p (p.mapVar v fun w => { w with mutations := w.mutations + 1 }) :=
      .mapVar fun _ => ⟨_, rfl⟩
    have before := (Framed.only changed rfl rfl rfl rfl).forest forest
    exact before.act permAtEnd sublistAtEnd ⟨_, at_⟩ rfl
  | store at_ => exact forest.act permAtEnd sublistAtEnd ⟨_, at_⟩ rfl
  | branch at_ =>
    obtain ⟨node, planted⟩ := Planted.branch at_ grows
    exact planted.forest forest
  | loop at_ =>
    obtain ⟨node, planted⟩ := Planted.loop at_ grows
    exact planted.forest forest
  | block at_ =>
    obtain ⟨node, planted⟩ := Planted.block at_ grows
    exact planted.forest forest
  | slot =>
    refine (Framed.mapBlock fun _ => ?_).forest
      ((Framed.only (.trans (.withExpr p _) (.withSlot _ _)) rfl rfl rfl rfl).forest forest)
    exact ⟨_, _, rfl, List.prefix_append .., List.prefix_rfl⟩
  | output _ around =>
    refine (Framed.mapBlock fun _ => ?_).forest
      ((forest.withLexical _).act (permInsertBefore _) (sublistInsertBefore _) ?_ rfl)
    · exact ⟨_, _, rfl, List.prefix_rfl, List.prefix_append ..⟩
    · exact ⟨_, around⟩
  | @fill s slot value reads =>
    have changed : Grows p (p.bound s value reads) := .mapSlot fun _ => ⟨_, _, rfl⟩
    have before := (Framed.only changed rfl rfl rfl rfl).forest forest
    exact (Framed.mapStmt fun _ => ⟨_, rfl⟩).forest before

theorem Built.forest (built : Built p) : Forest p := by
  induction built with
  | new name => exact .new name
  | edit _ edit ih => exact edit.forest ih

end Growth

end ShaderGraph
