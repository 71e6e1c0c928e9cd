import ShaderGraph.Body
import ShaderGraph.Proofs.Forest
/-! The layout of scopes as bodies. In a forest every scope can be laid out, what is laid out is
the scope's statement list with the lists nested under it, and the bodies of the main scopes
together hold every statement of the program. -/
namespace ShaderGraph

inductive Laid (p : Program) : List StmtId → Body → Prop
  | done : Laid p [] .done
  | act {id : StmtId} {node : Statement} {action : Action} {later : List StmtId} {rest : Body}
      (at_ : p.stmts.get? id = some node) (kind : node.kind = .act action)
      (next : Laid p later rest) : Laid p (id :: later) (.act id node action rest)
  | branch {id : StmtId} {node : Statement} {condition : ExprId} {a r : ScopeId} {yes no : Scope}
      {later : List StmtId} {accept reject rest : Body} (at_ : p.stmts.get? id = some node)
      (kind : node.kind = .branch condition a r) (yesAt : p.scopes.get? a = some yes)
      (noAt : p.scopes.get? r = some no) (first : Laid p yes.statements accept)
      (second : Laid p no.statements reject) (next : Laid p later rest) :
      Laid p (id :: later) (.branch id node condition a r accept reject rest)
  | loop {id : StmtId} {node : Statement} {counter : VarId} {start stop : ExprId} {c : ScopeId}
      {home : Scope} {later : List StmtId} {inner rest : Body} (at_ : p.stmts.get? id = some node)
      (kind : node.kind = .loop counter start stop c) (homeAt : p.scopes.get? c = some home)
      (inside : Laid p home.statements inner) (next : Laid p later rest) :
      Laid p (id :: later) (.loop id node counter start stop c inner rest)
  | block {id : StmtId} {node : Statement} {b : BlockId} {block : Block} {home : Scope}
      {later : List StmtId} {inner rest : Body} (at_ : p.stmts.get? id = some node)
      (kind : node.kind = .block b) (blockAt : p.blocks.get? b = some block)
      (homeAt : p.scopes.get? block.body = some home) (inside : Laid p home.statements inner)
      (next : Laid p later rest) : Laid p (id :: later) (.block id node b block inner rest)

section

variable {p : Program}

theorem Laid.listed {l : List StmtId} {body : Body} (laid : Laid p l body) {s : StmtId}
    (inside : s ∈ l) : s ∈ body.preorder := by
  induction laid with
  | done => cases inside
  | act _ _ _ next | branch _ _ _ _ _ _ _ _ _ next | loop _ _ _ _ _ _ next
  | block _ _ _ _ _ _ _ next =>
    rcases List.mem_cons.mp inside with rfl | later
    · exact List.mem_cons_self
    · simp [Body.preorder, next later]

theorem Laid.nested {l : List StmtId} {body : Body} (laid : Laid p l body) {o s : StmtId}
    {node : Statement} {c : ScopeId} {inner : Scope} (inside : o ∈ body.preorder)
    (at_ : p.stmts.get? o = some node) (opens : Opens p node.kind c)
    (innerAt : p.scopes.get? c = some inner) (under : s ∈ inner.statements) :
    s ∈ body.preorder := by
  induction laid with
  | done => cases inside
  | act here kind _ next =>
    rcases List.mem_cons.mp inside with rfl | later
    · cases at_.symm.trans here
      rw [kind] at opens
      cases opens
    · exact List.mem_cons_of_mem _ (next later)
  | branch here kind yesAt noAt first second _ one two next =>
    simp only [Body.preorder, List.mem_cons, List.mem_append] at inside ⊢
    rcases inside with rfl | (yes | no) | later
    · cases at_.symm.trans here
      rw [kind] at opens
      cases opens with
      | accept =>
        cases innerAt.symm.trans yesAt
        exact .inr (.inl (.inl (first.listed under)))
      | reject =>
        cases innerAt.symm.trans noAt
        exact .inr (.inl (.inr (second.listed under)))
    · exact .inr (.inl (.inl (one yes)))
    · exact .inr (.inl (.inr (two no)))
    · exact .inr (.inr (next later))
  | loop here kind homeAt within _ deep next =>
    simp only [Body.preorder, List.mem_cons, List.mem_append] at inside ⊢
    rcases inside with rfl | within' | later
    · cases at_.symm.trans here
      rw [kind] at opens
      cases opens
      cases innerAt.symm.trans homeAt
      exact .inr (.inl (within.listed under))
    · exact .inr (.inl (deep within'))
    · exact .inr (.inr (next later))
  | block here kind blockAt homeAt within _ deep next =>
    simp only [Body.preorder, List.mem_cons, List.mem_append] at inside ⊢
    rcases inside with rfl | within' | later
    · cases at_.symm.trans here
      rw [kind] at opens
      cases opens with
      | block named =>
        cases named.symm.trans blockAt
        cases innerAt.symm.trans homeAt
        exact .inr (.inl (within.listed under))
    · exact .inr (.inl (deep within'))
    · exact .inr (.inr (next later))

theorem Laid.all {l : List StmtId} {body : Body} {P : StmtId → Prop} (laid : Laid p l body)
    (first : ∀ s ∈ l, P s)
    (closed : ∀ ⦃s node c inner⦄, P s → p.stmts.get? s = some node → Opens p node.kind c →
      p.scopes.get? c = some inner → ∀ t ∈ inner.statements, P t) : ∀ s ∈ body.preorder, P s := by
  induction laid with
  | done => exact first
  | act _ _ _ next =>
    obtain ⟨own, later⟩ := List.forall_mem_cons.mp first
    exact List.forall_mem_cons.mpr ⟨own, next later⟩
  | branch at_ kind yesAt noAt _ _ _ inYes inNo next =>
    obtain ⟨own, later⟩ := List.forall_mem_cons.mp first
    have yes := inYes (closed own at_ (kind ▸ .accept) yesAt)
    have no := inNo (closed own at_ (kind ▸ .reject) noAt)
    refine List.forall_mem_cons.mpr ⟨own, ?_⟩
    exact List.forall_mem_append.mpr ⟨List.forall_mem_append.mpr ⟨yes, no⟩, next later⟩
  | loop at_ kind homeAt _ _ deep next =>
    obtain ⟨own, later⟩ := List.forall_mem_cons.mp first
    have inner := deep (closed own at_ (kind ▸ .loop) homeAt)
    exact List.forall_mem_cons.mpr ⟨own, List.forall_mem_append.mpr ⟨inner, next later⟩⟩
  | block at_ kind blockAt homeAt _ _ deep next =>
    obtain ⟨own, later⟩ := List.forall_mem_cons.mp first
    have inner := deep (closed own at_ (kind ▸ .block blockAt) homeAt)
    exact List.forall_mem_cons.mpr ⟨own, List.forall_mem_append.mpr ⟨inner, next later⟩⟩

theorem Forest.layList (forest : Forest p) {sub : ScopeId → Outcome Body} {c : ScopeId}
    (deeper : ∀ ⦃d home⦄, c.index < d.index → p.scopes.get? d = some home →
      ∃ body, sub d = .ok body ∧ Laid p home.statements body) {l : List StmtId}
    (listed : ∀ s ∈ l, ∃ node, p.stmts.get? s = some node ∧ node.scope = c) :
    ∃ body, p.layStatements sub l = .ok body ∧ Laid p l body := by
  induction l with
  | nil => exact ⟨.done, rfl, .done⟩
  | cons s later ih =>
    obtain ⟨node, at_, rfl⟩ := listed s List.mem_cons_self
    obtain ⟨rest, restOk, next⟩ := ih fun t inside => listed t (List.mem_cons_of_mem _ inside)
    have read : p.stmts.fetch s = .ok node := Arena.fetchOfGet at_
    have opened : ∀ ⦃kind d⦄, node.kind = kind → Opens p kind d →
        node.scope.index < d.index ∧ ∃ inner, p.scopes.get? d = some inner := by
      intro kind d same opens
      obtain ⟨less, inner, innerAt, -⟩ := forest.nested at_ (same ▸ opens)
      exact ⟨less, inner, innerAt⟩
    simp only [Program.layStatements, read, bind, Except.bind]
    cases kind : node.kind with
    | act action => exact ⟨_, by simp only [restOk]; rfl, .act at_ kind next⟩
    | branch condition a r =>
      obtain ⟨less, yes, yesAt⟩ := opened kind .accept
      obtain ⟨more, no, noAt⟩ := opened kind .reject
      obtain ⟨accept, acceptOk, first⟩ := deeper less yesAt
      obtain ⟨reject, rejectOk, second⟩ := deeper more noAt
      exact ⟨_, by simp only [acceptOk, rejectOk, restOk]; rfl,
        .branch at_ kind yesAt noAt first second next⟩
    | loop counter start stop d =>
      obtain ⟨less, home, homeAt⟩ := opened kind .loop
      obtain ⟨inner, innerOk, inside⟩ := deeper less homeAt
      exact ⟨_, by simp only [innerOk, restOk]; rfl, .loop at_ kind homeAt inside next⟩
    | block b =>
      obtain ⟨block, blockAt, -⟩ := forest.named at_ kind
      obtain ⟨less, home, homeAt⟩ := opened kind (.block blockAt)
      obtain ⟨inner, innerOk, inside⟩ := deeper less homeAt
      exact ⟨_, by simp only [Arena.fetchOfGet blockAt, innerOk, restOk]; rfl,
        .block at_ kind blockAt homeAt inside next⟩

theorem Forest.layWithin (forest : Forest p) {fuel : Nat} {c : ScopeId} {home : Scope}
    (at_ : p.scopes.get? c = some home) (enough : p.scopes.size < c.index + fuel) :
    ∃ body, p.bodyWithin fuel c = .ok body ∧ Laid p home.statements body := by
  induction fuel generalizing c home with
  | zero => exact absurd (Arena.below at_) (by omega)
  | succ fuel ih =>
    have deeper : ∀ ⦃d inner⦄, c.index < d.index → p.scopes.get? d = some inner →
        ∃ body, p.bodyWithin fuel d = .ok body ∧ Laid p inner.statements body :=
      fun d inner less there => ih there (by omega)
    obtain ⟨body, laidOk, laid⟩ := forest.layList deeper (forest.listed at_)
    refine ⟨body, ?_, laid⟩
    rw [Program.bodyWithin, Outcome.bindOk]
    exact ⟨home, Arena.fetchOfGet at_, laidOk⟩

theorem Forest.body (forest : Forest p) {c : ScopeId} {home : Scope}
    (at_ : p.scopes.get? c = some home) :
    ∃ body, p.body c = .ok body ∧ Laid p home.statements body :=
  forest.layWithin at_ (by omega)

theorem Forest.laid (forest : Forest p) {c : ScopeId} {home : Scope} {body : Body}
    (at_ : p.scopes.get? c = some home) (laid : p.body c = .ok body) :
    Laid p home.statements body := by
  obtain ⟨other, same, made⟩ := forest.body at_
  cases laid.symm.trans same
  exact made

theorem Forest.visited (forest : Forest p) {s : StmtId} {node : Statement}
    (at_ : p.stmts.get? s = some node) :
    ∃ stage ∈ p.stages, ∃ body, p.body stage.main = .ok body ∧ s ∈ body.preorder := by
  -- by recursion on the scope, since the owner of a scope stands in an older one
  induction depth : node.scope.index using Nat.strongRecOn generalizing s node with
  | ind n ih =>
    obtain ⟨home, homeAt, listed⟩ := forest.placed at_
    cases owner : home.owner with
    | none =>
      obtain ⟨stage, inside, main⟩ := forest.roots homeAt owner
      obtain ⟨body, bodyOk, laid⟩ := forest.body homeAt
      exact ⟨stage, inside, body, main ▸ bodyOk, laid.listed listed⟩
    | some o =>
      obtain ⟨outer, outerAt, opens⟩ := forest.owned homeAt owner
      obtain ⟨less, -⟩ := forest.nested outerAt opens
      obtain ⟨stage, inside, body, bodyOk, there⟩ := ih _ (depth ▸ less) outerAt rfl
      obtain ⟨main, mainAt, -⟩ := forest.mains inside
      exact ⟨stage, inside, body, bodyOk,
        (forest.laid mainAt bodyOk).nested there outerAt opens homeAt listed⟩

end

end ShaderGraph
