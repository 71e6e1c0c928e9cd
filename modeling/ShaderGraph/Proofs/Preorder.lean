import Mathlib.Data.List.Nodup
import ShaderGraph.Proofs.Layout
/-! The walk in preorder: each statement, then the statements of the scopes it opens, then those
after it. The walk is a relation that knows no fuel; what it visits is counted. A statement is
walked as often as it stands in the lists walked from and directly under the statements that are
walked, which in a forest is once. -/
namespace ShaderGraph

namespace Program

variable (p : Program)

def under (s : StmtId) : Outcome (List StmtId) := do
  let homes ← (← p.childScopes s).mapM p.scopes.fetch
  return homes.flatMap Scope.statements

def listUnder (s : StmtId) : List StmtId :=
  match p.under s with
  | .ok nested => nested
  | .error _ => []

end Program

inductive Preorder (p : Program) : List StmtId → List StmtId → Prop
  | done : Preorder p [] []
  | visit {s : StmtId} {nested later inside rest : List StmtId} (opened : p.under s = .ok nested)
      (deep : Preorder p nested inside) (next : Preorder p later rest) :
      Preorder p (s :: later) (s :: (inside ++ rest))

namespace Preorder

variable {p : Program} {l m walk other : List StmtId}

theorem append (first : Preorder p l walk) (second : Preorder p m other) :
    Preorder p (l ++ m) (walk ++ other) := by
  induction first with
  | done => exact second
  | visit opened deep _ _ next =>
    rw [List.cons_append, List.cons_append, List.append_assoc]
    exact .visit opened deep next

theorem unique (first : Preorder p l walk) (second : Preorder p l other) : walk = other := by
  induction first generalizing other with
  | done =>
    cases second
    rfl
  | visit opened _ _ deeper after =>
    cases second with
    | visit again deep next =>
      cases opened.symm.trans again
      rw [deeper deep, after next]

theorem count (walked : Preorder p l walk) (t : StmtId) :
    walk.count t = l.count t + (walk.flatMap p.listUnder).count t := by
  induction walked with
  | done => rfl
  | @visit s nested later inside rest opened _ _ deeper after =>
    have mine : p.listUnder s = nested := by rw [Program.listUnder, opened]
    simp only [List.count_cons, List.count_append, List.flatMap_cons, List.flatMap_append, deeper,
      after, mine]
    omega

theorem stands (walked : Preorder p l walk) {s : StmtId} (inside : s ∈ walk) :
    ∃ node, p.stmts.get? s = some node := by
  induction walked with
  | done => cases inside
  | visit opened _ _ deeper after =>
    simp only [List.mem_cons, List.mem_append] at inside
    rcases inside with rfl | inside | inside
    · simp only [Program.under, Program.childScopes, Outcome.bindOk, Arena.fetchOk] at opened
      obtain ⟨_, ⟨node, at_, -⟩, -⟩ := opened
      exact ⟨node, at_⟩
    · exact deeper inside
    · exact after inside

end Preorder

section

variable {p : Program}

theorem underOk {s : StmtId} {children : List ScopeId} {homes : List Scope} {nested : List StmtId}
    (opened : p.childScopes s = .ok children)
    (read : List.Forall₂ (fun c home => p.scopes.get? c = some home) children homes)
    (lists : homes.flatMap Scope.statements = nested) : p.under s = .ok nested := by
  simp only [Program.under, Outcome.bindOk, Outcome.pureOk, Outcome.mapMOk, Arena.fetchOk]
  exact ⟨children, opened, homes, read, lists⟩

theorem childrenOk {s : StmtId} {node : Statement} (at_ : p.stmts.get? s = some node) :
    p.childScopes s = match node.kind with
      | .act _ => .ok []
      | .branch _ accept reject => .ok [accept, reject]
      | .loop _ _ _ body => .ok [body]
      | .block b => (p.blocks.fetch b).map fun block => [block.body] := by
  simp only [Program.childScopes, Arena.fetchOfGet at_, bind, Except.bind]
  cases node.kind with
  | block b => cases h : p.blocks.fetch b <;> rfl
  | _ => rfl

theorem Laid.preorder {l : List StmtId} {body : Body} (laid : Laid p l body) :
    Preorder p l body.preorder := by
  induction laid with
  | done => exact .done
  | act at_ kind _ next =>
    have opened := childrenOk at_
    rw [kind] at opened
    exact .visit (underOk opened .nil rfl) .done next
  | branch at_ kind yesAt noAt _ _ _ first second next =>
    have opened := childrenOk at_
    rw [kind] at opened
    exact .visit (underOk opened (.cons yesAt (.cons noAt .nil)) (by simp)) (first.append second)
      next
  | loop at_ kind homeAt _ _ inside next =>
    have opened := childrenOk at_
    rw [kind] at opened
    exact .visit (underOk opened (.cons homeAt .nil) (List.append_nil _)) inside next
  | block at_ kind blockAt homeAt _ _ inside next =>
    have opened := childrenOk at_
    simp only [kind, Arena.fetchOfGet blockAt] at opened
    exact .visit (underOk opened (.cons homeAt .nil) (List.append_nil _)) inside next

theorem Built.forks (built : Built p) {s : StmtId} {node : Statement} {condition : ExprId}
    {accept reject : ScopeId} (at_ : p.stmts.get? s = some node)
    (kind : node.kind = .branch condition accept reject) : accept ≠ reject := by
  induction built generalizing node with
  | new name => exact absurd at_ emptyGet
  | edit _ edit ih =>
    cases edit with
    | branch =>
      rcases Arena.getPushed at_ with ⟨rfl, rfl⟩ | old
      · cases kind
        intro same
        have grown := congrArg Handle.index same
        simp [Program.opened, Program.withScope, Program.spent] at grown
      · exact ih old kind
    | declare | assign | store | loop | block | output =>
      rcases Arena.getPushed at_ with ⟨rfl, rfl⟩ | old
      · cases kind
      · exact ih old kind
    | fill =>
      obtain ⟨old, before, rfl⟩ := Arena.getReplaced at_
      refine ih before ?_
      split at kind <;> exact kind
    | _ => exact ih at_ kind

theorem mainsKept {kind : StageKind} {f : Stage → Stage} (keeps : ∀ s, (f s).main = s.main) :
    (p.mapStage kind f).stages.map Stage.main = p.stages.map Stage.main := by
  simp only [Program.mapStage, List.map_map]
  refine List.map_congr_left fun s _ => ?_
  simp only [Function.comp_apply]
  split
  · exact keeps s
  · rfl

theorem Built.mains (built : Built p) : (p.stages.map Stage.main).Nodup := by
  induction built with
  | new name => exact List.nodup_nil
  | edit before edit ih =>
    cases edit with
    | stage =>
      rw [Program.withStage, List.map_append]
      refine List.nodup_append.mpr ⟨ih, List.nodup_cons.mpr ⟨List.not_mem_nil, .nil⟩, ?_⟩
      rintro _ old _ new
      obtain ⟨stage, inside, rfl⟩ := List.mem_map.mp old
      obtain ⟨home, at_, -⟩ := before.forest.mains inside
      rw [List.mem_singleton.mp new]
      exact Arena.neFresh at_
    | stageInput | stageOutput | builtin =>
      rw [mainsKept]
      · exact ih
      · exact fun _ => rfl
    | _ => exact ih

theorem Built.children (built : Built p) {s : StmtId} {node : Statement}
    (at_ : p.stmts.get? s = some node) :
    ∃ children, p.childScopes s = .ok children ∧ children.Nodup ∧
      ∀ c, c ∈ children ↔ Opens p node.kind c := by
  have opened := childrenOk at_
  cases kind : node.kind with
  | act => exact ⟨[], by rw [opened, kind], by simp, by simp⟩
  | branch condition a r =>
    exact ⟨[a, r], by rw [opened, kind], by simpa using built.forks at_ kind, by simp⟩
  | loop counter start stop body => exact ⟨[body], by rw [opened, kind], by simp, by simp⟩
  | block b =>
    obtain ⟨block, blockAt, -⟩ := built.forest.named at_ kind
    rw [kind] at opened
    simp only [Arena.fetchOfGet blockAt] at opened
    exact ⟨[block.body], opened, by simp, by simp [blockAt]⟩

theorem Forest.opensIff (forest : Forest p) {s : StmtId} {node : Statement} {c : ScopeId}
    {inner : Scope} (at_ : p.stmts.get? s = some node) (innerAt : p.scopes.get? c = some inner) :
    Opens p node.kind c ↔ inner.owner = some s := by
  constructor
  · intro opens
    obtain ⟨-, other, otherAt, under⟩ := forest.nested at_ opens
    cases innerAt.symm.trans otherAt
    exact under.owner
  · intro owner
    obtain ⟨other, otherAt, opens⟩ := forest.owned innerAt owner
    cases at_.symm.trans otherAt
    exact opens

theorem Forest.listCount (forest : Forest p) {c : ScopeId} {home : Scope}
    (at_ : p.scopes.get? c = some home) {t : StmtId} {node : Statement}
    (there : p.stmts.get? t = some node) :
    home.statements.count t = if c = node.scope then 1 else 0 := by
  split
  · rename_i here
    subst here
    obtain ⟨again, againAt, inside⟩ := forest.placed there
    cases at_.symm.trans againAt
    exact List.count_eq_one_of_mem (forest.once at_) inside
  · rename_i other
    refine List.count_eq_zero_of_not_mem fun inside => other ?_
    obtain ⟨again, againAt, same⟩ := forest.listed at_ t inside
    cases there.symm.trans againAt
    exact same.symm

theorem Forest.tally (forest : Forest p) {scopes : List ScopeId} {homes : List Scope}
    (read : List.Forall₂ (fun c home => p.scopes.get? c = some home) scopes homes) {t : StmtId}
    {node : Statement} (there : p.stmts.get? t = some node) :
    (homes.flatMap Scope.statements).count t = scopes.count node.scope := by
  induction read with
  | nil => rfl
  | cons at_ _ ih =>
    rw [List.flatMap_cons, List.count_append, forest.listCount at_ there, ih, List.count_cons,
      Nat.add_comm]
    simp

theorem Built.underCount (built : Built p) {t o : StmtId} {node owner : Statement} {home : Scope}
    (at_ : p.stmts.get? t = some node) (homeAt : p.scopes.get? node.scope = some home)
    (ownerAt : p.stmts.get? o = some owner) :
    (p.listUnder o).count t = if home.owner = some o then 1 else 0 := by
  have forest := built.forest
  -- it stands in the list of one scope, and that scope is a child of its owner alone
  obtain ⟨children, opened, once, same⟩ := built.children ownerAt
  obtain ⟨homes, read⟩ := Outcome.mapMTotal fun c inside => by
    obtain ⟨-, inner, innerAt, -⟩ := forest.nested ownerAt ((same c).mp inside)
    exact ⟨inner, Arena.fetchOfGet innerAt⟩
  have read := Outcome.mapMOk.mp read
  simp only [Arena.fetchOk] at read
  rw [Program.listUnder, underOk opened read rfl]
  simp only [forest.tally read at_, once.count, same, forest.opensIff ownerAt homeAt]

theorem ownedCount {t : StmtId} {owner : Option StmtId} {walk : List StmtId}
    (each : ∀ o ∈ walk, (p.listUnder o).count t = if owner = some o then 1 else 0) :
    (walk.flatMap p.listUnder).count t = owner.elim 0 walk.count := by
  induction walk with
  | nil => cases owner <;> rfl
  | cons s rest ih =>
    rw [List.flatMap_cons, List.count_append, each s List.mem_cons_self,
      ih fun o inside => each o (List.mem_cons_of_mem _ inside)]
    cases owner with
    | none => rfl
    | some o =>
      simp only [Option.elim_some, List.count_cons, Option.some.injEq, beq_iff_eq, eq_comm (a := o)]
      exact Nat.add_comm ..

theorem Built.walkedOnce (built : Built p) {homes : List Scope} {walk : List StmtId}
    (read : List.Forall₂ (fun c home => p.scopes.get? c = some home) (p.stages.map Stage.main) homes)
    (walked : Preorder p (homes.flatMap Scope.statements) walk) {t : StmtId} {node : Statement}
    (at_ : p.stmts.get? t = some node) : walk.count t = 1 := by
  have forest := built.forest
  -- by recursion on the scope: a statement is walked as often as the owner of its scope
  induction depth : node.scope.index using Nat.strongRecOn generalizing t node with
  | ind n ih =>
    obtain ⟨home, homeAt, -⟩ := forest.placed at_
    have each : ∀ o ∈ walk, (p.listUnder o).count t = if home.owner = some o then 1 else 0 := by
      intro o inside
      obtain ⟨owner, ownerAt⟩ := walked.stands inside
      exact built.underCount at_ homeAt ownerAt
    rw [walked.count, forest.tally read at_, ownedCount each]
    cases owner : home.owner with
    | none =>
      obtain ⟨stage, inside, main⟩ := forest.roots homeAt owner
      exact List.count_eq_one_of_mem built.mains (main ▸ List.mem_map_of_mem inside)
    | some o =>
      obtain ⟨outer, outerAt, opens⟩ := forest.owned homeAt owner
      obtain ⟨less, -⟩ := forest.nested outerAt opens
      have outside : node.scope ∉ p.stages.map Stage.main := by
        intro inside
        obtain ⟨stage, there, main⟩ := List.mem_map.mp inside
        obtain ⟨again, againAt, none, -⟩ := forest.mains there
        rw [main] at againAt
        cases homeAt.symm.trans againAt
        cases owner.symm.trans none
      rw [List.count_eq_zero_of_not_mem outside, Option.elim_some, ih _ (depth ▸ less) outerAt rfl]

structure Scope.Nested (p : Program) (c : ScopeId) (inner : Scope) (o : StmtId) : Prop where
  owner : inner.owner = some o
  child : ∃ children, p.childScopes o = .ok children ∧ children.count c = 1
  alone : ∀ s children, p.childScopes s = .ok children → c ∈ children → s = o
  around : ∃ node outer, p.stmts.get? o = some node ∧ p.scopes.get? node.scope = some outer ∧
    inner.parent = some node.scope ∧ node.scope.index < c.index ∧ inner.stage = outer.stage

def Program.Walked (p : Program) (stage : Stage) (body : Body) : Prop :=
  ∃ home, p.scopes.get? stage.main = some home ∧
    ∀ walk, Preorder p home.statements walk ↔ walk = body.preorder

structure WellFormed (p : Program) : Prop where
  listed : ∀ s : StmtId, (p.scopes.nodes.toList.flatMap Scope.statements).count s =
    if s.index < p.stmts.size then 1 else 0
  placed : ∀ s node, p.stmts.get? s = some node →
    ∃ home, p.scopes.get? node.scope = some home ∧ s ∈ home.statements
  nested : ∀ c inner, p.scopes.get? c = some inner → c ∉ p.stages.map Stage.main →
    ∃ o, inner.Nested p c o
  blocks : ∀ b node, p.blocks.get? b = some node → ∃ stmt, p.stmts.get? node.statement = some stmt ∧
    stmt.kind = .block b ∧ stmt.scope = node.parent ∧
    p.childScopes node.statement = .ok [node.body]
  walks : ∃ bodies, p.stages.mapM (fun stage => p.body stage.main) = .ok bodies ∧
    List.Forall₂ p.Walked p.stages bodies ∧
    ∀ s : StmtId, (bodies.flatMap Body.preorder).count s = if s.index < p.stmts.size then 1 else 0

theorem Built.nested (built : Built p) {c : ScopeId} {inner : Scope}
    (at_ : p.scopes.get? c = some inner) (other : c ∉ p.stages.map Stage.main) :
    ∃ o, inner.Nested p c o := by
  have forest := built.forest
  cases owner : inner.owner with
  | none =>
    obtain ⟨stage, inside, main⟩ := forest.roots at_ owner
    exact absurd (main ▸ List.mem_map_of_mem inside) other
  | some o =>
    obtain ⟨node, nodeAt, opens⟩ := forest.owned at_ owner
    obtain ⟨less, again, againAt, under⟩ := forest.nested nodeAt opens
    cases at_.symm.trans againAt
    obtain ⟨outer, outerAt, stage⟩ := under.stage
    obtain ⟨children, opened, once, same⟩ := built.children nodeAt
    refine ⟨o, owner, ⟨children, opened, List.count_eq_one_of_mem once ((same c).mpr opens)⟩,
      fun s others found inside => ?_, node, outer, nodeAt, outerAt, under.parent, less, stage⟩
    have stands := found
    simp only [Program.childScopes, Outcome.bindOk, Arena.fetchOk] at stands
    obtain ⟨stmt, stmtAt, -⟩ := stands
    obtain ⟨_, again, -, opensIt⟩ := built.children stmtAt
    cases found.symm.trans again
    have mine := (forest.opensIff stmtAt at_).mp ((opensIt c).mp inside)
    exact Option.some.inj (mine.symm.trans owner)

theorem Forest.walks (forest : Forest p) :
    ∃ bodies, p.stages.mapM (fun stage => p.body stage.main) = .ok bodies ∧
      List.Forall₂ p.Walked p.stages bodies := by
  have each : ∀ stage ∈ p.stages, ∃ body, p.body stage.main = .ok body ∧ p.Walked stage body := by
    intro stage inside
    obtain ⟨home, at_, -⟩ := forest.mains inside
    obtain ⟨body, made, laid⟩ := forest.body at_
    refine ⟨body, made, home, at_, fun walk => ⟨fun walked => walked.unique laid.preorder, ?_⟩⟩
    rintro rfl
    exact laid.preorder
  generalize p.stages = stages at each
  induction stages with
  | nil => exact ⟨[], rfl, .nil⟩
  | cons stage rest ih =>
    obtain ⟨body, made, walked⟩ := each stage List.mem_cons_self
    obtain ⟨bodies, others, all⟩ := ih fun s inside => each s (List.mem_cons_of_mem _ inside)
    refine ⟨body :: bodies, ?_, .cons walked all⟩
    simp only [List.mapM_cons, made, others]
    rfl

theorem walkedTogether {stages : List Stage} {bodies : List Body}
    (each : List.Forall₂ p.Walked stages bodies) : ∃ homes,
      List.Forall₂ (fun c home => p.scopes.get? c = some home) (stages.map Stage.main) homes ∧
      Preorder p (homes.flatMap Scope.statements) (bodies.flatMap Body.preorder) := by
  induction each with
  | nil => exact ⟨[], .nil, .done⟩
  | cons walked _ ih =>
    obtain ⟨home, at_, walks⟩ := walked
    obtain ⟨homes, read, all⟩ := ih
    exact ⟨home :: homes, .cons at_ read, ((walks _).mpr rfl).append all⟩

theorem Built.walksOnce (built : Built p) {bodies : List Body}
    (each : List.Forall₂ p.Walked p.stages bodies) (s : StmtId) :
    (bodies.flatMap Body.preorder).count s = if s.index < p.stmts.size then 1 else 0 := by
  obtain ⟨homes, read, walked⟩ := walkedTogether each
  split
  · rename_i inside
    obtain ⟨node, at_⟩ := Arena.atBelow inside
    exact built.walkedOnce read walked at_
  · rename_i outside
    refine List.count_eq_zero_of_not_mem fun inside => outside ?_
    obtain ⟨node, at_⟩ := walked.stands inside
    exact Arena.below at_

theorem allScopes (p : Program) : List.Forall₂ (fun c home => p.scopes.get? c = some home)
    ((List.range p.scopes.size).map Handle.mk) p.scopes.nodes.toList := by
  refine List.forall₂_iff_get.mpr ⟨by simp [Arena.size], fun i inside other => ?_⟩
  simp [Arena.get?]

theorem Built.listedOnce (built : Built p) (s : StmtId) :
    (p.scopes.nodes.toList.flatMap Scope.statements).count s =
      if s.index < p.stmts.size then 1 else 0 := by
  have forest := built.forest
  have read := allScopes p
  split
  · rename_i inside
    obtain ⟨node, at_⟩ := Arena.atBelow inside
    obtain ⟨home, homeAt, -⟩ := forest.placed at_
    have once : ((List.range p.scopes.size).map (Handle.mk : Nat → ScopeId)).Nodup :=
      List.nodup_range.map fun _ _ same => congrArg Handle.index same
    rw [forest.tally read at_]
    refine List.count_eq_one_of_mem once (List.mem_map.mpr ⟨_, ?_, rfl⟩)
    exact List.mem_range.mpr (Arena.below homeAt)
  · rename_i outside
    refine List.count_eq_zero_of_not_mem fun inside => outside ?_
    obtain ⟨home, among, listed⟩ := List.mem_flatMap.mp inside
    obtain ⟨i, at_⟩ := List.mem_iff_getElem?.mp among
    rw [Array.getElem?_toList] at at_
    have homeAt : p.scopes.get? ⟨i⟩ = some home := at_
    obtain ⟨node, there, -⟩ := forest.listed homeAt s listed
    exact Arena.below there

theorem reachableWellFormed (reachable : Reachable p) : WellFormed p := by
  have built := reachableBuilt reachable
  have forest := built.forest
  obtain ⟨bodies, laid, walked⟩ := forest.walks
  refine ⟨built.listedOnce, fun s node at_ => forest.placed at_,
    fun c inner at_ other => built.nested at_ other, fun b node at_ => ?_,
    bodies, laid, walked, built.walksOnce walked⟩
  obtain ⟨stmt, stmtAt, kind, parent⟩ := forest.blocks at_
  refine ⟨stmt, stmtAt, kind, parent, ?_⟩
  simp only [childrenOk stmtAt, kind, Arena.fetchOfGet at_]
  rfl

def nestedRun : List Call :=
  [.addStage .fragment, .addStage .vertex, .literal (.int 0), .literal (.bool true),
    .branch ⟨0⟩ ⟨1⟩, .loop ⟨3⟩ ⟨0⟩ ⟨0⟩, .declare ⟨0⟩ "v" .int1 (some ⟨1⟩), .block ⟨2⟩ "use",
    .loop ⟨9⟩ ⟨0⟩ ⟨0⟩, .output ⟨0⟩ none .int1, .declare ⟨1⟩ "w" .int1 none]

theorem reachableWellFormedNested : ∃ p body other,
    Program.after { name := "p" } nestedRun = some p ∧ WellFormed p ∧
    p.body ⟨0⟩ = .ok body ∧ body.preorder = [⟨0⟩, ⟨3⟩, ⟨2⟩, ⟨1⟩] ∧
    p.body ⟨1⟩ = .ok other ∧ other.preorder = [⟨4⟩] :=
  have ran : Program.after { name := "p" } nestedRun = some _ := rfl
  ⟨_, _, _, ran, reachableWellFormed (.after (.new "p") ran), rfl, rfl, rfl, rfl⟩

end

end ShaderGraph
