import ShaderGraph.Proofs.Interface
import ShaderGraph.Proofs.Preorder
import ShaderGraph.Proofs.Replay
/-! The search for a block. Below a scope stand its own statements and those of the scopes that they
open, to any depth, and a walk from the scope visits just these. The search answers with the block
of the wanted operation that the walk comes to first, and with none where no such block is run. -/
namespace ShaderGraph

inductive Below (p : Program) (c : ScopeId) : StmtId → Prop
  | here {home : Scope} {s : StmtId} (at_ : p.scopes.get? c = some home)
      (inside : s ∈ home.statements) : Below p c s
  | under {o s : StmtId} {node : Statement} {d : ScopeId} {inner : Scope} (outer : Below p c o)
      (at_ : p.stmts.get? o = some node) (opens : Opens p node.kind d)
      (innerAt : p.scopes.get? d = some inner) (inside : s ∈ inner.statements) : Below p c s

section

variable {p : Program} {c : ScopeId}

theorem Laid.memBelow {home : Scope} {body : Body} (laid : Laid p home.statements body)
    (at_ : p.scopes.get? c = some home) {s : StmtId} : s ∈ body.preorder ↔ Below p c s := by
  constructor
  · refine laid.all (fun _ => .here at_) ?_ s
    intro o node d inner outer nodeAt opens innerAt _
    exact .under outer nodeAt opens innerAt
  · intro below
    induction below with
    | here again inside =>
      cases at_.symm.trans again
      exact laid.listed inside
    | under _ nodeAt opens innerAt inside visited =>
      exact laid.nested visited nodeAt opens innerAt inside

def Program.Runs (p : Program) (op : String) (s : StmtId) (b : BlockId) : Prop :=
  ∃ node block, p.stmts.get? s = some node ∧ node.kind = .block b ∧
    p.blocks.get? b = some block ∧ block.op = op

def Program.run? (p : Program) (op : String) (s : StmtId) : Option BlockId := do
  let node ← p.stmts.get? s
  match node.kind with
  | .block b => if (← p.blocks.get? b).op = op then some b else none
  | _ => none

theorem runIff {op : String} {s : StmtId} {b : BlockId} :
    p.run? op s = some b ↔ p.Runs op s b := by
  simp only [Program.run?, Program.Runs, Option.bind_eq_bind, Option.bind_eq_some_iff]
  constructor
  · intro h
    obtain ⟨node, at_, found⟩ := h
    split at found
    · rename_i named
      obtain ⟨block, blockAt, found⟩ := Option.bind_eq_some_iff.mp found
      split at found
      · rename_i same
        cases found
        exact ⟨node, block, at_, named, blockAt, same⟩
      · cases found
    · cases found
  · intro h
    obtain ⟨node, block, at_, named, blockAt, same⟩ := h
    refine ⟨node, at_, ?_⟩
    simp [named, blockAt, same]

theorem Laid.findBlock {l : List StmtId} {body : Body} (laid : Laid p l body) (op : String) :
    body.findBlock op = body.preorder.findSome? (p.run? op) := by
  induction laid with
  | done => rfl
  | @act s _ _ _ _ at_ kind _ next =>
    have passed : p.run? op s = none := by simp [Program.run?, at_, kind]
    rw [Body.findBlock, Body.preorder, List.findSome?_cons, passed, next]
  | @branch s _ _ _ _ _ _ _ _ _ _ at_ kind _ _ _ _ _ inYes inNo next =>
    have passed : p.run? op s = none := by simp [Program.run?, at_, kind]
    rw [Body.findBlock, Body.preorder, List.findSome?_cons, passed, inYes, inNo, next]
    simp only [List.findSome?_append, Option.or_assoc]
  | @loop s _ _ _ _ _ _ _ _ _ at_ kind _ _ _ deep next =>
    have passed : p.run? op s = none := by simp [Program.run?, at_, kind]
    rw [Body.findBlock, Body.preorder, List.findSome?_cons, passed, deep, next]
    exact List.findSome?_append.symm
  | @block s node b block home later inner rest at_ kind blockAt _ _ _ deep next =>
    have met : p.run? op s = if block.op = op then some b else none := by
      simp [Program.run?, at_, kind, blockAt]
    rw [Body.findBlock, Body.preorder, List.findSome?_cons, met]
    split
    · rfl
    · rw [deep, next]
      exact List.findSome?_append.symm

def Program.Earliest (p : Program) (op : String) (walk : List StmtId) (b : BlockId) : Prop :=
  ∃ before s after, walk = before ++ s :: after ∧ p.Runs op s b ∧
    ∀ t ∈ before, ∀ other, ¬ p.Runs op t other

theorem foundFirst {op : String} {walk : List StmtId} {b : BlockId} :
    walk.findSome? (p.run? op) = some b ↔ p.Earliest op walk b := by
  simp only [List.findSome?_eq_some_iff, runIff, Option.eq_none_iff_forall_ne_some,
    Program.Earliest, ne_eq]

theorem foundSome {op : String} {walk : List StmtId} :
    (walk.findSome? (p.run? op)).isSome ↔ ∃ s ∈ walk, ∃ b, p.Runs op s b := by
  rw [List.findSome?_isSome_iff]
  simp only [Option.isSome_iff_exists, runIff]

theorem Built.ranBelow (built : Built p) {stage : Stage} (inside : stage ∈ p.stages) {b : BlockId}
    {block : Block} {outer : Scope} (blockAt : p.blocks.get? b = some block)
    (outerAt : p.scopes.get? block.parent = some outer) (ofStage : outer.stage = stage.kind) :
    ∃ s, Below p stage.main s ∧ p.Runs block.op s b := by
  have forest := built.forest
  obtain ⟨node, at_, kind, parent⟩ := forest.blocks blockAt
  obtain ⟨other, among, body, laidOut, visited⟩ := forest.visited at_
  obtain ⟨again, home, there, homeAt, same⟩ := forest.ofBody among laidOut _ visited
  cases at_.symm.trans there
  rw [parent] at homeAt
  cases outerAt.symm.trans homeAt
  -- no two stages are of one kind, so the walk that comes to the block is the one from this stage
  have one : other = stage :=
    List.inj_on_of_nodup_map built.kinds among inside (same.symm.trans ofStage)
  subst one
  obtain ⟨main, mainAt, -⟩ := forest.mains inside
  exact ⟨_, ((forest.laid mainAt laidOut).memBelow mainAt).mp visited, node, block, at_, kind,
    blockAt, rfl⟩

theorem firstFound (reachable : Reachable p) {home : Scope} (at_ : p.scopes.get? c = some home)
    (op : String) : ∃ walk found, Preorder p home.statements walk ∧
      (∀ s, s ∈ walk ↔ Below p c s) ∧ p.findBlock c op = .ok found ∧
      (found.isSome ↔ ∃ s b, Below p c s ∧ p.Runs op s b) ∧
      (∀ b, found = some b ↔ p.Earliest op walk b) ∧
      ∀ stage ∈ p.stages, stage.main = c → ∀ b block outer, p.blocks.get? b = some block →
        p.scopes.get? block.parent = some outer → outer.stage = stage.kind → block.op = op →
        found.isSome := by
  have built := reachableBuilt reachable
  obtain ⟨body, laidOut, laid⟩ := built.forest.body at_
  have some_ : (body.findBlock op).isSome ↔ ∃ s b, Below p c s ∧ p.Runs op s b := by
    simp only [laid.findBlock, foundSome, laid.memBelow at_, exists_and_left]
  refine ⟨body.preorder, body.findBlock op, laid.preorder, fun s => laid.memBelow at_,
    ?_, some_, ?_, ?_⟩
  · rw [Program.findBlock, laidOut]
    rfl
  · intro b
    rw [laid.findBlock]
    exact foundFirst
  · rintro stage inside rfl b block outer blockAt outerAt ofStage rfl
    obtain ⟨s, below, runs⟩ := built.ranBelow inside blockAt outerAt ofStage
    exact some_.mpr ⟨s, b, below, runs⟩

def searchedRun : List Call :=
  [.addStage .fragment, .literal (.bool true), .branch ⟨0⟩ ⟨0⟩, .block ⟨2⟩ "use",
    .block ⟨1⟩ "wrap", .block ⟨4⟩ "use"]

theorem firstFoundNested : ∃ p home, Program.after { name := "p" } searchedRun = some p ∧
    p.scopes.get? ⟨0⟩ = some home ∧ Preorder p home.statements [⟨0⟩, ⟨2⟩, ⟨3⟩, ⟨1⟩] ∧
    p.Runs "use" ⟨1⟩ ⟨0⟩ ∧ p.findBlock ⟨0⟩ "use" = .ok (some ⟨2⟩) ∧
    p.Earliest "use" [⟨0⟩, ⟨2⟩, ⟨3⟩, ⟨1⟩] ⟨2⟩ := by
  obtain ⟨p, home, body, ran, at_, laidOut, visits, other, found⟩ : ∃ p home body,
      Program.after { name := "p" } searchedRun = some p ∧ p.scopes.get? ⟨0⟩ = some home ∧
      p.body ⟨0⟩ = .ok body ∧ body.preorder = [⟨0⟩, ⟨2⟩, ⟨3⟩, ⟨1⟩] ∧
      p.run? "use" ⟨1⟩ = some ⟨0⟩ ∧ p.findBlock ⟨0⟩ "use" = .ok (some ⟨2⟩) :=
    ⟨_, _, _, rfl, rfl, rfl, rfl, rfl, rfl⟩
  have reachable := (Reachable.new "p").after ran
  obtain ⟨walk, answer, walked, -, answered, -, first, -⟩ := firstFound reachable at_ "use"
  cases found.symm.trans answered
  have laid := (reachableBuilt reachable).forest.laid at_ laidOut
  have same : walk = [⟨0⟩, ⟨2⟩, ⟨3⟩, ⟨1⟩] := (walked.unique laid.preorder).trans visits
  subst same
  exact ⟨p, home, ran, at_, walked, runIff.mp other, found, (first ⟨2⟩).mp rfl⟩

end

end ShaderGraph
