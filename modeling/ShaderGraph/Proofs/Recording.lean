import ShaderGraph.Proofs.Searching
import ShaderGraph.Proofs.Stamping
import ShaderGraph.Proofs.Visibility
/-! What a scope writes, told before any walk and kept by a walk. The set told beforehand puts in
the writes of a statement before those of the scopes that it opens, a walk records them after.
Writes are not numbered in the order of the walk, so the last that is put in counts, not the
greatest. The two agree, since of the statements that open scopes only a loop writes, and only its
counter. -/
namespace ShaderGraph

def Program.writesOf (p : Program) (s : StmtId) : List Stamp :=
  ((p.stmts.get? s).map Statement.writes).getD []

section

variable {p : Program} {v : VarId}

theorem writesAt {s : StmtId} {node : Statement} (at_ : p.stmts.get? s = some node) :
    p.writesOf s = node.writes := by rw [Program.writesOf, at_]; rfl

theorem Laid.collected {l : List StmtId} {body : Body} (laid : Laid p l body) (set : Stamps) :
    (body.collectWrites set).get? v =
      (lastOf v (body.preorder.flatMap p.writesOf)).or (set.get? v) := by
  have none : Stamps.empty.get? v = none := rfl
  induction laid generalizing set with
  | done => rfl
  | act at_ _ _ next =>
    rw [Body.collectWrites, next, Stamps.getWritten, Body.preorder, List.flatMap_cons, writesAt at_,
      lastAppend, Option.or_assoc]
  | branch at_ _ _ _ _ _ _ inYes inNo next =>
    rw [Body.collectWrites, next, Stamps.getUnion, inNo, Stamps.getUnion, inYes, Stamps.getWritten,
      Body.preorder, List.flatMap_cons, writesAt at_]
    simp only [List.flatMap_append, lastAppend, Option.or_assoc, none, Option.none_or]
  | loop at_ _ _ _ _ deep next | block at_ _ _ _ _ _ deep next =>
    rw [Body.collectWrites, next, Stamps.getUnion, deep, Stamps.getWritten, Body.preorder,
      List.flatMap_cons, writesAt at_]
    simp only [List.flatMap_append, lastAppend, Option.or_assoc, none, Option.none_or]

theorem Built.openingWrites (built : Built p) (free : ∀ s, ¬ p.Counts s v) {s : StmtId}
    {node : Statement} {kind : StatementKind} {c : ScopeId} (at_ : p.stmts.get? s = some node)
    (named : node.kind = kind) (opens : Opens p kind c) : lastOf v node.writes = none := by
  have records := (built.dated at_).writes
  rw [named] at records
  generalize node.writes = writes at records ⊢
  cases opens with
  | accept | reject | block =>
    cases records
    rfl
  | @loop counter start stop =>
    cases records
    have other : counter ≠ v := fun same => free s ⟨node, start, stop, c, at_, same ▸ named⟩
    simp [lastOf, other]

theorem recordedWrote (s : StmtId) (writes : List Stamp) (rest : List Event) :
    recorded (.wrote s writes :: rest) = writes ++ recorded rest := rfl

theorem Built.recordedAsWritten (built : Built p) (free : ∀ s, ¬ p.Counts s v) {l : List StmtId}
    {body : Body} (laid : Laid p l body) :
    lastOf v (recorded body.events) = lastOf v (body.preorder.flatMap p.writesOf) := by
  induction laid with
  | done => rfl
  | act at_ _ _ next =>
    rw [Body.events, recordedWrote, Body.preorder, List.flatMap_cons, writesAt at_]
    simp only [lastAppend, next]
  | branch at_ kind _ _ _ _ _ inYes inNo next =>
    have own := built.openingWrites free at_ kind .accept
    rw [Body.events, Body.preorder, List.flatMap_cons, writesAt at_]
    simp only [recordedAppend, recordedWrote, List.flatMap_append, lastAppend, own, inYes, inNo,
      next, Option.or_none]
  | loop at_ kind _ _ _ deep next =>
    have own := built.openingWrites free at_ kind .loop
    rw [Body.events, Body.preorder, List.flatMap_cons, writesAt at_]
    simp only [recordedAppend, recordedWrote, List.flatMap_append, lastAppend, own, deep, next,
      Option.or_none]
  | @block s node b block _ _ inner rest at_ kind blockAt _ _ _ deep next =>
    have own := built.openingWrites free at_ kind (.block blockAt)
    have met : recorded (Body.block s node b block inner rest).events =
        recorded inner.events ++ (node.writes ++ recorded rest.events) :=
      recordedAppend inner.events (.wrote s node.writes :: rest.events)
    rw [met, Body.preorder, List.flatMap_cons, writesAt at_]
    simp only [List.flatMap_append, lastAppend, own, deep, next, Option.or_none]

theorem reachedAsWritten (reachable : Reachable p) {c : ScopeId} {home : Scope}
    (at_ : p.scopes.get? c = some home) : ∃ writes, p.scopeWrites c = .ok writes ∧
      (∀ v, writes.contains v = true ↔ ∃ s node t, Below p c s ∧ p.stmts.get? s = some node ∧
        t ∈ node.writes ∧ t.var = v) ∧
      ∀ d annotate before lines after, Emit.scope p d annotate c before = .ok lines after →
        ∀ v, (∀ s, ¬ p.Counts s v) →
          after.reached.get? v = (before.reached.union writes).get? v := by
  have built := reachableBuilt reachable
  obtain ⟨body, laidOut, laid⟩ := built.forest.body at_
  have told (v : VarId) : (body.collectWrites .empty).get? v =
      lastOf v (body.preorder.flatMap p.writesOf) :=
    (laid.collected .empty).trans (Option.or_none ..)
  refine ⟨body.collectWrites .empty, ?_, fun v => ?_, ?_⟩
  · rw [Program.scopeWrites, laidOut]
    rfl
  · rw [Stamps.contains, told, lastSome]
    constructor
    · intro h
      obtain ⟨t, inside, same⟩ := h
      obtain ⟨s, visited, written⟩ := List.mem_flatMap.mp inside
      obtain ⟨node, nodeAt⟩ := laid.preorder.stands visited
      exact ⟨s, node, t, (laid.memBelow at_).mp visited, nodeAt, writesAt nodeAt ▸ written, same⟩
    · intro h
      obtain ⟨s, node, t, below, nodeAt, written, same⟩ := h
      have visited := (laid.memBelow at_).mpr below
      exact ⟨t, List.mem_flatMap.mpr ⟨s, visited, writesAt nodeAt ▸ written⟩, same⟩
  · intro d annotate before lines after ran v free
    -- what the walk starts from is as if one statement had written it all
    have start : before.reached = .ofList (recorded [.wrote ⟨0⟩ before.reached.toList]) := by
      rw [recordedWrote, recorded, List.flatMap_nil, List.append_nil, Stamps.ofOwn]
    obtain ⟨reached, -⟩ := built.forest.scopeReplays at_ laidOut _ before lines after start ran
    rw [reached, recordedAppend, ofListAppend, ← start, Stamps.getWritten,
      built.recordedAsWritten free laid, Stamps.getUnion, told]

def revisitedRun : List Call :=
  [.addStage .fragment, .literal (.int 0), .declare ⟨0⟩ "v" .int1 (some ⟨0⟩), .read ⟨0⟩,
    .loop ⟨0⟩ ⟨0⟩ ⟨0⟩, .assign ⟨0⟩ ⟨1⟩ ⟨0⟩, .assign ⟨1⟩ ⟨1⟩ ⟨0⟩]

theorem revisitedRuns : ∃ p home writes, Program.after { name := "p" } revisitedRun = some p ∧
    p.scopes.get? ⟨0⟩ = some home ∧ p.scopeWrites ⟨0⟩ = .ok writes ∧
    writes.toList = [⟨⟨0⟩, 1⟩, ⟨⟨1⟩, 0⟩] ∧ p.timesAssigned ⟨0⟩ = 2 ∧
    p.kinds = [.act (.declare ⟨0⟩ (some ⟨0⟩)), .loop ⟨1⟩ ⟨0⟩ ⟨0⟩ ⟨1⟩, .act (.assign ⟨1⟩ ⟨0⟩),
      .act (.assign ⟨1⟩ ⟨0⟩)] :=
  ⟨_, _, _, rfl, rfl, rfl, rfl, rfl, rfl⟩

theorem revisitedWalks : (Program.after { name := "p" } revisitedRun).map
    (fun p => p.reports ⟨0⟩) = some (some []) := by decide +kernel

theorem reachedAsWrittenRevisited : ∃ p home writes lines after,
    Program.after { name := "p" } revisitedRun = some p ∧ p.scopes.get? ⟨0⟩ = some home ∧
    p.scopeWrites ⟨0⟩ = .ok writes ∧
    Emit.scope p Glsl.dialect false ⟨0⟩ {} = .ok lines after ∧ (∀ s, ¬ p.Counts s ⟨0⟩) ∧
    writes.get? ⟨0⟩ = some ⟨⟨0⟩, 1⟩ ∧ after.reached.get? ⟨0⟩ = some ⟨⟨0⟩, 1⟩ ∧
    p.timesAssigned ⟨0⟩ = 2 := by
  obtain ⟨p, home, writes, ran, at_, told, listed, times, kinds⟩ := revisitedRuns
  have walks := revisitedWalks
  rw [ran, Option.map_some] at walks
  have reported := Option.some.inj walks
  unfold Program.reports at reported
  split at reported
  · rename_i lines after written
    obtain ⟨again, same, -, agrees⟩ := reachedAsWritten ((Reachable.new "p").after ran) at_
    cases told.symm.trans same
    have free : ∀ s, ¬ p.Counts s ⟨0⟩ := by
      intro s counts
      obtain ⟨node, start, stop, body, nodeAt, named⟩ := counts
      have inside := List.mem_of_getElem? (kindsAt nodeAt)
      rw [named, kinds] at inside
      simp at inside
    have get : writes.get? ⟨0⟩ = some ⟨⟨0⟩, 1⟩ := by
      rw [Stamps.get?, listed]
      rfl
    refine ⟨p, home, writes, lines, after, ran, at_, told, written, free, get, ?_, times⟩
    rw [agrees _ _ _ _ _ written ⟨0⟩ free, Stamps.getUnion, get]
    rfl
  · cases reported

end

end ShaderGraph
