import ShaderGraph.Proofs.Aggregate
import ShaderGraph.Proofs.Preorder
import ShaderGraph.Proofs.Replay
import ShaderGraph.Proofs.Stamping
/-! What a warning stands for. Each names a block that the walk has come to, a state the block was
bound against, and the number of a write of that variable by a statement met before the block.
No statement writes a number past the one its variable counts to in the end, so what is warned of
is stale in the finished program too. The warnings follow the walk, and within one block the
variables, so that none is given twice. -/
namespace ShaderGraph

structure StaleReport where
  statement : StmtId
  block : Block
  stamp : Stamp
  reached : UInt32
  deriving DecidableEq, Repr

namespace StaleReport

def diagnostic (p : Program) (kind : StageKind) (r : StaleReport) : Diagnostic :=
  p.staleWarning kind r.block r.stamp r.reached

def site (r : StaleReport) : StmtId × VarId := (r.statement, r.stamp.var)

def Before (walk : List StmtId) (r s : StaleReport) : Prop :=
  [r.statement, s.statement].Sublist walk ∨
    r.statement = s.statement ∧ r.stamp.var.index < s.stamp.var.index

structure Justified (p : Program) (kind : StageKind) (walk : List StmtId) (node : Statement)
    (home : Scope) (r : StaleReport) : Prop where
  stands : p.stmts.get? r.statement = some node
  block : ∃ b, node.kind = .block b ∧ p.blocks.get? b = some r.block
  within : p.scopes.get? node.scope = some home
  stage : home.stage = kind
  visited : r.statement ∈ walk
  bound : r.stamp ∈ node.reads.toList
  later : r.stamp.mutation < r.reached
  recorded : ∃ w earlier, [w, r.statement].Sublist walk ∧ p.stmts.get? w = some earlier ∧
    ⟨r.stamp.var, r.reached⟩ ∈ earlier.writes
  stale : ∃ all, p.stale node.reads = .ok all ∧ r.stamp ∈ all

end StaleReport

namespace Event

def statement : Event → StmtId
  | .met s _ _ => s
  | .wrote s _ => s

def isMet : Event → Bool
  | .met _ _ _ => true
  | .wrote _ _ => false

def Timely (walk : List StmtId) (e f : Event) : Prop :=
  f.isMet = true → [e.statement, f.statement].Sublist walk

theorem Timely.mono {walk longer : List StmtId} {e f : Event} (timely : e.Timely walk f)
    (within : walk.Sublist longer) : e.Timely longer f := fun met => (timely met).trans within

end Event

theorem Body.eventsWithin {body : Body} {e : Event} (inside : e ∈ body.events) :
    e.statement ∈ body.preorder := by
  induction body with
  | done => cases inside
  | act s node action rest ih =>
    rcases List.mem_cons.mp inside with rfl | later
    · exact List.mem_cons_self
    · exact List.mem_cons_of_mem _ (ih later)
  | branch s node condition a r accept reject rest yes no ih =>
    simp only [Body.events, List.mem_append, List.mem_cons] at inside
    simp only [Body.preorder, List.mem_cons, List.mem_append]
    rcases inside with (first | second) | rfl | later
    · exact .inr (.inl (.inl (yes first)))
    · exact .inr (.inl (.inr (no second)))
    · exact .inl rfl
    · exact .inr (.inr (ih later))
  | loop s node counter start stop c inner rest deep ih =>
    simp only [Body.events, List.mem_append, List.mem_cons] at inside
    simp only [Body.preorder, List.mem_cons, List.mem_append]
    rcases inside with within | rfl | later
    · exact .inr (.inl (deep within))
    · exact .inl rfl
    · exact .inr (.inr (ih later))
  | block s node b named inner rest deep ih =>
    simp only [Body.events, List.mem_append, List.mem_cons] at inside
    simp only [Body.preorder, List.mem_cons, List.mem_append]
    rcases inside with (rfl | within) | rfl | later
    · exact .inl rfl
    · exact .inr (.inl (deep within))
    · exact .inl rfl
    · exact .inr (.inr (ih later))

theorem pairSublist {s t : StmtId} {l m : List StmtId} (first : s ∈ l) (second : t ∈ m) :
    [s, t].Sublist (l ++ m) :=
  (List.singleton_sublist.mpr first).append (List.singleton_sublist.mpr second)

theorem timelyAround {s : StmtId} {writes : List Stamp} {inner rest : List Event}
    {nested later : List StmtId} (one : inner.Pairwise (Event.Timely nested))
    (two : rest.Pairwise (Event.Timely later)) (within : ∀ e ∈ inner, e.statement ∈ nested)
    (after : ∀ e ∈ rest, e.statement ∈ later) :
    (inner ++ .wrote s writes :: rest).Pairwise (Event.Timely (s :: (nested ++ later))) := by
  have deeper : (nested ++ later).Sublist (s :: (nested ++ later)) := List.sublist_cons_self ..
  refine List.pairwise_append.mpr ⟨?_, List.pairwise_cons.mpr ⟨fun f inside met => ?_, ?_⟩, ?_⟩
  · exact one.imp fun timely => timely.mono ((List.sublist_append_left ..).trans deeper)
  · exact List.cons_sublist_cons.mpr
      (List.singleton_sublist.mpr (List.mem_append_right _ (after f inside)))
  · exact two.imp fun timely => timely.mono ((List.sublist_append_right ..).trans deeper)
  · intro e inside f among met
    rcases List.mem_cons.mp among with rfl | among
    · cases met
    · exact (pairSublist (within e inside) (after f among)).trans deeper

theorem Body.timely (body : Body) : body.events.Pairwise (Event.Timely body.preorder) := by
  induction body with
  | done => exact .nil
  | act s node action rest ih =>
    have none : ([] : List Event).Pairwise (Event.Timely []) := .nil
    exact timelyAround none ih (fun _ inside => by cases inside) fun _ => eventsWithin
  | branch s node condition a r accept reject rest yes no ih =>
    have both : (accept.events ++ reject.events).Pairwise
        (Event.Timely (accept.preorder ++ reject.preorder)) := by
      refine List.pairwise_append.mpr ⟨?_, ?_, fun e first f second _ => ?_⟩
      · exact yes.imp fun timely => timely.mono (List.sublist_append_left ..)
      · exact no.imp fun timely => timely.mono (List.sublist_append_right ..)
      · exact pairSublist (eventsWithin first) (eventsWithin second)
    refine timelyAround both ih (fun e inside => ?_) fun _ => eventsWithin
    exact List.mem_append.mpr ((List.mem_append.mp inside).imp eventsWithin eventsWithin)
  | loop s node counter start stop c inner rest deep ih =>
    exact timelyAround deep ih (fun _ => eventsWithin) fun _ => eventsWithin
  | block s node b named inner rest deep ih =>
    refine List.pairwise_cons.mpr ⟨fun f inside met => ?_,
      timelyAround deep ih (fun _ => eventsWithin) fun _ => eventsWithin⟩
    refine List.cons_sublist_cons.mpr (List.singleton_sublist.mpr ?_)
    rcases List.mem_append.mp inside with within | after
    · exact List.mem_append_left _ (eventsWithin within)
    · rcases List.mem_cons.mp after with rfl | after
      · cases met
      · exact List.mem_append_right _ (eventsWithin after)

theorem visitsTimely {walk : List StmtId} {past events : List Event}
    (timely : events.Pairwise (Event.Timely walk)) :
    (visits past events).Pairwise fun u v => [u.statement, v.statement].Sublist walk := by
  induction events generalizing past with
  | nil => exact .nil
  | cons e rest ih =>
    obtain ⟨first, others⟩ := List.pairwise_cons.mp timely
    cases e with
    | wrote s writes => exact ih others
    | met s block bound =>
      refine List.pairwise_cons.mpr ⟨fun visit inside => ?_, ih others⟩
      obtain ⟨before, after, -, split⟩ := memVisits.mp inside
      exact first _ (split ▸ List.mem_append_right _ List.mem_cons_self) rfl

section

variable {p : Program} {kind : StageKind}

inductive Event.Stands (p : Program) : Event → Prop
  | met {s : StmtId} {node : Statement} {b : BlockId} {block : Block}
      (at_ : p.stmts.get? s = some node) (kind : node.kind = .block b)
      (blockAt : p.blocks.get? b = some block) : Stands p (.met s block node.reads)
  | wrote {s : StmtId} {node : Statement} (at_ : p.stmts.get? s = some node) :
      Stands p (.wrote s node.writes)

theorem Laid.eventsStand {l : List StmtId} {body : Body} (laid : Laid p l body) {e : Event}
    (inside : e ∈ body.events) : e.Stands p := by
  induction laid with
  | done => cases inside
  | act at_ _ _ next =>
    rcases List.mem_cons.mp inside with rfl | later
    · exact .wrote at_
    · exact next later
  | branch at_ _ _ _ _ _ _ one two next =>
    simp only [Body.events, List.mem_append, List.mem_cons] at inside
    rcases inside with (first | second) | rfl | later
    · exact one first
    · exact two second
    · exact .wrote at_
    · exact next later
  | loop at_ _ _ _ _ deep next =>
    simp only [Body.events, List.mem_append, List.mem_cons] at inside
    rcases inside with within | rfl | later
    · exact deep within
    · exact .wrote at_
    · exact next later
  | block at_ kind blockAt _ _ _ deep next =>
    simp only [Body.events, List.mem_append, List.mem_cons] at inside
    rcases inside with (rfl | within) | rfl | later
    · exact .met at_ kind blockAt
    · exact deep within
    · exact .wrote at_
    · exact next later

theorem assignedSoFar {s : StmtId} {node : Statement} {v : VarId}
    (at_ : p.stmts.get? s = some node) (changes : p.assigns v node.kind = true) :
    p.assignedBefore v s < p.timesAssigned v := by
  obtain ⟨below, here⟩ := List.getElem?_eq_some_iff.mp (kindsAt at_)
  have split := congrArg (List.countP (p.assigns v)) (List.take_append_drop s.index p.kinds)
  rw [List.countP_append, List.drop_eq_getElem_cons below, here, List.countP_cons_of_pos changes]
    at split
  rw [Program.assignedBefore, Program.timesAssigned]
  omega

theorem Built.writesCounted (built : Built p) {s : StmtId} {node : Statement} {t : Stamp}
    {var : Variable} (at_ : p.stmts.get? s = some node) (inside : t ∈ node.writes)
    (varAt : p.vars.get? t.var = some var) : t.mutation ≤ var.mutations := by
  have records := (built.dated at_).writes
  generalize named : node.kind = kind at records
  generalize node.writes = writes at records inside
  cases records with
  | declare | loop =>
    cases List.mem_singleton.mp inside
    exact UInt32.le_iff_toNat_le.mpr (Nat.zero_le _)
  | store | branch | block => cases inside
  | @assign target value v count rooted next =>
    cases List.mem_singleton.mp inside
    have changes : p.assigns v node.kind = true := by
      rw [named, Program.assigns, rooted]
      exact beq_self_eq_true _
    have counted : var.mutations.toNat = p.timesAssigned v := built.counted varAt
    have before := assignedSoFar at_ changes
    have reached : count.toNat ≤ var.mutations.toNat := by omega
    exact UInt32.le_iff_toNat_le.mpr reached

def Visit.reports (visit : Visit) : List StaleReport :=
  visit.stale.map fun (s, r) => ⟨visit.statement, visit.block, s, r⟩

theorem Visit.memReports {visit : Visit} {r : StaleReport} (inside : r ∈ visit.reports) :
    r.statement = visit.statement ∧ r.block = visit.block ∧ (r.stamp, r.reached) ∈ visit.stale := by
  obtain ⟨⟨s, n⟩, stale, rfl⟩ := List.mem_map.mp inside
  exact ⟨rfl, rfl, stale⟩

theorem Visit.reportsDiagnose (p : Program) (kind : StageKind) (visit : Visit) :
    visit.warnings p kind = visit.reports.map (StaleReport.diagnostic p kind) := by
  rw [Visit.warnings, Visit.reports, List.map_map]
  rfl

theorem Visit.staleIncreasing (visit : Visit) :
    visit.stale.Pairwise fun a b => a.1.var.index < b.1.var.index := by
  refine List.Pairwise.filterMap _ (fun s t less a found b other => ?_) visit.bound.increasing
  have kept {u : Stamp} {c : Stamp × UInt32} (made : c ∈ (latest u.var (recorded visit.past)).bind
      fun r => if u.mutation < r then some (u, r) else none) : c.1 = u := by
    obtain ⟨r, -, made⟩ := Option.bind_eq_some_iff.mp made
    split at made
    · cases made
      rfl
    · cases made
  rw [kept found, kept other]
  exact less

theorem latestMem {v : VarId} {stamps : List Stamp} {n : UInt32}
    (last : latest v stamps = some n) : ⟨v, n⟩ ∈ stamps := by
  obtain ⟨s, found, rfl⟩ := Option.map_eq_some_iff.mp last
  obtain ⟨inside, same⟩ := List.mem_filter.mp (List.mem_of_getLast? found)
  cases eq_of_beq same
  exact inside

theorem visitsOrdered {walk : List StmtId} {past events : List Event}
    (timely : events.Pairwise (Event.Timely walk)) :
    ((visits past events).flatMap Visit.reports).Pairwise (StaleReport.Before walk) := by
  refine List.pairwise_flatMap.mpr ⟨fun visit _ => ?_, ?_⟩
  · exact List.pairwise_map.mpr (visit.staleIncreasing.imp fun less => .inr ⟨rfl, less⟩)
  · refine (visitsTimely timely).imp fun {u v} before x first y second => .inl ?_
    rw [(Visit.memReports first).1, (Visit.memReports second).1]
    exact before

theorem StaleReport.Before.apart {walk : List StmtId} (once : walk.Nodup) {r s : StaleReport}
    (before : r.Before walk s) : r.site ≠ s.site := by
  intro same
  obtain ⟨statement, var⟩ := Prod.mk.inj same
  -- one statement cannot come twice on the walk, nor one variable before itself
  rcases before with earlier | ⟨-, less⟩
  · rw [statement] at earlier
    exact absurd (once.sublist earlier) (by simp)
  · rw [var] at less
    exact absurd less (Nat.lt_irrefl _)

theorem Built.outdatedBy (built : Built p) {s w : StmtId} {node earlier : Statement} {t : Stamp}
    {reached : UInt32} (at_ : p.stmts.get? s = some node) (bound : t ∈ node.reads.toList)
    (writerAt : p.stmts.get? w = some earlier) (wrote : ⟨t.var, reached⟩ ∈ earlier.writes)
    (less : t.mutation < reached) : p.outdated t = true := by
  obtain ⟨var, varAt⟩ := Arena.atBelow (built.stamped at_ t bound)
  have atMost : reached ≤ var.mutations := built.writesCounted writerAt wrote varAt
  rw [Program.outdated, varAt, Option.any_some, decide_eq_true_eq]
  exact UInt32.lt_of_lt_of_le less atMost

theorem Built.justified (built : Built p) {l : List StmtId} {body : Body} (laid : Laid p l body)
    (ofStage : p.OfStage kind l) {r : StaleReport}
    (inside : r ∈ (visits [] body.events).flatMap Visit.reports) :
    ∃ node home, r.Justified p kind body.preorder node home := by
  obtain ⟨⟨past, s, block, bound⟩, among, reported⟩ := List.mem_flatMap.mp inside
  obtain ⟨s, block, t, reached⟩ := r
  obtain ⟨rfl, rfl, stale⟩ := Visit.memReports reported
  obtain ⟨held, last, less⟩ := Visit.memStale.mp stale
  obtain ⟨before, after, rfl, split⟩ := memVisits.mp among
  have metIn : Event.met s block bound ∈ body.events :=
    split ▸ List.mem_append_right _ List.mem_cons_self
  obtain ⟨e, early, written⟩ := List.mem_flatMap.mp (latestMem last)
  have wroteIn : e ∈ body.events := split ▸ List.mem_append_left _ early
  have timely := body.timely
  rw [split] at timely
  have sooner := (List.pairwise_append.mp timely).2.2 e early _ List.mem_cons_self rfl
  -- the number was recorded before the block was met, so by a statement earlier on the walk
  cases laid.eventsStand metIn with
  | @met _ node b _ at_ named blockAt =>
  cases laid.eventsStand wroteIn with
  | met => cases written
  | @wrote w earlier writerAt =>
  have visited := Body.eventsWithin metIn
  obtain ⟨_, home, again, homeAt, stage⟩ := built.forest.ofPreorder laid ofStage s visited
  cases at_.symm.trans again
  exact ⟨node, home, {
    stands := at_
    block := ⟨b, named, blockAt⟩
    within := homeAt
    stage
    visited
    bound := held
    later := less
    recorded := ⟨w, earlier, sooner, writerAt, written⟩
    stale := ⟨_, staleOk (built.stamped at_), List.mem_filter.mpr
      ⟨held, built.outdatedBy at_ held writerAt written less⟩⟩ }⟩

theorem Built.mainOnce (built : Built p) {stage : Stage} (inside : stage ∈ p.stages) {body : Body}
    (laidOut : p.body stage.main = .ok body) : body.preorder.Nodup := by
  obtain ⟨bodies, laid, walked⟩ := built.forest.walks
  obtain ⟨again, among, same⟩ := Outcome.mapMTarget laid inside
  cases laidOut.symm.trans same
  have once : (bodies.flatMap Body.preorder).Nodup := by
    refine List.nodup_iff_count_le_one.mpr fun s => ?_
    rw [built.walksOnce walked]
    split <;> omega
  exact (List.nodup_flatMap.mp once).1 body among

theorem warningsJustified (reachable : Reachable p) {stage : Stage} (inside : stage ∈ p.stages)
    {d : Dialect} {annotate : Bool} {lines : Listing} {after : Walk}
    (ran : Emit.scope p d annotate stage.main {} = .ok lines after) :
    ∃ (home : Scope) (walk : List StmtId) (reports : List StaleReport),
      p.scopes.get? stage.main = some home ∧ Preorder p home.statements walk ∧ walk.Nodup ∧
      after.diagnostics = reports.map (StaleReport.diagnostic p stage.kind) ∧
      (∀ r ∈ reports, ∃ node around, r.Justified p stage.kind walk node around) ∧
      (reports.map StaleReport.site).Nodup ∧ reports.Pairwise (StaleReport.Before walk) := by
  have built := reachableBuilt reachable
  have forest := built.forest
  obtain ⟨home, homeAt, -, same⟩ := forest.mains inside
  obtain ⟨body, laidOut, laid⟩ := forest.body homeAt
  have ofStage : p.OfStage stage.kind home.statements := same ▸ forest.ofStage homeAt
  obtain ⟨-, said⟩ := forest.scopeReplays homeAt laidOut [] {} lines after rfl ran
  rw [same] at said
  have once := built.mainOnce inside laidOut
  have ordered : ((visits [] body.events).flatMap Visit.reports).Pairwise
      (StaleReport.Before body.preorder) := visitsOrdered body.timely
  refine ⟨home, body.preorder, _, homeAt, laid.preorder, once, ?_, fun r among => ?_, ?_, ordered⟩
  · rw [List.map_flatMap, said, funext (Visit.reportsDiagnose p stage.kind)]
    rfl
  · exact built.justified laid ofStage among
  · exact List.pairwise_map.mpr (ordered.imp fun before => before.apart once)

def outrunRun : List Call :=
  [.addStage .fragment, .literal (.int 0), .literal (.bool true),
    .declare ⟨0⟩ "i" .int1 (some ⟨0⟩), .declare ⟨0⟩ "j" .int1 (some ⟨0⟩), .read ⟨0⟩, .read ⟨1⟩,
    .binary .add ⟨3⟩ ⟨2⟩, .branch ⟨0⟩ ⟨1⟩, .block ⟨0⟩ "use", .input ⟨0⟩ (some "x") .int1 (some ⟨4⟩),
    .assign ⟨1⟩ ⟨3⟩ ⟨0⟩, .assign ⟨2⟩ ⟨2⟩ ⟨0⟩]

theorem outrunReports : (Program.after { name := "p" } outrunRun).map
    (fun p => (p.stages.map Stage.main, p.reports ⟨0⟩)) = some ([⟨0⟩], some
      [.stageWarning .fragment "block use_3 was bound to i_0@0 but runs after i_0@1",
        .stageWarning .fragment "block use_3 was bound to j_1@0 but runs after j_1@1"]) := by
  decide +kernel

theorem outrunWalks : ∃ p stage lines after, Program.after { name := "p" } outrunRun = some p ∧
    stage ∈ p.stages ∧ Emit.scope p Glsl.dialect false stage.main {} = .ok lines after ∧
    after.diagnostics =
      [.stageWarning .fragment "block use_3 was bound to i_0@0 but runs after i_0@1",
        .stageWarning .fragment "block use_3 was bound to j_1@0 but runs after j_1@1"] := by
  obtain ⟨p, ran, both⟩ := Option.map_eq_some_iff.mp outrunReports
  obtain ⟨mains, said⟩ := Prod.mk.inj both
  obtain ⟨stage, inside, main⟩ : ∃ stage ∈ p.stages, stage.main = ⟨0⟩ :=
    List.mem_map.mp (mains ▸ List.mem_singleton_self _)
  unfold Program.reports at said
  split at said
  · rename_i lines after written
    exact ⟨p, stage, lines, after, ran, inside, main ▸ written, Option.some.inj said⟩
  · cases said

theorem warningsJustifiedOutrun : ∃ (p : Program) (stage : Stage) (walk : List StmtId)
    (reports : List StaleReport), Program.after { name := "p" } outrunRun = some p ∧
    stage ∈ p.stages ∧
    [Diagnostic.stageWarning .fragment "block use_3 was bound to i_0@0 but runs after i_0@1",
      .stageWarning .fragment "block use_3 was bound to j_1@0 but runs after j_1@1"] =
      reports.map (StaleReport.diagnostic p stage.kind) ∧
    (∀ r ∈ reports, ∃ node around, r.Justified p stage.kind walk node around) ∧
    (reports.map StaleReport.site).Nodup := by
  obtain ⟨p, stage, lines, after, ran, inside, written, messages⟩ := outrunWalks
  obtain ⟨home, walk, reports, -, -, -, said, justified, once, -⟩ :=
    warningsJustified ((Reachable.new "p").after ran) inside written
  exact ⟨p, stage, walk, reports, ran, inside, messages.symm.trans said, justified, once⟩

end

end ShaderGraph
