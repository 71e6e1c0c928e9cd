import Mathlib.Data.List.Induction
import ShaderGraph.Emit
import ShaderGraph.Glsl.Dialect
import ShaderGraph.Proofs.Layout
import ShaderGraph.Proofs.Reach
import ShaderGraph.Proofs.Stamps
/-! What a walk reports as stale. A walk records the writes of each statement after those of the
statements nested under it, and judges a block by the write of each variable recorded last. Writes
are numbered in the order they were built, which need not be the order of the walk, so an older
write that is recorded later hides a newer one. -/
namespace ShaderGraph

inductive Event
  | met (s : StmtId) (block : Block) (bound : Stamps)
  | wrote (s : StmtId) (writes : List Stamp)
  deriving DecidableEq, Repr

def Body.events : Body → List Event
  | .done => []
  | .act s node _ rest => .wrote s node.writes :: rest.events
  | .branch s node _ _ _ accept reject rest =>
    accept.events ++ reject.events ++ .wrote s node.writes :: rest.events
  | .loop s node _ _ _ _ inner rest => inner.events ++ .wrote s node.writes :: rest.events
  | .block s node _ named inner rest =>
    .met s named node.reads :: inner.events ++ .wrote s node.writes :: rest.events

def Event.writes : Event → List Stamp
  | .met _ _ _ => []
  | .wrote _ writes => writes

def recorded (events : List Event) : List Stamp := events.flatMap Event.writes

def latest (v : VarId) (stamps : List Stamp) : Option UInt32 :=
  (stamps.filter fun s => s.var == v).getLast?.map Stamp.mutation

def Program.staleWarning (p : Program) (kind : StageKind) (block : Block) (s : Stamp)
    (reached : UInt32) : Diagnostic :=
  let name := ((p.vars.get? s.var).map Variable.name).getD ""
  .stageWarning kind
    s!"block {block.name} was bound to {name}@{s.mutation} but runs after {name}@{reached}"

structure Visit where
  past : List Event
  statement : StmtId
  block : Block
  bound : Stamps
  deriving DecidableEq, Repr

def visits : List Event → List Event → List Visit
  | _, [] => []
  | past, .met s block bound :: rest =>
    ⟨past, s, block, bound⟩ :: visits (past ++ [.met s block bound]) rest
  | past, .wrote s writes :: rest => visits (past ++ [.wrote s writes]) rest

namespace Visit

/-- The stamps a block was bound against that the last write of their variable outnumbers, each
with the number of that write. -/
def stale (visit : Visit) : List (Stamp × UInt32) :=
  visit.bound.toList.filterMap fun s =>
    (latest s.var (recorded visit.past)).bind fun r => if s.mutation < r then some (s, r) else none

def warnings (p : Program) (kind : StageKind) (visit : Visit) : List Diagnostic :=
  visit.stale.map fun (s, r) => p.staleWarning kind visit.block s r

theorem memStale {visit : Visit} {s : Stamp} {r : UInt32} :
    (s, r) ∈ visit.stale ↔
      s ∈ visit.bound.toList ∧ latest s.var (recorded visit.past) = some r ∧ s.mutation < r := by
  simp only [stale, List.mem_filterMap, Option.bind_eq_some_iff]
  constructor
  · intro h
    obtain ⟨t, inside, n, last, found⟩ := h
    split at found
    · rename_i less
      cases found
      exact ⟨inside, last, less⟩
    · cases found
  · intro h
    obtain ⟨inside, last, less⟩ := h
    exact ⟨s, inside, r, last, if_pos less⟩

end Visit

theorem visitsAppend {past one two : List Event} :
    visits past (one ++ two) = visits past one ++ visits (past ++ one) two := by
  induction one generalizing past with
  | nil => simp [visits]
  | cons e rest ih =>
    cases e with
    | met s block bound => simp [visits, ih]
    | wrote s writes => simp [visits, ih]

theorem memVisits {past events : List Event} {visit : Visit} :
    visit ∈ visits past events ↔ ∃ before after, visit.past = past ++ before ∧
      events = before ++ .met visit.statement visit.block visit.bound :: after := by
  induction events generalizing past with
  | nil => simp [visits]
  | cons e rest ih =>
    have later : visit ∈ visits (past ++ [e]) rest ↔ ∃ before after,
        visit.past = past ++ e :: before ∧
        rest = before ++ .met visit.statement visit.block visit.bound :: after := by
      rw [ih]
      simp
    cases e with
    | met s block bound =>
      rw [visits, List.mem_cons, later]
      constructor
      · intro h
        obtain rfl | ⟨before, after, passed, rfl⟩ := h
        · exact ⟨[], rest, by simp, rfl⟩
        · exact ⟨_ :: before, after, passed, rfl⟩
      · intro h
        obtain ⟨before, after, passed, split⟩ := h
        cases before with
        | nil =>
          cases visit
          cases split
          simp only [List.append_nil] at passed
          exact .inl (passed ▸ rfl)
        | cons first before =>
          cases split
          exact .inr ⟨before, after, passed, rfl⟩
    | wrote s writes =>
      rw [visits, later]
      constructor
      · intro h
        obtain ⟨before, after, passed, rfl⟩ := h
        exact ⟨_ :: before, after, passed, rfl⟩
      · intro h
        obtain ⟨before, after, passed, split⟩ := h
        cases before with
        | nil => cases split
        | cons first before =>
          cases split
          exact ⟨before, after, passed, rfl⟩

theorem getOfList (stamps : List Stamp) (v : VarId) :
    ((Stamps.ofList stamps).get? v).map Stamp.mutation = latest v stamps := by
  have found := Stamps.getWritten .empty stamps v
  rw [Stamps.ofList, found]
  exact congrArg (Option.map Stamp.mutation) (Option.or_none ..)

theorem recordedAppend (one two : List Event) :
    recorded (one ++ two) = recorded one ++ recorded two := List.flatMap_append

theorem ofListAppend (one two : List Stamp) :
    Stamps.ofList (one ++ two) = (Stamps.ofList one).insertAll two := by
  simp [Stamps.ofList, Stamps.insertAll]

theorem staleOf (visit : Visit) (report : Stamp → UInt32 → Diagnostic) :
    (visit.bound.staleIn (.ofList (recorded visit.past))).map (fun s =>
      report s ((((Stamps.ofList (recorded visit.past)).get? s.var).map Stamp.mutation).getD 0)) =
      visit.stale.map fun (s, r) => report s r := by
  simp only [Stamps.staleIn, Visit.stale]
  induction visit.bound.toList with
  | nil => rfl
  | cons s rest ih =>
    have last := getOfList (recorded visit.past) s.var
    rw [List.filter_cons, List.filterMap_cons, ← last]
    cases found : (Stamps.ofList (recorded visit.past)).get? s.var with
    | none => simpa using ih
    | some c =>
      by_cases less : s.mutation < c.mutation
      · simpa [less, found] using ih
      · simpa [less] using ih

def Replays {α : Type} (p : Program) (kind : StageKind) (x : Emit α) (events : List Event) : Prop :=
  ∀ past w a v, w.reached = .ofList (recorded past) → x w = .ok a v →
    v.reached = .ofList (recorded (past ++ events)) ∧
      v.diagnostics = w.diagnostics ++ (visits past events).flatMap (Visit.warnings p kind)

section

variable {p : Program} {kind : StageKind}

namespace Replays

variable {α β : Type}

theorem pure (a : α) : Replays p kind (Pure.pure a : Emit α) [] := by
  intro past w a v kept ran
  cases ran
  exact ⟨by simpa using kept, by simp [visits]⟩

theorem bind {x : Emit α} {f : α → Emit β} {one two : List Event} (first : Replays p kind x one)
    (second : ∀ a, Replays p kind (f a) two) : Replays p kind (x >>= f) (one ++ two) := by
  intro past w b u kept ran
  change EStateM.bind x f w = _ at ran
  unfold EStateM.bind at ran
  split at ran
  · rename_i a v here
    obtain ⟨reached, said⟩ := first past w a v kept here
    obtain ⟨later, more⟩ := second a (past ++ one) v b u reached ran
    refine ⟨by rw [later, List.append_assoc], ?_⟩
    rw [more, said, visitsAppend, List.flatMap_append, List.append_assoc]
  · cases ran

theorem lift {x : Outcome α} {f : α → Emit β} {events : List Event}
    (second : ∀ a, x = .ok a → Replays p kind (f a) events) :
    Replays p kind (liftM x >>= f) events := by
  cases x with
  | ok a => exact second a rfl
  | error e =>
    intro past w a v _ ran
    cases ran

theorem ending {x : Emit α} {events : List Event} (first : Replays p kind x events) (f : α → β) :
    Replays p kind (do return f (← x)) events := by
  have whole := first.bind fun a => Replays.pure (f a)
  rwa [List.append_nil] at whole

theorem reach (s : StmtId) (writes : List Stamp) :
    Replays p kind (Emit.reach writes) [.wrote s writes] := by
  intro past w a v kept ran
  cases ran
  refine ⟨?_, by simp [visits]⟩
  rw [recordedAppend, ofListAppend, ← kept]
  simp [recorded, Event.writes]

end Replays

theorem reportAllOk {block : Block} {stamps : List Stamp} {w v : Walk} {u : Unit}
    (ran : Emit.reportAll p kind block stamps w = .ok u v) : v.reached = w.reached ∧
      v.diagnostics = w.diagnostics ++ stamps.map fun s => p.staleWarning kind block s
        (((w.reached.get? s.var).map Stamp.mutation).getD 0) := by
  induction stamps generalizing w with
  | nil =>
    cases ran
    simp
  | cons s rest ih =>
    simp only [Emit.reportAll] at ran
    cases read : p.vars.fetch s.var with
    | error e =>
      rw [read] at ran
      cases ran
    | ok var =>
      rw [read] at ran
      obtain ⟨kept, said⟩ := ih ran
      have at_ := Arena.fetchOk.mp read
      refine ⟨kept, said.trans ?_⟩
      simp [Program.staleWarning, at_]

theorem Replays.met {α : Type} (s : StmtId) (block : Block) (bound : Stamps) {x : Emit α}
    {events : List Event} (second : Replays p kind x events) :
    Replays p kind (do
      let w ← get
      Emit.reportAll p kind block (bound.staleIn w.reached)
      x) (.met s block bound :: events) := by
  have first : Replays p kind (do Emit.reportAll p kind block (bound.staleIn (← get).reached))
      [.met s block bound] := by
    intro past w u v kept ran
    obtain ⟨same, said⟩ := reportAllOk ran
    refine ⟨?_, said.trans ?_⟩
    · rw [same, kept, recordedAppend]
      simp [recorded, Event.writes]
    · rw [kept, staleOf ⟨past, s, block, bound⟩ (p.staleWarning kind block)]
      simp [visits, Visit.warnings]
  have whole := first.bind fun _ => second
  rwa [bind_assoc] at whole

def Program.OfStage (p : Program) (kind : StageKind) (l : List StmtId) : Prop :=
  ∀ s ∈ l, ∃ node home, p.stmts.get? s = some node ∧ p.scopes.get? node.scope = some home ∧
    home.stage = kind

theorem Forest.ofStage (forest : Forest p) {c : ScopeId} {home : Scope}
    (homeAt : p.scopes.get? c = some home) : p.OfStage home.stage home.statements := by
  intro s inside
  obtain ⟨node, at_, rfl⟩ := forest.listed homeAt s inside
  exact ⟨node, home, at_, homeAt, rfl⟩

theorem Forest.stageOf (forest : Forest p) {s : StmtId} {later : List StmtId} {node : Statement}
    {c : ScopeId} {inner : Scope} (ofStage : p.OfStage kind (s :: later))
    (at_ : p.stmts.get? s = some node) (opens : Opens p node.kind c)
    (innerAt : p.scopes.get? c = some inner) : inner.stage = kind := by
  obtain ⟨other, home, there, homeAt, same⟩ := ofStage s List.mem_cons_self
  cases at_.symm.trans there
  obtain ⟨-, scope, scopeAt, under⟩ := forest.nested at_ opens
  cases innerAt.symm.trans scopeAt
  obtain ⟨outer, outerAt, stage⟩ := under.stage
  cases homeAt.symm.trans outerAt
  exact stage.trans same

theorem Program.OfStage.tail {s : StmtId} {later : List StmtId}
    (ofStage : p.OfStage kind (s :: later)) : p.OfStage kind later :=
  fun t inside => ofStage t (List.mem_cons_of_mem _ inside)

theorem Forest.ofNested (forest : Forest p) {s : StmtId} {later : List StmtId}
    {node : Statement} {c : ScopeId} {inner : Scope} (ofStage : p.OfStage kind (s :: later))
    (at_ : p.stmts.get? s = some node) (opens : Opens p node.kind c)
    (innerAt : p.scopes.get? c = some inner) : p.OfStage kind inner.statements := by
  have same := forest.stageOf ofStage at_ opens innerAt
  exact same ▸ forest.ofStage innerAt

theorem Forest.ofPreorder (forest : Forest p) {l : List StmtId} {body : Body}
    (laid : Laid p l body) (ofStage : p.OfStage kind l) : p.OfStage kind body.preorder := by
  refine laid.all ofStage fun s node c inner own at_ opens innerAt => ?_
  have alone : p.OfStage kind [s] := List.forall_mem_singleton.mpr own
  exact forest.ofNested alone at_ opens innerAt

theorem Forest.ofBody (forest : Forest p) {stage : Stage} (inside : stage ∈ p.stages) {body : Body}
    (laidOut : p.body stage.main = .ok body) : p.OfStage stage.kind body.preorder := by
  obtain ⟨home, homeAt, -, same⟩ := forest.mains inside
  exact forest.ofPreorder (forest.laid homeAt laidOut) (same ▸ forest.ofStage homeAt)

theorem Forest.replays (forest : Forest p) {d : Dialect} {annotate : Bool} {l : List StmtId}
    {body : Body} (laid : Laid p l body) (ofStage : p.OfStage kind l) :
    Replays p kind (Emit.body p d annotate kind body) body.events := by
  -- a nested list is walked for the stage of its own scope, which is the same
  have within : ∀ {s later node c inner body}, p.OfStage kind (s :: later) →
      p.stmts.get? s = some node → Opens p node.kind c → p.scopes.get? c = some inner →
      (p.OfStage kind inner.statements →
        Replays p kind (Emit.body p d annotate kind body) body.events) →
      Replays p kind (Emit.body p d annotate inner.stage body) body.events := by
    intro s later node c inner body ofStage at_ opens innerAt nested
    have same := forest.stageOf ofStage at_ opens innerAt
    subst same
    exact nested (forest.ofStage innerAt)
  induction laid with
  | done => exact .pure _
  | act _ _ _ next =>
    refine .lift fun _ _ => .lift fun _ _ => ?_
    exact .bind (.reach _ _) fun _ => .ending (next ofStage.tail) _
  | @branch s node condition a r yes no later accept reject rest at_ named yesAt noAt _ _ _ inYes
      inNo next =>
    refine .lift fun _ _ => .lift fun _ _ => .lift fun found fetched => ?_
    cases yesAt.symm.trans (Arena.fetchOk.mp fetched)
    rw [Body.events, List.append_assoc]
    refine .bind (within ofStage at_ (named ▸ .accept) yesAt inYes) fun _ => ?_
    refine .lift fun found fetched => ?_
    cases noAt.symm.trans (Arena.fetchOk.mp fetched)
    refine .bind (within ofStage at_ (named ▸ .reject) noAt inNo) fun _ => ?_
    exact .bind (.reach _ _) fun _ => .ending (next ofStage.tail) _
  | @loop s node counter start stop c home later inner rest at_ named homeAt _ _ deep next =>
    refine .lift fun _ _ => .lift fun _ _ => .lift fun _ _ => .lift fun _ _ => ?_
    refine .lift fun found fetched => ?_
    cases homeAt.symm.trans (Arena.fetchOk.mp fetched)
    refine .bind (within ofStage at_ (named ▸ .loop) homeAt deep) fun _ => ?_
    exact .bind (.reach _ _) fun _ => .ending (next ofStage.tail) _
  | @block s node b block home later inner rest at_ named blockAt homeAt _ _ deep next =>
    refine .lift fun _ _ => .met s block node.reads (.lift fun found fetched => ?_)
    cases homeAt.symm.trans (Arena.fetchOk.mp fetched)
    have opens : Opens p node.kind block.body := named ▸ .block blockAt
    refine .bind (within ofStage at_ opens homeAt deep) fun _ => ?_
    exact .bind (.reach _ _) fun _ => .ending (next ofStage.tail) _

theorem Forest.scopeReplays (forest : Forest p) {c : ScopeId} {home : Scope} {body : Body}
    {d : Dialect} {annotate : Bool} (homeAt : p.scopes.get? c = some home)
    (laidOut : p.body c = .ok body) :
    Replays p home.stage (Emit.scope p d annotate c) body.events := by
  refine .lift fun found fetched => .lift fun again laid => ?_
  cases homeAt.symm.trans (Arena.fetchOk.mp fetched)
  cases laidOut.symm.trans laid
  exact forest.replays (forest.laid homeAt laidOut) (forest.ofStage homeAt)

theorem staleReported (reachable : Reachable p) {stage : Stage} (inside : stage ∈ p.stages)
    {d : Dialect} {annotate : Bool} {body : Body} {lines : Listing} {after : Walk}
    (laidOut : p.body stage.main = .ok body)
    (ran : Emit.scope p d annotate stage.main {} = .ok lines after) :
    after.diagnostics = (visits [] body.events).flatMap (Visit.warnings p stage.kind) ∧
      ∀ visit ∈ visits [] body.events, ∀ s ∈ visit.bound.toList, ∀ w ∈ recorded visit.past,
        w.var = s.var → s.mutation < w.mutation →
        ((∃ r, (s, r) ∈ visit.stale) ↔
          ∃ r, latest s.var (recorded visit.past) = some r ∧ s.mutation < r) := by
  have forest := (reachableBuilt reachable).forest
  constructor
  · obtain ⟨home, homeAt, -, same⟩ := forest.mains inside
    obtain ⟨-, said⟩ := forest.scopeReplays homeAt laidOut [] {} lines after rfl ran
    exact same ▸ said
  · intro visit _ s bound _ _ _ _
    constructor
    · intro h
      obtain ⟨r, stale⟩ := h
      exact ⟨r, (Visit.memStale.mp stale).2⟩
    · intro h
      obtain ⟨r, last, less⟩ := h
      exact ⟨r, Visit.memStale.mpr ⟨bound, last, less⟩⟩

def overwrittenRun : List Call :=
  [.addStage .fragment, .literal (.int 0), .literal (.bool true),
    .declare ⟨0⟩ "v" .int1 (some ⟨0⟩), .read ⟨0⟩, .branch ⟨0⟩ ⟨1⟩, .assign ⟨2⟩ ⟨2⟩ ⟨0⟩,
    .block ⟨0⟩ "use", .input ⟨0⟩ (some "x") .int1 (some ⟨2⟩), .assign ⟨1⟩ ⟨2⟩ ⟨0⟩]

theorem overwrittenRuns : ∃ p stage body, Program.after { name := "p" } overwrittenRun = some p ∧
    p.check = .ok [] ∧ p.stages = [stage] ∧ stage.main = ⟨0⟩ ∧ p.body ⟨0⟩ = .ok body ∧
    (visits [] body.events).map (fun visit => (visit.bound.toList, recorded visit.past)) =
      [([⟨⟨0⟩, 1⟩], [⟨⟨0⟩, 0⟩, ⟨⟨0⟩, 2⟩, ⟨⟨0⟩, 1⟩])] :=
  ⟨_, _, _, rfl, rfl, rfl, rfl, rfl, rfl⟩

def Program.reports (p : Program) (c : ScopeId) : Option (List Diagnostic) :=
  match Emit.scope p Glsl.dialect false c {} with
  | .ok _ after => some after.diagnostics
  | .error _ _ => none

theorem overwrittenReports : (Program.after { name := "p" } overwrittenRun).map
    (fun p => p.reports ⟨0⟩) = some (some []) := by decide +kernel

theorem overwrittenWalks : ∃ p stage body lines after,
    Program.after { name := "p" } overwrittenRun = some p ∧ p.check = .ok [] ∧ stage ∈ p.stages ∧
    p.body stage.main = .ok body ∧
    Emit.scope p Glsl.dialect false stage.main {} = .ok lines after ∧ after.diagnostics = [] ∧
    ∃ visit ∈ visits [] body.events, visit.bound.toList = [⟨⟨0⟩, 1⟩] ∧
      recorded visit.past = [⟨⟨0⟩, 0⟩, ⟨⟨0⟩, 2⟩, ⟨⟨0⟩, 1⟩] := by
  obtain ⟨p, stage, body, ran, passed, stages, main, laidOut, met⟩ := overwrittenRuns
  have said := overwrittenReports
  rw [ran, Option.map_some] at said
  have reported := Option.some.inj said
  unfold Program.reports at reported
  split at reported
  · rename_i lines after written
    obtain ⟨visit, inside, same⟩ : ∃ visit ∈ visits [] body.events,
        (visit.bound.toList, recorded visit.past) =
          ([⟨⟨0⟩, 1⟩], [⟨⟨0⟩, 0⟩, ⟨⟨0⟩, 2⟩, ⟨⟨0⟩, 1⟩]) :=
      List.mem_map.mp (met ▸ List.mem_singleton_self _)
    refine ⟨p, stage, body, lines, after, ran, passed, ?_, ?_, ?_, Option.some.inj reported,
      visit, inside, congrArg Prod.fst same, congrArg Prod.snd same⟩
    · rw [stages]
      exact List.mem_singleton_self _
    · rw [main, laidOut]
    · rw [main, written]
  · cases reported

theorem staleReportedOverwritten : ∃ p stage body lines after,
    Program.after { name := "p" } overwrittenRun = some p ∧ stage ∈ p.stages ∧
    p.body stage.main = .ok body ∧
    Emit.scope p Glsl.dialect false stage.main {} = .ok lines after ∧
    after.diagnostics = (visits [] body.events).flatMap (Visit.warnings p stage.kind) ∧
    ∃ visit ∈ visits [] body.events, ∃ s ∈ visit.bound.toList, ∃ w ∈ recorded visit.past,
      w.var = s.var ∧ s.mutation < w.mutation ∧ ¬ ∃ r, (s, r) ∈ visit.stale := by
  obtain ⟨p, stage, body, lines, after, ran, -, inside, laidOut, written, -, visit, met, bound,
    past⟩ := overwrittenWalks
  obtain ⟨said, judged⟩ := staleReported ((Reachable.new "p").after ran) inside laidOut written
  have here : (⟨⟨0⟩, 1⟩ : Stamp) ∈ visit.bound.toList := by simp [bound]
  have later : (⟨⟨0⟩, 2⟩ : Stamp) ∈ recorded visit.past := by simp [past]
  refine ⟨p, stage, body, lines, after, ran, inside, laidOut, written, said, visit, met,
    _, here, _, later, rfl, by decide, fun stale => ?_⟩
  obtain ⟨r, last, less⟩ := (judged visit met _ here _ later rfl (by decide)).mp stale
  have hides : latest ⟨0⟩ (recorded visit.past) = some 1 := by
    rw [past]
    decide
  cases hides.symm.trans last
  exact absurd less (by decide)

def AllReported (p : Program) (kind : StageKind) (body : Body) (said : List Diagnostic) : Prop :=
  ∀ visit ∈ visits [] body.events, ∀ s ∈ visit.bound.toList, ∀ w ∈ recorded visit.past,
    w.var = s.var → s.mutation < w.mutation → ∃ r, p.staleWarning kind visit.block s r ∈ said

theorem staleUnreported : ∃ p stage body lines after, Reachable p ∧ p.check = .ok [] ∧
    stage ∈ p.stages ∧ p.body stage.main = .ok body ∧
    Emit.scope p Glsl.dialect false stage.main {} = .ok lines after ∧
    ¬ AllReported p stage.kind body after.diagnostics := by
  obtain ⟨p, stage, body, lines, after, ran, passed, inside, laidOut, written, silent, visit, met,
    bound, past⟩ := overwrittenWalks
  refine ⟨p, stage, body, lines, after, (Reachable.new "p").after ran, passed, inside, laidOut,
    written, fun reported => ?_⟩
  obtain ⟨r, warned⟩ := reported visit met ⟨⟨0⟩, 1⟩ (by simp [bound]) ⟨⟨0⟩, 2⟩ (by simp [past]) rfl
    (by decide)
  rw [silent] at warned
  cases warned

end

end ShaderGraph
