import ShaderGraph.Proofs.Cached
import ShaderGraph.Proofs.Forest
import ShaderGraph.Proofs.Rendering
import ShaderGraph.Proofs.Stamps
/-! What stamps tell. A variable counts the assignments that were built to it, and a statement
stamps what it reads and writes with the counts of the moment. Handles follow the order of
building, and nothing but a block changes its stamps later, so a stamp is a count over smaller
handles. -/
namespace ShaderGraph

namespace Program

variable (p : Program)

def assigns (v : VarId) : StatementKind → Bool
  | .act (.assign target _) => match p.root target with
    | .ok (some w) => w == v
    | _ => false
  | _ => false

def kinds : List StatementKind := p.stmts.nodes.toList.map Statement.kind

def timesAssigned (v : VarId) : Nat := p.kinds.countP (p.assigns v)

def assignedBefore (v : VarId) (s : StmtId) : Nat := (p.kinds.take s.index).countP (p.assigns v)

inductive ChainIndex : ExprId → ExprId → Prop
  | column {e base i : ExprId} {node : Expr} (at_ : p.exprs.get? e = some node)
      (op : node.op = .column base i) : ChainIndex e i
  | element {e base i : ExprId} {node : Expr} (at_ : p.exprs.get? e = some node)
      (op : node.op = .element base i) : ChainIndex e i
  | inColumn {e base index i : ExprId} {node : Expr} (at_ : p.exprs.get? e = some node)
      (op : node.op = .column base index) (deeper : ChainIndex base i) : ChainIndex e i
  | inElement {e base index i : ExprId} {node : Expr} (at_ : p.exprs.get? e = some node)
      (op : node.op = .element base index) (deeper : ChainIndex base i) : ChainIndex e i
  | inSwizzle {e base i : ExprId} {pattern : List Component} {node : Expr}
      (at_ : p.exprs.get? e = some node) (op : node.op = .swizzle base pattern)
      (deeper : ChainIndex base i) : ChainIndex e i

/-- What a statement reads when it runs; the whole behind an assigned part is not read. -/
inductive Observes : StatementKind → ExprId → Prop
  | init {v : VarId} {e : ExprId} : Observes (.act (.declare v (some e))) e
  | value {target value : ExprId} : Observes (.act (.assign target value)) value
  | index {target value i : ExprId} (along : p.ChainIndex target i) :
      Observes (.act (.assign target value)) i
  | coord {storage coord value : ExprId} : Observes (.act (.store storage coord value)) coord
  | texel {storage coord value : ExprId} : Observes (.act (.store storage coord value)) value
  | condition {e : ExprId} {accept reject : ScopeId} : Observes (.branch e accept reject) e
  | start {v : VarId} {start stop : ExprId} {body : ScopeId} :
      Observes (.loop v start stop body) start
  | stop {v : VarId} {start stop : ExprId} {body : ScopeId} :
      Observes (.loop v start stop body) stop

inductive Records (s : StmtId) : StatementKind → List Stamp → Prop
  | declare {v : VarId} {init : Option ExprId} : Records s (.act (.declare v init)) [⟨v, 0⟩]
  | assign {target value : ExprId} {v : VarId} {count : UInt32}
      (rooted : p.root target = .ok (some v)) (next : count.toNat = p.assignedBefore v s + 1) :
      Records s (.act (.assign target value)) [⟨v, count⟩]
  | store {storage coord value : ExprId} : Records s (.act (.store storage coord value)) []
  | branch {condition : ExprId} {accept reject : ScopeId} :
      Records s (.branch condition accept reject) []
  | loop {counter : VarId} {start stop : ExprId} {body : ScopeId} :
      Records s (.loop counter start stop body) [⟨counter, 0⟩]
  | block {b : BlockId} : Records s (.block b) []

def Caches (e : ExprId) (v : VarId) : Prop := ∃ node, p.exprs.get? e = some node ∧ v ∈ node.state

/-- The stamps of a statement are the counts of the moment it was built. The stamps of a block are
those of its bindings and change with them. -/
structure Dated (s : StmtId) (node : Statement) : Prop where
  writes : p.Records s node.kind node.writes
  reads : (∀ b, node.kind ≠ .block b) → ∀ t, t ∈ node.reads.toList ↔
    (∃ e, p.Observes node.kind e ∧ p.Caches e t.var) ∧ t.mutation.toNat = p.assignedBefore t.var s

def Inherits (s : StmtId) (node : Statement) : Prop :=
  ∃ old, p.stmts.get? s = some old ∧ node.kind = old.kind ∧ node.writes = old.writes ∧
    (node.reads = old.reads ∨ ∃ b, node.kind = .block b)

def Counted : Prop :=
  ∀ ⦃v var⦄, p.vars.get? v = some var → var.mutations.toNat = p.timesAssigned v

def Current (set : Stamps) (vars : VarId → Prop) : Prop :=
  ∀ t, t ∈ set.toList ↔
    vars t.var ∧ ∃ var, p.vars.get? t.var = some var ∧ var.mutations = t.mutation

end Program

section

variable {p q : Program}

@[simp] theorem kindsLength (p : Program) : p.kinds.length = p.stmts.size := by
  simp [Program.kinds, Arena.size]

theorem kindsAt {s : StmtId} {node : Statement} (at_ : p.stmts.get? s = some node) :
    p.kinds[s.index]? = some node.kind := by
  have there : p.stmts.nodes[s.index]? = some node := at_
  simp [Program.kinds, there]

theorem memKinds {kind : StatementKind} (inside : kind ∈ p.kinds) :
    ∃ s node, p.stmts.get? s = some node ∧ node.kind = kind := by
  obtain ⟨node, among, rfl⟩ := List.mem_map.mp inside
  obtain ⟨i, at_⟩ := List.mem_iff_getElem?.mp among
  rw [Array.getElem?_toList] at at_
  exact ⟨⟨i⟩, node, at_, rfl⟩

theorem Grows.kinds (grows : Grows p q) : p.kinds <+: q.kinds := by
  refine List.prefix_iff_getElem?.mpr fun i inside => ?_
  obtain ⟨node, at_⟩ := Arena.atBelow (a := p.stmts) (h := ⟨i⟩) (by simpa using inside)
  obtain ⟨_, there, reads, rfl⟩ := grows.stmts at_
  have same := kindsAt at_
  rw [List.getElem?_eq_getElem inside] at same
  rw [kindsAt there, Option.some.inj same]

theorem assignsRoot {v : VarId} {kind : StatementKind} (changes : p.assigns v kind = true) :
    ∃ target value, kind = .act (.assign target value) ∧ p.root target = .ok (some v) := by
  unfold Program.assigns at changes
  split at changes
  · rename_i target value
    split at changes
    · rename_i w rooted
      exact ⟨target, value, rfl, by rw [rooted, beq_iff_eq.mp changes]⟩
    · cases changes
  · cases changes

theorem Grows.assigns (grows : Grows p q) {kind : StatementKind} (proper : Proper p kind)
    (v : VarId) : q.assigns v kind = p.assigns v kind := by
  cases proper with
  | assign _ _ rooted => simp only [Program.assigns, rooted, grows.root rooted]
  | _ => rfl

theorem Built.countKept (built : Built p) (grows : Grows p q) {kinds : List StatementKind}
    (among : kinds ⊆ p.kinds) (v : VarId) :
    kinds.countP (q.assigns v) = kinds.countP (p.assigns v) := by
  refine List.countP_congr fun kind inside => ?_
  obtain ⟨s, node, at_, rfl⟩ := memKinds (among inside)
  rw [grows.assigns (built.proper at_)]

theorem Built.assignedBeforeKept (built : Built p) (grows : Grows p q) {s : StmtId}
    (inside : s.index ≤ p.stmts.size) (v : VarId) :
    q.assignedBefore v s = p.assignedBefore v s := by
  obtain ⟨later, more⟩ := grows.kinds
  rw [Program.assignedBefore, ← more, List.take_append_of_le_length (by simpa using inside)]
  exact built.countKept grows (List.take_subset ..) v

theorem assignedBeforeFresh (p : Program) (v : VarId) :
    p.assignedBefore v p.stmts.fresh = p.timesAssigned v := by
  rw [Program.assignedBefore, List.take_of_length_le (by simp), Program.timesAssigned]

theorem Built.timesAssignedMore (built : Built p) (grows : Grows p q) {later : List StatementKind}
    (more : q.kinds = p.kinds ++ later) (v : VarId) :
    q.timesAssigned v = p.timesAssigned v + later.countP (q.assigns v) := by
  rw [Program.timesAssigned, more, List.countP_append, built.countKept grows (List.Subset.refl _),
    Program.timesAssigned]

theorem unassigned {v : VarId} (absent : p.vars.get? v = none) :
    p.timesAssigned v = 0 := by
  refine List.countP_eq_zero.mpr fun kind inside changes => ?_
  obtain ⟨target, value, rfl, rooted⟩ := assignsRoot changes
  obtain ⟨var, at_, -⟩ := (rootedOf rooted).variable
  rw [absent] at at_
  cases at_

theorem pushKinds (p : Program) (node : Statement) :
    (p.withStmt node).kinds = p.kinds ++ [node.kind] := by
  simp [Program.kinds, Program.withStmt, Arena.push]

theorem replaceKinds (p : Program) (s : StmtId) {f : Statement → Statement}
    (same : ∀ node, (f node).kind = node.kind) : (p.mapStmt s f).kinds = p.kinds := by
  refine List.ext_getElem? fun i => ?_
  simp only [Program.kinds, Program.mapStmt, Arena.replace, List.getElem?_map,
    Array.getElem?_toList, Array.getElem?_modify]
  split
  · cases p.stmts.nodes[i]? <;> simp [same]
  · rfl

theorem Built.countedStill (built : Built p) (counted : p.Counted) (grows : Grows p q)
    {later : List StatementKind} (more : q.kinds = p.kinds ++ later)
    (none : ∀ v, ∀ kind ∈ later, q.assigns v kind = false)
    (vars : ∀ v var, q.vars.get? v = some var →
      p.vars.get? v = some var ∨ v = p.vars.fresh ∧ var.mutations = 0) : q.Counted := by
  intro v var at_
  have still : q.timesAssigned v = p.timesAssigned v := by
    rw [built.timesAssignedMore grows more, List.countP_eq_zero.mpr, Nat.add_zero]
    exact fun kind inside changes => by simp [none v kind inside] at changes
  rw [still]
  rcases vars v var at_ with old | ⟨rfl, zero⟩
  · exact counted old
  · -- no statement that stands assigns to a variable which does not stand yet
    rw [unassigned, zero]
    · rfl
    · exact Option.eq_none_iff_forall_ne_some.mpr fun _ old => Arena.neFresh old rfl

theorem timesAssignedBound (p : Program) (v : VarId) : p.timesAssigned v ≤ p.stmts.size := by
  rw [← kindsLength]
  exact List.countP_le_length

theorem Program.Counted.next (counted : p.Counted) {v : VarId} {var : Variable}
    (at_ : p.vars.get? v = some var) (room : p.stmts.size < Handle.limit) :
    (var.mutations + 1).toNat = p.timesAssigned v + 1 := by
  have times := counted at_
  have bound := timesAssignedBound p v
  have one : (1 : UInt32).toNat = 1 := rfl
  simp only [Handle.limit] at room
  rw [UInt32.toNat_add, one]
  omega

theorem Edit.counted (edit : Edit p q) (built : Built p) (counted : p.Counted) : q.Counted := by
  have grows := edit.grows
  have kept : ∀ v var, p.vars.get? v = some var →
      p.vars.get? v = some var ∨ v = p.vars.fresh ∧ var.mutations = 0 := fun _ _ at_ => .inl at_
  have pushed (new : Variable) (zero : new.mutations = 0) :
      ∀ v var, (p.vars.push new).get? v = some var →
        p.vars.get? v = some var ∨ v = p.vars.fresh ∧ var.mutations = 0 := by
    intro v var at_
    rcases Arena.getPushed at_ with ⟨rfl, rfl⟩ | old
    · exact .inr ⟨rfl, zero⟩
    · exact .inl old
  have same : p.kinds = p.kinds ++ [] := (List.append_nil _).symm
  have nothing : ∀ v, ∀ kind ∈ ([] : List StatementKind), q.assigns v kind = false :=
    fun _ _ inside => by cases inside
  cases edit with
  | spend | expr | stage | slot => exact built.countedStill counted grows same nothing kept
  | uniform | stageInput | stageOutput | builtin =>
    exact built.countedStill counted grows same nothing (pushed _ rfl)
  | declare | output | loop =>
    refine built.countedStill counted grows (pushKinds p _) (fun v kind inside => ?_) (pushed _ rfl)
    rw [List.mem_singleton.mp inside]
    rfl
  | store | branch | block =>
    refine built.countedStill counted grows (pushKinds p _) (fun v kind inside => ?_) kept
    rw [List.mem_singleton.mp inside]
    rfl
  | @fill target slot value reads all node =>
    have kinds : (p.filled target value reads node.statement all).kinds = p.kinds :=
      replaceKinds (p.bound target value reads) _ fun _ => rfl
    exact built.countedStill counted grows (kinds.trans same) nothing kept
  | @assign scope home target value ty w var valueReads targetReads _ _ _ rooted read _ _ room =>
    intro v now at_
    obtain ⟨old, before, rfl⟩ := Arena.getReplaced at_
    have times := counted before
    rw [built.timesAssignedMore grows (pushKinds p _)]
    simp only [List.countP_singleton, Program.assigns, grows.root rooted, beq_iff_eq]
    split
    · exact counted.next before room
    · rw [times, Nat.add_zero]

theorem Built.counted (built : Built p) : p.Counted := by
  induction built with
  | new name => exact fun _ _ at_ => absurd at_ emptyGet
  | edit before edit ih => exact edit.counted before ih

theorem stampNowOk {v : VarId} {s : Stamp} : p.stampNow v = .ok s ↔
    s.var = v ∧ ∃ var, p.vars.get? v = some var ∧ var.mutations = s.mutation := by
  simp only [Program.stampNow, Outcome.bindOk, Outcome.pureOk, Arena.fetchOk]
  constructor
  · intro h
    obtain ⟨var, at_, rfl⟩ := h
    exact ⟨rfl, var, at_, rfl⟩
  · intro h
    obtain ⟨rfl, var, at_, count⟩ := h
    exact ⟨var, at_, by rw [count]⟩

theorem stampedVars {vars : List VarId} {stamps : List Stamp}
    (each : List.Forall₂ (fun v s => p.stampNow v = .ok s) vars stamps) :
    stamps.map Stamp.var = vars := by
  induction each with
  | nil => rfl
  | cons made _ ih => rw [List.map_cons, (stampNowOk.mp made).1, ih]

namespace Program.Current

variable {set other : Stamps} {P Q : VarId → Prop}

theorem empty : p.Current .empty fun _ => False :=
  fun _ => ⟨fun inside => (by cases inside), fun h => h.1.elim⟩

theorem congr (current : p.Current set P) (same : ∀ v, P v ↔ Q v) : p.Current set Q :=
  fun t => (current t).trans (and_congr_left fun _ => same t.var)

theorem union (one : p.Current set P) (two : p.Current other Q) :
    p.Current (set.union other) fun v => P v ∨ Q v := by
  intro t
  rw [Stamps.getMem, Stamps.getUnion]
  constructor
  · intro found
    rcases Option.or_eq_some_iff.mp found with right | ⟨-, left⟩
    · obtain ⟨held, now⟩ := (two t).mp (Stamps.getMem.mpr right)
      exact ⟨.inr held, now⟩
    · obtain ⟨held, now⟩ := (one t).mp (Stamps.getMem.mpr left)
      exact ⟨.inl held, now⟩
  · intro h
    obtain ⟨held, var, at_, now⟩ := h
    cases right : other.get? t.var with
    | none =>
      rcases held with left | held
      · exact Stamps.getMem.mp ((one t).mpr ⟨left, var, at_, now⟩)
      · rw [Stamps.getMem.mp ((two t).mpr ⟨held, var, at_, now⟩)] at right
        cases right
    | some u =>
      -- both sides hold the stamp of the moment, so it does not matter which one stays
      have same := Stamps.getVar right
      rw [← same] at right
      obtain ⟨-, again, there, count⟩ := (two u).mp (Stamps.getMem.mpr right)
      rw [same] at there
      cases at_.symm.trans there
      exact congrArg some (by cases t; cases u; cases same; cases now; cases count; rfl)

theorem back (current : q.Current set P)
    (same : ∀ v, P v → q.vars.get? v = p.vars.get? v) : p.Current set P := by
  intro t
  rw [current t]
  exact and_congr_right fun held => by rw [same t.var held]

theorem read {e : ExprId} {node : Expr} (at_ : p.exprs.get? e = some node)
    (ascends : Ascending node.state) (read : p.readStamps e = .ok set) :
    p.Current set (p.Caches e) := by
  simp only [readStamps, Outcome.bindOk, Outcome.pureOk, Arena.fetchOk] at read
  obtain ⟨again, there, stamps, ran, rfl⟩ := read
  cases at_.symm.trans there
  have ascending : Ascending (stamps.map Stamp.var) := by
    rw [stampedVars (Outcome.mapMOk.mp ran)]
    exact ascends
  have ordered : Increasing stamps := by
    have mapped := List.pairwise_map.mp ascending
    exact mapped
  intro t
  rw [Stamps.memOfList ordered]
  constructor
  · intro inside
    obtain ⟨v, held, made⟩ := Outcome.mapMSource ran inside
    obtain ⟨rfl, now⟩ := stampNowOk.mp made
    exact ⟨⟨node, at_, held⟩, now⟩
  · intro h
    obtain ⟨⟨again, there, held⟩, var, varAt, now⟩ := h
    cases at_.symm.trans there
    obtain ⟨s, inside, made⟩ := Outcome.mapMTarget ran held
    have mine : p.stampNow t.var = .ok t := stampNowOk.mpr ⟨rfl, var, varAt, now⟩
    cases made.symm.trans mine
    exact inside

end Program.Current

@[simp] theorem observesInit {v : VarId} {init : Option ExprId} {e : ExprId} :
    p.Observes (.act (.declare v init)) e ↔ init = some e := by
  constructor
  · intro observes
    cases observes with
    | init => rfl
  · rintro rfl
    exact .init

@[simp] theorem observesAssign {target value e : ExprId} :
    p.Observes (.act (.assign target value)) e ↔ e = value ∨ p.ChainIndex target e := by
  constructor
  · intro observes
    cases observes with
    | value => exact .inl rfl
    | index along => exact .inr along
  · rintro (rfl | along)
    · exact .value
    · exact .index along

@[simp] theorem observesStore {storage coord value e : ExprId} :
    p.Observes (.act (.store storage coord value)) e ↔ e = coord ∨ e = value := by
  constructor
  · intro observes
    cases observes with
    | coord => exact .inl rfl
    | texel => exact .inr rfl
  · rintro (rfl | rfl)
    · exact .coord
    · exact .texel

@[simp] theorem observesBranch {condition e : ExprId} {accept reject : ScopeId} :
    p.Observes (.branch condition accept reject) e ↔ e = condition := by
  constructor
  · intro observes
    cases observes with
    | condition => rfl
  · rintro rfl
    exact .condition

@[simp] theorem observesLoop {v : VarId} {start stop e : ExprId} {body : ScopeId} :
    p.Observes (.loop v start stop body) e ↔ e = start ∨ e = stop := by
  constructor
  · intro observes
    cases observes with
    | start => exact .inl rfl
    | stop => exact .inr rfl
  · rintro (rfl | rfl)
    · exact .start
    · exact .stop

@[simp] theorem observesBlock {b : BlockId} {e : ExprId} : ¬ p.Observes (.block b) e :=
  fun observes => by cases observes

theorem chainIndexIff {e i : ExprId} {node : Expr} (at_ : p.exprs.get? e = some node) :
    p.ChainIndex e i ↔ match node.op with
      | .column base index | .element base index => i = index ∨ p.ChainIndex base i
      | .swizzle base _ => p.ChainIndex base i
      | _ => False := by
  constructor
  · intro along
    cases along with
    | column there op | element there op =>
      cases at_.symm.trans there
      rw [op]
      exact .inl rfl
    | inColumn there op deeper | inElement there op deeper =>
      cases at_.symm.trans there
      rw [op]
      exact .inr deeper
    | inSwizzle there op deeper =>
      cases at_.symm.trans there
      rw [op]
      exact deeper
  · intro along
    split at along
    · rename_i base index op
      rcases along with rfl | deeper
      · exact .column at_ op
      · exact .inColumn at_ op deeper
    · rename_i base index op
      rcases along with rfl | deeper
      · exact .element at_ op
      · exact .inElement at_ op deeper
    · rename_i base pattern op
      exact .inSwizzle at_ op along
    · exact along.elim

theorem Program.Current.targetWithin
    (ascends : ∀ e node, p.exprs.get? e = some node → Ascending node.state) {fuel : Nat}
    {e : ExprId} {set : Stamps} (read : p.targetReadsWithin fuel e = .ok set) :
    p.Current set fun v => ∃ i, p.ChainIndex e i ∧ p.Caches i v := by
  induction fuel generalizing e set with
  | zero => cases read
  | succ fuel ih =>
    simp only [Program.targetReadsWithin, Outcome.bindOk, Arena.fetchOk] at read
    obtain ⟨node, at_, read⟩ := read
    have along := fun i => chainIndexIff (i := i) at_
    cases op : node.op with
    | column base index | element base index =>
      simp only [op, Outcome.bindOk, Outcome.pureOk] at read along
      obtain ⟨below, found, here, known, rfl⟩ := read
      obtain ⟨indexNode, indexAt, -⟩ := Outcome.bindOk.mp known
      have indexAt := Arena.fetchOk.mp indexAt
      refine ((ih found).union (.read indexAt (ascends _ _ indexAt) known)).congr fun v => ?_
      simp only [along, or_and_right, exists_or, exists_eq_left, or_comm]
    | swizzle base pattern =>
      simp only [op] at read along
      simp only [along]
      exact ih read
    | _ =>
      simp only [op, Outcome.pureOk] at read along
      subst read
      refine Program.Current.empty.congr fun v => ?_
      simp [along]

theorem Program.ChainIndex.stands (built : Built p) {e i : ExprId} (along : p.ChainIndex e i) :
    i.index < p.exprs.size := by
  induction along with
  | column at_ op | element at_ op =>
    exact (built.operand ⟨_, at_, by simp [op, Operation.operands]⟩).2
  | inColumn _ _ _ ih | inElement _ _ _ ih | inSwizzle _ _ _ ih => exact ih

theorem Grows.exprAt (grows : Grows p q) {e : ExprId} (stands : e.index < p.exprs.size) :
    q.exprs.get? e = p.exprs.get? e := by
  obtain ⟨node, at_⟩ := Arena.atBelow stands
  obtain ⟨_, there, rfl⟩ := grows.exprs at_
  rw [there, at_]

theorem Grows.chainIndex (grows : Grows p q) (built : Built p) {e i : ExprId}
    (stands : e.index < p.exprs.size) : q.ChainIndex e i ↔ p.ChainIndex e i := by
  -- by recursion on the handle, since the base of a chain is older
  induction depth : e.index using Nat.strongRecOn generalizing e with
  | ind n ih =>
    obtain ⟨node, at_⟩ := Arena.atBelow stands
    have there : q.exprs.get? e = some node := (grows.exprAt stands).trans at_
    rw [chainIndexIff at_, chainIndexIff there]
    have same {base : ExprId} (inside : base ∈ node.op.operands) :
        q.ChainIndex base i ↔ p.ChainIndex base i := by
      obtain ⟨older, below⟩ := built.operand ⟨node, at_, inside⟩
      exact ih base.index (depth ▸ older) below rfl
    cases op : node.op with
    | column base index | element base index | swizzle base pattern =>
      have base : base ∈ node.op.operands := by simp [op, Operation.operands]
      simp only [same base]
    | _ => rfl

structure Program.Sited (p : Program) (kind : StatementKind) : Prop where
  observed : ∀ e, p.Observes kind e → e.index < p.exprs.size
  target : ∀ target value, kind = .act (.assign target value) → ∃ v, p.root target = .ok (some v)

theorem Proper.sited {kind : StatementKind} (proper : Proper p kind) (built : Built p) :
    p.Sited kind := by
  refine ⟨fun e observes => ?_, fun target value same => ?_⟩
  · cases proper with
    | declare _ typed => exact (typed e (observesInit.mp observes)).below
    | assign _ value =>
      rcases observesAssign.mp observes with rfl | along
      · exact value.below
      · exact along.stands built
    | store _ place texel =>
      rcases observesStore.mp observes with rfl | rfl
      · exact place.below
      · exact texel.below
    | branch typed =>
      rw [observesBranch.mp observes]
      exact typed.below
    | loop _ _ start stop =>
      rcases observesLoop.mp observes with rfl | rfl
      · exact start.below
      · exact stop.below
    | block => exact absurd observes observesBlock
  · subst same
    cases proper with
    | assign _ _ rooted => exact ⟨_, rooted⟩

theorem Program.Observes.keep {kind : StatementKind} {e : ExprId} (observes : p.Observes kind e)
    (along : ∀ target value, kind = .act (.assign target value) → p.ChainIndex target e →
      q.ChainIndex target e) : q.Observes kind e := by
  cases observes with
  | index deeper => exact .index (along _ _ rfl deeper)
  | init => exact .init
  | value => exact .value
  | coord => exact .coord
  | texel => exact .texel
  | condition => exact .condition
  | start => exact .start
  | stop => exact .stop

theorem Grows.observes (grows : Grows p q) (built : Built p) {kind : StatementKind}
    (sited : p.Sited kind) (e : ExprId) : q.Observes kind e ↔ p.Observes kind e := by
  have along : ∀ target value, kind = .act (.assign target value) →
      (q.ChainIndex target e ↔ p.ChainIndex target e) := by
    intro target value same
    obtain ⟨v, rooted⟩ := sited.target target value same
    exact grows.chainIndex built (rootedOf rooted).stands
  exact ⟨fun observes => observes.keep fun target value same => (along target value same).mp,
    fun observes => observes.keep fun target value same => (along target value same).mpr⟩

theorem Built.datedKept (built : Built p) (grows : Grows p q) {s : StmtId} {node : Statement}
    (sited : p.Sited node.kind) (inside : s.index ≤ p.stmts.size) (dated : p.Dated s node) :
    q.Dated s node where
  writes := by
    obtain ⟨kind, scope, reads, writes⟩ := node
    cases dated.writes with
    | assign rooted next =>
      exact .assign (grows.root rooted) (by rw [next, built.assignedBeforeKept grows inside])
    | declare => exact .declare
    | store => exact .store
    | branch => exact .branch
    | loop => exact .loop
    | block => exact .block
  reads := fun other t => by
    rw [dated.reads other t, built.assignedBeforeKept grows inside]
    refine and_congr_left fun _ => exists_congr fun e => ?_
    rw [grows.observes built sited]
    refine and_congr_right fun observes => ?_
    rw [Program.Caches, Program.Caches, grows.exprAt (sited.observed e observes)]

theorem Built.dates (built : Built p) {node : Statement}
    (records : p.Records p.stmts.fresh node.kind node.writes)
    (current : (∀ b, node.kind ≠ .block b) →
      p.Current node.reads fun v => ∃ e, p.Observes node.kind e ∧ p.Caches e v) :
    p.Dated p.stmts.fresh node where
  writes := records
  reads := fun other t => by
    rw [current other t, assignedBeforeFresh]
    refine and_congr_right fun h => ?_
    obtain ⟨e, -, from_, at_, held⟩ := h
    obtain ⟨⟨var, varAt, -⟩, -⟩ := (built.stateMem at_ t.var).mp held
    have count := built.counted varAt
    constructor
    · intro h
      obtain ⟨again, there, same⟩ := h
      cases varAt.symm.trans there
      rw [← same, count]
    · intro same
      exact ⟨var, varAt, UInt32.toNat_inj.mp (count.trans same.symm)⟩

theorem Built.currentRead (built : Built p) {r : Program} {e : ExprId} {set : Stamps}
    (known : r.readStamps e = .ok set) (exprs : r.exprs = p.exprs)
    (vars : p.vars.Extends Eq r.vars) : p.Current set (p.Caches e) := by
  obtain ⟨node, found, -⟩ := Outcome.bindOk.mp known
  have there := Arena.fetchOk.mp found
  have at_ : p.exprs.get? e = some node := exprs ▸ there
  refine (Program.Current.read there (built.exact at_).ascends known).congr (fun v => ?_) |>.back
    fun v held => ?_
  · rw [Program.Caches, Program.Caches, exprs]
  · obtain ⟨again, at_, inside⟩ := held
    obtain ⟨⟨var, varAt, -⟩, -⟩ := (built.stateMem at_ v).mp inside
    obtain ⟨_, later, rfl⟩ := vars varAt
    rw [later, varAt]

theorem Edit.born (edit : Edit p q) (built : Built p) {s : StmtId} {node : Statement}
    (at_ : q.stmts.get? s = some node) :
    p.Inherits s node ∨ s = p.stmts.fresh ∧ p.Sited node.kind ∧ p.Dated s node := by
  have pushed {new : Statement} (at_ : (p.stmts.push new).get? s = some node)
      (dated : p.Sited new.kind ∧ p.Dated p.stmts.fresh new) :
      p.Inherits s node ∨ s = p.stmts.fresh ∧ p.Sited node.kind ∧ p.Dated s node := by
    rcases Arena.getPushed at_ with ⟨rfl, rfl⟩ | old
    · exact .inr ⟨rfl, dated⟩
    · exact .inl ⟨node, old, rfl, rfl, .inl rfl⟩
  have here : p.vars.Extends Eq p.vars := .refl fun _ => rfl
  have more (new : Variable) : p.vars.Extends Eq (p.vars.push new) := .push (fun _ => rfl) new
  cases edit with
  | @declare scope home stem ty init reads _ typed _ known =>
    refine pushed at_ ⟨⟨fun e observes => (typed e (observesInit.mp observes)).below,
      fun _ _ same => by cases same⟩, built.dates .declare fun _ => ?_⟩
    cases init with
    | none =>
      cases known
      exact Program.Current.empty.congr fun v => by simp
    | some e => exact (built.currentRead known rfl (more _)).congr fun v => by simp
  | assign _ targetTyped valueTyped rooted varAt knownValue knownTarget room =>
    have next := built.counted.next varAt room
    rw [← assignedBeforeFresh] at next
    refine pushed at_ ⟨(Proper.assign targetTyped valueTyped rooted).sited built,
      built.dates (.assign rooted next) fun _ => ?_⟩
    refine ((built.currentRead knownValue rfl here).union
      (.targetWithin (fun _ _ at_ => (built.exact at_).ascends) knownTarget)).congr fun v => ?_
    simp [or_and_right, exists_or]
  | store _ texture place texel knownCoord knownValue =>
    refine pushed at_ ⟨(Proper.store texture place texel).sited built,
      built.dates .store fun _ => ?_⟩
    refine ((built.currentRead knownCoord rfl here).union
      (built.currentRead knownValue rfl here)).congr fun v => ?_
    simp [or_and_right, exists_or]
  | branch _ typed known =>
    refine pushed at_ ⟨(Proper.branch typed).sited built, built.dates .branch fun _ => ?_⟩
    exact (built.currentRead known rfl here).congr fun v => by simp
  | loop _ startTyped stopTyped knownStart knownStop =>
    refine pushed at_ ⟨⟨fun e observes => ?_, fun _ _ same => by cases same⟩,
      built.dates .loop fun _ => ?_⟩
    · rcases observesLoop.mp observes with rfl | rfl
      · exact startTyped.below
      · exact stopTyped.below
    · refine ((built.currentRead knownStart rfl (more _)).union
        (built.currentRead knownStop rfl (more _))).congr fun v => ?_
      simp [or_and_right, exists_or]
  | block =>
    exact pushed at_ ⟨(Proper.block _).sited built,
      built.dates .block fun other => absurd rfl (other _)⟩
  | output =>
    refine pushed at_ ⟨⟨fun e observes => (by simp at observes), fun _ _ same => by cases same⟩,
      built.dates .declare fun _ => Program.Current.empty.congr fun v => by simp⟩
  | fill _ _ _ owner =>
    obtain ⟨old, before, rfl⟩ := Arena.getReplaced at_
    refine .inl ⟨old, before, ?_⟩
    split
    · rename_i same
      obtain ⟨stmt, stmtAt, kind, -⟩ := built.forest.blocks owner
      cases (same ▸ stmtAt).symm.trans before
      exact ⟨rfl, rfl, .inr ⟨_, kind⟩⟩
    · exact ⟨rfl, rfl, .inl rfl⟩
  | _ => exact .inl ⟨node, at_, rfl, rfl, .inl rfl⟩

theorem Built.dated (built : Built p) {s : StmtId} {node : Statement}
    (at_ : p.stmts.get? s = some node) : p.Dated s node := by
  induction built generalizing node with
  | new name => exact absurd at_ emptyGet
  | edit before edit ih =>
    rcases edit.born before at_ with ⟨old, there, kind, writes, reads⟩ | ⟨rfl, sited, dated⟩
    · have sited := (before.proper there).sited before
      rw [← kind] at sited
      refine before.datedKept edit.grows sited (Nat.le_of_lt (Arena.below there)) ?_
      obtain ⟨recorded, observed⟩ := ih there
      refine ⟨by rw [kind, writes]; exact recorded, fun other => ?_⟩
      rcases reads with same | ⟨b, blocks⟩
      · rw [kind, same]
        exact observed (kind ▸ other)
      · exact absurd blocks (other b)
    · exact before.datedKept edit.grows sited (Nat.le_refl _) dated

theorem reachableDated (reachable : Reachable p) : p.Counted ∧
    ∀ s node, p.stmts.get? s = some node → p.Dated s node := by
  have built := reachableBuilt reachable
  exact ⟨built.counted, fun s node at_ => built.dated at_⟩

def viewedRun : List Call :=
  [.addStage .fragment, .literal (.int 0), .declare ⟨0⟩ "i" .int1 (some ⟨0⟩),
    .declare ⟨0⟩ "m" .mat2 none, .read ⟨0⟩, .read ⟨1⟩, .column ⟨2⟩ ⟨1⟩, .swizzle ⟨3⟩ "x",
    .assign ⟨0⟩ ⟨4⟩ ⟨4⟩, .assign ⟨0⟩ ⟨0⟩ ⟨0⟩, .block ⟨0⟩ "use", .assign ⟨0⟩ ⟨1⟩ ⟨0⟩,
    .literal (.bool true), .branch ⟨0⟩ ⟨5⟩, .assign ⟨2⟩ ⟨4⟩ ⟨4⟩]

theorem viewedRuns : ∃ p node, Program.after { name := "p" } viewedRun = some p ∧
    p.stmts.get? ⟨6⟩ = some node ∧ node.reads.toList = [⟨⟨0⟩, 1⟩, ⟨⟨1⟩, 1⟩] ∧
    node.writes = [⟨⟨1⟩, 2⟩] ∧ p.timesAssigned ⟨1⟩ = 2 ∧ p.assignedBefore ⟨1⟩ ⟨6⟩ = 1 :=
  ⟨_, _, rfl, rfl, rfl, rfl, rfl, rfl⟩

theorem reachableDatedViewed : ∃ p node, Program.after { name := "p" } viewedRun = some p ∧
    p.Counted ∧ p.stmts.get? ⟨6⟩ = some node ∧ p.Dated ⟨6⟩ node ∧
    node.reads.toList = [⟨⟨0⟩, 1⟩, ⟨⟨1⟩, 1⟩] ∧ node.writes = [⟨⟨1⟩, 2⟩] := by
  obtain ⟨p, node, ran, at_, reads, writes, -⟩ := viewedRuns
  obtain ⟨counted, dated⟩ := reachableDated ((Reachable.new "p").after ran)
  exact ⟨p, node, ran, counted, at_, dated _ _ at_, reads, writes⟩

end

end ShaderGraph
