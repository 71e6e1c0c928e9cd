import ShaderGraph.Proofs.Cycles
import ShaderGraph.Proofs.Visibility
/-! The check decides the rule. A check of one thing either ends well, and then there is no fault,
or it reports one of the faults; a walk through a body reports a fault of the first statement that
has one. Both read off the walk step by step, and the list of visible variables is the visibility
of the rule at every statement. -/
namespace ShaderGraph

open Relation

def Judges (x : Outcome Unit) (faults : Error → Prop) : Prop :=
  (x = .ok () ∧ ∀ e, ¬ faults e) ∨ ∃ e, x = reject e ∧ faults e

def Sweeps (x : Outcome Unit) (row : List StmtId) (faults : StmtId → Error → Prop) : Prop :=
  (x = .ok () ∧ ∀ s ∈ row, ∀ e, ¬ faults s e) ∨
    ∃ before s after e, row = before ++ s :: after ∧ (∀ t ∈ before, ∀ e, ¬ faults t e) ∧
      x = reject e ∧ faults s e

namespace Judges

variable {x : Outcome Unit} {faults more : Error → Prop}

theorem clear : Judges (.ok ()) fun _ => False := .inl ⟨rfl, fun _ none => none⟩

theorem refused {e : Error} (fault : faults e) : Judges (reject e) faults := .inr ⟨e, rfl, fault⟩

theorem congr (judges : Judges x faults) (same : ∀ e, faults e ↔ more e) : Judges x more := by
  have equal : faults = more := funext fun e => propext (same e)
  exact equal ▸ judges

theorem bind {y : Unit → Outcome Unit} (first : Judges x faults) (second : Judges (y ()) more) :
    Judges (x >>= y) fun e => faults e ∨ more e := by
  rcases first with ⟨rfl, none⟩ | ⟨e, rfl, fault⟩
  · rcases second with ⟨ok, noMore⟩ | ⟨e, rejected, fault⟩
    · exact .inl ⟨ok, fun e fault => fault.elim (none e) (noMore e)⟩
    · exact .inr ⟨e, rejected, .inr fault⟩
  · exact .inr ⟨e, rfl, .inl fault⟩

theorem forM {α : Type} {f : α → Outcome Unit} {faults : α → Error → Prop} {as : List α}
    (each : ∀ a ∈ as, Judges (f a) (faults a)) :
    Judges (as.forM f) fun e => ∃ a ∈ as, faults a e := by
  induction as with
  | nil => exact clear.congr fun e => by simp
  | cons a rest ih =>
    have first := each a List.mem_cons_self
    have others := ih fun b inside => each b (List.mem_cons_of_mem _ inside)
    exact (first.bind others).congr fun e => by simp

end Judges

namespace Sweeps

variable {x : Outcome Unit} {row later : List StmtId} {faults : StmtId → Error → Prop}

theorem nil : Sweeps (.ok ()) [] faults := .inl ⟨rfl, fun _ none => by cases none⟩

theorem cons {s : StmtId} {y : Unit → Outcome Unit} (first : Judges x (faults s))
    (rest : Sweeps (y ()) later faults) : Sweeps (x >>= y) (s :: later) faults := by
  rcases first with ⟨rfl, none⟩ | ⟨e, rfl, fault⟩
  · rcases rest with ⟨ok, noMore⟩ | ⟨before, t, after, e, split, clean, rejected, fault⟩
    · exact .inl ⟨ok, List.forall_mem_cons.mpr ⟨none, noMore⟩⟩
    · exact .inr ⟨s :: before, t, after, e, by rw [split]; rfl,
        List.forall_mem_cons.mpr ⟨none, clean⟩, rejected, fault⟩
  · exact .inr ⟨[], s, later, e, rfl, fun _ none => (by cases none), rfl, fault⟩

theorem append {y : Unit → Outcome Unit} (first : Sweeps x row faults)
    (rest : Sweeps (y ()) later faults) : Sweeps (x >>= y) (row ++ later) faults := by
  rcases first with ⟨rfl, none⟩ | ⟨before, s, after, e, split, clean, rfl, fault⟩
  · rcases rest with ⟨ok, noMore⟩ | ⟨before, t, after, e, split, clean, rejected, fault⟩
    · exact .inl ⟨ok, List.forall_mem_append.mpr ⟨none, noMore⟩⟩
    · exact .inr ⟨row ++ before, t, after, e, by rw [split, List.append_assoc],
        List.forall_mem_append.mpr ⟨none, clean⟩, rejected, fault⟩
  · exact .inr ⟨before, s, after ++ later, e, by rw [split, List.append_assoc]; rfl, clean, rfl, fault⟩

end Sweeps

section

variable {p : Program}

theorem readFaultStep {home : Scope} {seen : VarId → Prop} {e : ExprId} {error : Error} :
    p.ReadFault home seen e error ↔
      p.NodeFault home seen e error ∨ ∃ o, p.Follows e o ∧ p.ReadFault home seen o error := by
  constructor
  · intro h
    obtain ⟨o, follows, fault⟩ := h
    rcases ReflTransGen.cases_head follows with rfl | ⟨next, step, further⟩
    · exact .inl fault
    · exact .inr ⟨next, step, o, further, fault⟩
  · intro h
    obtain fault | ⟨next, step, o, further, fault⟩ := h
    · exact ⟨e, .refl, fault⟩
    · exact ⟨o, .head step further, fault⟩

theorem readFaultIff {home : Scope} {seen : VarId → Prop} {e : ExprId} {node : Expr} {error : Error}
    (at_ : p.exprs.get? e = some node) :
    p.ReadFault home seen e error ↔ p.NodeFault home seen e error ∨
      (∃ o ∈ node.op.operands, p.ReadFault home seen o error) ∨
      ∃ s value, node.op = .slot s ∧ p.IsBound s value ∧ p.ReadFault home seen value error := by
  rw [readFaultStep]
  refine or_congr_right ⟨?_, ?_⟩
  · intro h
    obtain ⟨o, step, fault⟩ := h
    cases step with
    | operand step =>
      obtain ⟨other, there, inside⟩ := step
      cases at_.symm.trans there
      exact .inl ⟨o, inside, fault⟩
    | bound reader bound =>
      obtain ⟨other, there, op⟩ := reader
      cases at_.symm.trans there
      exact .inr ⟨_, o, op, bound, fault⟩
  · intro h
    obtain ⟨o, inside, fault⟩ | ⟨s, value, op, bound, fault⟩ := h
    · exact ⟨o, .operand ⟨node, at_, inside⟩, fault⟩
    · exact ⟨value, .bound ⟨node, at_, op⟩ bound, fault⟩

theorem nodeFaultOp {home : Scope} {seen : VarId → Prop} {e : ExprId} {node : Expr} {error : Error}
    (at_ : p.exprs.get? e = some node) (fault : p.NodeFault home seen e error) :
    (∃ v, node.op = .read v) ∨ ∃ s, node.op = .slot s := by
  cases fault with
  | unbound reader => exact .inr ⟨_, reader.op at_⟩
  | stage read | hidden read => exact .inl ⟨_, read.op at_⟩

theorem judgesRead {home : Scope} {visible : List VarId} {e : ExprId} {node : Expr} {v : VarId}
    {var : Variable} (at_ : p.exprs.get? e = some node) (op : node.op = .read v)
    (varAt : p.vars.get? v = some var) :
    Judges (p.checkRead home visible v) (p.NodeFault home (· ∈ visible) e) := by
  have read : p.AtVar e v := ⟨node, at_, op⟩
  have inScope : Judges (Program.checkRead.inScope home visible v var) fun error =>
      var.isLexical = true ∧ v ∉ visible ∧ error = .outOfScope var.name home.name := by
    unfold Program.checkRead.inScope
    split
    · rename_i hidden
      simp only [Bool.and_eq_true, decide_eq_true_eq] at hidden
      exact .refused ⟨hidden.1, hidden.2, rfl⟩
    · rename_i seen
      refine Judges.clear.congr fun error => ?_
      simp only [Bool.and_eq_true, decide_eq_true_eq] at seen
      exact ⟨False.elim, fun fault => seen ⟨fault.1, fault.2.1⟩⟩
  have hiddenIff : (∀ kind ∈ var.stage, kind = home.stage) → ∀ error,
      (var.isLexical = true ∧ v ∉ visible ∧ error = .outOfScope var.name home.name) ↔
        p.NodeFault home (· ∈ visible) e error := by
    intro staged error
    constructor
    · intro h
      obtain ⟨lexical, unseen, rfl⟩ := h
      exact .hidden read varAt lexical unseen
    · intro fault
      cases fault with
      | unbound reader => cases op.symm.trans (reader.op at_)
      | stage again otherAt owned other =>
        cases op.symm.trans (again.op at_)
        cases varAt.symm.trans otherAt
        exact absurd (staged _ owned) other
      | hidden again otherAt lexical unseen =>
        cases op.symm.trans (again.op at_)
        cases varAt.symm.trans otherAt
        exact ⟨lexical, unseen, rfl⟩
  unfold Program.checkRead
  simp only [Arena.fetchOfGet varAt, Bind.bind, Except.bind]
  cases staged : var.stage with
  | none => exact inScope.congr (hiddenIff (by simp [staged]))
  | some owner =>
    simp only
    split
    · rename_i same
      exact inScope.congr (hiddenIff (by simp [staged, same]))
    · rename_i other
      exact .refused (.stage read varAt staged other)

theorem Built.judgesWithin (built : Built p) {home : Scope} {visible : List VarId} {fuel : Nat}
    {e : ExprId} (ends : p.Ends fuel e) (below : e.index < p.exprs.size) :
    Judges (p.checkReadsWithin home visible fuel e) (p.ReadFault home (· ∈ visible) e) := by
  induction fuel generalizing e with
  | zero => exact ends.elim
  | succ fuel ih =>
    obtain ⟨node, at_⟩ := Arena.atBelow below
    have fits := (built.expr at_).1
    have read : p.exprs.fetch e = .ok node := Arena.fetchOfGet at_
    simp only [Program.checkReadsWithin, read, Bind.bind, Except.bind]
    cases op : node.op with
    | read v =>
      obtain ⟨var, varAt, -⟩ := Fits.readAt (op ▸ fits)
      refine (judgesRead at_ op varAt).congr fun error => ?_
      simp [readFaultIff at_, op, Operation.operands]
    | slot s =>
      obtain ⟨slot, slotAt, -⟩ := Fits.slotAt (op ▸ fits)
      simp only [Arena.fetchOfGet slotAt]
      cases holds : slot.value with
      | none =>
        obtain ⟨block, owner, -⟩ := (built.slot slotAt).owner
        simp only [Program.unboundSlot, Arena.fetchOfGet owner, Bind.bind, Except.bind]
        exact .refused ⟨e, .refl, .unbound ⟨node, at_, op⟩ slotAt holds owner⟩
      | some value =>
        have bound : p.IsBound s value := ⟨slot, slotAt, holds⟩
        have step : p.Follows e value := .bound ⟨node, at_, op⟩ bound
        refine (ih (ends value step) (built.bound bound).2).congr fun error => ?_
        rw [readFaultIff at_, op]
        constructor
        · exact fun fault => .inr (.inr ⟨s, value, rfl, bound, fault⟩)
        · intro h
          obtain fault | ⟨o, none, -⟩ | ⟨t, other, same, ⟨again, there, held⟩, fault⟩ := h
          · cases fault with
            | unbound reader there empty =>
              cases op.symm.trans (reader.op at_)
              cases slotAt.symm.trans there
              cases holds.symm.trans empty
            | stage read | hidden read => cases op.symm.trans (read.op at_)
          · cases none
          · cases same
            cases slotAt.symm.trans there
            cases holds.symm.trans held
            exact fault
    | _ =>
      have each : ∀ o ∈ node.op.operands, Judges (p.checkReadsWithin home visible fuel o)
          (p.ReadFault home (· ∈ visible) o) := by
        intro o inside
        have step : p.Operand e o := ⟨node, at_, inside⟩
        exact ih (ends o (.operand step)) (built.operand step).2
      rw [op] at each
      refine (Judges.forM each).congr fun error => ?_
      rw [readFaultIff at_, op]
      constructor
      · exact fun fault => .inr (.inl fault)
      · intro h
        obtain fault | fault | ⟨s, value, same, -⟩ := h
        · rcases nodeFaultOp at_ fault with ⟨v, same⟩ | ⟨s, same⟩ <;> cases op.symm.trans same
        · exact fault
        · cases same

theorem Built.judgesReads (built : Built p) (acyclic : p.Acyclic) {home : Scope}
    {visible : List VarId} {e : ExprId} (below : e.index < p.exprs.size) :
    Judges (p.checkReads home visible e) (p.ReadFault home (· ∈ visible) e) :=
  built.judgesWithin (built.ends acyclic below) below

theorem Built.usesStand (built : Built p) {s : StmtId} {node : Statement} {e : ExprId}
    (at_ : p.stmts.get? s = some node) (uses : p.Uses node.kind e) : e.index < p.exprs.size := by
  have proper := built.proper at_
  generalize node.kind = kind at proper uses
  cases uses with
  | init =>
    cases proper with
    | declare _ typed => exact (typed _ rfl).below
  | target =>
    cases proper with
    | assign target => exact target.below
  | value =>
    cases proper with
    | assign _ value => exact value.below
  | storage =>
    cases proper with
    | store storage => exact storage.below
  | coord =>
    cases proper with
    | store _ coord => exact coord.below
  | texel =>
    cases proper with
    | store _ _ texel => exact texel.below
  | condition =>
    cases proper with
    | branch typed => exact typed.below
  | start =>
    cases proper with
    | loop _ _ start => exact start.below
  | stop =>
    cases proper with
    | loop _ _ _ stop => exact stop.below
  | bound _ _ bound => exact (built.bound bound).2

theorem kindFaultIff {home : Scope} {seen : VarId → Prop} {kind : StatementKind} {error : Error}
    (plain : ∀ b, kind ≠ .block b) :
    p.KindFault home seen kind error ↔ ∃ e, p.Uses kind e ∧ p.ReadFault home seen e error := by
  constructor
  · intro fault
    cases fault with
    | input named => exact absurd named (plain _)
    | read uses fault => exact ⟨_, uses, fault⟩
  · intro h
    obtain ⟨e, uses, fault⟩ := h
    exact .read uses fault

theorem Built.judgesAction (built : Built p) (acyclic : p.Acyclic) {home : Scope}
    {visible : List VarId} {s : StmtId} {node : Statement} {action : Action}
    (at_ : p.stmts.get? s = some node) (kind : node.kind = .act action) :
    Judges (p.checkAction home visible action) (p.KindFault home (· ∈ visible) node.kind) := by
  have reads : ∀ {e}, p.Uses (.act action) e →
      Judges (p.checkReads home visible e) (p.ReadFault home (· ∈ visible) e) :=
    fun uses => built.judgesReads acyclic (built.usesStand at_ (kind ▸ uses))
  have plain : ∀ b, node.kind ≠ .block b := by
    intro b same
    cases kind.symm.trans same
  suffices Judges (p.checkAction home visible action)
      fun error => ∃ e, p.Uses (.act action) e ∧ p.ReadFault home (· ∈ visible) e error by
    exact this.congr fun error => by rw [kindFaultIff plain, kind]
  cases action with
  | declare v init =>
    cases init with
    | none =>
      refine Judges.clear.congr fun error => ⟨False.elim, ?_⟩
      intro h
      obtain ⟨e, uses, -⟩ := h
      cases uses
    | some e =>
      refine (reads .init).congr fun error => ⟨fun fault => ⟨e, .init, fault⟩, ?_⟩
      intro h
      obtain ⟨_, uses, fault⟩ := h
      cases uses
      exact fault
  | assign target value =>
    refine ((reads .target).bind (reads .value)).congr fun error => ⟨?_, ?_⟩
    · intro h
      obtain fault | fault := h
      · exact ⟨target, .target, fault⟩
      · exact ⟨value, .value, fault⟩
    · intro h
      obtain ⟨_, uses, fault⟩ := h
      cases uses with
      | target => exact .inl fault
      | value => exact .inr fault
  | store storage coord value =>
    refine ((reads .storage).bind ((reads .coord).bind (reads .texel))).congr fun error => ⟨?_, ?_⟩
    · intro h
      obtain fault | fault | fault := h
      · exact ⟨storage, .storage, fault⟩
      · exact ⟨coord, .coord, fault⟩
      · exact ⟨value, .texel, fault⟩
    · intro h
      obtain ⟨_, uses, fault⟩ := h
      cases uses with
      | storage => exact .inl fault
      | coord => exact .inr (.inl fault)
      | texel => exact .inr (.inr fault)

theorem Built.judgesRow (built : Built p) (acyclic : p.Acyclic) {home : Scope}
    {visible : List VarId} {b : BlockId} {block : Block} (blockAt : p.blocks.get? b = some block)
    {row : List SlotId} (inputs : ∀ s ∈ row, s ∈ block.inputs) :
    Judges (p.checkBindings home visible row) fun error => ∃ s ∈ row,
      (∃ slot, p.slots.get? s = some slot ∧ slot.value = none ∧
        error = .unboundInput slot.name block.name) ∨
      ∃ value, p.IsBound s value ∧ p.ReadFault home (· ∈ visible) value error := by
  induction row with
  | nil => exact Judges.clear.congr fun error => by simp
  | cons s rest ih =>
    obtain ⟨slot, slotAt, owner⟩ := (built.block blockAt).1 s (inputs s List.mem_cons_self)
    have others := ih fun t inside => inputs t (List.mem_cons_of_mem _ inside)
    simp only [Program.checkBindings, Arena.fetchOfGet slotAt, Bind.bind, Except.bind]
    cases holds : slot.value with
    | none =>
      simp only [Program.unboundSlot, owner, Arena.fetchOfGet blockAt, Bind.bind, Except.bind]
      exact .refused ⟨s, List.mem_cons_self, .inl ⟨slot, slotAt, holds, rfl⟩⟩
    | some value =>
      have bound : p.IsBound s value := ⟨slot, slotAt, holds⟩
      have first : Judges (p.checkReads home visible value) _ :=
        built.judgesReads acyclic (built.bound bound).2
      refine (first.bind others).congr fun error => ?_
      rw [List.exists_mem_cons_iff]
      refine or_congr_left ⟨fun fault => .inr ⟨value, bound, fault⟩, ?_⟩
      intro h
      obtain ⟨other, there, empty, -⟩ | ⟨other, ⟨again, there, held⟩, fault⟩ := h
      · cases slotAt.symm.trans there
        rw [holds] at empty
        cases empty
      · cases slotAt.symm.trans there
        cases holds.symm.trans held
        exact fault

theorem Built.judgesBlock (built : Built p) (acyclic : p.Acyclic) {home : Scope}
    {visible : List VarId} {b : BlockId} {block : Block} (blockAt : p.blocks.get? b = some block) :
    Judges (p.checkBindings home visible block.inputs)
      (p.KindFault home (· ∈ visible) (.block b)) := by
  refine (built.judgesRow acyclic blockAt fun _ inside => inside).congr fun error => ⟨?_, ?_⟩
  · intro h
    obtain ⟨s, inside, ⟨slot, slotAt, empty, rfl⟩ | ⟨value, bound, fault⟩⟩ := h
    · exact .input rfl blockAt inside slotAt empty
    · exact .read (.bound blockAt inside bound) fault
  · intro fault
    cases fault with
    | input named otherAt inside slotAt empty =>
      cases named
      cases blockAt.symm.trans otherAt
      exact ⟨_, inside, .inl ⟨_, slotAt, empty, rfl⟩⟩
    | read uses fault =>
      cases uses with
      | bound otherAt inside bound =>
        cases blockAt.symm.trans otherAt
        exact ⟨_, inside, .inr ⟨_, bound, fault⟩⟩

def Program.Seen (p : Program) (home : Scope) (before : List StmtId) (visible : List VarId) : Prop :=
  ∀ v, v ∈ visible ↔ (∃ d ∈ before, p.Declares d v) ∨
    ∃ o, home.owner = some o ∧ (p.Counts o v ∨ p.Visible o v)

theorem seenRoot {home : Scope} (root : home.owner = none) : p.Seen home [] [] := by
  intro v
  simp [root]

theorem seenDeclared {home : Scope} {before : List StmtId} {visible : List VarId} {s : StmtId}
    {node : Statement} {action : Action} (seen : p.Seen home before visible)
    (at_ : p.stmts.get? s = some node) (kind : node.kind = .act action) :
    p.Seen home (before ++ [s]) (action.declares visible) := by
  have own : ∀ v, p.Declares s v ↔ ∃ init, action = .declare v init := by
    intro v
    constructor
    · intro h
      obtain ⟨init, same⟩ := h.kind at_
      cases kind.symm.trans same
      exact ⟨init, rfl⟩
    · intro h
      obtain ⟨init, rfl⟩ := h
      exact ⟨node, init, at_, kind⟩
  intro v
  have split : (∃ d ∈ before ++ [s], p.Declares d v) ↔
      (∃ d ∈ before, p.Declares d v) ∨ p.Declares s v := by
    simp [or_and_right, exists_or]
  rw [split, own v, or_right_comm, ← seen v]
  cases action with
  | declare w init => simp [Action.declares, or_comm, eq_comm]
  | assign | store => simp [Action.declares]

theorem seenPlain {home : Scope} {before : List StmtId} {visible : List VarId} {s : StmtId}
    {node : Statement} (seen : p.Seen home before visible) (at_ : p.stmts.get? s = some node)
    (plain : ∀ action, node.kind ≠ .act action) : p.Seen home (before ++ [s]) visible := by
  intro v
  rw [seen v]
  refine or_congr_left ⟨?_, ?_⟩
  · intro h
    obtain ⟨d, inside, declares⟩ := h
    exact ⟨d, List.mem_append_left _ inside, declares⟩
  · intro h
    obtain ⟨d, inside, declares⟩ := h
    rcases List.mem_append.mp inside with inside | here
    · exact ⟨d, inside, declares⟩
    · cases List.mem_singleton.mp here
      obtain ⟨init, same⟩ := declares.kind at_
      exact absurd same (plain _)

structure Arrived (p : Program) (home : Scope) (before : List StmtId) (s : StmtId)
    (later : List StmtId) (visible : List VarId) (node : Statement) : Prop where
  at_ : p.stmts.get? s = some node
  homeAt : p.scopes.get? node.scope = some home
  split : home.statements = before ++ s :: later
  seen : p.Seen home before visible

namespace Arrived

variable {home : Scope} {before later : List StmtId} {s : StmtId} {visible : List VarId}
  {node : Statement}

theorem visibleIff (arrived : Arrived p home before s later visible node) (forest : Forest p)
    (v : VarId) : v ∈ visible ↔ p.Visible s v := by
  rw [arrived.seen v, forest.visibleIff arrived.at_ arrived.homeAt arrived.split]

theorem fault (arrived : Arrived p home before s later visible node) (forest : Forest p)
    (error : Error) : p.KindFault home (· ∈ visible) node.kind error ↔ p.Fault s error := by
  constructor
  · exact fun fault => ⟨node, home, arrived.at_, arrived.homeAt,
      faultMono (arrived.visibleIff forest) fault⟩
  · intro h
    obtain ⟨other, outer, there, outerAt, fault⟩ := h
    cases arrived.at_.symm.trans there
    cases arrived.homeAt.symm.trans outerAt
    exact faultMono (fun v => (arrived.visibleIff forest v).symm) fault

theorem enter (arrived : Arrived p home before s later visible node) (forest : Forest p)
    {c : ScopeId} {inner : Scope} (opens : Opens p node.kind c)
    (innerAt : p.scopes.get? c = some inner) {within : List VarId}
    (adds : ∀ v, v ∈ within ↔ p.Counts s v ∨ v ∈ visible) : p.Seen inner [] within := by
  obtain ⟨-, other, there, under⟩ := forest.nested arrived.at_ opens
  cases innerAt.symm.trans there
  intro v
  rw [adds v, arrived.visibleIff forest v]
  constructor
  · exact fun sees => .inr ⟨s, under.owner, sees⟩
  · intro h
    obtain ⟨d, none, -⟩ | ⟨o, owner, sees⟩ := h
    · cases none
    · cases under.owner.symm.trans owner
      exact sees

theorem noCounter (arrived : Arrived p home before s later visible node)
    (plain : ∀ v start stop body, node.kind ≠ .loop v start stop body) (v : VarId) :
    v ∈ visible ↔ p.Counts s v ∨ v ∈ visible := by
  refine ⟨.inr, ?_⟩
  intro h
  obtain counts | seen := h
  · obtain ⟨start, stop, body, same⟩ := counts.kind arrived.at_
    exact absurd same (plain _ _ _ _)
  · exact seen

theorem counter (arrived : Arrived p home before s later visible node) {v : VarId}
    {start stop : ExprId} {d : ScopeId} (kind : node.kind = .loop v start stop d) (w : VarId) :
    w ∈ v :: visible ↔ p.Counts s w ∨ w ∈ visible := by
  rw [List.mem_cons]
  refine or_congr_left ⟨fun same => ⟨node, start, stop, d, arrived.at_, same ▸ kind⟩, ?_⟩
  intro counts
  obtain ⟨_, _, _, same⟩ := counts.kind arrived.at_
  cases kind.symm.trans same
  rfl

theorem judgesUse (arrived : Arrived p home before s later visible node) (built : Built p)
    (acyclic : p.Acyclic) {e : ExprId} (uses : p.Uses node.kind e) :
    Judges (p.checkReads home visible e) (p.ReadFault home (· ∈ visible) e) :=
  built.judgesReads acyclic (built.usesStand arrived.at_ uses)

theorem judgesBranch (arrived : Arrived p home before s later visible node) (built : Built p)
    (acyclic : p.Acyclic) {condition : ExprId} {a r : ScopeId}
    (kind : node.kind = .branch condition a r) :
    Judges (p.checkReads home visible condition) (p.Fault s) := by
  have plain : ∀ b, node.kind ≠ .block b := fun b block => by cases kind.symm.trans block
  refine (arrived.judgesUse built acyclic (kind ▸ .condition)).congr fun e => ?_
  rw [← arrived.fault built.forest e, kindFaultIff plain, kind]
  constructor
  · exact fun fault => ⟨condition, .condition, fault⟩
  · intro h
    obtain ⟨_, uses, fault⟩ := h
    cases uses
    exact fault

theorem judgesLoop (arrived : Arrived p home before s later visible node) (built : Built p)
    (acyclic : p.Acyclic) {v : VarId} {start stop : ExprId} {d : ScopeId}
    (kind : node.kind = .loop v start stop d) :
    Judges (do p.checkReads home visible start; p.checkReads home visible stop) (p.Fault s) := by
  have plain : ∀ b, node.kind ≠ .block b := fun b block => by cases kind.symm.trans block
  have first := arrived.judgesUse built acyclic (e := start) (kind ▸ .start)
  have second := arrived.judgesUse built acyclic (e := stop) (kind ▸ .stop)
  refine (first.bind second).congr fun e => ?_
  rw [← arrived.fault built.forest e, kindFaultIff plain, kind]
  constructor
  · intro h
    obtain fault | fault := h
    · exact ⟨start, .start, fault⟩
    · exact ⟨stop, .stop, fault⟩
  · intro h
    obtain ⟨_, uses, fault⟩ := h
    cases uses with
    | start => exact .inl fault
    | stop => exact .inr fault

end Arrived

theorem Forest.arrive (forest : Forest p) {c : ScopeId} {home : Scope} {before later : List StmtId}
    {s : StmtId} {visible : List VarId} {node : Statement} (at_ : p.stmts.get? s = some node)
    (homeAt : p.scopes.get? c = some home) (split : home.statements = before ++ s :: later)
    (seen : p.Seen home before visible) : Arrived p home before s later visible node := by
  obtain ⟨other, there, scope⟩ := forest.listed homeAt s (by simp [split])
  cases at_.symm.trans there
  exact ⟨at_, scope ▸ homeAt, split, seen⟩

theorem Built.sweepsBody (built : Built p) (acyclic : p.Acyclic) {l : List StmtId} {body : Body}
    (laid : Laid p l body) : ∀ {c : ScopeId} {home : Scope} {before : List StmtId}
      {visible : List VarId}, p.scopes.get? c = some home → home.statements = before ++ l →
      p.Seen home before visible → Sweeps (p.checkBody home visible body) body.preorder p.Fault := by
  have forest := built.forest
  induction laid with
  | done => exact fun _ _ _ => .nil
  | @act s node action later rest at_ kind _ next =>
    intro c home before visible homeAt split seen
    have arrived := forest.arrive at_ homeAt split seen
    have first : Judges (p.checkAction home visible action) (p.Fault s) :=
      (built.judgesAction acyclic at_ kind).congr (arrived.fault forest)
    exact .cons first (next homeAt (split.trans (by simp)) (seenDeclared seen at_ kind))
  | @branch s node condition a r yes no later accept reject rest at_ kind yesAt noAt _ _ _
      inYes inNo next =>
    intro c home before visible homeAt split seen
    have arrived := forest.arrive at_ homeAt split seen
    have same := arrived.noCounter fun v start stop body loop => by cases kind.symm.trans loop
    have first := arrived.judgesBranch built acyclic kind
    have yesSwept := inYes yesAt rfl (arrived.enter forest (kind ▸ .accept) yesAt same)
    have noSwept := inNo noAt rfl (arrived.enter forest (kind ▸ .reject) noAt same)
    have restSwept := next homeAt (split.trans (by simp))
      (seenPlain seen at_ fun action act => by cases kind.symm.trans act)
    simp only [Program.checkBody, Arena.fetchOfGet yesAt, Arena.fetchOfGet noAt, Body.preorder,
      List.append_assoc]
    exact .cons first (yesSwept.append (noSwept.append restSwept))
  | @loop s node counter start stop d inner later body rest at_ kind innerAt _ _ within next =>
    intro c home before visible homeAt split seen
    have arrived := forest.arrive at_ homeAt split seen
    have first := arrived.judgesLoop built acyclic kind
    have swept := within innerAt rfl (arrived.enter forest (kind ▸ .loop) innerAt (arrived.counter kind))
    have restSwept := next homeAt (split.trans (by simp))
      (seenPlain seen at_ fun action act => by cases kind.symm.trans act)
    simp only [Program.checkBody, Arena.fetchOfGet innerAt, Body.preorder]
    rw [← bind_assoc]
    exact .cons first (swept.append restSwept)
  | @block s node b block inner later body rest at_ kind blockAt innerAt _ _ within next =>
    intro c home before visible homeAt split seen
    have arrived := forest.arrive at_ homeAt split seen
    have same := arrived.noCounter fun v start stop body loop => by cases kind.symm.trans loop
    have first : Judges (p.checkBindings home visible block.inputs) (p.Fault s) :=
      (built.judgesBlock acyclic blockAt).congr fun e => kind ▸ arrived.fault forest e
    have swept := within innerAt rfl (arrived.enter forest (kind ▸ .block blockAt) innerAt same)
    have restSwept := next homeAt (split.trans (by simp))
      (seenPlain seen at_ fun action act => by cases kind.symm.trans act)
    simp only [Program.checkBody, Arena.fetchOfGet innerAt, Body.preorder]
    exact .cons first (swept.append restSwept)

/-- The statements in the order they are checked in: the stages as they were added, every body
in preorder. -/
def Program.walkingOrder (p : Program) : Outcome (List StmtId) := do
  let bodies ← p.stages.mapM fun stage => p.body stage.main
  return (bodies.map Body.preorder).flatten

theorem Built.workgroup (built : Built p) {stage : Stage} (inside : stage ∈ p.stages) :
    Program.checkWorkgroup stage = .ok () := by
  have sized := (built.stage inside).2
  unfold Program.checkWorkgroup
  split
  · rename_i compute
    rw [if_pos compute] at sized
    obtain ⟨w, same, runs⟩ := sized
    simp [same, runs]
  · rfl

theorem Built.sweepsStages (built : Built p) (acyclic : p.Acyclic) {stages : List Stage}
    (inside : ∀ s ∈ stages, s ∈ p.stages) :
    ∃ bodies, stages.mapM (fun stage => p.body stage.main) = .ok bodies ∧
      Sweeps (stages.forM p.checkStage) (bodies.map Body.preorder).flatten p.Fault := by
  induction stages with
  | nil => exact ⟨[], rfl, .nil⟩
  | cons stage rest ih =>
    obtain ⟨bodies, laidOut, swept⟩ := ih fun s later => inside s (List.mem_cons_of_mem _ later)
    have here := inside stage List.mem_cons_self
    obtain ⟨home, homeAt, root, -⟩ := built.forest.mains here
    obtain ⟨body, bodyOk, laid⟩ := built.forest.body homeAt
    have first : Sweeps (p.checkStage stage) body.preorder p.Fault := by
      simp only [Program.checkStage, built.workgroup here, Arena.fetchOfGet homeAt, bodyOk]
      exact built.sweepsBody acyclic laid homeAt rfl (seenRoot root)
    refine ⟨body :: bodies, ?_, first.append swept⟩
    simp only [List.mapM_cons, bodyOk, laidOut]
    rfl

theorem Built.outputWarnings (built : Built p) : ∃ log, p.outputWarnings = .ok log := by
  have row : ∀ (block : Block) (vs : List VarId), (∀ v ∈ vs, ∃ var, p.vars.get? v = some var) →
      ∃ log, p.unassigned block vs = .ok log := by
    intro block vs stand
    induction vs with
    | nil => exact ⟨[], rfl⟩
    | cons v rest ih =>
      obtain ⟨var, at_⟩ := stand v List.mem_cons_self
      obtain ⟨log, made⟩ := ih fun w later => stand w (List.mem_cons_of_mem _ later)
      simp only [Program.unassigned, Arena.fetchOfGet at_, made, Bind.bind, Except.bind]
      split <;> exact ⟨_, rfl⟩
  obtain ⟨logs, found⟩ : ∃ logs, p.blocks.nodes.toList.mapM
      (fun block => p.unassigned block block.outputs) = .ok logs := by
    refine Outcome.mapMTotal fun block inside => ?_
    obtain ⟨i, at_⟩ := List.getElem?_of_mem inside
    rw [Array.getElem?_toList] at at_
    have standing : p.blocks.get? ⟨i⟩ = some block := at_
    exact row block block.outputs (built.block standing).2
  exact ⟨logs.flatten, by rw [Program.outputWarnings, Outcome.bindOk]; exact ⟨logs, found, rfl⟩⟩

def Program.Violates (p : Program) (s : StmtId) : Prop := ∃ error, p.Fault s error

theorem Forest.met (forest : Forest p) {bodies : List Body}
    (laidOut : p.stages.mapM (fun stage => p.body stage.main) = .ok bodies) {s : StmtId}
    {error : Error} (fault : p.Fault s error) : s ∈ (bodies.map Body.preorder).flatten := by
  obtain ⟨node, -, at_, -⟩ := fault
  obtain ⟨stage, inside, body, bodyOk, there⟩ := forest.visited at_
  obtain ⟨other, listed, same⟩ := Outcome.mapMTarget laidOut inside
  cases bodyOk.symm.trans same
  exact List.mem_flatten.mpr ⟨_, List.mem_map_of_mem listed, there⟩

theorem Built.walked (built : Built p) (acyclic : p.Acyclic) :
    (p.stages.forM p.checkStage = .ok () ∧ p.AllBound ∧ p.AllLawful) ∨
      ∃ before s after error, p.walkingOrder = .ok (before ++ s :: after) ∧
        (∀ t ∈ before, ¬ p.Violates t) ∧ p.Fault s error ∧
        p.stages.forM p.checkStage = reject error := by
  obtain ⟨bodies, laidOut, swept⟩ := built.sweepsStages acyclic fun s inside => inside
  rcases swept with ⟨ok, clean⟩ | ⟨before, s, after, error, split, clean, rejected, fault⟩
  · exact .inl ⟨ok, built.lawfulIff.mpr fun s error fault =>
      clean s (built.forest.met laidOut fault) error fault⟩
  · refine .inr ⟨before, s, after, error, ?_, ?_, fault, rejected⟩
    · rw [Program.walkingOrder, Outcome.bindOk]
      exact ⟨bodies, laidOut, congrArg Except.ok split⟩
    · intro t inside broken
      obtain ⟨e, early⟩ := broken
      exact clean t inside e early

theorem Built.checkOk (built : Built p) :
    (∃ log, p.check = .ok log) ↔ p.Acyclic ∧ p.AllBound ∧ p.AllLawful := by
  obtain ⟨log, warned⟩ := built.outputWarnings
  have accepted : (∃ log, p.check = .ok log) ↔ p.Acyclic ∧ p.stages.forM p.checkStage = .ok () := by
    simp only [Program.check, Outcome.bindOk]
    constructor
    · intro h
      obtain ⟨_, ⟨⟩, cycles, ⟨⟩, stages, -⟩ := h
      exact ⟨built.cyclesOk.mp cycles, stages⟩
    · intro h
      obtain ⟨acyclic, stages⟩ := h
      exact ⟨log, ⟨⟩, built.cyclesOk.mpr acyclic, ⟨⟩, stages, warned⟩
  rw [accepted]
  refine and_congr_right fun acyclic => ⟨fun ok => ?_, fun lawful => ?_⟩
  · rcases built.walked acyclic with ⟨-, lawful⟩ | ⟨_, _, _, error, -, -, -, rejected⟩
    · exact lawful
    · rw [ok] at rejected
      cases rejected
  · rcases built.walked acyclic with ⟨ok, -⟩ | ⟨_, s, _, error, -, -, fault, -⟩
    · exact ok
    · exact absurd fault (built.lawfulIff.mp lawful s error)

theorem Built.checkFails (built : Built p) (acyclic : p.Acyclic)
    (broken : ¬ (p.AllBound ∧ p.AllLawful)) :
    ∃ before s after error, p.walkingOrder = .ok (before ++ s :: after) ∧
      (∀ t ∈ before, ¬ p.Violates t) ∧ p.Fault s error ∧ p.check = .error (.rejected error) := by
  rcases built.walked acyclic with ⟨-, lawful⟩ | ⟨before, s, after, error, order, clean, fault, rejected⟩
  · exact absurd lawful broken
  · refine ⟨before, s, after, error, order, clean, fault, ?_⟩
    rw [Program.check, built.cyclesOk.mpr acyclic]
    simp only [bind, Except.bind, rejected, reject]

theorem checkDecides (reachable : Reachable p) :
    ((∃ log, p.check = .ok log) ↔ p.Acyclic ∧ p.AllBound ∧ p.AllLawful) ∧
      (p.Acyclic → ¬ (p.AllBound ∧ p.AllLawful) →
        ∃ before s after error, p.walkingOrder = .ok (before ++ s :: after) ∧
          (∀ t ∈ before, ¬ p.Violates t) ∧ p.Fault s error ∧ p.check = .error (.rejected error)) := by
  have built := reachableBuilt reachable
  exact ⟨built.checkOk, built.checkFails⟩

def unboundRun : List Call := [.addStage .fragment, .block ⟨0⟩ "use", .input ⟨0⟩ (some "x") .int1 none]

theorem unboundRuns : ∃ p, Program.after { name := "p" } unboundRun = some p ∧
    p.checkCycles = .ok () ∧ p.check = .error (.rejected (.unboundInput "x" "use_0")) :=
  ⟨_, rfl, rfl, rfl⟩

theorem checkDecidesUnbound : ∃ p, Program.after { name := "p" } unboundRun = some p ∧
    ¬ (p.AllBound ∧ p.AllLawful) ∧ ∃ before s after error,
      p.walkingOrder = .ok (before ++ s :: after) ∧ (∀ t ∈ before, ¬ p.Violates t) ∧
      p.Fault s error ∧ p.check = .error (.rejected error) := by
  obtain ⟨p, ran, cycles, failed⟩ := unboundRuns
  have reachable : Reachable p := (Reachable.new "p").after ran
  have acyclic := (reachableBuilt reachable).cyclesOk.mp cycles
  obtain ⟨accepts, fails⟩ := checkDecides reachable
  have broken : ¬ (p.AllBound ∧ p.AllLawful) := by
    intro lawful
    obtain ⟨log, passed⟩ := accepts.mpr ⟨acyclic, lawful⟩
    rw [failed] at passed
    cases passed
  exact ⟨p, ran, broken, fails acyclic broken⟩

end

end ShaderGraph
