import ShaderGraph.Proofs.Layout
import ShaderGraph.Proofs.Reading
/-! The rule of what statements may read, stated on the program alone: on statement lists and on
the statements that own scopes, with no walk. A lexical variable is visible to a statement when a
declaration stands before it or before a statement around it, or when a loop around it counts in
the variable. -/
namespace ShaderGraph

open Relation

namespace Program

variable (p : Program)

def Declares (s : StmtId) (v : VarId) : Prop :=
  ∃ node init, p.stmts.get? s = some node ∧ node.kind = .act (.declare v init)

def Counts (s : StmtId) (v : VarId) : Prop :=
  ∃ node start stop body, p.stmts.get? s = some node ∧ node.kind = .loop v start stop body

def Inside (s o : StmtId) : Prop :=
  ∃ node home, p.stmts.get? s = some node ∧ p.scopes.get? node.scope = some home ∧
    home.owner = some o

def Precedes (d s : StmtId) : Prop :=
  ∃ node home before after, p.stmts.get? s = some node ∧ p.scopes.get? node.scope = some home ∧
    home.statements = before ++ s :: after ∧ d ∈ before

/-- A declaration of `v` stands before `s` or before a statement that contains `s`, or a loop
that properly contains `s` counts in `v`. -/
def Visible (s : StmtId) (v : VarId) : Prop :=
  (∃ t d, ReflTransGen p.Inside s t ∧ p.Precedes d t ∧ p.Declares d v) ∨
    ∃ l, TransGen p.Inside s l ∧ p.Counts l v

inductive Uses : StatementKind → ExprId → Prop
  | init {v : VarId} {e : ExprId} : Uses (.act (.declare v (some e))) e
  | target {target value : ExprId} : Uses (.act (.assign target value)) target
  | value {target value : ExprId} : Uses (.act (.assign target value)) value
  | storage {storage coord value : ExprId} : Uses (.act (.store storage coord value)) storage
  | coord {storage coord value : ExprId} : Uses (.act (.store storage coord value)) coord
  | texel {storage coord value : ExprId} : Uses (.act (.store storage coord value)) value
  | condition {e : ExprId} {accept reject : ScopeId} : Uses (.branch e accept reject) e
  | start {v : VarId} {start stop : ExprId} {body : ScopeId} : Uses (.loop v start stop body) start
  | stop {v : VarId} {start stop : ExprId} {body : ScopeId} : Uses (.loop v start stop body) stop
  | bound {b : BlockId} {node : Block} {s : SlotId} {e : ExprId} (at_ : p.blocks.get? b = some node)
      (inside : s ∈ node.inputs) (bound : p.IsBound s e) : Uses (.block b) e

def AllBound : Prop :=
  ∀ b node, p.blocks.get? b = some node → ∀ s ∈ node.inputs, ∃ value, p.IsBound s value

def Lawful (s : StmtId) (v : VarId) : Prop :=
  ∀ node home var, p.stmts.get? s = some node → p.scopes.get? node.scope = some home →
    p.vars.get? v = some var →
    (∀ kind ∈ var.stage, kind = home.stage) ∧ (var.isLexical = true → p.Visible s v)

def AllLawful : Prop :=
  ∀ s node e v, p.stmts.get? s = some node → p.Uses node.kind e → p.Reads e v → p.Lawful s v

inductive NodeFault (home : Scope) (seen : VarId → Prop) (o : ExprId) : Error → Prop
  | unbound {s : SlotId} {slot : Slot} {block : Block} (reader : p.AtSlot o s)
      (slotAt : p.slots.get? s = some slot) (empty : slot.value = none)
      (owner : p.blocks.get? slot.block = some block) :
      NodeFault home seen o (.unboundInput slot.name block.name)
  | stage {v : VarId} {var : Variable} {kind : StageKind} (read : p.AtVar o v)
      (at_ : p.vars.get? v = some var) (owned : var.stage = some kind) (other : kind ≠ home.stage) :
      NodeFault home seen o (.wrongStage var.name kind home.stage)
  | hidden {v : VarId} {var : Variable} (read : p.AtVar o v) (at_ : p.vars.get? v = some var)
      (lexical : var.isLexical = true) (unseen : ¬ seen v) :
      NodeFault home seen o (.outOfScope var.name home.name)

def ReadFault (home : Scope) (seen : VarId → Prop) (e : ExprId) (error : Error) : Prop :=
  ∃ o, ReflTransGen p.Follows e o ∧ p.NodeFault home seen o error

inductive KindFault (home : Scope) (seen : VarId → Prop) (kind : StatementKind) : Error → Prop
  | input {b : BlockId} {block : Block} {s : SlotId} {slot : Slot} (named : kind = .block b)
      (blockAt : p.blocks.get? b = some block) (inside : s ∈ block.inputs)
      (slotAt : p.slots.get? s = some slot) (empty : slot.value = none) :
      KindFault home seen kind (.unboundInput slot.name block.name)
  | read {e : ExprId} {error : Error} (uses : p.Uses kind e)
      (fault : p.ReadFault home seen e error) : KindFault home seen kind error

def Fault (s : StmtId) (error : Error) : Prop :=
  ∃ node home, p.stmts.get? s = some node ∧ p.scopes.get? node.scope = some home ∧
    p.KindFault home (p.Visible s) node.kind error

end Program

section

variable {p : Program}

theorem faultMono {home : Scope} {seen more : VarId → Prop} (same : ∀ v, seen v ↔ more v)
    {kind : StatementKind} {error : Error} (fault : p.KindFault home seen kind error) :
    p.KindFault home more kind error := by
  have equal : seen = more := funext fun v => propext (same v)
  exact equal ▸ fault

theorem Program.Declares.kind {s : StmtId} {v : VarId} {node : Statement}
    (declares : p.Declares s v) (at_ : p.stmts.get? s = some node) :
    ∃ init, node.kind = .act (.declare v init) := by
  obtain ⟨other, init, there, kind⟩ := declares
  cases at_.symm.trans there
  exact ⟨init, kind⟩

theorem Program.Counts.kind {s : StmtId} {v : VarId} {node : Statement} (counts : p.Counts s v)
    (at_ : p.stmts.get? s = some node) : ∃ start stop body, node.kind = .loop v start stop body := by
  obtain ⟨other, start, stop, body, there, kind⟩ := counts
  cases at_.symm.trans there
  exact ⟨start, stop, body, kind⟩

theorem splitOnce {before after pre post : List StmtId} {s : StmtId}
    (once : (before ++ s :: after).Nodup) (again : before ++ s :: after = pre ++ s :: post) :
    before = pre := by
  have outside := (List.nodup_cons.mp (List.nodup_middle.mp once)).1
  rw [List.mem_append, not_or] at outside
  exact ((List.append_cons_inj_of_notMem outside.1 outside.2).mp again).1

theorem Forest.visibleIff (forest : Forest p) {s : StmtId} {node : Statement} {home : Scope}
    {before after : List StmtId} {v : VarId} (at_ : p.stmts.get? s = some node)
    (homeAt : p.scopes.get? node.scope = some home) (split : home.statements = before ++ s :: after) :
    p.Visible s v ↔ (∃ d ∈ before, p.Declares d v) ∨
      ∃ o, home.owner = some o ∧ (p.Counts o v ∨ p.Visible o v) := by
  have inside : ∀ o, p.Inside s o → home.owner = some o := by
    intro o inside
    obtain ⟨other, there, otherAt, thereAt, owner⟩ := inside
    cases at_.symm.trans otherAt
    cases homeAt.symm.trans thereAt
    exact owner
  constructor
  · intro h
    obtain ⟨t, d, around, precedes, declares⟩ | ⟨l, around, counts⟩ := h
    · rcases ReflTransGen.cases_head around with rfl | ⟨o, step, further⟩
      · obtain ⟨other, there, pre, post, otherAt, thereAt, again, earlier⟩ := precedes
        cases at_.symm.trans otherAt
        cases homeAt.symm.trans thereAt
        -- the statement stands in its list once, so both splits are the same
        have once := forest.once homeAt
        rw [split] at again once
        cases splitOnce once again
        exact .inl ⟨d, earlier, declares⟩
      · exact .inr ⟨o, inside o step, .inr (.inl ⟨t, d, further, precedes, declares⟩)⟩
    · rcases TransGen.head'_iff.mp around with ⟨o, step, further⟩
      refine .inr ⟨o, inside o step, ?_⟩
      rcases reflTransGen_iff_eq_or_transGen.mp further with rfl | further
      · exact .inl counts
      · exact .inr (.inr ⟨l, further, counts⟩)
  · intro h
    obtain ⟨d, earlier, declares⟩ | ⟨o, owner, seen⟩ := h
    · exact .inl ⟨s, d, .refl, ⟨node, home, before, after, at_, homeAt, split, earlier⟩, declares⟩
    · have step : p.Inside s o := ⟨node, home, at_, homeAt, owner⟩
      rcases seen with counts | ⟨t, d, around, precedes⟩ | ⟨l, around, counts⟩
      · exact .inr ⟨o, .single step, counts⟩
      · exact .inl ⟨t, d, .head step around, precedes⟩
      · exact .inr ⟨l, .head step around, counts⟩

theorem Built.lawfulIff (built : Built p) :
    p.AllBound ∧ p.AllLawful ↔ ∀ s error, ¬ p.Fault s error := by
  have forest := built.forest
  constructor
  · intro kept s error broken
    obtain ⟨bound, lawful⟩ := kept
    obtain ⟨node, home, at_, homeAt, fault⟩ := broken
    have filled : ∀ {t slot}, p.slots.get? t = some slot → slot.value ≠ none := by
      intro t slot slotAt empty
      obtain ⟨block, blockAt, inside⟩ := (built.slot slotAt).owner
      obtain ⟨value, other, there, holds⟩ := bound _ _ blockAt t inside
      cases slotAt.symm.trans there
      rw [empty] at holds
      cases holds
    cases fault with
    | input _ _ _ slotAt empty => exact filled slotAt empty
    | read uses fault =>
      obtain ⟨o, follows, fault⟩ := fault
      cases fault with
      | unbound _ slotAt empty => exact filled slotAt empty
      | stage read varAt owned other =>
        exact other ((lawful s node _ _ at_ uses ⟨o, follows, read⟩ node home _ at_ homeAt
          varAt).1 _ owned)
      | hidden read varAt lexical unseen =>
        exact unseen ((lawful s node _ _ at_ uses ⟨o, follows, read⟩ node home _ at_ homeAt
          varAt).2 lexical)
  · intro clean
    refine ⟨fun b block blockAt t inside => ?_, fun s node e v at_ uses reads => ?_⟩
    · obtain ⟨slot, slotAt, -⟩ := (built.block blockAt).1 t inside
      obtain ⟨stmt, stmtAt, kind, -⟩ := forest.blocks blockAt
      obtain ⟨home, homeAt, -⟩ := forest.placed stmtAt
      cases value : slot.value with
      | some e => exact ⟨e, slot, slotAt, value⟩
      | none =>
        exact absurd ⟨stmt, home, stmtAt, homeAt, .input kind blockAt inside slotAt value⟩
          (clean _ _)
    · intro other home var otherAt homeAt varAt
      cases at_.symm.trans otherAt
      obtain ⟨o, follows, read⟩ := reads
      refine ⟨fun kind owned => ?_, fun lexical => ?_⟩
      · refine Decidable.byContradiction fun other => ?_
        exact clean s _ ⟨node, home, at_, homeAt, .read uses ⟨o, follows, .stage read varAt owned other⟩⟩
      · refine Classical.byContradiction fun unseen => ?_
        exact clean s _ ⟨node, home, at_, homeAt,
          .read uses ⟨o, follows, .hidden read varAt lexical unseen⟩⟩

end

end ShaderGraph
