import Mathlib.Data.List.Forall2
import ShaderGraph.Proofs.Growth
/-! What a call that ended well has done, step by step. Each rule takes one step off a run; the
rules of the basic steps say in full which program they leave. -/
namespace ShaderGraph

theorem Outcome.bindOk {α β : Type} {x : Outcome α} {f : α → Outcome β} {b : β} :
    (x >>= f) = .ok b ↔ ∃ a, x = .ok a ∧ f a = .ok b := by
  cases x with
  | ok a => simp [bind, Except.bind]
  | error e => simp [bind, Except.bind]

theorem Outcome.mapOk {α β : Type} {x : Outcome α} {f : α → β} {b : β} :
    x.map f = .ok b ↔ ∃ a, x = .ok a ∧ f a = b := by
  cases x with
  | ok a => simp [Except.map]
  | error e => simp [Except.map]

theorem Outcome.pureOk {α : Type} {a b : α} : (pure a : Outcome α) = .ok b ↔ a = b := by
  simp [pure, Except.pure]

theorem Outcome.rejectOk {α : Type} {e : Error} {a : α} : (reject e : Outcome α) = .ok a ↔ False := by
  simp [reject]

theorem pairedSource {α β : Type} {R : α → β → Prop} {as : List α} {bs : List β}
    (each : List.Forall₂ R as bs) {b : β} (inside : b ∈ bs) : ∃ a ∈ as, R a b := by
  induction each with
  | nil => cases inside
  | cons first _ ih =>
    rcases List.mem_cons.mp inside with rfl | later
    · exact ⟨_, List.mem_cons_self, first⟩
    · obtain ⟨a, there, holds⟩ := ih later
      exact ⟨a, List.mem_cons_of_mem _ there, holds⟩

namespace Outcome

variable {α β : Type} {f : α → Outcome β}

theorem mapMOk {as : List α} {bs : List β} :
    as.mapM f = .ok bs ↔ List.Forall₂ (fun a b => f a = .ok b) as bs := by
  induction as generalizing bs with
  | nil => cases bs <;> simp [pure, Except.pure]
  | cons a rest ih =>
    simp only [List.mapM_cons, bindOk, pureOk, ih]
    constructor
    · intro h
      obtain ⟨b, made, bs, found, rfl⟩ := h
      exact .cons made found
    · intro all
      cases all with
      | cons made found => exact ⟨_, made, _, found, rfl⟩

theorem mapMSource {as : List α} {bs : List β} (ran : as.mapM f = .ok bs) {b : β}
    (inside : b ∈ bs) : ∃ a ∈ as, f a = .ok b := pairedSource (mapMOk.mp ran) inside

theorem mapMTarget {as : List α} {bs : List β} (ran : as.mapM f = .ok bs) {a : α}
    (inside : a ∈ as) : ∃ b ∈ bs, f a = .ok b := pairedSource (mapMOk.mp ran).flip inside

theorem mapMTotal {as : List α} (each : ∀ a ∈ as, ∃ b, f a = .ok b) :
    ∃ bs, as.mapM f = .ok bs := by
  induction as with
  | nil => exact ⟨[], rfl⟩
  | cons a rest ih =>
    obtain ⟨b, made⟩ := each a List.mem_cons_self
    obtain ⟨bs, others⟩ := ih fun x inside => each x (List.mem_cons_of_mem _ inside)
    exact ⟨b :: bs, by simp only [List.mapM_cons, made, others]; rfl⟩

theorem mapMSame {g : α → Outcome β} {as : List α} (same : ∀ a ∈ as, f a = g a) :
    as.mapM f = as.mapM g := by
  induction as with
  | nil => rfl
  | cons a rest ih =>
    simp only [List.mapM_cons, same a List.mem_cons_self,
      ih fun b inside => same b (List.mem_cons_of_mem _ inside)]

end Outcome

section

variable {ε σ α β : Type} {s t : σ}

theorem ranBind {x : EStateM ε σ α} {f : α → EStateM ε σ β} {b : β} :
    (x >>= f) s = .ok b t ↔ ∃ a u, x s = .ok a u ∧ f a u = .ok b t := by
  change EStateM.bind x f s = _ ↔ _
  unfold EStateM.bind
  cases x s <;> simp

theorem ranPure {a b : α} : (pure a : EStateM ε σ α) s = .ok b t ↔ a = b ∧ s = t := by
  change EStateM.Result.ok a s = .ok b t ↔ _
  rw [EStateM.Result.ok.injEq]

end

namespace Build

variable {α β : Type} {p q : Program}

theorem bindOk {x : Build α} {f : α → Build β} {b : β} :
    (x >>= f) p = .ok b q ↔ ∃ a r, x p = .ok a r ∧ f a r = .ok b q := ranBind

theorem liftOk {x : Outcome α} {a : α} : (liftM x : Build α) p = .ok a q ↔ x = .ok a ∧ p = q := by
  change ofOutcome x p = _ ↔ _
  unfold ofOutcome
  cases x <;> simp

theorem getOk {r : Program} : (get : Build Program) p = .ok r q ↔ p = r ∧ p = q := by
  change EStateM.Result.ok p p = .ok r q ↔ _
  rw [EStateM.Result.ok.injEq]

theorem setOk {r : Program} {u : PUnit} : (set r : Build PUnit) p = .ok u q ↔ r = q := by
  change EStateM.Result.ok PUnit.unit r = .ok u q ↔ _
  simp

theorem modifyOk {f : Program → Program} {u : PUnit} :
    (modify f : Build PUnit) p = .ok u q ↔ f p = q := by
  change EStateM.Result.ok PUnit.unit (f p) = .ok u q ↔ _
  simp

theorem pureOk {a b : α} : (pure a : Build α) p = .ok b q ↔ a = b ∧ p = q := ranPure

theorem refuseOk {e : Error} {a : α} : (refuse e : Build α) p = .ok a q ↔ False := by
  simp [refuse]

theorem nextNameOk {stem name : String} :
    nextName stem p = .ok name q ↔ name = s!"{stem}_{p.nameCounter}" ∧ q = p.spent := by
  simp only [nextName, EStateM.Result.ok.injEq, eq_comm]
  rfl

theorem getThen {f : Program → Build β} {b : β} (ran : (get >>= f) p = .ok b q) :
    f p p = .ok b q := by
  obtain ⟨_, _, got, ran⟩ := bindOk.mp ran
  obtain ⟨rfl, rfl⟩ := getOk.mp got
  exact ran

theorem liftThen {x : Outcome α} {f : α → Build β} {b : β}
    (ran : (liftM x >>= f) p = .ok b q) : ∃ a, x = .ok a ∧ f a p = .ok b q := by
  obtain ⟨a, _, made, ran⟩ := bindOk.mp ran
  obtain ⟨result, rfl⟩ := liftOk.mp made
  exact ⟨a, result, ran⟩

theorem nameThen {stem : String} {f : String → Build β} {b : β}
    (ran : (nextName stem >>= f) p = .ok b q) :
    f s!"{stem}_{p.nameCounter}" p.spent = .ok b q := by
  obtain ⟨_, _, named, ran⟩ := bindOk.mp ran
  obtain ⟨rfl, rfl⟩ := nextNameOk.mp named
  exact ran

theorem appendStep {s : NodeSort} (arena : Program → Arena s α)
    (put : Program → Arena s α → Program) {n : α} {h : Handle s} :
    (do let p ← get
        let (h, a) ← (arena p).append n
        set (put p a)
        return h : Build (Handle s)) p = .ok h q ↔
      (arena p).size < Handle.limit ∧ h = (arena p).fresh ∧ q = put p ((arena p).push n) := by
  simp only [bindOk, getOk, liftOk, setOk, pureOk, Prod.exists, Arena.appendOk]
  constructor
  · intro h
    obtain ⟨_, _, ⟨rfl, rfl⟩, _, _, _, ⟨⟨room, rfl, rfl⟩, rfl⟩, _, _, rfl, rfl, rfl⟩ := h
    exact ⟨room, rfl, rfl⟩
  · intro h
    obtain ⟨room, rfl, rfl⟩ := h
    exact ⟨p, p, ⟨rfl, rfl⟩, _, _, _, ⟨⟨room, rfl, rfl⟩, rfl⟩, ⟨⟩, _, rfl, rfl, rfl⟩

theorem adjustStep {s : NodeSort} (arena : Program → Arena s α)
    (put : Program → Arena s α → Program) {h : Handle s} {f : α → α} {u : PUnit} :
    (do let p ← get
        set (put p (← (arena p).adjust h f)) : Build PUnit) p = .ok u q ↔
      h.index < (arena p).size ∧ q = put p ((arena p).replace h f) := by
  simp only [bindOk, getOk, liftOk, setOk, Arena.adjustOk]
  constructor
  · intro h
    obtain ⟨_, _, ⟨rfl, rfl⟩, _, _, ⟨⟨inside, rfl⟩, rfl⟩, rfl⟩ := h
    exact ⟨inside, rfl⟩
  · intro h
    obtain ⟨inside, rfl⟩ := h
    exact ⟨p, p, ⟨rfl, rfl⟩, _, _, ⟨⟨inside, rfl⟩, rfl⟩, rfl⟩

theorem addVariableOk {v : Variable} {id : VarId} :
    addVariable v p = .ok id q ↔
      p.vars.size < Handle.limit ∧ id = p.vars.fresh ∧ q = p.withVar v :=
  appendStep Program.vars fun p vars => { p with vars }

theorem addScopeOk {s : Scope} {id : ScopeId} :
    addScope s p = .ok id q ↔
      p.scopes.size < Handle.limit ∧ id = p.scopes.fresh ∧ q = p.withScope s :=
  appendStep Program.scopes fun p scopes => { p with scopes }

theorem addStatementOk {s : Statement} {id : StmtId} :
    addStatement s p = .ok id q ↔
      p.stmts.size < Handle.limit ∧ id = p.stmts.fresh ∧ q = p.withStmt s :=
  appendStep Program.stmts fun p stmts => { p with stmts }

theorem addBlockNodeOk {b : Block} {id : BlockId} :
    addBlockNode b p = .ok id q ↔
      p.blocks.size < Handle.limit ∧ id = p.blocks.fresh ∧ q = p.withBlock b :=
  appendStep Program.blocks fun p blocks => { p with blocks }

theorem addSlotNodeOk {s : Slot} {id : SlotId} :
    addSlotNode s p = .ok id q ↔
      p.slots.size < Handle.limit ∧ id = p.slots.fresh ∧ q = p.withSlot s :=
  appendStep Program.slots fun p slots => { p with slots }

theorem addExprOk {op : Operation} {ty : Ty} {id : ExprId} :
    addExpr op ty p = .ok id q ↔ ∃ state, p.stateOf op = .ok state ∧
      p.exprs.size < Handle.limit ∧ id = p.exprs.fresh ∧ q = p.withExpr ⟨op, ty, state⟩ := by
  simp only [addExpr, bindOk, getOk, liftOk, setOk, pureOk, Prod.exists, Arena.appendOk]
  constructor
  · intro h
    obtain ⟨_, _, ⟨rfl, rfl⟩, state, _, ⟨known, rfl⟩, _, _, _, ⟨⟨room, rfl, rfl⟩, rfl⟩, _, _,
      rfl, rfl, rfl⟩ := h
    exact ⟨state, known, room, rfl, rfl⟩
  · intro h
    obtain ⟨state, known, room, rfl, rfl⟩ := h
    exact ⟨p, p, ⟨rfl, rfl⟩, state, p, ⟨known, rfl⟩, _, _, _, ⟨⟨room, rfl, rfl⟩, rfl⟩,
      ⟨⟩, _, rfl, rfl, rfl⟩

theorem adjustVariableOk {v : VarId} {f : Variable → Variable} {u : PUnit} :
    adjustVariable v f p = .ok u q ↔ v.index < p.vars.size ∧ q = p.mapVar v f :=
  adjustStep Program.vars fun p vars => { p with vars }

theorem adjustScopeOk {s : ScopeId} {f : Scope → Scope} {u : PUnit} :
    adjustScope s f p = .ok u q ↔ s.index < p.scopes.size ∧ q = p.mapScope s f :=
  adjustStep Program.scopes fun p scopes => { p with scopes }

theorem adjustStatementOk {s : StmtId} {f : Statement → Statement} {u : PUnit} :
    adjustStatement s f p = .ok u q ↔ s.index < p.stmts.size ∧ q = p.mapStmt s f :=
  adjustStep Program.stmts fun p stmts => { p with stmts }

theorem adjustBlockOk {b : BlockId} {f : Block → Block} {u : PUnit} :
    adjustBlock b f p = .ok u q ↔ b.index < p.blocks.size ∧ q = p.mapBlock b f :=
  adjustStep Program.blocks fun p blocks => { p with blocks }

theorem adjustSlotOk {s : SlotId} {f : Slot → Slot} {u : PUnit} :
    adjustSlot s f p = .ok u q ↔ s.index < p.slots.size ∧ q = p.mapSlot s f :=
  adjustStep Program.slots fun p slots => { p with slots }

theorem adjustStageOk {kind : StageKind} {f : Stage → Stage} {u : PUnit} :
    adjustStage kind f p = .ok u q ↔ q = p.mapStage kind f := by
  rw [adjustStage, modifyOk, eq_comm]
  rfl

theorem placeStatementOk {scope : ScopeId} {kind : StatementKind} {reads : Stamps}
    {writes : List Stamp} {id : StmtId} :
    placeStatement scope kind reads writes p = .ok id q ↔
      p.stmts.size < Handle.limit ∧ scope.index < p.scopes.size ∧ id = p.stmts.fresh ∧
        q = p.placed ⟨kind, scope, reads, writes⟩ Program.atEnd := by
  simp only [placeStatement, bindOk, addStatementOk, adjustScopeOk, pureOk]
  constructor
  · intro h
    obtain ⟨_, _, ⟨room, rfl, rfl⟩, _, _, ⟨inside, rfl⟩, rfl, rfl⟩ := h
    exact ⟨room, inside, rfl, rfl⟩
  · intro h
    obtain ⟨room, inside, rfl, rfl⟩ := h
    exact ⟨_, _, ⟨room, rfl, rfl⟩, ⟨⟩, _, ⟨inside, rfl⟩, rfl, rfl⟩

theorem openScopeOk {name : String} {parent : ScopeId} {owner : StmtId} {id : ScopeId} :
    openScope name parent owner p = .ok id q ↔
      ∃ outer, p.scopes.get? parent = some outer ∧ p.scopes.size < Handle.limit ∧
        id = p.scopes.fresh ∧ q = p.withScope ⟨name, outer.stage, some parent, some owner, []⟩ := by
  simp only [openScope, bindOk, getOk, liftOk, Arena.fetchOk, addScopeOk]
  constructor
  · intro h
    obtain ⟨_, _, ⟨rfl, rfl⟩, outer, _, ⟨at_, rfl⟩, room, rfl, rfl⟩ := h
    exact ⟨outer, at_, room, rfl, rfl⟩
  · intro h
    obtain ⟨outer, at_, room, rfl, rfl⟩ := h
    exact ⟨p, p, ⟨rfl, rfl⟩, outer, p, ⟨at_, rfl⟩, room, rfl, rfl⟩

theorem newLexicalOk {scope : ScopeId} {name : String} {ty : Ty} {id : VarId} :
    newLexical scope name ty p = .ok id q ↔
      ty.isStorable = true ∧ ∃ home, p.scopes.get? scope = some home ∧
        p.vars.size < Handle.limit ∧ id = p.vars.fresh ∧
        q = p.withVar ⟨name, ty, .lexical, some home.stage, some scope, 0⟩ := by
  unfold newLexical
  split
  · rename_i storable
    simp only [bindOk, getOk, liftOk, Arena.fetchOk, addVariableOk]
    constructor
    · intro h
      obtain ⟨_, _, ⟨rfl, rfl⟩, home, _, ⟨at_, rfl⟩, room, rfl, rfl⟩ := h
      exact ⟨storable, home, at_, room, rfl, rfl⟩
    · intro h
      obtain ⟨_, home, at_, room, rfl, rfl⟩ := h
      exact ⟨p, p, ⟨rfl, rfl⟩, home, p, ⟨at_, rfl⟩, room, rfl, rfl⟩
  · rename_i refused
    rw [refuseOk]
    exact ⟨False.elim, fun h => refused h.1⟩

theorem bumpOk {v : VarId} {s : Stamp} :
    bump v p = .ok s q ↔ ∃ var, p.vars.get? v = some var ∧ s = ⟨v, var.mutations + 1⟩ ∧
      q = p.mapVar v fun w => { w with mutations := w.mutations + 1 } := by
  simp only [bump, bindOk, adjustVariableOk, getOk, liftOk, Program.stampNow, Outcome.bindOk,
    Outcome.pureOk, Arena.fetchOk]
  constructor
  · intro h
    obtain ⟨_, _, ⟨inside, rfl⟩, _, _, ⟨rfl, rfl⟩, ⟨var, at_, rfl⟩, rfl⟩ := h
    obtain ⟨old, read⟩ := Arena.atBelow inside
    rw [Program.mapVar, Arena.getReplaceOld read, if_pos rfl] at at_
    cases at_
    exact ⟨old, read, rfl, rfl⟩
  · intro h
    obtain ⟨var, read, rfl, rfl⟩ := h
    refine ⟨⟨⟩, _, ⟨Arena.below read, rfl⟩, _, _, ⟨rfl, rfl⟩,
      ⟨{ var with mutations := var.mutations + 1 }, ?_, rfl⟩, rfl⟩
    rw [Program.mapVar, Arena.getReplaceOld read, if_pos rfl]

end Build
end ShaderGraph
