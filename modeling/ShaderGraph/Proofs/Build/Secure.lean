import ShaderGraph.Proofs.Build.Refusal
import ShaderGraph.Proofs.Edit
/-! Runs that do not abort. A reading is safe when it ends in a value or a rejection, and a call is
secure on a program when the only thing that can stop it is an arena with no handle left. -/
namespace ShaderGraph

def Outcome.Safe {α : Type} (x : Outcome α) : Prop := ∀ cause, x ≠ .error (.aborted cause)

namespace Outcome.Safe

variable {α β : Type}

theorem ok (a : α) : Safe (.ok a) := fun _ given => by cases given

theorem reject (e : Error) : Safe (ShaderGraph.reject e : Outcome α) := fun _ given => by cases given

theorem ofOk {x : Outcome α} (made : ∃ a, x = .ok a) : x.Safe := by
  obtain ⟨a, rfl⟩ := made
  exact ok a

theorem ofResult (x : Except Error α) : (Outcome.ofResult x).Safe := by
  cases x with
  | ok a => exact ok a
  | error e => exact reject e

theorem bind {x : Outcome α} {f : α → Outcome β} (first : x.Safe)
    (rest : ∀ a, x = .ok a → (f a).Safe) : (x >>= f).Safe := by
  intro cause failed
  rcases bindFailed failed with failed | ⟨a, made, failed⟩
  · exact first cause failed
  · exact rest a made cause failed

theorem map {x : Outcome α} (first : x.Safe) (f : α → β) : Safe (x.map f) := by
  intro cause failed
  cases x with
  | ok a => cases failed
  | error why =>
    cases failed
    exact first cause rfl

theorem ite {c : Prop} [Decidable c] {x y : Outcome α} (yes : x.Safe) (no : y.Safe) :
    Safe (if c then x else y) := by
  split
  · exact yes
  · exact no

theorem mapM {f : α → Outcome β} {as : List α} (each : ∀ a ∈ as, (f a).Safe) :
    (as.mapM f).Safe := by
  induction as with
  | nil => exact ok []
  | cons a rest ih =>
    rw [List.mapM_cons]
    have later := ih fun b inside => each b (List.mem_cons_of_mem _ inside)
    exact bind (each a List.mem_cons_self) fun b _ => bind later fun bs _ => ok (b :: bs)

theorem cases {x : Outcome α} (safe : x.Safe) : (∃ a, x = .ok a) ∨ ∃ e, x = ShaderGraph.reject e := by
  match x with
  | .ok a => exact .inl ⟨a, rfl⟩
  | .error (.rejected e) => exact .inr ⟨e, rfl⟩
  | .error (.aborted cause) => exact absurd rfl (safe cause)

end Outcome.Safe

theorem Arena.findSafe {s : NodeSort} {α : Type} (a : Arena s α) (h : Handle s) : (a.find h).Safe := by
  unfold find
  split
  · exact .ok _
  · exact .reject _

theorem Outcome.Safe.fetch {s : NodeSort} {α β : Type} {a : Arena s α} {h : Handle s} {n : α}
    {f : α → Outcome β} (at_ : a.get? h = some n) (rest : (f n).Safe) : (a.fetch h >>= f).Safe :=
  .bind (.ofOk ⟨n, Arena.fetchOfGet at_⟩) fun m read => by
    cases at_.symm.trans (Arena.fetchOk.mp read)
    exact rest

namespace Program

def count (p : Program) : NodeSort → Nat
  | .var => p.vars.size
  | .expr => p.exprs.size
  | .stmt => p.stmts.size
  | .scope => p.scopes.size
  | .block => p.blocks.size
  | .slot => p.slots.size

def Full (p : Program) (cause : Abort) : Prop :=
  ∃ s, Handle.limit ≤ p.count s ∧ cause = .full (p.count s)

theorem typeOfSafe (p : Program) (e : ExprId) : (p.typeOf e).Safe := (p.exprs.findSafe e).map _

end Program

namespace Build

variable {α β : Type} {p : Program}

def Secure (x : Build α) (p : Program) : Prop :=
  ∀ ⦃cause q⦄, x p = .error (.aborted cause) q → q.Full cause

namespace Secure

theorem pure (a : α) : Secure (pure a) p := fun _ _ given => by cases given

theorem refuse (e : Error) : Secure (refuse e : Build α) p := fun _ _ given => by cases given

theorem bind {x : Build α} {f : α → Build β} (first : Secure x p)
    (rest : ∀ a q, x p = .ok a q → Secure (f a) q) : Secure (x >>= f) p := by
  intro cause q failed
  rcases bindFailed failed with failed | ⟨a, r, ran, failed⟩
  · exact first failed
  · exact rest a r ran failed

theorem get {f : Program → Build β} (rest : Secure (f p) p) : Secure (get >>= f) p :=
  .bind (fun _ _ given => by cases given) fun _ _ ran => by
    obtain ⟨rfl, rfl⟩ := getOk.mp ran
    exact rest

theorem set {q : Program} : Secure (set q) p := fun _ _ given => by cases given

theorem modify {f : Program → Program} : Secure (modify f) p := fun _ _ given => by cases given

theorem name {stem : String} {f : String → Build β}
    (rest : Secure (f s!"{stem}_{p.nameCounter}") p.spent) : Secure (nextName stem >>= f) p :=
  .bind (fun _ _ given => by cases given) fun _ _ ran => by
    obtain ⟨rfl, rfl⟩ := nextNameOk.mp ran
    exact rest

theorem lift {x : Outcome α} {f : α → Build β} (safe : x.Safe)
    (rest : ∀ a, x = .ok a → Secure (f a) p) : Secure (liftM x >>= f) p := by
  intro cause q failed
  rcases safe.cases with ⟨a, rfl⟩ | ⟨e, rfl⟩
  · exact rest a rfl failed
  · cases failed

theorem find {s : NodeSort} {γ : Type} {a : Arena s γ} {h : Handle s} {f : γ → Build β}
    (rest : ∀ n, a.get? h = some n → Secure (f n) p) : Secure (liftM (a.find h) >>= f) p :=
  .lift (a.findSafe h) fun n found => rest n (Arena.findOk.mp found)

theorem fetch {s : NodeSort} {γ : Type} {a : Arena s γ} {h : Handle s} {n : γ} {f : γ → Build β}
    (at_ : a.get? h = some n) (rest : Secure (f n) p) : Secure (liftM (a.fetch h) >>= f) p :=
  .lift (.ofOk ⟨n, Arena.fetchOfGet at_⟩) fun m read => by
    cases at_.symm.trans (Arena.fetchOk.mp read)
    exact rest

theorem next {s : NodeSort} {γ : Type} {a : Arena s γ} {f : Handle s → Build β}
    (sized : p.count s = a.size) (rest : a.size < Handle.limit → Secure (f a.fresh) p) :
    Secure (liftM a.next >>= f) p := by
  intro cause q failed
  by_cases room : a.size < Handle.limit
  · rw [Arena.nextOk.mpr ⟨room, rfl⟩] at failed
    exact rest room failed
  · rw [Arena.next, if_neg room] at failed
    cases failed
    exact ⟨s, by omega, by rw [sized]⟩

theorem append {s : NodeSort} {γ : Type} (arena : Program → Arena s γ)
    (put : Program → Arena s γ → Program) (sized : p.count s = (arena p).size) (n : γ) :
    Secure (do let p ← MonadState.get
               let (h, a) ← (arena p).append n
               MonadStateOf.set (put p a)
               return h : Build (Handle s)) p := by
  refine .get fun cause q failed => ?_
  by_cases room : (arena p).size < Handle.limit
  · rw [Arena.appendOk.mpr ⟨room, rfl, rfl⟩] at failed
    cases failed
  · rw [Arena.append, Arena.next, if_neg room] at failed
    cases failed
    exact ⟨s, by omega, by rw [sized]⟩

theorem adjust {s : NodeSort} {γ : Type} (arena : Program → Arena s γ)
    (put : Program → Arena s γ → Program) {h : Handle s} (f : γ → γ)
    (stands : h.index < (arena p).size) :
    Secure (do let p ← MonadState.get
               MonadStateOf.set (put p (← (arena p).adjust h f)) : Build PUnit) p :=
  .get (.lift (.ofOk ⟨_, Arena.adjustOk.mpr ⟨stands, rfl⟩⟩) fun _ _ => .set)

end Secure

theorem secureAddVariable (v : Variable) : Secure (addVariable v) p :=
  .append Program.vars (fun p vars => { p with vars }) rfl v

theorem secureAddScope (s : Scope) : Secure (addScope s) p :=
  .append Program.scopes (fun p scopes => { p with scopes }) rfl s

theorem secureAddStatement (s : Statement) : Secure (addStatement s) p :=
  .append Program.stmts (fun p stmts => { p with stmts }) rfl s

theorem secureAddBlockNode (b : Block) : Secure (addBlockNode b) p :=
  .append Program.blocks (fun p blocks => { p with blocks }) rfl b

theorem secureAddSlotNode (s : Slot) : Secure (addSlotNode s) p :=
  .append Program.slots (fun p slots => { p with slots }) rfl s

theorem secureAdjustVariable {v : VarId} (f : Variable → Variable) (stands : v.index < p.vars.size) :
    Secure (adjustVariable v f) p := .adjust Program.vars (fun p vars => { p with vars }) f stands

theorem secureAdjustScope {s : ScopeId} (f : Scope → Scope) (stands : s.index < p.scopes.size) :
    Secure (adjustScope s f) p := .adjust Program.scopes (fun p scopes => { p with scopes }) f stands

theorem secureAdjustStatement {s : StmtId} (f : Statement → Statement)
    (stands : s.index < p.stmts.size) : Secure (adjustStatement s f) p :=
  .adjust Program.stmts (fun p stmts => { p with stmts }) f stands

theorem secureAdjustBlock {b : BlockId} (f : Block → Block) (stands : b.index < p.blocks.size) :
    Secure (adjustBlock b f) p := .adjust Program.blocks (fun p blocks => { p with blocks }) f stands

theorem secureAdjustSlot {s : SlotId} (f : Slot → Slot) (stands : s.index < p.slots.size) :
    Secure (adjustSlot s f) p := .adjust Program.slots (fun p slots => { p with slots }) f stands

theorem Fits.stateSafe {op : Operation} {ty : Ty} (fits : Fits p op ty) : (p.stateOf op).Safe := by
  have operands : (op.operands.mapM p.exprs.fetch).Safe := .mapM fun e inside => by
    obtain ⟨t, node, at_, -⟩ := fits.operand inside
    exact .ofOk ⟨node, Arena.fetchOfGet at_⟩
  cases op with
  | read v =>
    obtain ⟨var, at_, -⟩ := fits.readAt
    exact .ofOk ⟨_, by simp only [Program.stateOf, Arena.fetchOfGet at_]; rfl⟩
  | _ => exact .bind (.ok _) fun _ _ => .bind operands fun _ _ => .ok _

theorem secureAddExpr {op : Operation} {ty : Ty} (fits : Fits p op ty) : Secure (addExpr op ty) p := by
  refine .get (.lift (Fits.stateSafe fits) fun state _ => ?_)
  have pushed := Secure.append (p := p) Program.exprs (fun p exprs => { p with exprs }) rfl
    ⟨op, ty, state⟩
  exact pushed

theorem securePlaceStatement {scope : ScopeId} (kind : StatementKind) (reads : Stamps)
    (writes : List Stamp) (stands : scope.index < p.scopes.size) :
    Secure (placeStatement scope kind reads writes) p :=
  .bind (secureAddStatement _) fun _ _ ran => by
    obtain ⟨-, -, rfl⟩ := addStatementOk.mp ran
    exact .bind (secureAdjustScope _ stands) fun _ _ _ => .pure _

theorem secureOpenScope {name : String} {parent : ScopeId} {owner : StmtId} {outer : Scope}
    (at_ : p.scopes.get? parent = some outer) : Secure (openScope name parent owner) p :=
  .get (.fetch at_ (secureAddScope _))

theorem secureNewLexical {scope : ScopeId} {home : Scope} (name : String) (ty : Ty)
    (at_ : p.scopes.get? scope = some home) : Secure (newLexical scope name ty) p := by
  unfold newLexical
  split
  · exact .get (.fetch at_ (secureAddVariable _))
  · exact .refuse _

theorem secureBump {v : VarId} (stands : v.index < p.vars.size) : Secure (bump v) p :=
  .bind (secureAdjustVariable _ stands) fun _ _ ran => by
    obtain ⟨-, rfl⟩ := adjustVariableOk.mp ran
    refine .get fun cause q failed => ?_
    obtain ⟨var, at_⟩ := Arena.atBelow (a := (p.mapVar v _).vars) (h := v)
      (Nat.lt_of_lt_of_eq stands (Arena.replaceSize ..).symm)
    rw [Program.stampNow, Arena.fetchOfGet at_] at failed
    cases failed

end Build

end ShaderGraph
