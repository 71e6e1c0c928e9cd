import ShaderGraph.Proofs.Build.Steps
/-! Refused calls. Most calls check first and change the program afterwards, so that a refusal
leaves the program alone: the checks are `Still`, and the changes are `Firm`, since only the
library itself can stop them. -/
namespace ShaderGraph

theorem Outcome.bindFailed {α β : Type} {x : Outcome α} {f : α → Outcome β} {e : Failure}
    (failed : (x >>= f) = .error e) : x = .error e ∨ ∃ a, x = .ok a ∧ f a = .error e := by
  cases x with
  | ok a => exact .inr ⟨a, rfl, failed⟩
  | error why =>
    cases failed
    exact .inl rfl

theorem Outcome.mapMFailed {α β : Type} {f : α → Outcome β} {as : List α} {e : Failure}
    (failed : as.mapM f = .error e) : ∃ a ∈ as, f a = .error e := by
  induction as with
  | nil => cases failed
  | cons a rest ih =>
    rw [List.mapM_cons] at failed
    rcases bindFailed failed with here | ⟨b, -, failed⟩
    · exact ⟨a, List.mem_cons_self, here⟩
    · rcases bindFailed failed with later | ⟨bs, -, failed⟩
      · obtain ⟨c, inside, failed⟩ := ih later
        exact ⟨c, List.mem_cons_of_mem _ inside, failed⟩
      · cases failed

def Outcome.Sure {α : Type} (x : Outcome α) : Prop := ∀ e, x ≠ .error (.rejected e)

namespace Outcome.Sure

variable {α β : Type}

theorem ok (a : α) : Sure (.ok a) := fun _ given => by cases given

theorem abort (c : Abort) : Sure (ShaderGraph.abort c : Outcome α) := fun _ given => by cases given

theorem bind {x : Outcome α} {f : α → Outcome β} (first : Sure x) (rest : ∀ a, Sure (f a)) :
    Sure (x >>= f) := by
  intro e given
  cases made : x with
  | ok a =>
    rw [made] at given
    exact rest a e given
  | error why =>
    rw [made] at given
    cases given
    exact first e made

theorem map {x : Outcome α} (first : Sure x) (f : α → β) : Sure (x.map f) := by
  intro e given
  cases x with
  | ok a => cases given
  | error why =>
    cases given
    exact first e rfl

theorem mapM {f : α → Outcome β} (each : ∀ a, Sure (f a)) (l : List α) : Sure (l.mapM f) := by
  induction l with
  | nil => exact ok []
  | cons a rest ih =>
    rw [List.mapM_cons]
    exact bind (each a) fun b => bind ih fun bs => ok (b :: bs)

end Outcome.Sure

namespace Arena

variable {s : NodeSort} {α : Type} (a : Arena s α)

theorem fetchSure (h : Handle s) : (a.fetch h).Sure := by
  unfold fetch
  split
  · exact .ok _
  · exact .abort _

theorem nextSure : a.next.Sure := by
  unfold next
  split
  · exact .ok _
  · exact .abort _

theorem appendSure (n : α) : (a.append n).Sure := a.nextSure.map _

theorem adjustSure (h : Handle s) (f : α → α) : (a.adjust h f).Sure := by
  unfold adjust
  split
  · exact .ok _
  · exact .abort _

end Arena

namespace Program

variable (p : Program)

theorem stampNowSure (v : VarId) : (p.stampNow v).Sure :=
  (p.vars.fetchSure v).bind fun _ => .ok _

theorem readStampsSure (e : ExprId) : (p.readStamps e).Sure :=
  (p.exprs.fetchSure e).bind fun node => (Outcome.Sure.mapM p.stampNowSure node.state).bind
    fun _ => .ok _

theorem stateOfSure (op : Operation) : (p.stateOf op).Sure := by
  unfold stateOf
  split
  · exact (p.vars.fetchSure _).bind fun _ => .ok _
  · exact (Outcome.Sure.ok []).bind fun _ =>
      (Outcome.Sure.mapM p.exprs.fetchSure op.operands).bind fun _ => .ok _

theorem initReadsSure (init : Option ExprId) : (Build.initReads p init).Sure := by
  cases init with
  | none => exact .ok _
  | some e => exact p.readStampsSure e

theorem slotReadsSure (slots : List SlotId) : (Build.slotReads p slots).Sure := by
  have all (set : Stamps) : (Build.slotReads.go p set slots).Sure := by
    induction slots generalizing set with
    | nil => exact .ok set
    | cons s rest ih => exact (p.slots.fetchSure s).bind fun _ => ih _
  exact all .empty

end Program

namespace Build

variable {α β : Type}

def Firm (x : Build α) : Prop := ∀ ⦃p e q⦄, x p ≠ .error (.rejected e) q

def Still (x : Build α) : Prop := ∀ ⦃p e q⦄, x p = .error (.rejected e) q → q = p

theorem bindFailed {x : Build α} {f : α → Build β} {p q : Program} {e : Failure}
    (failed : (x >>= f) p = .error e q) :
    x p = .error e q ∨ ∃ a r, x p = .ok a r ∧ f a r = .error e q := by
  change EStateM.bind x f p = _ at failed
  unfold EStateM.bind at failed
  split at failed
  · exact .inr ⟨_, _, by assumption, failed⟩
  · cases failed
    exact .inl (by assumption)

theorem Firm.pure (a : α) : Firm (pure a) := fun _ _ _ given => by cases given

theorem Firm.modify (f : Program → Program) : Firm (modify f) := fun _ _ _ given => by cases given

theorem Firm.lift {x : Outcome α} (sure : x.Sure) : Firm (liftM x) := by
  intro p e q given
  cases x with
  | ok a => cases given
  | error why =>
    cases given
    exact sure e rfl

theorem Firm.bind {x : Build α} {f : α → Build β} (first : Firm x) (rest : ∀ a, Firm (f a)) :
    Firm (x >>= f) := by
  intro p e q failed
  rcases bindFailed failed with failed | ⟨a, r, -, failed⟩
  · exact first failed
  · exact rest a failed

theorem Firm.get {f : Program → Build β} (rest : ∀ p, Firm (f p)) : Firm (get >>= f) :=
  .bind (fun _ _ _ given => by cases given) rest

theorem Firm.set {p : Program} : Firm (set p) := fun _ _ _ given => by cases given

theorem Firm.nextName (stem : String) : Firm (nextName stem) := fun _ _ _ given => by cases given

theorem Firm.still {x : Build α} (firm : Firm x) : Still x := fun _ _ _ given =>
  absurd given (@firm _ _ _)

theorem Still.refuse (e : Error) : Still (refuse e : Build α) := fun _ _ _ given => by
  cases given
  rfl

theorem Still.lift {x : Outcome α} {f : α → Build β} (rest : ∀ a, Still (f a)) :
    Still (liftM x >>= f) := by
  intro p e q failed
  rcases bindFailed failed with failed | ⟨a, r, ran, failed⟩
  · cases x with
    | ok a => cases failed
    | error why =>
      cases failed
      rfl
  · obtain ⟨-, rfl⟩ := liftOk.mp ran
    exact rest a failed

theorem Still.get {f : Program → Build β} (rest : ∀ p, Still (f p)) : Still (get >>= f) := by
  intro p e q failed
  rcases bindFailed failed with failed | ⟨a, r, ran, failed⟩
  · cases failed
  · obtain ⟨rfl, rfl⟩ := getOk.mp ran
    exact rest p failed

theorem Still.bind {x : Build α} {f : α → Build β} (first : Still x) (rest : ∀ a, Firm (f a)) :
    Still (x >>= f) := by
  intro p e q failed
  rcases bindFailed failed with failed | ⟨a, r, -, failed⟩
  · exact first failed
  · exact absurd failed (@rest a _ _ _)

theorem Firm.append {s : NodeSort} {γ : Type} (arena : Program → Arena s γ)
    (put : Program → Arena s γ → Program) (n : γ) :
    Firm (do let p ← MonadState.get
             let (h, a) ← (arena p).append n
             MonadStateOf.set (put p a)
             return h : Build (Handle s)) :=
  .get fun p => .bind (.lift ((arena p).appendSure n)) fun _ => .bind .set fun _ => .pure _

theorem Firm.adjust {s : NodeSort} {γ : Type} (arena : Program → Arena s γ)
    (put : Program → Arena s γ → Program) (h : Handle s) (f : γ → γ) :
    Firm (do let p ← MonadState.get
             MonadStateOf.set (put p (← (arena p).adjust h f)) : Build PUnit) :=
  .get fun p => .bind (.lift ((arena p).adjustSure h f)) fun _ => .set

theorem firmAddVariable (v : Variable) : Firm (addVariable v) :=
  .append Program.vars (fun p vars => { p with vars }) v

theorem firmAddScope (s : Scope) : Firm (addScope s) :=
  .append Program.scopes (fun p scopes => { p with scopes }) s

theorem firmAddStatement (s : Statement) : Firm (addStatement s) :=
  .append Program.stmts (fun p stmts => { p with stmts }) s

theorem firmAddBlockNode (b : Block) : Firm (addBlockNode b) :=
  .append Program.blocks (fun p blocks => { p with blocks }) b

theorem firmAddSlotNode (s : Slot) : Firm (addSlotNode s) :=
  .append Program.slots (fun p slots => { p with slots }) s

theorem firmAddExpr (op : Operation) (ty : Ty) : Firm (addExpr op ty) :=
  .get fun p => .bind (.lift (p.stateOfSure op)) fun _ =>
    .bind (.lift (p.exprs.appendSure _)) fun _ => .bind .set fun _ => .pure _

theorem firmAdjustVariable (v : VarId) (f : Variable → Variable) : Firm (adjustVariable v f) :=
  .adjust Program.vars (fun p vars => { p with vars }) v f

theorem firmAdjustScope (s : ScopeId) (f : Scope → Scope) : Firm (adjustScope s f) :=
  .adjust Program.scopes (fun p scopes => { p with scopes }) s f

theorem firmAdjustStatement (s : StmtId) (f : Statement → Statement) :
    Firm (adjustStatement s f) := .adjust Program.stmts (fun p stmts => { p with stmts }) s f

theorem firmAdjustBlock (b : BlockId) (f : Block → Block) : Firm (adjustBlock b f) :=
  .adjust Program.blocks (fun p blocks => { p with blocks }) b f

theorem firmAdjustSlot (s : SlotId) (f : Slot → Slot) : Firm (adjustSlot s f) :=
  .adjust Program.slots (fun p slots => { p with slots }) s f

theorem firmPlaceStatement (scope : ScopeId) (kind : StatementKind) (reads : Stamps)
    (writes : List Stamp) : Firm (placeStatement scope kind reads writes) :=
  .bind (firmAddStatement _) fun _ => .bind (firmAdjustScope _ _) fun _ => .pure _

theorem firmOpenScope (name : String) (parent : ScopeId) (owner : StmtId) :
    Firm (openScope name parent owner) :=
  .get fun p => .bind (.lift (p.scopes.fetchSure parent)) fun _ => firmAddScope _

theorem firmBump (v : VarId) : Firm (bump v) :=
  .bind (firmAdjustVariable _ _) fun _ => .get fun p => .lift (p.stampNowSure v)

theorem firmRefreshReads (b : BlockId) : Firm (refreshReads b) :=
  .get fun p => .bind (.lift (p.blocks.fetchSure b)) fun node =>
    .bind (.lift (p.slotReadsSure node.inputs)) fun _ =>
      .bind (firmAdjustStatement _ _) fun _ => .pure _

theorem firmFillSlot (s : SlotId) (value : Option ExprId) : Firm (fillSlot s value) :=
  .get fun p => .bind (.lift (p.initReadsSure value)) fun _ => .get fun p =>
    .bind (.lift (p.slots.fetchSure s)) fun _ => .bind (firmAdjustSlot _ _) fun _ =>
      firmRefreshReads _

theorem stillNewLexical (scope : ScopeId) (name : String) (ty : Ty) :
    Still (newLexical scope name ty) := by
  unfold newLexical
  split
  · exact .get fun p => .lift fun _ => (firmAddVariable _).still
  · exact .refuse _

end Build

end ShaderGraph
