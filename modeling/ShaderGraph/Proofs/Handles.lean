import ShaderGraph.Proofs.Dumping
import ShaderGraph.Proofs.Stamping
import ShaderGraph.Proofs.WellTyped
/-! Handles that lead nowhere. A handle a call is given may come from another program; the call
looks it up before it uses it, and is refused for it unless an earlier check refuses the call
whatever the handle is. -/
namespace ShaderGraph

inductive Call.Place : {s : NodeSort} → (Handle s → Call) → Prop
  | read : Place .read
  | part (ty : Ty) (before after : List ExprId) : Place fun e => .compose ty (before ++ e :: after)
  | operand (op : UnaryOp) : Place (.unary op)
  | left (op : BinaryOp) (right : ExprId) : Place fun e => .binary op e right
  | right (op : BinaryOp) (left : ExprId) : Place (.binary op left)
  | vector (pattern : String) : Place fun e => .swizzle e pattern
  | matrix (index : ExprId) : Place fun e => .column e index
  | columnIndex (matrix : ExprId) : Place (.column matrix)
  | matrixAt (index : Int32) : Place fun e => .columnAt e index
  | array (index : ExprId) : Place fun e => .element e index
  | elementIndex (array : ExprId) : Place (.element array)
  | arrayAt (index : Int32) : Place fun e => .elementAt e index
  | arg (f : Intrinsic) (before after : List ExprId) : Place fun e => .call f (before ++ e :: after)
  | converted (kind : ScalarKind) : Place fun e => .convert e kind
  | sampler (coord : ExprId) : Place fun e => .sample e coord
  | sampleCoord (sampler : ExprId) : Place (.sample sampler)
  | loadStorage (coord : ExprId) : Place fun e => .load e coord
  | loadCoord (storage : ExprId) : Place (.load storage)
  | declareScope (stem : String) (ty : Ty) (init : Option ExprId) :
      Place fun s => .declare s stem ty init
  | init (scope : ScopeId) (stem : String) (ty : Ty) : Place fun e => .declare scope stem ty (some e)
  | assignScope (target value : ExprId) : Place fun s => .assign s target value
  | target (scope : ScopeId) (value : ExprId) : Place fun e => .assign scope e value
  | value (scope : ScopeId) (target : ExprId) : Place (.assign scope target)
  | storeScope (storage coord value : ExprId) : Place fun s => .store s storage coord value
  | storage (scope : ScopeId) (coord value : ExprId) : Place fun e => .store scope e coord value
  | storeCoord (scope : ScopeId) (storage value : ExprId) : Place fun e => .store scope storage e value
  | texel (scope : ScopeId) (storage coord : ExprId) : Place (.store scope storage coord)
  | branchScope (condition : ExprId) : Place fun s => .branch s condition
  | condition (scope : ScopeId) : Place (.branch scope)
  | loopScope (start stop : ExprId) : Place fun s => .loop s start stop
  | start (scope : ScopeId) (stop : ExprId) : Place fun e => .loop scope e stop
  | stop (scope : ScopeId) (start : ExprId) : Place (.loop scope start)
  | blockScope (op : String) : Place fun s => .block s op
  | inputBlock (name : Option String) (ty : Ty) (default : Option ExprId) :
      Place fun b => .input b name ty default
  | default (block : BlockId) (name : Option String) (ty : Ty) :
      Place fun e => .input block name ty (some e)
  | arrayInputBlock (name : Option String) (elem : Ty) (size : UInt32) :
      Place fun b => .arrayInput b name elem size
  | outputBlock (name : Option String) (ty : Ty) : Place fun b => .output b name ty
  | bindSlot (value : ExprId) : Place fun s => .bind s value
  | bound (slot : SlotId) : Place (.bind slot)
  | clearSlot : Place .clear

def Outcome.Rejects {s : NodeSort} {α : Type} (size : Nat) (x : Handle s → Outcome α)
    (h : Handle s) : Prop :=
  ∃ e, x h = reject e ∧ (e = .badHandle h.index size ∨ ∀ g, x g = reject e)

namespace Outcome.Rejects

variable {s : NodeSort} {α β : Type} {size : Nat} {h : Handle s}

theorem refuse (e : Error) : Rejects size (fun _ => reject e : Handle s → Outcome α) h :=
  ⟨e, rfl, .inr fun _ => rfl⟩

theorem bind {x : Handle s → Outcome α} {f : Handle s → α → Outcome β} (first : Rejects size x h) :
    Rejects size (fun g => x g >>= f g) h := by
  obtain ⟨e, refused, why⟩ := first
  have ends : ∀ g, x g = reject e → (x g >>= f g) = reject e := fun g failed => by rw [failed]; rfl
  exact ⟨e, ends h refused, why.imp_right fun always g => ends g (always g)⟩

theorem map {x : Handle s → Outcome α} (first : Rejects size x h) (f : α → β) :
    Rejects size (fun g => (x g).map f) h := by
  obtain ⟨e, refused, why⟩ := first
  have ends : ∀ g, x g = reject e → (x g).map f = reject e := fun g failed => by rw [failed]; rfl
  exact ⟨e, ends h refused, why.imp_right fun always g => ends g (always g)⟩

theorem after {x : Outcome α} {f : α → Handle s → Outcome β} (safe : x.Safe)
    (rest : ∀ a, x = .ok a → Rejects size (f a) h) : Rejects size (fun g => x >>= fun a => f a g) h := by
  rcases safe.cases with ⟨a, rfl⟩ | ⟨e, rfl⟩
  · exact rest a rfl
  · exact refuse e

theorem mapM {f : Handle s → Outcome α} (first : Rejects size f h) (safe : ∀ g, (f g).Safe)
    (before after : List (Handle s)) : Rejects size (fun g => (before ++ g :: after).mapM f) h := by
  induction before with
  | nil =>
    simp only [List.nil_append, List.mapM_cons]
    exact .bind first
  | cons a rest ih =>
    simp only [List.cons_append, List.mapM_cons]
    exact .after (safe a) fun _ _ => .bind ih

end Outcome.Rejects

namespace Build

def Refuses {s : NodeSort} {α : Type} (p : Program) (x : Handle s → Build α) (h : Handle s) : Prop :=
  ∃ e, x h p = .error (.rejected e) p ∧
    (e = .badHandle h.index (p.count s) ∨ ∀ g, x g p = .error (.rejected e) p)

theorem bindError {α β : Type} {p q : Program} {x : Build α} {f : α → Build β} {e : Failure}
    (failed : x p = .error e q) : (x >>= f) p = .error e q := by
  change EStateM.bind x f p = _
  rw [EStateM.bind, failed]

namespace Refuses

variable {s : NodeSort} {α β : Type} {p : Program} {h : Handle s}

theorem refuse (e : Error) : Refuses p (fun _ => Build.refuse e : Handle s → Build α) h :=
  ⟨e, rfl, .inr fun _ => rfl⟩

theorem get {f : Program → Handle s → Build β} (rest : Refuses p (f p) h) :
    Refuses p (fun g => MonadState.get >>= fun r => f r g) h := rest

theorem lift {x : Outcome α} {f : α → Handle s → Build β} (safe : x.Safe)
    (rest : ∀ a, x = .ok a → Refuses p (f a) h) :
    Refuses p (fun g => liftM x >>= fun a => f a g) h := by
  rcases safe.cases with ⟨a, rfl⟩ | ⟨e, rfl⟩
  · exact rest a rfl
  · exact refuse e

theorem reads {x : Handle s → Outcome α} {f : Handle s → α → Build β}
    (rejects : Outcome.Rejects (p.count s) x h) : Refuses p (fun g => liftM (x g) >>= f g) h := by
  obtain ⟨e, refused, why⟩ := rejects
  have ends : ∀ g, x g = reject e → (liftM (x g) >>= f g : Build β) p = .error (.rejected e) p :=
    fun g failed => by rw [failed]; rfl
  exact ⟨e, ends h refused, why.imp_right fun always g => ends g (always g)⟩

theorem quiet {answer : α → Answer} {x : Handle s → Build α} (refuses : Refuses p x h) :
    Refuses p (fun g => Call.quiet answer (x g)) h := by
  obtain ⟨e, refused, why⟩ := refuses
  have ends : ∀ g, x g p = .error (.rejected e) p → Call.quiet answer (x g) p = .error (.rejected e) p :=
    fun g failed => bindError failed
  exact ⟨e, ends h refused, why.imp_right fun always g => ends g (always g)⟩

theorem logged {answer : α → Answer} {x : Handle s → Build (Logged α)} (refuses : Refuses p x h) :
    Refuses p (fun g => Call.logged answer (x g)) h := by
  obtain ⟨e, refused, why⟩ := refuses
  have ends : ∀ g, x g p = .error (.rejected e) p → Call.logged answer (x g) p = .error (.rejected e) p :=
    fun g failed => bindError failed
  exact ⟨e, ends h refused, why.imp_right fun always g => ends g (always g)⟩

end Refuses

end Build

theorem Arena.findOut {s : NodeSort} {α : Type} {a : Arena s α} {h : Handle s}
    (out : a.size ≤ h.index) : a.find h = reject (.badHandle h.index a.size) := by
  have none : a.get? h = none := by simpa [Arena.get?, Arena.size] using out
  rw [find, none]

theorem Arena.findRejects {s : NodeSort} {α : Type} {a : Arena s α} {h : Handle s}
    (out : a.size ≤ h.index) : Outcome.Rejects a.size a.find h := ⟨_, findOut out, .inl rfl⟩

section

variable {p : Program}

open Build

theorem typeOfRejects {e : ExprId} (out : p.exprs.size ≤ e.index) :
    Outcome.Rejects p.exprs.size p.typeOf e := (Arena.findRejects out).map Expr.ty

theorem partTysRejects {ty : Ty} {kind : ScalarKind} {before after : List ExprId} {e : ExprId}
    (out : p.exprs.size ≤ e.index) :
    Outcome.Rejects p.exprs.size (fun e => partTys p ty kind (before ++ e :: after)) e := by
  induction before with
  | nil => exact .bind (typeOfRejects out)
  | cons part rest ih =>
    refine .after (p.typeOfSafe part) fun t _ => ?_
    split
    · exact .refuse _
    · exact .bind ih

theorem checkComposeRejects {ty : Ty} {before after : List ExprId} {e : ExprId}
    (out : p.exprs.size ≤ e.index) :
    Outcome.Rejects p.exprs.size (fun e => checkCompose p ty (before ++ e :: after)) e := by
  unfold checkCompose
  split
  · exact .bind (partTysRejects out)
  · exact .refuse _

theorem checkIndexRejects {e : ExprId} (out : p.exprs.size ≤ e.index) :
    Outcome.Rejects p.exprs.size (checkIndex p) e := .bind (typeOfRejects out)

theorem checkSampleRejects {sampler e : ExprId} (out : p.exprs.size ≤ e.index) :
    Outcome.Rejects p.exprs.size (checkSample p sampler) e := by
  refine .after (p.typeOfSafe sampler) fun t _ => ?_
  cases t with
  | sampler => exact .bind (typeOfRejects out)
  | _ => exact .refuse _

theorem checkStorageRejects {storage e : ExprId} (out : p.exprs.size ≤ e.index) :
    Outcome.Rejects p.exprs.size (checkStorage p storage) e := by
  refine .after (p.typeOfSafe storage) fun t _ => ?_
  cases t with
  | storage => exact .bind (typeOfRejects out)
  | _ => exact .refuse _

theorem columnRefuses {e index : ExprId} (out : p.exprs.size ≤ e.index) :
    Refuses p (fun e => column e index) e := .get (.reads (typeOfRejects out))

theorem elementRefuses {e index : ExprId} (out : p.exprs.size ≤ e.index) :
    Refuses p (fun e => element e index) e := .get (.reads (typeOfRejects out))

theorem columnIndexRefuses {matrix e : ExprId} (out : p.exprs.size ≤ e.index) :
    Refuses p (column matrix) e := by
  refine .get (.lift (p.typeOfSafe matrix) fun t _ => ?_)
  cases t.column? with
  | none => exact .refuse _
  | some ty => exact .get (.reads (checkIndexRejects out))

theorem elementIndexRefuses {array e : ExprId} (out : p.exprs.size ≤ e.index) :
    Refuses p (element array) e := by
  refine .get (.lift (p.typeOfSafe array) fun t _ => ?_)
  cases t.element? with
  | none => exact .refuse _
  | some part => exact .get (.reads (checkIndexRejects out))

theorem inputRefuses {name : Option String} {ty : Ty} {default : Option ExprId} {b : BlockId}
    (out : p.blocks.size ≤ b.index) : Refuses p (fun b => input b name ty default) b :=
  .get (.reads (Arena.findRejects out))

theorem defaultRefuses {b : BlockId} {name : Option String} {ty : Ty} {e : ExprId}
    (out : p.exprs.size ≤ e.index) : Refuses p (fun e => input b name ty (some e)) e := by
  refine .get (.lift (p.blocks.findSafe b) fun _ _ => ?_)
  split
  · exact .get (.reads (.bind (typeOfRejects out)))
  · exact .refuse _

/-- What becomes of a call on `p` that is given the handle `h`, which leads nowhere. The last case
is that of a call which adds the literal index first and so makes a node for the handle. -/
def Call.Surfaces {s : NodeSort} (p : Program) (f : Handle s → Call) (h : Handle s) : Prop :=
  ∃ e q, (f h).run p = .error (.rejected e) q ∧
    (e = .badHandle h.index (q.count s) ∨ (∀ g, (f g).run p = .error (.rejected e) q) ∨
      ∃ index : Int32, q = p.withExpr ⟨.literal (.int index), .int1, []⟩ ∧ h.index < q.count s)

theorem Build.Refuses.surfaces {s : NodeSort} {f : Handle s → Call} {h : Handle s}
    (refuses : Refuses p (fun g => (f g).run) h) : Call.Surfaces p f h := by
  obtain ⟨e, refused, named | always⟩ := refuses
  · exact ⟨e, p, refused, .inl named⟩
  · exact ⟨e, p, refused, .inr (.inl always)⟩

theorem literalRan (value : Literal) (room : p.exprs.size < Handle.limit) :
    literal value p = .ok p.exprs.fresh (p.withExpr ⟨.literal value, value.ty, []⟩) :=
  addExprOk.mpr ⟨[], rfl, room, rfl, rfl⟩

theorem viewSurfaces {view : ExprId → ExprId → Build ExprId} {f : ExprId → Call} {index : Int32}
    (runs : ∀ g, (f g).run = Call.quiet .expr (literal (.int index) >>= view g))
    (refuses : ∀ {q e i}, q.exprs.size ≤ e.index → Refuses q (fun e => view e i) e)
    (scalar : ∀ {q e i}, q.HasTy e .int1 → ∃ error, view e i q = .error (.rejected error) q)
    {e : ExprId} (out : p.exprs.size ≤ e.index) (room : p.exprs.size < Handle.limit) :
    Call.Surfaces p f e := by
  have ends : ∀ {g error q}, p.withExpr ⟨.literal (.int index), .int1, []⟩ = q →
      view g p.exprs.fresh q = .error (.rejected error) q →
      (f g).run p = .error (.rejected error) q := by
    rintro g error q rfl failed
    rw [runs g]
    refine bindError ?_
    change EStateM.bind (literal (.int index)) (view g) p = _
    rw [EStateM.bind, literalRan _ room]
    exact failed
  generalize added : p.withExpr ⟨.literal (.int index), .int1, []⟩ = q at ends
  by_cases still : q.exprs.size ≤ e.index
  · obtain ⟨error, refused, named | always⟩ := refuses (i := p.exprs.fresh) still
    · exact ⟨error, q, ends rfl refused, .inl named⟩
    · exact ⟨error, q, ends rfl refused, .inr (.inl fun g => ends rfl (always g))⟩
  · have size : q.exprs.size = p.exprs.size + 1 := by
      rw [← added]
      exact Arena.pushSize ..
    have here : e = p.exprs.fresh := Handle.same (by rw [Arena.freshIndex]; omega)
    have typed : q.HasTy e .int1 := by
      rw [here, ← added]
      exact ⟨_, Arena.getFresh .., rfl⟩
    obtain ⟨error, refused⟩ := scalar (i := p.exprs.fresh) typed
    exact ⟨error, q, ends rfl refused, .inr (.inr ⟨index, added.symm, Nat.lt_of_not_le still⟩)⟩

theorem liftRan {α β : Type} {x : Outcome α} {a : α} {f : α → Build β} (made : x = .ok a) :
    (liftM x >>= f) p = f a p := by
  rw [made]
  rfl

theorem columnScalar {e i : ExprId} (typed : p.HasTy e .int1) :
    ∃ error, column e i p = .error (.rejected error) p :=
  ⟨.typeMismatch "matrix" (Ty.name .int1), liftRan (typeOfOk.mpr typed)⟩

theorem elementScalar {e i : ExprId} (typed : p.HasTy e .int1) :
    ∃ error, element e i p = .error (.rejected error) p :=
  ⟨.typeMismatch "array" (Ty.name .int1), liftRan (typeOfOk.mpr typed)⟩

theorem Call.Place.surfaces {s : NodeSort} {f : Handle s → Call} (place : Call.Place f) {h : Handle s}
    (out : p.count s ≤ h.index) (room : p.exprs.size < Handle.limit) : Call.Surfaces p f h := by
  cases place with
  | read => exact (Refuses.quiet (.get (.reads (Arena.findRejects out)))).surfaces
  | part => exact (Refuses.quiet (.get (.reads (checkComposeRejects out)))).surfaces
  | operand => exact (Refuses.quiet (.get (.reads (typeOfRejects out)))).surfaces
  | left => exact (Refuses.quiet (.get (.reads (typeOfRejects out)))).surfaces
  | right op left =>
    exact (Refuses.quiet (.get (.lift (p.typeOfSafe left) fun _ _ =>
      .get (.reads (typeOfRejects out))))).surfaces
  | vector => exact (Refuses.quiet (.get (.reads (typeOfRejects out)))).surfaces
  | matrix => exact (Refuses.quiet (columnRefuses out)).surfaces
  | columnIndex => exact (Refuses.quiet (columnIndexRefuses out)).surfaces
  | matrixAt => exact viewSurfaces (fun _ => rfl) columnRefuses columnScalar out room
  | array => exact (Refuses.quiet (elementRefuses out)).surfaces
  | elementIndex => exact (Refuses.quiet (elementIndexRefuses out)).surfaces
  | arrayAt => exact viewSurfaces (fun _ => rfl) elementRefuses elementScalar out room
  | arg f before after =>
    exact (Refuses.quiet (.get (.reads
      (.mapM (typeOfRejects out) p.typeOfSafe before after)))).surfaces
  | converted => exact (Refuses.quiet (.get (.reads (typeOfRejects out)))).surfaces
  | sampler => exact (Refuses.quiet (.get (.reads (.bind (typeOfRejects out))))).surfaces
  | sampleCoord => exact (Refuses.quiet (.get (.reads (checkSampleRejects out)))).surfaces
  | loadStorage => exact (Refuses.quiet (.get (.reads (.bind (typeOfRejects out))))).surfaces
  | loadCoord => exact (Refuses.quiet (.get (.reads (checkStorageRejects out)))).surfaces
  | declareScope => exact (Refuses.quiet (.get (.reads (Arena.findRejects out)))).surfaces
  | init scope =>
    exact (Refuses.quiet (.get (.lift (p.scopes.findSafe scope) fun _ _ =>
      .get (.reads (.bind (typeOfRejects out)))))).surfaces
  | assignScope => exact (Refuses.quiet (.get (.reads (Arena.findRejects out)))).surfaces
  | target scope =>
    exact (Refuses.quiet (.get (.lift (p.scopes.findSafe scope) fun _ _ =>
      .reads (typeOfRejects out)))).surfaces
  | value scope target =>
    exact (Refuses.quiet (.get (.lift (p.scopes.findSafe scope) fun _ _ =>
      .lift (p.typeOfSafe target) fun _ _ => .reads (typeOfRejects out)))).surfaces
  | storeScope => exact (Refuses.quiet (.get (.reads (Arena.findRejects out)))).surfaces
  | storage scope =>
    exact (Refuses.quiet (.get (.lift (p.scopes.findSafe scope) fun _ _ =>
      .reads (.bind (typeOfRejects out))))).surfaces
  | storeCoord scope =>
    exact (Refuses.quiet (.get (.lift (p.scopes.findSafe scope) fun _ _ =>
      .reads (checkStorageRejects out)))).surfaces
  | texel scope storage coord =>
    exact (Refuses.quiet (.get (.lift (p.scopes.findSafe scope) fun _ _ =>
      .lift (checkStorageSafe storage coord) fun _ _ => .reads (typeOfRejects out)))).surfaces
  | branchScope => exact (Refuses.quiet (.get (.reads (Arena.findRejects out)))).surfaces
  | condition scope =>
    exact (Refuses.quiet (.get (.lift (p.scopes.findSafe scope) fun _ _ =>
      .reads (typeOfRejects out)))).surfaces
  | loopScope => exact (Refuses.quiet (.get (.reads (Arena.findRejects out)))).surfaces
  | start scope =>
    exact (Refuses.quiet (.get (.lift (p.scopes.findSafe scope) fun _ _ =>
      .reads (checkIndexRejects out)))).surfaces
  | stop scope start =>
    exact (Refuses.quiet (.get (.lift (p.scopes.findSafe scope) fun _ _ =>
      .lift (checkIndexSafe start) fun _ _ => .reads (checkIndexRejects out)))).surfaces
  | blockScope => exact (Refuses.logged (.get (.reads (Arena.findRejects out)))).surfaces
  | inputBlock => exact (Refuses.logged (inputRefuses out)).surfaces
  | default => exact (Refuses.logged (defaultRefuses out)).surfaces
  | arrayInputBlock =>
    exact (Refuses.logged (.lift (.ofResult _) fun _ _ => inputRefuses out)).surfaces
  | outputBlock => exact (Refuses.quiet (.get (.reads (Arena.findRejects out)))).surfaces
  | bindSlot value =>
    have refuses : Refuses p (fun g => Call.logged (fun _ : Unit => Answer.done) (Build.bind g value)) h :=
      .logged (.get (.reads (Arena.findRejects out)))
    exact refuses.surfaces
  | bound slot =>
    have refuses : Refuses p (fun e => Call.logged (fun _ : Unit => Answer.done) (Build.bind slot e)) h :=
      .logged (.get (.lift (p.slots.findSafe slot) fun _ _ => .get (.reads (.bind (typeOfRejects out)))))
    exact refuses.surfaces
  | clearSlot =>
    have refuses : Refuses p (fun g => Call.logged (fun _ : Unit => Answer.done) (Build.clear g)) h :=
      .logged (.get (.reads (Arena.findRejects out)))
    exact refuses.surfaces

theorem renderOut (sp : Spelling) {e : ExprId} (out : p.exprs.size ≤ e.index) :
    p.render sp e = reject (.badHandle e.index p.exprs.size) := by
  rw [Program.render, Arena.findOut out]
  rfl

theorem renderTargetOut (sp : Spelling) {e : ExprId} (out : p.exprs.size ≤ e.index) :
    p.renderTarget sp e = reject (.badHandle e.index p.exprs.size) := by
  rw [Program.renderTarget, Arena.findOut out]
  rfl

structure Secured (p : Program) : Prop where
  calls : ∀ (call : Call) cause q, call.run p = .error (.aborted cause) q → q.Full cause
  places : ∀ {s : NodeSort} {f : Handle s → Call}, Call.Place f → ∀ h, p.count s ≤ h.index →
    p.exprs.size < Handle.limit → Call.Surfaces p f h
  check : p.check.Safe
  freeze : p.freeze.Safe
  render : ∀ sp e, (p.render sp e).Safe ∧
    (p.exprs.size ≤ e.index → p.render sp e = reject (.badHandle e.index p.exprs.size))
  renderTarget : ∀ sp e, (p.renderTarget sp e).Safe ∧
    (p.exprs.size ≤ e.index → p.renderTarget sp e = reject (.badHandle e.index p.exprs.size))
  dump : ∃ text, p.dump = .ok text
  compile : ∀ b ∈ Registry.full.value.backends, ∀ f : Frozen, f.program = p → ∀ o cause,
    (b.compile f o).result ≠ .error (.aborted cause)
  counters : ∀ v var, p.vars.get? v = some var → var.mutations.toNat ≤ p.stmts.size
  owners : ∀ c home s, p.scopes.get? c = some home → home.owner = some s →
    ∃ node, p.stmts.get? s = some node ∧ Opens p node.kind c
  blocks : ∀ b node, p.blocks.get? b = some node →
    ∃ stmt, p.stmts.get? node.statement = some stmt ∧ stmt.kind = .block b
  readers : ∀ s slot, p.slots.get? s = some slot →
    ∃ node, p.exprs.get? slot.node = some node ∧ node.op = .slot s
  letters : ∀ e node vector pattern, p.exprs.get? e = some node →
    node.op = .swizzle vector pattern → pattern.length ≤ Component.all.length

theorem reachableSecured (reachable : Reachable p) : Secured p := by
  have built := reachableBuilt reachable
  exact {
    calls := fun call _ _ failed => built.secure call failed
    places := fun place _ out room => place.surfaces out room
    check := built.checkSafe
    freeze := built.freezeSafe
    render := fun sp e => ⟨built.renderSafe sp e, renderOut sp⟩
    renderTarget := fun sp e => ⟨built.renderTargetSafe sp e, renderTargetOut sp⟩
    dump := built.dumpOk
    compile := fun _ known _ frozen o cause => built.compileSafe known frozen o cause
    counters := fun v var at_ => built.counted at_ ▸ timesAssignedBound p v
    owners := fun _ _ _ at_ owner => built.forest.owned at_ owner
    blocks := fun b node at_ => by
      obtain ⟨stmt, there, kind, -⟩ := built.forest.blocks at_
      exact ⟨stmt, there, kind⟩
    readers := fun s slot at_ => by
      obtain ⟨state, there⟩ := (built.slot at_).reader
      exact ⟨_, there, rfl⟩
    letters := fun e node vector pattern at_ op => by
      have fits := (built.expr at_).1
      rw [op] at fits
      cases fits with
      | swizzle _ _ result => exact (componentsSome result).2 }

def strayRun : List Call :=
  [.addStage .fragment, .literal (.int 0), .declare ⟨0⟩ "i" .int1 (some ⟨0⟩), .block ⟨0⟩ "use",
    .input ⟨0⟩ (some "x") .int1 none]

theorem strayRuns : ∃ p, Program.after { name := "p" } strayRun = some p ∧ p.exprs.size = 2 :=
  ⟨_, rfl, rfl⟩

theorem reachableSecuredStray : ∃ p, Program.after { name := "p" } strayRun = some p ∧
    (∃ text, p.dump = .ok text) ∧ p.check.Safe ∧
    p.render .pseudo ⟨2⟩ = .error (.rejected (.badHandle 2 2)) ∧
    Call.Surfaces p (fun e => .assign ⟨0⟩ e ⟨0⟩) ⟨2⟩ ∧
    Call.Surfaces p (fun e => .columnAt e 0) ⟨2⟩ := by
  obtain ⟨p, ran, size⟩ := strayRuns
  have secured := reachableSecured ((Reachable.new "p").after ran)
  have out : p.exprs.size ≤ 2 := Nat.le_of_eq size
  have room : p.exprs.size < Handle.limit := by rw [size]; decide
  have rejected := (secured.render .pseudo ⟨2⟩).2 out
  rw [size] at rejected
  exact ⟨p, ran, secured.dump, secured.check, rejected,
    secured.places (.target ⟨0⟩ ⟨0⟩) ⟨2⟩ out room, secured.places (.matrixAt 0) ⟨2⟩ out room⟩

end

end ShaderGraph
