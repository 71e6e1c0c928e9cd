import ShaderGraph.Proofs.Rendering
import ShaderGraph.Wgsl.Dialect
/-! What expressions mean. A value is known by its scalars, each reached through elements and
columns and then a component; accesses select among them, and every other operation means what an
interpretation makes of it. What is written out of a program can be evaluated, and evaluates alike
in stores that agree on what it reads. -/
namespace ShaderGraph

/-- A value by its scalars: the positions of elements and columns that lead to each, then its
component. A scalar is in the component `x`. -/
def Value (S : Type) : Type := List Nat → Component → S

def Store (S : Type) : Type := VarId → Value S

/-- An interpretation of the operations over scalars. `position` tells where an index falls in a
value of the type; an access that falls nowhere reads `absent` and writes nothing. -/
structure Meaning (S : Type) where
  literal : Literal → Value S
  compose : Ty → List (Value S) → Value S
  unary : UnaryOp → Value S → Value S
  binary : BinaryOp → Ty → Ty → Value S → Value S → Value S
  call : Intrinsic → List (Value S) → Value S
  convert : Ty → Value S → Value S
  sample : Value S → Sampler → Value S → Value S
  load : Value S → Storage → Value S → Value S
  position : Ty → S → Option Nat
  absent : Ty → Value S

structure Env (S : Type) where
  store : Store S
  held : Option (Value S) := none

abbrev Location := Option (VarId × List Nat)

section

variable {S : Type}

namespace Env

def hides (env : Env S) (var : Variable) : Bool :=
  env.held.isSome && Wgsl.moduleName var == "swizzled"

def read (env : Env S) (v : VarId) (var : Variable) : Value S :=
  match env.held with
  | some held => if Wgsl.moduleName var == "swizzled" then held else env.store v
  | none => env.store v

end Env

namespace Value

def pick (value : Value S) (pattern : List Component) : Value S := fun path c =>
  value path (pattern.getD c.index c)

end Value

namespace Meaning

variable (M : Meaning S)

def select (ty : Ty) (whole index : Value S) : Value S :=
  match M.position ty (index [] .x) with
  | some n => fun path c => whole (n :: path) c
  | none => M.absent ty

def enter (ty : Ty) (whole : Location) (index : Value S) : Location :=
  match whole, M.position ty (index [] .x) with
  | some (v, path), some n => some (v, path ++ [n])
  | _, _ => none

end Meaning

namespace Program

variable (p : Program) (M : Meaning S) (env : Env S)

def evalNode (sub : ExprId → Outcome (Value S)) (node : Expr) : Outcome (Value S) := do
  match node.op with
  | .literal l => return M.literal l
  | .read v => return env.read v (← p.vars.fetch v)
  | .slot s =>
    let slot ← p.slots.fetch s
    match slot.value with
    | some value => sub value
    | none => reject (.unboundInput slot.name (← p.blocks.fetch slot.block).name)
  | .compose parts => return M.compose node.ty (← parts.mapM sub)
  | .unary op operand => return M.unary op (← sub operand)
  | .binary op left right =>
    let l ← sub left
    let r ← sub right
    return M.binary op (← p.operandTy left) (← p.operandTy right) l r
  | .swizzle vector pattern => return (← sub vector).pick pattern
  | .column matrix index =>
    let m ← sub matrix
    let i ← sub index
    return M.select (← p.operandTy matrix) m i
  | .element array index =>
    let a ← sub array
    let i ← sub index
    return M.select (← p.operandTy array) a i
  | .call f args => return M.call f (← args.mapM sub)
  | .convert operand => return M.convert node.ty (← sub operand)
  | .sample sampler coord =>
    let ty ← p.samplerTy sampler
    let s ← sub sampler
    let c ← sub coord
    return M.sample s ty c
  | .load storage coord =>
    let ty ← p.storageTy storage
    let s ← sub storage
    let c ← sub coord
    return M.load s ty c

def evalWithin : Nat → ExprId → Outcome (Value S)
  | 0, _ => abort .endless
  | fuel + 1, e => do p.evalNode M env (evalWithin fuel) (← p.exprs.fetch e)

def eval (e : ExprId) : Outcome (Value S) := p.evalWithin M env p.depthBound e

def locateWithin : Nat → ExprId → Outcome Location
  | 0, _ => abort .endless
  | fuel + 1, e => do
    match (← p.exprs.fetch e).op with
    | .read v =>
      let var ← p.vars.fetch v
      return if env.hides var then none else some (v, [])
    | .column base index | .element base index =>
      let location ← locateWithin fuel base
      let i ← p.eval M env index
      return M.enter (← p.operandTy base) location i
    | _ => reject (.notAssignable (← p.pseudo e))

def locate (e : ExprId) : Outcome Location := p.locateWithin M env (e.index + 1) e

end Program

end

inductive Accesses (p : Program) : ExprId → VarId → Prop
  | read {e : ExprId} {node : Expr} {v : VarId} (at_ : p.exprs.get? e = some node)
      (op : node.op = .read v) : Accesses p e v
  | column {e base index : ExprId} {node : Expr} {v : VarId} (at_ : p.exprs.get? e = some node)
      (op : node.op = .column base index) (chain : Accesses p base v) : Accesses p e v
  | element {e base index : ExprId} {node : Expr} {v : VarId} (at_ : p.exprs.get? e = some node)
      (op : node.op = .element base index) (chain : Accesses p base v) : Accesses p e v

inductive Program.Indexes (p : Program) : ExprId → ExprId → Prop
  | column {e base i : ExprId} {node : Expr} (at_ : p.exprs.get? e = some node)
      (op : node.op = .column base i) : Indexes p e i
  | element {e base i : ExprId} {node : Expr} (at_ : p.exprs.get? e = some node)
      (op : node.op = .element base i) : Indexes p e i
  | inColumn {e base index i : ExprId} {node : Expr} (at_ : p.exprs.get? e = some node)
      (op : node.op = .column base index) (deeper : Indexes p base i) : Indexes p e i
  | inElement {e base index i : ExprId} {node : Expr} (at_ : p.exprs.get? e = some node)
      (op : node.op = .element base index) (deeper : Indexes p base i) : Indexes p e i

section

variable {S : Type} {M : Meaning S} {env other : Env S} {p : Program} {sp : Spelling}

def Spelling.Strict (sp : Spelling) : Prop := ∀ slot block, ∃ e, sp.unbound slot block = .error e

theorem Built.operandTyOk (built : Built p) {e o : ExprId} (step : p.Operand e o) :
    ∃ ty, p.operandTy o = .ok ty := by
  obtain ⟨node, at_⟩ := Arena.atBelow (built.operand step).2
  exact ⟨node.ty, Build.operandTyOk.mpr ⟨node, at_, rfl⟩⟩

theorem Built.evalTotal (built : Built p) {eval : ExprId → Outcome (Value S)} {e : ExprId}
    {node : Expr} (at_ : p.exprs.get? e = some node) (plain : ∀ s, node.op ≠ .slot s)
    (each : ∀ o ∈ node.op.operands, ∃ value, eval o = .ok value) :
    ∃ value, p.evalNode M env eval node = .ok value := by
  have fits := (built.expr at_).1
  have typed : ∀ o ∈ node.op.operands, ∃ ty, p.operandTy o = .ok ty :=
    fun o inside => built.operandTyOk ⟨node, at_, inside⟩
  obtain ⟨op, ty, state⟩ := node
  cases op with
  | literal l => exact ⟨_, rfl⟩
  | slot s => exact absurd rfl (plain s)
  | read v =>
    obtain ⟨var, varAt, -⟩ := Fits.readAt fits
    exact ⟨_, by simp only [Program.evalNode, Arena.fetchOfGet varAt]; rfl⟩
  | compose parts | call f parts =>
    obtain ⟨values, found⟩ : ∃ values, parts.mapM eval = .ok values := Outcome.mapMTotal each
    exact ⟨_, by simp only [Program.evalNode, found]; rfl⟩
  | unary _ o | swizzle o | convert o =>
    obtain ⟨value, found⟩ := each o (.head _)
    exact ⟨_, by simp only [Program.evalNode, found]; rfl⟩
  | binary _ a b | column a b | element a b =>
    obtain ⟨ty, typedA⟩ := typed a (.head _)
    obtain ⟨other, typedB⟩ := typed b (.tail _ (.head _))
    obtain ⟨value, foundA⟩ := each a (.head _)
    obtain ⟨second, foundB⟩ := each b (.tail _ (.head _))
    exact ⟨_, by simp only [Program.evalNode, foundA, foundB, typedA, typedB]; rfl⟩
  | sample sampler coord =>
    obtain ⟨value, sampled⟩ := each sampler (.head _)
    obtain ⟨place, found⟩ := each coord (.tail _ (.head _))
    cases fits with
    | sample texture =>
      exact ⟨_, by simp only [Program.evalNode, samplerTyOk texture, sampled, found]; rfl⟩
  | load storage coord =>
    obtain ⟨value, loaded⟩ := each storage (.head _)
    obtain ⟨place, found⟩ := each coord (.tail _ (.head _))
    cases fits with
    | load texture =>
      exact ⟨_, by simp only [Program.evalNode, storageTyOk texture, loaded, found]; rfl⟩

theorem Built.evalNodeOk (built : Built p) (strict : sp.Strict)
    {sub : List SlotId → ExprId → Outcome String} {eval : ExprId → Outcome (Value S)}
    (each : ∀ opened o text, sub opened o = .ok text → ∃ value, eval o = .ok value)
    {opened : List SlotId} {e : ExprId} {node : Expr} (at_ : p.exprs.get? e = some node)
    {text : String} (written : p.renderNode sp sub opened node = .ok text) :
    ∃ value, p.evalNode M env eval node = .ok value := by
  by_cases slots : ∃ s, node.op = .slot s
  · obtain ⟨s, op⟩ := slots
    simp only [Program.renderNode, op, Outcome.bindOk] at written
    obtain ⟨slot, found, block, -, written⟩ := written
    split at written
    · cases written
    · cases holds : slot.value with
      | some bound =>
        simp only [holds] at written
        obtain ⟨value, own⟩ := each _ _ _ written
        exact ⟨value, by
          simp only [Program.evalNode, op, found, Bind.bind, Except.bind, holds, own]⟩
      | none =>
        obtain ⟨error, refused⟩ := strict slot block
        simp only [holds, refused] at written
        cases written
  · have plain : ∀ s, node.op ≠ .slot s := fun s op => slots ⟨s, op⟩
    obtain ⟨finish, parts⟩ := built.nodeParts at_ plain sp
    rw [parts, Outcome.mapOk] at written
    obtain ⟨texts, made, -⟩ := written
    refine built.evalTotal at_ plain fun o inside => ?_
    obtain ⟨text, -, own⟩ := Outcome.mapMTarget made inside
    exact each _ _ _ own

theorem Built.evalWithinOk (built : Built p) (strict : sp.Strict) {fuel : Nat}
    {opened : List SlotId} {e : ExprId} {text : String}
    (written : p.renderWithin sp fuel opened e = .ok text) :
    ∃ value, p.evalWithin M env fuel e = .ok value := by
  induction fuel generalizing opened e text with
  | zero => cases written
  | succ fuel ih =>
    simp only [Program.renderWithin, Outcome.bindOk, Arena.fetchOk] at written
    obtain ⟨node, at_, written⟩ := written
    have each : ∀ opened o text, p.renderWithin sp fuel opened o = .ok text →
        ∃ value, p.evalWithin M env fuel o = .ok value := fun _ _ _ => ih
    obtain ⟨value, found⟩ : ∃ value, p.evalNode M env (p.evalWithin M env fuel) node = .ok value :=
      built.evalNodeOk strict each at_ written
    refine ⟨value, ?_⟩
    rw [Program.evalWithin, Outcome.bindOk]
    exact ⟨node, Arena.fetchOfGet at_, found⟩

theorem Built.evalOk (built : Built p) (strict : sp.Strict) {e : ExprId} {text : String}
    (written : p.render sp e = .ok text) : ∃ value, p.eval M env e = .ok value := by
  simp only [Program.render, Outcome.bindOk] at written
  obtain ⟨-, -, written⟩ := written
  exact built.evalWithinOk strict written

theorem Built.locateWithinOk (built : Built p) (strict : sp.Strict) {e : ExprId} {v : VarId}
    (chain : Accesses p e v) {fuel : Nat} {text : String}
    (written : p.renderTargetWithin sp fuel e = .ok text) :
    ∃ location, p.locateWithin M env fuel e = .ok location := by
  induction chain generalizing fuel text with
  | read at_ op =>
    cases fuel with
    | zero => cases written
    | succ fuel =>
      simp only [Program.renderTargetWithin, Program.renderTargetNode, Arena.fetchOfGet at_,
        Outcome.bindOk, Except.ok.injEq, exists_eq_left', op] at written
      obtain ⟨var, read, -⟩ := written
      exact ⟨_, by
        simp only [Program.locateWithin, Arena.fetchOfGet at_, Bind.bind, Except.bind, op, read]
        rfl⟩
  | @column e base index node _ at_ op _ ih | @element e base index node _ at_ op _ ih =>
    cases fuel with
    | zero => cases written
    | succ fuel =>
      simp only [Program.renderTargetWithin, Program.renderTargetNode, Arena.fetchOfGet at_,
        Outcome.bindOk, Except.ok.injEq, exists_eq_left', op] at written
      obtain ⟨_, baseMade, _, indexMade, -⟩ := written
      obtain ⟨location, located⟩ := ih baseMade
      obtain ⟨i, found⟩ : ∃ value, p.evalWithin M env p.depthBound index = .ok value :=
        built.evalWithinOk strict indexMade
      have first : base ∈ node.op.operands := by simp [op, Operation.operands]
      obtain ⟨ty, typed⟩ := built.operandTyOk ⟨node, at_, first⟩
      exact ⟨_, by
        simp only [Program.locateWithin, Arena.fetchOfGet at_, Bind.bind, Except.bind, op, located,
          Program.eval, found, typed]
        rfl⟩

theorem Built.locateOk (built : Built p) (strict : sp.Strict) {e : ExprId} {v : VarId}
    (chain : Accesses p e v) {text : String} (written : p.renderTarget sp e = .ok text) :
    ∃ location, p.locate M env e = .ok location := by
  simp only [Program.renderTarget, Outcome.bindOk] at written
  obtain ⟨-, -, written⟩ := written
  exact built.locateWithinOk strict chain written

theorem Program.Reads.follow {e o : ExprId} {v : VarId} (step : p.Follows e o)
    (reads : p.Reads o v) : p.Reads e v := by
  obtain ⟨a, under, read⟩ := reads
  exact ⟨a, .head step under, read⟩

def Program.Agree (p : Program) (env other : Env S) (e : ExprId) : Prop :=
  ∀ v var, p.Reads e v → p.vars.get? v = some var → env.read v var = other.read v var

theorem Program.Agree.follow {e o : ExprId} (agree : p.Agree env other e) (step : p.Follows e o) :
    p.Agree env other o := fun v var reads => agree v var (reads.follow step)

theorem evalNodeSame {sub again : ExprId → Outcome (Value S)} {node : Expr}
    (under : ∀ o ∈ node.op.operands, sub o = again o)
    (bound : ∀ s slot value, node.op = .slot s → p.slots.get? s = some slot →
      slot.value = some value → sub value = again value)
    (read : ∀ v var, node.op = .read v → p.vars.get? v = some var →
      env.read v var = other.read v var) :
    p.evalNode M env sub node = p.evalNode M other again node := by
  obtain ⟨op, ty, state⟩ := node
  cases op with
  | literal l => rfl
  | compose parts =>
    have same : parts.mapM sub = parts.mapM again := Outcome.mapMSame under
    simp only [Program.evalNode, same]
  | call f args =>
    have same : args.mapM sub = args.mapM again := Outcome.mapMSame under
    simp only [Program.evalNode, same]
  | read v =>
    simp only [Program.evalNode]
    cases fetched : p.vars.fetch v with
    | error failure => rfl
    | ok var => exact congrArg Except.ok (read v var rfl (Arena.fetchOk.mp fetched))
  | slot s =>
    simp only [Program.evalNode]
    cases fetched : p.slots.fetch s with
    | error failure => rfl
    | ok slot =>
      simp only [Bind.bind, Except.bind]
      cases value : slot.value with
      | none => rfl
      | some e => exact bound s slot e rfl (Arena.fetchOk.mp fetched) value
  | unary _ o | convert o | swizzle o _ =>
    simp only [Program.evalNode, under o List.mem_cons_self]
  | binary _ one two | column one two | element one two | sample one two | load one two =>
    have second := under two (List.mem_cons_of_mem _ List.mem_cons_self)
    simp only [Program.evalNode, under one List.mem_cons_self, second]

theorem evalWithinSame {fuel : Nat} {e : ExprId} (agree : p.Agree env other e) :
    p.evalWithin M env fuel e = p.evalWithin M other fuel e := by
  induction fuel generalizing e with
  | zero => rfl
  | succ fuel ih =>
    rw [Program.evalWithin, Program.evalWithin]
    cases fetched : p.exprs.fetch e with
    | error failure => rfl
    | ok node =>
      have at_ := Arena.fetchOk.mp fetched
      refine evalNodeSame (fun o inside => ?_) (fun s slot value op slotAt holds => ?_)
        (fun v var op varAt => ?_)
      · exact ih (agree.follow (.operand ⟨node, at_, inside⟩))
      · exact ih (agree.follow (.bound ⟨node, at_, op⟩ ⟨slot, slotAt, holds⟩))
      · exact agree v var ⟨e, .refl, node, at_, op⟩ varAt

theorem evalSame {e : ExprId} (agree : p.Agree env other e) : p.eval M env e = p.eval M other e :=
  evalWithinSame agree

theorem locateWithinSame {e : ExprId} {v : VarId} (chain : Accesses p e v)
    (seen : ∀ var, p.vars.get? v = some var → env.hides var = other.hides var)
    (agree : ∀ i, p.Indexes e i → p.Agree env other i) {fuel : Nat} :
    p.locateWithin M env fuel e = p.locateWithin M other fuel e := by
  induction chain generalizing fuel with
  | @read e node v at_ op =>
    cases fuel with
    | zero => rfl
    | succ fuel =>
      simp only [Program.locateWithin, Arena.fetchOfGet at_, Bind.bind, Except.bind, op]
      cases fetched : p.vars.fetch v with
      | error failure => rfl
      | ok var => simp only [seen var (Arena.fetchOk.mp fetched)]
  | column at_ op _ ih =>
    cases fuel with
    | zero => rfl
    | succ fuel =>
      have base := @ih seen (fun i deeper => agree i (.inColumn at_ op deeper)) fuel
      have index := evalSame (M := M) (agree _ (.column at_ op))
      simp only [Program.locateWithin, Arena.fetchOfGet at_, Bind.bind, Except.bind, op, base, index]
  | element at_ op _ ih =>
    cases fuel with
    | zero => rfl
    | succ fuel =>
      have base := @ih seen (fun i deeper => agree i (.inElement at_ op deeper)) fuel
      have index := evalSame (M := M) (agree _ (.element at_ op))
      simp only [Program.locateWithin, Arena.fetchOfGet at_, Bind.bind, Except.bind, op, base, index]

theorem locateSame {e : ExprId} {v : VarId} (chain : Accesses p e v)
    (seen : ∀ var, p.vars.get? v = some var → env.hides var = other.hides var)
    (agree : ∀ i, p.Indexes e i → p.Agree env other i) : p.locate M env e = p.locate M other e :=
  locateWithinSame chain seen agree

end

end ShaderGraph
