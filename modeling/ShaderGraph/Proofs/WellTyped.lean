import ShaderGraph.Proofs.Reading
/-! The types of a program, by rules on the types of the operands alone. No call can build a node
whose type is not the one the rules give, and no later call takes it away. -/
namespace ShaderGraph

inductive Rule (p : Program) : Operation → List Ty → Ty → Prop
  | literal (value : Literal) : Rule p (.literal value) [] value.ty
  | read {v : VarId} {var : Variable} (at_ : p.vars.get? v = some var) : Rule p (.read v) [] var.ty
  | slot {s : SlotId} {slot : Slot} (at_ : p.slots.get? s = some slot) : Rule p (.slot s) [] slot.ty
  | compose {parts : List ExprId} {ts : List Ty} {ty : Ty} {kind : ScalarKind}
      (scalar : ty.scalarKind? = some kind)
      (alike : ∀ t ∈ ts, t.isMatrix = false ∧ t.scalarKind? = some kind)
      (full : ty.componentCount? = some (Build.componentSum ts)) : Rule p (.compose parts) ts ty
  | splat {part : ExprId} {kind : ScalarKind} {size : VectorSize} :
      Rule p (.compose [part]) [.scalar kind] (.vector size kind)
  | unary {op : UnaryOp} {operand : ExprId} {t ty : Ty} (result : op.resultTy t = .ok ty) :
      Rule p (.unary op operand) [t] ty
  | binary {op : BinaryOp} {left right : ExprId} {l r ty : Ty} (result : op.resultTy l r = .ok ty) :
      Rule p (.binary op left right) [l, r] ty
  | swizzle {vector : ExprId} {pattern : List Component} {size : VectorSize} {kind : ScalarKind}
      {ty : Ty} (least : 1 ≤ pattern.length) (most : pattern.length ≤ 4)
      (inside : ∀ c ∈ pattern, c.index < size.count)
      (result : Ty.ofComponents? kind pattern.length = some ty) :
      Rule p (.swizzle vector pattern) [.vector size kind] ty
  | column {matrix index : ExprId} {size : VectorSize} :
      Rule p (.column matrix index) [.matrix size, .int1] (.vector size .float)
  | element {array index : ExprId} {elem : ValueTy} {size : UInt32} :
      Rule p (.element array index) [.array elem size, .int1] elem.ty
  | call {f : Intrinsic} {args : List ExprId} {ts : List Ty} {ty : Ty}
      (result : f.resultTy ts = .ok ty) : Rule p (.call f args) ts ty
  | convert {operand : ExprId} {t ty : Ty} {count : Nat} (plain : t.isMatrix = false)
      (still : ty.isMatrix = false) (before : t.componentCount? = some count)
      (after : ty.componentCount? = some count) : Rule p (.convert operand) [t] ty
  | sample {sampler coord : ExprId} {s : Sampler} :
      Rule p (.sample sampler coord) [.sampler s, s.coordTy] s.sampleTy
  | load {storage coord : ExprId} {s : Storage} :
      Rule p (.load storage coord) [.storage s, s.coordTy] s.texelTy

/-- The call names the type of the node, so the operands alone do not give it. -/
def Operation.isChosen : Operation → Bool
  | .compose _ | .convert _ => true
  | _ => false

section

variable {p : Program}

theorem Rule.only {op : Operation} {ts : List Ty} {t u : Ty} (free : op.isChosen = false)
    (one : Rule p op ts t) (two : Rule p op ts u) : t = u := by
  cases one with
  | compose | splat | convert => cases free
  | read at_ =>
    cases two with
    | read again =>
      cases at_.symm.trans again
      rfl
  | slot at_ =>
    cases two with
    | slot again =>
      cases at_.symm.trans again
      rfl
  | unary result =>
    cases two with
    | unary again => exact Except.ok.inj (result.symm.trans again)
  | binary result =>
    cases two with
    | binary again => exact Except.ok.inj (result.symm.trans again)
  | call result =>
    cases two with
    | call again => exact Except.ok.inj (result.symm.trans again)
  | swizzle _ _ _ result =>
    cases two with
    | swizzle _ _ _ again => exact Option.some.inj (result.symm.trans again)
  | literal | column | element | sample | load =>
    cases two
    rfl

theorem componentsSome {kind : ScalarKind} {n : Nat} {ty : Ty}
    (made : Ty.ofComponents? kind n = some ty) : 1 ≤ n ∧ n ≤ 4 := by
  unfold Ty.ofComponents? at made
  split at made
  · omega
  · obtain ⟨size, found, -⟩ := Option.map_eq_some_iff.mp made
    rw [← VectorSize.countOfSome found]
    cases size <;> decide

theorem onePart {t : Ty} {kind : ScalarKind} (scalar : t.scalarKind? = some kind)
    (plain : t.isMatrix = false) (one : Build.componentSum [t] = 1) : t = .scalar kind := by
  cases t with
  | scalar k => exact congrArg Ty.scalar (Option.some.inj scalar)
  | vector size k => cases size <;> cases one
  | matrix => cases plain
  | _ => cases scalar

theorem composeRule {ty : Ty} {kind : ScalarKind} {count : Nat} {parts : List ExprId} {ts : List Ty}
    (scalar : ty.scalarKind? = some kind) (components : ty.componentCount? = some count)
    (typed : List.Forall₂ p.HasTy parts ts)
    (alike : ∀ t ∈ ts, t.isMatrix = false ∧ t.scalarKind? = some kind)
    (full : Build.fills ty count ts = true) : Rule p (.compose parts) ts ty := by
  simp only [Build.fills, Bool.or_eq_true, Bool.and_eq_true, beq_iff_eq] at full
  rcases full with sum | ⟨⟨vector, one⟩, sum⟩
  · exact .compose scalar alike (sum ▸ components)
  · -- one part of one component, spread over the vector
    obtain ⟨t, rfl⟩ := List.length_eq_one_iff.mp one
    obtain ⟨plain, same⟩ := alike t List.mem_cons_self
    cases onePart same plain sum
    cases typed with
    | cons _ none =>
      cases none
      cases ty with
      | vector size k =>
        cases scalar
        exact .splat
      | _ => cases vector

theorem Fits.rule {op : Operation} {ty : Ty} (fits : Fits p op ty) :
    ∃ ts, List.Forall₂ p.HasTy op.operands ts ∧ Rule p op ts ty := by
  cases fits with
  | literal value => exact ⟨[], .nil, .literal value⟩
  | read at_ => exact ⟨[], .nil, .read at_⟩
  | slot at_ => exact ⟨[], .nil, .slot at_⟩
  | compose scalar components typed alike full =>
    exact ⟨_, typed, composeRule scalar components typed alike full⟩
  | unary typed result => exact ⟨_, .cons typed .nil, .unary result⟩
  | binary left right result => exact ⟨_, .cons left (.cons right .nil), .binary result⟩
  | swizzle typed inside result =>
    obtain ⟨least, most⟩ := componentsSome result
    exact ⟨_, .cons typed .nil, .swizzle least most inside result⟩
  | @column _ _ t _ typed result whole =>
    cases t with
    | matrix size =>
      cases result
      exact ⟨_, .cons typed (.cons whole .nil), .column⟩
    | _ => cases result
  | @element _ _ t _ _ typed result whole =>
    cases t with
    | array elem size =>
      cases result
      exact ⟨_, .cons typed (.cons whole .nil), .element⟩
    | _ => cases result
  | call typed result => exact ⟨_, typed, .call result⟩
  | @convert _ t _ kind typed result =>
    cases t with
    | scalar k =>
      cases result
      exact ⟨_, .cons typed .nil, .convert rfl rfl rfl rfl⟩
    | vector size k =>
      cases result
      exact ⟨_, .cons typed .nil, .convert rfl rfl rfl rfl⟩
    | _ => cases result
  | sample texture place => exact ⟨_, .cons texture (.cons place .nil), .sample⟩
  | load texture place => exact ⟨_, .cons texture (.cons place .nil), .load⟩

structure WellTyped (p : Program) : Prop where
  older : ∀ e node, p.exprs.get? e = some node → ∀ o ∈ node.op.operands, o.index < e.index
  ruled : ∀ e node, p.exprs.get? e = some node → ∃ ts,
    List.Forall₂ p.HasTy node.op.operands ts ∧ Rule p node.op ts node.ty ∧
    (node.op.isChosen = false → ∀ ty, Rule p node.op ts ty → ty = node.ty)
  slots : ∀ s slot, p.slots.get? s = some slot →
    p.AtSlot slot.node s ∧ p.HasTy slot.node slot.ty ∧ ∀ e ∈ slot.value, p.HasTy e slot.ty
  stmts : ∀ s node, p.stmts.get? s = some node → Proper p node.kind

theorem reachableWellTyped (reachable : Reachable p) : WellTyped p := by
  have built := reachableBuilt reachable
  constructor
  · exact fun e node at_ => (built.expr at_).2
  · intro e node at_
    obtain ⟨ts, typed, rule⟩ := (built.expr at_).1.rule
    exact ⟨ts, typed, rule, fun free ty other => other.only free rule⟩
  · intro s slot at_
    have sound := built.slot at_
    obtain ⟨state, there⟩ := sound.reader
    exact ⟨⟨_, there, rfl⟩, ⟨_, there, rfl⟩, sound.typed⟩
  · exact fun s node at_ => built.proper at_

def typedRun : List Call :=
  [.addStage .fragment, .literal (.int 2), .compose .int3 [⟨0⟩], .compose .int3 [⟨1⟩, ⟨0⟩],
    .swizzle ⟨1⟩ "zx", .convert ⟨2⟩ .uint, .uniform "image" (.storage ⟨.d2, .vector .two .uint⟩),
    .read ⟨0⟩, .store ⟨0⟩ ⟨4⟩ ⟨2⟩ ⟨3⟩, .block ⟨0⟩ "use", .input ⟨0⟩ (some "x") .int2 (some ⟨2⟩)]

theorem reachableWellTypedStored : ∃ p stmt slot, Program.after { name := "p" } typedRun = some p ∧
    WellTyped p ∧ p.exprs.get? ⟨3⟩ = some ⟨.convert ⟨2⟩, .vector .two .uint, []⟩ ∧
    p.stmts.get? ⟨0⟩ = some stmt ∧ stmt.kind = .act (.store ⟨4⟩ ⟨2⟩ ⟨3⟩) ∧
    p.slots.get? ⟨0⟩ = some slot ∧ slot.ty = .int2 ∧ slot.value = some ⟨2⟩ :=
  have ran : Program.after { name := "p" } typedRun = some _ := rfl
  ⟨_, _, _, ran, reachableWellTyped (.after (.new "p") ran), rfl, rfl, rfl, rfl, rfl, rfl⟩

end

end ShaderGraph
