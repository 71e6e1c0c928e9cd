import ShaderGraph.Proofs.Sound
/-! Where resources come from. No operation gives a sampler or a storage texture and no local, input
or output holds one, so an expression of such a type reads a uniform. -/
namespace ShaderGraph

theorem plainOf {passes : Ty → Bool} (samplers : ∀ s, passes (.sampler s) = false)
    (storages : ∀ s, passes (.storage s) = false) {t : Ty} (passed : passes t = true) :
    t.isResource = false := by
  cases t with
  | sampler s => exact absurd passed (by simp [samplers])
  | storage s => exact absurd passed (by simp [storages])
  | _ => rfl

theorem scalarPlain {t : Ty} {kind : ScalarKind} (scalar : t.scalarKind? = some kind) :
    t.isResource = false := by
  cases t with
  | sampler | storage => cases scalar
  | _ => rfl

theorem numericPlain {t : Ty} (numeric : t.isNumeric = true) : t.isResource = false :=
  plainOf (fun _ => rfl) (fun _ => rfl) numeric

theorem storablePlain {t : Ty} (storable : t.isStorable = true) : t.isResource = false :=
  plainOf (fun _ => rfl) (fun _ => rfl) storable

theorem floatPlain {t : Ty} (float : t.isFloat = true) : t.isResource = false :=
  plainOf (fun _ => rfl) (fun _ => rfl) float

theorem matrixPlain {t : Ty} (matrix : t.isMatrix = true) : t.isResource = false :=
  plainOf (fun _ => rfl) (fun _ => rfl) matrix

theorem valuePlain (t : ValueTy) : t.ty.isResource = false := by cases t <;> rfl

theorem unaryPlain {op : UnaryOp} {t ty : Ty} (result : op.resultTy t = .ok ty) :
    ty.isResource = false := by
  unfold UnaryOp.resultTy at result
  split at result
  · rename_i accepted
    cases result
    cases op with
    | negate => exact numericPlain accepted
    | not => rw [beq_iff_eq.mp accepted]; rfl
  · cases result

theorem arithmeticPlain {op : BinaryOp} {l r ty : Ty} (result : op.arithmeticTy l r = some ty) :
    ty.isResource = false := by
  unfold BinaryOp.arithmeticTy at result
  split at result
  · cases result
  · rename_i numeric
    simp only [Bool.or_eq_true, Bool.not_eq_true', not_or, Bool.not_eq_false] at numeric
    obtain ⟨left, right⟩ := numeric
    have kept : ty = l ∨ ty = r := by
      grind
    rcases kept with rfl | rfl
    · exact numericPlain left
    · exact numericPlain right

theorem binaryPlain {op : BinaryOp} {l r ty : Ty} (result : op.resultTy l r = .ok ty) :
    ty.isResource = false := by
  unfold BinaryOp.resultTy at result
  split at result
  · rename_i found
    cases result
    unfold BinaryOp.resultTy? at found
    split at found <;> first | exact arithmeticPlain found | (split at found <;> cases found; rfl)
  · cases result

theorem guardPlain {c : Bool} {t ty : Ty} (result : (if c = true then some t else none) = some ty)
    (plain : c = true → t.isResource = false) : ty.isResource = false := by
  split at result
  · rename_i holds
    cases result
    exact plain holds
  · cases result

section

variable {f : Intrinsic} {x y z ty : Ty}

theorem firstHolds {a b : Bool} (holds : (a && b) = true) : a = true :=
  ((Bool.and_eq_true a b).mp holds).1

theorem unaryCallPlain (result : f.unaryTy x = some ty) : ty.isResource = false := by
  cases f with
  | floor | ceil | fract | sqrt | inverseSqrt | sin | cos | tan | exp | log =>
    exact guardPlain result floatPlain
  | abs | sign => exact guardPlain result fun holds => numericPlain (firstHolds (firstHolds holds))
  | normalize => exact guardPlain result fun holds => floatPlain (firstHolds holds)
  | length | determinant => exact guardPlain result fun _ => rfl
  | transpose => exact guardPlain result matrixPlain
  | _ => cases result

theorem binaryCallPlain (result : f.binaryTy x y = some ty) : ty.isResource = false := by
  cases f with
  | pow | step => exact guardPlain result fun holds => floatPlain (firstHolds holds)
  | min | max => exact guardPlain result fun holds => numericPlain (firstHolds (firstHolds holds))
  | dot | distance => exact guardPlain result fun _ => rfl
  | cross =>
    exact guardPlain result fun holds => by rw [beq_iff_eq.mp (firstHolds holds)]; rfl
  | reflect => exact guardPlain result fun holds => floatPlain (firstHolds (firstHolds holds))
  | _ => cases result

theorem ternaryCallPlain (result : f.ternaryTy x y z = some ty) : ty.isResource = false := by
  cases f with
  | clamp =>
    exact guardPlain result fun holds => numericPlain (firstHolds (firstHolds (firstHolds holds)))
  | mix => exact guardPlain result fun holds => floatPlain (firstHolds (firstHolds holds))
  | smoothStep => exact guardPlain result fun holds => floatPlain (firstHolds (firstHolds holds))
  | _ => cases result

end

theorem callPlain {f : Intrinsic} {ts : List Ty} {ty : Ty} (result : f.resultTy ts = .ok ty) :
    ty.isResource = false := by
  unfold Intrinsic.resultTy at result
  dsimp only at result
  split at result
  · cases result
  · split at result
    · rename_i found
      cases result
      unfold Intrinsic.resultTy? at found
      split at found
      · exact unaryCallPlain found
      · exact binaryCallPlain found
      · exact ternaryCallPlain found
      · cases found
    · cases result

theorem swizzlePlain {kind : ScalarKind} {n : Nat} {ty : Ty}
    (result : Ty.ofComponents? kind n = some ty) : ty.isResource = false := by
  unfold Ty.ofComponents? at result
  split at result
  · cases result
    rfl
  · obtain ⟨size, -, rfl⟩ := Option.map_eq_some_iff.mp result
    rfl

theorem columnPlain {t ty : Ty} (result : t.column? = some ty) : ty.isResource = false := by
  cases t with
  | matrix =>
    cases result
    rfl
  | _ => cases result

theorem elementPlain {t ty : Ty} {size : UInt32} (result : t.element? = some (ty, size)) :
    ty.isResource = false := by
  cases t with
  | array elem =>
    cases result
    exact valuePlain elem
  | _ => cases result

theorem convertPlain {t ty : Ty} {kind : ScalarKind} (result : Build.convertTy t kind = .ok ty) :
    ty.isResource = false := by
  unfold Build.convertTy at result
  split at result
  · cases result
    rfl
  · cases result
    rfl
  · cases result

theorem samplePlain (s : Sampler) : s.sampleTy.isResource = false := by
  unfold Sampler.sampleTy
  split <;> rfl

def Program.Uniform (p : Program) (v : VarId) (ty : Ty) : Prop :=
  v ∈ p.uniforms ∧ ∃ var, p.vars.get? v = some var ∧ var.kind = .uniform ∧ var.ty = ty

section

variable {p : Program}

theorem Built.slotPlain (built : Built p) {s : SlotId} {slot : Slot}
    (at_ : p.slots.get? s = some slot) : slot.ty.isResource = false := by
  induction built generalizing slot with
  | new name => exact absurd at_ emptyGet
  | edit _ edit ih =>
    cases edit with
    | slot _ storable =>
      rcases Arena.getPushed at_ with ⟨-, rfl⟩ | old
      · exact storablePlain storable
      · exact ih old
    | fill =>
      obtain ⟨old, before, rfl⟩ := Arena.getReplaced at_
      have plain := ih before
      split
      · exact plain
      · exact plain
    | _ => exact ih at_

theorem Program.Uniform.mono {q : Program} {v : VarId} {ty : Ty} (uniform : p.Uniform v ty)
    (grows : Grows p q) : q.Uniform v ty := by
  obtain ⟨inside, var, at_, kind, rfl⟩ := uniform
  obtain ⟨_, there, mutations, rfl⟩ := grows.vars at_
  exact ⟨grows.uniforms.subset inside, _, there, kind, rfl⟩

theorem interfacePlain {ty : Ty} (plain : Build.isInterfaceTy ty = true) :
    ty.isResource = false := by
  simp only [Build.isInterfaceTy, Bool.and_eq_true] at plain
  exact numericPlain plain.2

theorem Built.resourceVar (built : Built p) {v : VarId} {var : Variable}
    (at_ : p.vars.get? v = some var) (resource : var.ty.isResource = true) :
    p.Uniform v var.ty := by
  induction built generalizing var with
  | new name => exact absurd at_ emptyGet
  | @edit p q before edit ih =>
    have grows := edit.grows
    have kept {old : Variable} (there : p.vars.get? v = some old) (same : old.ty = var.ty) :
        q.Uniform v var.ty := same ▸ (ih there (same ▸ resource)).mono grows
    -- a new variable that is not a uniform holds no resource
    have pushed {new : Variable} (plain : new.ty.isResource = false)
        (among : (p.vars.push new).get? v = some var) : q.Uniform v var.ty := by
      rcases Arena.getPushed among with ⟨-, rfl⟩ | old
      · rw [plain] at resource
        cases resource
      · exact kept old rfl
    cases edit with
    | uniform =>
      rcases Arena.getPushed at_ with ⟨rfl, rfl⟩ | old
      · exact ⟨List.mem_append_right _ (List.mem_singleton.mpr rfl), _, at_, rfl, rfl⟩
      · exact kept old rfl
    | stageInput plain | stageOutput plain => exact pushed (interfacePlain plain) at_
    | @builtin value => exact pushed (by cases value <;> rfl) at_
    | declare _ _ storable => exact pushed (storablePlain storable) at_
    | output _ _ storable => exact pushed (storablePlain storable) at_
    | loop => exact pushed rfl at_
    | assign =>
      obtain ⟨old, there, rfl⟩ := Arena.getReplaced at_
      exact kept there (by split <;> rfl)
    | _ => exact kept at_ rfl

theorem Built.resource (built : Built p) {e : ExprId} {node : Expr}
    (at_ : p.exprs.get? e = some node) (resource : node.ty.isResource = true) :
    ∃ v, node.op = .read v ∧ p.Uniform v node.ty := by
  obtain ⟨op, ty, state⟩ := node
  have fits : Fits p op ty := (built.expr at_).1
  have plain (other : ty.isResource = false) : ∃ v, op = .read v ∧ p.Uniform v ty := by
    rw [other] at resource
    cases resource
  cases fits with
  | read varAt => exact ⟨_, rfl, built.resourceVar varAt resource⟩
  | literal value => exact plain (by cases value <;> rfl)
  | compose scalar => exact plain (scalarPlain scalar)
  | slot slotAt => exact plain (built.slotPlain slotAt)
  | unary _ result => exact plain (unaryPlain result)
  | binary _ _ result => exact plain (binaryPlain result)
  | swizzle _ _ result => exact plain (swizzlePlain result)
  | column _ result => exact plain (columnPlain result)
  | element _ result => exact plain (elementPlain result)
  | call _ result => exact plain (callPlain result)
  | convert _ result => exact plain (convertPlain result)
  | sample => exact plain (samplePlain _)
  | load => exact plain (valuePlain _)

end

end ShaderGraph
