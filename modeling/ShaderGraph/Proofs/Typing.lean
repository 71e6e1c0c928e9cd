import ShaderGraph.Proofs.Build.Steps
/-! The typing rules of expressions, stated apart from the checks that apply them. What a check
accepts has a derivation, and derivations outlive the growth of the program. -/
namespace ShaderGraph

def Program.HasTy (p : Program) (e : ExprId) (t : Ty) : Prop :=
  ∃ node, p.exprs.get? e = some node ∧ node.ty = t

namespace Program.HasTy

variable {p q : Program} {e : ExprId} {t : Ty}

theorem mono (typed : p.HasTy e t) (grows : Grows p q) : q.HasTy e t := by
  obtain ⟨n, at_, ty⟩ := typed
  obtain ⟨m, there, rfl⟩ := grows.exprs at_
  exact ⟨n, there, ty⟩

theorem below (typed : p.HasTy e t) : e.index < p.exprs.size := by
  obtain ⟨n, at_, -⟩ := typed
  exact Arena.below at_

end Program.HasTy

inductive Fits (p : Program) : Operation → Ty → Prop
  | literal (value : Literal) : Fits p (.literal value) value.ty
  | compose {ty : Ty} {kind : ScalarKind} {count : Nat} {parts : List ExprId} {ts : List Ty}
      (scalar : ty.scalarKind? = some kind) (components : ty.componentCount? = some count)
      (typed : List.Forall₂ p.HasTy parts ts)
      (alike : ∀ t ∈ ts, t.isMatrix = false ∧ t.scalarKind? = some kind)
      (full : Build.fills ty count ts = true) : Fits p (.compose parts) ty
  | read {v : VarId} {var : Variable} (at_ : p.vars.get? v = some var) : Fits p (.read v) var.ty
  | slot {s : SlotId} {slot : Slot} (at_ : p.slots.get? s = some slot) : Fits p (.slot s) slot.ty
  | unary {op : UnaryOp} {operand : ExprId} {t ty : Ty} (typed : p.HasTy operand t)
      (result : op.resultTy t = .ok ty) : Fits p (.unary op operand) ty
  | binary {op : BinaryOp} {left right : ExprId} {l r ty : Ty} (leftTyped : p.HasTy left l)
      (rightTyped : p.HasTy right r) (result : op.resultTy l r = .ok ty) :
      Fits p (.binary op left right) ty
  | swizzle {vector : ExprId} {size : VectorSize} {kind : ScalarKind} {pattern : List Component}
      {ty : Ty} (typed : p.HasTy vector (.vector size kind))
      (inside : ∀ c ∈ pattern, c.index < size.count)
      (result : Ty.ofComponents? kind pattern.length = some ty) :
      Fits p (.swizzle vector pattern) ty
  | column {matrix index : ExprId} {t ty : Ty} (typed : p.HasTy matrix t)
      (result : t.column? = some ty) (whole : p.HasTy index .int1) : Fits p (.column matrix index) ty
  | element {array index : ExprId} {t ty : Ty} {size : UInt32} (typed : p.HasTy array t)
      (result : t.element? = some (ty, size)) (whole : p.HasTy index .int1) :
      Fits p (.element array index) ty
  | call {f : Intrinsic} {args : List ExprId} {ts : List Ty} {ty : Ty}
      (typed : List.Forall₂ p.HasTy args ts) (result : f.resultTy ts = .ok ty) :
      Fits p (.call f args) ty
  | convert {operand : ExprId} {t ty : Ty} {kind : ScalarKind} (typed : p.HasTy operand t)
      (result : Build.convertTy t kind = .ok ty) : Fits p (.convert operand) ty
  | sample {sampler coord : ExprId} {s : Sampler} (texture : p.HasTy sampler (.sampler s))
      (place : p.HasTy coord s.coordTy) : Fits p (.sample sampler coord) s.sampleTy
  | load {storage coord : ExprId} {s : Storage} (texture : p.HasTy storage (.storage s))
      (place : p.HasTy coord s.coordTy) : Fits p (.load storage coord) s.texelTy

theorem hasTysMono {p q : Program} (grows : Grows p q) {es : List ExprId} {ts : List Ty}
    (typed : List.Forall₂ p.HasTy es ts) : List.Forall₂ q.HasTy es ts :=
  typed.imp fun _ _ one => one.mono grows

theorem Fits.mono {p q : Program} (grows : Grows p q) {op : Operation} {ty : Ty}
    (fits : Fits p op ty) : Fits q op ty := by
  cases fits with
  | literal value => exact .literal value
  | compose scalar components typed alike full =>
    exact .compose scalar components (hasTysMono grows typed) alike full
  | read at_ =>
    obtain ⟨w, there, m, rfl⟩ := grows.vars at_
    have fits := Fits.read there
    exact fits
  | slot at_ =>
    obtain ⟨w, there, v, r, rfl⟩ := grows.slots at_
    have fits := Fits.slot there
    exact fits
  | unary typed result => exact .unary (typed.mono grows) result
  | binary left right result => exact .binary (left.mono grows) (right.mono grows) result
  | swizzle typed inside result => exact .swizzle (typed.mono grows) inside result
  | column typed result whole => exact .column (typed.mono grows) result (whole.mono grows)
  | element typed result whole => exact .element (typed.mono grows) result (whole.mono grows)
  | call typed result => exact .call (hasTysMono grows typed) result
  | convert typed result => exact .convert (typed.mono grows) result
  | sample texture place => exact .sample (texture.mono grows) (place.mono grows)
  | load texture place => exact .load (texture.mono grows) (place.mono grows)

theorem forallOperand {α β : Type} {R : α → β → Prop} {as : List α} {bs : List β}
    (all : List.Forall₂ R as bs) {a : α} (inside : a ∈ as) : ∃ b, R a b := by
  induction all with
  | nil => cases inside
  | cons head _ ih =>
    rcases List.mem_cons.mp inside with rfl | later
    · exact ⟨_, head⟩
    · exact ih later

theorem Fits.operand {p : Program} {op : Operation} {ty : Ty} (fits : Fits p op ty) {e : ExprId}
    (inside : e ∈ op.operands) : ∃ t, p.HasTy e t := by
  cases fits with
  | literal | read | slot => cases inside
  | compose _ _ typed => exact forallOperand typed inside
  | call typed => exact forallOperand typed inside
  | unary typed | swizzle typed | convert typed =>
    simp only [Operation.operands, List.mem_singleton] at inside
    exact inside ▸ ⟨_, typed⟩
  | binary one two | column one _ two | element one _ two | sample one two | load one two =>
    simp only [Operation.operands, List.mem_cons, List.not_mem_nil, or_false] at inside
    rcases inside with rfl | rfl
    · exact ⟨_, one⟩
    · exact ⟨_, two⟩

theorem Fits.readAt {p : Program} {v : VarId} {ty : Ty} (fits : Fits p (.read v) ty) :
    ∃ var, p.vars.get? v = some var ∧ var.ty = ty := by
  cases fits with
  | read at_ => exact ⟨_, at_, rfl⟩

theorem Fits.slotAt {p : Program} {s : SlotId} {ty : Ty} (fits : Fits p (.slot s) ty) :
    ∃ slot, p.slots.get? s = some slot ∧ slot.ty = ty := by
  cases fits with
  | slot at_ => exact ⟨_, at_, rfl⟩

namespace Build

variable {p : Program}

theorem typeOfOk {e : ExprId} {t : Ty} : p.typeOf e = .ok t ↔ p.HasTy e t := by
  simp only [Program.typeOf, Outcome.mapOk, Arena.findOk, Program.HasTy]

theorem operandTyOk {e : ExprId} {t : Ty} : p.operandTy e = .ok t ↔ p.HasTy e t := by
  simp only [Program.operandTy, Outcome.mapOk, Arena.fetchOk, Program.HasTy]

theorem mismatchOk {α : Type} {expected found : String} {a : α} :
    (mismatch expected found : Outcome α) = .ok a ↔ False := Outcome.rejectOk

theorem ofResultOk {α : Type} {x : Except Error α} {a : α} :
    Outcome.ofResult x = .ok a ↔ x = .ok a := by
  cases x <;> simp [Outcome.ofResult, reject]

theorem checkIndexOk {index : ExprId} {u : Unit} : checkIndex p index = .ok u ↔ p.HasTy index .int1 := by
  simp only [checkIndex, Outcome.bindOk, typeOfOk]
  constructor
  · intro h
    obtain ⟨t, typed, rest⟩ := h
    split at rest
    · rename_i same
      exact same ▸ typed
    · exact (mismatchOk.mp rest).elim
  · exact fun typed => ⟨_, typed, by rw [if_pos rfl]; rfl⟩

theorem partTysOk {ty : Ty} {kind : ScalarKind} {parts : List ExprId} {ts : List Ty}
    (read : partTys p ty kind parts = .ok ts) :
    List.Forall₂ p.HasTy parts ts ∧ ∀ t ∈ ts, t.isMatrix = false ∧ t.scalarKind? = some kind := by
  induction parts generalizing ts with
  | nil =>
    cases read
    exact ⟨.nil, fun _ inside => by cases inside⟩
  | cons part rest ih =>
    simp only [partTys, Outcome.bindOk, typeOfOk] at read
    obtain ⟨t, typed, read⟩ := read
    split at read
    · exact (mismatchOk.mp read).elim
    · rename_i fitting
      simp only [Outcome.bindOk, Outcome.pureOk] at read
      obtain ⟨us, found, rfl⟩ := read
      obtain ⟨tail, alike⟩ := ih found
      simp only [Bool.or_eq_true, not_or, bne_iff_ne, ne_eq, not_not, Bool.not_eq_true] at fitting
      refine ⟨.cons typed tail, fun u inside => ?_⟩
      rcases List.mem_cons.mp inside with rfl | later
      · exact fitting
      · exact alike u later

theorem checkComposeOk {ty : Ty} {parts : List ExprId} {u : Unit}
    (checked : checkCompose p ty parts = .ok u) : Fits p (.compose parts) ty := by
  unfold checkCompose at checked
  split at checked
  · rename_i kind count scalar components
    rw [Outcome.bindOk] at checked
    obtain ⟨ts, found, checked⟩ := checked
    split at checked
    · rename_i full
      obtain ⟨typed, alike⟩ := partTysOk found
      exact .compose scalar components typed alike full
    · exact (mismatchOk.mp checked).elim
  · exact (Outcome.rejectOk.mp checked).elim

theorem checkSwizzleOk {vector : ExprId} {t ty : Ty} {text : String} {pattern : List Component}
    (typed : p.HasTy vector t) (checked : checkSwizzle t text = .ok (pattern, ty)) :
    Fits p (.swizzle vector pattern) ty := by
  unfold checkSwizzle at checked
  split at checked
  · rename_i size kind
    simp only [Outcome.bindOk] at checked
    obtain ⟨cs, parsed, checked⟩ := checked
    split at checked
    · exact (Outcome.rejectOk.mp checked).elim
    · rename_i none
      split at checked
      · rename_i found
        cases checked
        refine .swizzle typed (fun c inside => ?_) found
        simpa using List.find?_eq_none.mp none c inside
      · exact (Outcome.rejectOk.mp checked).elim
  · exact (mismatchOk.mp checked).elim

theorem typesOfOk {args : List ExprId} {ts : List Ty} (read : typesOf p args = .ok ts) :
    List.Forall₂ p.HasTy args ts := by
  have each : List.Forall₂ (fun e t => p.typeOf e = .ok t) args ts := Outcome.mapMOk.mp read
  exact each.imp fun _ _ typed => typeOfOk.mp typed

theorem checkSampleOk {sampler coord : ExprId} {s : Sampler}
    (checked : checkSample p sampler coord = .ok s) :
    p.HasTy sampler (.sampler s) ∧ p.HasTy coord s.coordTy := by
  simp only [checkSample, Outcome.bindOk, typeOfOk] at checked
  obtain ⟨t, typed, checked⟩ := checked
  split at checked
  · simp only [Outcome.bindOk, typeOfOk] at checked
    obtain ⟨u, placed, checked⟩ := checked
    split at checked
    · rename_i same
      cases checked
      exact ⟨typed, same ▸ placed⟩
    · exact (mismatchOk.mp checked).elim
  · exact (mismatchOk.mp checked).elim

theorem checkStorageOk {storage coord : ExprId} {s : Storage}
    (checked : checkStorage p storage coord = .ok s) :
    p.HasTy storage (.storage s) ∧ p.HasTy coord s.coordTy := by
  simp only [checkStorage, Outcome.bindOk, typeOfOk] at checked
  obtain ⟨t, typed, checked⟩ := checked
  split at checked
  · simp only [Outcome.bindOk, typeOfOk] at checked
    obtain ⟨u, placed, checked⟩ := checked
    split at checked
    · rename_i same
      cases checked
      exact ⟨typed, same ▸ placed⟩
    · exact (mismatchOk.mp checked).elim
  · exact (mismatchOk.mp checked).elim

theorem checkInitOk {ty : Ty} {init : Option ExprId} {u : Unit} :
    checkInit p ty init = .ok u ↔ ∀ e ∈ init, p.HasTy e ty := by
  cases init with
  | none => simp [checkInit]
  | some e =>
    simp only [checkInit, Outcome.bindOk, typeOfOk, Option.mem_some_iff, forall_eq']
    constructor
    · intro h
      obtain ⟨t, typed, rest⟩ := h
      split at rest
      · rename_i same
        exact same ▸ typed
      · exact (mismatchOk.mp rest).elim
    · exact fun typed => ⟨_, typed, by rw [if_pos rfl]; rfl⟩

end Build

end ShaderGraph
