import ShaderGraph.Proofs.Reach
/-! Where the nodes of an edited program come from. Each stood before, changed as the edit says,
or is new, with what the checks before the edit have established of it. -/
namespace ShaderGraph

def Program.Stamped (p : Program) (set : Stamps) : Prop :=
  ∀ s ∈ set.toList, s.var.index < p.vars.size

theorem Stamps.memInsertAll {set : Stamps} {stamps : List Stamp} {s : Stamp}
    (inside : s ∈ (set.insertAll stamps).toList) : s ∈ set.toList ∨ s ∈ stamps := by
  induction stamps generalizing set with
  | nil => exact .inl inside
  | cons t rest ih =>
    rcases ih inside with old | later
    · rcases memPlace old with rfl | old
      · exact .inr List.mem_cons_self
      · exact .inl old
    · exact .inr (List.mem_cons_of_mem _ later)

theorem Grows.varsSize {p q : Program} (grows : Grows p q) : p.vars.size ≤ q.vars.size := by
  refine Nat.le_of_not_lt fun less => ?_
  obtain ⟨v, at_⟩ := Arena.atBelow (h := ⟨q.vars.size⟩) less
  obtain ⟨w, there, -⟩ := grows.vars at_
  exact absurd (Arena.below there) (Nat.lt_irrefl _)

namespace Program.Stamped

variable {p q : Program} {set other : Stamps}

theorem empty : p.Stamped .empty := fun _ inside => by cases inside

theorem mono (stamped : p.Stamped set) (grows : Grows p q) : q.Stamped set :=
  fun s inside => Nat.lt_of_lt_of_le (stamped s inside) grows.varsSize

theorem union (one : p.Stamped set) (two : p.Stamped other) : p.Stamped (set.union other) := by
  intro s inside
  rcases Stamps.memInsertAll inside with left | right
  · exact one s left
  · exact two s right

theorem ofReads {e : ExprId} (read : p.readStamps e = .ok set) : p.Stamped set := by
  simp only [readStamps, Outcome.bindOk, Outcome.pureOk] at read
  obtain ⟨node, -, stamps, found, rfl⟩ := read
  intro s inside
  rcases Stamps.memInsertAll inside with none | inside
  · cases none
  · obtain ⟨v, -, stamped⟩ := Outcome.mapMSource found inside
    simp only [stampNow, Outcome.bindOk, Outcome.pureOk, Arena.fetchOk] at stamped
    obtain ⟨var, at_, rfl⟩ := stamped
    exact Arena.below at_

theorem ofInit {init : Option ExprId} (read : Build.initReads p init = .ok set) :
    p.Stamped set := by
  cases init with
  | none =>
    cases read
    exact empty
  | some e => exact ofReads read

theorem ofTargetWithin {fuel : Nat} {e : ExprId} (read : p.targetReadsWithin fuel e = .ok set) :
    p.Stamped set := by
  induction fuel generalizing e set with
  | zero => cases read
  | succ fuel ih =>
    simp only [targetReadsWithin, Outcome.bindOk] at read
    obtain ⟨node, -, read⟩ := read
    cases op : node.op with
    | column | element =>
      simp only [op, Outcome.bindOk, Outcome.pureOk] at read
      obtain ⟨base, found, index, known, rfl⟩ := read
      exact (ih found).union (ofReads known)
    | swizzle =>
      simp only [op] at read
      exact ih read
    | _ =>
      simp only [op, Outcome.pureOk] at read
      exact read ▸ empty

theorem ofSlots {slots : List SlotId} {start : Stamps} (before : p.Stamped start)
    (held : ∀ ⦃s slot⦄, p.slots.get? s = some slot → p.Stamped slot.reads)
    (read : Build.slotReads.go p start slots = .ok set) : p.Stamped set := by
  induction slots generalizing start with
  | nil =>
    cases read
    exact before
  | cons s rest ih =>
    simp only [Build.slotReads.go, Outcome.bindOk, Arena.fetchOk] at read
    obtain ⟨slot, at_, read⟩ := read
    exact ih (before.union (held at_)) read

end Program.Stamped

theorem Grows.rootWithin {p q : Program} (grows : Grows p q) {fuel : Nat} {e : ExprId}
    {found : Option VarId} (ran : p.rootWithin fuel e = .ok found) :
    q.rootWithin fuel e = .ok found := by
  induction fuel generalizing e with
  | zero => cases ran
  | succ fuel ih =>
    simp only [Program.rootWithin, Outcome.bindOk, Arena.fetchOk] at ran ⊢
    obtain ⟨node, at_, ran⟩ := ran
    obtain ⟨_, there, rfl⟩ := grows.exprs at_
    refine ⟨node, there, ?_⟩
    cases op : node.op with
    | read v =>
      simp only [op, Outcome.bindOk, Outcome.pureOk, Arena.fetchOk] at ran ⊢
      obtain ⟨var, at_, same⟩ := ran
      obtain ⟨_, there, m, rfl⟩ := grows.vars at_
      exact ⟨_, there, same⟩
    | column | element =>
      simp only [op] at ran ⊢
      exact ih ran
    | swizzle vector pattern =>
      simp only [op] at ran ⊢
      split at ran
      · rename_i nodup
        rw [if_pos nodup]
        exact ih ran
      · rename_i twice
        rw [if_neg twice]
        exact ran
    | _ =>
      simp only [op] at ran ⊢
      exact ran

theorem Grows.root {p q : Program} (grows : Grows p q) {e : ExprId} {found : Option VarId}
    (ran : p.root e = .ok found) : q.root e = .ok found := grows.rootWithin ran

inductive Proper (p : Program) : StatementKind → Prop
  | declare {v : VarId} {var : Variable} {init : Option ExprId}
      (at_ : p.vars.get? v = some var) (typed : ∀ e ∈ init, p.HasTy e var.ty) :
      Proper p (.act (.declare v init))
  | assign {target value : ExprId} {ty : Ty} {v : VarId} (targetTyped : p.HasTy target ty)
      (valueTyped : p.HasTy value ty) (rooted : p.root target = .ok (some v)) :
      Proper p (.act (.assign target value))
  | store {storage coord value : ExprId} {s : Storage} (texture : p.HasTy storage (.storage s))
      (place : p.HasTy coord s.coordTy) (texel : p.HasTy value s.texelTy) :
      Proper p (.act (.store storage coord value))
  | branch {condition : ExprId} {accept reject : ScopeId} (typed : p.HasTy condition .bool1) :
      Proper p (.branch condition accept reject)
  | loop {counter : VarId} {var : Variable} {start stop : ExprId} {body : ScopeId}
      (at_ : p.vars.get? counter = some var) (counts : var.ty = .int1)
      (startTyped : p.HasTy start .int1) (stopTyped : p.HasTy stop .int1) :
      Proper p (.loop counter start stop body)
  | block (b : BlockId) : Proper p (.block b)

theorem Proper.mono {p q : Program} (grows : Grows p q) {kind : StatementKind}
    (proper : Proper p kind) : Proper q kind := by
  cases proper with
  | declare at_ typed =>
    obtain ⟨_, there, m, rfl⟩ := grows.vars at_
    exact .declare there fun e inside => (typed e inside).mono grows
  | assign target value rooted =>
    exact .assign (target.mono grows) (value.mono grows) (grows.root rooted)
  | store texture place texel =>
    exact .store (texture.mono grows) (place.mono grows) (texel.mono grows)
  | branch typed => exact .branch (typed.mono grows)
  | loop at_ counts start stop =>
    obtain ⟨_, there, m, rfl⟩ := grows.vars at_
    exact .loop there counts (start.mono grows) (stop.mono grows)
  | block b => exact .block b

section Origin

variable {p q : Program}

theorem Edit.exprFrom (edit : Edit p q) {e : ExprId} {node : Expr}
    (at_ : q.exprs.get? e = some node) :
    p.exprs.get? e = some node ∨
      e = p.exprs.fresh ∧ Fits q node.op node.ty ∧ ∀ o ∈ node.op.operands, o.index < e.index := by
  have grows := edit.grows
  cases edit with
  | expr fits =>
    rcases Arena.getPushed at_ with ⟨rfl, rfl⟩ | old
    · refine .inr ⟨rfl, fits.mono grows, fun o inside => ?_⟩
      obtain ⟨t, typed⟩ := fits.operand inside
      exact typed.below
    · exact .inl old
  | @slot b _ name ty =>
    rcases Arena.getPushed at_ with ⟨rfl, rfl⟩ | old
    · have stands : (p.slotted b name ty).slots.get? p.slots.fresh = some _ := Arena.getFresh ..
      have fits := Fits.slot stands
      exact .inr ⟨rfl, fits, fun _ none => by cases none⟩
    · exact .inl old
  | _ => exact .inl at_

def Variable.Owned (var : Variable) : Prop :=
  var.isMutable = true → (∃ kind, var.stage = some kind) ∧
    (var.isLexical = true → ∃ (stem : String) (n : UInt32), var.name = s!"{stem}_{n}")

theorem Edit.varFrom (edit : Edit p q) {v : VarId} {var : Variable}
    (at_ : q.vars.get? v = some var) :
    (∃ old, p.vars.get? v = some old ∧ old.Kept var) ∨ v = p.vars.fresh ∧ var.Owned := by
  cases edit with
  | uniform =>
    rcases Arena.getPushed at_ with ⟨rfl, rfl⟩ | old
    · exact .inr ⟨rfl, fun none => by cases none⟩
    · exact .inl ⟨var, old, .refl _⟩
  | stageInput =>
    rcases Arena.getPushed at_ with ⟨rfl, rfl⟩ | old
    · exact .inr ⟨rfl, fun none => by cases none⟩
    · exact .inl ⟨var, old, .refl _⟩
  | stageOutput | builtin =>
    rcases Arena.getPushed at_ with ⟨rfl, rfl⟩ | old
    · exact .inr ⟨rfl, fun _ => ⟨⟨_, rfl⟩, fun none => by cases none⟩⟩
    · exact .inl ⟨var, old, .refl _⟩
  | declare | loop | output =>
    rcases Arena.getPushed at_ with ⟨rfl, rfl⟩ | old
    · exact .inr ⟨rfl, fun _ => ⟨⟨_, rfl⟩, fun _ => ⟨_, _, rfl⟩⟩⟩
    · exact .inl ⟨var, old, .refl _⟩
  | assign =>
    obtain ⟨old, before, rfl⟩ := Arena.getReplaced at_
    refine .inl ⟨old, before, ?_⟩
    split
    · exact ⟨_, rfl⟩
    · exact .refl old
  | _ => exact .inl ⟨var, at_, .refl _⟩

theorem Edit.stmtFrom (edit : Edit p q) {s : StmtId} {node : Statement}
    (at_ : q.stmts.get? s = some node) :
    (∃ old, p.stmts.get? s = some old ∧ old.Kept node) ∨
      s = p.stmts.fresh ∧ Proper q node.kind := by
  have grows := edit.grows
  cases edit with
  | declare _ typed =>
    rcases Arena.getPushed at_ with ⟨rfl, rfl⟩ | old
    · exact .inr ⟨rfl, .declare (Arena.getFresh ..) fun e inside => (typed e inside).mono grows⟩
    · exact .inl ⟨_, old, .refl _⟩
  | output =>
    rcases Arena.getPushed at_ with ⟨rfl, rfl⟩ | old
    · exact .inr ⟨rfl, .declare (Arena.getFresh ..) fun _ none => by cases none⟩
    · exact .inl ⟨_, old, .refl _⟩
  | assign _ target value rooted =>
    rcases Arena.getPushed at_ with ⟨rfl, rfl⟩ | old
    · exact .inr ⟨rfl, .mono grows (.assign target value rooted)⟩
    · exact .inl ⟨_, old, .refl _⟩
  | store _ texture place texel =>
    rcases Arena.getPushed at_ with ⟨rfl, rfl⟩ | old
    · exact .inr ⟨rfl, .mono grows (.store texture place texel)⟩
    · exact .inl ⟨_, old, .refl _⟩
  | branch _ typed =>
    rcases Arena.getPushed at_ with ⟨rfl, rfl⟩ | old
    · exact .inr ⟨rfl, .branch (typed.mono grows)⟩
    · exact .inl ⟨_, old, .refl _⟩
  | loop _ start stop =>
    rcases Arena.getPushed at_ with ⟨rfl, rfl⟩ | old
    · exact .inr ⟨rfl, .loop (Arena.getFresh ..) rfl (start.mono grows) (stop.mono grows)⟩
    · exact .inl ⟨_, old, .refl _⟩
  | block =>
    rcases Arena.getPushed at_ with ⟨rfl, rfl⟩ | old
    · exact .inr ⟨rfl, .block _⟩
    · exact .inl ⟨_, old, .refl _⟩
  | fill =>
    obtain ⟨old, before, rfl⟩ := Arena.getReplaced at_
    refine .inl ⟨old, before, ?_⟩
    split
    · exact ⟨_, rfl⟩
    · exact .refl old
  | _ => exact .inl ⟨node, at_, .refl node⟩

theorem Edit.slotFrom (edit : Edit p q) {s : SlotId} {slot : Slot}
    (at_ : q.slots.get? s = some slot) :
    (∃ old, p.slots.get? s = some old ∧ (slot = old ∨
      ∃ value reads, slot = { old with value, reads } ∧ (∀ e ∈ value, p.HasTy e old.ty) ∧
        p.Stamped reads)) ∨
      s = p.slots.fresh ∧ slot.value = none ∧ slot.reads = .empty ∧
        (∃ state, q.exprs.get? slot.node = some ⟨.slot s, slot.ty, state⟩) ∧
        ∃ node, q.blocks.get? slot.block = some node ∧ s ∈ node.inputs := by
  cases edit with
  | @slot b node name ty found =>
    rcases Arena.getPushed at_ with ⟨rfl, rfl⟩ | old
    · refine .inr ⟨rfl, rfl, rfl, ⟨[], Arena.getFresh ..⟩, ?_⟩
      refine ⟨_, Arena.getReplaceOld found _, ?_⟩
      rw [if_pos rfl]
      exact List.mem_append_right _ List.mem_cons_self
    · exact .inl ⟨slot, old, .inl rfl⟩
  | fill found typed known =>
    obtain ⟨old, before, rfl⟩ := Arena.getReplaced at_
    refine .inl ⟨old, before, ?_⟩
    split
    · rename_i here
      subst here
      cases found.symm.trans before
      exact .inr ⟨_, _, rfl, typed, .ofInit known⟩
    · exact .inl rfl
  | _ => exact .inl ⟨slot, at_, .inl rfl⟩

theorem Edit.blockFrom (edit : Edit p q) {b : BlockId} {node : Block}
    (at_ : q.blocks.get? b = some node) :
    (∃ old, p.blocks.get? b = some old ∧ old.Kept node ∧
      (∀ s ∈ node.inputs, s ∈ old.inputs ∨
        ∃ slot, q.slots.get? s = some slot ∧ slot.block = b) ∧
      ∀ v ∈ node.outputs, v ∈ old.outputs ∨ ∃ var, q.vars.get? v = some var) ∨
      b = p.blocks.fresh ∧ node.inputs = [] ∧ node.outputs = [] := by
  cases edit with
  | block =>
    rcases Arena.getPushed at_ with ⟨rfl, rfl⟩ | old
    · exact .inr ⟨rfl, rfl, rfl⟩
    · exact .inl ⟨_, old, .refl _, fun s inside => .inl inside, fun v inside => .inl inside⟩
  | slot =>
    obtain ⟨old, before, rfl⟩ := Arena.getReplaced at_
    refine .inl ⟨old, before, ?_⟩
    split
    · rename_i here
      refine ⟨⟨_, _, rfl, List.prefix_append .., List.prefix_rfl⟩, fun s inside => ?_,
        fun v inside => .inl inside⟩
      rcases List.mem_append.mp inside with old | new
      · exact .inl old
      · rw [List.mem_singleton.mp new]
        exact .inr ⟨_, Arena.getFresh .., here⟩
    · exact ⟨.refl _, fun s inside => .inl inside, fun v inside => .inl inside⟩
  | output =>
    obtain ⟨old, before, rfl⟩ := Arena.getReplaced at_
    refine .inl ⟨old, before, ?_⟩
    split
    · refine ⟨⟨_, _, rfl, List.prefix_rfl, List.prefix_append ..⟩, fun s inside => .inl inside,
        fun v inside => ?_⟩
      rcases List.mem_append.mp inside with old | new
      · exact .inl old
      · rw [List.mem_singleton.mp new]
        exact .inr ⟨_, Arena.getFresh ..⟩
    · exact ⟨.refl _, fun s inside => .inl inside, fun v inside => .inl inside⟩
  | _ =>
    exact .inl ⟨node, at_, .refl _, fun s inside => .inl inside, fun v inside => .inl inside⟩

theorem Edit.readsFrom (edit : Edit p q)
    (held : ∀ ⦃s slot⦄, p.slots.get? s = some slot → p.Stamped slot.reads) {s : StmtId}
    {node : Statement} (at_ : q.stmts.get? s = some node) :
    (∃ old, p.stmts.get? s = some old ∧ node.reads = old.reads) ∨ q.Stamped node.reads := by
  have grows := edit.grows
  cases edit with
  | @declare scope home stem ty init reads _ _ _ known =>
    rcases Arena.getPushed at_ with ⟨rfl, rfl⟩ | old
    · have stamped := Program.Stamped.ofInit known
      exact .inr stamped
    · exact .inl ⟨_, old, rfl⟩
  | assign _ _ _ _ _ value target =>
    rcases Arena.getPushed at_ with ⟨rfl, rfl⟩ | old
    · exact .inr (.mono (.union (.ofReads value) (.ofTargetWithin target)) grows)
    · exact .inl ⟨_, old, rfl⟩
  | store _ _ _ _ coord value =>
    rcases Arena.getPushed at_ with ⟨rfl, rfl⟩ | old
    · exact .inr (.mono (.union (.ofReads coord) (.ofReads value)) grows)
    · exact .inl ⟨_, old, rfl⟩
  | branch _ _ known =>
    rcases Arena.getPushed at_ with ⟨rfl, rfl⟩ | old
    · exact .inr (.mono (.ofReads known) grows)
    · exact .inl ⟨_, old, rfl⟩
  | loop _ _ _ start stop =>
    rcases Arena.getPushed at_ with ⟨rfl, rfl⟩ | old
    · have stamped := (Program.Stamped.ofReads start).union (.ofReads stop)
      exact .inr stamped
    · exact .inl ⟨_, old, rfl⟩
  | block | output =>
    rcases Arena.getPushed at_ with ⟨rfl, rfl⟩ | old
    · exact .inr .empty
    · exact .inl ⟨_, old, rfl⟩
  | @fill target slot value reads all _ _ _ known _ gathered =>
    obtain ⟨old, before, rfl⟩ := Arena.getReplaced at_
    split
    · have stamped : (p.bound target value reads).Stamped all := by
        refine .ofSlots .empty (fun s slot there => ?_) gathered
        obtain ⟨was, stood, rfl⟩ := Arena.getReplaced there
        split
        · exact .ofInit known
        · exact held stood
      exact .inr stamped
    · exact .inl ⟨old, before, rfl⟩
  | _ => exact .inl ⟨node, at_, rfl⟩

theorem Edit.stageFrom (edit : Edit p q) {stage : Stage} (inside : stage ∈ q.stages) :
    (∃ old ∈ p.stages, old.Kept stage ∧
      ∀ v ∈ stage.inputs ++ stage.outputs ++ stage.builtins,
        v ∈ old.inputs ++ old.outputs ++ old.builtins ∨ ∃ var, q.vars.get? v = some var) ∨
      stage.inputs ++ stage.outputs ++ stage.builtins = [] ∧
        (∃ name, q.scopes.get? stage.main = some ⟨name, stage.kind, none, none, []⟩) ∧
        if stage.kind = .compute then ∃ w, stage.workgroup = some w ∧ w.isEmpty = false
        else stage.workgroup = none := by
  cases edit with
  | stage _ sized =>
    rcases List.mem_append.mp inside with old | new
    · exact .inl ⟨stage, old, .refl _, fun v inside => .inl inside⟩
    · rw [List.mem_singleton.mp new]
      exact .inr ⟨rfl, ⟨_, Arena.getFresh ..⟩, sized⟩
  | stageInput | stageOutput | builtin =>
    obtain ⟨old, before, rfl⟩ := List.mem_map.mp inside
    refine .inl ⟨old, before, ?_⟩
    split
    · refine ⟨⟨_, _, _, rfl, ?_⟩, fun v inside => ?_⟩
      · simp
      · by_cases new : v = p.vars.fresh
        · rw [new]
          exact .inr ⟨_, Arena.getFresh ..⟩
        · simp only [List.mem_append, List.mem_singleton, new, or_false] at inside ⊢
          exact .inl inside
    · exact ⟨.refl _, fun v inside => .inl inside⟩
  | _ => exact .inl ⟨stage, inside, .refl _, fun v inside => .inl inside⟩

theorem Edit.uniformFrom (edit : Edit p q) {v : VarId} (inside : v ∈ q.uniforms) :
    v ∈ p.uniforms ∨ ∃ var, q.vars.get? v = some var := by
  cases edit with
  | uniform =>
    rcases List.mem_append.mp inside with old | new
    · exact .inl old
    · rw [List.mem_singleton.mp new]
      exact .inr ⟨_, Arena.getFresh ..⟩
  | _ => exact .inl inside

end Origin

end ShaderGraph
