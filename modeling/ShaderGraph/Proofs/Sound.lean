import ShaderGraph.Proofs.Origin
/-! What holds of every node of a built program: expressions fit their types and are built from
older ones, statements are well typed, slots hold values of their type and are listed by their
block, and the variables a stage or a statement names stand. -/
namespace ShaderGraph

variable {p : Program}

theorem emptyGet {s : NodeSort} {α : Type} {h : Handle s} {n : α} :
    ({} : Arena s α).get? h ≠ some n := by simp [Arena.get?]

theorem Built.expr (built : Built p) {e : ExprId} {node : Expr}
    (at_ : p.exprs.get? e = some node) :
    Fits p node.op node.ty ∧ ∀ o ∈ node.op.operands, o.index < e.index := by
  induction built with
  | new name => exact absurd at_ emptyGet
  | edit before edit ih =>
    rcases edit.exprFrom at_ with old | ⟨-, fits, older⟩
    · exact ⟨(ih old).1.mono edit.grows, (ih old).2⟩
    · exact ⟨fits, older⟩

theorem Built.slotsFit (built : Built p) : p.slots.size ≤ Handle.limit := by
  induction built with
  | new name => exact Nat.zero_le _
  | edit _ edit ih =>
    cases edit with
    | slot _ _ _ room => exact Nat.le_trans (Nat.le_of_eq (Arena.pushSize ..)) room
    | fill => exact Nat.le_trans (Nat.le_of_eq (Arena.replaceSize ..)) ih
    | _ => exact ih

theorem Built.owned (built : Built p) {v : VarId} {var : Variable}
    (at_ : p.vars.get? v = some var) : var.Owned := by
  induction built generalizing var with
  | new name => exact absurd at_ emptyGet
  | edit before edit ih =>
    rcases edit.varFrom at_ with ⟨old, there, mutations, rfl⟩ | ⟨-, owned⟩
    · have owned := ih there
      exact owned
    · exact owned

theorem Built.proper (built : Built p) {s : StmtId} {node : Statement}
    (at_ : p.stmts.get? s = some node) : Proper p node.kind := by
  induction built generalizing node with
  | new name => exact absurd at_ emptyGet
  | edit before edit ih =>
    rcases edit.stmtFrom at_ with ⟨old, there, reads, rfl⟩ | ⟨-, proper⟩
    · exact (ih there).mono edit.grows
    · exact proper

structure Slot.Sound (p : Program) (s : SlotId) (slot : Slot) : Prop where
  typed : ∀ e ∈ slot.value, p.HasTy e slot.ty
  stamped : p.Stamped slot.reads
  reader : ∃ state, p.exprs.get? slot.node = some ⟨.slot s, slot.ty, state⟩
  owner : ∃ node, p.blocks.get? slot.block = some node ∧ s ∈ node.inputs

theorem Slot.Sound.mono {q : Program} {s : SlotId} {slot : Slot} (sound : slot.Sound p s)
    (grows : Grows p q) : slot.Sound q s where
  typed := fun e inside => (sound.typed e inside).mono grows
  stamped := sound.stamped.mono grows
  reader := by
    obtain ⟨state, at_⟩ := sound.reader
    obtain ⟨_, there, rfl⟩ := grows.exprs at_
    exact ⟨state, there⟩
  owner := by
    obtain ⟨node, at_, inside⟩ := sound.owner
    obtain ⟨_, there, inputs, outputs, rfl, first, -⟩ := grows.blocks at_
    exact ⟨_, there, first.subset inside⟩

theorem Built.slot (built : Built p) {s : SlotId} {slot : Slot}
    (at_ : p.slots.get? s = some slot) : slot.Sound p s := by
  induction built generalizing slot with
  | new name => exact absurd at_ emptyGet
  | edit before edit ih =>
    rcases edit.slotFrom at_ with ⟨old, there, rfl | ⟨value, reads, rfl, typed, stamped⟩⟩ |
      ⟨-, empty, unread, reader, owner⟩
    · exact (ih there).mono edit.grows
    · have sound := (ih there).mono edit.grows
      exact { sound with
        typed := fun e inside => (typed e inside).mono edit.grows
        stamped := stamped.mono edit.grows }
    · exact ⟨fun e inside => by simp [empty] at inside, unread ▸ .empty, reader, owner⟩

theorem Built.block (built : Built p) {b : BlockId} {node : Block}
    (at_ : p.blocks.get? b = some node) :
    (∀ s ∈ node.inputs, ∃ slot, p.slots.get? s = some slot ∧ slot.block = b) ∧
      ∀ v ∈ node.outputs, ∃ var, p.vars.get? v = some var := by
  induction built generalizing node with
  | new name => exact absurd at_ emptyGet
  | edit before edit ih =>
    have grows := edit.grows
    rcases edit.blockFrom at_ with ⟨old, there, -, inputs, outputs⟩ | ⟨-, inputs, outputs⟩
    · refine ⟨fun s inside => ?_, fun v inside => ?_⟩
      · rcases inputs s inside with inside | new
        · obtain ⟨slot, at_, same⟩ := (ih there).1 s inside
          obtain ⟨_, there, value, reads, rfl⟩ := grows.slots at_
          exact ⟨_, there, same⟩
        · exact new
      · rcases outputs v inside with inside | new
        · obtain ⟨var, at_⟩ := (ih there).2 v inside
          obtain ⟨_, there, -⟩ := grows.vars at_
          exact ⟨_, there⟩
        · exact new
    · simp [inputs, outputs]

theorem Built.stamped (built : Built p) {s : StmtId} {node : Statement}
    (at_ : p.stmts.get? s = some node) : p.Stamped node.reads := by
  induction built generalizing node with
  | new name => exact absurd at_ emptyGet
  | edit before edit ih =>
    rcases edit.readsFrom (fun s slot at_ => (before.slot at_).stamped) at_ with
      ⟨old, there, same⟩ | stamped
    · exact same ▸ (ih there).mono edit.grows
    · exact stamped

theorem Built.stage (built : Built p) {stage : Stage} (inside : stage ∈ p.stages) :
    (∀ v ∈ stage.inputs ++ stage.outputs ++ stage.builtins, ∃ var, p.vars.get? v = some var) ∧
      if stage.kind = .compute then ∃ w, stage.workgroup = some w ∧ w.isEmpty = false
      else stage.workgroup = none := by
  induction built generalizing stage with
  | new name => cases inside
  | edit before edit ih =>
    rcases edit.stageFrom inside with ⟨old, there, kept, vars⟩ | ⟨none, -, sized⟩
    · obtain ⟨_, _, _, rfl, -⟩ := kept
      refine ⟨fun v inside => ?_, (ih there).2⟩
      rcases vars v inside with inside | new
      · obtain ⟨var, at_⟩ := (ih there).1 v inside
        obtain ⟨_, there, -⟩ := edit.grows.vars at_
        exact ⟨_, there⟩
      · exact new
    · exact ⟨fun v inside => by simp [none] at inside, sized⟩

theorem Built.uniform (built : Built p) {v : VarId} (inside : v ∈ p.uniforms) :
    ∃ var, p.vars.get? v = some var := by
  induction built with
  | new name => cases inside
  | edit before edit ih =>
    rcases edit.uniformFrom inside with old | new
    · obtain ⟨var, at_⟩ := ih old
      obtain ⟨_, there, -⟩ := edit.grows.vars at_
      exact ⟨_, there⟩
    · exact new

end ShaderGraph
