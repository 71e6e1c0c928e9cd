import ShaderGraph.Proofs.Cycles
import ShaderGraph.Proofs.Reach
/-! Rendering ends with a text, or names a slot on a cycle that the expression leads to. A walk
opens no slot inside itself and ends within the depth bound, and the types of the operands are
those the texture forms ask for. Where every slot is bound and none reaches itself there is always
a text, also for what an assignment is made through. -/
namespace ShaderGraph

open Relation

inductive Rooted (p : Program) : ExprId → VarId → Prop
  | read {e : ExprId} {node : Expr} {v : VarId} {var : Variable}
      (at_ : p.exprs.get? e = some node) (op : node.op = .read v)
      (varAt : p.vars.get? v = some var) (mutable_ : var.isMutable = true) : Rooted p e v
  | column {e base index : ExprId} {node : Expr} {v : VarId} (at_ : p.exprs.get? e = some node)
      (op : node.op = .column base index) (chain : Rooted p base v) : Rooted p e v
  | element {e base index : ExprId} {node : Expr} {v : VarId} (at_ : p.exprs.get? e = some node)
      (op : node.op = .element base index) (chain : Rooted p base v) : Rooted p e v
  | swizzle {e base : ExprId} {pattern : List Component} {node : Expr} {v : VarId}
      (at_ : p.exprs.get? e = some node) (op : node.op = .swizzle base pattern)
      (once : pattern.Nodup) (chain : Rooted p base v) : Rooted p e v

section

variable {p : Program} {sp : Spelling}

theorem rootedOfWithin {fuel : Nat} {e : ExprId} {v : VarId}
    (found : p.rootWithin fuel e = .ok (some v)) : Rooted p e v := by
  induction fuel generalizing e with
  | zero => cases found
  | succ fuel ih =>
    simp only [Program.rootWithin, Outcome.bindOk, Arena.fetchOk] at found
    obtain ⟨node, at_, found⟩ := found
    cases op : node.op with
    | read w =>
      simp only [op, Outcome.bindOk, Outcome.pureOk, Arena.fetchOk] at found
      obtain ⟨var, varAt, same⟩ := found
      split at same
      · rename_i mutable_
        cases same
        exact .read at_ op varAt mutable_
      · cases same
    | column base index =>
      simp only [op] at found
      exact .column at_ op (ih found)
    | element base index =>
      simp only [op] at found
      exact .element at_ op (ih found)
    | swizzle base pattern =>
      simp only [op] at found
      split at found
      · rename_i once
        exact .swizzle at_ op once (ih found)
      · cases found
    | _ =>
      simp only [op, Outcome.pureOk] at found
      cases found

theorem rootedOf {e : ExprId} {v : VarId} (found : p.root e = .ok (some v)) : Rooted p e v :=
  rootedOfWithin found

theorem Rooted.chain {e : ExprId} {v : VarId} {node : Expr} (rooted : Rooted p e v)
    (at_ : p.exprs.get? e = some node) :
    match node.op with
    | .read w => w = v ∧ ∃ var, p.vars.get? v = some var ∧ var.isMutable = true
    | .column base _ | .element base _ => Rooted p base v
    | .swizzle base pattern => pattern.Nodup ∧ Rooted p base v
    | _ => False := by
  cases rooted with
  | read again op varAt mutable_ =>
    cases at_.symm.trans again
    rw [op]
    exact ⟨rfl, _, varAt, mutable_⟩
  | column again op deeper | element again op deeper =>
    cases at_.symm.trans again
    rw [op]
    exact deeper
  | swizzle again op once deeper =>
    cases at_.symm.trans again
    rw [op]
    exact ⟨once, deeper⟩

theorem Rooted.stands {e : ExprId} {v : VarId} (rooted : Rooted p e v) : e.index < p.exprs.size := by
  cases rooted with
  | read at_ | column at_ | element at_ | swizzle at_ => exact Arena.below at_

theorem Rooted.variable {e : ExprId} {v : VarId} (rooted : Rooted p e v) :
    ∃ var, p.vars.get? v = some var ∧ var.isMutable = true := by
  induction rooted with
  | read _ _ varAt mutable_ => exact ⟨_, varAt, mutable_⟩
  | column _ _ _ ih | element _ _ _ ih | swizzle _ _ _ _ ih => exact ih

def Program.Filled (p : Program) : Prop :=
  ∀ s slot, p.slots.get? s = some slot → ∃ value, slot.value = some value

theorem indexTextOk {index : ExprId} (below : index.index < p.exprs.size) :
    ∃ constant, ∀ text, p.indexText index text = .ok ⟨text, constant⟩ := by
  obtain ⟨node, at_⟩ := Arena.atBelow below
  simp only [Program.indexText, Arena.fetchOfGet at_, Bind.bind, Except.bind]
  cases node.op with
  | literal l => exact ⟨l.index?, fun _ => rfl⟩
  | _ => exact ⟨none, fun _ => rfl⟩

theorem samplerTyOk {e : ExprId} {s : Sampler} (typed : p.HasTy e (.sampler s)) :
    p.samplerTy e = .ok s := by
  simp only [Program.samplerTy, Build.operandTyOk.mpr typed, Bind.bind, Except.bind]
  rfl

theorem storageTyOk {e : ExprId} {s : Storage} (typed : p.HasTy e (.storage s)) :
    p.storageTy e = .ok s := by
  simp only [Program.storageTy, Build.operandTyOk.mpr typed, Bind.bind, Except.bind]
  rfl

def oneText (finish : String → String) (texts : List String) : String := finish (texts.headD "")

def twoTexts (finish : String → String → String) (texts : List String) : String :=
  finish (texts.headD "") (texts.tail.headD "")

theorem mapOne {f : ExprId → Outcome String} {o : ExprId} (finish : String → String) :
    (do return finish (← f o)) = ([o].mapM f).map (oneText finish) := by
  rw [List.mapM_cons]
  cases f o <;> rfl

theorem mapTwo {f : ExprId → Outcome String} {a b : ExprId} (finish : String → String → String) :
    (do let l ← f a
        let r ← f b
        return finish l r) = ([a, b].mapM f).map (twoTexts finish) := by
  simp only [List.mapM_cons, List.mapM_nil]
  cases f a with
  | error => rfl
  | ok => cases f b <;> rfl

theorem Built.nodeParts (built : Built p) {e : ExprId} {node : Expr}
    (at_ : p.exprs.get? e = some node) (plain : ∀ s, node.op ≠ .slot s) (sp : Spelling) :
    ∃ finish : List String → String, ∀ (sub : List SlotId → ExprId → Outcome String) opened,
      p.renderNode sp sub opened node = (node.op.operands.mapM (sub opened)).map finish := by
  have fits := (built.expr at_).1
  have below : ∀ o ∈ node.op.operands, o.index < p.exprs.size :=
    fun o inside => (built.operand ⟨node, at_, inside⟩).2
  obtain ⟨op, ty, state⟩ := node
  cases fits with
  | literal value => exact ⟨fun _ => sp.literal value, fun _ _ => rfl⟩
  | @compose _ _ _ parts =>
    refine ⟨sp.compose ty, fun sub opened => ?_⟩
    simp only [Program.renderNode, Operation.operands]
    cases parts.mapM (sub opened) <;> rfl
  | @read v var varAt =>
    refine ⟨fun _ => sp.read var, fun sub opened => ?_⟩
    simp only [Program.renderNode, Arena.fetchOfGet varAt]
    rfl
  | @slot s => exact absurd rfl (plain s)
  | @unary op => exact ⟨oneText (sp.unary op), fun sub opened => mapOne (sp.unary op)⟩
  | @binary op _ _ l r _ leftTyped rightTyped =>
    refine ⟨twoTexts (sp.binary op l r), fun sub opened => Eq.trans ?_ (mapTwo (sp.binary op l r))⟩
    simp only [Program.renderNode, Build.operandTyOk.mpr leftTyped,
      Build.operandTyOk.mpr rightTyped]
    rfl
  | @swizzle _ _ _ pattern =>
    exact ⟨oneText (sp.swizzle · pattern), fun sub opened => mapOne (sp.swizzle · pattern)⟩
  | @column base index =>
    obtain ⟨constant, made⟩ := indexTextOk (below index (by simp [Operation.operands]))
    refine ⟨twoTexts fun m i => sp.column m ⟨i, constant⟩, fun sub opened => Eq.trans ?_ (mapTwo _)⟩
    simp only [Program.renderNode, made]
    rfl
  | @element base index =>
    obtain ⟨constant, made⟩ := indexTextOk (below index (by simp [Operation.operands]))
    refine ⟨twoTexts fun a i => sp.element a ⟨i, constant⟩,
      fun sub opened => Eq.trans ?_ (mapTwo _)⟩
    simp only [Program.renderNode, made]
    rfl
  | @call f args =>
    refine ⟨sp.call f, fun sub opened => ?_⟩
    simp only [Program.renderNode, Operation.operands]
    cases args.mapM (sub opened) <;> rfl
  | convert => exact ⟨oneText (sp.convert ty), fun sub opened => mapOne (sp.convert ty)⟩
  | @sample _ _ s texture =>
    refine ⟨twoTexts fun text coord => sp.sample text s coord,
      fun sub opened => Eq.trans ?_ (mapTwo _)⟩
    simp only [Program.renderNode, samplerTyOk texture]
    rfl
  | @load _ _ s texture =>
    refine ⟨twoTexts fun text coord => sp.load text s coord,
      fun sub opened => Eq.trans ?_ (mapTwo _)⟩
    simp only [Program.renderNode, storageTyOk texture]
    rfl

def Program.Placed (p : Program) (sp : Spelling) : Prop :=
  ∀ ⦃s slot⦄, p.slots.get? s = some slot → slot.value = none →
    ∀ block, ∃ text, sp.unbound slot block = .ok text

theorem Program.Filled.placed (filled : p.Filled) : p.Placed sp := by
  intro s slot at_ empty
  obtain ⟨value, holds⟩ := filled s slot at_
  rw [holds] at empty
  cases empty

def Program.Traps (p : Program) (e : ExprId) (why : Failure) : Prop :=
  ∃ j c, p.Holds e j ∧ ReflTransGen p.Feeds j c ∧ p.Blames c why

theorem Program.Traps.operand {e o : ExprId} {why : Failure} (step : p.Operand e o)
    (traps : p.Traps o why) : p.Traps e why := by
  obtain ⟨j, c, holds, reaches, blames⟩ := traps
  exact ⟨j, c, holds.operand step, reaches, blames⟩

/-- Writing `e` ended well, and then the slots it holds reach no cycle, or it named a cycle that
one of them leads to. -/
def Program.Settles (p : Program) (e : ExprId) (x : Outcome String) : Prop :=
  (∃ text, x = .ok text) ∧ (∀ j, p.Holds e j → p.Grounded j) ∨
    ∃ why, p.Traps e why ∧ x = .error why

theorem Built.slotSettles (built : Built p) (placed : p.Placed sp)
    {sub : List SlotId → ExprId → Outcome String} {opened : List SlotId} {e : ExprId} {node : Expr}
    {s : SlotId} (at_ : p.exprs.get? e = some node) (op : node.op = .slot s)
    (leads : p.Leads opened e)
    (deeper : ∀ value, p.IsBound s value → s ∉ opened →
      p.Settles value (sub (s :: opened) value)) :
    p.Settles e (p.renderNode sp sub opened node) := by
  obtain ⟨slot, slotAt, -⟩ := Fits.slotAt (op ▸ (built.expr at_).1)
  obtain ⟨block, owner, -⟩ := (built.slot slotAt).owner
  have reader : p.AtSlot e s := ⟨node, at_, op⟩
  have alone (grounded : p.Grounded s) : ∀ j, p.Holds e j → p.Grounded j := by
    intro j holds
    have same : s = j := by simpa [op, Operation.operands] using (holdsIff at_).mp holds
    exact same ▸ grounded
  simp only [Program.renderNode, op, Arena.fetchOfGet slotAt, Arena.fetchOfGet owner,
    Bind.bind, Except.bind]
  split
  · rename_i inside
    have cycle : p.OnCycle s := leads s inside s reader.holds
    exact .inr ⟨_, ⟨s, s, reader.holds, .refl, cycle, slot, block, slotAt, owner, rfl⟩, rfl⟩
  · rename_i closed
    cases holds : slot.value with
    | none =>
      obtain ⟨text, written⟩ := placed slotAt holds block
      exact .inl ⟨⟨text, by simp only [written]; rfl⟩, alone (groundedFree slotAt holds)⟩
    | some value =>
      have bound : p.IsBound s value := ⟨slot, slotAt, holds⟩
      rcases deeper value bound closed with
        ⟨made, grounded⟩ | ⟨why, ⟨j, c, inside, reaches, blames⟩, failed⟩
      · exact .inl ⟨made, alone (groundedBound bound grounded)⟩
      · exact .inr ⟨why, ⟨s, c, reader.holds, .head ⟨value, bound, inside⟩ reaches, blames⟩, failed⟩

theorem Built.plainSettles (built : Built p) {sub : List SlotId → ExprId → Outcome String}
    {opened : List SlotId} {e : ExprId} {node : Expr} (at_ : p.exprs.get? e = some node)
    (plain : ∀ s, node.op ≠ .slot s)
    (each : ∀ o, p.Operand e o → p.Settles o (sub opened o)) :
    p.Settles e (p.renderNode sp sub opened node) := by
  obtain ⟨finish, parts⟩ := built.nodeParts at_ plain sp
  have ends : ∀ o ∈ node.op.operands, (∃ text, sub opened o = .ok text) ∨
      ∃ why, p.Traps e why ∧ sub opened o = .error why := by
    intro o inside
    have step : p.Operand e o := ⟨node, at_, inside⟩
    rcases each o step with ⟨made, -⟩ | ⟨why, traps, failed⟩
    · exact .inl made
    · exact .inr ⟨why, traps.operand step, failed⟩
  rw [parts]
  rcases Outcome.mapMEnds ends with ⟨texts, made⟩ | ⟨why, traps, failed⟩
  · refine .inl ⟨⟨finish texts, by rw [made]; rfl⟩, fun j holds => ?_⟩
    rcases (holdsIff at_).mp holds with op | ⟨o, inside, holds⟩
    · exact absurd op (plain j)
    · obtain ⟨text, -, ok⟩ := Outcome.mapMTarget made inside
      rcases each o ⟨node, at_, inside⟩ with ⟨-, grounded⟩ | ⟨why, -, failed⟩
      · exact grounded j holds
      · cases ok.symm.trans failed
  · exact .inr ⟨why, traps, by rw [failed]; rfl⟩

theorem Built.renderWithinSettles (built : Built p) (placed : p.Placed sp) {fuel : Nat}
    {opened : List SlotId} {e : ExprId} (trail : p.Trail opened e)
    (enough : p.stepsLeft opened e < fuel) (below : e.index < p.exprs.size) :
    p.Settles e (p.renderWithin sp fuel opened e) := by
  induction fuel generalizing opened e with
  | zero => exact absurd enough (Nat.not_lt_zero _)
  | succ fuel ih =>
    obtain ⟨node, at_⟩ := Arena.atBelow below
    rw [Program.renderWithin, Arena.fetchOfGet at_]
    by_cases slots : ∃ s, node.op = .slot s
    · obtain ⟨s, op⟩ := slots
      refine built.slotSettles placed at_ op trail.leads fun value bound closed => ?_
      obtain ⟨deeper, fewer⟩ := built.trailBound trail ⟨node, at_, op⟩ bound closed
      exact ih deeper (by omega) (built.bound bound).2
    · refine built.plainSettles at_ (fun s op => slots ⟨s, op⟩) fun o step => ?_
      obtain ⟨along, fewer⟩ := built.trailOperand trail step
      exact ih along (by omega) (built.operand step).2

theorem Built.renderSettles (built : Built p) (placed : p.Placed sp) {e : ExprId}
    (below : e.index < p.exprs.size) : p.Settles e (p.render sp e) := by
  obtain ⟨node, at_⟩ := Arena.atBelow below
  rw [Program.render, Arena.findOfGet at_]
  exact built.renderWithinSettles placed .start (stepsAtStart below) below

theorem Program.Settles.ok {e : ExprId} {x : Outcome String} (settles : p.Settles e x)
    (acyclic : p.Acyclic) : ∃ text, x = .ok text := by
  rcases settles with ⟨made, -⟩ | ⟨why, ⟨j, c, -, -, blames⟩, -⟩
  · exact made
  · exact absurd blames.cycle (acyclic c)

theorem Built.renderIndexOk (built : Built p) (filled : p.Filled) (acyclic : p.Acyclic) {e : ExprId}
    (below : e.index < p.exprs.size) :
    ∃ text, p.renderWithin sp p.depthBound [] e = .ok text :=
  (built.renderWithinSettles filled.placed .start (stepsAtStart below) below).ok acyclic

theorem Built.renderOk (built : Built p) (filled : p.Filled) (acyclic : p.Acyclic) {e : ExprId}
    (below : e.index < p.exprs.size) : ∃ text, p.render sp e = .ok text :=
  (built.renderSettles filled.placed below).ok acyclic

theorem Built.targetWithinOk (built : Built p) (filled : p.Filled) (acyclic : p.Acyclic) {e : ExprId}
    {v : VarId} (rooted : Rooted p e v) {fuel : Nat} (enough : e.index < fuel) :
    ∃ text, p.renderTargetWithin sp fuel e = .ok text := by
  induction rooted generalizing fuel with
  | read at_ op varAt =>
    obtain ⟨fuel, rfl⟩ := Nat.exists_eq_succ_of_ne_zero (Nat.ne_of_gt (Nat.zero_lt_of_lt enough))
    exact ⟨_, by
      simp only [Program.renderTargetWithin, Program.renderTargetNode, Arena.fetchOfGet at_, op,
        Arena.fetchOfGet varAt, Bind.bind, Except.bind]
      rfl⟩
  | @column e base index _ _ at_ op _ ih | @element e base index _ _ at_ op _ ih =>
    obtain ⟨fuel, rfl⟩ := Nat.exists_eq_succ_of_ne_zero (Nat.ne_of_gt (Nat.zero_lt_of_lt enough))
    have older := (built.operand (e := e) (o := base) ⟨_, at_, by simp [op, Operation.operands]⟩).1
    have below := (built.operand (e := e) (o := index) ⟨_, at_, by simp [op, Operation.operands]⟩).2
    obtain ⟨m, baseMade⟩ := ih (Nat.lt_of_lt_of_le older (Nat.le_of_lt_succ enough))
    obtain ⟨i, indexMade⟩ : ∃ text, p.renderWithin sp p.depthBound [] index = .ok text :=
      built.renderIndexOk filled acyclic below
    obtain ⟨constant, made⟩ := indexTextOk below
    exact ⟨_, by
      simp only [Program.renderTargetWithin, Program.renderTargetNode, Arena.fetchOfGet at_, op,
        baseMade, indexMade, made, Bind.bind, Except.bind]
      rfl⟩
  | @swizzle e base _ _ _ at_ op _ _ ih =>
    obtain ⟨fuel, rfl⟩ := Nat.exists_eq_succ_of_ne_zero (Nat.ne_of_gt (Nat.zero_lt_of_lt enough))
    have older := (built.operand (e := e) (o := base) ⟨_, at_, by simp [op, Operation.operands]⟩).1
    obtain ⟨m, baseMade⟩ := ih (Nat.lt_of_lt_of_le older (Nat.le_of_lt_succ enough))
    exact ⟨_, by
      simp only [Program.renderTargetWithin, Program.renderTargetNode, Arena.fetchOfGet at_, op,
        baseMade, Bind.bind, Except.bind]
      rfl⟩

theorem Built.targetOk (built : Built p) (filled : p.Filled) (acyclic : p.Acyclic) {e : ExprId}
    {v : VarId} (rooted : Rooted p e v) : ∃ text, p.renderTarget sp e = .ok text := by
  obtain ⟨node, at_⟩ := Arena.atBelow rooted.stands
  obtain ⟨text, made⟩ : ∃ text, p.renderTargetWithin sp (e.index + 1) e = .ok text :=
    built.targetWithinOk filled acyclic rooted (Nat.lt_succ_self _)
  refine ⟨text, ?_⟩
  rw [Program.renderTarget, Outcome.bindOk]
  exact ⟨node, Arena.findOfGet at_, made⟩

def Outcome.Cyclic {α : Type} (x : Outcome α) : Prop :=
  ∃ input block, x = reject (.cyclicInput input block)

def Program.ReachesCycle (p : Program) (s : SlotId) : Prop :=
  ∃ c, ReflTransGen p.Feeds s c ∧ p.OnCycle c

theorem Program.Blames.cyclic {α : Type} {c : SlotId} {why : Failure} {x : Outcome α}
    (blames : p.Blames c why) (failed : x = .error why) : x.Cyclic := by
  obtain ⟨slot, block, -, -, rfl⟩ := blames.named
  exact ⟨slot.name, block.name, failed⟩

theorem Built.slotEnds (built : Built p) (placed : p.Placed sp) {i : SlotId} {slot : Slot}
    (at_ : p.slots.get? i = some slot) :
    (∃ text, p.render sp slot.node = .ok text) ∧ ¬ p.ReachesCycle i ∨
      (p.render sp slot.node).Cyclic ∧ p.ReachesCycle i := by
  obtain ⟨state, nodeAt⟩ := (built.slot at_).reader
  have reader : p.AtSlot slot.node i := ⟨_, nodeAt, rfl⟩
  rcases built.renderSettles placed (Arena.below nodeAt) with
    ⟨made, grounded⟩ | ⟨why, ⟨j, c, holds, reaches, blames⟩, failed⟩
  · refine .inl ⟨made, fun cyclic => ?_⟩
    obtain ⟨c, reaches, cycle⟩ := cyclic
    exact (grounded i reader.holds).acyclic reaches cycle
  · have same : i = j := by simpa [Operation.operands] using (holdsIff nodeAt).mp holds
    exact .inr ⟨blames.cyclic failed, c, same ▸ reaches, blames.cycle⟩

theorem cyclesAgree (reachable : Reachable p) (placed : p.Placed sp) :
    (p.checkCycles.Cyclic ↔ ∃ s, p.OnCycle s) ∧ (p.checkCycles = .ok () ↔ ¬ ∃ s, p.OnCycle s) ∧
    (∀ input block, p.checkCycles = reject (.cyclicInput input block) →
      p.check = reject (.cyclicInput input block) ∧ ∃ s slot node, p.OnCycle s ∧
        p.slots.get? s = some slot ∧ p.blocks.get? slot.block = some node ∧ slot.name = input ∧
        node.name = block) ∧
    ∀ i slot, p.slots.get? i = some slot →
      ((p.render sp slot.node).Cyclic ↔ p.ReachesCycle i) ∧
      (¬ p.ReachesCycle i → ∃ text, p.render sp slot.node = .ok text) := by
  have built := reachableBuilt reachable
  have passes : p.checkCycles = .ok () ↔ ¬ ∃ s, p.OnCycle s := built.cyclesOk.trans not_exists.symm
  refine ⟨⟨fun cyclic => ?_, fun cycle => ?_⟩, passes, fun input block failed => ?_,
    fun i slot at_ => ?_⟩
  · by_contra none
    obtain ⟨input, block, failed⟩ := cyclic
    cases (passes.mpr none).symm.trans failed
  · rcases built.cyclesEnd with passed | ⟨why, ⟨c, blames⟩, failed⟩
    · exact absurd cycle (passes.mp passed)
    · exact blames.cyclic failed
  · refine ⟨by rw [Program.check, failed]; rfl, ?_⟩
    rcases built.cyclesEnd with passed | ⟨why, ⟨c, blames⟩, blamed⟩
    · cases passed.symm.trans failed
    · obtain ⟨slot, node, at_, owner, rfl⟩ := blames.named
      cases blamed.symm.trans failed
      exact ⟨c, slot, node, blames.cycle, at_, owner, rfl, rfl⟩
  · rcases built.slotEnds placed at_ with ⟨⟨text, made⟩, free⟩ | ⟨cyclic, reaches⟩
    · refine ⟨iff_of_false (fun cyclic => ?_) free, fun _ => ⟨text, made⟩⟩
      obtain ⟨_, _, failed⟩ := cyclic
      cases made.symm.trans failed
    · exact ⟨iff_of_true cyclic reaches, fun free => absurd reaches free⟩

def mutualRun : List Call :=
  [.addStage .fragment, .literal (.int 0), .block ⟨0⟩ "use", .input ⟨0⟩ (some "a") .int1 none,
    .input ⟨0⟩ (some "b") .int1 none, .input ⟨0⟩ (some "c") .int1 none,
    .input ⟨0⟩ (some "d") .int1 none, .binary .add ⟨4⟩ ⟨2⟩, .bind ⟨0⟩ ⟨2⟩, .bind ⟨1⟩ ⟨1⟩,
    .bind ⟨2⟩ ⟨5⟩]

theorem mutualRuns : ∃ p c d, Program.after { name := "p" } mutualRun = some p ∧
    p.checkCycles = reject (.cyclicInput "a" "use_0") ∧ p.slots.get? ⟨2⟩ = some c ∧
    p.render .pseudo c.node = reject (.cyclicInput "b" "use_0") ∧ p.slots.get? ⟨3⟩ = some d ∧
    p.render .pseudo d.node = .ok "<d>" :=
  ⟨_, _, _, rfl, rfl, rfl, rfl, rfl, rfl⟩

theorem cyclesAgreeMutual : ∃ p, Program.after { name := "p" } mutualRun = some p ∧
    p.Placed .pseudo ∧ (∃ s, p.OnCycle s) ∧ p.ReachesCycle ⟨2⟩ ∧ ¬ p.ReachesCycle ⟨3⟩ := by
  obtain ⟨p, c, d, ran, rejected, cAt, cyclic, dAt, written⟩ := mutualRuns
  have placed : p.Placed .pseudo := fun _ slot _ _ _ => ⟨s!"<{slot.name}>", rfl⟩
  obtain ⟨searched, -, -, expanded⟩ := cyclesAgree ((Reachable.new "p").after ran) placed
  refine ⟨p, ran, placed, searched.mp ⟨_, _, rejected⟩, (expanded _ _ cAt).1.mp ⟨_, _, cyclic⟩,
    fun reaches => ?_⟩
  obtain ⟨_, _, failed⟩ := (expanded _ _ dAt).1.mpr reaches
  cases written.symm.trans failed

end

end ShaderGraph
