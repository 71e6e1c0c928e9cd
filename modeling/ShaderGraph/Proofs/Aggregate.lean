import ShaderGraph.Check
import ShaderGraph.Proofs.Forest
import ShaderGraph.Proofs.Reach
import ShaderGraph.Proofs.Stamps
/-! What a block statement reads. Its stamps are always the union of those its inputs recorded when
they were bound, in the order the inputs were created. The input created last among those that
read a variable decides its stamp, so an input that was bound later can hide one that is stale. -/
namespace ShaderGraph

open Build

section

variable {p q : Program}

def Gathered (p : Program) : Prop :=
  ∀ ⦃b node stmt⦄, p.blocks.get? b = some node → p.stmts.get? node.statement = some stmt →
    slotReads p node.inputs = .ok stmt.reads

theorem slotReadsSame {slots : List SlotId} {start set : Stamps}
    (same : ∀ s ∈ slots, ∀ ⦃slot⦄, p.slots.get? s = some slot →
      ∃ later, q.slots.get? s = some later ∧ later.reads = slot.reads)
    (read : slotReads.go p start slots = .ok set) : slotReads.go q start slots = .ok set := by
  induction slots generalizing start with
  | nil => exact read
  | cons s rest ih =>
    simp only [slotReads.go, Outcome.bindOk, Arena.fetchOk] at read ⊢
    obtain ⟨slot, at_, read⟩ := read
    obtain ⟨later, there, reads⟩ := same s List.mem_cons_self at_
    refine ⟨later, there, ?_⟩
    rw [reads]
    exact ih (fun t inside => same t (List.mem_cons_of_mem _ inside)) read

theorem slotReadsMore {slots : List SlotId} {s : SlotId} {slot : Slot} {start set : Stamps}
    (at_ : p.slots.get? s = some slot) (read : slotReads.go p start slots = .ok set) :
    slotReads.go p start (slots ++ [s]) = .ok (set.union slot.reads) := by
  induction slots generalizing start with
  | nil =>
    cases read
    simp only [List.nil_append, slotReads.go, Outcome.bindOk, Arena.fetchOk]
    exact ⟨slot, at_, rfl⟩
  | cons t rest ih =>
    simp only [List.cons_append, slotReads.go, Outcome.bindOk, Arena.fetchOk] at read ⊢
    obtain ⟨first, there, read⟩ := read
    exact ⟨first, there, ih read⟩

namespace Gathered

theorem new (name : String) : Gathered { name } := fun _ _ _ at_ => absurd at_ emptyGet

theorem still (gathered : Gathered p) (forest : Forest p) {b : BlockId} {node : Block}
    {stmt : Statement} (at_ : p.blocks.get? b = some node)
    (stmtAt : q.stmts.get? node.statement = some stmt)
    (stmts : ∀ ⦃s node⦄, p.stmts.get? s = some node →
      ∃ later, q.stmts.get? s = some later ∧ later.reads = node.reads) (slots : q.slots = p.slots) :
    slotReads q node.inputs = .ok stmt.reads := by
  obtain ⟨first, there, -⟩ := forest.blocks at_
  obtain ⟨later, laterAt, reads⟩ := stmts there
  cases stmtAt.symm.trans laterAt
  rw [reads]
  exact slotReadsSame (fun s _ slot slotAt => ⟨slot, slots ▸ slotAt, rfl⟩) (gathered at_ there)

theorem slotted (gathered : Gathered p) {b : BlockId} {node : Block}
    {name : String} {ty : Ty} (at_ : p.blocks.get? b = some node) :
    Gathered (p.slotted b name ty) := by
  intro c inner stmt innerAt stmtAt
  obtain ⟨old, before, rfl⟩ := Arena.getReplaced innerAt
  have keeps : ∀ s ∈ old.inputs, ∀ ⦃slot⦄, p.slots.get? s = some slot →
      ∃ later, (p.slotted b name ty).slots.get? s = some later ∧ later.reads = slot.reads :=
    fun s _ slot slotAt => ⟨slot, Arena.getPushOld slotAt _, rfl⟩
  split
  · rename_i here
    subst here
    cases at_.symm.trans before
    rw [if_pos rfl] at stmtAt
    -- the new slot records nothing, so it leaves the union as it is
    have fresh : (p.slotted b name ty).slots.get? p.slots.fresh = some _ := Arena.getFresh ..
    exact slotReadsMore fresh (slotReadsSame keeps (gathered before stmtAt))
  · rename_i other
    rw [if_neg other] at stmtAt
    exact slotReadsSame keeps (gathered before stmtAt)

theorem filled (gathered : Gathered p) (built : Built p) {s : SlotId} {slot : Slot}
    {value : Option ExprId} {reads all : Stamps} {node : Block}
    (at_ : p.slots.get? s = some slot) (owner : p.blocks.get? slot.block = some node)
    (found : slotReads (p.bound s value reads) node.inputs = .ok all) :
    Gathered (p.filled s value reads node.statement all) := by
  have forest := built.forest
  intro c inner stmt innerAt stmtAt
  obtain ⟨first, firstAt, kind, -⟩ := forest.blocks innerAt
  have mine : node.statement = inner.statement → c = slot.block := by
    intro same
    obtain ⟨again, againAt, other, -⟩ := forest.blocks owner
    rw [same] at againAt
    cases firstAt.symm.trans againAt
    exact StatementKind.block.inj (kind.symm.trans other)
  obtain ⟨old, before, rfl⟩ := Arena.getReplaced stmtAt
  split
  · rename_i here
    cases mine here
    cases innerAt.symm.trans owner
    have kept : slotReads.go (p.bound s value reads) .empty node.inputs = .ok all := found
    refine slotReadsSame ?_ kept
    exact fun _ _ other otherAt => ⟨other, otherAt, rfl⟩
  · rename_i other
    refine slotReadsSame (fun t inside held heldAt => ⟨_, Arena.getReplaceOld heldAt _, ?_⟩)
      (gathered innerAt before)
    rw [if_neg]
    rintro rfl
    obtain ⟨again, againAt, named⟩ := (built.block innerAt).1 s inside
    cases at_.symm.trans againAt
    subst named
    cases innerAt.symm.trans owner
    exact other rfl

end Gathered

theorem Edit.gathered (edit : Edit p q) (built : Built p) (gathered : Gathered p) : Gathered q := by
  have forest := built.forest
  have stands : ∀ ⦃s node⦄, p.stmts.get? s = some node →
      ∃ later, p.stmts.get? s = some later ∧ later.reads = node.reads :=
    fun _ node at_ => ⟨node, at_, rfl⟩
  have pushed (new : Statement) : ∀ ⦃s node⦄, p.stmts.get? s = some node →
      ∃ later, (p.stmts.push new).get? s = some later ∧ later.reads = node.reads :=
    fun _ node at_ => ⟨node, Arena.getPushOld at_ new, rfl⟩
  cases edit with
  | spend | expr | stage | uniform | stageInput | stageOutput | builtin =>
    exact fun _ _ _ at_ stmtAt => gathered.still forest at_ stmtAt stands rfl
  | declare | assign | store | branch | loop =>
    exact fun _ _ _ at_ stmtAt => gathered.still forest at_ stmtAt (pushed _) rfl
  | block =>
    intro b node stmt at_ stmtAt
    rcases Arena.getPushed at_ with ⟨rfl, rfl⟩ | before
    · cases (Arena.getFresh ..).symm.trans stmtAt
      rfl
    · exact gathered.still forest before stmtAt (pushed _) rfl
  | slot at_ => exact gathered.slotted at_
  | output at_ =>
    intro b node stmt nodeAt stmtAt
    obtain ⟨old, before, rfl⟩ := Arena.getReplaced nodeAt
    have before : p.blocks.get? b = some old := before
    split
    · rename_i here
      rw [if_pos here] at stmtAt
      have kept := gathered.still forest before stmtAt (pushed _) rfl
      exact kept
    · rename_i other
      rw [if_neg other] at stmtAt
      exact gathered.still forest before stmtAt (pushed _) rfl
  | fill at_ _ _ owner found => exact gathered.filled built at_ owner found

theorem Built.gathered (built : Built p) : Gathered p := by
  induction built with
  | new name => exact .new name
  | edit before edit ih => exact edit.gathered before ih

def Program.heldOf (p : Program) (v : VarId) (slots : List SlotId) : List Stamp :=
  slots.filterMap fun s => (p.slots.get? s).bind fun slot => slot.reads.get? v

theorem heldCons {s : SlotId} {slot : Slot} {v : VarId} {rest : List SlotId}
    (at_ : p.slots.get? s = some slot) :
    p.heldOf v (s :: rest) = (slot.reads.get? v).toList ++ p.heldOf v rest := by
  rw [Program.heldOf, List.filterMap_cons, at_, Option.bind_some]
  cases slot.reads.get? v <;> rfl

theorem slotReadsGet {slots : List SlotId} {start set : Stamps}
    (read : slotReads.go p start slots = .ok set) (v : VarId) :
    set.get? v = (p.heldOf v slots).getLast?.or (start.get? v) := by
  induction slots generalizing start with
  | nil =>
    cases read
    rfl
  | cons s rest ih =>
    simp only [slotReads.go, Outcome.bindOk, Arena.fetchOk] at read
    obtain ⟨slot, at_, read⟩ := read
    rw [ih read, Stamps.getUnion, heldCons at_, List.getLast?_append, Option.or_assoc]
    cases slot.reads.get? v <;> rfl

def Program.outdated (p : Program) (s : Stamp) : Bool :=
  (p.vars.get? s.var).any fun var => s.mutation < var.mutations

theorem staleOk {set : Stamps} (stamped : p.Stamped set) :
    p.stale set = .ok (set.toList.filter p.outdated) := by
  have all (stamps : List Stamp) (stand : ∀ s ∈ stamps, s.var.index < p.vars.size) :
      Program.stale.go p stamps = .ok (stamps.filter p.outdated) := by
    induction stamps with
    | nil => rfl
    | cons s rest ih =>
      obtain ⟨now, at_⟩ := Arena.atBelow (stand s List.mem_cons_self)
      have later := ih fun t inside => stand t (List.mem_cons_of_mem _ inside)
      simp only [Program.stale.go, Arena.fetchOfGet at_, later, List.filter_cons, Program.outdated,
        at_, Option.any_some, decide_eq_true_eq]
      rfl
  exact all set.toList stamped

theorem staleSurfaces (reachable : Reachable p) {b : BlockId} {node : Block}
    (at_ : p.blocks.get? b = some node) :
    ∃ stmt all, p.stmts.get? node.statement = some stmt ∧ p.stale stmt.reads = .ok all ∧
      ∀ i ∈ node.inputs, ∃ slot mine, p.slots.get? i = some slot ∧ p.stale slot.reads = .ok mine ∧
        ∀ s ∈ mine, (∃ t ∈ all, t.var = s.var) ↔
          ∃ last, (p.heldOf s.var node.inputs).getLast? = some last ∧ p.outdated last = true := by
  have built := reachableBuilt reachable
  obtain ⟨stmt, stmtAt, -⟩ := built.forest.blocks at_
  have union := slotReadsGet (built.gathered at_ stmtAt)
  refine ⟨stmt, _, stmtAt, staleOk (built.stamped stmtAt), fun i inside => ?_⟩
  obtain ⟨slot, slotAt, -⟩ := (built.block at_).1 i inside
  refine ⟨slot, _, slotAt, staleOk (built.slot slotAt).stamped, fun s _ => ?_⟩
  have decides : stmt.reads.get? s.var = (p.heldOf s.var node.inputs).getLast? := by
    rw [union, Option.or_eq_left_of_none]
    rfl
  constructor
  · intro h
    obtain ⟨t, shown, same⟩ := h
    obtain ⟨held, stale⟩ := List.mem_filter.mp shown
    exact ⟨t, by rw [← decides, ← same, Stamps.getMem.mp held], stale⟩
  · intro h
    obtain ⟨last, found, stale⟩ := h
    rw [← decides] at found
    have same := Stamps.getVar found
    refine ⟨last, List.mem_filter.mpr ⟨Stamps.getMem.mpr ?_, stale⟩, same⟩
    rw [same, found]

def shadowedRun : List Call :=
  [.addStage .fragment, .literal (.int 0), .literal (.bool true),
    .declare ⟨0⟩ "v" .int1 (some ⟨0⟩), .read ⟨0⟩, .branch ⟨0⟩ ⟨1⟩, .block ⟨0⟩ "use",
    .input ⟨0⟩ (some "x") .int1 (some ⟨2⟩), .assign ⟨1⟩ ⟨2⟩ ⟨0⟩,
    .input ⟨0⟩ (some "y") .int1 (some ⟨2⟩)]

theorem shadowedRuns : ∃ p node stmt slot, Program.after { name := "p" } shadowedRun = some p ∧
    p.check = .ok [] ∧ p.blocks.get? ⟨0⟩ = some node ∧ node.inputs = [⟨0⟩, ⟨1⟩] ∧
    p.stmts.get? node.statement = some stmt ∧ p.slots.get? ⟨0⟩ = some slot ∧
    p.stale stmt.reads = .ok [] ∧ p.stale slot.reads = .ok [⟨⟨0⟩, 0⟩] ∧
    p.heldOf ⟨0⟩ node.inputs = [⟨⟨0⟩, 0⟩, ⟨⟨0⟩, 1⟩] ∧ p.outdated ⟨⟨0⟩, 1⟩ = false :=
  ⟨_, _, _, _, rfl, rfl, rfl, rfl, rfl, rfl, rfl, rfl, rfl, rfl⟩

theorem staleSurfacesShadowed : ∃ p node stmt slot,
    Program.after { name := "p" } shadowedRun = some p ∧ p.blocks.get? ⟨0⟩ = some node ∧
    p.stmts.get? node.statement = some stmt ∧ p.slots.get? ⟨0⟩ = some slot ∧
    p.stale slot.reads = .ok [⟨⟨0⟩, 0⟩] ∧ p.stale stmt.reads = .ok [] ∧
    ¬ ∃ last, (p.heldOf ⟨0⟩ node.inputs).getLast? = some last ∧ p.outdated last = true := by
  obtain ⟨p, node, stmt, slot, ran, -, at_, inputs, stmtAt, slotAt, silent, stale, -⟩ := shadowedRuns
  obtain ⟨again, all, againAt, said, each⟩ := staleSurfaces ((Reachable.new "p").after ran) at_
  obtain ⟨other, mine, otherAt, found, shown⟩ := each ⟨0⟩ (by simp [inputs])
  cases stmtAt.symm.trans againAt
  cases slotAt.symm.trans otherAt
  cases silent.symm.trans said
  cases stale.symm.trans found
  refine ⟨p, node, stmt, slot, ran, at_, stmtAt, slotAt, stale, silent, fun last => ?_⟩
  obtain ⟨t, none, -⟩ := (shown ⟨⟨0⟩, 0⟩ List.mem_cons_self).mpr last
  cases none

def NeverHides (p : Program) : Prop :=
  ∀ b node stmt all, p.blocks.get? b = some node → p.stmts.get? node.statement = some stmt →
    p.stale stmt.reads = .ok all → ∀ i ∈ node.inputs, ∀ slot mine, p.slots.get? i = some slot →
      p.stale slot.reads = .ok mine → ∀ s ∈ mine, ∃ t ∈ all, t.var = s.var

theorem staleHidden : ∃ p, Reachable p ∧ p.check = .ok [] ∧ ¬ NeverHides p := by
  obtain ⟨p, node, stmt, slot, ran, passed, at_, inputs, stmtAt, slotAt, silent, stale, -⟩ :=
    shadowedRuns
  refine ⟨p, (Reachable.new "p").after ran, passed, fun shows => ?_⟩
  obtain ⟨t, none, -⟩ := shows ⟨0⟩ node stmt [] at_ stmtAt silent ⟨0⟩ (by simp [inputs]) slot _
    slotAt stale ⟨⟨0⟩, 0⟩ List.mem_cons_self
  cases none

end

end ShaderGraph
