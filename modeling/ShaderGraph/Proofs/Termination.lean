import Mathlib.Order.RelClasses
import ShaderGraph.Proofs.Dumping
import ShaderGraph.Proofs.Recursion
/-! Writing and checking end on every program, also where slots are bound to themselves or to each
other. The writer opens no slot twice on its way, so its calls end in any case. The walk that checks
reads opens slots as often as they come, and ends just where the search for cycles has passed. -/
namespace ShaderGraph

open Relation

namespace Program

variable (p : Program)

def readStep (scope : Scope) (visible : List VarId) (walk : ExprId → Outcome Unit) (e : ExprId) :
    Outcome Unit := do
  match (← p.exprs.fetch e).op with
  | .read v => p.checkRead scope visible v
  | .slot s =>
    let slot ← p.slots.fetch s
    match slot.value with
    | some value => walk value
    | none => p.unboundSlot slot
  | op => op.operands.forM walk

def checkWith (walk : Stage → Outcome Unit) : Outcome (List Message) := do
  p.checkCycles
  p.stages.forM walk
  p.outputWarnings

/-- Each walk is the one solution of its recursion, and so it needs no fuel; `Safe` outcomes leave
no room for a walk that runs out of it. -/
structure Halts : Prop where
  calls : WellFounded fun next now => p.Calls now next
  written (sp : Spelling) : ∃ write, Solves (p.writeStep sp) write ∧
    (∀ other, Solves (p.writeStep sp) other → other = write) ∧
    ∀ e, p.render sp e = do
      let _ ← p.exprs.find e
      write ([], e)
  targets (sp : Spelling) : ∃ write, Solves (p.targetStep sp) write ∧
    (∀ other, Solves (p.targetStep sp) other → other = write) ∧
    ∀ e, p.renderTarget sp e = do
      let _ ← p.exprs.find e
      write e
  answers (sp : Spelling) (e : ExprId) : (p.render sp e).Safe ∧ (p.renderTarget sp e).Safe
  shown (e : ExprId) : (∃ text, p.pseudo e = .ok text) ∧ ∃ text, p.pseudoTarget e = .ok text
  dumped : ∃ text, p.dump = .ok text
  checked : p.check.Safe
  phases : p.check = p.checkWith p.checkStage
  searched : p.checkCycles = .ok () ↔ WellFounded fun next e => p.Follows e next
  read (passed : p.checkCycles = .ok ()) (scope : Scope) (visible : List VarId) :
    Solves (p.readStep scope visible) (p.checkReads scope visible) ∧
    ∀ other, Solves (p.readStep scope visible) other → other = p.checkReads scope visible
  unread (cyclic : p.checkCycles ≠ .ok ()) :
    ∃ input block, ∀ walk, p.checkWith walk = reject (.cyclicInput input block)

end Program

section

variable {p : Program}

theorem forMSame {α : Type} {f g : α → Outcome Unit} {as : List α} (same : ∀ a ∈ as, f a = g a) :
    as.forM f = as.forM g := by
  induction as with
  | nil => rfl
  | cons a rest ih =>
    simp only [List.forM_eq_forM, List.forM_cons] at ih ⊢
    rw [same a List.mem_cons_self, ih fun b inside => same b (List.mem_cons_of_mem _ inside)]

theorem readLocal (scope : Scope) (visible : List VarId) :
    Local p.Follows (p.readStep scope visible) := by
  intro f g e same
  unfold Program.readStep
  cases at_ : p.exprs.get? e with
  | none => simp only [Arena.fetch, at_]; rfl
  | some node =>
    have operands : node.op.operands.forM f = node.op.operands.forM g :=
      forMSame fun o inside => same o (.operand ⟨node, at_, inside⟩)
    simp only [Arena.fetchOfGet at_, Bind.bind, Except.bind]
    obtain ⟨op, ty, state⟩ := node
    cases op with
    | read => rfl
    | slot s =>
      cases slotAt : p.slots.get? s with
      | none => simp only [Arena.fetch, slotAt]; rfl
      | some slot =>
        simp only [Arena.fetchOfGet slotAt]
        cases holds : slot.value with
        | none => rfl
        | some value => exact same value (.bound ⟨_, at_, rfl⟩ ⟨slot, slotAt, holds⟩)
    | _ => exact operands

theorem feedsFollows {i j : SlotId} {start stop : ExprId} (feeds : TransGen p.Feeds i j)
    (first : p.IsBound i start) (last : p.IsBound j stop) : TransGen p.Follows start stop := by
  have one {i j : SlotId} {start stop : ExprId} (feeds : p.Feeds i j) (first : p.IsBound i start)
      (last : p.IsBound j stop) : TransGen p.Follows start stop := by
    obtain ⟨value, ⟨slot, at_, holds⟩, o, under, reader⟩ := feeds
    obtain ⟨again, there, same⟩ := first
    cases at_.symm.trans there
    cases holds.symm.trans same
    have walk : ReflTransGen p.Follows start o :=
      ReflTransGen.mono (fun _ _ => .operand) _ _ under
    exact .tail' walk (.bound reader last)
  induction feeds generalizing stop with
  | single feeds => exact one feeds first last
  | tail _ feeds ih =>
    obtain ⟨value, bound, -⟩ := id feeds
    exact (ih bound).trans (one feeds bound last)

theorem foundedAcyclic (founded : WellFounded fun next e => p.Follows e next) : p.Acyclic := by
  intro s cycle
  obtain ⟨t, ⟨value, bound, -⟩, -⟩ := TransGen.head'_iff.mp cycle
  have round : TransGen p.Follows value value := feedsFollows cycle bound bound
  have back := transGen_swap.mpr round
  exact founded.transGen.asymmetric value value back back

theorem Built.searchedIff (built : Built p) :
    p.checkCycles = .ok () ↔ WellFounded fun next e => p.Follows e next := by
  rw [built.cyclesOk]
  exact ⟨fun acyclic => withinFounded fun e => ⟨_, built.readsEnough acyclic e⟩, foundedAcyclic⟩

theorem Built.readSolves (built : Built p) (acyclic : p.Acyclic) (scope : Scope)
    (visible : List VarId) : Solves (p.readStep scope visible) (p.checkReads scope visible) :=
  runSolves (fun _ => rfl) (readLocal scope visible) (fun _ => p.depthBound)
    (built.readsEnough acyclic)

theorem reachableHalts (reachable : Reachable p) : p.Halts where
  calls := (reachableBuilt reachable).callsEnd
  written sp := by
    have built := reachableBuilt reachable
    have solves := built.renderSolves sp
    exact ⟨_, solves, fun _ other => solvedOnce built.callsEnd (built.writeLocal sp) other solves,
      fun _ => rfl⟩
  targets sp := by
    have built := reachableBuilt reachable
    have solves := built.targetSolves sp
    have founded := withinFounded fun e => ⟨_, built.operandsWithin (Nat.lt_succ_self e.index)⟩
    exact ⟨_, solves, fun _ other => solvedOnce founded (targetLocal sp) other solves, fun _ => rfl⟩
  answers sp e := ⟨(reachableBuilt reachable).renderSafe sp e,
    (reachableBuilt reachable).renderTargetSafe sp e⟩
  shown e := ⟨(reachableBuilt reachable).pseudoOk e, (reachableBuilt reachable).pseudoTargetOk e⟩
  dumped := (reachableBuilt reachable).dumpOk
  checked := (reachableBuilt reachable).checkSafe
  phases := rfl
  searched := (reachableBuilt reachable).searchedIff
  read passed scope visible := by
    have built := reachableBuilt reachable
    have solves := built.readSolves (built.cyclesOk.mp passed) scope visible
    exact ⟨solves, fun _ other =>
      solvedOnce (built.searchedIff.mp passed) (readLocal scope visible) other solves⟩
  unread cyclic := by
    rcases (reachableBuilt reachable).cyclesEnd with passed | ⟨_, ⟨c, blames⟩, failed⟩
    · exact absurd passed cyclic
    · obtain ⟨slot, block, -, -, rfl⟩ := blames.named
      exact ⟨_, _, fun walk => by rw [Program.checkWith, failed]; rfl⟩

theorem reachableHaltsMutual : ∃ p, Program.after { name := "p" } mutualRun = some p ∧
    p.checkCycles ≠ .ok () ∧ p.Halts := by
  obtain ⟨p, c, d, ran, rejected, -⟩ := mutualRuns
  refine ⟨p, ran, fun passed => ?_, reachableHalts ((Reachable.new "p").after ran)⟩
  cases passed.symm.trans rejected

end

end ShaderGraph
