import Mathlib.Order.RelClasses
import ShaderGraph.Proofs.Reading
/-! The search for cycles decides acyclicity. It never runs out of fuel, since its path has no
repetition; the slots it has cleared reach no cycle, so when all are cleared there is none, and a
slot that closes the path lies on one. -/
namespace ShaderGraph

open Relation

namespace Outcome

variable {α β : Type} {f : β → α → Outcome β}

theorem foldEnds {Fault : Failure → Prop} {as : List α} {b : β}
    (steps : ∀ a ∈ as, ∀ b, (∃ c, f b a = .ok c) ∨ ∃ why, Fault why ∧ f b a = .error why) :
    (∃ c, as.foldlM f b = .ok c) ∨ ∃ why, Fault why ∧ as.foldlM f b = .error why := by
  induction as generalizing b with
  | nil => exact .inl ⟨b, rfl⟩
  | cons a rest ih =>
    rw [List.foldlM_cons]
    rcases steps a List.mem_cons_self b with ⟨c, made⟩ | ⟨why, fault, failed⟩
    · rw [made]
      exact ih fun x inside => steps x (List.mem_cons_of_mem _ inside)
    · exact .inr ⟨why, fault, by rw [failed]; rfl⟩

theorem mapMEnds {g : α → Outcome β} {Fault : Failure → Prop} {as : List α}
    (steps : ∀ a ∈ as, (∃ b, g a = .ok b) ∨ ∃ why, Fault why ∧ g a = .error why) :
    (∃ bs, as.mapM g = .ok bs) ∨ ∃ why, Fault why ∧ as.mapM g = .error why := by
  induction as with
  | nil => exact .inl ⟨[], rfl⟩
  | cons a rest ih =>
    rw [List.mapM_cons]
    rcases steps a List.mem_cons_self with ⟨b, made⟩ | ⟨why, fault, failed⟩
    · rcases ih fun x inside => steps x (List.mem_cons_of_mem _ inside) with
        ⟨bs, others⟩ | ⟨why, fault, failed⟩
      · exact .inl ⟨b :: bs, by rw [made, others]; rfl⟩
      · exact .inr ⟨why, fault, by rw [made, failed]; rfl⟩
    · exact .inr ⟨why, fault, by rw [failed]; rfl⟩

end Outcome

section

variable {p : Program}

theorem holdsIff {e : ExprId} {node : Expr} {s : SlotId} (at_ : p.exprs.get? e = some node) :
    p.Holds e s ↔ node.op = .slot s ∨ ∃ o ∈ node.op.operands, p.Holds o s := by
  constructor
  · intro h
    obtain ⟨a, under, reader⟩ := h
    rcases ReflTransGen.cases_head under with rfl | ⟨o, ⟨other, there, inside⟩, under⟩
    · obtain ⟨other, there, op⟩ := reader
      cases at_.symm.trans there
      exact .inl op
    · cases at_.symm.trans there
      exact .inr ⟨o, inside, a, under, reader⟩
  · intro h
    obtain op | ⟨o, inside, holds⟩ := h
    · exact Program.AtSlot.holds ⟨node, at_, op⟩
    · exact holds.operand ⟨node, at_, inside⟩

theorem Built.slotsWithin (built : Built p) {fuel : Nat} {e : ExprId} (found : List SlotId)
    (enough : e.index < fuel) (stands : e.index < p.exprs.size) :
    ∃ l, p.slotsWithin fuel found e = .ok l ∧ ∀ s, s ∈ l ↔ s ∈ found ∨ p.Holds e s := by
  induction fuel generalizing e found with
  | zero => exact absurd enough (Nat.not_lt_zero _)
  | succ fuel ih =>
    obtain ⟨node, at_⟩ := Arena.atBelow stands
    have operands : ∀ os : List ExprId, (∀ o ∈ os, p.Operand e o) → ∀ found,
        ∃ l, os.foldlM (p.slotsWithin fuel) found = .ok l ∧
          ∀ s, s ∈ l ↔ s ∈ found ∨ ∃ o ∈ os, p.Holds o s := by
      intro os steps
      induction os with
      | nil => exact fun found => ⟨found, rfl, fun s => by simp⟩
      | cons o rest tail =>
        intro found
        obtain ⟨older, below⟩ := built.operand (steps o List.mem_cons_self)
        obtain ⟨l, made, first⟩ := ih found (Nat.lt_of_lt_of_le older (by omega)) below
        obtain ⟨m, folded, more⟩ := tail (fun x inside => steps x (List.mem_cons_of_mem _ inside)) l
        refine ⟨m, by rw [List.foldlM_cons, Outcome.bindOk]; exact ⟨l, made, folded⟩, fun s => ?_⟩
        rw [more, first, or_assoc]
        simp
    have read : p.exprs.fetch e = .ok node := Arena.fetchOfGet at_
    simp only [Program.slotsWithin, read, Outcome.bindOk, Except.ok.injEq, exists_eq_left']
    cases op : node.op with
    | slot t =>
      refine ⟨_, rfl, fun s => ?_⟩
      rw [holdsIff at_, op]
      by_cases known : t ∈ found
      · simp only [known, if_true, Operation.operands]
        constructor
        · exact .inl
        · intro h
          obtain old | here | ⟨o, none, -⟩ := h
          · exact old
          · cases here
            exact known
          · cases none
      · simp [known, Operation.operands, eq_comm]
    | _ =>
      obtain ⟨l, folded, exact_⟩ := operands node.op.operands (fun o inside => ⟨node, at_, inside⟩) found
      rw [op] at folded
      refine ⟨l, folded, fun s => ?_⟩
      rw [exact_, holdsIff at_]
      simp [op]

theorem Built.slotsOf (built : Built p) {e : ExprId} (stands : e.index < p.exprs.size) :
    ∃ l, p.slotsOf e = .ok l ∧ ∀ s, s ∈ l ↔ p.Holds e s := by
  obtain ⟨l, found, exact_⟩ := built.slotsWithin [] (Nat.lt_succ_self _) stands
  exact ⟨l, found, fun s => by simpa using exact_ s⟩

theorem Built.heldSlot (built : Built p) {e : ExprId} {s : SlotId} (holds : p.Holds e s) :
    s.index < p.slots.size := by
  obtain ⟨o, -, node, at_, op⟩ := holds
  obtain ⟨slot, there, -⟩ := Fits.slotAt (op ▸ (built.expr at_).1)
  exact Arena.below there

def Program.OnCycle (p : Program) (s : SlotId) : Prop := TransGen p.Feeds s s

structure Program.Blames (p : Program) (c : SlotId) (why : Failure) : Prop where
  cycle : p.OnCycle c
  named : ∃ slot block, p.slots.get? c = some slot ∧ p.blocks.get? slot.block = some block ∧
    why = .rejected (.cyclicInput slot.name block.name)

theorem Built.visitEnds (built : Built p) {fuel : Nat} {path clean : List SlotId} {s : SlotId}
    (once : path.Nodup) (stand : ∀ t ∈ path, t.index < p.slots.size)
    (leads : ∀ t ∈ path, TransGen p.Feeds t s) (enough : p.slots.size < fuel + path.length)
    (stands : s.index < p.slots.size) : (∃ after, p.visitSlot fuel path clean s = .ok after) ∨
      ∃ why, (∃ c, p.Blames c why) ∧ p.visitSlot fuel path clean s = .error why := by
  -- every slot of the path leads to `s`: it closes a cycle, or the path has no repetition and the
  -- fuel outlasts it
  induction fuel generalizing path clean s with
  | zero => exact absurd (pathLength once stand) (by omega)
  | succ fuel ih =>
    obtain ⟨slot, at_⟩ := Arena.atBelow stands
    unfold Program.visitSlot
    split
    · exact .inl ⟨_, rfl⟩
    · simp only [Arena.fetchOfGet at_, bind, Except.bind]
      split
      · rename_i inside
        obtain ⟨block, owner, -⟩ := (built.slot at_).owner
        simp only [Arena.fetchOfGet owner]
        exact .inr ⟨_, ⟨s, leads s inside, slot, block, at_, owner, rfl⟩, rfl⟩
      · rename_i outside
        cases holds : slot.value with
        | none => exact .inl ⟨_, rfl⟩
        | some value =>
          obtain ⟨next, found, exact_⟩ := built.slotsOf (built.bound ⟨slot, at_, holds⟩).2
          have further : ∀ t ∈ next, ∀ clean,
              (∃ after, p.visitSlot fuel (s :: path) clean t = .ok after) ∨
              ∃ why, (∃ c, p.Blames c why) ∧ p.visitSlot fuel (s :: path) clean t = .error why := by
            intro t inside clean
            have held := (exact_ t).mp inside
            have step : p.Feeds s t := ⟨value, ⟨slot, at_, holds⟩, held⟩
            refine ih (List.nodup_cons.mpr ⟨outside, once⟩) ?_ ?_ ?_ (built.heldSlot held)
            · exact List.forall_mem_cons.mpr ⟨stands, stand⟩
            · exact List.forall_mem_cons.mpr
                ⟨.single step, fun u there => .tail (leads u there) step⟩
            · simp only [List.length_cons]
              omega
          simp only [found]
          rcases Outcome.foldEnds (b := clean) further with ⟨after, folded⟩ | ⟨why, fault, folded⟩
          · exact .inl ⟨s :: after, by simp only [folded]; rfl⟩
          · exact .inr ⟨why, fault, by simp only [folded]⟩

theorem Built.cyclesEnd (built : Built p) : p.checkCycles = .ok () ∨
    ∃ why, (∃ c, p.Blames c why) ∧ p.checkCycles = .error why := by
  have visits : ∀ s ∈ p.slots.entries.map Prod.fst, ∀ clean,
      (∃ after, p.visitSlot (p.slots.size + 1) [] clean s = .ok after) ∨
      ∃ why, (∃ c, p.Blames c why) ∧
        p.visitSlot (p.slots.size + 1) [] clean s = .error why := by
    intro s inside clean
    obtain ⟨⟨_, slot⟩, listed, rfl⟩ := List.mem_map.mp inside
    refine built.visitEnds List.nodup_nil (fun t none => by cases none)
      (fun t none => by cases none) (Nat.lt_succ_self _) ?_
    exact Arena.below ((Arena.memEntries built.slotsFit).mp listed)
  rcases Outcome.foldEnds (b := []) visits with ⟨after, folded⟩ | ⟨why, fault, folded⟩
  · exact .inl (by simp only [Program.checkCycles, folded]; rfl)
  · exact .inr ⟨why, fault, by simp only [Program.checkCycles, folded]; rfl⟩

def Program.Grounded (p : Program) (s : SlotId) : Prop := Acc (fun j i => p.Feeds i j) s

theorem Program.Grounded.acyclic {s c : SlotId} (grounded : p.Grounded s)
    (reaches : ReflTransGen p.Feeds s c) : ¬ p.OnCycle c := by
  have below : p.Grounded c := by
    induction reaches with
    | refl => exact grounded
    | tail _ step ih => exact ih.inv step
  intro cycle
  induction below with
  | intro c _ ih =>
    -- the cycle leaves `c` by a step, and goes through the slot it steps to
    obtain ⟨d, step, back⟩ := TransGen.head'_iff.mp cycle
    exact ih d step (reaches.tail step) (TransGen.tail' back step)

theorem groundedFree {s : SlotId} {slot : Slot} (at_ : p.slots.get? s = some slot)
    (empty : slot.value = none) : p.Grounded s := by
  refine .intro s fun t step => ?_
  obtain ⟨value, ⟨again, there, holds⟩, -⟩ := step
  cases at_.symm.trans there
  rw [empty] at holds
  cases holds

theorem groundedBound {s : SlotId} {value : ExprId} (bound : p.IsBound s value)
    (grounded : ∀ j, p.Holds value j → p.Grounded j) : p.Grounded s := by
  refine .intro s fun t step => ?_
  obtain ⟨slot, at_, holds⟩ := bound
  obtain ⟨again, ⟨other, there, same⟩, inside⟩ := step
  cases at_.symm.trans there
  cases holds.symm.trans same
  exact grounded t inside

theorem foldGrounded {visit : List SlotId → SlotId → Outcome (List SlotId)}
    (steps : ∀ clean after s, visit clean s = .ok after → (∀ t ∈ clean, p.Grounded t) →
      (∀ t ∈ after, p.Grounded t) ∧ s ∈ after ∧ clean ⊆ after)
    {slots clean after : List SlotId} (ran : slots.foldlM visit clean = .ok after)
    (before : ∀ t ∈ clean, p.Grounded t) :
    (∀ t ∈ after, p.Grounded t) ∧ slots ⊆ after ∧ clean ⊆ after := by
  induction slots generalizing clean with
  | nil =>
    cases ran
    exact ⟨before, List.nil_subset _, List.Subset.refl _⟩
  | cons s rest ih =>
    simp only [List.foldlM_cons, Outcome.bindOk] at ran
    obtain ⟨mid, visited, ran⟩ := ran
    obtain ⟨grounded, here, kept⟩ := steps clean mid s visited before
    obtain ⟨all, others, more⟩ := ih ran grounded
    exact ⟨all, List.cons_subset.mpr ⟨more here, others⟩, List.Subset.trans kept more⟩

theorem Built.visitGrounded (built : Built p) {fuel : Nat} {path clean after : List SlotId}
    {s : SlotId} (ran : p.visitSlot fuel path clean s = .ok after)
    (before : ∀ t ∈ clean, p.Grounded t) :
    (∀ t ∈ after, p.Grounded t) ∧ s ∈ after ∧ clean ⊆ after := by
  induction fuel generalizing path clean after s with
  | zero => cases ran
  | succ fuel ih =>
    unfold Program.visitSlot at ran
    split at ran
    · rename_i known
      cases ran
      exact ⟨before, known, List.Subset.refl _⟩
    · simp only [Outcome.bindOk, Arena.fetchOk] at ran
      obtain ⟨slot, at_, ran⟩ := ran
      split at ran
      · simp only [Outcome.bindOk, cyclic, Outcome.rejectOk, and_false, exists_false] at ran
      · cases holds : slot.value with
        | none =>
          simp only [holds, Outcome.pureOk] at ran
          subst ran
          exact ⟨List.forall_mem_cons.mpr ⟨groundedFree at_ holds, before⟩,
            List.mem_cons_self, List.subset_cons_self _ _⟩
        | some value =>
          simp only [holds, Outcome.bindOk, Outcome.pureOk] at ran
          obtain ⟨next, found, last, folded, rfl⟩ := ran
          obtain ⟨all, others, kept⟩ := foldGrounded (fun _ _ _ => ih) folded before
          have bound : p.IsBound s value := ⟨slot, at_, holds⟩
          obtain ⟨l, listed, exact_⟩ := built.slotsOf (built.bound bound).2
          cases found.symm.trans listed
          have grounded := groundedBound bound fun t reads => all t (others ((exact_ t).mpr reads))
          exact ⟨List.forall_mem_cons.mpr ⟨grounded, all⟩, List.mem_cons_self,
            List.Subset.trans kept (List.subset_cons_self _ _)⟩

theorem Built.cyclesOk (built : Built p) : p.checkCycles = .ok () ↔ p.Acyclic := by
  constructor
  · intro passed
    simp only [Program.checkCycles, Outcome.bindOk, Outcome.pureOk, and_true] at passed
    obtain ⟨clean, folded⟩ := passed
    have grounded : ∀ s, p.Grounded s := by
      intro s
      by_cases stands : s.index < p.slots.size
      · obtain ⟨slot, at_⟩ := Arena.atBelow stands
        obtain ⟨all, listed, -⟩ := foldGrounded (fun _ _ _ ran => built.visitGrounded ran) folded
          (fun t none => by cases none)
        refine all s (listed (List.mem_map.mpr ⟨(s, slot), ?_, rfl⟩))
        exact (Arena.memEntries built.slotsFit).mpr at_
      · refine .intro s fun t step => ?_
        obtain ⟨value, bound, -⟩ := step
        exact absurd (built.bound bound).1 stands
    exact fun s cycle => (grounded s).acyclic .refl cycle
  · intro acyclic
    rcases built.cyclesEnd with passed | ⟨why, ⟨c, blamed⟩, -⟩
    · exact passed
    · exact absurd blamed.cycle (acyclic c)

end

end ShaderGraph
