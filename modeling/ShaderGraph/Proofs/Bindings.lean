import ShaderGraph.Proofs.Aggregate
import ShaderGraph.Proofs.History
/-! What bindings record over a run. The stamps of an input are those of the last call that bound
it, so an input is stale in a variable just where an assignment to it came later; and a block reads
what its bound inputs read, with the stamps of the input created last among those that agree. -/
namespace ShaderGraph

open Build

def Program.Supplies (p : Program) (b : BlockId) (v : VarId) (i : SlotId) : Prop :=
  ∃ slot value, p.slots.get? i = some slot ∧ slot.block = b ∧ slot.value = some value ∧
    p.Caches value v

section

variable {p : Program} {past late : List Attempt} {attempt : Attempt} {s : SlotId} {value : ExprId}

theorem Attempt.Binds.quiet (binds : attempt.Binds s value) (v : VarId) : ¬ attempt.Assigns v := by
  intro assigns
  cases binds <;> cases assigns

theorem Run.recorded (run : Run past p) (bound : LastBound past s value attempt late)
    {reads : Stamps} (known : attempt.before.readStamps value = .ok reads) (t : Stamp) :
    t ∈ reads.toList ↔ p.Caches value t.var ∧
      ∃ var, attempt.before.vars.get? t.var = some var ∧ var.mutations = t.mutation := by
  obtain ⟨early, rfl⟩ := bound.placed
  obtain ⟨built, grows⟩ := run.met
  obtain ⟨node, found, -⟩ := Outcome.bindOk.mp known
  have at_ := Arena.fetchOk.mp found
  rw [Program.Current.read at_ (built.exact at_).ascends known t, Program.Caches, Program.Caches,
    grows.exprAt (Arena.below at_)]

theorem Run.outdated (run : Run past p) (bound : LastBound past s value attempt late)
    {reads : Stamps} (known : attempt.before.readStamps value = .ok reads) {t : Stamp}
    (inside : t ∈ reads.toList) : p.outdated t = true ↔ ∃ e ∈ late, e.Assigns t.var := by
  obtain ⟨-, var, at_, same⟩ := (run.recorded bound known t).mp inside
  obtain ⟨early, rfl⟩ := bound.placed
  obtain ⟨now, there, -, risen⟩ := run.rises at_
  rw [or_iff_right (bound.binds.quiet _)] at risen
  rw [← risen, Program.outdated, there, Option.any_some, decide_eq_true_eq, ← same,
    UInt32.lt_iff_toNat_lt]

theorem staleExact (run : Run past p) {slot : Slot} (at_ : p.slots.get? s = some slot)
    (holds : slot.value = some value) :
    ∃ mine, p.stale slot.reads = .ok mine ∧ (∀ t ∈ mine, p.Caches value t.var) ∧
      (∃ attempt late, LastBound past s value attempt late) ∧
      ∀ other attempt late, LastBound past s other attempt late →
        ∀ t, t ∈ mine ↔ t ∈ slot.reads.toList ∧ ∃ e ∈ late, e.Assigns t.var := by
  obtain ⟨attempt, late, bound, known⟩ := run.boundSlot at_ holds
  refine ⟨_, staleOk (run.built.slot at_).stamped, fun t inside => ?_, ⟨attempt, late, bound⟩,
    fun other last since boundToo t => ?_⟩
  · exact ((run.recorded bound known t).mp (List.mem_filter.mp inside).1).1
  · obtain ⟨rfl, rfl, rfl⟩ := bound.unique boundToo
    rw [List.mem_filter]
    exact and_congr_right fun inside => run.outdated bound known inside

def reboundRun : List Call :=
  [.addStage .fragment, .literal (.int 0), .declare ⟨0⟩ "i" .int1 (some ⟨0⟩),
    .declare ⟨0⟩ "m" .mat2 none, .read ⟨0⟩, .read ⟨1⟩, .column ⟨2⟩ ⟨1⟩, .swizzle ⟨3⟩ "x",
    .block ⟨0⟩ "use", .input ⟨0⟩ (some "x") .float1 (some ⟨4⟩),
    .input ⟨0⟩ (some "y") .mat2 (some ⟨2⟩), .assign ⟨0⟩ ⟨4⟩ ⟨4⟩, .assign ⟨0⟩ ⟨1⟩ ⟨0⟩,
    .bind ⟨0⟩ ⟨4⟩, .assign ⟨0⟩ ⟨0⟩ ⟨0⟩, .assign ⟨1⟩ ⟨4⟩ ⟨4⟩]

theorem reboundRuns : ∃ p node stmt x y, Program.after { name := "p" } reboundRun = some p ∧
    p.blocks.get? ⟨0⟩ = some node ∧ p.stmts.get? node.statement = some stmt ∧
    stmt.reads.toList = [⟨⟨0⟩, 1⟩, ⟨⟨1⟩, 0⟩] ∧ p.slots.size = 2 ∧ p.slots.get? ⟨0⟩ = some x ∧
    x.value = some ⟨4⟩ ∧ x.reads.toList = [⟨⟨0⟩, 1⟩, ⟨⟨1⟩, 1⟩] ∧
    p.stale x.reads = .ok [⟨⟨1⟩, 1⟩] ∧ p.slots.get? ⟨1⟩ = some y ∧ y.block = ⟨0⟩ ∧
    y.value = some ⟨2⟩ ∧ p.Caches ⟨2⟩ ⟨1⟩ :=
  ⟨_, _, _, _, _, rfl, rfl, rfl, rfl, rfl, rfl, rfl, rfl, rfl, rfl, rfl, rfl, _, rfl,
    List.mem_cons_self⟩

theorem staleExactRebound : ∃ past p x attempt late,
    Program.after { name := "p" } reboundRun = some p ∧ Run past p ∧
    p.slots.get? ⟨0⟩ = some x ∧ p.stale x.reads = .ok [⟨⟨1⟩, 1⟩] ∧
    LastBound past ⟨0⟩ ⟨4⟩ attempt late ∧ (∃ e ∈ late, e.Assigns ⟨1⟩) ∧
    ¬ ∃ e ∈ late, e.Assigns ⟨0⟩ := by
  obtain ⟨p, _, _, x, _, ran, -, -, -, -, at_, holds, reads, stale, -⟩ := reboundRuns
  obtain ⟨past, run⟩ := ((Reachable.new "p").after ran).run
  obtain ⟨mine, found, -, ⟨attempt, late, bound⟩, exact⟩ := staleExact run at_ holds
  cases stale.symm.trans found
  have shown := exact _ _ _ bound
  refine ⟨past, p, x, attempt, late, ran, run, at_, stale, bound, ?_, fun assigned => ?_⟩
  · exact ((shown ⟨⟨1⟩, 1⟩).mp List.mem_cons_self).2
  · have inside := (shown ⟨⟨0⟩, 1⟩).mpr ⟨by simp [reads], assigned⟩
    cases List.mem_singleton.mp inside

theorem Built.inputsAscend (built : Built p) {b : BlockId} {node : Block}
    (at_ : p.blocks.get? b = some node) :
    node.inputs.Pairwise fun i j => i.index < j.index := by
  induction built generalizing node with
  | new name => exact absurd at_ emptyGet
  | edit before edit ih =>
    cases edit with
    | block =>
      rcases Arena.getPushed at_ with ⟨-, rfl⟩ | old
      · exact List.Pairwise.nil
      · exact ih old
    | slot =>
      obtain ⟨old, there, rfl⟩ := Arena.getReplaced at_
      split
      · refine List.pairwise_append.mpr ⟨ih there, List.pairwise_singleton .., ?_⟩
        intro i inside j fresh
        obtain ⟨slot, standing, -⟩ := (before.block there).1 i inside
        rw [List.mem_singleton.mp fresh]
        exact Arena.below standing
      · exact ih there
    | output =>
      obtain ⟨old, there, rfl⟩ := Arena.getReplaced at_
      split
      · have ascends := ih there
        exact ascends
      · exact ih there
    | _ => exact ih at_

theorem Run.stamps (run : Run past p) (bound : LastBound past s value attempt late)
    {reads : Stamps} (known : attempt.before.readStamps value = .ok reads) {v : VarId}
    (held : p.Caches value v) :
    ∃ var, attempt.before.vars.get? v = some var ∧ reads.get? v = some ⟨v, var.mutations⟩ := by
  have recorded := run.recorded bound known
  obtain ⟨early, rfl⟩ := bound.placed
  obtain ⟨built, grows⟩ := run.met
  obtain ⟨node, found, -⟩ := Outcome.bindOk.mp known
  have at_ := Arena.fetchOk.mp found
  obtain ⟨again, there, inside⟩ := held
  cases ((grows.exprAt (Arena.below at_)).trans at_).symm.trans there
  obtain ⟨⟨var, varAt, -⟩, -⟩ := (built.stateMem at_ v).mp inside
  have made : (⟨v, var.mutations⟩ : Stamp) ∈ reads.toList :=
    (recorded _).mpr ⟨⟨_, there, inside⟩, var, varAt, rfl⟩
  exact ⟨var, varAt, Stamps.getMem.mp made⟩

theorem Run.supplies (run : Run past p) {b : BlockId} {node : Block}
    (at_ : p.blocks.get? b = some node) (v : VarId) (i : SlotId) :
    p.Supplies b v i ↔ i ∈ node.inputs ∧
      ∃ slot t, p.slots.get? i = some slot ∧ slot.reads.get? v = some t := by
  constructor
  · intro h
    obtain ⟨slot, value, slotAt, rfl, holds, held⟩ := h
    obtain ⟨_, owner, inside⟩ := (run.built.slot slotAt).owner
    cases at_.symm.trans owner
    obtain ⟨attempt, late, bound, known⟩ := run.boundSlot slotAt holds
    obtain ⟨var, -, found⟩ := run.stamps bound known held
    exact ⟨inside, slot, _, slotAt, found⟩
  · intro h
    obtain ⟨inside, slot, t, slotAt, found⟩ := h
    obtain ⟨_, again, mine⟩ := (run.built.block at_).1 i inside
    cases slotAt.symm.trans again
    rcases run.slot slotAt with ⟨-, unread⟩ | ⟨value, attempt, late, holds, bound, known⟩
    · rw [unread] at found
      cases found
    · have same := Stamps.getVar found
      subst same
      have held := ((run.recorded bound known t).mp (Stamps.getMem.mpr found)).1
      exact ⟨slot, value, slotAt, mine, holds, held⟩

theorem heldSome {slots : List SlotId} {v : VarId} : p.heldOf v slots ≠ [] ↔
    ∃ i, i ∈ slots ∧ ∃ slot t, p.slots.get? i = some slot ∧ slot.reads.get? v = some t := by
  constructor
  · intro some
    obtain ⟨t, among⟩ := List.exists_mem_of_ne_nil _ some
    obtain ⟨i, inside, found⟩ := List.mem_filterMap.mp among
    obtain ⟨slot, at_, held⟩ := Option.bind_eq_some_iff.mp found
    exact ⟨i, inside, slot, t, at_, held⟩
  · intro h
    obtain ⟨i, inside, slot, t, at_, held⟩ := h
    exact List.ne_nil_of_mem
      (List.mem_filterMap.mpr ⟨i, inside, Option.bind_eq_some_iff.mpr ⟨slot, at_, held⟩⟩)

theorem heldLast {slots : List SlotId} (ascends : slots.Pairwise fun i j => i.index < j.index)
    {v : VarId} {i : SlotId} {slot : Slot} {t : Stamp} (inside : i ∈ slots)
    (at_ : p.slots.get? i = some slot) (held : slot.reads.get? v = some t)
    (last : ∀ j ∈ slots, ∀ ⦃other u⦄, p.slots.get? j = some other →
      other.reads.get? v = some u → j.index ≤ i.index) :
    (p.heldOf v slots).getLast? = some t := by
  obtain ⟨front, back, rfl⟩ := List.append_of_mem inside
  obtain ⟨-, ascends, -⟩ := List.pairwise_append.mp ascends
  have later := (List.pairwise_cons.mp ascends).1
  have silent : p.heldOf v back = [] := by
    refine List.filterMap_eq_nil_iff.mpr fun j among => ?_
    refine Option.eq_none_iff_forall_ne_some.mpr fun u found => ?_
    obtain ⟨other, otherAt, found⟩ := Option.bind_eq_some_iff.mp found
    have := last j (List.mem_append_right _ (List.mem_cons_of_mem _ among)) otherAt found
    have := later j among
    omega
  rw [Program.heldOf, List.filterMap_append, ← Program.heldOf, ← Program.heldOf, heldCons at_,
    silent, held]
  simp

theorem blockReadsExact (run : Run past p) {b : BlockId} {node : Block}
    (at_ : p.blocks.get? b = some node) :
    ∃ stmt, p.stmts.get? node.statement = some stmt ∧ ∀ v,
      (stmt.reads.contains v = true ↔ ∃ i, p.Supplies b v i) ∧
      ∀ i, p.Supplies b v i → (∀ j, p.Supplies b v j → j.index ≤ i.index) →
        (∃ value attempt late, LastBound past i value attempt late) ∧
        ∀ value attempt late, LastBound past i value attempt late →
          ∃ var, attempt.before.vars.get? v = some var ∧
            stmt.reads.get? v = some ⟨v, var.mutations⟩ := by
  have built := run.built
  obtain ⟨stmt, stmtAt, -⟩ := built.forest.blocks at_
  refine ⟨stmt, stmtAt, fun v => ?_⟩
  have decides : stmt.reads.get? v = (p.heldOf v node.inputs).getLast? :=
    (slotReadsGet (built.gathered at_ stmtAt) v).trans (Option.or_none ..)
  refine ⟨?_, fun i supplies last => ?_⟩
  · rw [Stamps.contains, decides, List.getLast?_isSome, heldSome]
    simp only [run.supplies at_]
  · obtain ⟨inside, slot, t, slotAt, found⟩ := (run.supplies at_ v i).mp supplies
    have shown := heldLast (built.inputsAscend at_) inside slotAt found
      fun j among other u otherAt held =>
        last j ((run.supplies at_ v j).mpr ⟨among, other, u, otherAt, held⟩)
    obtain ⟨again, value, againAt, -, holds, held⟩ := supplies
    cases slotAt.symm.trans againAt
    obtain ⟨attempt, late, bound, known⟩ := run.boundSlot slotAt holds
    refine ⟨⟨value, attempt, late, bound⟩, fun other last since boundToo => ?_⟩
    obtain ⟨rfl, rfl, rfl⟩ := bound.unique boundToo
    obtain ⟨var, varAt, stamp⟩ := run.stamps bound known held
    cases found.symm.trans stamp
    exact ⟨var, varAt, decides.trans shown⟩

theorem blockReadsExactRebound : ∃ past p node stmt value attempt late var,
    Program.after { name := "p" } reboundRun = some p ∧ Run past p ∧
    p.blocks.get? ⟨0⟩ = some node ∧ p.stmts.get? node.statement = some stmt ∧
    LastBound past ⟨1⟩ value attempt late ∧ attempt.before.vars.get? ⟨1⟩ = some var ∧
    var.mutations = 0 ∧ stmt.reads.get? ⟨1⟩ = some ⟨⟨1⟩, 0⟩ := by
  obtain ⟨p, node, stmt, _, y, ran, at_, stmtAt, reads, size, -, -, -, -, slotAt, mine, holds,
    held⟩ := reboundRuns
  obtain ⟨past, run⟩ := ((Reachable.new "p").after ran).run
  obtain ⟨again, there, exact⟩ := blockReadsExact run at_
  cases stmtAt.symm.trans there
  have last : ∀ j, p.Supplies ⟨0⟩ ⟨1⟩ j → j.index ≤ 1 := by
    intro j supplies
    obtain ⟨_, _, at_, -⟩ := supplies
    have := Arena.below at_
    omega
  obtain ⟨⟨value, attempt, late, bound⟩, stamped⟩ :=
    (exact ⟨1⟩).2 ⟨1⟩ ⟨y, _, slotAt, mine, holds, held⟩ last
  obtain ⟨var, varAt, stamp⟩ := stamped _ _ _ bound
  have shown : stmt.reads.get? ⟨1⟩ = some ⟨⟨1⟩, 0⟩ := by simp [Stamps.get?, reads]
  have zero := congrArg Stamp.mutation (Option.some.inj (stamp.symm.trans shown))
  exact ⟨past, p, node, stmt, value, attempt, late, var, ran, run, at_, stmtAt, bound, varAt, zero,
    shown⟩

end

end ShaderGraph
