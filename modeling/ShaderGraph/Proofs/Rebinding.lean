import ShaderGraph.Proofs.Aggregate
import ShaderGraph.Proofs.Handles
/-! Rebindings. What a program is after its inputs were bound and cleared is settled by what its
slots hold: the slots settle what each block statement reads, and nothing else has changed. So two
inputs may be bound in either order, and of two bindings of one input only the last one counts. -/
namespace ShaderGraph

open Build Program

structure Rebinding where
  slot : SlotId
  value : Option ExprId
  deriving DecidableEq, Repr

namespace Rebinding

def call (r : Rebinding) : Call :=
  match r.value with
  | some value => .bind r.slot value
  | none => .clear r.slot

def verdict (r : Rebinding) (p : Program) : Outcome Unit := do
  let slot ← p.slots.find r.slot
  checkDefault p slot.ty r.value

def fill (r : Rebinding) (reads : Stamps) (slot : Slot) : Slot :=
  { slot with value := r.value, reads }

end Rebinding

def Statement.Reread (old new : Statement) : Prop :=
  ∃ reads, new = { old with reads } ∧ ((∀ b, old.kind ≠ .block b) → reads = old.reads)

theorem Statement.Reread.refl (s : Statement) : s.Reread s := ⟨_, rfl, fun _ => rfl⟩

theorem Statement.Reread.trans {s t u : Statement} (one : s.Reread t) (two : t.Reread u) :
    s.Reread u := by
  obtain ⟨first, rfl, same⟩ := one
  obtain ⟨second, rfl, again⟩ := two
  exact ⟨second, rfl, fun plain => (again plain).trans (same plain)⟩

structure Refilled (p q : Program) : Prop where
  rest : q = { p with stmts := q.stmts, slots := q.slots }
  sized : q.stmts.size = p.stmts.size
  stmts : p.stmts.Extends Statement.Reread q.stmts

section

variable {p q r : Program}

theorem Refilled.trans (one : Refilled p q) (two : Refilled q r) : Refilled p r where
  rest := by
    rw [two.rest, one.rest]
  sized := two.sized.trans one.sized
  stmts := .trans .trans one.stmts two.stmts

theorem Refilled.blocks (refilled : Refilled p q) : q.blocks = p.blocks := by rw [refilled.rest]

theorem Built.rereadOnce (builtQ : Built q) (builtR : Built r) (one : Refilled p q)
    (two : Refilled p r) (slots : q.slots = r.slots) {s : StmtId} {node : Statement}
    (at_ : p.stmts.get? s = some node) : q.stmts.get? s = r.stmts.get? s := by
  obtain ⟨_, atQ, first, rfl, keptQ⟩ := one.stmts at_
  obtain ⟨_, atR, second, rfl, keptR⟩ := two.stmts at_
  have same : first = second := by
    by_cases plain : ∀ b, node.kind ≠ .block b
    · rw [keptQ plain, keptR plain]
    -- both sets are gathered from the same slots, so the history of rebindings does not show
    · obtain ⟨b, kind⟩ := Classical.not_forall_not.mp plain
      obtain ⟨block, blockAt, rfl⟩ := builtQ.forest.named atQ kind
      have there : r.blocks.get? b = some block := by
        rwa [two.blocks, ← one.blocks]
      have readQ := builtQ.gathered blockAt atQ
      have readR := builtR.gathered there atR
      have again : slotReads r block.inputs = .ok first :=
        slotReadsSame (fun t _ slot slotAt => ⟨slot, slots ▸ slotAt, rfl⟩) readQ
      exact Except.ok.inj (again.symm.trans readR)
  rw [atQ, atR, same]

theorem Built.settled (builtQ : Built q) (builtR : Built r) (one : Refilled p q)
    (two : Refilled p r) (slots : q.slots = r.slots) : q = r := by
  have stmts : q.stmts = r.stmts := by
    refine Arena.same (one.sized.trans two.sized.symm) fun s node at_ => ?_
    have below : s.index < p.stmts.size := one.sized ▸ Arena.below at_
    obtain ⟨old, before⟩ := Arena.atBelow below
    exact (builtQ.rereadOnce builtR one two slots before).symm.trans at_
  rw [one.rest, two.rest, stmts, slots]

namespace Rebinding

variable {one two : Rebinding}

structure Leaves (r : Rebinding) (p q : Program) : Prop where
  refilled : Refilled p q
  slots : ∃ reads, initReads p r.value = .ok reads ∧ q.slots = p.slots.replace r.slot (r.fill reads)

theorem verdictOk {r : Rebinding} {u : Unit} : r.verdict p = .ok u ↔
    ∃ slot, p.slots.get? r.slot = some slot ∧ ∀ e ∈ r.value, p.HasTy e slot.ty := by
  simp only [verdict, Outcome.bindOk, Arena.findOk, checkDefaultOk]

theorem verdictSafe (r : Rebinding) (p : Program) : (r.verdict p).Safe :=
  .bind (p.slots.findSafe _) fun slot _ => checkDefaultSafe slot.ty r.value

end Rebinding

theorem Built.fillRuns (built : Built p) {s : SlotId} {slot : Slot} {value : Option ExprId}
    (at_ : p.slots.get? s = some slot) (stands : ∀ e ∈ value, e.index < p.exprs.size) :
    ∃ m q, fillSlot s value p = .ok m q := by
  obtain ⟨block, owner, -⟩ := (built.slot at_).owner
  obtain ⟨stmt, stmtAt, -⟩ := built.forest.blocks owner
  obtain ⟨reads, known⟩ := built.initReadsOk (.refl p) stands
  have inputs : ∀ t ∈ block.inputs, t.index < (p.bound s value reads).slots.size := by
    intro t inside
    obtain ⟨other, there, -⟩ := (built.block owner).1 t inside
    exact Nat.lt_of_lt_of_eq (Arena.below there) (Arena.replaceSize ..).symm
  obtain ⟨all, gathered⟩ := slotReadsOk inputs
  simp only [fillSlot, refreshReads, bindOk, getOk, liftOk, pureOk, Arena.fetchOk, adjustSlotOk,
    adjustStatementOk]
  exact ⟨_, _, _, _, ⟨rfl, rfl⟩, reads, _, ⟨known, rfl⟩, _, _, ⟨rfl, rfl⟩, slot, _, ⟨at_, rfl⟩,
    .unit, _, ⟨Arena.below at_, rfl⟩, _, _, ⟨rfl, rfl⟩, block, _, ⟨owner, rfl⟩, all, _,
    ⟨gathered, rfl⟩, .unit, _, ⟨Arena.below stmtAt, rfl⟩, rfl, rfl⟩

theorem Rebinding.leaves (r : Rebinding) (built : Built p) {m : Message}
    (filled : fillSlot r.slot r.value p = .ok m q) : r.Leaves p q := by
  obtain ⟨slot, block, reads, all, at_, owner, known, -, rfl⟩ := fillSlotOk filled
  refine ⟨⟨rfl, Arena.replaceSize .., fun s node stmtAt => ?_⟩, reads, known, rfl⟩
  refine ⟨_, Arena.getReplaceOld stmtAt _, ?_⟩
  split
  · rename_i here
    subst here
    obtain ⟨stmt, found, kind, -⟩ := built.forest.blocks owner
    cases stmtAt.symm.trans found
    exact ⟨all, rfl, fun plain => absurd kind (plain _)⟩
  · exact .refl node

theorem Rebinding.accepted (r : Rebinding) (built : Built p) {slot : Slot} {m : Message}
    (at_ : p.slots.get? r.slot = some slot) (typed : ∀ e ∈ r.value, p.HasTy e slot.ty)
    (filled : fillSlot r.slot r.value p = .ok m q) : ∃ a, r.call.run p = .ok a q := by
  obtain ⟨block, owner, -⟩ := (built.slot at_).owner
  obtain ⟨s, value⟩ := r
  cases value with
  | none =>
    have ran : ∃ made, Build.clear s p = .ok made q := by
      simp only [clear, bindOk, getOk, liftOk, pureOk, Arena.findOk]
      exact ⟨_, _, _, ⟨rfl, rfl⟩, slot, _, ⟨at_, rfl⟩, m, _, filled, rfl, rfl⟩
    obtain ⟨made, ran⟩ := ran
    exact ⟨_, bindOk.mpr ⟨made, q, ran, rfl⟩⟩
  | some value =>
    have ran : ∃ made, Build.bind s value p = .ok made q := by
      simp only [Build.bind, bindOk, getOk, liftOk, pureOk, Arena.findOk, Arena.fetchOk,
        checkBindingOk]
      exact ⟨_, _, _, ⟨rfl, rfl⟩, slot, _, ⟨at_, rfl⟩, _, _, ⟨rfl, rfl⟩, .unit, _,
        ⟨typed _ rfl, rfl⟩, _, _, ⟨rfl, rfl⟩, block, _, ⟨owner, rfl⟩, m, _, filled, rfl, rfl⟩
    obtain ⟨made, ran⟩ := ran
    exact ⟨_, bindOk.mpr ⟨made, q, ran, rfl⟩⟩

theorem liftFailed {α β : Type} {x : Outcome α} {f : α → Build β} {e : Error}
    (failed : x = reject e) : (liftM x >>= f : Build β) p = .error (.rejected e) p := by
  rw [failed]
  rfl

theorem Rebinding.turnedDown (r : Rebinding) {e : Error} (failed : r.verdict p = reject e) :
    r.call.run p = .error (.rejected e) p := by
  obtain ⟨s, value⟩ := r
  rcases Outcome.bindFailed failed with absent | ⟨slot, found, failed⟩
  · cases value with
    | none =>
      refine bindError (x := Build.clear s) ?_
      change (liftM (p.slots.find s) >>= _ : Build _) p = _
      exact liftFailed absent
    | some value =>
      refine bindError (x := Build.bind s value) ?_
      change (liftM (p.slots.find s) >>= _ : Build _) p = _
      exact liftFailed absent
  · cases value with
    | none => cases failed
    | some value =>
      refine bindError (x := Build.bind s value) ?_
      change (liftM (p.slots.find s) >>= _ : Build _) p = _
      rw [found]
      change (liftM (checkBinding p slot.ty value) >>= _ : Build _) p = _
      exact liftFailed failed

theorem Built.letThrough (built : Built p) {r : Rebinding} (passed : r.verdict p = .ok ()) :
    ∃ a q, r.call.run p = .ok a q ∧ r.Leaves p q ∧ Built q := by
  obtain ⟨slot, at_, typed⟩ := Rebinding.verdictOk.mp passed
  obtain ⟨m, q, filled⟩ := built.fillRuns at_ fun e inside => (typed e inside).below
  obtain ⟨a, ran⟩ := r.accepted built at_ typed filled
  exact ⟨a, q, ran, r.leaves built filled, built.edits (stepEdits (.answered a ran))⟩

theorem Built.rebound (built : Built p) (r : Rebinding) :
    (r.verdict p = .ok () ∧ ∃ a q, r.call.run p = .ok a q ∧ r.Leaves p q ∧ Built q) ∨
    ∃ e, r.verdict p = reject e ∧ r.call.run p = .error (.rejected e) p := by
  rcases (r.verdictSafe p).cases with ⟨_, passed⟩ | ⟨e, failed⟩
  · exact .inl ⟨passed, built.letThrough passed⟩
  · exact .inr ⟨e, failed, r.turnedDown failed⟩

theorem Refilled.initReads (refilled : Refilled p q) (value : Option ExprId) :
    Build.initReads q value = Build.initReads p value := by
  rw [refilled.rest]
  rfl

theorem Refilled.checkDefault (refilled : Refilled p q) (ty : Ty) (value : Option ExprId) :
    Build.checkDefault q ty value = Build.checkDefault p ty value := by
  rw [refilled.rest]
  rfl

namespace Rebinding

variable {one two : Rebinding} {q₁ q₂ : Program}

theorem Leaves.verdict (leaves : one.Leaves p q) (two : Rebinding) :
    two.verdict q = two.verdict p := by
  obtain ⟨reads, -, slots⟩ := leaves.slots
  have seen : (q.slots.find two.slot).map Slot.ty = (p.slots.find two.slot).map Slot.ty := by
    rw [slots]
    exact Arena.findReplaced fun _ => rfl
  have checks (s : Program) : two.verdict s =
      (s.slots.find two.slot).map Slot.ty >>= fun ty => checkDefault s ty two.value := by
    rw [Rebinding.verdict]
    cases s.slots.find two.slot <;> rfl
  rw [checks q, checks p, seen]
  exact congrArg _ (funext fun ty => leaves.refilled.checkDefault ty two.value)

theorem Leaves.twice (built : Built q₁) (again : Built q₂) (first : one.Leaves p q)
    (second : two.Leaves q q₁) (alone : two.Leaves p q₂) (same : one.slot = two.slot) :
    q₁ = q₂ := by
  refine built.settled again (first.refilled.trans second.refilled) alone.refilled ?_
  obtain ⟨reads, -, slots⟩ := first.slots
  obtain ⟨late, known, later⟩ := second.slots
  obtain ⟨_, found, single⟩ := alone.slots
  rw [first.refilled.initReads] at known
  cases known.symm.trans found
  rw [later, slots, single, same]
  exact Arena.replaceOver fun _ => rfl

theorem Leaves.apart {r₁ r₂ : Program} (built : Built q₂) (again : Built r₂)
    (one₁ : one.Leaves p q₁) (two₁ : two.Leaves q₁ q₂) (two₂ : two.Leaves p r₁)
    (one₂ : one.Leaves r₁ r₂) (apart : one.slot ≠ two.slot) : q₂ = r₂ := by
  refine built.settled again (one₁.refilled.trans two₁.refilled)
    (two₂.refilled.trans one₂.refilled) ?_
  obtain ⟨_, early, slots₁⟩ := one₁.slots
  obtain ⟨_, late, slots₂⟩ := two₁.slots
  obtain ⟨_, early', slots₃⟩ := two₂.slots
  obtain ⟨_, late', slots₄⟩ := one₂.slots
  -- what the second fill records is what it would record in `p`, so the fills are the same two
  rw [one₁.refilled.initReads] at late
  rw [two₂.refilled.initReads] at late'
  cases late.symm.trans early'
  cases early.symm.trans late'
  rw [slots₂, slots₁, slots₄, slots₃]
  exact Arena.replaceApart apart _ _

end Rebinding

theorem Built.interchange (built : Built p) {one two : Rebinding} (apart : one.slot ≠ two.slot) :
    ∃ q, p.after [one.call, two.call] = some q ∧ p.after [two.call, one.call] = some q := by
  rcases built.rebound one with ⟨passed, a, q₁, ran, leaves, builtOne⟩ | ⟨e, failed, refused⟩ <;>
    rcases built.rebound two with
      ⟨passed', b, r₁, ran', leaves', builtTwo⟩ | ⟨e', failed', refused'⟩
  · obtain ⟨c, q₂, late, second, done⟩ := builtOne.letThrough ((leaves.verdict two).trans passed')
    obtain ⟨d, r₂, late', second', done'⟩ :=
      builtTwo.letThrough ((leaves'.verdict one).trans passed)
    cases Rebinding.Leaves.apart done done' leaves second leaves' second' apart
    exact ⟨q₂, (afterAnswered ran).trans (afterAnswered late),
      (afterAnswered ran').trans (afterAnswered late')⟩
  · have late := two.turnedDown ((leaves.verdict two).trans failed')
    exact ⟨q₁, (afterAnswered ran).trans (afterRefused late),
      (afterRefused refused').trans (afterAnswered ran)⟩
  · have late := one.turnedDown ((leaves'.verdict one).trans failed)
    exact ⟨r₁, (afterRefused refused).trans (afterAnswered ran'),
      (afterAnswered ran').trans (afterRefused late)⟩
  · exact ⟨p, (afterRefused refused).trans (afterRefused refused'),
      (afterRefused refused').trans (afterRefused refused)⟩

theorem Built.leavesOf (built : Built p) {r : Rebinding} {a : Logged Answer}
    (ran : r.call.run p = .ok a q) : r.verdict p = .ok () ∧ r.Leaves p q ∧ Built q := by
  rcases built.rebound r with ⟨passed, b, s, again, leaves, later⟩ | ⟨e, -, refused⟩
  · cases ran.symm.trans again
    exact ⟨passed, leaves, later⟩
  · cases ran.symm.trans refused

theorem Built.refusedAlike (built : Built p) {one two : Rebinding} {a : Logged Answer}
    (ran : one.call.run p = .ok a q) (e : Failure) :
    two.call.run q = .error e q ↔ two.call.run p = .error e p := by
  obtain ⟨-, leaves, builtNow⟩ := built.leavesOf ran
  have same := leaves.verdict two
  rcases built.rebound two with ⟨passed, b, r, ran, -⟩ | ⟨e', failed, refused⟩
  · obtain ⟨c, s, late, -⟩ := builtNow.letThrough (same.trans passed)
    rw [late, ran]
    exact ⟨fun given => (by cases given), fun given => (by cases given)⟩
  · rw [two.turnedDown (same.trans failed), refused]
    exact ⟨fun given => (by cases given; rfl), fun given => (by cases given; rfl)⟩

theorem Built.lastCounts (built : Built p) {one two : Rebinding} (same : one.slot = two.slot)
    {a b : Logged Answer} (ran : one.call.run p = .ok a q) (again : two.call.run q = .ok b r) :
    ∃ c, two.call.run p = .ok c r := by
  obtain ⟨-, first, builtNow⟩ := built.leavesOf ran
  obtain ⟨passed, second, done⟩ := builtNow.leavesOf again
  obtain ⟨c, s, late, alone, done'⟩ := built.letThrough ((first.verdict two).symm.trans passed)
  cases Rebinding.Leaves.twice done done' first second alone same
  exact ⟨c, late⟩

theorem Built.failedAlone (built : Built p) {one : Rebinding} {e : Failure}
    (failed : one.call.run p = .error e q) : q = p := by
  rcases built.rebound one with ⟨-, a, r, ran, -⟩ | ⟨_, -, refused⟩
  · cases failed.symm.trans ran
  · cases failed.symm.trans refused
    rfl

theorem Built.anyOrder (built : Built p) {rs ss : List Rebinding} (perm : rs.Perm ss)
    (apart : rs.Pairwise fun one two => one.slot ≠ two.slot) :
    p.after (rs.map Rebinding.call) = p.after (ss.map Rebinding.call) := by
  induction perm generalizing p with
  | nil => rfl
  | cons r _ ih =>
    have rest := (List.pairwise_cons.mp apart).2
    rcases built.rebound r with ⟨-, a, q, ran, -, later⟩ | ⟨e, -, refused⟩
    · exact (afterAnswered ran).trans ((ih later rest).trans (afterAnswered ran).symm)
    · exact (afterRefused refused).trans ((ih built rest).trans (afterRefused refused).symm)
  | swap one two rest =>
    have differ := List.rel_of_pairwise_cons apart List.mem_cons_self
    obtain ⟨q, either, or⟩ := built.interchange differ
    change p.after ([two.call, one.call] ++ rest.map Rebinding.call) =
      p.after ([one.call, two.call] ++ rest.map Rebinding.call)
    rw [afterAppend, afterAppend, either, or]
  | trans first _ ih ih' =>
    rw [ih built apart, ih' built ((first.pairwise_iff fun ne => ne.symm).mp apart)]

theorem rebindsCommute (reachable : Reachable p) (one two : Rebinding) :
    (one.slot ≠ two.slot →
      (∃ q, p.after [one.call, two.call] = some q ∧ p.after [two.call, one.call] = some q) ∧
      ∀ a q, one.call.run p = .ok a q → ∀ e,
        two.call.run q = .error e q ↔ two.call.run p = .error e p) ∧
    (one.slot = two.slot → ∀ a q b r, one.call.run p = .ok a q → two.call.run q = .ok b r →
      ∃ c, two.call.run p = .ok c r) ∧
    ∀ e q, one.call.run p = .error e q → q = p := by
  have built := reachableBuilt reachable
  exact ⟨fun apart => ⟨built.interchange apart, fun _ _ ran => built.refusedAlike ran⟩,
    fun same _ _ _ _ ran again => built.lastCounts same ran again,
    fun _ _ failed => built.failedAlone failed⟩

def rebindingRun : List Call :=
  [.addStage .fragment, .literal (.int 0), .literal (.bool true),
    .declare ⟨0⟩ "i" .int1 (some ⟨0⟩), .declare ⟨0⟩ "j" .int1 none, .read ⟨0⟩, .read ⟨1⟩,
    .block ⟨0⟩ "use", .input ⟨0⟩ (some "x") .int1 (some ⟨2⟩),
    .input ⟨0⟩ (some "y") .int1 (some ⟨2⟩), .assign ⟨0⟩ ⟨2⟩ ⟨0⟩]

theorem rebindingRuns : ∃ p q r s a b e stmt, Program.after { name := "p" } rebindingRun = some p ∧
    p.after [.bind ⟨0⟩ ⟨2⟩, .bind ⟨1⟩ ⟨3⟩] = some q ∧ q.stmts.get? ⟨2⟩ = some stmt ∧
    stmt.reads.toList = [⟨⟨0⟩, 1⟩, ⟨⟨1⟩, 0⟩] ∧ (Call.bind ⟨0⟩ ⟨2⟩).run p = .ok a r ∧
    (Call.clear ⟨0⟩).run r = .ok b s ∧
    (Call.bind ⟨0⟩ ⟨1⟩).run p = .error e p :=
  ⟨_, _, _, _, _, _, _, _, rfl, rfl, rfl, rfl, rfl, rfl, rfl⟩

theorem rebindsCommuteRebound : ∃ p q r s stmt a b c d e,
    Program.after { name := "p" } rebindingRun = some p ∧
    p.after [.bind ⟨0⟩ ⟨2⟩, .bind ⟨1⟩ ⟨3⟩] = some q ∧
    p.after [.bind ⟨1⟩ ⟨3⟩, .bind ⟨0⟩ ⟨2⟩] = some q ∧ q.stmts.get? ⟨2⟩ = some stmt ∧
    stmt.reads.toList = [⟨⟨0⟩, 1⟩, ⟨⟨1⟩, 0⟩] ∧ (Call.bind ⟨0⟩ ⟨2⟩).run p = .ok a r ∧
    (Call.clear ⟨0⟩).run r = .ok b s ∧ (Call.clear ⟨0⟩).run p = .ok c s ∧
    (Call.bind ⟨0⟩ ⟨1⟩).run p = .error e d ∧ d = p := by
  obtain ⟨p, q, r, s, a, b, e, stmt, ran, either, stmtAt, reads, bound, cleared, failed⟩ :=
    rebindingRuns
  have reachable := (Reachable.new "p").after ran
  have bothWays := (rebindsCommute reachable ⟨⟨0⟩, some ⟨2⟩⟩ ⟨⟨1⟩, some ⟨3⟩⟩).1 (by decide)
  obtain ⟨⟨again, first, second⟩, -⟩ := bothWays
  cases either.symm.trans first
  have last := (rebindsCommute reachable ⟨⟨0⟩, some ⟨2⟩⟩ ⟨⟨0⟩, none⟩).2.1 rfl _ _ _ _ bound cleared
  obtain ⟨c, alone⟩ := last
  have left := (rebindsCommute reachable ⟨⟨0⟩, some ⟨1⟩⟩ ⟨⟨0⟩, none⟩).2.2 _ _ failed
  exact ⟨p, q, r, s, stmt, a, b, c, _, _, ran, either, second, stmtAt, reads, bound, cleared, alone,
    failed, left⟩

end

end ShaderGraph
