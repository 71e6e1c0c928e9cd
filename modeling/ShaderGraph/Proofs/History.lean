import ShaderGraph.Proofs.Build.Frame
import ShaderGraph.Proofs.Reach
import ShaderGraph.Proofs.Stamping
/-! Runs with their past. A run keeps each call with the program it was made on, newest first.
What a slot holds is then a matter of the last call that bound it, and how far a variable's count
has come since is a matter of the assignments after that call. -/
namespace ShaderGraph

open Build

structure Attempt where
  before : Program
  call : Call

namespace Attempt

inductive Binds : Attempt → SlotId → ExprId → Prop
  | bind {p q : Program} {s : SlotId} {value : ExprId} {answer : Logged Answer}
      (ran : (Call.bind s value).run p = .ok answer q) : Binds ⟨p, .bind s value⟩ s value
  | default {p q : Program} {b : BlockId} {name : Option String} {ty : Ty} {value : ExprId}
      {s : SlotId} {log : List Message}
      (ran : (Call.input b name ty (some value)).run p = .ok ⟨.slot s, log⟩ q) :
      Binds ⟨p, .input b name ty (some value)⟩ s value

inductive Assigns : Attempt → VarId → Prop
  | assign {p q : Program} {scope : ScopeId} {target value : ExprId} {answer : Logged Answer}
      {v : VarId} (ran : (Call.assign scope target value).run p = .ok answer q)
      (rooted : p.root target = .ok (some v)) : Assigns ⟨p, .assign scope target value⟩ v

end Attempt

inductive Run : List Attempt → Program → Prop
  | new (name : String) : Run [] { name }
  | call {past : List Attempt} {p q : Program} {call : Call} (before : Run past p)
      (step : Step p call q) : Run (⟨p, call⟩ :: past) q

/-- `attempt` is the last call of the past that bound `s`, and `late` are the calls since. -/
structure LastBound (past : List Attempt) (s : SlotId) (value : ExprId) (attempt : Attempt)
    (late : List Attempt) : Prop where
  placed : ∃ early, past = late ++ attempt :: early
  binds : attempt.Binds s value
  last : ∀ e ∈ late, ∀ other, ¬ e.Binds s other

def Call.stirs : Call → Bool
  | .assign .. | .input .. | .arrayInput .. | .bind .. | .clear .. => true
  | _ => false

section

variable {p q : Program} {call : Call}

theorem Attempt.Binds.stirs {s : SlotId} {value : ExprId} (binds : Binds ⟨p, call⟩ s value) :
    call.stirs = true := by
  cases binds <;> rfl

theorem Attempt.Assigns.stirs {v : VarId} (assigns : Assigns ⟨p, call⟩ v) : call.stirs = true := by
  cases assigns
  rfl

theorem Attempt.Binds.answered {attempt : Attempt} {s : SlotId} {value : ExprId}
    (binds : attempt.Binds s value) :
    ∃ answer q, attempt.call.run attempt.before = .ok answer q := by
  cases binds with
  | bind ran | default ran => exact ⟨_, _, ran⟩

theorem Attempt.Assigns.answered {attempt : Attempt} {v : VarId} (assigns : attempt.Assigns v) :
    ∃ answer q, attempt.call.run attempt.before = .ok answer q := by
  cases assigns with
  | assign ran => exact ⟨_, _, ran⟩

theorem Trace.untouched (trace : Trace p q) : Untouched p q := by
  cases trace with
  | nothing => exact .refl p
  | name | literal => exact .same rfl rfl rfl

theorem answeredCalm {answer : Logged Answer} (calm : call.stirs = false)
    (ran : call.run p = .ok answer q) : Untouched p q := by
  cases call with
  | nextName stem =>
    obtain ⟨_, ran⟩ := quietOk ran
    obtain ⟨-, rfl⟩ := nextNameOk.mp ran
    exact .same rfl rfl rfl
  | addStage => obtain ⟨_, ran⟩ := quietOk ran; exact calmAddStage _ ran
  | addCompute => obtain ⟨_, ran⟩ := quietOk ran; exact calmAddCompute _ ran
  | uniform => obtain ⟨_, ran⟩ := quietOk ran; exact calmUniform _ _ ran
  | stageInput => obtain ⟨_, ran⟩ := quietOk ran; exact calmStageInput _ _ _ ran
  | stageOutput => obtain ⟨_, ran⟩ := quietOk ran; exact calmStageOutput _ _ _ ran
  | builtin => obtain ⟨_, ran⟩ := quietOk ran; exact calmBuiltin _ ran
  | literal => obtain ⟨_, ran⟩ := quietOk ran; exact calmLiteral _ ran
  | read => obtain ⟨_, ran⟩ := quietOk ran; exact calmRead _ ran
  | compose => obtain ⟨_, ran⟩ := quietOk ran; exact calmCompose _ _ ran
  | unary => obtain ⟨_, ran⟩ := quietOk ran; exact calmUnary _ _ ran
  | binary => obtain ⟨_, ran⟩ := quietOk ran; exact calmBinary _ _ _ ran
  | swizzle => obtain ⟨_, ran⟩ := quietOk ran; exact calmSwizzle _ _ ran
  | column => obtain ⟨_, ran⟩ := quietOk ran; exact calmColumn _ _ ran
  | columnAt => obtain ⟨_, ran⟩ := quietOk ran; exact calmColumnAt _ _ ran
  | element => obtain ⟨_, ran⟩ := quietOk ran; exact calmElement _ _ ran
  | elementAt => obtain ⟨_, ran⟩ := quietOk ran; exact calmElementAt _ _ ran
  | call => obtain ⟨_, ran⟩ := quietOk ran; exact calmCall _ _ ran
  | convert => obtain ⟨_, ran⟩ := quietOk ran; exact calmConvert _ _ ran
  | sample => obtain ⟨_, ran⟩ := quietOk ran; exact calmSample _ _ ran
  | load => obtain ⟨_, ran⟩ := quietOk ran; exact calmLoad _ _ ran
  | declare => obtain ⟨_, ran⟩ := quietOk ran; exact calmDeclare _ _ _ _ ran
  | store => obtain ⟨_, ran⟩ := quietOk ran; exact calmStore _ _ _ _ ran
  | branch => obtain ⟨_, ran⟩ := quietOk ran; exact calmBranch _ _ ran
  | loop => obtain ⟨_, ran⟩ := quietOk ran; exact calmLoop _ _ _ ran
  | block => obtain ⟨_, ran⟩ := loggedOk ran; exact calmBlock _ _ ran
  | output => obtain ⟨_, ran⟩ := quietOk ran; exact calmOutput _ _ _ ran
  | assign | input | arrayInput | bind | clear => cases calm

inductive Carries (p : Program) (call : Call) (s : SlotId) (slot : Slot) : Prop
  | bound {value : ExprId} (holds : slot.value = some value)
      (binds : Attempt.Binds ⟨p, call⟩ s value) (known : p.readStamps value = .ok slot.reads)
  | free (unbound : ∀ other, ¬ Attempt.Binds ⟨p, call⟩ s other) (empty : slot.value = none)
      (unread : slot.reads = .empty)
  | kept (unbound : ∀ other, ¬ Attempt.Binds ⟨p, call⟩ s other) {old : Slot}
      (at_ : p.slots.get? s = some old) (value : slot.value = old.value)
      (reads : slot.reads = old.reads)

theorem bindBinds {t s : SlotId} {given value : ExprId}
    (binds : Attempt.Binds ⟨p, .bind t given⟩ s value) : t = s := by
  cases binds
  rfl

theorem inputBinds {b : BlockId} {name : Option String} {ty : Ty} {default : Option ExprId}
    {s : SlotId} {value : ExprId} : Attempt.Binds ⟨p, .input b name ty default⟩ s value ↔
      default = some value ∧ ∃ made q, Build.input b name ty default p = .ok made q ∧
        made.value = s := by
  constructor
  · intro binds
    cases binds with
    | default ran =>
      simp only [Call.run, Call.logged, bindOk, pureOk] at ran
      obtain ⟨made, _, ran, answer, -⟩ := ran
      cases answer
      exact ⟨rfl, made, _, ran, rfl⟩
  · intro h
    obtain ⟨rfl, made, q, ran, rfl⟩ := h
    have answered : (Call.input b name ty (some value)).run p =
        .ok ⟨.slot made.value, made.log⟩ q := by
      simp only [Call.run, Call.logged, bindOk, pureOk]
      exact ⟨made, q, ran, rfl, rfl⟩
    exact .default answered

theorem inputCarries {b : BlockId} {name : Option String} {ty : Ty} {default : Option ExprId}
    {made : Logged SlotId} (ran : input b name ty default p = .ok made q) {s : SlotId} {slot : Slot}
    (at_ : q.slots.get? s = some slot) : Carries p (.input b name ty default) s slot := by
  obtain ⟨fresh, -, reads, new, known, value, same, slots⟩ := inputSlots ran
  rcases Arena.getPushed (slots ▸ at_) with ⟨rfl, rfl⟩ | old
  · cases default with
    | none =>
      cases known
      refine .free (fun other binds => ?_) value same
      cases (inputBinds.mp binds).1
    | some e => exact .bound value (inputBinds.mpr ⟨rfl, made, q, ran, fresh⟩) (same ▸ known)
  · refine .kept (fun other binds => ?_) old rfl rfl
    -- the call answers with the slot it has added, and that one is not old
    obtain ⟨-, again, _, ranAgain, here⟩ := inputBinds.mp binds
    cases ran.symm.trans ranAgain
    exact Arena.neFresh old (here.symm.trans fresh)

theorem bindCarries {t : SlotId} {given : ExprId} {answer : Logged Answer}
    (ran : (Call.bind t given).run p = .ok answer q) {s : SlotId} {slot : Slot}
    (at_ : q.slots.get? s = some slot) : Carries p (.bind t given) s slot := by
  obtain ⟨_, made⟩ := bindRan ran
  obtain ⟨reads, known, slots, -⟩ := bindSlots made
  obtain ⟨old, there, same⟩ := Arena.getReplaced (slots ▸ at_)
  by_cases here : t = s
  · rw [if_pos here] at same
    subst here same
    exact .bound rfl (.bind ran) known
  · rw [if_neg here] at same
    exact .kept (fun other binds => here (bindBinds binds)) there (same ▸ rfl) (same ▸ rfl)

theorem clearCarries {t : SlotId} {made : Logged Unit} (ran : clear t p = .ok made q) {s : SlotId}
    {slot : Slot} (at_ : q.slots.get? s = some slot) : Carries p (.clear t) s slot := by
  have unbound : ∀ other, ¬ Attempt.Binds ⟨p, .clear t⟩ s other :=
    fun other binds => by cases binds
  obtain ⟨slots, -⟩ := clearSlots ran
  obtain ⟨old, there, same⟩ := Arena.getReplaced (slots ▸ at_)
  split at same
  · exact .free unbound (same ▸ rfl) (same ▸ rfl)
  · exact .kept unbound there (same ▸ rfl) (same ▸ rfl)

theorem stepCarries (step : Step p call q) {s : SlotId} {slot : Slot}
    (at_ : q.slots.get? s = some slot) : Carries p call s slot := by
  cases step with
  | refused error failed =>
    refine .kept (fun other binds => ?_) ((refusedTrace failed).untouched.slots ▸ at_) rfl rfl
    obtain ⟨_, _, ran⟩ := binds.answered
    cases failed.symm.trans ran
  | answered answer ran =>
    cases calm : call.stirs with
    | false =>
      refine .kept (fun other binds => ?_) ((answeredCalm calm ran).slots ▸ at_) rfl rfl
      rw [binds.stirs] at calm
      cases calm
    | true =>
      cases call with
      | assign =>
        obtain ⟨_, ran⟩ := quietOk ran
        obtain ⟨_, -, -, -, slots, -⟩ := assignCounts ran
        exact .kept (fun _ binds => by cases binds) (slots ▸ at_) rfl rfl
      | input =>
        obtain ⟨_, ran⟩ := loggedOk ran
        exact inputCarries ran at_
      | arrayInput b name elem size =>
        obtain ⟨_, ran⟩ := loggedOk ran
        obtain ⟨ty, -, ran⟩ := liftThen ran
        -- as an input without a default, which binds nothing either
        cases inputCarries ran at_ with
        | bound _ binds => cases (inputBinds.mp binds).1
        | free _ empty unread => exact .free (fun _ binds => by cases binds) empty unread
        | kept _ there value reads => exact .kept (fun _ binds => by cases binds) there value reads
      | bind => exact bindCarries ran at_
      | clear =>
        obtain ⟨_, ran⟩ := clearRan ran
        exact clearCarries ran at_
      | _ => cases calm

inductive Rises (attempt : Attempt) (v : VarId) (var now : Variable) : Prop
  | once (assigns : attempt.Assigns v)
      (more : now.mutations.toNat = var.mutations.toNat + 1)
  | never (other : ¬ attempt.Assigns v) (same : now = var)

theorem assignSteps {scope : ScopeId} {target value : ExprId} {answer : Logged Answer}
    (ran : (Call.assign scope target value).run p = .ok answer q) (built : Built p) {v : VarId}
    {var : Variable} (at_ : p.vars.get? v = some var) : ∃ now, q.vars.get? v = some now ∧
      Rises ⟨p, .assign scope target value⟩ v var now := by
  obtain ⟨_, made⟩ := quietOk ran
  obtain ⟨w, rooted, room, -, -, vars⟩ := assignCounts made
  refine ⟨_, vars ▸ Arena.getReplaceOld at_ _, ?_⟩
  split
  · rename_i here
    subst here
    refine .once (.assign ran rooted) ?_
    rw [built.counted.next at_ room, built.counted at_]
  · rename_i other
    refine .never (fun assigns => ?_) rfl
    cases assigns with
    | assign _ again =>
      cases rooted.symm.trans again
      exact other rfl

theorem stepRises (step : Step p call q) (built : Built p) {v : VarId} {var : Variable}
    (at_ : p.vars.get? v = some var) :
    ∃ now, q.vars.get? v = some now ∧ Rises ⟨p, call⟩ v var now := by
  have kept (vars : p.vars.Extends Eq q.vars) (other : ¬ Attempt.Assigns ⟨p, call⟩ v) :
      ∃ now, q.vars.get? v = some now ∧ Rises ⟨p, call⟩ v var now := by
    obtain ⟨_, there, rfl⟩ := vars at_
    exact ⟨_, there, .never other rfl⟩
  cases step with
  | refused error failed =>
    refine kept (refusedTrace failed).untouched.vars fun assigns => ?_
    obtain ⟨_, _, ran⟩ := assigns.answered
    cases failed.symm.trans ran
  | answered answer ran =>
    cases calm : call.stirs with
    | false =>
      refine kept (answeredCalm calm ran).vars fun assigns => ?_
      rw [assigns.stirs] at calm
      cases calm
    | true =>
      cases call with
      | assign => exact assignSteps ran built at_
      | input =>
        obtain ⟨_, ran⟩ := loggedOk ran
        obtain ⟨-, vars, -⟩ := inputSlots ran
        exact kept (.same vars) fun assigns => by cases assigns
      | arrayInput =>
        obtain ⟨_, ran⟩ := loggedOk ran
        obtain ⟨_, -, ran⟩ := liftThen ran
        obtain ⟨-, vars, -⟩ := inputSlots ran
        exact kept (.same vars) fun assigns => by cases assigns
      | bind =>
        obtain ⟨_, ran⟩ := bindRan ran
        obtain ⟨_, -, -, vars⟩ := bindSlots ran
        exact kept (.same vars) fun assigns => by cases assigns
      | clear =>
        obtain ⟨_, ran⟩ := clearRan ran
        obtain ⟨-, vars⟩ := clearSlots ran
        exact kept (.same vars) fun assigns => by cases assigns
      | _ => cases calm

end

section

variable {p : Program} {past late : List Attempt} {attempt : Attempt} {s : SlotId} {value : ExprId}

theorem Run.reachable (run : Run past p) : Reachable p := by
  induction run with
  | new name => exact .new name
  | call _ step ih => exact .call ih step

theorem Reachable.run (reachable : Reachable p) : ∃ past, Run past p := by
  induction reachable with
  | new name => exact ⟨[], .new name⟩
  | call _ step ih =>
    obtain ⟨past, run⟩ := ih
    exact ⟨_, .call run step⟩

theorem Run.after {calls : List Call} {q : Program} (before : Run past p)
    (ran : p.after calls = some q) : ∃ late, late.length = calls.length ∧ Run (late ++ past) q := by
  induction calls generalizing past p with
  | nil =>
    cases ran
    exact ⟨[], rfl, before⟩
  | cons call rest ih =>
    unfold Program.after at ran
    split at ran
    · rename_i answer r answered
      obtain ⟨late, length, run⟩ := ih (.call before (.answered answer answered)) ran
      exact ⟨late ++ [⟨p, call⟩], by simp [length], by simpa using run⟩
    · rename_i error r refused
      obtain ⟨late, length, run⟩ := ih (.call before (.refused error refused)) ran
      exact ⟨late ++ [⟨p, call⟩], by simp [length], by simpa using run⟩
    · cases ran

theorem Run.built (run : Run past p) : Built p := reachableBuilt run.reachable

theorem Run.met (run : Run (late ++ attempt :: past) p) :
    Built attempt.before ∧ Grows attempt.before p := by
  induction late generalizing p with
  | nil =>
    cases run with
    | call before step => exact ⟨before.built, (stepEdits step).grows⟩
  | cons newest late ih =>
    cases run with
    | call before step =>
      obtain ⟨built, grows⟩ := ih before
      exact ⟨built, grows.trans (stepEdits step).grows⟩

theorem Run.rises (run : Run (late ++ attempt :: past) p) {v : VarId} {var : Variable}
    (at_ : attempt.before.vars.get? v = some var) : ∃ now, p.vars.get? v = some now ∧
      var.mutations.toNat ≤ now.mutations.toNat ∧
      (var.mutations.toNat < now.mutations.toNat ↔
        attempt.Assigns v ∨ ∃ e ∈ late, e.Assigns v) := by
  induction late generalizing p with
  | nil =>
    cases run with
    | call before step =>
      obtain ⟨now, there, rises⟩ := stepRises step before.built at_
      cases rises with
      | once assigns more => exact ⟨now, there, by omega, by simp [assigns, more]⟩
      | never other same =>
        subst same
        exact ⟨now, there, Nat.le_refl _, by simp [other]⟩
  | cons newest late ih =>
    cases run with
    | call before step =>
      obtain ⟨mid, midAt, low, risen⟩ := ih before
      obtain ⟨now, there, rises⟩ := stepRises step before.built midAt
      cases rises with
      | once assigns more =>
        exact ⟨now, there, by omega, iff_of_true (by omega) (.inr ⟨_, List.mem_cons_self, assigns⟩)⟩
      | never other same =>
        subst same
        refine ⟨now, there, low, ?_⟩
        rw [risen]
        simp [other]

theorem Attempt.Binds.unique {other : ExprId} (one : attempt.Binds s value)
    (two : attempt.Binds s other) : other = value := by
  cases one with
  | bind => cases two; rfl
  | default => cases two; rfl

theorem LastBound.unique {other : ExprId} {again : Attempt} {since : List Attempt}
    (one : LastBound past s value attempt late) (two : LastBound past s other again since) :
    other = value ∧ again = attempt ∧ since = late := by
  obtain ⟨⟨early, rfl⟩, binds, last⟩ := one
  obtain ⟨⟨before, same⟩, bindsToo, lastToo⟩ := two
  induction late generalizing since with
  | nil =>
    cases since with
    | nil =>
      cases same
      exact ⟨binds.unique bindsToo, rfl, rfl⟩
    | cons newest since =>
      cases same
      exact absurd binds (lastToo _ List.mem_cons_self _)
  | cons newest late ih =>
    cases since with
    | nil =>
      cases same
      exact absurd bindsToo (last _ List.mem_cons_self _)
    | cons latest since =>
      obtain ⟨rfl, tails⟩ := List.cons.inj same
      obtain ⟨value, attempt, rfl⟩ := ih (fun e inside => last e (List.mem_cons_of_mem _ inside))
        (fun e inside => lastToo e (List.mem_cons_of_mem _ inside)) tails
      exact ⟨value, attempt, rfl⟩

theorem Run.slot (run : Run past p) {slot : Slot} (at_ : p.slots.get? s = some slot) :
    slot.value = none ∧ slot.reads = .empty ∨
      ∃ value attempt late, slot.value = some value ∧ LastBound past s value attempt late ∧
        attempt.before.readStamps value = .ok slot.reads := by
  induction run generalizing slot with
  | new name => exact absurd at_ emptyGet
  | @call past p q call before step ih =>
    cases stepCarries step at_ with
    | bound holds binds known =>
      exact .inr ⟨_, ⟨p, call⟩, [], holds, ⟨⟨past, rfl⟩, binds, fun _ inside => by cases inside⟩,
        known⟩
    | free _ empty unread => exact .inl ⟨empty, unread⟩
    | kept unbound there value reads =>
      rw [value, reads]
      rcases ih there with idle | ⟨value, attempt, late, holds, bound, known⟩
      · exact .inl idle
      · refine .inr ⟨value, attempt, ⟨p, call⟩ :: late, holds, ⟨?_, bound.binds, ?_⟩, known⟩
        · obtain ⟨early, rfl⟩ := bound.placed
          exact ⟨early, rfl⟩
        · intro e inside
          rcases List.mem_cons.mp inside with rfl | inside
          · exact unbound
          · exact bound.last e inside

theorem Run.boundSlot (run : Run past p) {slot : Slot} (at_ : p.slots.get? s = some slot)
    (holds : slot.value = some value) : ∃ attempt late, LastBound past s value attempt late ∧
      attempt.before.readStamps value = .ok slot.reads := by
  rcases run.slot at_ with ⟨empty, -⟩ | ⟨again, attempt, late, same, bound, known⟩
  · rw [holds] at empty
    cases empty
  · cases holds.symm.trans same
    exact ⟨attempt, late, bound, known⟩

end

end ShaderGraph
