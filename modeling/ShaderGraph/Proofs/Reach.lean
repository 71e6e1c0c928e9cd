import ShaderGraph.Proofs.Build.Calls
import ShaderGraph.Proofs.Build.Refused
/-! Every step of a run is a run of edits, so every reachable program is built by edits. -/
namespace ShaderGraph

open Build

variable {p q : Program}

theorem quietOk {α : Type} {answer : α → Answer} {x : Build α} {a : Logged Answer}
    (ran : Call.quiet answer x p = .ok a q) : ∃ made, x p = .ok made q := by
  simp only [Call.quiet, bindOk, pureOk] at ran
  obtain ⟨made, _, ran, -, rfl⟩ := ran
  exact ⟨made, ran⟩

theorem loggedOk {α : Type} {answer : α → Answer} {x : Build (Logged α)} {a : Logged Answer}
    (ran : Call.logged answer x p = .ok a q) : ∃ made, x p = .ok made q := by
  simp only [Call.logged, bindOk, pureOk] at ran
  obtain ⟨made, _, ran, -, rfl⟩ := ran
  exact ⟨made, ran⟩

theorem quietFailed {α : Type} {answer : α → Answer} {x : Build α} {e : Failure}
    (failed : Call.quiet answer x p = .error e q) : x p = .error e q := by
  rcases bindFailed failed with failed | ⟨a, r, -, failed⟩
  · exact failed
  · cases failed

theorem loggedFailed {α : Type} {answer : α → Answer} {x : Build (Logged α)} {e : Failure}
    (failed : Call.logged answer x p = .error e q) : x p = .error e q := by
  rcases bindFailed failed with failed | ⟨a, r, -, failed⟩
  · exact failed
  · cases failed

theorem bindRan {s : SlotId} {value : ExprId} {a : Logged Answer}
    (ran : (Call.bind s value).run p = .ok a q) : ∃ made, Build.bind s value p = .ok made q := by
  have logged : Call.logged (fun _ : Unit => Answer.done) (Build.bind s value) p = .ok a q := ran
  exact loggedOk logged

theorem clearRan {s : SlotId} {a : Logged Answer} (ran : (Call.clear s).run p = .ok a q) :
    ∃ made, Build.clear s p = .ok made q := by
  have logged : Call.logged (fun _ : Unit => Answer.done) (Build.clear s) p = .ok a q := ran
  exact loggedOk logged

def Call.compound : Call → Bool
  | .builtin .. | .columnAt .. | .elementAt .. | .input .. | .arrayInput .. => true
  | _ => false

theorem answeredEdit {call : Call} {answer : Logged Answer} (single : call.compound = false)
    (ran : call.run p = .ok answer q) : Edit p q := by
  cases call with
  | nextName stem =>
    obtain ⟨_, ran⟩ := quietOk ran
    obtain ⟨-, rfl⟩ := nextNameOk.mp ran
    exact .spend
  | addStage => obtain ⟨_, ran⟩ := quietOk ran; exact addStageEdit ran
  | addCompute => obtain ⟨_, ran⟩ := quietOk ran; exact addComputeEdit ran
  | uniform => obtain ⟨_, ran⟩ := quietOk ran; exact uniformEdit ran
  | stageInput => obtain ⟨_, ran⟩ := quietOk ran; exact stageInputEdit ran
  | stageOutput => obtain ⟨_, ran⟩ := quietOk ran; exact stageOutputEdit ran
  | literal => obtain ⟨_, ran⟩ := quietOk ran; exact (literalEdit ran).1
  | read => obtain ⟨_, ran⟩ := quietOk ran; exact (readEdit ran).1
  | compose => obtain ⟨_, ran⟩ := quietOk ran; exact (composeEdit ran).1
  | unary => obtain ⟨_, ran⟩ := quietOk ran; exact (unaryEdit ran).1
  | binary => obtain ⟨_, ran⟩ := quietOk ran; exact (binaryEdit ran).1
  | swizzle => obtain ⟨_, ran⟩ := quietOk ran; exact (swizzleEdit ran).1
  | column => obtain ⟨_, ran⟩ := quietOk ran; exact (columnEdit ran).1
  | element => obtain ⟨_, ran⟩ := quietOk ran; exact (elementEdit ran).1
  | call => obtain ⟨_, ran⟩ := quietOk ran; exact (callEdit ran).1
  | convert => obtain ⟨_, ran⟩ := quietOk ran; exact (convertEdit ran).1
  | sample => obtain ⟨_, ran⟩ := quietOk ran; exact (sampleEdit ran).1
  | load => obtain ⟨_, ran⟩ := quietOk ran; exact (loadEdit ran).1
  | declare => obtain ⟨_, ran⟩ := quietOk ran; exact declareEdit ran
  | assign => obtain ⟨_, ran⟩ := quietOk ran; exact assignEdit ran
  | store => obtain ⟨_, ran⟩ := quietOk ran; exact storeEdit ran
  | branch => obtain ⟨_, ran⟩ := quietOk ran; exact branchEdit ran
  | loop => obtain ⟨_, ran⟩ := quietOk ran; exact loopEdit ran
  | block => obtain ⟨_, ran⟩ := loggedOk ran; exact blockEdit ran
  | output => obtain ⟨_, ran⟩ := quietOk ran; exact outputEdit ran
  | bind => obtain ⟨_, ran⟩ := bindRan ran; exact (bindEdit ran).1
  | clear => obtain ⟨_, ran⟩ := clearRan ran; exact (clearEdit ran).1
  | builtin | columnAt | elementAt | input | arrayInput => cases single

theorem answeredAsides {call : Call} {answer : Logged Answer} (compound : call.compound = true)
    (ran : call.run p = .ok answer q) : Asides p q := by
  cases call with
  | builtin =>
    obtain ⟨_, ran⟩ := quietOk ran
    rcases builtinEdit ran with rfl | made
    · exact .refl
    · exact .single made
  | columnAt =>
    obtain ⟨_, ran⟩ := quietOk ran
    obtain ⟨_, index, view⟩ := columnAtEdits ran
    exact .tail (.single index) view
  | elementAt =>
    obtain ⟨_, ran⟩ := quietOk ran
    obtain ⟨_, index, view⟩ := elementAtEdits ran
    exact .tail (.single index) view
  | input => obtain ⟨_, ran⟩ := loggedOk ran; exact inputEdits ran
  | arrayInput => obtain ⟨_, ran⟩ := loggedOk ran; exact arrayInputEdits ran
  | _ => cases compound

theorem answeredEdits {call : Call} {answer : Logged Answer} (ran : call.run p = .ok answer q) :
    Edit p q ∨ Asides p q := by
  cases among : call.compound with
  | false => exact .inl (answeredEdit among ran)
  | true => exact .inr (answeredAsides among ran)

def Call.localTy? : Call → Option Ty
  | .declare _ _ ty _ | .output _ _ ty => some ty
  | _ => none

def Call.remains (p : Program) (error : Error) : Call → Program
  | .columnAt _ index | .elementAt _ index => p.withExpr ⟨.literal (.int index), .int1, []⟩
  | .declare _ _ ty _ | .output _ _ ty => if error = unlocal ty then p.spent else p
  | _ => p

theorem literalThen {value : Literal} {f : ExprId → Build ExprId} (rest : ∀ e, Still (f e))
    {error : Error} (failed : (literal value >>= f) p = .error (.rejected error) q) :
    q = p.withExpr ⟨.literal value, value.ty, []⟩ ∧ p.exprs.size < Handle.limit := by
  rcases bindFailed failed with failed | ⟨e, r, made, failed⟩
  · exact (firmAddExpr _ _ failed).elim
  · obtain ⟨state, known, room, -, rfl⟩ := addExprOk.mp made
    cases known
    exact ⟨rest e failed, room⟩

theorem refusedRemains {call : Call} {error : Error}
    (failed : call.run p = .error (.rejected error) q) : q = call.remains p error := by
  cases call with
  | nextName stem => exact (Firm.nextName stem (quietFailed failed)).elim
  | addStage => exact stillAddStage _ (quietFailed failed)
  | addCompute => exact stillAddCompute _ (quietFailed failed)
  | uniform => exact stillUniform _ _ (quietFailed failed)
  | stageInput => exact stillStageInput _ _ _ (quietFailed failed)
  | stageOutput => exact stillStageOutput _ _ _ (quietFailed failed)
  | builtin => exact stillBuiltin _ (quietFailed failed)
  | literal => exact (firmAddExpr _ _ (quietFailed failed)).elim
  | read => exact stillRead _ (quietFailed failed)
  | compose => exact stillCompose _ _ (quietFailed failed)
  | unary => exact stillUnary _ _ (quietFailed failed)
  | binary => exact stillBinary _ _ _ (quietFailed failed)
  | swizzle => exact stillSwizzle _ _ (quietFailed failed)
  | column => exact stillColumn _ _ (quietFailed failed)
  | columnAt => exact (literalThen (fun _ => stillColumn _ _) (quietFailed failed)).1
  | element => exact stillElement _ _ (quietFailed failed)
  | elementAt => exact (literalThen (fun _ => stillElement _ _) (quietFailed failed)).1
  | call => exact stillCall _ _ (quietFailed failed)
  | convert => exact stillConvert _ _ (quietFailed failed)
  | sample => exact stillSample _ _ (quietFailed failed)
  | load => exact stillLoad _ _ (quietFailed failed)
  | declare => exact (spendsDeclare _ _ _ _ (quietFailed failed)).left
  | assign => exact stillAssign _ _ _ (quietFailed failed)
  | store => exact stillStore _ _ _ _ (quietFailed failed)
  | branch => exact stillBranch _ _ (quietFailed failed)
  | loop => exact stillLoop _ _ _ (quietFailed failed)
  | block => exact stillBlock _ _ (loggedFailed failed)
  | input => exact stillInput _ _ _ _ (loggedFailed failed)
  | arrayInput => exact stillArrayInput _ _ _ _ (loggedFailed failed)
  | output => exact (spendsOutput _ _ _ (quietFailed failed)).left
  | bind slot value =>
    have failed : Call.logged (fun _ : Unit => Answer.done) (Build.bind slot value) p = _ := failed
    exact stillBind _ _ (loggedFailed failed)
  | clear slot =>
    have failed : Call.logged (fun _ : Unit => Answer.done) (Build.clear slot) p = _ := failed
    exact stillClear _ (loggedFailed failed)

inductive Trace (p : Program) : Program → Prop
  | nothing : Trace p p
  | name : Trace p p.spent
  | literal {index : Int32} (room : p.exprs.size < Handle.limit) :
      Trace p (p.withExpr ⟨.literal (.int index), .int1, []⟩)

theorem Trace.asides (trace : Trace p q) : Asides p q := by
  cases trace with
  | nothing => exact .refl
  | name => exact .single ⟨.spend, rfl⟩
  | literal room => exact .single ⟨.expr (.literal _) rfl room, rfl⟩

theorem refusedTrace {call : Call} {error : Error}
    (failed : call.run p = .error (.rejected error) q) : Trace p q := by
  have left := refusedRemains failed
  cases call with
  | columnAt =>
    obtain ⟨-, room⟩ := literalThen (fun _ => stillColumn _ _) (quietFailed failed)
    exact left ▸ .literal room
  | elementAt =>
    obtain ⟨-, room⟩ := literalThen (fun _ => stillElement _ _) (quietFailed failed)
    exact left ▸ .literal room
  | declare | output =>
    rw [left, Call.remains]
    split
    · exact .name
    · exact .nothing
  | _ => exact left ▸ .nothing

theorem stepEdit {call : Call} (step : Step p call q) : Edit p q ∨ Asides p q := by
  cases step with
  | answered answer ran => exact answeredEdits ran
  | refused error ran => exact .inr (refusedTrace ran).asides

theorem stepEdits {call : Call} (step : Step p call q) : Edits p q :=
  (stepEdit step).elim .single Asides.edits

/-- The program after a row of calls, refused ones included; a call that aborts ends the row. -/
def Program.after (p : Program) : List Call → Option Program
  | [] => some p
  | call :: rest =>
    match call.run p with
    | .ok _ q => q.after rest
    | .error (.rejected _) q => q.after rest
    | .error (.aborted _) _ => none

theorem Program.afterAnswered {call : Call} {rest : List Call} {a : Logged Answer}
    (ran : call.run p = .ok a q) : p.after (call :: rest) = q.after rest := by
  rw [Program.after, ran]

theorem Program.afterRefused {call : Call} {rest : List Call} {e : Error}
    (refused : call.run p = .error (.rejected e) q) : p.after (call :: rest) = q.after rest := by
  rw [Program.after, refused]

theorem Program.afterAppend (p : Program) (front back : List Call) :
    p.after (front ++ back) = (p.after front).bind fun q => q.after back := by
  induction front generalizing p with
  | nil => rfl
  | cons call rest ih =>
    simp only [List.cons_append, Program.after]
    split
    · exact ih _
    · exact ih _
    · rfl

theorem Reachable.after {calls : List Call} (before : Reachable p) (ran : p.after calls = some q) :
    Reachable q := by
  induction calls generalizing p with
  | nil =>
    cases ran
    exact before
  | cons call rest ih =>
    unfold Program.after at ran
    split at ran
    · rename_i answer r answered
      exact ih (.call before (.answered answer answered)) ran
    · rename_i error r refused
      exact ih (.call before (.refused error refused)) ran
    · cases ran

theorem reachableBuilt (reachable : Reachable p) : Built p := by
  induction reachable with
  | new name => exact .new name
  | call _ step ih => exact ih.edits (stepEdits step)

end ShaderGraph
