import ShaderGraph.Proofs.Locality
import ShaderGraph.Proofs.Stamping
/-! A place is spelled alike where it is read and where it is assigned to. What can be assigned to
is a chain of columns, elements and swizzles that starts from a variable; both ways of writing it go
down the same chain, and a target language that writes to a column or an element as it reads it gets
the same text from both. Such a chain is never refused as no place; only an index on it may be. -/
namespace ShaderGraph

open Relation

structure Spelling.WritesAsReads (sp : Spelling) : Prop where
  column : sp.columnTarget = sp.column
  element : sp.elementTarget = sp.element

inductive Accessor
  | column (index : IndexText)
  | element (index : IndexText)
  | letters (pattern : List Component)
  deriving DecidableEq, Repr

def Accessor.write (sp : Spelling) (base : String) : Accessor → String
  | .column index => sp.column base index
  | .element index => sp.element base index
  | .letters pattern => sp.swizzle base pattern

def Spelling.access (sp : Spelling) (var : Variable) (accessors : List Accessor) : String :=
  accessors.foldl (Accessor.write sp) (sp.read var)

theorem accessMore (sp : Spelling) (var : Variable) (accessors : List Accessor) (a : Accessor) :
    sp.access var (accessors ++ [a]) = a.write sp (sp.access var accessors) := List.foldl_concat ..

namespace Program

variable (p : Program) (sp : Spelling)

inductive Chain : ExprId → VarId → List Accessor → Prop
  | read {e : ExprId} {node : Expr} {v : VarId} (at_ : p.exprs.get? e = some node)
      (op : node.op = .read v) : Chain e v []
  | column {e base i : ExprId} {node : Expr} {v : VarId} {accessors : List Accessor} {text : String}
      {index : IndexText} (at_ : p.exprs.get? e = some node) (op : node.op = .column base i)
      (under : Chain base v accessors) (rendered : p.render sp i = .ok text)
      (shown : p.indexText i text = .ok index) : Chain e v (accessors ++ [.column index])
  | element {e base i : ExprId} {node : Expr} {v : VarId} {accessors : List Accessor}
      {text : String} {index : IndexText} (at_ : p.exprs.get? e = some node) (op : node.op = .element base i)
      (under : Chain base v accessors) (rendered : p.render sp i = .ok text)
      (shown : p.indexText i text = .ok index) : Chain e v (accessors ++ [.element index])
  | swizzle {e vector : ExprId} {node : Expr} {v : VarId} {accessors : List Accessor}
      {pattern : List Component} (at_ : p.exprs.get? e = some node)
      (op : node.op = .swizzle vector pattern) (under : Chain vector v accessors) :
      Chain e v (accessors ++ [.letters pattern])

def Unfilled (e : ExprId) (error : Error) : Prop :=
  ∃ s slot block, p.Reaches e s ∧ p.slots.get? s = some slot ∧ slot.value = none ∧
    p.blocks.get? slot.block = some block ∧ sp.unbound slot block = .error error

end Program

section

variable {p : Program} {sp : Spelling} {e o : ExprId} {v : VarId}

theorem Spelling.Target.sameForms (target : sp.Target) : sp.WritesAsReads := by
  cases target <;> exact ⟨rfl, rfl⟩

theorem renderAt {node : Expr} (at_ : p.exprs.get? e = some node) :
    p.render sp e = p.renderWithin sp p.depthBound [] e := by
  rw [Program.render, Arena.findOfGet at_]
  rfl

theorem Built.renderOperand (built : Built p) (sp : Spelling) (step : p.Operand e o) :
    p.render sp o = p.renderWithin sp p.depthBound [] o := by
  obtain ⟨node, at_⟩ := Arena.atBelow (built.operand step).2
  exact renderAt at_

theorem Built.targetChain (built : Built p) (alike : sp.WritesAsReads) {fuel : Nat} {text : String}
    (rendered : p.renderTargetWithin sp fuel e = .ok text) : ∃ v var accessors,
      p.Chain sp e v accessors ∧ p.vars.get? v = some var ∧ text = sp.access var accessors := by
  induction fuel generalizing e text with
  | zero => cases rendered
  | succ fuel ih =>
    obtain ⟨node, found, rendered⟩ := Outcome.bindOk.mp rendered
    have at_ := Arena.fetchOk.mp found
    have operand {o : ExprId} (inside : o ∈ node.op.operands) :=
      built.renderOperand sp ⟨node, at_, inside⟩
    unfold Program.renderTargetNode at rendered
    split at rendered
    · rename_i w op
      simp only [Outcome.bindOk, Arena.fetchOk, Outcome.pureOk] at rendered
      obtain ⟨var, varAt, rfl⟩ := rendered
      exact ⟨w, var, [], .read at_ op, varAt, rfl⟩
    · rename_i op
      simp only [Outcome.bindOk, Outcome.pureOk] at rendered
      obtain ⟨_, based, i, indexed, shown, read, rfl⟩ := rendered
      obtain ⟨w, var, accessors, under, varAt, rfl⟩ := ih based
      rw [← operand (by simp [op, Operation.operands])] at indexed
      refine ⟨w, var, _, .column at_ op under indexed read, varAt, ?_⟩
      rw [accessMore, alike.column]
      rfl
    · rename_i op
      simp only [Outcome.bindOk, Outcome.pureOk] at rendered
      obtain ⟨_, based, i, indexed, shown, read, rfl⟩ := rendered
      obtain ⟨w, var, accessors, under, varAt, rfl⟩ := ih based
      rw [← operand (by simp [op, Operation.operands])] at indexed
      refine ⟨w, var, _, .element at_ op under indexed read, varAt, ?_⟩
      rw [accessMore, alike.element]
      rfl
    · rename_i op
      simp only [Outcome.bindOk, Outcome.pureOk] at rendered
      obtain ⟨_, based, rfl⟩ := rendered
      obtain ⟨w, var, accessors, under, varAt, rfl⟩ := ih based
      refine ⟨w, var, _, .swizzle at_ op under, varAt, ?_⟩
      rw [accessMore]
      rfl
    · obtain ⟨_, -, refused⟩ := Outcome.bindOk.mp rendered
      exact (Outcome.rejectOk.mp refused).elim

theorem Built.chainRead (built : Built p) {accessors : List Accessor} {var : Variable}
    (chain : p.Chain sp e v accessors) (varAt : p.vars.get? v = some var) :
    p.render sp e = .ok (sp.access var accessors) := by
  induction chain with
  | read at_ op =>
    rw [renderAt at_, built.writtenNode at_]
    simp only [Program.renderNode, op, Arena.fetchOfGet varAt]
    rfl
  | @column e base i node _ accessors text index at_ op under rendered shown ih
  | @element e base i node _ accessors text index at_ op under rendered shown ih =>
    have operand {o : ExprId} (inside : o ∈ node.op.operands) :=
      built.renderOperand sp ⟨node, at_, inside⟩
    have based := ih varAt
    rw [operand (by simp [op, Operation.operands])] at based rendered
    rw [renderAt at_, built.writtenNode at_, accessMore]
    simp only [Program.renderNode, op, based, rendered, shown, Bind.bind, Except.bind]
    rfl
  | @swizzle e vector node _ accessors pattern at_ op under ih =>
    have based := ih varAt
    rw [built.renderOperand sp ⟨node, at_, by simp [op, Operation.operands]⟩] at based
    rw [renderAt at_, built.writtenNode at_, accessMore]
    simp only [Program.renderNode, op, based, Bind.bind, Except.bind]
    rfl

theorem Program.Chain.unique {w : VarId} {one two : List Accessor} (chain : p.Chain sp e v one)
    (other : p.Chain sp e w two) : w = v ∧ two = one := by
  induction chain generalizing w two with
  | read at_ op =>
    cases other with
    | read there opToo =>
      cases at_.symm.trans there
      cases op.symm.trans opToo
      exact ⟨rfl, rfl⟩
    | column there opToo | element there opToo | swizzle there opToo =>
      cases at_.symm.trans there
      cases op.symm.trans opToo
  | column at_ op _ rendered shown ih =>
    cases other with
    | column there opToo under renderedToo shownToo =>
      cases at_.symm.trans there
      cases op.symm.trans opToo
      obtain ⟨rfl, rfl⟩ := ih under
      cases rendered.symm.trans renderedToo
      cases shown.symm.trans shownToo
      exact ⟨rfl, rfl⟩
    | read there opToo | element there opToo | swizzle there opToo =>
      cases at_.symm.trans there
      cases op.symm.trans opToo
  | element at_ op _ rendered shown ih =>
    cases other with
    | element there opToo under renderedToo shownToo =>
      cases at_.symm.trans there
      cases op.symm.trans opToo
      obtain ⟨rfl, rfl⟩ := ih under
      cases rendered.symm.trans renderedToo
      cases shown.symm.trans shownToo
      exact ⟨rfl, rfl⟩
    | read there opToo | column there opToo | swizzle there opToo =>
      cases at_.symm.trans there
      cases op.symm.trans opToo
  | swizzle at_ op _ ih =>
    cases other with
    | swizzle there opToo under =>
      cases at_.symm.trans there
      cases op.symm.trans opToo
      obtain ⟨rfl, rfl⟩ := ih under
      exact ⟨rfl, rfl⟩
    | read there opToo | column there opToo | element there opToo =>
      cases at_.symm.trans there
      cases op.symm.trans opToo

theorem Program.Chain.root {w : VarId} {accessors : List Accessor}
    (chain : p.Chain sp e w accessors) (rooted : Rooted p e v) : w = v := by
  induction chain with
  | read at_ op =>
    have found := rooted.chain at_
    rw [op] at found
    exact found.1
  | column at_ op _ _ _ ih | element at_ op _ _ _ ih =>
    have found := rooted.chain at_
    rw [op] at found
    exact ih found
  | swizzle at_ op _ ih =>
    have found := rooted.chain at_
    rw [op] at found
    exact ih found.2

theorem targetNode {node : Expr} (at_ : p.exprs.get? e = some node) (fuel : Nat) :
    p.renderTargetWithin sp (fuel + 1) e =
      p.renderTargetNode sp (p.renderTargetWithin sp fuel) e node := by
  rw [Program.renderTargetWithin, Arena.fetchOfGet at_]
  rfl

theorem indexedFails {index : ExprId} (below : index.index < p.exprs.size) {x y : Outcome String}
    {f : String → IndexText → String} {why : Failure}
    (failed : (do
      let base ← x
      let text ← y
      return f base (← p.indexText index text)) = .error why) :
    x = .error why ∨ y = .error why := by
  obtain ⟨constant, made⟩ := indexTextOk below
  rcases Outcome.bindFailed failed with failed | ⟨base, -, failed⟩
  · exact .inl failed
  · rcases Outcome.bindFailed failed with failed | ⟨text, -, failed⟩
    · exact .inr failed
    · rw [made] at failed
      cases failed

theorem Built.targetFails (built : Built p) (rooted : Rooted p e v) {fuel : Nat}
    (enough : e.index < fuel) {why : Failure}
    (failed : p.renderTargetWithin sp fuel e = .error why) :
    ∃ i, p.ChainIndex e i ∧ p.render sp i = .error why := by
  induction rooted generalizing fuel with
  | read at_ op varAt =>
    obtain ⟨fuel, rfl⟩ := Nat.exists_eq_succ_of_ne_zero (Nat.ne_of_gt (Nat.zero_lt_of_lt enough))
    simp only [targetNode at_, Program.renderTargetNode, op, Arena.fetchOfGet varAt] at failed
    cases failed
  | @column e base index node _ at_ op _ ih =>
    obtain ⟨fuel, rfl⟩ := Nat.exists_eq_succ_of_ne_zero (Nat.ne_of_gt (Nat.zero_lt_of_lt enough))
    have older := (built.operand (e := e) (o := base) ⟨_, at_, by simp [op, Operation.operands]⟩).1
    have step : p.Operand e index := ⟨_, at_, by simp [op, Operation.operands]⟩
    simp only [targetNode at_, Program.renderTargetNode, op] at failed
    rcases indexedFails (built.operand step).2 failed with failed | failed
    · obtain ⟨i, along, failed⟩ := ih (by omega) failed
      exact ⟨i, .inColumn at_ op along, failed⟩
    · exact ⟨index, .column at_ op, (built.renderOperand sp step).trans failed⟩
  | @element e base index node _ at_ op _ ih =>
    obtain ⟨fuel, rfl⟩ := Nat.exists_eq_succ_of_ne_zero (Nat.ne_of_gt (Nat.zero_lt_of_lt enough))
    have older := (built.operand (e := e) (o := base) ⟨_, at_, by simp [op, Operation.operands]⟩).1
    have step : p.Operand e index := ⟨_, at_, by simp [op, Operation.operands]⟩
    simp only [targetNode at_, Program.renderTargetNode, op] at failed
    rcases indexedFails (built.operand step).2 failed with failed | failed
    · obtain ⟨i, along, failed⟩ := ih (by omega) failed
      exact ⟨i, .inElement at_ op along, failed⟩
    · exact ⟨index, .element at_ op, (built.renderOperand sp step).trans failed⟩
  | @swizzle e base pattern node _ at_ op _ _ ih =>
    obtain ⟨fuel, rfl⟩ := Nat.exists_eq_succ_of_ne_zero (Nat.ne_of_gt (Nat.zero_lt_of_lt enough))
    have older := (built.operand (e := e) (o := base) ⟨_, at_, by simp [op, Operation.operands]⟩).1
    simp only [targetNode at_, Program.renderTargetNode, op] at failed
    rcases Outcome.bindFailed failed with failed | ⟨text, -, failed⟩
    · obtain ⟨i, along, failed⟩ := ih (by omega) failed
      exact ⟨i, .inSwizzle at_ op along, failed⟩
    · cases failed

theorem Program.ChainIndex.follows {i : ExprId} (along : p.ChainIndex e i) :
    ReflTransGen p.Follows e i := by
  induction along with
  | column at_ op | element at_ op =>
    exact .single (.operand ⟨_, at_, by simp [op, Operation.operands]⟩)
  | inColumn at_ op _ ih | inElement at_ op _ ih | inSwizzle at_ op _ ih =>
    exact .head (.operand ⟨_, at_, by simp [op, Operation.operands]⟩) ih

theorem Program.Unfilled.along {error : Error} (unfilled : p.Unfilled sp o error)
    (path : ReflTransGen p.Follows e o) : p.Unfilled sp e error := by
  obtain ⟨s, slot, block, ⟨a, further, reader⟩, rest⟩ := unfilled
  exact ⟨s, slot, block, ⟨a, path.trans further, reader⟩, rest⟩

theorem Built.renderRefused (built : Built p) {fuel : Nat} {opened : List SlotId} {error : Error}
    (below : e.index < p.exprs.size)
    (failed : p.renderWithin sp fuel opened e = .error (.rejected error)) :
    (∃ input block, error = .cyclicInput input block) ∨ p.Unfilled sp e error := by
  induction fuel generalizing opened e with
  | zero => cases failed
  | succ fuel ih =>
    obtain ⟨node, at_⟩ := Arena.atBelow below
    rw [Program.renderWithin, Arena.fetchOfGet at_] at failed
    have deeper {o : ExprId} {opened : List SlotId} (follows : p.Follows e o)
        (failed : p.renderWithin sp fuel opened o = .error (.rejected error)) :
        (∃ input block, error = .cyclicInput input block) ∨ p.Unfilled sp e error :=
      (ih (built.followsStands follows) failed).imp id
        fun unfilled => unfilled.along (.single follows)
    by_cases slots : ∃ s, node.op = .slot s
    · obtain ⟨s, op⟩ := slots
      obtain ⟨slot, slotAt, -⟩ := Fits.slotAt (op ▸ (built.expr at_).1)
      obtain ⟨block, owner, -⟩ := (built.slot slotAt).owner
      simp only [Program.renderNode, op, Arena.fetchOfGet slotAt, Arena.fetchOfGet owner, bind,
        Except.bind] at failed
      split at failed
      · cases failed
        exact .inl ⟨_, _, rfl⟩
      · cases holds : slot.value with
        | some value =>
          rw [holds] at failed
          exact deeper (.bound ⟨node, at_, op⟩ ⟨slot, slotAt, holds⟩) failed
        | none =>
          rw [holds] at failed
          refine .inr ⟨s, slot, block, ⟨e, .refl, node, at_, op⟩, slotAt, holds, owner, ?_⟩
          cases answer : sp.unbound slot block with
          | ok text =>
            simp only [answer] at failed
            cases failed
          | error why =>
            simp only [answer] at failed
            cases failed
            rfl
    · obtain ⟨finish, parts⟩ := built.nodeParts at_ (fun s op => slots ⟨s, op⟩) sp
      simp only [bind, Except.bind, parts] at failed
      cases texts : node.op.operands.mapM (p.renderWithin sp fuel opened) with
      | ok made =>
        rw [texts] at failed
        cases failed
      | error why =>
        rw [texts] at failed
        cases failed
        obtain ⟨o, inside, failed⟩ := Outcome.mapMFailed texts
        exact deeper (.operand ⟨node, at_, inside⟩) failed

theorem renderTargetAt {node : Expr} (at_ : p.exprs.get? e = some node) :
    p.renderTarget sp e = p.renderTargetWithin sp (e.index + 1) e := by
  rw [Program.renderTarget, Arena.findOfGet at_]
  rfl

theorem Built.writtenChain (built : Built p) (alike : sp.WritesAsReads) {text : String}
    (written : p.renderTarget sp e = .ok text) : ∃ v var accessors,
      p.Chain sp e v accessors ∧ p.vars.get? v = some var ∧ text = sp.access var accessors := by
  obtain ⟨_, -, rendered⟩ := Outcome.bindOk.mp written
  exact built.targetChain alike rendered

theorem Built.writtenFails (built : Built p) (rooted : Rooted p e v) {why : Failure}
    (failed : p.renderTarget sp e = .error why) :
    ∃ i, p.ChainIndex e i ∧ p.render sp i = .error why := by
  obtain ⟨node, at_⟩ := Arena.atBelow rooted.stands
  rw [renderTargetAt at_] at failed
  exact built.targetFails rooted (Nat.lt_succ_self _) failed

theorem Built.writtenRefused (built : Built p) (rooted : Rooted p e v) {what : String}
    (refused : p.renderTarget sp e = .error (.rejected (.notAssignable what))) :
    p.Unfilled sp e (.notAssignable what) := by
  obtain ⟨i, along, failed⟩ := built.writtenFails rooted refused
  obtain ⟨node, at_⟩ := Arena.atBelow (along.stands built)
  rw [renderAt at_] at failed
  rcases built.renderRefused (Arena.below at_) failed with ⟨_, _, cycle⟩ | unfilled
  · cases cycle
  · exact unfilled.along along.follows

theorem Spelling.Target.assignable (target : sp.Target) {what : String} :
    ¬ p.Unfilled sp e (.notAssignable what) := by
  intro unfilled
  obtain ⟨s, slot, block, -, -, -, -, refused⟩ := unfilled
  cases target <;> cases refused

theorem writesAsReads (reachable : Reachable p) :
    (∀ sp : Spelling, sp.Target → sp.WritesAsReads ∧ ∀ e v what, p.root e = .ok (some v) →
      p.renderTarget sp e ≠ .error (.rejected (.notAssignable what))) ∧
    ∀ sp : Spelling, sp.WritesAsReads → ∀ e,
      (∀ text, p.renderTarget sp e = .ok text → p.render sp e = .ok text) ∧
      ∀ v, p.root e = .ok (some v) →
        (∀ text, p.renderTarget sp e = .ok text → ∃ var accessors, p.vars.get? v = some var ∧
          p.Chain sp e v accessors ∧ text = sp.access var accessors ∧
          ∀ w others, p.Chain sp e w others → w = v ∧ others = accessors) ∧
        (∀ why, p.renderTarget sp e = .error why →
          ∃ i, p.ChainIndex e i ∧ p.render sp i = .error why) ∧
        ∀ what, p.renderTarget sp e = .error (.rejected (.notAssignable what)) →
          p.Unfilled sp e (.notAssignable what) := by
  have built := reachableBuilt reachable
  refine ⟨fun sp target => ⟨target.sameForms, fun e v what found refused => ?_⟩,
    fun sp alike e => ⟨fun text written => ?_, fun v found => ⟨fun text written => ?_, ?_, ?_⟩⟩⟩
  · exact target.assignable (built.writtenRefused (rootedOf found) refused)
  · obtain ⟨v, var, accessors, chain, varAt, rfl⟩ := built.writtenChain alike written
    exact built.chainRead chain varAt
  · obtain ⟨w, var, accessors, chain, varAt, rfl⟩ := built.writtenChain alike written
    have same := chain.root (rootedOf found)
    subst same
    exact ⟨var, accessors, varAt, chain, rfl, fun _ _ other => chain.unique other⟩
  · exact fun why failed => built.writtenFails (rootedOf found) failed
  · exact fun what refused => built.writtenRefused (rootedOf found) refused

def pickedRun : List Call :=
  [.addStage .fragment, .declare ⟨0⟩ "m" (.array (.matrix .two) 2) none, .read ⟨0⟩,
    .literal (.int 1), .block ⟨0⟩ "use", .input ⟨0⟩ (some "i") .int1 (some ⟨1⟩),
    .element ⟨0⟩ ⟨2⟩, .columnAt ⟨3⟩ 0, .swizzle ⟨5⟩ "yx"]

theorem pickedRuns : ∃ p, Program.after { name := "p" } pickedRun = some p ∧
    p.root ⟨6⟩ = .ok (some ⟨0⟩) ∧ p.renderTarget Glsl.spelling ⟨6⟩ = .ok "m_0[1][0].yx" :=
  ⟨_, rfl, rfl, rfl⟩

theorem writesAsReadsPicked : ∃ p var accessors,
    Program.after { name := "p" } pickedRun = some p ∧ p.root ⟨6⟩ = .ok (some ⟨0⟩) ∧
    p.renderTarget Glsl.spelling ⟨6⟩ = .ok "m_0[1][0].yx" ∧
    p.render Glsl.spelling ⟨6⟩ = .ok "m_0[1][0].yx" ∧ p.vars.get? ⟨0⟩ = some var ∧
    p.Chain Glsl.spelling ⟨6⟩ ⟨0⟩ accessors ∧
    "m_0[1][0].yx" = Glsl.spelling.access var accessors := by
  obtain ⟨p, ran, found, written⟩ := pickedRuns
  obtain ⟨targets, alike⟩ := writesAsReads ((Reachable.new "p").after ran)
  obtain ⟨reads, places⟩ := alike Glsl.spelling (targets _ .glsl).1 ⟨6⟩
  obtain ⟨var, accessors, varAt, chain, text, -⟩ := (places _ found).1 _ written
  exact ⟨p, var, accessors, ran, found, written, reads _ written, varAt, chain, text⟩

end

end ShaderGraph
