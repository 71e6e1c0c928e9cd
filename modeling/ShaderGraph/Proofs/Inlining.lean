import ShaderGraph.Glsl.Dialect
import ShaderGraph.Proofs.Generation
import ShaderGraph.Proofs.Recursion
import ShaderGraph.Wgsl.Dialect
/-! Block inputs are written by inlining. An expression stands for a tree in which an input is the
tree of what is bound to it, and its text is read off that tree, whatever slots are being expanded.
Only the constant that an index is announced with is not looked for behind an input. -/
namespace ShaderGraph

open Relation

/-- An expression without handles. The mark of an input is kept around what is bound to it. -/
inductive Tree
  | literal (value : Literal)
  | read (var : Variable)
  | input (value : Tree)
  | compose (ty : Ty) (parts : List Tree)
  | unary (ty : Ty) (op : UnaryOp) (operand : Tree)
  | binary (ty : Ty) (op : BinaryOp) (left right : Tree)
  | swizzle (ty : Ty) (vector : Tree) (pattern : List Component)
  | column (ty : Ty) (matrix index : Tree)
  | element (ty : Ty) (array index : Tree)
  | call (ty : Ty) (function : Intrinsic) (args : List Tree)
  | convert (ty : Ty) (operand : Tree)
  | sample (sampler : Sampler) (texture coord : Tree)
  | load (storage : Storage) (texture coord : Tree)

namespace Tree

def ty : Tree → Ty
  | .literal value => value.ty
  | .read var => var.ty
  | .input value => value.ty
  | .compose ty _ | .unary ty _ _ | .binary ty _ _ _ | .swizzle ty _ _ | .column ty _ _
  | .element ty _ _ | .call ty _ _ | .convert ty _ => ty
  | .sample sampler _ _ => sampler.sampleTy
  | .load storage _ _ => storage.texelTy

def constant? : Tree → Option Int
  | .literal value => value.index?
  | _ => none

mutual

def text (sp : Spelling) : Tree → String
  | .literal value => sp.literal value
  | .read var => sp.read var
  | .input value => value.text sp
  | .compose ty parts => sp.compose ty (texts sp parts)
  | .unary _ op operand => sp.unary op (operand.text sp)
  | .binary _ op left right => sp.binary op left.ty right.ty (left.text sp) (right.text sp)
  | .swizzle _ vector pattern => sp.swizzle (vector.text sp) pattern
  | .column _ matrix index => sp.column (matrix.text sp) ⟨index.text sp, index.constant?⟩
  | .element _ array index => sp.element (array.text sp) ⟨index.text sp, index.constant?⟩
  | .call _ function args => sp.call function (texts sp args)
  | .convert ty operand => sp.convert ty (operand.text sp)
  | .sample sampler texture coord => sp.sample (texture.text sp) sampler (coord.text sp)
  | .load storage texture coord => sp.load (texture.text sp) storage (coord.text sp)

def texts (sp : Spelling) : List Tree → List String
  | [] => []
  | tree :: rest => tree.text sp :: texts sp rest

end

mutual

def inlined : Tree → Tree
  | .literal value => .literal value
  | .read var => .read var
  | .input value => value.inlined
  | .compose ty parts => .compose ty (inlinedAll parts)
  | .unary ty op operand => .unary ty op operand.inlined
  | .binary ty op left right => .binary ty op left.inlined right.inlined
  | .swizzle ty vector pattern => .swizzle ty vector.inlined pattern
  | .column ty matrix index => .column ty matrix.inlined index.inlined
  | .element ty array index => .element ty array.inlined index.inlined
  | .call ty function args => .call ty function (inlinedAll args)
  | .convert ty operand => .convert ty operand.inlined
  | .sample sampler texture coord => .sample sampler texture.inlined coord.inlined
  | .load storage texture coord => .load storage texture.inlined coord.inlined

def inlinedAll : List Tree → List Tree
  | [] => []
  | tree :: rest => tree.inlined :: inlinedAll rest

end

mutual

/-- No index is an input that an integer literal is bound to, itself or through other inputs. -/
def Direct : Tree → Prop
  | .literal _ | .read _ => True
  | .input value => value.Direct
  | .compose _ parts => AllDirect parts
  | .unary _ _ operand => operand.Direct
  | .binary _ _ left right => left.Direct ∧ right.Direct
  | .swizzle _ vector _ => vector.Direct
  | .column _ base index | .element _ base index =>
    base.Direct ∧ index.Direct ∧ index.inlined.constant? = index.constant?
  | .call _ _ args => AllDirect args
  | .convert _ operand => operand.Direct
  | .sample _ texture coord | .load _ texture coord => texture.Direct ∧ coord.Direct

def AllDirect : List Tree → Prop
  | [] => True
  | tree :: rest => tree.Direct ∧ AllDirect rest

end

end Tree

/-- The spelling makes nothing of the constant of an index. -/
def Spelling.Blind (sp : Spelling) : Prop :=
  (∀ matrix text constant, sp.column matrix ⟨text, constant⟩ = sp.column matrix ⟨text, none⟩) ∧
    ∀ array text constant, sp.element array ⟨text, constant⟩ = sp.element array ⟨text, none⟩

namespace Program

variable (p : Program)

def treeNode (sub : ExprId → Outcome Tree) (node : Expr) : Outcome Tree := do
  match node.op with
  | .literal value => return .literal value
  | .read v => return .read (← p.vars.fetch v)
  | .slot s =>
    let slot ← p.slots.fetch s
    match slot.value with
    | some value => return .input (← sub value)
    | none => p.unboundSlot slot
  | .compose parts => return .compose node.ty (← parts.mapM sub)
  | .unary op operand => return .unary node.ty op (← sub operand)
  | .binary op left right => return .binary node.ty op (← sub left) (← sub right)
  | .swizzle vector pattern => return .swizzle node.ty (← sub vector) pattern
  | .column matrix index => return .column node.ty (← sub matrix) (← sub index)
  | .element array index => return .element node.ty (← sub array) (← sub index)
  | .call function args => return .call node.ty function (← args.mapM sub)
  | .convert operand => return .convert node.ty (← sub operand)
  | .sample sampler coord =>
    let texture ← sub sampler
    let coord ← sub coord
    match texture.ty with
    | .sampler s => return .sample s texture coord
    | other => reject (.typeMismatch "sampler" other.name)
  | .load storage coord =>
    let texture ← sub storage
    let coord ← sub coord
    match texture.ty with
    | .storage s => return .load s texture coord
    | other => reject (.typeMismatch "storage texture" other.name)

def treeStep (sub : ExprId → Outcome Tree) (e : ExprId) : Outcome Tree := do
  p.treeNode sub (← p.exprs.fetch e)

def treeWithin : Nat → ExprId → Outcome Tree
  | 0, _ => abort .endless
  | fuel + 1, e => p.treeStep (treeWithin fuel) e

def tree (e : ExprId) : Outcome Tree := p.treeWithin p.depthBound e

/-- Writing an expression gives the text of `t`, with whatever slots open that lead to it, and an
index is announced with the constant of `t`. -/
structure Spells (e : ExprId) (t : Tree) : Prop where
  typed : p.HasTy e t.ty
  index (text : String) : p.indexText e text = .ok ⟨text, t.constant?⟩
  written (sp : Spelling) {opened : List SlotId} (leads : p.Leads opened e) :
    p.renderWithin sp p.depthBound opened e = .ok (t.text sp)

end Program

section

variable {p : Program} {sp : Spelling}

theorem inlinedTy : (t : Tree) → t.inlined.ty = t.ty
  | .input value => inlinedTy value
  | .literal _ | .read _ | .compose .. | .unary .. | .binary .. | .swizzle .. | .column ..
  | .element .. | .call .. | .convert .. | .sample .. | .load .. => rfl

theorem constantsAlike {write : String → IndexText → String} {base text : String} {index : Tree}
    (same : (∀ b t c, write b ⟨t, c⟩ = write b ⟨t, none⟩) ∨
      index.inlined.constant? = index.constant?) :
    write base ⟨text, index.inlined.constant?⟩ = write base ⟨text, index.constant?⟩ := by
  rcases same with blind | same
  · rw [blind, ← blind]
  · rw [same]

mutual

theorem inlinedText : (t : Tree) → sp.Blind ∨ t.Direct → t.inlined.text sp = t.text sp
  | .literal _, _ | .read _, _ => rfl
  | .input value, same => inlinedText value same
  | .compose ty parts, same => congrArg (sp.compose ty) (inlinedTexts parts same)
  | .unary _ op operand, same => congrArg (sp.unary op) (inlinedText operand same)
  | .binary _ op left right, same => by
    have l := inlinedText left (same.imp_right And.left)
    have r := inlinedText right (same.imp_right And.right)
    simp only [Tree.inlined, Tree.text, l, r, inlinedTy]
  | .swizzle _ vector pattern, same => by
    have v := inlinedText vector same
    simp only [Tree.inlined, Tree.text, v]
  | .column _ base index, same => by
    have b := inlinedText base (same.imp_right And.left)
    have i := inlinedText index (same.imp_right fun direct => direct.2.1)
    have constants : sp.column (base.text sp) ⟨index.text sp, index.inlined.constant?⟩ =
        sp.column (base.text sp) ⟨index.text sp, index.constant?⟩ :=
      constantsAlike (same.imp And.left fun direct => direct.2.2)
    simp only [Tree.inlined, Tree.text, b, i, constants]
  | .element _ base index, same => by
    have b := inlinedText base (same.imp_right And.left)
    have i := inlinedText index (same.imp_right fun direct => direct.2.1)
    have constants : sp.element (base.text sp) ⟨index.text sp, index.inlined.constant?⟩ =
        sp.element (base.text sp) ⟨index.text sp, index.constant?⟩ :=
      constantsAlike (same.imp And.right fun direct => direct.2.2)
    simp only [Tree.inlined, Tree.text, b, i, constants]
  | .call _ function args, same => congrArg (sp.call function) (inlinedTexts args same)
  | .convert ty operand, same => congrArg (sp.convert ty) (inlinedText operand same)
  | .sample _ texture coord, same | .load _ texture coord, same => by
    have t := inlinedText texture (same.imp_right And.left)
    have c := inlinedText coord (same.imp_right And.right)
    simp only [Tree.inlined, Tree.text, t, c]

theorem inlinedTexts : (ts : List Tree) → sp.Blind ∨ Tree.AllDirect ts →
    Tree.texts sp (Tree.inlinedAll ts) = Tree.texts sp ts
  | [], _ => rfl
  | t :: rest, same => by
    have first := inlinedText t (same.imp_right And.left)
    have others := inlinedTexts rest (same.imp_right And.right)
    simp only [Tree.inlinedAll, Tree.texts, first, others]

end

theorem Program.HasTy.same {e : ExprId} {t u : Ty} (one : p.HasTy e t) (two : p.HasTy e u) :
    t = u := by
  cases (Build.operandTyOk.mpr one).symm.trans (Build.operandTyOk.mpr two)
  rfl

theorem treeLocal : Local p.Follows p.treeStep := by
  intro f g e same
  unfold Program.treeStep
  cases at_ : p.exprs.get? e with
  | none => simp only [Arena.fetch, at_]; rfl
  | some node =>
    have under : ∀ o ∈ node.op.operands, f o = g o :=
      fun o inside => same o (.operand ⟨node, at_, inside⟩)
    simp only [Arena.fetchOfGet at_, Bind.bind, Except.bind]
    obtain ⟨op, ty, state⟩ := node
    cases op with
    | literal | read => rfl
    | slot s =>
      cases slotAt : p.slots.get? s with
      | none => simp only [Program.treeNode, Arena.fetch, slotAt]; rfl
      | some slot =>
        simp only [Program.treeNode, Arena.fetchOfGet slotAt, Bind.bind, Except.bind]
        cases holds : slot.value with
        | none => rfl
        | some value => simp only [same value (.bound ⟨_, at_, rfl⟩ ⟨slot, slotAt, holds⟩)]
    | compose parts | call _ parts =>
      have same : parts.mapM f = parts.mapM g := Outcome.mapMSame under
      simp only [Program.treeNode, same]
    | unary _ o | swizzle o | convert o =>
      simp only [Program.treeNode, under o (by simp [Operation.operands])]
    | binary _ a b | column a b | element a b | sample a b | load a b =>
      simp only [Program.treeNode, under a (by simp [Operation.operands]),
        under b (by simp [Operation.operands])]

theorem Built.treeSolves (built : Built p) (acyclic : p.Acyclic) : Solves p.treeStep p.tree :=
  runSolves (fun _ => rfl) treeLocal (fun _ => p.depthBound) (built.readsEnough acyclic)

theorem indexPlain {e : ExprId} {node : Expr} (at_ : p.exprs.get? e = some node)
    (plain : ∀ l, node.op ≠ .literal l) (text : String) :
    p.indexText e text = .ok ⟨text, none⟩ := by
  simp only [Program.indexText, Arena.fetchOfGet at_, Bind.bind, Except.bind]
  cases op : node.op with
  | literal l => exact absurd op (plain l)
  | _ => rfl

theorem Built.spelled (built : Built p) {e : ExprId} {node : Expr}
    (at_ : p.exprs.get? e = some node) (plain : ∀ l, node.op ≠ .literal l) (t : Tree)
    (typed : node.ty = t.ty) (bare : t.constant? = none)
    (made : p.treeNode p.tree node = .ok t)
    (written : ∀ sp opened, p.Leads opened e →
      p.renderNode sp (p.renderWithin sp p.depthBound) opened node = .ok (t.text sp)) :
    ∃ t, p.treeNode p.tree node = .ok t ∧ p.Spells e t := by
  refine ⟨t, made, ⟨node, at_, typed⟩, fun text => ?_, fun sp opened leads => ?_⟩
  · rw [bare]
    exact indexPlain at_ plain text
  · exact (built.writtenNode at_ opened).trans (written sp opened leads)

theorem treesOk {os : List ExprId} (each : ∀ o ∈ os, ∃ t, p.tree o = .ok t ∧ p.Spells o t) :
    ∃ ts, os.mapM p.tree = .ok ts ∧ ∀ sp opened, (∀ o ∈ os, p.Leads opened o) →
      os.mapM (p.renderWithin sp p.depthBound opened) = .ok (Tree.texts sp ts) := by
  induction os with
  | nil => exact ⟨[], rfl, fun _ _ _ => rfl⟩
  | cons o rest ih =>
    obtain ⟨t, made, spells⟩ := each o List.mem_cons_self
    obtain ⟨ts, others, texts⟩ := ih fun a inside => each a (List.mem_cons_of_mem _ inside)
    refine ⟨t :: ts, by simp only [List.mapM_cons, made, others]; rfl, fun sp opened leads => ?_⟩
    have first := spells.written sp (leads o List.mem_cons_self)
    have later := texts sp opened fun a inside => leads a (List.mem_cons_of_mem _ inside)
    simp only [List.mapM_cons, first, later]
    rfl

section Shapes

variable (built : Built p) {e a b : ExprId} {node : Expr} (at_ : p.exprs.get? e = some node)
  (plain : ∀ l, node.op ≠ .literal l)
  (each : ∀ o, p.Operand e o → ∃ t, p.tree o = .ok t ∧ p.Spells o t)

include at_ each

theorem operandSpells (inside : a ∈ node.op.operands) :
    ∃ t, p.tree a = .ok t ∧ p.Spells a t ∧ ∀ sp opened, p.Leads opened e →
      p.renderWithin sp p.depthBound opened a = .ok (t.text sp) := by
  have step : p.Operand e a := ⟨node, at_, inside⟩
  obtain ⟨t, made, spells⟩ := each a step
  exact ⟨t, made, spells, fun sp opened leads => spells.written sp (leads.operand step)⟩

include built plain

theorem Built.oneSpells (inside : a ∈ node.op.operands) (grow : Tree → Tree)
    (write : Spelling → String → String)
    (tree : ∀ sub, p.treeNode sub node = do return grow (← sub a))
    (text : ∀ sp sub opened, p.renderNode sp sub opened node = do return write sp (← sub opened a))
    (grown : ∀ t, node.ty = (grow t).ty ∧ (grow t).constant? = none ∧
      ∀ sp, (grow t).text sp = write sp (t.text sp)) :
    ∃ t, p.treeNode p.tree node = .ok t ∧ p.Spells e t := by
  obtain ⟨t, made, -, written⟩ := operandSpells at_ each inside
  obtain ⟨typed, bare, texts⟩ := grown t
  refine built.spelled at_ plain (grow t) typed bare ?tree ?text
  case tree =>
    rw [tree, made]
    rfl
  case text =>
    intro sp opened leads
    rw [text, written sp opened leads, texts]
    rfl

theorem Built.listSpells (grow : List Tree → Tree) (write : Spelling → List String → String)
    (tree : ∀ sub, p.treeNode sub node = do return grow (← node.op.operands.mapM sub))
    (text : ∀ sp sub opened, p.renderNode sp sub opened node = do
      return write sp (← node.op.operands.mapM (sub opened)))
    (grown : ∀ ts, node.ty = (grow ts).ty ∧ (grow ts).constant? = none ∧
      ∀ sp, (grow ts).text sp = write sp (Tree.texts sp ts)) :
    ∃ t, p.treeNode p.tree node = .ok t ∧ p.Spells e t := by
  have step {o : ExprId} (inside : o ∈ node.op.operands) : p.Operand e o := ⟨node, at_, inside⟩
  obtain ⟨ts, made, written⟩ := treesOk fun o inside => each o (step inside)
  obtain ⟨typed, bare, texts⟩ := grown ts
  refine built.spelled at_ plain (grow ts) typed bare ?tree ?text
  case tree =>
    rw [tree, made]
    rfl
  case text =>
    intro sp opened leads
    rw [text, written sp opened fun o inside => leads.operand (step inside), texts]
    rfl

theorem Built.twoSpells (first : a ∈ node.op.operands) (second : b ∈ node.op.operands)
    (grow : Tree → Tree → Tree)
    (grown : ∀ t u, node.ty = (grow t u).ty ∧ (grow t u).constant? = none)
    (tree : ∀ t u, p.HasTy a t.ty → p.tree a = .ok t → p.tree b = .ok u →
      p.treeNode p.tree node = .ok (grow t u))
    (text : ∀ t u sp sub opened, p.Spells a t → p.Spells b u → sub opened a = .ok (t.text sp) →
      sub opened b = .ok (u.text sp) →
      p.renderNode sp sub opened node = .ok ((grow t u).text sp)) :
    ∃ t, p.treeNode p.tree node = .ok t ∧ p.Spells e t := by
  obtain ⟨t, left, leftSpells, leftText⟩ := operandSpells at_ each first
  obtain ⟨u, right, rightSpells, rightText⟩ := operandSpells at_ each second
  obtain ⟨typed, bare⟩ := grown t u
  exact built.spelled at_ plain (grow t u) typed bare (tree t u leftSpells.typed left right)
    fun sp opened leads => text t u sp _ opened leftSpells rightSpells (leftText sp opened leads)
      (rightText sp opened leads)

theorem Built.indexedSpells (first : a ∈ node.op.operands) (second : b ∈ node.op.operands)
    (grow : Tree → Tree → Tree) (write : Spelling → String → IndexText → String)
    (tree : ∀ sub, p.treeNode sub node = do return grow (← sub a) (← sub b))
    (text : ∀ sp sub opened, p.renderNode sp sub opened node = do
      let base ← sub opened a
      let index ← sub opened b
      return write sp base (← p.indexText b index))
    (grown : ∀ t u, node.ty = (grow t u).ty ∧ (grow t u).constant? = none ∧
      ∀ sp, (grow t u).text sp = write sp (t.text sp) ⟨u.text sp, u.constant?⟩) :
    ∃ t, p.treeNode p.tree node = .ok t ∧ p.Spells e t := by
  refine built.twoSpells at_ plain each first second grow
    (fun t u => ⟨(grown t u).1, (grown t u).2.1⟩) ?tree ?text
  case tree =>
    intro t u _ base index
    rw [tree, base, index]
    rfl
  case text =>
    intro t u sp sub opened _ indexSpells base index
    rw [text, base, index, (grown t u).2.2]
    simp only [Bind.bind, Except.bind, indexSpells.index]
    rfl

theorem Built.textureSpells {ty : Ty} (texture : p.HasTy a ty) (first : a ∈ node.op.operands)
    (second : b ∈ node.op.operands) (grow : Tree → Tree → Tree)
    (write : Spelling → String → String → String)
    (tree : ∀ sub t u, t.ty = ty → sub a = .ok t → sub b = .ok u →
      p.treeNode sub node = .ok (grow t u))
    (text : ∀ sp sub opened, p.renderNode sp sub opened node = do
      return write sp (← sub opened a) (← sub opened b))
    (grown : ∀ t u, node.ty = (grow t u).ty ∧ (grow t u).constant? = none ∧
      ∀ sp, (grow t u).text sp = write sp (t.text sp) (u.text sp)) :
    ∃ t, p.treeNode p.tree node = .ok t ∧ p.Spells e t := by
  refine built.twoSpells at_ plain each first second grow
    (fun t u => ⟨(grown t u).1, (grown t u).2.1⟩)
    (fun t u typed => tree p.tree t u (typed.same texture)) ?text
  intro t u sp sub opened _ _ sampled coord
  rw [text, sampled, coord, (grown t u).2.2]
  rfl

end Shapes

theorem Built.nodeSpells (built : Built p) {e : ExprId} {node : Expr}
    (at_ : p.exprs.get? e = some node) (plain : ∀ s, node.op ≠ .slot s)
    (each : ∀ o, p.Operand e o → ∃ t, p.tree o = .ok t ∧ p.Spells o t) :
    ∃ t, p.treeNode p.tree node = .ok t ∧ p.Spells e t := by
  have fits := (built.expr at_).1
  obtain ⟨op, ty, state⟩ := node
  cases op with
  | slot s => exact absurd rfl (plain s)
  | literal value =>
    cases fits
    refine ⟨.literal value, rfl, ⟨_, at_, rfl⟩, fun text => ?_,
      fun sp opened _ => built.writtenNode at_ opened⟩
    simp only [Program.indexText, Arena.fetchOfGet at_]
    rfl
  | read v =>
    cases fits with
    | @read _ var varAt =>
      refine built.spelled at_ (fun _ => Operation.noConfusion) (.read var) rfl rfl ?tree ?text
      case tree =>
        simp only [Program.treeNode, Arena.fetchOfGet varAt]
        rfl
      case text =>
        intro sp opened leads
        simp only [Program.renderNode, Arena.fetchOfGet varAt]
        rfl
  | compose os =>
    exact built.listSpells at_ (fun _ => Operation.noConfusion) each (.compose ty)
      (fun sp => sp.compose ty) (fun _ => rfl) (fun _ _ _ => rfl) fun _ => ⟨rfl, rfl, fun _ => rfl⟩
  | call f os =>
    exact built.listSpells at_ (fun _ => Operation.noConfusion) each (.call ty f)
      (fun sp => sp.call f) (fun _ => rfl) (fun _ _ _ => rfl) fun _ => ⟨rfl, rfl, fun _ => rfl⟩
  | unary op operand =>
    exact built.oneSpells at_ (fun _ => Operation.noConfusion) each (.head _) (.unary ty op)
      (fun sp => sp.unary op) (fun _ => rfl) (fun _ _ _ => rfl) fun _ => ⟨rfl, rfl, fun _ => rfl⟩
  | swizzle vector pattern =>
    exact built.oneSpells at_ (fun _ => Operation.noConfusion) each (.head _)
      (fun t => .swizzle ty t pattern) (fun sp t => sp.swizzle t pattern) (fun _ => rfl)
      (fun _ _ _ => rfl) fun _ => ⟨rfl, rfl, fun _ => rfl⟩
  | convert operand =>
    exact built.oneSpells at_ (fun _ => Operation.noConfusion) each (.head _) (.convert ty)
      (fun sp => sp.convert ty) (fun _ => rfl) (fun _ _ _ => rfl) fun _ => ⟨rfl, rfl, fun _ => rfl⟩
  | binary op left right =>
    refine built.twoSpells at_ (fun _ => Operation.noConfusion) each (.head _) (.tail _ (.head _))
      (.binary ty op) (fun _ _ => ⟨rfl, rfl⟩) ?tree ?text
    case tree =>
      intro l r _ leftMade rightMade
      simp only [Program.treeNode, leftMade, rightMade]
      rfl
    case text =>
      intro l r sp sub opened leftSpells rightSpells leftText rightText
      simp only [Program.renderNode, leftText, rightText, Build.operandTyOk.mpr leftSpells.typed,
        Build.operandTyOk.mpr rightSpells.typed]
      rfl
  | column base index =>
    exact built.indexedSpells at_ (fun _ => Operation.noConfusion) each (.head _)
      (.tail _ (.head _)) (.column ty) (fun sp => sp.column) (fun _ => rfl) (fun _ _ _ => rfl)
      fun _ _ => ⟨rfl, rfl, fun _ => rfl⟩
  | element base index =>
    exact built.indexedSpells at_ (fun _ => Operation.noConfusion) each (.head _)
      (.tail _ (.head _)) (.element ty) (fun sp => sp.element) (fun _ => rfl) (fun _ _ _ => rfl)
      fun _ _ => ⟨rfl, rfl, fun _ => rfl⟩
  | sample sampler coord =>
    cases fits with
    | @sample _ _ s texture =>
      refine built.textureSpells at_ (fun _ => Operation.noConfusion) each texture (.head _)
        (.tail _ (.head _)) (.sample s) (fun sp t => sp.sample t s) ?tree ?text
        fun _ _ => ⟨rfl, rfl, fun _ => rfl⟩
      case tree =>
        intro sub t c same sampled coord
        simp only [Program.treeNode, sampled, coord, Bind.bind, Except.bind, same]
        rfl
      case text =>
        intro sp sub opened
        simp only [Program.renderNode, samplerTyOk texture]
        rfl
  | load storage coord =>
    cases fits with
    | @load _ _ s texture =>
      refine built.textureSpells at_ (fun _ => Operation.noConfusion) each texture (.head _)
        (.tail _ (.head _)) (.load s) (fun sp t => sp.load t s) ?tree ?text
        fun _ _ => ⟨rfl, rfl, fun _ => rfl⟩
      case tree =>
        intro sub t c same loaded coord
        simp only [Program.treeNode, loaded, coord, Bind.bind, Except.bind, same]
        rfl
      case text =>
        intro sp sub opened
        simp only [Program.renderNode, storageTyOk texture]
        rfl

theorem Built.slotSpells (built : Built p) (acyclic : p.Acyclic) {e value : ExprId} {node : Expr}
    {s : SlotId} {t : Tree} (at_ : p.exprs.get? e = some node) (op : node.op = .slot s)
    (bound : p.IsBound s value) (made : p.tree value = .ok t) (spells : p.Spells value t) :
    ∃ t, p.treeNode p.tree node = .ok t ∧ p.Spells e t := by
  have reader : p.AtSlot e s := ⟨node, at_, op⟩
  obtain ⟨slot, slotAt, holds⟩ := id bound
  obtain ⟨block, owner, -⟩ := (built.slot slotAt).owner
  have typed : node.ty = t.ty := by
    have fits := op ▸ (built.expr at_).1
    obtain ⟨again, there, same⟩ := Fits.slotAt fits
    cases slotAt.symm.trans there
    exact same.symm.trans (((built.slot slotAt).typed value holds).same spells.typed)
  refine built.spelled at_ (by simp [op]) (.input t) typed rfl ?tree ?text
  case tree =>
    simp only [Program.treeNode, op, Arena.fetchOfGet slotAt, holds, made, Bind.bind, Except.bind]
    rfl
  case text =>
    intro sp opened leads
    have closed := leads.closed acyclic reader
    simp only [Program.renderNode, op, Arena.fetchOfGet slotAt, Arena.fetchOfGet owner, holds,
      closed, if_false, Bind.bind, Except.bind]
    exact spells.written sp (leads.opened reader bound)

def Program.BoundUnder (p : Program) (e : ExprId) : Prop :=
  ∀ o s, ReflTransGen p.Follows e o → p.AtSlot o s → ∃ value, p.IsBound s value

theorem Program.BoundUnder.follow {e o : ExprId} (bound : p.BoundUnder e) (step : p.Follows e o) :
    p.BoundUnder o := fun a s under => bound a s (.head step under)

theorem Built.treeSpells (built : Built p) (acyclic : p.Acyclic) {n : Nat} {e : ExprId}
    (ends : Within p.Follows n e) (below : e.index < p.exprs.size) (bound : p.BoundUnder e) :
    ∃ t, p.tree e = .ok t ∧ p.Spells e t := by
  induction n generalizing e with
  | zero => exact absurd ends id
  | succ n ih =>
    obtain ⟨node, at_⟩ := Arena.atBelow below
    have equation : p.tree e = p.treeNode p.tree node := by
      rw [built.treeSolves acyclic e]
      simp only [Program.treeStep, Arena.fetchOfGet at_, Bind.bind, Except.bind]
    rw [equation]
    by_cases slots : ∃ s, node.op = .slot s
    · obtain ⟨s, op⟩ := slots
      have reader : p.AtSlot e s := ⟨node, at_, op⟩
      obtain ⟨value, held⟩ := bound e s .refl reader
      have step : p.Follows e value := .bound reader held
      obtain ⟨t, made, spells⟩ := ih (ends value step) (built.bound held).2 (bound.follow step)
      exact built.slotSpells acyclic at_ op held made spells
    · refine built.nodeSpells at_ (fun s op => slots ⟨s, op⟩) fun o under => ?_
      have step : p.Follows e o := .operand under
      exact ih (ends o step) (built.operand under).2 (bound.follow step)

theorem leadsAlong {e o : ExprId} {opened : List SlotId}
    (comes : ReflTransGen p.Calls ([], e) (opened, o)) :
    p.Leads opened o ∧ ReflTransGen p.Follows e o := by
  have along {call : List SlotId × ExprId} (comes : ReflTransGen p.Calls ([], e) call) :
      p.Leads call.1 call.2 ∧ ReflTransGen p.Follows e call.2 := by
    induction comes with
    | refl => exact ⟨.nil, .refl⟩
    | tail _ call ih =>
      cases call with
      | operand step => exact ⟨ih.1.operand step, ih.2.tail (.operand step)⟩
      | bound reader held => exact ⟨ih.1.opened reader held, ih.2.tail (.bound reader held)⟩
  exact along comes

theorem comesBelow (built : Built p) {e o : ExprId} (below : e.index < p.exprs.size)
    (comes : ReflTransGen p.Follows e o) : o.index < p.exprs.size := by
  induction comes with
  | refl => exact below
  | tail _ step =>
    cases step with
    | operand step => exact (built.operand step).2
    | bound _ held => exact (built.bound held).2

theorem inputsInlined (reachable : Reachable p) (acyclic : p.Acyclic) {e : ExprId}
    (below : e.index < p.exprs.size) (bound : p.BoundUnder e) :
    Solves p.treeStep p.tree ∧ (∀ other, Solves p.treeStep other → other = p.tree) ∧
    ∃ t, p.tree e = .ok t ∧ p.HasTy e t.ty ∧ t.inlined.ty = t.ty ∧
      (∀ sp, p.render sp e = .ok (t.text sp)) ∧
      (∀ sp, sp.Blind ∨ t.Direct → p.render sp e = .ok (t.inlined.text sp)) ∧
      ∀ opened o, ReflTransGen p.Calls ([], e) (opened, o) → (∀ s, p.AtSlot o s → s ∉ opened) ∧
        ∃ u, p.tree o = .ok u ∧ ∀ sp write, Solves (p.writeStep sp) write →
          write (opened, o) = .ok (u.text sp) := by
  have built := reachableBuilt reachable
  have solves := built.treeSolves acyclic
  have founded := withinFounded fun e => ⟨_, built.readsEnough acyclic e⟩
  obtain ⟨t, made, spells⟩ := built.treeSpells acyclic (built.readsEnough acyclic e) below bound
  have rendered (sp : Spelling) : p.render sp e = .ok (t.text sp) := by
    obtain ⟨node, at_⟩ := Arena.atBelow below
    rw [Program.render, Arena.findOfGet at_]
    exact spells.written sp .nil
  refine ⟨solves, fun _ other => solvedOnce founded treeLocal other solves, t, made, spells.typed,
    inlinedTy t, rendered, fun sp same => (inlinedText t same).symm ▸ rendered sp,
    fun opened o comes => ?_⟩
  obtain ⟨leads, along⟩ := leadsAlong comes
  have boundThere : p.BoundUnder o := fun a s under => bound a s (along.trans under)
  obtain ⟨u, there, spellsThere⟩ := built.treeSpells acyclic (built.readsEnough acyclic o)
    (comesBelow built below along) boundThere
  refine ⟨fun s reader => leads.closed acyclic reader, u, there, fun sp write equation => ?_⟩
  rw [solvedOnce built.callsEnd (built.writeLocal sp) equation (built.renderSolves sp)]
  exact spellsThere.written sp leads

theorem targetsBlind : Spelling.pseudo.Blind ∧ Glsl.spelling.Blind ∧
    ∀ stage, (Wgsl.spelling stage).Blind :=
  ⟨⟨fun _ _ _ => rfl, fun _ _ _ => rfl⟩, ⟨fun _ _ _ => rfl, fun _ _ _ => rfl⟩,
    fun _ => ⟨fun _ _ _ => rfl, fun _ _ _ => rfl⟩⟩

theorem Checked.boundUnder (checked : Checked p) (e : ExprId) : p.BoundUnder e := by
  rintro o s - ⟨node, at_, op⟩
  obtain ⟨slot, slotAt, -⟩ := Fits.slotAt (op ▸ (checked.built.expr at_).1)
  obtain ⟨value, holds⟩ := checked.filled s slot slotAt
  exact ⟨value, slot, slotAt, holds⟩

def inlinedRun : List Call :=
  [.addStage .fragment, .declare ⟨0⟩ "v" .float1 none, .read ⟨0⟩, .block ⟨0⟩ "use",
    .input ⟨0⟩ (some "a") .float1 (some ⟨0⟩), .binary .multiply ⟨1⟩ ⟨1⟩,
    .input ⟨0⟩ (some "b") .float1 (some ⟨2⟩), .binary .add ⟨3⟩ ⟨1⟩]

theorem inlinedRuns : ∃ p, Program.after { name := "p" } inlinedRun = some p ∧ p.check = .ok [] ∧
    p.exprs.size = 5 ∧ p.render .pseudo ⟨4⟩ = .ok "((v_0 * v_0) + v_0)" :=
  ⟨_, rfl, rfl, rfl, rfl⟩

theorem inputsInlinedShared : ∃ p t, Program.after { name := "p" } inlinedRun = some p ∧
    p.Acyclic ∧ p.BoundUnder ⟨4⟩ ∧ p.tree ⟨4⟩ = .ok t ∧
    t.inlined.text .pseudo = "((v_0 * v_0) + v_0)" ∧
    p.render Glsl.spelling ⟨4⟩ = .ok (t.inlined.text Glsl.spelling) := by
  obtain ⟨p, ran, passed, size, written⟩ := inlinedRuns
  have reachable := (Reachable.new "p").after ran
  have checked := (reachableBuilt reachable).checked passed
  have bound := checked.boundUnder ⟨4⟩
  obtain ⟨-, -, t, made, -, -, -, pure_, -⟩ :=
    inputsInlined reachable checked.acyclic (e := ⟨4⟩) (by rw [size]; decide) bound
  have pseudo := pure_ .pseudo (.inl targetsBlind.1)
  rw [written, Except.ok.injEq] at pseudo
  exact ⟨p, t, ran, checked.acyclic, bound, made, pseudo.symm, pure_ _ (.inl targetsBlind.2.1)⟩

def namedColumns : Spelling where
  typeName := Ty.name
  sample sampler _ coord := s!"sample({sampler}, {coord})"
  column matrix index :=
    match index.constant with
    | some c => s!"col{c}({matrix})"
    | none => s!"col({matrix}, {index.text})"

def columnRun : List Call :=
  [.addStage .fragment, .declare ⟨0⟩ "m" .mat3 none, .read ⟨0⟩, .block ⟨0⟩ "use", .literal (.int 1),
    .input ⟨0⟩ (some "i") .int1 (some ⟨1⟩), .column ⟨0⟩ ⟨2⟩]

theorem boundIndexUnnamed : ∃ p t, Reachable p ∧ p.Acyclic ∧ p.BoundUnder ⟨3⟩ ∧ p.tree ⟨3⟩ = .ok t ∧
    p.render namedColumns ⟨3⟩ = .ok "col(m_0, 1)" ∧ t.inlined.text namedColumns = "col1(m_0)" := by
  obtain ⟨p, t, ran, passed, made, written, inlined⟩ : ∃ p t,
      Program.after { name := "p" } columnRun = some p ∧ p.check = .ok [] ∧ p.tree ⟨3⟩ = .ok t ∧
      p.render namedColumns ⟨3⟩ = .ok "col(m_0, 1)" ∧ t.inlined.text namedColumns = "col1(m_0)" :=
    ⟨_, _, rfl, rfl, rfl, rfl, rfl⟩
  have reachable := (Reachable.new "p").after ran
  have checked := (reachableBuilt reachable).checked passed
  exact ⟨p, t, reachable, checked.acyclic, checked.boundUnder ⟨3⟩, made, written, inlined⟩

end

end ShaderGraph
