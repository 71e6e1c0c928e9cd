import ShaderGraph.Proofs.Splitting
/-! The left sides of assignments. A target is the name of a variable and the selectors that lead
from it to the part that is assigned: indices into arrays and matrices, and the letters of
swizzles. What is written out one component a line ends in one letter on every line. The selectors
before that letter are those of the vector as it is, so that a swizzle of a swizzle is still
assigned through several letters. -/
namespace ShaderGraph

inductive Selector
  | index (text : String)
  | letters (pattern : List Component)
  deriving DecidableEq, Repr

def Selector.text : Selector → String
  | .index text => s!"[{text}]"
  | .letters pattern => "." ++ Component.letters pattern

def Selector.wide : Selector → Bool
  | .index _ => false
  | .letters pattern => 1 < pattern.length

structure Destination where
  name : String
  selectors : List Selector
  deriving DecidableEq, Repr

namespace Destination

def text (d : Destination) : String := d.selectors.foldl (fun base a => base ++ a.text) d.name

def through (d : Destination) (a : Selector) : Destination :=
  { d with selectors := d.selectors ++ [a] }

theorem throughText (d : Destination) (a : Selector) : (d.through a).text = d.text ++ a.text := by
  simp [text, through]

end Destination

structure Spelling.Postfix (sp : Spelling) : Prop where
  column : ∀ base i, sp.columnTarget base i = base ++ Selector.text (.index i.text)
  element : ∀ base i, sp.elementTarget base i = base ++ Selector.text (.index i.text)
  swizzle : ∀ base pattern, sp.swizzle base pattern = base ++ Selector.text (.letters pattern)

inductive Program.Places (p : Program) (sp : Spelling) : ExprId → Destination → Prop
  | read {e : ExprId} {node : Expr} {v : VarId} {var : Variable} (at_ : p.exprs.get? e = some node)
      (op : node.op = .read v) (varAt : p.vars.get? v = some var) : Places p sp e ⟨sp.read var, []⟩
  | index {e base i : ExprId} {node : Expr} {d : Destination} {text : String}
      (at_ : p.exprs.get? e = some node) (op : node.op = .column base i ∨ node.op = .element base i)
      (under : Places p sp base d) (rendered : p.renderWithin sp p.depthBound [] i = .ok text) :
      Places p sp e (d.through (.index text))
  | letters {e vector : ExprId} {node : Expr} {d : Destination} {pattern : List Component}
      (at_ : p.exprs.get? e = some node) (op : node.op = .swizzle vector pattern)
      (under : Places p sp vector d) : Places p sp e (d.through (.letters pattern))

def Program.Reswizzles (p : Program) (e : ExprId) : Prop :=
  ∃ node vector pattern base inner shown, p.exprs.get? e = some node ∧
    node.op = .swizzle vector pattern ∧ p.exprs.get? vector = some base ∧
    base.op = .swizzle inner shown

namespace Wgsl

/-- A line of an assignment: the value is held, or something is assigned to a destination. -/
inductive Line
  | hold (value : String)
  | set (place : Destination) (value : String)
  deriving DecidableEq, Repr

def Line.text : Line → String
  | .hold value => s!"let swizzled = {value};"
  | .set place value => s!"{place.text} = {value};"

def listed (lines : List Line) : Listing :=
  let texts := lines.map fun line => Item.line line.text
  if lines.length = 1 then texts else .line "\x7b" :: Listing.nested texts ++ [.line "\x7d"]

inductive Sets (p : Program) (sp : Spelling) (value : String) : Write → Line → Prop
  | hold : Sets p sp value .hold (.hold value)
  | part {vector : ExprId} {component source : Component} {d : Destination}
      (places : p.Places sp vector d) : Sets p sp value (.part vector component source)
        (.set (d.through (.letters [component])) s!"swizzled.{source.letter}")
  | whole {target : ExprId} {d : Destination} (places : p.Places sp target d) :
      Sets p sp value (.whole target) (.set d value)

theorem bracketed (base text : String) : s!"{base}[{text}]" = base ++ s!"[{text}]" := by
  change base ++ "[" ++ text ++ "]" = base ++ ("[" ++ text ++ "]")
  rw [String.append_assoc, String.append_assoc, String.append_assoc]

theorem spellingPostfix (kind : StageKind) : (spelling kind).Postfix where
  column base i := bracketed base i.text
  element base i := bracketed base i.text
  swizzle _ _ := String.append_assoc ..

end Wgsl

section

variable {p : Program} {sp : Spelling}

theorem indexTextKept {i : ExprId} {text : String} {shown : IndexText}
    (read : p.indexText i text = .ok shown) : shown.text = text := by
  obtain ⟨node, -, read⟩ := Outcome.bindOk.mp read
  split at read <;> exact congrArg IndexText.text (Outcome.pureOk.mp read).symm

theorem Spelling.Postfix.places (written : sp.Postfix) {fuel : Nat} {e : ExprId} {text : String}
    (rendered : p.renderTargetWithin sp fuel e = .ok text) :
    ∃ d, p.Places sp e d ∧ d.text = text := by
  induction fuel generalizing e text with
  | zero => cases rendered
  | succ fuel ih =>
    obtain ⟨node, found, rendered⟩ := Outcome.bindOk.mp rendered
    have at_ := Arena.fetchOk.mp found
    unfold Program.renderTargetNode at rendered
    split at rendered
    · rename_i v op
      simp only [Outcome.bindOk, Arena.fetchOk, Outcome.pureOk] at rendered
      obtain ⟨var, varAt, rfl⟩ := rendered
      exact ⟨_, .read at_ op varAt, rfl⟩
    · rename_i op
      simp only [Outcome.bindOk, Outcome.pureOk] at rendered
      obtain ⟨_, based, i, indexed, shown, read, rfl⟩ := rendered
      obtain ⟨d, under, rfl⟩ := ih based
      refine ⟨_, .index at_ (.inl op) under indexed, ?_⟩
      rw [Destination.throughText, written.column, indexTextKept read]
    · rename_i op
      simp only [Outcome.bindOk, Outcome.pureOk] at rendered
      obtain ⟨_, based, i, indexed, shown, read, rfl⟩ := rendered
      obtain ⟨d, under, rfl⟩ := ih based
      refine ⟨_, .index at_ (.inr op) under indexed, ?_⟩
      rw [Destination.throughText, written.element, indexTextKept read]
    · rename_i op
      simp only [Outcome.bindOk, Outcome.pureOk] at rendered
      obtain ⟨_, based, rfl⟩ := rendered
      obtain ⟨d, under, rfl⟩ := ih based
      refine ⟨_, .letters at_ op under, ?_⟩
      rw [Destination.throughText, written.swizzle]
    · obtain ⟨_, -, refused⟩ := Outcome.bindOk.mp rendered
      exact (Outcome.rejectOk.mp refused).elim

theorem Program.Places.stands {e : ExprId} {d : Destination} (places : p.Places sp e d) :
    ∃ node, p.exprs.get? e = some node := by
  cases places with
  | read at_ | index at_ | letters at_ => exact ⟨_, at_⟩

theorem Program.Places.unique {e : ExprId} {d d' : Destination} (one : p.Places sp e d)
    (two : p.Places sp e d') : d = d' := by
  induction one generalizing d' with
  | read at_ op varAt =>
    cases two with
    | read there opToo varThere =>
      cases at_.symm.trans there
      cases op.symm.trans opToo
      cases varAt.symm.trans varThere
      rfl
    | index there opToo =>
      cases at_.symm.trans there
      simp [op] at opToo
    | letters there opToo =>
      cases at_.symm.trans there
      simp [op] at opToo
  | index at_ op _ rendered ih =>
    cases two with
    | read there opToo =>
      cases at_.symm.trans there
      simp [opToo] at op
    | index there opToo under renderedToo =>
      cases at_.symm.trans there
      rcases op with op | op <;> rcases opToo with opToo | opToo <;> cases op.symm.trans opToo
      · rw [ih under, Except.ok.inj (rendered.symm.trans renderedToo)]
      · rw [ih under, Except.ok.inj (rendered.symm.trans renderedToo)]
    | letters there opToo =>
      cases at_.symm.trans there
      simp [opToo] at op
  | letters at_ op _ ih =>
    cases two with
    | read there opToo =>
      cases at_.symm.trans there
      simp [opToo] at op
    | index there opToo =>
      cases at_.symm.trans there
      simp [op] at opToo
    | letters there opToo under =>
      cases at_.symm.trans there
      cases op.symm.trans opToo
      rw [ih under]

theorem sizedTwice {kind : ScalarKind} {n : Nat} {size : VectorSize} {other : ScalarKind}
    (made : Ty.ofComponents? kind n = some (.vector size other)) : 1 < n := by
  unfold Ty.ofComponents? at made
  split at made
  · cases made
  · obtain ⟨again, counted, -⟩ := Option.map_eq_some_iff.mp made
    rw [← VectorSize.countOfSome counted]
    cases again <;> decide

theorem swizzledTy {kind : ScalarKind} {n : Nat} {ty : Ty}
    (made : Ty.ofComponents? kind n = some ty) : ty.column? = none ∧ ty.element? = none := by
  unfold Ty.ofComponents? at made
  split at made
  · cases made
    exact ⟨rfl, rfl⟩
  · obtain ⟨size, -, rfl⟩ := Option.map_eq_some_iff.mp made
    exact ⟨rfl, rfl⟩

theorem Built.indexedPlain (built : Built p) {e base i : ExprId} {node : Expr}
    (at_ : p.exprs.get? e = some node) (op : node.op = .column base i ∨ node.op = .element base i)
    {under : Expr} (baseAt : p.exprs.get? base = some under) (vector : ExprId)
    (pattern : List Component) : under.op ≠ .swizzle vector pattern := by
  intro swizzled
  have shown := (built.expr baseAt).1
  have fits := (built.expr at_).1
  rw [swizzled] at shown
  cases shown with
  | swizzle _ _ result =>
    obtain ⟨column, element⟩ := swizzledTy result
    rcases op with op | op
    · rw [op] at fits
      cases fits with
      | column typed entered =>
        obtain ⟨_, there, rfl⟩ := typed
        cases baseAt.symm.trans there
        rw [column] at entered
        cases entered
    · rw [op] at fits
      cases fits with
      | element typed entered =>
        obtain ⟨_, there, rfl⟩ := typed
        cases baseAt.symm.trans there
        rw [element] at entered
        cases entered

theorem Built.reswizzled (built : Built p) {e vector inner : ExprId} {node base : Expr}
    {pattern shown : List Component} (at_ : p.exprs.get? e = some node)
    (op : node.op = .swizzle vector pattern) (baseAt : p.exprs.get? vector = some base)
    (again : base.op = .swizzle inner shown) : 1 < shown.length := by
  have fits := (built.expr at_).1
  rw [op] at fits
  cases fits with
  | swizzle typed =>
    obtain ⟨_, there, ty⟩ := typed
    cases baseAt.symm.trans there
    have under := (built.expr baseAt).1
    rw [again, ty] at under
    cases under with
    | swizzle _ _ result => exact sizedTwice result

theorem Built.plainPlace (built : Built p) {e : ExprId} {d : Destination}
    (places : p.Places sp e d) {node : Expr} (at_ : p.exprs.get? e = some node)
    (plain : ∀ vector pattern, node.op ≠ .swizzle vector pattern) :
    ∀ a ∈ d.selectors, a.wide = false := by
  induction places generalizing node with
  | read => exact fun _ none => by cases none
  | index there op under _ ih =>
    obtain ⟨base, baseAt⟩ := under.stands
    refine List.forall_mem_append.mpr ⟨ih baseAt (built.indexedPlain there op baseAt), ?_⟩
    exact List.forall_mem_singleton.mpr rfl
  | letters there op =>
    cases at_.symm.trans there
    exact absurd op (plain _ _)

theorem Built.wideUnder (built : Built p) {e vector : ExprId} {node : Expr}
    {pattern : List Component} {d : Destination} (at_ : p.exprs.get? e = some node)
    (op : node.op = .swizzle vector pattern) (places : p.Places sp vector d) :
    (∃ a ∈ d.selectors, a.wide = true) ↔ p.Reswizzles e := by
  constructor
  · intro h
    obtain ⟨a, inside, wide⟩ := h
    obtain ⟨base, baseAt⟩ := places.stands
    -- below anything but a swizzle all is plain: a swizzle has no columns and no elements
    by_cases again : ∃ inner shown, base.op = .swizzle inner shown
    · obtain ⟨inner, shown, again⟩ := again
      exact ⟨node, vector, pattern, base, inner, shown, at_, op, baseAt, again⟩
    · have plain := built.plainPlace places baseAt fun inner shown op => again ⟨inner, shown, op⟩
      rw [plain a inside] at wide
      cases wide
  · intro h
    obtain ⟨_, _, _, base, inner, shown, there, opToo, baseAt, again⟩ := h
    cases at_.symm.trans there
    cases op.symm.trans opToo
    have several := built.reswizzled at_ op baseAt again
    cases places with
    | read here | index here =>
      cases baseAt.symm.trans here
      simp_all
    | @letters _ _ _ d _ here opHere under =>
      cases baseAt.symm.trans here
      cases again.symm.trans opHere
      exact ⟨_, List.mem_append_right _ List.mem_cons_self, decide_eq_true several⟩

variable {value : String}

theorem Wgsl.partText (base : String) (c source : Component) :
    s!"{base}.{c.letter} = swizzled.{source.letter};" =
      base ++ Selector.text (.letters [c]) ++ " = " ++ s!"swizzled.{source.letter}" ++ ";" := by
  change base ++ "." ++ String.singleton c.letter ++ " = swizzled." ++
      String.singleton source.letter ++ ";" = base ++ ("." ++ Component.letters [c]) ++ " = " ++
      ("swizzled." ++ String.singleton source.letter) ++ ";"
  exact String.toList_inj.mp (by simp [Component.letters])

theorem Wgsl.setsOf (written : sp.Postfix) {w : Wgsl.Write} {text : String}
    (made : w.text p sp value = .ok text) :
    ∃ line, Wgsl.Sets p sp value w line ∧ line.text = text := by
  have placed {e : ExprId} {base : String} (rendered : p.renderTarget sp e = .ok base) :
      ∃ d, p.Places sp e d ∧ d.text = base := by
    obtain ⟨_, -, rendered⟩ := Outcome.bindOk.mp rendered
    exact written.places rendered
  cases w with
  | hold =>
    cases made
    exact ⟨_, .hold, rfl⟩
  | part vector component source =>
    simp only [Wgsl.Write.text, Outcome.bindOk, Outcome.pureOk] at made
    obtain ⟨_, based, rfl⟩ := made
    obtain ⟨d, places, rfl⟩ := placed based
    refine ⟨_, .part places, ?_⟩
    rw [Wgsl.partText, ← Destination.throughText]
    rfl
  | whole target =>
    simp only [Wgsl.Write.text, Outcome.bindOk, Outcome.pureOk] at made
    obtain ⟨_, based, rfl⟩ := made
    obtain ⟨d, places, rfl⟩ := placed based
    exact ⟨_, .whole places, rfl⟩

theorem Wgsl.setsAll (written : sp.Postfix) {ws : List Wgsl.Write} {texts : List String}
    (made : ws.mapM (Wgsl.Write.text p sp value) = .ok texts) :
    ∃ lines, List.Forall₂ (Wgsl.Sets p sp value) ws lines ∧ lines.map Wgsl.Line.text = texts := by
  have each : List.Forall₂ (fun w text => w.text p sp value = .ok text) ws texts :=
    Outcome.mapMOk.mp made
  clear made
  induction each with
  | nil => exact ⟨[], .nil, rfl⟩
  | cons first _ ih =>
    obtain ⟨line, sets, rfl⟩ := Wgsl.setsOf written first
    obtain ⟨lines, others, rfl⟩ := ih
    exact ⟨line :: lines, .cons sets others, rfl⟩

theorem Wgsl.Sets.unique {w : Wgsl.Write} {one two : Wgsl.Line} (first : Wgsl.Sets p sp value w one)
    (second : Wgsl.Sets p sp value w two) : one = two := by
  cases first with
  | hold =>
    cases second
    rfl
  | part places =>
    cases second with
    | part again => rw [places.unique again]
  | whole places =>
    cases second with
    | whole again => rw [places.unique again]

theorem Destination.throughNarrow (d : Destination) {a : Selector} (narrow : a.wide = false) :
    (∀ b, (d.through a).selectors.getLast? = some b → b.wide = false) ∧
      ((∃ b ∈ (d.through a).selectors, b.wide = true) ↔ ∃ b ∈ d.selectors, b.wide = true) := by
  simp [Destination.through, narrow, or_and_right, exists_or]

theorem writesOf (target : ExprId) (op : Operation) :
    (∃ vector pattern, op = .swizzle vector pattern ∧ 1 < pattern.length ∧
      Wgsl.writes target op = .hold :: (pattern.zip Component.all).map (partLine vector)) ∨
    (∀ vector pattern, op = .swizzle vector pattern → pattern.length ≤ 1) ∧
      Wgsl.writes target op = [.whole target] := by
  unfold Wgsl.writes
  split
  · rename_i vector pattern
    by_cases several : 1 < pattern.length
    · rw [if_pos several]
      exact .inl ⟨vector, pattern, rfl, several, rfl⟩
    · rw [if_neg several]
      refine .inr ⟨fun _ _ same => ?_, rfl⟩
      cases same
      omega
  · rename_i other
    exact .inr ⟨fun vector pattern same => absurd same (other vector pattern), rfl⟩

theorem Built.singly (built : Built p) {target : ExprId} {node : Expr}
    (at_ : p.exprs.get? target = some node) {w : Wgsl.Write}
    (among : w ∈ Wgsl.writes target node.op) {place : Destination} {source : String}
    (sets : Wgsl.Sets p sp value w (.set place source)) :
    (∀ a, place.selectors.getLast? = some a → a.wide = false) ∧
      ((∃ a ∈ place.selectors, a.wide = true) ↔ p.Reswizzles target) := by
  have narrow {vector : ExprId} {pattern : List Component} {d : Destination} {a : Selector}
      (op : node.op = .swizzle vector pattern) (places : p.Places sp vector d)
      (one : a.wide = false) : (∀ b, (d.through a).selectors.getLast? = some b → b.wide = false) ∧
        ((∃ b ∈ (d.through a).selectors, b.wide = true) ↔ p.Reswizzles target) := by
    obtain ⟨last, any⟩ := d.throughNarrow one
    exact ⟨last, any.trans (built.wideUnder at_ op places)⟩
  rcases writesOf target node.op with ⟨vector, pattern, op, -, writes⟩ | ⟨few, writes⟩
  · rw [writes] at among
    rcases List.mem_cons.mp among with rfl | among
    · cases sets
    · obtain ⟨part, -, rfl⟩ := List.mem_map.mp among
      cases sets with
      | part places => exact narrow op places rfl
  · rw [writes, List.mem_singleton] at among
    subst among
    cases sets with
    | whole places =>
    by_cases swizzled : ∃ vector pattern, node.op = .swizzle vector pattern
    · obtain ⟨vector, pattern, op⟩ := swizzled
      cases places with
      | read there opToo | index there opToo =>
        cases at_.symm.trans there
        simp [op] at opToo
      | letters there opToo under =>
        cases at_.symm.trans there
        exact narrow opToo under (decide_eq_false (Nat.not_lt.mpr (few _ _ opToo)))
    · have plain := built.plainPlace places at_ fun _ _ op => swizzled ⟨_, _, op⟩
      refine ⟨fun a last => plain a (List.mem_of_getLast? last), fun h => ?_, fun h => ?_⟩
      · obtain ⟨a, inside, wide⟩ := h
        rw [plain a inside] at wide
        cases wide
      · obtain ⟨_, vector, pattern, _, _, _, there, op, -⟩ := h
        cases at_.symm.trans there
        exact absurd ⟨vector, pattern, op⟩ swizzled

theorem writesSome (target : ExprId) (op : Operation) : ∃ w ∈ Wgsl.writes target op, w ≠ .hold := by
  rcases writesOf target op with ⟨vector, pattern, -, several, writes⟩ | ⟨-, writes⟩
  · obtain ⟨part, inside⟩ : ∃ part, part ∈ pattern.zip Component.all := by
      refine List.exists_mem_of_length_pos ?_
      rw [List.length_zip]
      exact Nat.lt_min.mpr ⟨by omega, by decide⟩
    refine ⟨partLine vector part, ?_, fun held => by cases held⟩
    rw [writes]
    exact List.mem_cons_of_mem _ (List.mem_map_of_mem inside)
  · refine ⟨.whole target, ?_, fun held => by cases held⟩
    rw [writes]
    exact List.mem_singleton_self _

theorem Wgsl.someSet {target : ExprId} {op : Operation} {lines : List Wgsl.Line}
    (sets : List.Forall₂ (Wgsl.Sets p sp value) (Wgsl.writes target op) lines) :
    ∃ place source, .set place source ∈ lines := by
  obtain ⟨w, among, other⟩ := writesSome target op
  obtain ⟨line, inside, own⟩ := pairedSource sets.flip among
  cases own with
  | hold => exact absurd rfl other
  | part | whole => exact ⟨_, _, inside⟩

theorem assignedSingly (reachable : Reachable p) {target value : ExprId} {kind : StageKind}
    {listing : Listing} (written : (Wgsl.dialect kind).assign p target value = .ok listing) :
    ∃ text node lines, p.render (Wgsl.spelling kind) value = .ok text ∧
      p.exprs.get? target = some node ∧
      (∀ others, List.Forall₂ (Wgsl.Sets p (Wgsl.spelling kind) text)
        (Wgsl.writes target node.op) others ↔ others = lines) ∧
      listing = Wgsl.listed lines ∧ (∃ place source, .set place source ∈ lines) ∧
      ∀ place source, .set place source ∈ lines →
        (∀ a, place.selectors.getLast? = some a → a.wide = false) ∧
        ((∃ a ∈ place.selectors, a.wide = true) ↔ p.Reswizzles target) := by
  have built := reachableBuilt reachable
  change Wgsl.assign (Wgsl.spelling kind) p target value = .ok listing at written
  simp only [Wgsl.assign, Outcome.bindOk, Arena.fetchOk] at written
  obtain ⟨text, rendered, node, targetAt, texts, made, written⟩ := written
  obtain ⟨lines, sets, rfl⟩ := Wgsl.setsAll (Wgsl.spellingPostfix kind) made
  refine ⟨text, node, lines, rendered, targetAt, fun others => ⟨fun also => ?_, ?_⟩, ?_, ?_, ?_⟩
  · exact List.right_unique_forall₂' (fun _ _ _ one two => one.unique two) also sets
  · rintro rfl
    exact sets
  · rw [sets.length_eq, List.map_map] at written
    rw [Wgsl.listed]
    split at written
    · rename_i alone
      rw [if_pos alone]
      exact (Outcome.pureOk.mp written).symm
    · rename_i several
      rw [if_neg several]
      exact (Outcome.pureOk.mp written).symm
  · exact Wgsl.someSet sets
  · intro place source inside
    obtain ⟨w, among, own⟩ := pairedSource sets inside
    exact built.singly targetAt among own

def AssignsSingly (p : Program) : Prop :=
  ∀ s stmt target value v kind listing text node lines, p.stmts.get? s = some stmt →
    stmt.kind = .act (.assign target value) → p.root target = .ok (some v) →
    (Wgsl.dialect kind).assign p target value = .ok listing →
    p.render (Wgsl.spelling kind) value = .ok text → p.exprs.get? target = some node →
    List.Forall₂ (Wgsl.Sets p (Wgsl.spelling kind) text) (Wgsl.writes target node.op) lines →
    ∀ place source, .set place source ∈ lines → ∀ a ∈ place.selectors, a.wide = false

def swizzledTwiceRun : List Call :=
  [.addStage .fragment, .declare ⟨0⟩ "v" .int4 none, .read ⟨0⟩, .swizzle ⟨0⟩ "zyx",
    .swizzle ⟨1⟩ "xy", .literal (.int 1), .compose .int2 [⟨3⟩, ⟨3⟩], .assign ⟨0⟩ ⟨2⟩ ⟨4⟩]

def swizzledTwiceLines : List Wgsl.Line :=
  [.hold "vec2<i32>(1, 1)",
    .set ⟨"v_0", [.letters [.z, .y, .x], .letters [.x]]⟩ "swizzled.x",
    .set ⟨"v_0", [.letters [.z, .y, .x], .letters [.y]]⟩ "swizzled.y"]

theorem swizzledTwiceRuns : ∃ p stmt root vector target var,
    Program.after { name := "p" } swizzledTwiceRun = some p ∧ p.check = .ok [] ∧
    p.stmts.get? ⟨1⟩ = some stmt ∧ stmt.kind = .act (.assign ⟨2⟩ ⟨4⟩) ∧
    p.root ⟨2⟩ = .ok (some ⟨0⟩) ∧ p.exprs.get? ⟨0⟩ = some root ∧ root.op = .read ⟨0⟩ ∧
    p.exprs.get? ⟨1⟩ = some vector ∧ vector.op = .swizzle ⟨0⟩ [.z, .y, .x] ∧
    p.exprs.get? ⟨2⟩ = some target ∧ target.op = .swizzle ⟨1⟩ [.x, .y] ∧
    p.vars.get? ⟨0⟩ = some var ∧ Wgsl.moduleName var = "v_0" ∧
    p.render (Wgsl.spelling .fragment) ⟨4⟩ = .ok "vec2<i32>(1, 1)" ∧
    (Wgsl.dialect .fragment).assign p ⟨2⟩ ⟨4⟩ = .ok (Wgsl.listed swizzledTwiceLines) :=
  ⟨_, _, _, _, _, _, rfl, rfl, rfl, rfl, rfl, rfl, rfl, rfl, rfl, rfl, rfl, rfl, rfl, rfl, rfl⟩

theorem assignedSinglyTwice : ∃ p lines, Program.after { name := "p" } swizzledTwiceRun = some p ∧
    (Wgsl.dialect .fragment).assign p ⟨2⟩ ⟨4⟩ = .ok (Wgsl.listed lines) ∧ p.Reswizzles ⟨2⟩ ∧
    ∃ place source, .set place source ∈ lines ∧
      (∀ a, place.selectors.getLast? = some a → a.wide = false) ∧
      ∃ a ∈ place.selectors, a.wide = true := by
  obtain ⟨p, _, _, vector, target, _, ran, -, -, -, -, -, -, vectorAt, inner, targetAt, outer, -, -,
    -, written⟩ := swizzledTwiceRuns
  obtain ⟨_, _, lines, -, -, -, listed, ⟨place, source, inside⟩, each⟩ :=
    assignedSingly ((Reachable.new "p").after ran) written
  have twice : p.Reswizzles ⟨2⟩ :=
    ⟨target, ⟨1⟩, _, vector, ⟨0⟩, _, targetAt, outer, vectorAt, inner⟩
  obtain ⟨last, wide⟩ := each place source inside
  exact ⟨p, lines, ran, listed ▸ written, twice, place, source, inside, last, wide.mpr twice⟩

theorem assignsThroughSwizzle : ∃ p, Reachable p ∧ p.check = .ok [] ∧
    (Wgsl.dialect .fragment).assign p ⟨2⟩ ⟨4⟩ = .ok (Wgsl.listed swizzledTwiceLines) ∧
    ¬ AssignsSingly p := by
  obtain ⟨p, stmt, root, vector, target, var, ran, passed, at_, assigns, rooted, rootAt, read,
    vectorAt, inner, targetAt, outer, varAt, named, rendered, written⟩ := swizzledTwiceRuns
  have places : p.Places (Wgsl.spelling .fragment) ⟨1⟩ ⟨"v_0", [.letters [.z, .y, .x]]⟩ := by
    have whole : p.Places (Wgsl.spelling .fragment) ⟨0⟩ ⟨Wgsl.moduleName var, []⟩ :=
      .read rootAt read varAt
    rw [named] at whole
    exact .letters vectorAt inner whole
  have sets : List.Forall₂ (Wgsl.Sets p (Wgsl.spelling .fragment) "vec2<i32>(1, 1)")
      (Wgsl.writes ⟨2⟩ target.op) swizzledTwiceLines := by
    rw [outer]
    exact .cons .hold (.cons (.part places) (.cons (.part places) .nil))
  refine ⟨p, (Reachable.new "p").after ran, passed, written, fun singly => ?_⟩
  have narrow := singly _ _ _ _ _ _ _ _ _ _ at_ assigns rooted written rendered targetAt sets _ _
    (List.mem_cons_of_mem _ List.mem_cons_self) (.letters [.z, .y, .x]) List.mem_cons_self
  cases narrow

end

end ShaderGraph
