import Mathlib.Data.List.Infix
import ShaderGraph.Emit
import ShaderGraph.Proofs.Checking
/-! What a walk through a body writes, as a relation that knows no state of the walk, with the
place of every statement in the lines. Blocks open and close with the indentation; at the place of
a statement each variable that is visible to it has been declared, in a block that is still open. -/
namespace ShaderGraph

def Listing.Open (l : Listing) : Prop :=
  ∀ front, front <+: l → front.count .dedent ≤ front.count .indent

/-- A statement and what stands before its own lines. -/
structure Spot where
  statement : StmtId
  before : Listing

def Spot.behind (front : Listing) (spot : Spot) : Spot := ⟨spot.statement, front ++ spot.before⟩

def Emit.otherwise (reject : Body) (no : Listing) : Listing :=
  if reject.isDone then [] else .line "\x7d else \x7b" :: Listing.nested no

/-- The walk writes the lines for the body, and puts each statement at its spot in them. -/
inductive Writes (p : Program) (d : Dialect) (annotate : Bool) :
    Body → Listing → List Spot → Prop
  | done : Writes p d annotate .done [] []
  | act {id : StmtId} {node : Statement} {action : Action} {rest : Body}
      {remark own later : Listing} {spots : List Spot}
      (remarked : Emit.readsRemark p annotate node.reads = .ok remark)
      (written : Emit.actionLines p d action = .ok own) (next : Writes p d annotate rest later spots) :
      Writes p d annotate (.act id node action rest) (remark ++ own ++ later)
        (⟨id, []⟩ :: spots.map (.behind (remark ++ own)))
  | branch {id : StmtId} {node : Statement} {condition : ExprId} {a r : ScopeId}
      {accept reject rest : Body} {remark yes no later : Listing} {test : String}
      {yesSpots noSpots spots : List Spot}
      (remarked : Emit.readsRemark p annotate node.reads = .ok remark)
      (tested : p.render d.spelling condition = .ok test)
      (first : Writes p d annotate accept yes yesSpots)
      (second : Writes p d annotate reject no noSpots)
      (next : Writes p d annotate rest later spots) :
      Writes p d annotate (.branch id node condition a r accept reject rest)
        (remark ++ .line s!"if ({test}) \x7b" :: Listing.nested yes ++ Emit.otherwise reject no
          ++ .line "\x7d" :: later)
        (⟨id, []⟩ ::
          (yesSpots.map (.behind (remark ++ [.line s!"if ({test}) \x7b", .indent])) ++
          noSpots.map (.behind (remark ++ .line s!"if ({test}) \x7b" :: Listing.nested yes ++
            [.line "\x7d else \x7b", .indent])) ++
          spots.map (.behind (remark ++ .line s!"if ({test}) \x7b" :: Listing.nested yes ++
            Emit.otherwise reject no ++ [.line "\x7d"]))))
  | loop {id : StmtId} {node : Statement} {counter : VarId} {var : Variable} {start stop : ExprId}
      {c : ScopeId} {inner rest : Body} {remark inside later : Listing} {first last : String}
      {innerSpots spots : List Spot}
      (remarked : Emit.readsRemark p annotate node.reads = .ok remark)
      (starts : p.render d.spelling start = .ok first)
      (stops : p.render d.spelling stop = .ok last) (at_ : p.vars.get? counter = some var)
      (within : Writes p d annotate inner inside innerSpots)
      (next : Writes p d annotate rest later spots) :
      Writes p d annotate (.loop id node counter start stop c inner rest)
        (remark ++ .line (d.loopHeader var first last) :: Listing.nested inside
          ++ .line "\x7d" :: later)
        (⟨id, []⟩ ::
          (innerSpots.map (.behind (remark ++ [.line (d.loopHeader var first last), .indent])) ++
          spots.map (.behind (remark ++ .line (d.loopHeader var first last) ::
            Listing.nested inside ++ [.line "\x7d"]))))
  | block {id : StmtId} {node : Statement} {b : BlockId} {block : Block} {inner rest : Body}
      {remark named inside later : Listing} {innerSpots spots : List Spot}
      (remarked : Emit.readsRemark p annotate node.reads = .ok remark)
      (marked : named = if annotate then [.line s!"// block {block.name}"] else [])
      (within : Writes p d annotate inner inside innerSpots)
      (next : Writes p d annotate rest later spots) :
      Writes p d annotate (.block id node b block inner rest)
        (remark ++ named ++ .line "\x7b" :: Listing.nested inside ++ .line "\x7d" :: later)
        (⟨id, []⟩ ::
          (innerSpots.map (.behind (remark ++ named ++ [.line "\x7b", .indent])) ++
          spots.map (.behind (remark ++ named ++ .line "\x7b" :: Listing.nested inside ++
            [.line "\x7d"]))))

section

variable {p : Program} {d : Dialect} {annotate : Bool} {body : Body} {lines : Listing}
  {spots : List Spot}

theorem Emit.liftOk {α : Type} {x : Outcome α} {a : α} {w v : Walk} :
    (liftM x : Emit α) w = .ok a v ↔ x = .ok a ∧ w = v := by
  change Emit.ofOutcome x w = _ ↔ _
  unfold Emit.ofOutcome
  cases x <;> simp

theorem bodyWrites {stage : StageKind} {w v : Walk}
    (ran : Emit.body p d annotate stage body w = .ok lines v) :
    ∃ spots, Writes p d annotate body lines spots := by
  induction body generalizing stage lines w v with
  | done =>
    cases ran
    exact ⟨_, .done⟩
  | act id node action rest ih =>
    simp only [Emit.body, ranBind, Emit.liftOk, ranPure] at ran
    obtain ⟨remark, _, ⟨remarked, -⟩, own, _, ⟨written, -⟩, _, _, -, later, _, more, rfl, -⟩ := ran
    obtain ⟨spots, next⟩ := ih more
    exact ⟨_, .act remarked written next⟩
  | branch id node condition a r accept reject rest inYes inNo ih =>
    simp only [Emit.body, ranBind, Emit.liftOk, ranPure] at ran
    obtain ⟨remark, _, ⟨remarked, -⟩, test, _, ⟨tested, -⟩, _, _, -, yes, _, first, _, _, -, no, _,
      second, _, _, -, later, _, more, rfl, -⟩ := ran
    obtain ⟨yesSpots, first⟩ := inYes first
    obtain ⟨noSpots, second⟩ := inNo second
    obtain ⟨spots, next⟩ := ih more
    exact ⟨_, .branch remarked tested first second next⟩
  | loop id node counter start stop c inner rest within ih =>
    simp only [Emit.body, ranBind, Emit.liftOk, ranPure, Arena.fetchOk] at ran
    obtain ⟨remark, _, ⟨remarked, -⟩, first, _, ⟨starts, -⟩, last, _, ⟨stops, -⟩, var, _, ⟨at_, -⟩,
      _, _, -, inside, _, deep, _, _, -, later, _, more, rfl, -⟩ := ran
    obtain ⟨innerSpots, deep⟩ := within deep
    obtain ⟨spots, next⟩ := ih more
    exact ⟨_, .loop remarked starts stops at_ deep next⟩
  | block id node b block inner rest within ih =>
    simp only [Emit.body, ranBind, Emit.liftOk, ranPure] at ran
    obtain ⟨remark, _, ⟨remarked, -⟩, _, _, -, _, _, -, _, _, -, inside, _, deep, _, _, -, later, _,
      more, rfl, -⟩ := ran
    obtain ⟨innerSpots, deep⟩ := within deep
    obtain ⟨spots, next⟩ := ih more
    exact ⟨_, .block remarked rfl deep next⟩

theorem behindStatement (front : Listing) (spots : List Spot) :
    (spots.map (.behind front)).map Spot.statement = spots.map Spot.statement := by
  rw [List.map_map]
  rfl

theorem Writes.statements (writes : Writes p d annotate body lines spots) :
    spots.map Spot.statement = body.preorder := by
  induction writes with
  | done => rfl
  | act _ _ _ ih => simp only [List.map_cons, behindStatement, Body.preorder, ih]
  | branch _ _ _ _ _ one two ih =>
    simp only [List.map_cons, List.map_append, behindStatement, Body.preorder, one, two, ih,
      List.append_assoc]
  | loop _ _ _ _ _ _ deep ih | block _ _ _ _ deep ih =>
    simp only [List.map_cons, List.map_append, behindStatement, Body.preorder, deep, ih]

theorem Writes.placed (writes : Writes p d annotate body lines spots) :
    ∀ spot ∈ spots, spot.before <+: lines := by
  induction writes with
  | done => exact fun _ none => by cases none
  | act _ _ _ ih =>
    refine List.forall_mem_cons.mpr ⟨List.nil_prefix, List.forall_mem_map.mpr fun spot there => ?_⟩
    exact (List.prefix_append_right_inj _).mpr (ih spot there)
  | @branch _ _ _ _ _ _ reject _ _ _ _ _ _ _ _ _ _ _ _ second _ yes no ih =>
    simp only [List.forall_mem_cons, List.forall_mem_append, List.forall_mem_map]
    refine ⟨List.nil_prefix, ⟨fun spot there => ?_, fun spot there => ?_⟩, fun spot there => ?_⟩
    · obtain ⟨rest, rfl⟩ := yes spot there
      simp [Spot.behind, Listing.nested]
    · have written : reject.isDone = false := by
        cases second with
        | done => cases there
        | _ => rfl
      obtain ⟨rest, rfl⟩ := no spot there
      simp [Spot.behind, Listing.nested, Emit.otherwise, written]
    · obtain ⟨rest, rfl⟩ := ih spot there
      simp [Spot.behind]
  | loop _ _ _ _ _ _ deep ih | block _ _ _ _ deep ih =>
    simp only [List.forall_mem_cons, List.forall_mem_append, List.forall_mem_map]
    refine ⟨List.nil_prefix, fun spot there => ?_, fun spot there => ?_⟩
    · obtain ⟨rest, rfl⟩ := deep spot there
      simp [Spot.behind, Listing.nested]
    · obtain ⟨rest, rfl⟩ := ih spot there
      simp [Spot.behind]

namespace Listing.Open

variable {l m : Listing}

theorem append (first : l.Open) (second : m.Open) : (l ++ m).Open := by
  intro front part
  rcases List.prefix_or_prefix_of_prefix part (List.prefix_append l m) with inside | past
  · exact first front inside
  · obtain ⟨rest, rfl⟩ := past
    have one := first l List.prefix_rfl
    have two := second rest ((List.prefix_append_right_inj l).mp part)
    rw [List.count_append, List.count_append]
    omega

theorem plain (closes : Item.dedent ∉ l) : l.Open := by
  intro front part
  rw [List.count_eq_zero_of_not_mem fun inside => closes (part.subset inside)]
  exact Nat.zero_le _

theorem line (text : String) (inside : l.Open) : Listing.Open (.line text :: l) :=
  append (l := [.line text]) (plain (by simp)) inside

theorem nested (inside : l.Open) : (Listing.nested l).Open := by
  intro front part
  change front <+: .indent :: (l ++ [.dedent]) at part
  rcases List.prefix_cons_iff.mp part with rfl | ⟨rest, rfl, deeper⟩
  · exact Nat.le_refl _
  · rw [List.count_cons, List.count_cons]
    rcases List.prefix_or_prefix_of_prefix deeper (List.prefix_append l [.dedent]) with within | past
    · have less := inside rest within
      simpa using Nat.le_succ_of_le less
    · obtain ⟨last, rfl⟩ := past
      have less := inside l List.prefix_rfl
      have one : last.count Item.dedent ≤ 1 :=
        ((List.prefix_append_right_inj l).mp deeper).sublist.count_le _
      rw [List.count_append, List.count_append]
      simp
      omega

end Listing.Open

theorem remarkOpen {reads : Stamps} {remark : Listing}
    (remarked : Emit.readsRemark p annotate reads = .ok remark) : remark.Open := by
  unfold Emit.readsRemark at remarked
  refine .plain fun inside => ?_
  split at remarked
  · simp only [Outcome.bindOk, Outcome.pureOk] at remarked
    obtain ⟨text, -, rfl⟩ := remarked
    cases List.mem_singleton.mp inside
  · cases remarked
    cases inside

def Dialect.Closed (d : Dialect) (p : Program) : Prop :=
  ∀ ⦃target value lines⦄, d.assign p target value = .ok lines → lines.Open

theorem actionOpen (closed : d.Closed p) {action : Action} {own : Listing}
    (written : Emit.actionLines p d action = .ok own) : own.Open := by
  cases action with
  | declare v init =>
    simp only [Emit.actionLines, Outcome.bindOk, Outcome.pureOk] at written
    obtain ⟨text, -, var, -, rfl⟩ := written
    exact .plain (by simp)
  | assign => exact closed written
  | store =>
    simp only [Emit.actionLines, Outcome.bindOk, Outcome.pureOk] at written
    obtain ⟨ty, -, s, -, c, -, v, -, rfl⟩ := written
    exact .plain (by simp)

theorem otherwiseOpen {reject : Body} {no : Listing} (inside : no.Open) :
    (Emit.otherwise reject no).Open := by
  unfold Emit.otherwise
  split
  · exact .plain List.not_mem_nil
  · exact .line _ inside.nested

theorem namedOpen {block : Block} {named : Listing}
    (marked : named = if annotate then [.line s!"// block {block.name}"] else []) : named.Open := by
  rw [marked]
  split <;> exact .plain (by simp)

theorem Writes.isOpen (closed : d.Closed p) (writes : Writes p d annotate body lines spots) :
    lines.Open := by
  induction writes with
  | done => exact .plain List.not_mem_nil
  | act remarked written _ ih => exact ((remarkOpen remarked).append (actionOpen closed written)).append ih
  | branch remarked _ _ _ _ yes no ih =>
    exact (((remarkOpen remarked).append (.line _ yes.nested)).append (otherwiseOpen no)).append
      (.line _ ih)
  | loop remarked _ _ _ _ _ deep ih =>
    exact ((remarkOpen remarked).append (.line _ deep.nested)).append (.line _ ih)
  | block remarked marked _ _ deep ih =>
    exact (((remarkOpen remarked).append (namedOpen marked)).append (.line _ deep.nested)).append
      (.line _ ih)

inductive Introduced (d : Dialect) (var : Variable) (before : Listing) : Prop
  | declared {init : Option String} {front between : Listing}
      (split : before = front ++ .line (d.declare var init) :: between) (stays : between.Open)
  | counted {first last : String} {front between : Listing}
      (split : before = front ++ .line (d.loopHeader var first last) :: .indent :: between)
      (stays : between.Open)

theorem Introduced.append {var : Variable} {before more : Listing} (introduced : Introduced d var before)
    (stays : more.Open) : Introduced d var (before ++ more) := by
  cases introduced with
  | declared split open_ => exact .declared (by rw [split, List.append_assoc]; rfl) (open_.append stays)
  | counted split open_ => exact .counted (by rw [split, List.append_assoc]; rfl) (open_.append stays)

def Program.Known (p : Program) (d : Dialect) (before : Listing) (v : VarId) : Prop :=
  ∃ var, p.vars.get? v = some var ∧ Introduced d var before

def Covers (p : Program) (d : Dialect) (visible : List VarId) (before : Listing) : Prop :=
  ∀ v ∈ visible, p.Known d before v

def Spot.Covered (p : Program) (d : Dialect) (front : Listing) (spot : Spot) : Prop :=
  ∀ v, p.Visible spot.statement v → p.Known d (front ++ spot.before) v

theorem Covers.append {visible : List VarId} {before more : Listing}
    (covers : Covers p d visible before) (stays : more.Open) : Covers p d visible (before ++ more) := by
  intro v inside
  obtain ⟨var, at_, introduced⟩ := covers v inside
  exact ⟨var, at_, introduced.append stays⟩

theorem Covers.act {visible : List VarId} {before remark own : Listing} {action : Action}
    (covers : Covers p d visible before) (closed : d.Closed p) (stays : remark.Open)
    (written : Emit.actionLines p d action = .ok own) :
    Covers p d (action.declares visible) (before ++ (remark ++ own)) := by
  have kept := covers.append (stays.append (actionOpen closed written))
  cases action with
  | declare v init =>
    simp only [Emit.actionLines, Outcome.bindOk, Outcome.pureOk, Arena.fetchOk] at written
    obtain ⟨text, -, var, at_, rfl⟩ := written
    intro w inside
    rcases List.mem_cons.mp inside with rfl | old
    · exact ⟨var, at_, .declared (List.append_assoc ..).symm (.plain List.not_mem_nil)⟩
    · exact kept w old
  | assign | store => exact kept

theorem Covers.count {visible : List VarId} {before remark : Listing} {counter : VarId}
    {var : Variable} {first last : String} (covers : Covers p d visible before) (stays : remark.Open)
    (at_ : p.vars.get? counter = some var) : Covers p d (counter :: visible)
      (before ++ (remark ++ [.line (d.loopHeader var first last), .indent])) := by
  intro v inside
  rcases List.mem_cons.mp inside with rfl | old
  · exact ⟨var, at_, .counted (List.append_assoc ..).symm (.plain List.not_mem_nil)⟩
  · exact covers.append (stays.append (.plain (by simp))) v old

theorem Spot.Covered.behind {front more : Listing} {spot : Spot}
    (covered : spot.Covered p d (front ++ more)) : (spot.behind more).Covered p d front := by
  intro v sees
  rw [Spot.behind, ← List.append_assoc]
  exact covered v sees

theorem Arrived.covered {home : Scope} {before later : List StmtId} {s : StmtId}
    {visible : List VarId} {node : Statement} {front : Listing}
    (arrived : Arrived p home before s later visible node) (forest : Forest p)
    (covers : Covers p d visible front) : Spot.Covered p d front ⟨s, []⟩ := by
  intro v sees
  rw [List.append_nil]
  exact covers v ((arrived.visibleIff forest v).mpr sees)

theorem Forest.covered (forest : Forest p) (closed : d.Closed p) {l : List StmtId}
    (laid : Laid p l body) (writes : Writes p d annotate body lines spots) :
    ∀ {c : ScopeId} {home : Scope} {before : List StmtId} {visible : List VarId} {front : Listing},
      p.scopes.get? c = some home → home.statements = before ++ l → p.Seen home before visible →
      Covers p d visible front → ∀ spot ∈ spots, spot.Covered p d front := by
  -- along the body the list of what is seen grows, and `Covers` with it; a block starts from the
  -- list of the statement that owns it, and what it adds is not seen behind it
  induction laid generalizing lines spots with
  | done =>
    intro c home before visible front homeAt split seen covers spot none
    cases writes
    cases none
  | act at_ kind _ next =>
    intro c home before visible front homeAt split seen covers
    have arrived := forest.arrive at_ homeAt split seen
    cases writes with
    | act remarked written more =>
      have rest := next more homeAt (split.trans (by simp)) (seenDeclared seen at_ kind)
        (covers.act closed (remarkOpen remarked) written)
      simp only [List.forall_mem_cons, List.forall_mem_map]
      exact ⟨arrived.covered forest covers, fun spot there => (rest spot there).behind⟩
  | branch at_ kind yesAt noAt _ _ _ inYes inNo next =>
    intro c home before visible front homeAt split seen covers
    have arrived := forest.arrive at_ homeAt split seen
    have same := arrived.noCounter fun v start stop body loop => by cases kind.symm.trans loop
    have after := seenPlain seen at_ fun action act => by cases kind.symm.trans act
    cases writes with
    | branch remarked _ first second more =>
      have head := remarkOpen remarked
      have yes := first.isOpen closed
      have no := second.isOpen closed
      simp only [List.forall_mem_cons, List.forall_mem_append, List.forall_mem_map]
      refine ⟨arrived.covered forest covers, ⟨fun spot there => .behind ?_,
        fun spot there => .behind ?_⟩, fun spot there => .behind ?_⟩
      · exact inYes first yesAt rfl (arrived.enter forest (kind ▸ .accept) yesAt same)
          (covers.append (head.append (.plain (by simp)))) spot there
      · exact inNo second noAt rfl (arrived.enter forest (kind ▸ .reject) noAt same)
          (covers.append ((head.append (.line _ yes.nested)).append (.plain (by simp)))) spot there
      · exact next more homeAt (split.trans (by simp)) after
          (covers.append (((head.append (.line _ yes.nested)).append (otherwiseOpen no)).append
            (.plain (by simp)))) spot there
  | loop at_ kind innerAt _ _ within next =>
    intro c home before visible front homeAt split seen covers
    have arrived := forest.arrive at_ homeAt split seen
    have after := seenPlain seen at_ fun action act => by cases kind.symm.trans act
    cases writes with
    | loop remarked _ _ varAt deep more =>
      have head := remarkOpen remarked
      simp only [List.forall_mem_cons, List.forall_mem_append, List.forall_mem_map]
      refine ⟨arrived.covered forest covers, fun spot there => .behind ?_,
        fun spot there => .behind ?_⟩
      · exact within deep innerAt rfl (arrived.enter forest (kind ▸ .loop) innerAt
          (arrived.counter kind)) (covers.count head varAt) spot there
      · exact next more homeAt (split.trans (by simp)) after
          (covers.append ((head.append (.line _ (deep.isOpen closed).nested)).append
            (.plain (by simp)))) spot there
  | block at_ kind blockAt innerAt _ _ within next =>
    intro c home before visible front homeAt split seen covers
    have arrived := forest.arrive at_ homeAt split seen
    have same := arrived.noCounter fun v start stop body loop => by cases kind.symm.trans loop
    have after := seenPlain seen at_ fun action act => by cases kind.symm.trans act
    cases writes with
    | block remarked marked deep more =>
      have head := (remarkOpen remarked).append (namedOpen marked)
      simp only [List.forall_mem_cons, List.forall_mem_append, List.forall_mem_map]
      refine ⟨arrived.covered forest covers, fun spot there => .behind ?_,
        fun spot there => .behind ?_⟩
      · exact within deep innerAt rfl (arrived.enter forest (kind ▸ .block blockAt) innerAt same)
          (covers.append (head.append (.plain (by simp)))) spot there
      · exact next more homeAt (split.trans (by simp)) after
          (covers.append ((head.append (.line _ (deep.isOpen closed).nested)).append
            (.plain (by simp)))) spot there

end

end ShaderGraph
