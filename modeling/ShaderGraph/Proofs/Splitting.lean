import ShaderGraph.Glsl.Dialect
import ShaderGraph.Proofs.Generation
import ShaderGraph.Proofs.Meaning
/-! An assignment to several components, written one component a line. Every line locates the
vector anew, in the store that the lines before it have left and with the value under the name
`swizzled`. The lines come to what one assignment does just where each of them writes what it would
have written at the location the vector had at first. -/
namespace ShaderGraph

section

variable {S : Type}

def Store.put (store : Store S) (location : Location) (parts : List (Component × Component))
    (held : Value S) : Store S := fun v path c =>
  if location = some (v, path) then
    ((parts.find? fun part => part.1 == c).map fun part => held [] part.2).getD (store v path c)
  else store v path c

def Store.replace (store : Store S) (location : Location) (held : Value S) : Store S :=
  fun v path c =>
    match location with
    | some (w, stem) =>
      if w = v ∧ stem <+: path then held (path.drop stem.length) c else store v path c
    | none => store v path c

variable (p : Program) (M : Meaning S)

def Wgsl.Write.run (value : ExprId) (env : Env S) : Wgsl.Write → Outcome (Env S)
  | .hold => do
    let held ← p.eval M env value
    return { env with held := some held }
  | .part vector component source => do
    let location ← p.locate M env vector
    match env.held with
    | some held => return { env with store := env.store.put location [(component, source)] held }
    | none => abort (.dangling 0 0)
  | .whole target => do
    let held ← p.eval M env value
    match (← p.exprs.fetch target).op with
    | .swizzle vector pattern =>
      let location ← p.locate M env vector
      return { env with store := env.store.put location (pattern.zip Component.all) held }
    | _ =>
      let location ← p.locate M env target
      return { env with store := env.store.replace location held }

def Program.runs (value : ExprId) (lines : List Wgsl.Write) (env : Env S) : Outcome (Env S) :=
  lines.foldlM (fun env line => line.run p M value env) env

/-- Run where the parts `before` have been put, the line of the part `part` writes what it would
write at the location that the vector had at first. -/
def Program.Lands (store : Store S) (held : Value S) (vector : ExprId) (location : Location)
    (before : List (Component × Component)) (part : Component × Component) : Prop :=
  ∀ found, p.locate M ⟨store.put location before held, some held⟩ vector = .ok found →
    (store.put location before held).put found [part] held =
      (store.put location before held).put location [part] held

end

section

variable {S : Type} {p : Program} {M : Meaning S} {store : Store S} {location : Location}
  {held : Value S} {v : VarId} {path : List Nat} {c : Component}

theorem putNil : store.put location [] held = store := by
  funext v path c
  simp [Store.put]

theorem unfound {parts : List (Component × Component)} (other : ∀ part ∈ parts, part.1 ≠ c) :
    parts.find? (fun part => part.1 == c) = none := by
  rw [List.find?_eq_none]
  intro part inside
  simpa using other part inside

theorem putOther {parts : List (Component × Component)} (other : ∀ part ∈ parts, part.1 ≠ c) :
    store.put location parts held v path c = store v path c := by
  simp [Store.put, unfound other]

theorem putAppend {before : List (Component × Component)} {part : Component × Component}
    (new : ∀ other ∈ before, other.1 ≠ part.1) :
    store.put location (before ++ [part]) held =
      (store.put location before held).put location [part] held := by
  funext v path c
  by_cases here : location = some (v, path)
  · by_cases same : part.1 = c
    · have none := unfound (c := c) fun other inside => same ▸ new other inside
      simp [Store.put, here, same, none]
    · simp [Store.put, here, same]
  · simp [Store.put, here]

theorem putBefore {before after : List (Component × Component)}
    (other : ∀ part ∈ after, part.1 ≠ c) :
    store.put location (before ++ after) held v path c = store.put location before held v path c := by
  simp [Store.put, List.find?_append, unfound other]

def partLine (vector : ExprId) (part : Component × Component) : Wgsl.Write :=
  .part vector part.1 part.2

variable {value vector : ExprId} {parts : List (Component × Component)}

theorem runsCons {line : Wgsl.Write} {rest : List Wgsl.Write} {env after : Env S} :
    p.runs M value (line :: rest) env = .ok after ↔
      ∃ next, line.run p M value env = .ok next ∧ p.runs M value rest next = .ok after := by
  rw [Program.runs, List.foldlM_cons, Outcome.bindOk]
  rfl

theorem partRun {env : Env S} {found : Location} (located : p.locate M env vector = .ok found)
    (holds : env.held = some held) (part : Component × Component) :
    (partLine vector part).run p M value env =
      .ok { env with store := env.store.put found [part] held } := by
  simp only [partLine, Wgsl.Write.run, located, holds]
  rfl

theorem runsOther (located : ∀ env : Env S, ∃ found, p.locate M env vector = .ok found)
    (parts : List (Component × Component)) {env : Env S} (holds : env.held = some held) :
    ∃ after, p.runs M value (parts.map (partLine vector)) env = .ok after ∧
      ∀ v path c, (∀ part ∈ parts, part.1 ≠ c) → after.store v path c = env.store v path c := by
  induction parts generalizing env with
  | nil => exact ⟨env, rfl, fun _ _ _ _ => rfl⟩
  | cons part rest ih =>
    obtain ⟨found, at_⟩ := located env
    obtain ⟨after, ran, kept⟩ :=
      @ih { env with store := env.store.put found [part] held } holds
    refine ⟨after, runsCons.mpr ⟨_, partRun at_ holds part, ran⟩, fun v path c other => ?_⟩
    rw [kept v path c fun part inside => other part (List.mem_cons_of_mem _ inside)]
    refine putOther fun one inside => ?_
    rw [List.mem_singleton.mp inside]
    exact other part List.mem_cons_self

theorem partLands {after : Store S} {before rest : List (Component × Component)}
    {part : Component × Component} {found : Location}
    (at_ : p.locate M ⟨store.put location before held, some held⟩ vector = .ok found)
    (early : ∀ other ∈ before, other.1 ≠ part.1) (late : ∀ other ∈ rest, other.1 ≠ part.1)
    (kept : ∀ v path c, (∀ other ∈ rest, other.1 ≠ c) →
      after v path c = (store.put location before held).put found [part] held v path c)
    (same : after = store.put location (before ++ [part] ++ rest) held) :
    p.Lands M store held vector location before part := by
  intro other locatedThere
  cases at_.symm.trans locatedThere
  funext v path c
  by_cases own : part.1 = c
  · subst own
    calc (store.put location before held).put found [part] held v path part.1
        = after v path part.1 := (kept v path part.1 late).symm
      _ = store.put location (before ++ [part] ++ rest) held v path part.1 := by rw [same]
      _ = store.put location (before ++ [part]) held v path part.1 := putBefore late
      _ = (store.put location before held).put location [part] held v path part.1 := by
        rw [putAppend early]
  · have apart : ∀ other ∈ [part], other.1 ≠ c := by simpa using own
    rw [putOther apart, putOther apart]

theorem runsParts (located : ∀ env : Env S, ∃ found, p.locate M env vector = .ok found)
    {before : List (Component × Component)} (once : ((before ++ parts).map Prod.fst).Nodup) :
    ∃ after, p.runs M value (parts.map (partLine vector))
        ⟨store.put location before held, some held⟩ = .ok after ∧
      (after.store = store.put location (before ++ parts) held ↔
        ∀ done part rest, parts = done ++ part :: rest →
          p.Lands M store held vector location (before ++ done) part) := by
  -- a component that was put wrongly stays wrong, since no later line writes it
  induction parts generalizing before with
  | nil =>
    refine ⟨_, rfl, ?_⟩
    simp
  | cons part rest ih =>
    obtain ⟨found, at_⟩ := located ⟨store.put location before held, some held⟩
    obtain ⟨after, ran, kept⟩ : ∃ after : Env S,
        p.runs M value (rest.map (partLine vector))
          ⟨(store.put location before held).put found [part] held, some held⟩ = .ok after ∧
        ∀ v path c, (∀ other ∈ rest, other.1 ≠ c) →
          after.store v path c = (store.put location before held).put found [part] held v path c :=
      runsOther located rest rfl
    refine ⟨after, runsCons.mpr ⟨_, partRun at_ rfl part, ran⟩, ?_⟩
    have grown : before ++ part :: rest = (before ++ [part]) ++ rest := by simp
    obtain ⟨early, late⟩ : (∀ other ∈ before, other.1 ≠ part.1) ∧
        ∀ other ∈ rest, other.1 ≠ part.1 := by
      simp only [List.map_append, List.map_cons, List.nodup_append, List.nodup_cons,
        List.mem_map, List.mem_cons] at once
      refine ⟨fun other inside => once.2.2 _ ⟨other, inside, rfl⟩ _ (.inl rfl), ?_⟩
      intro other inside same
      exact once.2.1.1 ⟨other, inside, same⟩
    have lands : after.store = store.put location (before ++ part :: rest) held →
        p.Lands M store held vector location before part :=
      fun same => partLands at_ early late kept (grown ▸ same)
    have step : p.Lands M store held vector location before part →
        (after.store = store.put location (before ++ part :: rest) held ↔
          ∀ done other later, rest = done ++ other :: later →
            p.Lands M store held vector location (before ++ [part] ++ done) other) := by
      intro landed
      obtain ⟨again, ranAgain, same⟩ := @ih (before ++ [part]) (grown ▸ once)
      rw [putAppend early, ← landed found at_] at ranAgain
      cases ran.symm.trans ranAgain
      rwa [← grown] at same
    constructor
    · intro same done other later split
      cases done with
      | nil =>
        cases split
        simpa using lands same
      | cons first done =>
        cases split
        simpa using (step (lands same)).mp same done other later rfl
    · intro all
      have landed : p.Lands M store held vector location before part := by
        simpa using all [] part rest rfl
      refine (step landed).mpr fun done other later split => ?_
      simpa using all (part :: done) other later (by rw [split]; rfl)

theorem underscored (one two : String) : s!"{one}_{two}" ≠ "swizzled" := by
  intro same
  have inside : '_' ∈ (one ++ "_" ++ two).toList := by simp
  have spelled : one ++ "_" ++ two = "swizzled" := same
  rw [spelled] at inside
  exact absurd inside (by decide)

theorem Built.unhidden (built : Built p) {var : Variable} (varAt : p.vars.get? v = some var)
    (mutable_ : var.isMutable = true) : Wgsl.moduleName var ≠ "swizzled" := by
  obtain ⟨⟨kind, ofStage⟩, numbered⟩ := built.owned varAt mutable_
  unfold Wgsl.moduleName
  split
  · rename_i lexical
    obtain ⟨stem, n, named⟩ := numbered (by simp [Variable.isLexical, lexical])
    rw [named]
    exact underscored stem (toString n)
  · rename_i uniform
    rw [Variable.isMutable, uniform] at mutable_
    cases mutable_
  · rename_i none _ _
    rw [ofStage] at none
    cases none
  · exact underscored _ _

theorem Accesses.mutable_ {e : ExprId} (chain : Accesses p e v) {w : VarId}
    (rooted : Rooted p e w) : ∃ var, p.vars.get? v = some var ∧ var.isMutable = true := by
  induction chain with
  | read at_ op =>
    have changed := rooted.chain at_
    rw [op] at changed
    obtain ⟨rfl, var, varAt, mutable_⟩ := changed
    exact ⟨var, varAt, mutable_⟩
  | column at_ op _ ih | element at_ op _ ih =>
    have changed := rooted.chain at_
    rw [op] at changed
    exact ih changed

theorem locatedIn {e : ExprId} (chain : Accesses p e v) {env : Env S} {w : VarId}
    (located : p.locate M env e = .ok (some (w, path))) : w = v := by
  have within : ∀ {fuel path}, p.locateWithin M env fuel e = .ok (some (w, path)) → w = v := by
    clear located
    induction chain with
    | read at_ op =>
      intro fuel path located
      cases fuel with
      | zero => cases located
      | succ fuel =>
        simp only [Program.locateWithin, Arena.fetchOfGet at_, Outcome.bindOk, Except.ok.injEq,
          exists_eq_left', op, Outcome.pureOk] at located
        obtain ⟨var, -, same⟩ := located
        split at same
        · cases same
        · cases same
          rfl
    | column at_ op _ ih | element at_ op _ ih =>
      intro fuel path located
      cases fuel with
      | zero => cases located
      | succ fuel =>
        simp only [Program.locateWithin, Arena.fetchOfGet at_, Outcome.bindOk, Except.ok.injEq,
          exists_eq_left', op, Outcome.pureOk] at located
        obtain ⟨base, there, _, -, _, -, same⟩ := located
        unfold Meaning.enter at same
        split at same
        · cases same
          exact ih there
        · cases same
  exact within located

/-- An index of the vector is apart from an assignment that goes into `v` when it reads neither
`v` nor a variable that is written as the held value is. -/
def Program.Apart (p : Program) (v : VarId) (vector : ExprId) : Prop :=
  ∀ i, p.Indexes vector i → ∀ w, p.Reads i w →
    w ≠ v ∧ ∀ var, p.vars.get? w = some var → Wgsl.moduleName var ≠ "swizzled"

theorem Built.steady (built : Built p) (chain : Accesses p vector v) {w : VarId}
    (rooted : Rooted p vector w) (apart : p.Apart v vector)
    (located : p.locate M ⟨store, none⟩ vector = .ok location)
    (before : List (Component × Component)) :
    p.locate M ⟨store.put location before held, some held⟩ vector = .ok location := by
  rw [← located]
  obtain ⟨var, varAt, mutable_⟩ := chain.mutable_ rooted
  refine locateSame chain (fun other otherAt => ?_) fun i inside u other reads otherAt => ?_
  · cases varAt.symm.trans otherAt
    simp [Env.hides, built.unhidden varAt mutable_]
  · obtain ⟨elsewhere, unhidden⟩ := apart i inside u reads
    have kept : store.put location before held u = store u := by
      funext path c
      have outside : location ≠ some (u, path) := by
        intro same
        subst same
        exact elsewhere (locatedIn chain located)
      simp [Store.put, outside]
    simp [Env.read, unhidden other otherAt, kept]

theorem atMostFour {kind : ScalarKind} {n : Nat} {ty : Ty} (made : Ty.ofComponents? kind n = some ty) :
    n ≤ 4 := by
  unfold Ty.ofComponents? at made
  split at made
  · omega
  · obtain ⟨size, counted, -⟩ := Option.map_eq_some_iff.mp made
    rw [← VectorSize.countOfSome counted]
    cases size <;> decide

theorem Built.patternFits (built : Built p) {e : ExprId} {node : Expr} {pattern : List Component}
    (at_ : p.exprs.get? e = some node) (op : node.op = .swizzle vector pattern) :
    pattern.length ≤ Component.all.length := by
  have fits := (built.expr at_).1
  rw [op] at fits
  cases fits with
  | swizzle _ _ result => exact atMostFour result

theorem writesParts {target : ExprId} {pattern : List Component} (several : 1 < pattern.length) :
    Wgsl.writes target (.swizzle vector pattern) =
      .hold :: (pattern.zip Component.all).map (partLine vector) := by
  rw [Wgsl.writes, if_pos several]
  rfl

def Program.Texts (p : Program) (sp : Spelling) (value : ExprId) (lines : List Wgsl.Write)
    (texts : List String) : Prop :=
  ∃ text, p.render sp value = .ok text ∧ lines.mapM (Wgsl.Write.text p sp text) = .ok texts

theorem splitTexts {sp : Spelling} {target : ExprId} {node : Expr} {pattern : List Component}
    {lines : Listing} (at_ : p.exprs.get? target = some node) (op : node.op = .swizzle vector pattern)
    (several : 1 < pattern.length) (written : Wgsl.assign sp p target value = .ok lines) :
    ∃ texts, p.Texts sp value (Wgsl.writes target node.op) texts ∧
      lines = .line "\x7b" :: Listing.nested (texts.map Item.line) ++ [.line "\x7d"] := by
  simp only [Wgsl.assign, Outcome.bindOk, Arena.fetchOfGet at_, Except.ok.injEq,
    exists_eq_left'] at written
  obtain ⟨text, rendered, texts, made, written⟩ := written
  have more : (Wgsl.writes target node.op).length ≠ 1 := by
    rw [op, writesParts several, List.length_cons, List.length_map, List.length_zip]
    have : 0 < min pattern.length Component.all.length := Nat.lt_min.mpr ⟨by omega, by decide⟩
    omega
  rw [if_neg more] at written
  exact ⟨texts, ⟨text, rendered, made⟩, (Outcome.pureOk.mp written).symm⟩

theorem writtenParts {sp : Spelling} {target : ExprId} {node : Expr} {pattern : List Component}
    {lines : Listing} (at_ : p.exprs.get? target = some node) (op : node.op = .swizzle vector pattern)
    (several : 1 < pattern.length) (written : Wgsl.assign sp p target value = .ok lines) :
    (∃ text, p.render sp value = .ok text) ∧ ∃ text, p.renderTarget sp vector = .ok text := by
  obtain ⟨texts, ⟨text, rendered, made⟩, -⟩ := splitTexts at_ op several written
  rw [op, writesParts several] at made
  refine ⟨⟨text, rendered⟩, ?_⟩
  obtain ⟨part, inside⟩ : ∃ part, part ∈ pattern.zip Component.all := by
    refine List.exists_mem_of_length_pos ?_
    rw [List.length_zip]
    exact Nat.lt_min.mpr ⟨by omega, by decide⟩
  obtain ⟨line, -, own⟩ := Outcome.mapMTarget made
    (List.mem_cons_of_mem _ (List.mem_map_of_mem inside))
  simp only [partLine, Wgsl.Write.text, Outcome.bindOk] at own
  obtain ⟨base, there, -⟩ := own
  exact ⟨base, there⟩

theorem splitAgrees (reachable : Reachable p) {s : StmtId} {stmt : Statement} {target : ExprId}
    (at_ : p.stmts.get? s = some stmt) (assigns : stmt.kind = .act (.assign target value))
    {node : Expr} {pattern : List Component} (targetAt : p.exprs.get? target = some node)
    (op : node.op = .swizzle vector pattern) (several : 1 < pattern.length)
    (chain : Accesses p vector v) {kind : StageKind} {lines : Listing}
    (written : (Wgsl.dialect kind).assign p target value = .ok lines) (M : Meaning S)
    (store : Store S) :
    ∃ held location split whole, p.eval M ⟨store, none⟩ value = .ok held ∧
      p.locate M ⟨store, none⟩ vector = .ok location ∧
      p.runs M value (Wgsl.writes target node.op) ⟨store, none⟩ = .ok split ∧
      p.runs M value [.whole target] ⟨store, none⟩ = .ok whole ∧
      whole.store = store.put location (pattern.zip Component.all) held ∧
      (split.store = whole.store ↔
        ∀ before part after, pattern.zip Component.all = before ++ part :: after →
          p.Lands M store held vector location before part) ∧
      (p.Apart v vector → split.store = whole.store) := by
  have built := reachableBuilt reachable
  have strict : (Wgsl.spelling kind).Strict := fun _ _ => ⟨_, rfl⟩
  obtain ⟨⟨text, rendered⟩, base, based⟩ := writtenParts targetAt op several written
  obtain ⟨held, valued⟩ : ∃ held, p.eval M ⟨store, none⟩ value = .ok held :=
    built.evalOk strict rendered
  have located : ∀ env : Env S, ∃ found, p.locate M env vector = .ok found :=
    fun env => built.locateOk strict chain based
  obtain ⟨location, first⟩ := located ⟨store, none⟩
  obtain ⟨once, w, rooted⟩ : pattern.Nodup ∧ ∃ w, Rooted p vector w := by
    have proper := built.proper at_
    rw [assigns] at proper
    cases proper with
    | assign _ _ found =>
      have chain := (rootedOf found).chain targetAt
      rw [op] at chain
      exact ⟨chain.1, _, chain.2⟩
  have firsts : ((([] : List (Component × Component)) ++ pattern.zip Component.all).map
      Prod.fst).Nodup := by
    rw [List.nil_append, List.map_fst_zip (built.patternFits targetAt op)]
    exact once
  obtain ⟨split, ran, same⟩ : ∃ split : Env S,
      p.runs M value ((pattern.zip Component.all).map (partLine vector))
        ⟨store.put location [] held, some held⟩ = .ok split ∧
      (split.store = store.put location ([] ++ pattern.zip Component.all) held ↔
        ∀ before part after, pattern.zip Component.all = before ++ part :: after →
          p.Lands M store held vector location ([] ++ before) part) := runsParts located firsts
  rw [putNil] at ran
  refine ⟨held, location, split, ⟨store.put location (pattern.zip Component.all) held, none⟩,
    valued, first, ?_, ?_, rfl, same, fun apart => ?_⟩
  · rw [op, writesParts several]
    refine runsCons.mpr ⟨⟨store, some held⟩, ?_, ran⟩
    simp only [Wgsl.Write.run, valued]
    rfl
  · refine runsCons.mpr ⟨_, ?_, rfl⟩
    simp only [Wgsl.Write.run, valued, Arena.fetchOfGet targetAt, Bind.bind, Except.bind, op, first]
    rfl
  · refine same.mpr fun before part after _ found there => ?_
    cases there.symm.trans (built.steady chain rooted apart first before)
    rfl

theorem assignWritten (reachable : Reachable p) {log : List Message} (passed : p.check = .ok log)
    {s : StmtId} {stmt : Statement} {target : ExprId} (at_ : p.stmts.get? s = some stmt)
    (assigns : stmt.kind = .act (.assign target value)) (kind : StageKind) :
    ∃ lines, (Wgsl.dialect kind).assign p target value = .ok lines := by
  have ⟨built, filled, acyclic⟩ := (reachableBuilt reachable).checked passed
  exact built.wgslAssigns filled acyclic kind target value (assigns ▸ built.proper at_)

def counting : Meaning Nat where
  literal l := fun _ _ => match l with
    | .int n => n.toNatClampNeg
    | _ => 0
  compose _ parts := fun path c => (parts.getD c.index fun _ _ => 0) path .x
  unary _ operand := operand
  binary _ _ _ left right := fun path c => left path c + right path c
  call _ _ := fun _ _ => 0
  convert _ operand := operand
  sample _ _ coord := coord
  load _ _ coord := coord
  position _ n := if n < 2 then some n else none
  absent _ := fun _ _ => 0

def selfIndexedRun : List Call :=
  [.addStage .fragment, .declare ⟨0⟩ "a" (.array (.vector .two .int) 2) none, .read ⟨0⟩,
    .elementAt ⟨0⟩ 0, .swizzle ⟨2⟩ "x", .element ⟨0⟩ ⟨3⟩, .swizzle ⟨4⟩ "xy", .literal (.int 1),
    .compose .int2 [⟨6⟩, ⟨6⟩], .assign ⟨0⟩ ⟨5⟩ ⟨7⟩]

theorem selfIndexedRuns : ∃ p stmt node base root split whole,
    Program.after { name := "p" } selfIndexedRun = some p ∧ p.check = .ok [] ∧
    p.stmts.get? ⟨1⟩ = some stmt ∧ stmt.kind = .act (.assign ⟨5⟩ ⟨7⟩) ∧
    p.exprs.get? ⟨5⟩ = some node ∧ node.op = .swizzle ⟨4⟩ [.x, .y] ∧
    p.exprs.get? ⟨4⟩ = some base ∧ base.op = .element ⟨0⟩ ⟨3⟩ ∧
    p.exprs.get? ⟨0⟩ = some root ∧ root.op = .read ⟨0⟩ ∧
    p.runs counting ⟨7⟩ (Wgsl.writes ⟨5⟩ node.op) ⟨fun _ _ _ => 0, none⟩ = .ok split ∧
    p.runs counting ⟨7⟩ [.whole ⟨5⟩] ⟨fun _ _ _ => 0, none⟩ = .ok whole ∧
    split.store ⟨0⟩ [0] .y = 0 ∧ whole.store ⟨0⟩ [0] .y = 1 :=
  ⟨_, _, _, _, _, _, _, rfl, rfl, rfl, rfl, rfl, rfl, rfl, rfl, rfl, rfl, rfl, rfl, rfl, rfl⟩

theorem splitAgreesSelfIndexed : ∃ p node held location split whole,
    Program.after { name := "p" } selfIndexedRun = some p ∧ p.exprs.get? ⟨5⟩ = some node ∧
    p.runs counting ⟨7⟩ (Wgsl.writes ⟨5⟩ node.op) ⟨fun _ _ _ => 0, none⟩ = .ok split ∧
    p.runs counting ⟨7⟩ [.whole ⟨5⟩] ⟨fun _ _ _ => 0, none⟩ = .ok whole ∧
    (split.store = whole.store ↔ ∀ before part after,
      [Component.x, .y].zip Component.all = before ++ part :: after →
        p.Lands counting (fun _ _ _ => 0) held ⟨4⟩ location before part) ∧
    ¬ p.Apart ⟨0⟩ ⟨4⟩ := by
  obtain ⟨p, stmt, node, base, root, split, whole, ran, passed, at_, assigns, targetAt, op, baseAt,
    baseOp, rootAt, rootOp, splitRan, wholeRan, zero, one⟩ := selfIndexedRuns
  have reachable : Reachable p := (Reachable.new "p").after ran
  obtain ⟨lines, written⟩ := assignWritten reachable passed at_ assigns .fragment
  obtain ⟨held, location, parted, joined, -, -, partedRan, joinedRan, -, lands, apart⟩ :=
    splitAgrees reachable at_ assigns targetAt op (by decide)
      (.element baseAt baseOp (.read rootAt rootOp)) written counting fun _ _ _ => 0
  cases splitRan.symm.trans partedRan
  cases wholeRan.symm.trans joinedRan
  refine ⟨p, node, held, location, split, whole, ran, targetAt, splitRan, wholeRan, lands,
    fun steady => ?_⟩
  rw [apart steady, one] at zero
  cases zero

theorem splitDiffers : ∃ p stmt node lines, Reachable p ∧ p.check = .ok [] ∧
    p.stmts.get? ⟨1⟩ = some stmt ∧ stmt.kind = .act (.assign ⟨5⟩ ⟨7⟩) ∧
    p.exprs.get? ⟨5⟩ = some node ∧ node.op = .swizzle ⟨4⟩ [.x, .y] ∧ Accesses p ⟨4⟩ ⟨0⟩ ∧
    (Wgsl.dialect .fragment).assign p ⟨5⟩ ⟨7⟩ = .ok lines ∧
    ∃ (M : Meaning Nat) (store : Store Nat) (split whole : Env Nat),
      p.runs M ⟨7⟩ (Wgsl.writes ⟨5⟩ node.op) ⟨store, none⟩ = .ok split ∧
      p.runs M ⟨7⟩ [.whole ⟨5⟩] ⟨store, none⟩ = .ok whole ∧ split.store ≠ whole.store := by
  obtain ⟨p, stmt, node, base, root, split, whole, ran, passed, at_, assigns, targetAt, op, baseAt,
    baseOp, rootAt, rootOp, splitRan, wholeRan, zero, one⟩ := selfIndexedRuns
  have reachable : Reachable p := (Reachable.new "p").after ran
  obtain ⟨lines, written⟩ := assignWritten reachable passed at_ assigns .fragment
  refine ⟨p, stmt, node, lines, reachable, passed, at_, assigns, targetAt, op,
    .element baseAt baseOp (.read rootAt rootOp), written, counting, fun _ _ _ => 0, split, whole,
    splitRan, wholeRan, fun same => ?_⟩
  rw [same, one] at zero
  cases zero

end

end ShaderGraph
