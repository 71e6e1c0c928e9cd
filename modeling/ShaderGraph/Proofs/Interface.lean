import ShaderGraph.Proofs.Preorder
import ShaderGraph.Proofs.Visibility
/-! The interface tables: the uniforms, and each stage's inputs, outputs and built-ins. A call that
makes an interface variable lists it in the same call, at the end of one table, and no call takes
it out; a lexical variable is in no table and has one statement that brings it in. -/
namespace ShaderGraph

def Stage.tables (stage : Stage) : List VarId := stage.inputs ++ stage.outputs ++ stage.builtins

def StatementKind.introduced? : StatementKind → Option VarId
  | .act (.declare v _) => some v
  | .loop v _ _ _ => some v
  | _ => none

namespace Program

variable (p : Program)

def tables : List VarId := p.uniforms ++ p.stages.flatMap Stage.tables

def Owns (stage : StageKind) (v : VarId) (kind : VariableKind) : Prop :=
  ∃ var, p.vars.get? v = some var ∧ var.kind = kind ∧ var.stage = some stage

def Located (stage : StageKind) (kind : UInt32 → VariableKind) (table : List VarId) : Prop :=
  ∀ j v, table[j]? = some v → ∃ location, location.toNat = j ∧ p.Owns stage v (kind location)

def OwnsBuiltins (stage : StageKind) (values : List Builtin) (table : List VarId) : Prop :=
  values.Nodup ∧ List.Forall₂ (fun value v => value.stage = stage ∧ p.Owns stage v (.builtin value))
    values table

inductive Introduces (v : VarId) (c : ScopeId) (home : Scope) (s : StmtId) : Prop
  | declare {node : Statement} {init : Option ExprId} (at_ : p.stmts.get? s = some node)
      (kind : node.kind = .act (.declare v init)) (lies : node.scope = c)
      (listed : s ∈ home.statements)
  | loop {node : Statement} {start stop : ExprId} (at_ : p.stmts.get? s = some node)
      (kind : node.kind = .loop v start stop c)

def Housed (v : VarId) (var : Variable) (s : StmtId) : Prop :=
  ∃ c home, var.scope = some c ∧ p.scopes.get? c = some home ∧ var.stage = some home.stage ∧
    p.Introduces v c home s

def due (v : VarId) : Nat :=
  match p.vars.get? v with
  | some var => if var.isLexical then 0 else 1
  | none => 0

end Program

structure Stage.Tabled (p : Program) (stage : Stage) : Prop where
  inputs : p.Located stage.kind .stageInput stage.inputs
  outputs : p.Located stage.kind .stageOutput stage.outputs
  builtins : ∃ values, p.OwnsBuiltins stage.kind values stage.builtins
  workgroup : if stage.kind = .compute
    then ∃ w, stage.workgroup = some w ∧ w.x ≠ 0 ∧ w.y ≠ 0 ∧ w.z ≠ 0
    else stage.workgroup = none

structure Program.Tabled (p : Program) : Prop where
  kinds : (p.stages.map Stage.kind).Nodup
  stages : ∀ stage ∈ p.stages, stage.Tabled p
  uniforms : ∀ v ∈ p.uniforms, ∃ var, p.vars.get? v = some var ∧ var.kind = .uniform
  once : ∀ v var, p.vars.get? v = some var →
    p.tables.count v = if var.isLexical then 0 else 1
  locals : ∀ v var, p.vars.get? v = some var → var.isLexical = true →
    ∃ s, p.Housed v var s ∧ ∀ t, p.Declares t v ∨ p.Counts t v → t = s

section

variable {p q : Program}

theorem Program.stageFound {kind : StageKind} {stage : Stage} (found : p.stage? kind = some stage) :
    stage ∈ p.stages ∧ stage.kind = kind :=
  ⟨List.mem_of_find?_eq_some found, by simpa using List.find?_some found⟩

theorem Program.stageAbsent {kind : StageKind} (absent : p.stage? kind = none) :
    kind ∉ p.stages.map Stage.kind := by
  intro inside
  obtain ⟨stage, there, same⟩ := List.mem_map.mp inside
  simpa [same] using List.find?_eq_none.mp absent stage there

theorem kindsKept {kind : StageKind} {f : Stage → Stage} (keeps : ∀ s, (f s).kind = s.kind) :
    (p.mapStage kind f).stages.map Stage.kind = p.stages.map Stage.kind := by
  simp only [Program.mapStage, List.map_map]
  refine List.map_congr_left fun s _ => ?_
  simp only [Function.comp_apply]
  split
  · exact keeps s
  · rfl

theorem Program.stageMapped {kind : StageKind} {f : Stage → Stage} {stage : Stage}
    (inside : stage ∈ (p.mapStage kind f).stages) :
    ∃ old ∈ p.stages, old.kind = kind ∧ stage = f old ∨ stage = old := by
  obtain ⟨old, there, rfl⟩ := List.mem_map.mp inside
  refine ⟨old, there, ?_⟩
  split
  · exact .inl ⟨by assumption, rfl⟩
  · exact .inr rfl

theorem Built.kinds (built : Built p) : (p.stages.map Stage.kind).Nodup := by
  induction built with
  | new name => exact List.nodup_nil
  | edit before edit ih =>
    cases edit with
    | stage absent =>
      rw [Program.withStage, List.map_append, List.nodup_append]
      refine ⟨ih, List.nodup_singleton _, ?_⟩
      rintro kind old _ new rfl
      rw [List.mem_singleton.mp new] at old
      exact Program.stageAbsent absent old
    | stageInput | stageOutput | builtin =>
      rw [kindsKept]
      · exact ih
      · exact fun _ => rfl
    | _ => exact ih

theorem Built.stageUnique (built : Built p) {kind : StageKind} {stage other : Stage}
    (found : p.stage? kind = some stage) (inside : other ∈ p.stages) (own : other.kind = kind) :
    other = stage := by
  obtain ⟨there, same⟩ := Program.stageFound found
  exact List.inj_on_of_nodup_map built.kinds inside there (own.trans same.symm)

theorem tablesMapped {stages : List Stage} {stage : Stage} {f : Stage → Stage} {v : VarId}
    (apart : (stages.map Stage.kind).Nodup) (inside : stage ∈ stages)
    (adds : ∀ s, (f s).tables.Perm (v :: s.tables)) :
    ((stages.map fun s => if s.kind = stage.kind then f s else s).flatMap Stage.tables).Perm
      (v :: stages.flatMap Stage.tables) := by
  induction stages with
  | nil => cases inside
  | cons first rest ih =>
    obtain ⟨outside, apart⟩ := List.nodup_cons.mp apart
    rw [List.map_cons, List.flatMap_cons, List.flatMap_cons]
    rcases List.mem_cons.mp inside with rfl | later
    · have same : (rest.map fun s => if s.kind = stage.kind then f s else s) = rest := by
        refine (List.map_congr_left fun s there => if_neg fun own => ?_).trans (List.map_id _)
        exact outside (own ▸ List.mem_map_of_mem there)
      rw [if_pos rfl, same]
      exact (adds stage).append_right _
    · have other : first.kind ≠ stage.kind := fun own => outside (own ▸ List.mem_map_of_mem later)
      rw [if_neg other]
      exact ((ih apart later).append_left _).trans List.perm_middle

theorem Built.listed (built : Built p) {kind : StageKind} {stage : Stage}
    (found : p.stage? kind = some stage) {f : Stage → Stage} {var : Variable}
    (adds : ∀ s, (f s).tables.Perm (p.vars.fresh :: s.tables)) :
    ((p.withVar var).mapStage kind f).tables.Perm (p.vars.fresh :: p.tables) := by
  obtain ⟨inside, rfl⟩ := Program.stageFound found
  exact ((tablesMapped built.kinds inside adds).append_left _).trans List.perm_middle

theorem dueGrown {var : Variable} (grown : q.vars = p.vars.push var) (v : VarId) :
    q.due v = p.due v + if p.vars.fresh = v ∧ var.isLexical = false then 1 else 0 := by
  rw [Program.due, grown, Arena.getPush]
  by_cases new : v = p.vars.fresh
  · subst new
    have none : p.vars.get? p.vars.fresh = none :=
      Option.eq_none_iff_forall_ne_some.mpr fun _ at_ => Arena.neFresh at_ rfl
    cases lexical : var.isLexical <;> simp [Program.due, none, lexical]
  · simp [Program.due, new, Ne.symm new]

theorem dueKept {w : VarId} {f : Variable → Variable} (keeps : ∀ var, (f var).kind = var.kind)
    (changed : q.vars = p.vars.replace w f) (v : VarId) : q.due v = p.due v := by
  simp only [Program.due, changed, Arena.getReplace]
  by_cases here : w = v
  · cases at_ : p.vars.get? v <;> simp [here, Variable.isLexical, keeps]
  · simp only [if_neg here]

theorem Built.countedOnce (built : Built p) (v : VarId) : p.tables.count v = p.due v := by
  induction built with
  | new name => rfl
  | @edit p q before edit ih =>
    -- an interface variable is listed by the call that makes it, a lexical one never
    have listed {var : Variable} (made : q.vars = p.vars.push var) (plain : var.isLexical = false)
        (grown : q.tables.Perm (p.vars.fresh :: p.tables)) : q.tables.count v = q.due v := by
      rw [grown.count_eq, List.count_cons, ih, dueGrown made]
      simp [plain]
    have inner {var : Variable} (made : q.vars = p.vars.push var) (lexical : var.isLexical = true)
        (same : q.tables = p.tables) : q.tables.count v = q.due v := by
      rw [same, ih, dueGrown made]
      simp [lexical]
    have mapped {w : VarId} {f : Variable → Variable} (changed : q.vars = p.vars.replace w f)
        (keeps : ∀ var, (f var).kind = var.kind) (same : q.tables = p.tables) :
        q.tables.count v = q.due v := by
      rw [same, ih, dueKept keeps changed]
    have aside (vars : q.vars = p.vars) (same : q.tables = p.tables) :
        q.tables.count v = q.due v := by
      rw [same, ih, Program.due, Program.due, vars]
    cases edit with
    | stage => exact aside rfl (by simp [Program.tables, Program.withStage, Program.withScope,
        Stage.tables])
    | uniform =>
      refine listed rfl rfl ?_
      simp [Program.tables, Program.withUniform, Program.withVar, List.perm_middle]
    | stageInput _ found | stageOutput _ found =>
      refine listed rfl rfl (before.listed found fun s => List.perm_iff_count.mpr fun w => ?_)
      simp only [Stage.tables, List.count_append, List.count_cons, List.count_nil]
      omega
    | builtin found =>
      refine listed rfl rfl (before.listed found fun s => List.perm_iff_count.mpr fun w => ?_)
      simp only [Stage.tables, List.count_append, List.count_cons, List.count_nil]
      omega
    | declare | loop | output => exact inner rfl rfl rfl
    | assign => exact mapped rfl (fun _ => rfl) rfl
    | _ => exact aside rfl rfl

theorem Program.dueBound (v : VarId) : p.due v ≤ 1 := by
  unfold Program.due
  split
  · split <;> omega
  · omega

theorem Program.tabled {stage : Stage} (inside : stage ∈ p.stages) :
    stage.tables.Sublist p.tables := by
  obtain ⟨front, back, split⟩ := List.append_of_mem inside
  rw [Program.tables, split, List.flatMap_append, List.flatMap_cons]
  exact ((List.sublist_append_left ..).trans (List.sublist_append_right ..)).trans
    (List.sublist_append_right ..)

theorem Built.tablesApart (built : Built p) : p.tables.Nodup :=
  List.nodup_iff_count_le_one.mpr fun v => built.countedOnce v ▸ Program.dueBound v

theorem Built.tableListed (built : Built p) {v : VarId} {var : Variable}
    (at_ : p.vars.get? v = some var) (plain : var.isLexical = false) : v ∈ p.tables := by
  refine List.count_pos_iff.mp ?_
  rw [built.countedOnce, Program.due, at_]
  simp [plain]

theorem Built.fewer (built : Built p) {stage : Stage} (inside : stage ∈ p.stages)
    {table : List VarId} (part : table.Sublist stage.tables) : table.length ≤ p.vars.size := by
  have once : table.Nodup := built.tablesApart.sublist (part.trans (Program.tabled inside))
  refine pathLength once fun v listed => ?_
  obtain ⟨var, at_⟩ := (built.stage inside).1 v (part.subset listed)
  exact Arena.below at_

theorem Program.Owns.mono (grows : Grows p q) {stage : StageKind} {v : VarId} {kind : VariableKind}
    (owns : p.Owns stage v kind) : q.Owns stage v kind := by
  obtain ⟨var, at_, same, own⟩ := owns
  obtain ⟨_, there, m, rfl⟩ := grows.vars at_
  exact ⟨_, there, same, own⟩

namespace Program.Located

variable {stage : StageKind} {kind : UInt32 → VariableKind} {table : List VarId}

theorem nil : p.Located stage kind [] := fun j v none => by cases none

theorem mono (grows : Grows p q) (located : p.Located stage kind table) :
    q.Located stage kind table := by
  intro j v at_
  obtain ⟨location, place, owns⟩ := located j v at_
  exact ⟨location, place, owns.mono grows⟩

theorem append (located : p.Located stage kind table) {v : VarId}
    (fits : table.length < Handle.limit) (owns : p.Owns stage v (kind (.ofNat table.length))) :
    p.Located stage kind (table ++ [v]) := by
  intro j w at_
  rcases Nat.lt_trichotomy j table.length with before | rfl | after
  · exact located j w (List.getElem?_append_left before ▸ at_)
  · rw [List.getElem?_concat_length] at at_
    cases at_
    exact ⟨_, UInt32.toNat_ofNat_of_lt (Nat.lt_succ_of_lt fits), owns⟩
  · rw [List.getElem?_eq_none (by simp; omega)] at at_
    cases at_

end Program.Located

theorem Built.located (built : Built p) {stage : Stage} (inside : stage ∈ p.stages) :
    p.Located stage.kind .stageInput stage.inputs ∧
      p.Located stage.kind .stageOutput stage.outputs := by
  induction built generalizing stage with
  | new name => cases inside
  | @edit p q before edit ih =>
    have kept {stage : Stage} (inside : stage ∈ p.stages) :
        q.Located stage.kind .stageInput stage.inputs ∧
          q.Located stage.kind .stageOutput stage.outputs :=
      ⟨(ih inside).1.mono edit.grows, (ih inside).2.mono edit.grows⟩
    cases edit with
    | stage =>
      rcases List.mem_append.mp inside with old | new
      · exact kept old
      · rw [List.mem_singleton.mp new]
        exact ⟨.nil, .nil⟩
    | @stageInput _ _ _ mine _ found room =>
      obtain ⟨old, there, ⟨own, rfl⟩ | rfl⟩ := Program.stageMapped inside
      · cases before.stageUnique found there own
        have before' := kept there
        have fewer := before.fewer there
          ((List.sublist_append_left mine.inputs _).trans (List.sublist_append_left ..))
        have fits := Nat.lt_of_le_of_lt fewer room
        exact ⟨before'.1.append fits ⟨_, Arena.getFresh .., rfl, congrArg some own.symm⟩, before'.2⟩
      · exact kept there
    | @stageOutput _ _ _ mine _ found room =>
      obtain ⟨old, there, ⟨own, rfl⟩ | rfl⟩ := Program.stageMapped inside
      · cases before.stageUnique found there own
        have before' := kept there
        have fewer := before.fewer there
          ((List.sublist_append_right _ mine.outputs).trans (List.sublist_append_left ..))
        have fits := Nat.lt_of_le_of_lt fewer room
        exact ⟨before'.1, before'.2.append fits ⟨_, Arena.getFresh .., rfl, congrArg some own.symm⟩⟩
      · exact kept there
    | builtin =>
      obtain ⟨old, there, ⟨-, rfl⟩ | rfl⟩ := Program.stageMapped inside
      · have same := kept there
        exact same
      · exact kept there
    | _ => exact kept inside

theorem findAbsent {value : Builtin} {table : List VarId}
    (absent : Build.findBuiltin p value table = .ok none) {v : VarId} (inside : v ∈ table)
    {var : Variable} (at_ : p.vars.get? v = some var) : var.kind ≠ .builtin value := by
  induction table with
  | nil => cases inside
  | cons w rest ih =>
    simp only [Build.findBuiltin, Outcome.bindOk, Arena.fetchOk] at absent
    obtain ⟨other, otherAt, absent⟩ := absent
    split at absent
    · cases absent
    · rename_i differs
      rcases List.mem_cons.mp inside with rfl | later
      · cases at_.symm.trans otherAt
        exact differs
      · exact ih absent later

namespace Program.OwnsBuiltins

variable {stage : StageKind} {values : List Builtin} {table : List VarId}

theorem mono (grows : Grows p q) (owns : p.OwnsBuiltins stage values table) :
    q.OwnsBuiltins stage values table :=
  ⟨owns.1, owns.2.imp fun _ _ each => ⟨each.1, each.2.mono grows⟩⟩

theorem apart (owns : p.OwnsBuiltins stage values table) {value : Builtin}
    (absent : Build.findBuiltin p value table = .ok none) : value ∉ values := by
  intro inside
  obtain ⟨i, below, rfl⟩ := List.getElem_of_mem inside
  have paired := List.forall₂_iff_get.mp owns.2
  obtain ⟨-, var, at_, kind, -⟩ := paired.2 i below (paired.1 ▸ below)
  exact findAbsent absent (List.get_mem ..) at_ kind

end Program.OwnsBuiltins

theorem Built.ownsBuiltins (built : Built p) {stage : Stage} (inside : stage ∈ p.stages) :
    ∃ values, p.OwnsBuiltins stage.kind values stage.builtins := by
  induction built generalizing stage with
  | new name => cases inside
  | @edit p q before edit ih =>
    have kept {stage : Stage} (inside : stage ∈ p.stages) :
        ∃ values, q.OwnsBuiltins stage.kind values stage.builtins := by
      obtain ⟨values, owns⟩ := ih inside
      exact ⟨values, owns.mono edit.grows⟩
    have grows := edit.grows
    cases edit with
    | stage =>
      rcases List.mem_append.mp inside with old | new
      · exact kept old
      · rw [List.mem_singleton.mp new]
        exact ⟨[], List.nodup_nil, .nil⟩
    | stageInput | stageOutput =>
      obtain ⟨old, there, ⟨-, rfl⟩ | rfl⟩ := Program.stageMapped inside
      · have same := kept there
        exact same
      · exact kept there
    | @builtin value stage found absent =>
      obtain ⟨old, there, ⟨own, rfl⟩ | rfl⟩ := Program.stageMapped inside
      · cases before.stageUnique found there own
        obtain ⟨values, owns⟩ := ih there
        refine ⟨values ++ [value], ?_, ?_⟩
        · rw [← List.concat_eq_append]
          exact owns.1.concat (owns.apart absent)
        · refine List.rel_append (owns.mono grows).2 (.cons ⟨own.symm, ?_⟩ .nil)
          exact ⟨_, Arena.getFresh .., rfl, congrArg some own.symm⟩
      · exact kept there
    | _ => exact kept inside

theorem Built.uniformKind (built : Built p) {v : VarId} (inside : v ∈ p.uniforms) :
    ∃ var, p.vars.get? v = some var ∧ var.kind = .uniform := by
  induction built with
  | new name => cases inside
  | @edit p q before edit ih =>
    have kept (old : v ∈ p.uniforms) : ∃ var, q.vars.get? v = some var ∧ var.kind = .uniform := by
      obtain ⟨var, at_, kind⟩ := ih old
      obtain ⟨_, there, m, rfl⟩ := edit.grows.vars at_
      exact ⟨_, there, kind⟩
    cases edit with
    | uniform =>
      rcases List.mem_append.mp inside with old | new
      · exact kept old
      · rw [List.mem_singleton.mp new]
        exact ⟨_, Arena.getFresh .., rfl⟩
    | _ => exact kept inside

theorem Built.sized (built : Built p) {stage : Stage} (inside : stage ∈ p.stages) :
    if stage.kind = .compute then ∃ w, stage.workgroup = some w ∧ w.x ≠ 0 ∧ w.y ≠ 0 ∧ w.z ≠ 0
      else stage.workgroup = none := by
  have sized := (built.stage inside).2
  split at sized
  · rename_i compute
    obtain ⟨w, held, runs⟩ := sized
    simp only [Workgroup.isEmpty, Bool.or_eq_false_iff, beq_eq_false_iff_ne, and_assoc] at runs
    rw [if_pos compute]
    exact ⟨w, held, runs⟩
  · rename_i other
    rw [if_neg other]
    exact sized

theorem bringsIff {s : StmtId} {v : VarId} : p.Declares s v ∨ p.Counts s v ↔
    ∃ node, p.stmts.get? s = some node ∧ node.kind.introduced? = some v := by
  constructor
  · rintro (⟨node, init, at_, kind⟩ | ⟨node, start, stop, body, at_, kind⟩)
    · exact ⟨node, at_, by rw [kind]; rfl⟩
    · exact ⟨node, at_, by rw [kind]; rfl⟩
  · rintro ⟨node, at_, brings⟩
    cases kind : node.kind with
    | act action =>
      rw [kind] at brings
      cases action with
      | declare w init =>
        cases brings
        exact .inl ⟨node, init, at_, kind⟩
      | _ => cases brings
    | loop counter start stop body =>
      rw [kind] at brings
      cases brings
      exact .inr ⟨node, start, stop, body, at_, kind⟩
    | _ =>
      rw [kind] at brings
      cases brings

theorem Proper.introduced {kind : StatementKind} (proper : Proper p kind) {v : VarId}
    (brings : kind.introduced? = some v) : ∃ var, p.vars.get? v = some var := by
  cases proper with
  | declare at_ | loop at_ =>
    cases brings
    exact ⟨_, at_⟩
  | _ => cases brings

theorem Edit.introducedFrom (edit : Edit p q) {s : StmtId} {node : Statement} {v : VarId}
    (at_ : q.stmts.get? s = some node) (brings : node.kind.introduced? = some v) :
    (∃ old, p.stmts.get? s = some old ∧ old.kind.introduced? = some v) ∨
      s = p.stmts.fresh ∧ v = p.vars.fresh := by
  cases edit with
  | declare | loop | output =>
    rcases Arena.getPushed at_ with ⟨rfl, rfl⟩ | old
    · cases brings
      exact .inr ⟨rfl, rfl⟩
    · exact .inl ⟨_, old, brings⟩
  | assign | store | branch | block =>
    rcases Arena.getPushed at_ with ⟨rfl, rfl⟩ | old
    · cases brings
    · exact .inl ⟨_, old, brings⟩
  | fill =>
    obtain ⟨old, before, rfl⟩ := Arena.getReplaced at_
    refine .inl ⟨old, before, ?_⟩
    split at brings <;> exact brings
  | _ => exact .inl ⟨node, at_, brings⟩

theorem Program.Introduces.mono (grows : Grows p q) {v : VarId} {c : ScopeId} {home later : Scope}
    {s : StmtId} (kept : home.Kept later) (introduces : p.Introduces v c home s) :
    q.Introduces v c later s := by
  obtain ⟨statements, rfl, more⟩ := kept
  cases introduces with
  | declare at_ kind lies listed =>
    obtain ⟨_, there, reads, rfl⟩ := grows.stmts at_
    exact .declare there kind lies (more.subset listed)
  | loop at_ kind =>
    obtain ⟨_, there, reads, rfl⟩ := grows.stmts at_
    exact .loop there kind

theorem Program.Housed.mono (grows : Grows p q) {v : VarId} {old var : Variable} {s : StmtId}
    (kept : old.Kept var) (housed : p.Housed v old s) : q.Housed v var s := by
  obtain ⟨m, rfl⟩ := kept
  obtain ⟨c, home, scope, at_, stage, introduces⟩ := housed
  obtain ⟨later, there, kept⟩ := grows.scopes at_
  have introduces := introduces.mono grows kept
  obtain ⟨statements, rfl, -⟩ := kept
  exact ⟨c, _, scope, there, stage, introduces⟩

theorem Edit.lexicalFrom (edit : Edit p q) (forest : Forest q) {v : VarId} {var : Variable}
    (at_ : q.vars.get? v = some var) (lexical : var.isLexical = true) :
    (∃ old, p.vars.get? v = some old ∧ old.Kept var) ∨
      v = p.vars.fresh ∧ q.Housed v var p.stmts.fresh := by
  have grows := edit.grows
  -- a new declaration lies in its scope because the edited scopes are still a forest
  have declared {node : Statement} {init : Option ExprId} {home : Scope}
      (new : q.stmts.get? p.stmts.fresh = some node) (kind : node.kind = .act (.declare v init))
      (homeAt : p.scopes.get? node.scope = some home) (scope : var.scope = some node.scope)
      (stage : var.stage = some home.stage) : q.Housed v var p.stmts.fresh := by
    obtain ⟨later, laterAt, listed⟩ := forest.placed new
    obtain ⟨_, there, statements, rfl, -⟩ := grows.scopes homeAt
    cases there.symm.trans laterAt
    exact ⟨_, _, scope, there, stage, .declare new kind rfl listed⟩
  cases edit with
  | declare homeAt =>
    rcases Arena.getPushed at_ with ⟨rfl, rfl⟩ | old
    · exact .inr ⟨rfl, declared (Arena.getFresh ..) rfl homeAt rfl rfl⟩
    · exact .inl ⟨var, old, .refl _⟩
  | output _ homeAt =>
    rcases Arena.getPushed at_ with ⟨rfl, rfl⟩ | old
    · exact .inr ⟨rfl, declared (Arena.getFresh ..) rfl homeAt rfl rfl⟩
    · exact .inl ⟨var, old, .refl _⟩
  | @loop scope home start stop startReads stopReads homeAt =>
    rcases Arena.getPushed at_ with ⟨rfl, rfl⟩ | old
    · have new : (p.looped scope home start stop (startReads.union stopReads)).stmts.get?
          p.stmts.fresh = some _ := Arena.getFresh ..
      obtain ⟨-, inner, innerAt, under⟩ := forest.nested new .loop
      obtain ⟨outer, outerAt, same⟩ := under.stage
      obtain ⟨_, there, statements, rfl, -⟩ := grows.scopes homeAt
      cases there.symm.trans outerAt
      exact .inr ⟨rfl, _, inner, rfl, innerAt, congrArg some same.symm, .loop new rfl⟩
    · exact .inl ⟨var, old, .refl _⟩
  | uniform | stageInput | stageOutput | builtin =>
    rcases Arena.getPushed at_ with ⟨rfl, rfl⟩ | old
    · cases lexical
    · exact .inl ⟨var, old, .refl _⟩
  | assign =>
    obtain ⟨old, before, rfl⟩ := Arena.getReplaced at_
    refine .inl ⟨old, before, ?_⟩
    split
    · exact ⟨_, rfl⟩
    · exact .refl old
  | _ => exact .inl ⟨var, at_, .refl _⟩

theorem Built.housed (built : Built p) {v : VarId} {var : Variable} (at_ : p.vars.get? v = some var)
    (lexical : var.isLexical = true) :
    ∃ s, p.Housed v var s ∧ ∀ t, p.Declares t v ∨ p.Counts t v → t = s := by
  induction built generalizing var with
  | new name => exact absurd at_ emptyGet
  | @edit p q before edit ih =>
    have forest := (Built.edit before edit).forest
    rcases edit.lexicalFrom forest at_ lexical with ⟨old, there, kept⟩ | ⟨rfl, housed⟩
    · have same : old.isLexical = true := by
        obtain ⟨m, rfl⟩ := kept
        exact lexical
      obtain ⟨s, housed, only⟩ := ih there same
      refine ⟨s, housed.mono edit.grows kept, fun t brings => ?_⟩
      obtain ⟨node, nodeAt, brings⟩ := bringsIff.mp brings
      rcases edit.introducedFrom nodeAt brings with ⟨older, olderAt, again⟩ | ⟨-, new⟩
      · exact only t (bringsIff.mpr ⟨older, olderAt, again⟩)
      · exact absurd new (Arena.neFresh there)
    · refine ⟨_, housed, fun t brings => ?_⟩
      obtain ⟨node, nodeAt, brings⟩ := bringsIff.mp brings
      rcases edit.introducedFrom nodeAt brings with ⟨older, olderAt, again⟩ | ⟨same, -⟩
      · obtain ⟨var, stands⟩ := (before.proper olderAt).introduced again
        exact absurd rfl (Arena.neFresh stands)
      · exact same

theorem reachableTabled (reachable : Reachable p) : p.Tabled := by
  have built := reachableBuilt reachable
  exact {
    kinds := built.kinds
    stages := fun stage inside => {
      inputs := (built.located inside).1
      outputs := (built.located inside).2
      builtins := built.ownsBuiltins inside
      workgroup := built.sized inside }
    uniforms := fun v inside => built.uniformKind inside
    once := fun v var at_ => by rw [built.countedOnce, Program.due, at_]
    locals := fun v var at_ lexical => built.housed at_ lexical }

def tabledRun : List Call :=
  [.addStage .fragment, .stageInput .fragment "uv" .float2, .builtin .fragCoord,
    .stageOutput .fragment "color" .float4, .stageInput .vertex "late" .float1,
    .builtin .fragCoord, .uniform "scale" .float1, .stageInput .fragment "tint" .float4,
    .literal (.int 0), .loop ⟨0⟩ ⟨0⟩ ⟨0⟩, .addCompute ⟨8, 8, 0⟩, .addCompute ⟨8, 8, 1⟩]

theorem tabledInterface : ∃ p, Program.after { name := "p" } tabledRun = some p ∧ p.Tabled ∧
    p.tables = [⟨3⟩, ⟨0⟩, ⟨4⟩, ⟨2⟩, ⟨1⟩] ∧ p.stages.map Stage.kind = [.fragment, .compute] := by
  have ran : Program.after { name := "p" } tabledRun = some _ := rfl
  exact ⟨_, ran, reachableTabled ((Reachable.new "p").after ran), rfl, rfl⟩

end

end ShaderGraph
