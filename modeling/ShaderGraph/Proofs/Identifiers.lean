import ShaderGraph.Proofs.Numbering
import ShaderGraph.Proofs.Sides
/-! Identifiers of a module. Its own names stay apart: the stages begin theirs differently, and a
stage gives its structures, its module variables and its entry point names of different forms. The
names of uniforms are not changed, so that one may be any of these, or that of a sampler. -/
namespace ShaderGraph

open Compile

namespace Program

variable (p : Program)

def name? (v : VarId) : Option String := (p.vars.get? v).map Variable.name

def called (v : VarId) : List String :=
  match p.name? v with
  | some name => name :: if p.paired v then [name ++ "_sampler"] else []
  | none => []

def structs (stage : Stage) : List String :=
  (if (p.side stage false).isEmpty then [] else [stage.kind.title ++ "Input"]) ++
    if (p.side stage true).isEmpty && stage.kind ≠ .vertex then [] else [stage.kind.title ++ "Output"]

def mirrors (stage : Stage) : List String :=
  ((p.side stage false ++ p.side stage true).filterMap p.name?).map fun name =>
    stage.kind.name ++ "_" ++ name

def entries (stage : Stage) : List String := p.structs stage ++ p.mirrors stage ++ [stage.kind.name ++ "Main"]

def identifiers : List String := p.uniforms.flatMap p.called ++ p.stages.flatMap p.entries

inductive Clash : Prop
  | sampler {u v : VarId} {name : String} (inside : u ∈ p.uniforms) (other : v ∈ p.uniforms)
      (paired : p.paired v = true) (named : p.name? v = some name)
      (same : p.name? u = some (name ++ "_sampler"))
  | mirror {u v : VarId} {stage : Stage} {name : String} (inside : u ∈ p.uniforms)
      (among : stage ∈ p.stages) (listed : v ∈ stage.tables) (named : p.name? v = some name)
      (same : stage.kind.name ++ "_" ++ name ∈ p.called u)
  | word {u : VarId} {stage : Stage} {name : String} (inside : u ∈ p.uniforms)
      (named : p.name? u = some name) (among : stage ∈ p.stages)
      (same : name ∈ p.structs stage ∨ name = stage.kind.name ++ "Main")

end Program

section

variable {p : Program} {r s : Report}

theorem flatMapOnce {α β : Type} {f : α → List β} {as : List α} (once : (as.flatMap f).Nodup) {a b : α}
    (first : a ∈ as) (second : b ∈ as) {x : β} (own : x ∈ f a) (other : x ∈ f b) : a = b := by
  induction as with
  | nil => cases first
  | cons c rest ih =>
    rw [List.flatMap_cons, List.nodup_append] at once
    obtain ⟨-, later, apart⟩ := once
    rcases List.mem_cons.mp first with rfl | behind
    · rcases List.mem_cons.mp second with rfl | behind
      · rfl
      · exact absurd rfl (apart x own x (List.mem_flatMap.mpr ⟨b, behind, other⟩))
    · rcases List.mem_cons.mp second with rfl | there
      · exact absurd rfl (apart x other x (List.mem_flatMap.mpr ⟨a, behind, own⟩))
      · exact ih later behind there

theorem emptyAlike {α β : Type} {R : α → β → Prop} {as : List α} {bs : List β}
    (each : List.Forall₂ R as bs) : bs.isEmpty = as.isEmpty := by
  cases each <;> rfl

theorem flatMapAlike {α β γ : Type} {f : α → List γ} {g : β → List γ} {as : List α} {bs : List β}
    (each : List.Forall₂ (fun a b => g b = f a) as bs) : bs.flatMap g = as.flatMap f := by
  induction each with
  | nil => rfl
  | cons own _ ih => rw [List.flatMap_cons, List.flatMap_cons, own, ih]

theorem Program.memCalled {v : VarId} {x : String} : x ∈ p.called v ↔ ∃ name, p.name? v = some name ∧
    (x = name ∨ p.paired v = true ∧ x = name ++ "_sampler") := by
  unfold Program.called
  cases p.name? v with
  | none => simp
  | some name => cases p.paired v <;> simp

theorem suffixApart {x rest : String} (filled : rest ≠ "") : x ≠ x ++ rest := fun same => by
  have longer := congrArg String.length same
  rw [String.length_append] at longer
  exact filled (String.length_eq_zero_iff.mp (by omega))

theorem suffixesApart {x y first second : String} (filled : first.toList ≠ [] ∧ second.toList ≠ [])
    (apart : first.toList.getLast? ≠ second.toList.getLast?) : x ++ first ≠ y ++ second := by
  intro same
  have texts := congrArg (fun text : String => text.toList.getLast?) same
  simp only [String.toList_append, List.getLast?_append_of_ne_nil _ filled.1,
    List.getLast?_append_of_ne_nil _ filled.2] at texts
  exact apart texts

theorem Program.calledApart (v : VarId) : (p.called v).Nodup := by
  unfold Program.called
  cases p.name? v with
  | none => exact List.nodup_nil
  | some name =>
    cases p.paired v with
    | false => exact List.nodup_singleton _
    | true =>
      exact List.nodup_cons.mpr
        ⟨fun same => suffixApart (by decide) (List.mem_singleton.mp same), List.nodup_singleton _⟩

theorem calledOnce (once : (p.uniforms.map p.name?).Nodup) : (p.uniforms.flatMap p.called).Nodup ↔
    ∀ u ∈ p.uniforms, ∀ v ∈ p.uniforms, p.paired v = true → ∀ name, p.name? v = some name →
      p.name? u ≠ some (name ++ "_sampler") := by
  have injective {u v : VarId} (inside : u ∈ p.uniforms) (other : v ∈ p.uniforms)
      (same : p.name? u = p.name? v) : u = v := List.inj_on_of_nodup_map once inside other same
  constructor
  · intro apart u inside v other paired name named same
    have one : u = v := flatMapOnce apart inside other (Program.memCalled.mpr ⟨_, same, .inl rfl⟩)
      (Program.memCalled.mpr ⟨_, named, .inr ⟨paired, rfl⟩⟩)
    subst one
    exact suffixApart (by decide) (Option.some.inj (named.symm.trans same))
  · intro apart
    refine List.nodup_flatMap.mpr ⟨fun v _ => p.calledApart v, once.of_map.pairwise_of_forall_ne
      fun u inside v other different => List.disjoint_left.mpr fun x own shared => different ?_⟩
    obtain ⟨name, named, own⟩ := Program.memCalled.mp own
    obtain ⟨more, called, shared⟩ := Program.memCalled.mp shared
    rcases own with rfl | ⟨paired, rfl⟩ <;> rcases shared with same | ⟨beside, same⟩
    · exact injective inside other (named.trans (same ▸ called.symm))
    · exact absurd (same ▸ named) (apart u inside v other beside more called)
    · exact absurd (same ▸ called) (apart v other u inside paired name named)
    · exact injective inside other (named.trans ((String.append_left_inj _).mp same ▸ called.symm))

theorem headAppend {x y : String} (filled : x.toList ≠ []) :
    (x ++ y).toList.head? = x.toList.head? := by
  rw [String.toList_append, List.head?_append_of_ne_nil _ filled]

theorem titleFilled (kind : StageKind) : kind.title.toList ≠ [] := by cases kind <;> decide

theorem nameFilled (kind : StageKind) : kind.name.toList ≠ [] := by cases kind <;> decide

theorem titleApart (kind other : StageKind) : kind.title.toList.head? ≠ other.name.toList.head? := by
  cases kind <;> cases other <;> decide

theorem kindsApart {kind other : StageKind} (different : kind ≠ other) :
    kind.title.toList.head? ≠ other.title.toList.head? ∧ kind.name.toList.head? ≠ other.name.toList.head? := by
  cases kind <;> cases other <;> first | exact absurd rfl different | decide

variable {stage other : Stage} {x : String}

theorem structForm (inside : x ∈ p.structs stage) :
    x = stage.kind.title ++ "Input" ∨ x = stage.kind.title ++ "Output" := by
  rcases List.mem_append.mp inside with inside | inside
  · split at inside
    · cases inside
    · exact .inl (List.mem_singleton.mp inside)
  · split at inside
    · cases inside
    · exact .inr (List.mem_singleton.mp inside)

theorem structHead (inside : x ∈ p.structs stage) : x.toList.head? = stage.kind.title.toList.head? := by
  rcases structForm inside with rfl | rfl <;> exact headAppend (titleFilled _)

theorem memMirrors : x ∈ p.mirrors stage ↔ ∃ v ∈ p.side stage false ++ p.side stage true,
    ∃ name, p.name? v = some name ∧ x = stage.kind.name ++ "_" ++ name := by
  simp only [Program.mirrors, List.mem_map, List.mem_filterMap]
  constructor
  · rintro ⟨name, ⟨v, inside, named⟩, rfl⟩
    exact ⟨v, inside, name, named, rfl⟩
  · rintro ⟨v, inside, name, named, rfl⟩
    exact ⟨name, ⟨v, inside, named⟩, rfl⟩

theorem mirrorHead (inside : x ∈ p.mirrors stage) : x.toList.head? = stage.kind.name.toList.head? := by
  obtain ⟨_, -, name, -, rfl⟩ := memMirrors.mp inside
  rw [String.append_assoc]
  exact headAppend (nameFilled _)

theorem mainHead : (stage.kind.name ++ "Main").toList.head? = stage.kind.name.toList.head? :=
  headAppend (nameFilled _)

theorem entriesHead (inside : x ∈ p.entries stage) :
    x.toList.head? = stage.kind.title.toList.head? ∨ x.toList.head? = stage.kind.name.toList.head? := by
  simp only [Program.entries, List.mem_append, List.mem_singleton] at inside
  rcases inside with (inside | inside) | rfl
  · exact .inl (structHead inside)
  · exact .inr (mirrorHead inside)
  · exact .inr mainHead

theorem mirrorMain (inside : x ∈ p.mirrors stage) : x ≠ stage.kind.name ++ "Main" := by
  obtain ⟨_, -, name, -, rfl⟩ := memMirrors.mp inside
  intro same
  have texts := congrArg String.toList same
  simp only [String.append_assoc, String.toList_append] at texts
  have heads := congrArg List.head? (List.append_cancel_left texts)
  rw [List.head?_append_of_ne_nil _ (by decide)] at heads
  exact absurd heads (by decide)

theorem Program.goesApart {v : VarId} (inward : p.goes false v = true) : p.goes true v ≠ true := by
  intro outward
  unfold Program.goes at inward outward
  cases at_ : p.vars.get? v with
  | none => simp [at_] at inward
  | some var =>
    rw [at_, Option.any_some, beq_iff_eq] at inward outward
    cases inward.symm.trans outward

theorem sidesOnce (once : (stage.tables.map p.name?).Nodup) :
    ((p.side stage false ++ p.side stage true).map p.name?).Nodup := by
  rw [List.map_append, List.nodup_append]
  refine ⟨once.sublist (List.filter_sublist.map _), once.sublist (List.filter_sublist.map _), ?_⟩
  rintro _ inward _ outward rfl
  obtain ⟨u, inside, same⟩ := List.mem_map.mp inward
  obtain ⟨v, other, rfl⟩ := List.mem_map.mp outward
  obtain ⟨inside, goes⟩ := List.mem_filter.mp inside
  obtain ⟨other, leaves⟩ := List.mem_filter.mp other
  have one : u = v := List.inj_on_of_nodup_map once inside other same
  exact Program.goesApart goes (one ▸ leaves)

theorem mirrorsOnce (once : (stage.tables.map p.name?).Nodup) : (p.mirrors stage).Nodup := by
  have names : ((p.side stage false ++ p.side stage true).filterMap p.name?).Nodup := by
    have held := (sidesOnce once).filterMap (f := id) fun a b name own other =>
      (Option.mem_def.mp own).trans (Option.mem_def.mp other).symm
    rwa [List.filterMap_map] at held
  exact names.map fun a b same => (String.append_right_inj _).mp same

theorem structsOnce : (p.structs stage).Nodup := by
  unfold Program.structs
  cases stage.kind <;> split <;> split <;> decide

theorem entriesOnce (once : (stage.tables.map p.name?).Nodup) : (p.entries stage).Nodup := by
  refine List.nodup_append.mpr ⟨List.nodup_append.mpr ⟨structsOnce, mirrorsOnce once, ?_⟩,
    List.nodup_singleton _, ?_⟩
  · rintro x struct _ mirror rfl
    exact titleApart _ _ ((structHead struct).symm.trans (mirrorHead mirror))
  · rintro x inside _ main rfl
    cases List.mem_singleton.mp main
    rcases List.mem_append.mp inside with struct | mirror
    · exact titleApart _ _ ((structHead struct).symm.trans mainHead)
    · exact mirrorMain mirror rfl

theorem Built.stagesOnce (built : Built p) (each : ∀ stage ∈ p.stages, (stage.tables.map p.name?).Nodup) :
    (p.stages.flatMap p.entries).Nodup := by
  refine List.nodup_flatMap.mpr ⟨fun stage inside => entriesOnce (each stage inside),
    (List.pairwise_map.mp built.kinds).imp fun different => List.disjoint_left.mpr fun x own shared => ?_⟩
  -- a capital begins the structures, and another letter for each stage
  obtain ⟨titles, names⟩ := kindsApart different
  rcases entriesHead own with head | head <;> rcases entriesHead shared with again | again
  · exact titles (head.symm.trans again)
  · exact titleApart _ _ (head.symm.trans again)
  · exact titleApart _ _ (again.symm.trans head)
  · exact names (head.symm.trans again)

theorem Wgsl.Takes.names {number : UInt32} {v : VarId} {var : Variable} {own : List Wgsl.Binding}
    (at_ : p.vars.get? v = some var) (takes : Wgsl.Takes p number v var own) :
    own.map Wgsl.Binding.name = p.called v := by
  have named : p.name? v = some var.name := congrArg (Option.map Variable.name) at_
  unfold Program.called Program.paired
  rw [named, at_]
  cases takes with
  | sampler ty => simp [ty]
  | storage ty => simp [ty]
  | value plain =>
    cases ty : var.ty with
    | sampler => simp [ty, Ty.isResource] at plain
    | _ => simp [ty]

theorem Wgsl.Numbered.names {number : UInt32} {vs : List VarId} {groups : List (List Wgsl.Binding)}
    (numbered : Wgsl.Numbered p number vs groups) :
    groups.flatten.map Wgsl.Binding.name = vs.flatMap p.called := by
  induction numbered with
  | nil => rfl
  | cons at_ takes _ ih => rw [List.flatten_cons, List.map_append, ih, takes.names at_, List.flatMap_cons]

theorem wgslPositionless {o : Options} {e : Wgsl.EntryPoint}
    (ran : Wgsl.entryPoint p o stage r = .ok e s) : ∃ positioned,
      Wgsl.usesBuiltin p .position stage = .ok positioned ∧
      e.positionless = (stage.kind = .vertex && !positioned) := by
  simp only [Wgsl.entryPoint, bindOk, liftOk] at ran
  obtain ⟨positioned, _, ⟨asked, -⟩, stores, _, -, ran⟩ := ran
  obtain ⟨w, ran⟩ : ∃ w, Wgsl.settled p o stage positioned stores w = .ok e s := afterOk ran
  refine ⟨positioned, asked, ?_⟩
  unfold Wgsl.settled at ran
  split at ran
  · exact (unsupportedOk ran).elim
  · simp only [bindOk, pureOk] at ran
    obtain ⟨_, _, -, _, _, -, _, _, -, _, _, -, rfl, -⟩ := ran
    rfl

theorem wgslHasOutput {o : Options} {e : Wgsl.EntryPoint}
    (ran : Wgsl.entryPoint p o stage r = .ok e s)
    (outputs : List.Forall₂ (Wgsl.Serves p) (p.side stage true) e.outputs) :
    e.hasOutput = !((p.side stage true).isEmpty && stage.kind ≠ .vertex) := by
  obtain ⟨positioned, asked, positionless⟩ := wgslPositionless ran
  rw [Wgsl.EntryPoint.hasOutput, emptyAlike outputs, positionless]
  by_cases vertex : stage.kind = .vertex
  · cases positioned with
    | false => simp [vertex]
    | true =>
      obtain ⟨v, listed, found⟩ := anySome asked
      simp only [Outcome.bindOk, Outcome.pureOk, Arena.fetchOk, beq_iff_eq] at found
      obtain ⟨var, at_, kind⟩ := found
      have leaves : v ∈ p.side stage true := List.mem_filter.mpr
        ⟨List.mem_append_right _ listed, (Program.goesIff at_).mpr (by rw [kind]; rfl)⟩
      simp [vertex, List.isEmpty_eq_false_iff.mpr (List.ne_nil_of_mem leaves)]
  · simp [vertex]

theorem Built.mirrorName (built : Built p) (inside : stage ∈ p.stages) {v : VarId} {var : Variable}
    (listed : v ∈ stage.tables) (at_ : p.vars.get? v = some var) :
    Wgsl.moduleName var = stage.kind.name ++ "_" ++ var.name := by
  obtain ⟨_, output, there, own, leaves⟩ := built.listedGoes inside listed
  cases there.symm.trans at_
  unfold Wgsl.moduleName
  rw [own]
  cases kind : var.kind <;> rw [kind] at leaves <;> first | rfl | cases leaves

theorem Built.mirrorNames (built : Built p) (inside : stage ∈ p.stages) {vs : List VarId}
    {ms : List Wgsl.Member} (listed : ∀ v ∈ vs, v ∈ stage.tables)
    (serve : List.Forall₂ (Wgsl.Serves p) vs ms) : ms.map (fun m => Wgsl.moduleName m.var) =
      (vs.filterMap p.name?).map fun name => stage.kind.name ++ "_" ++ name := by
  induction serve with
  | nil => rfl
  | @cons v m vs ms at_ _ ih =>
    obtain ⟨here, later⟩ := List.forall_mem_cons.mp listed
    have named : p.name? v = some m.var.name := congrArg (Option.map Variable.name) at_
    rw [List.map_cons, ih later, List.filterMap_cons_some named, List.map_cons, built.mirrorName inside here at_]

theorem Built.entryNames (built : Built p) {o : Options} {e : Wgsl.EntryPoint}
    (inside : stage ∈ p.stages) (ran : Wgsl.entryPoint p o stage r = .ok e s) :
    e.declarations.map Wgsl.Declaration.name = p.entries stage := by
  obtain ⟨kind, ⟨_, _, ins⟩, ⟨_, _, outs⟩, -⟩ := wgslEntryOk ran
  have inputs := (built.sideMembers inside ins).imp fun _ _ lists => lists.serves
  have outputs := (built.sideMembers inside outs).imp fun _ _ lists => lists.serves
  have structs : e.structs = p.structs stage := by
    unfold Wgsl.EntryPoint.structs Program.structs
    rw [emptyAlike inputs, wgslHasOutput ran outputs, Wgsl.EntryPoint.inputName, Wgsl.EntryPoint.outputName, kind]
    cases (p.side stage true).isEmpty && decide (stage.kind ≠ .vertex) <;> rfl
  have mirrors : (e.inputs ++ e.outputs).map (fun m => Wgsl.moduleName m.var) = p.mirrors stage :=
    built.mirrorNames inside (fun v listed => (List.mem_append.mp listed).elim
      (fun among => (List.mem_filter.mp among).1) fun among => (List.mem_filter.mp among).1)
      (List.rel_append inputs outputs)
  have main : e.declaration.name = stage.kind.name ++ "Main" := kind ▸ rfl
  rw [Wgsl.EntryPoint.declarations, List.map_append, List.map_append, List.map_map, List.map_map,
    Program.entries, ← mirrors, ← structs, ← main]
  exact congrArg (· ++ _ ++ _) (List.map_id _)

theorem moduleBindings {o : Options} {m : Wgsl.Module} (ran : Wgsl.Module.ofProgram p o r = .ok m s) :
    m.bindings.map Wgsl.Binding.name = p.uniforms.flatMap p.called := by
  obtain ⟨⟨_, _, bound⟩, -⟩ := wgslModuleOk ran
  obtain ⟨groups, same, numbered⟩ := bindUniformsNumbered bound
  rw [same, numbered.names]

theorem Built.moduleNames (built : Built p) {o : Options} {m : Wgsl.Module}
    (ran : Wgsl.Module.ofProgram p o r = .ok m s) :
    m.declarations.map Wgsl.Declaration.name = p.identifiers := by
  obtain ⟨-, each⟩ := wgslModuleOk ran
  have entries : m.entryPoints.flatMap (fun e => e.declarations.map Wgsl.Declaration.name) =
      p.stages.flatMap p.entries :=
    flatMapAlike (each.imp fun stage e ⟨inside, _, _, made⟩ => built.entryNames inside made)
  rw [Wgsl.Module.declarations, List.map_append, List.map_map, List.map_flatMap, entries,
    Program.identifiers, ← moduleBindings ran]
  rfl

theorem samplerWord {name : String} (word : name ++ "_sampler" ∈ p.structs stage ∨
    name ++ "_sampler" = stage.kind.name ++ "Main") : False := by
  rcases word with struct | main
  · rcases structForm struct with same | same
    · exact suffixesApart (by decide) (by decide) same
    · exact suffixesApart (by decide) (by decide) same
  · exact suffixesApart (by decide) (by decide) main

theorem Built.sidesAll (built : Built p) (inside : stage ∈ p.stages) {v : VarId} :
    v ∈ p.side stage false ++ p.side stage true ↔ v ∈ stage.tables := by
  rw [List.mem_append]
  constructor
  · exact fun side => side.elim (fun among => (List.mem_filter.mp among).1)
      fun among => (List.mem_filter.mp among).1
  · intro listed
    obtain ⟨var, output, at_, -, leaves⟩ := built.listedGoes inside listed
    have among := List.mem_filter.mpr ⟨listed, (Program.goesIff at_).mpr leaves⟩
    cases output with
    | false => exact .inl among
    | true => exact .inr among

theorem Program.memEntries : x ∈ p.entries stage ↔
    x ∈ p.mirrors stage ∨ x ∈ p.structs stage ∨ x = stage.kind.name ++ "Main" := by
  simp only [Program.entries, List.mem_append, List.mem_singleton]
  tauto

theorem Built.identifiersOnce (built : Built p) (once : (p.uniforms.map p.name?).Nodup)
    (each : ∀ stage ∈ p.stages, (stage.tables.map p.name?).Nodup) :
    p.identifiers.Nodup ↔ ¬ p.Clash := by
  rw [Program.identifiers, List.nodup_append, calledOnce once]
  constructor
  · rintro ⟨own, -, apart⟩ clash
    have meets {u : VarId} {stage : Stage} {x : String} (inside : u ∈ p.uniforms) (called : x ∈ p.called u)
        (among : stage ∈ p.stages) (entry : x ∈ p.entries stage) : False :=
      apart x (List.mem_flatMap.mpr ⟨u, inside, called⟩) x (List.mem_flatMap.mpr ⟨stage, among, entry⟩) rfl
    cases clash with
    | sampler inside other paired named same => exact own _ inside _ other paired _ named same
    | mirror inside among listed named same =>
      exact meets inside same among (Program.memEntries.mpr (.inl (memMirrors.mpr
        ⟨_, (built.sidesAll among).mpr listed, _, named, rfl⟩)))
    | word inside named among same =>
      exact meets inside (Program.memCalled.mpr ⟨_, named, .inl rfl⟩) among (Program.memEntries.mpr (.inr same))
  · intro none
    refine ⟨fun u inside v other paired name named same => none (.sampler inside other paired named same),
      built.stagesOnce each, ?_⟩
    rintro x called _ declared rfl
    obtain ⟨u, inside, called⟩ := List.mem_flatMap.mp called
    obtain ⟨stage, among, entry⟩ := List.mem_flatMap.mp declared
    rcases Program.memEntries.mp entry with mirror | word
    · obtain ⟨v, side, name, named, rfl⟩ := memMirrors.mp mirror
      exact none (.mirror inside among ((built.sidesAll among).mp side) named called)
    · -- no structure or entry point ends as the samplers do
      obtain ⟨name, named, rfl | ⟨-, rfl⟩⟩ := Program.memCalled.mp called
      · exact none (.word inside named among word)
      · exact samplerWord word

theorem identifiersApart {f : Frozen} {o : Options} {out : Output} (reachable : Reachable f.program)
    (once : (f.program.uniforms.map f.program.name?).Nodup)
    (each : ∀ stage ∈ f.program.stages, (stage.tables.map f.program.name?).Nodup)
    (compiled : (Wgsl.backend.compile f o).result = .ok out) :
    ∃ m : Wgsl.Module, out.files = [⟨s!"{f.program.name}.wgsl", none, m.listing.text⟩] ∧
      (m.listing.flush 0).filter (fun text => declaresLine text.toList) =
        m.declarations.map Wgsl.Declaration.line ∧
      (f.program.Worded → (textLines m.listing.text).filter declaresLine =
        m.declarations.map fun d => d.line.toList) ∧
      m.declarations.map Wgsl.Declaration.name = f.program.identifiers ∧
      ((m.declarations.map Wgsl.Declaration.name).Nodup ↔ ¬ f.program.Clash) := by
  have built := reachableBuilt reachable
  obtain ⟨_, ran⟩ := compiledOk compiled
  obtain ⟨m, _, made, written⟩ := bindOk.mp ran
  have lines : (m.listing.flush 0).filter (fun text => declaresLine text.toList) =
      m.declarations.map Wgsl.Declaration.line := by
    rw [(moduleOutlined made).outer, m.outlineDeclares]
  have names := built.moduleNames made
  refine ⟨m, (pureOk.mp written).1.symm, lines, fun worded => ?_, names, ?_⟩
  · rw [Listing.textLines (built.wgslBalanced worded made 0).shaped, List.filter_append,
      flushPasses rfl fun _ => rfl, lines, List.map_map]
    exact List.append_nil _
  · rw [names]
    exact built.identifiersOnce once each

def namesakeRun : List Call :=
  [.addStage .vertex, .addStage .fragment, .uniform "colors" (.sampler ⟨.d2, .color⟩),
    .uniform "tint" .float4, .stageOutput .vertex "uv" .float2, .stageInput .fragment "uv" .float2,
    .stageOutput .fragment "color" .float4]

theorem namesakeRuns : ∃ p, Program.after { name := "p" } namesakeRun = some p ∧ p.check = .ok [] ∧
    p.uniforms.map p.name? = [some "colors", some "tint"] ∧
    p.stages.map (fun stage => stage.tables.map p.name?) = [[some "uv"], [some "uv", some "color"]] ∧
    p.identifiers = ["colors", "colors_sampler", "tint", "VertexOutput", "vertex_uv", "vertexMain",
      "FragmentInput", "FragmentOutput", "fragment_uv", "fragment_color", "fragmentMain"] :=
  ⟨_, rfl, rfl, rfl, rfl, rfl⟩

theorem namesakesWritten : (Program.after { name := "p" } namesakeRun).map (fun p =>
    Wgsl.backend.stop? p {}) = some none := by decide +kernel

theorem identifiersApartNamesakes : ∃ p f out, ∃ m : Wgsl.Module,
    Program.after { name := "p" } namesakeRun = some p ∧ f.program = p ∧
    (p.uniforms.map p.name?).Nodup ∧ (∀ stage ∈ p.stages, (stage.tables.map p.name?).Nodup) ∧
    (Wgsl.backend.compile f {}).result = .ok out ∧
    out.files = [⟨s!"{p.name}.wgsl", none, m.listing.text⟩] ∧
    (m.declarations.map Wgsl.Declaration.name).length = 11 ∧
    (m.declarations.map Wgsl.Declaration.name).Nodup ∧ ¬ p.Clash := by
  obtain ⟨p, ran, passed, uniforms, tables, identifiers⟩ := namesakeRuns
  have written := namesakesWritten
  rw [ran] at written
  let f : Frozen := ⟨p, _, passed⟩
  obtain ⟨out, compiled⟩ := compiles (f := f) (Option.some.inj written)
  have once : (p.uniforms.map p.name?).Nodup := by
    rw [uniforms]
    decide
  have each : ∀ stage ∈ p.stages, (stage.tables.map p.name?).Nodup := by
    rw [← List.forall_mem_map (P := List.Nodup), tables]
    decide
  obtain ⟨m, files, -, -, names, apart⟩ :=
    identifiersApart (f := f) ((Reachable.new "p").after ran) once each compiled
  have listed : m.declarations.map Wgsl.Declaration.name = _ := names.trans identifiers
  have nodup : (m.declarations.map Wgsl.Declaration.name).Nodup := by
    rw [listed]
    decide
  exact ⟨p, f, out, m, ran, rfl, once, each, compiled, files, by rw [listed]; rfl, nodup, apart.mp nodup⟩

def mirroredRun : List Call :=
  [.addStage .fragment, .uniform "fragment_color" .float4, .stageOutput .fragment "color" .float4,
    .read ⟨0⟩, .read ⟨1⟩, .assign ⟨0⟩ ⟨1⟩ ⟨0⟩]

theorem mirroredRuns : ∃ p, Program.after { name := "p" } mirroredRun = some p ∧ p.check = .ok [] ∧
    p.uniforms.map p.name? = [some "fragment_color"] ∧
    p.stages.map (fun stage => stage.tables.map p.name?) = [[some "color"]] ∧
    p.identifiers = ["fragment_color", "FragmentOutput", "fragment_color", "fragmentMain"] :=
  ⟨_, rfl, rfl, rfl, rfl, rfl⟩

theorem mirroredWritten : (Program.after { name := "p" } mirroredRun).map (fun p =>
    Wgsl.backend.stop? p {}) = some none := by decide +kernel

theorem uniformMirrored : ∃ f out, ∃ m : Wgsl.Module,
    Program.after { name := "p" } mirroredRun = some f.program ∧ Reachable f.program ∧
    (f.program.uniforms.map f.program.name?).Nodup ∧
    (∀ stage ∈ f.program.stages, (stage.tables.map f.program.name?).Nodup) ∧
    (Wgsl.backend.compile f {}).result = .ok out ∧
    out.files = [⟨s!"{f.program.name}.wgsl", none, m.listing.text⟩] ∧
    (m.listing.flush 0).filter (fun text => declaresLine text.toList) =
      m.declarations.map Wgsl.Declaration.line ∧
    ¬ (m.declarations.map Wgsl.Declaration.name).Nodup := by
  obtain ⟨p, ran, passed, uniforms, tables, identifiers⟩ := mirroredRuns
  have written := mirroredWritten
  rw [ran] at written
  have reachable := (Reachable.new "p").after ran
  let f : Frozen := ⟨p, _, passed⟩
  obtain ⟨out, compiled⟩ := compiles (f := f) (Option.some.inj written)
  obtain ⟨_, made⟩ := compiledOk compiled
  obtain ⟨m, _, made, files⟩ := bindOk.mp made
  refine ⟨f, out, m, ran, reachable, ?_, ?_, compiled, (pureOk.mp files).1.symm, ?_, ?_⟩
  · change (p.uniforms.map p.name?).Nodup
    rw [uniforms]
    decide
  · change ∀ stage ∈ p.stages, (stage.tables.map p.name?).Nodup
    rw [← List.forall_mem_map (P := List.Nodup), tables]
    decide
  · rw [(moduleOutlined made).outer, m.outlineDeclares]
  · rw [(reachableBuilt reachable).moduleNames made]
    rw [identifiers]
    decide

end

end ShaderGraph
