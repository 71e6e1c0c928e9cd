import ShaderGraph.Proofs.Usage
/-! Textures that are read and written. Of texels of several components neither GLSL ES nor WGSL has
such a texture. WGSL refuses those that are reported to be read and written; GLSL ES refuses them
too, and beside them those that are reported to be neither. -/
namespace ShaderGraph

open Compile

def Storage.Sized (t : Storage) : Prop := ∃ size kind, t.texelTy.componentCount? = some size ∧
  (size = 1 ∨ size = 2 ∨ size = 4) ∧ t.texelTy.scalarKind? = some kind ∧ kind.isNumeric = true

namespace Program

variable (p : Program)

def EsRefuses (v : VarId) (text : String) : Prop := ∃ name t usage format, p.Image v name t usage ∧
  Glsl.imageFormat? t.texelTy = some format ∧
  text = s!"read-write {format} image in GLSL ES ({name})" ∧
  Glsl.imageLine .es310 name t usage = Compile.unsupported text

def WgslRefuses (v : VarId) (text : String) : Prop := ∃ name t usage, p.Image v name t usage ∧
  (Wgsl.texelFormat? t.texelTy).isSome = true ∧
  text = s!"read_write storage texture of {t.texelTy.name} ({name})" ∧
  ∀ number, Wgsl.storageBinding number name t usage = Compile.unsupported text

end Program

section

variable {p : Program} {v : VarId} {name text : String} {t : Storage} {usage : Usage}

theorem Storage.Sized.format (sized : t.Sized) : ∃ format, Glsl.imageFormat? t.texelTy = some format := by
  obtain ⟨size, kind, count, among, scalar, numeric⟩ := sized
  unfold Glsl.imageFormat?
  rw [count, scalar]
  rcases among with rfl | rfl | rfl <;> cases kind <;> first | exact ⟨_, rfl⟩ | cases numeric

theorem formatsAlike (texel : Ty) :
    (Wgsl.texelFormat? texel).isSome = (Glsl.imageFormat? texel).isSome := by
  unfold Wgsl.texelFormat? Glsl.imageFormat?
  split <;> simp_all

theorem unsupportedApart {α : Type} {what : String} {a : α} :
    (Compile.unsupported what : Compile α) ≠ pure a := fun same => by
  have ran := congrFun same {}
  cases ran

theorem imageRefused {format : String} (known : Glsl.imageFormat? t.texelTy = some format) :
    Glsl.imageLine .es310 name t usage =
        Compile.unsupported s!"read-write {format} image in GLSL ES ({name})" ↔
      t.texelTy.componentCount? ≠ some 1 ∧ usage.loads = usage.stores := by
  unfold Glsl.imageLine
  simp only [reduceCtorEq, if_false, known]
  split
  · rename_i mixed
    simp only [Bool.and_eq_true, decide_eq_true_eq] at mixed
    exact iff_of_true rfl ⟨mixed.2, accessEmpty.mp mixed.1.2⟩
  · rename_i apart
    refine iff_of_false (fun same => unsupportedApart same.symm) fun ⟨wide, same⟩ => apart ?_
    simp only [Bool.and_eq_true, decide_eq_true_eq]
    exact ⟨⟨rfl, accessEmpty.mpr same⟩, wide⟩

theorem bindingRefused {number : UInt32} (known : (Wgsl.texelFormat? t.texelTy).isSome = true) :
    Wgsl.storageBinding number name t usage =
        Compile.unsupported s!"read_write storage texture of {t.texelTy.name} ({name})" ↔
      t.texelTy.componentCount? ≠ some 1 ∧ usage.loads = true ∧ usage.stores = true := by
  unfold Wgsl.storageBinding
  rw [if_neg (by simpa [Option.isSome_iff_ne_none] using known)]
  split
  · rename_i mixed
    simp only [Bool.and_eq_true, decide_eq_true_eq] at mixed
    exact iff_of_true rfl ⟨mixed.2, mixed.1⟩
  · rename_i apart
    refine iff_of_false (fun same => unsupportedApart same.symm) fun ⟨wide, both⟩ => apart ?_
    simp only [Bool.and_eq_true, decide_eq_true_eq]
    exact ⟨both, wide⟩

namespace Program.Image

variable (image : p.Image v name t usage)
include image

theorem unique {other : String} {u : Storage} {more : Usage} (again : p.Image v other u more) :
    other = name ∧ u = t ∧ more = usage := by
  obtain ⟨-, _, at_, -, ty⟩ := image.texture
  obtain ⟨-, _, there, -, same⟩ := again.texture
  cases at_.symm.trans there
  exact ⟨Option.some.inj (again.named.symm.trans image.named), Ty.storage.inj (same.symm.trans ty),
    Except.ok.inj (again.used.symm.trans image.used)⟩

theorem esRefuses : (∃ text, p.EsRefuses v text) ↔ (Glsl.imageFormat? t.texelTy).isSome = true ∧
    t.texelTy.componentCount? ≠ some 1 ∧ usage.loads = usage.stores := by
  constructor
  · rintro ⟨_, _, _, _, format, again, known, rfl, refused⟩
    obtain ⟨rfl, rfl, rfl⟩ := image.unique again
    exact ⟨Option.isSome_of_eq_some known, (imageRefused known).mp refused⟩
  · rintro ⟨known, unsaid⟩
    obtain ⟨format, known⟩ := Option.isSome_iff_exists.mp known
    exact ⟨_, name, t, usage, format, image, known, rfl, (imageRefused known).mpr unsaid⟩

theorem wgslRefuses : (∃ text, p.WgslRefuses v text) ↔ (Glsl.imageFormat? t.texelTy).isSome = true ∧
    t.texelTy.componentCount? ≠ some 1 ∧ usage.loads = true ∧ usage.stores = true := by
  rw [← formatsAlike]
  constructor
  · rintro ⟨_, _, _, _, again, known, rfl, refused⟩
    obtain ⟨rfl, rfl, rfl⟩ := image.unique again
    exact ⟨known, (bindingRefused known).mp (refused 0)⟩
  · rintro ⟨known, mixed⟩
    exact ⟨_, name, t, usage, image, known, rfl, fun _ => (bindingRefused known).mpr mixed⟩

theorem agree : (∃ text, p.WgslRefuses v text) ↔
    (∃ text, p.EsRefuses v text) ∧ (usage.loads = true ∨ usage.stores = true) := by
  rw [image.esRefuses, image.wgslRefuses]
  cases usage.loads <;> cases usage.stores <;> simp

end Program.Image

theorem Program.UndirectedSo.refuses (so : p.UndirectedSo (.refused (.unsupported text))) :
    ∃ v, p.EsRefuses v text := by
  obtain ⟨v, name, t, usage, format, image, known, wide, same, told⟩ := so
  cases told
  exact ⟨v, name, t, usage, format, image, known, rfl, (imageRefused known).mpr ⟨wide, same⟩⟩

theorem Program.MixedSo.refuses (so : p.MixedSo (.refused (.unsupported text))) :
    ∃ v, p.WgslRefuses v text := by
  obtain ⟨v, name, t, usage, image, known, wide, loads, stores, told⟩ := so
  cases told
  exact ⟨v, name, t, usage, image, known, rfl, fun _ => (bindingRefused known).mpr ⟨wide, loads, stores⟩⟩

theorem Program.EsRefuses.undirected (refuses : p.EsRefuses v text) : p.Undirected := by
  obtain ⟨_, t, usage, _, image, known, rfl, refused⟩ := refuses
  obtain ⟨wide, same⟩ := (imageRefused known).mp refused
  exact ⟨v, usage, ⟨t, image.texture, wide, image.used⟩, same⟩

theorem Program.WgslRefuses.mixed (refuses : p.WgslRefuses v text) : p.Mixed := by
  obtain ⟨_, t, usage, image, known, rfl, refused⟩ := refuses
  obtain ⟨wide, both⟩ := (bindingRefused known).mp (refused 0)
  exact ⟨v, usage, ⟨t, image.texture, wide, image.used⟩, both⟩

theorem imagesAgree (reachable : Reachable p) :
    (∀ v t, p.Uniform v (.storage t) → ∃ name usage, p.Image v name t usage ∧
      (t.Sized → ((∃ text, p.EsRefuses v text) ↔
        t.texelTy.componentCount? ≠ some 1 ∧ usage.loads = usage.stores)) ∧
      (t.Sized → ((∃ text, p.WgslRefuses v text) ↔
        t.texelTy.componentCount? ≠ some 1 ∧ usage.loads = true ∧ usage.stores = true)) ∧
      ((∃ text, p.WgslRefuses v text) ↔
        (∃ text, p.EsRefuses v text) ∧ (usage.loads = true ∨ usage.stores = true))) ∧
    ∀ f : Frozen, f.program = p → ∀ o : Options,
      (∀ rest, ((Glsl.backend .es).compile f o).result =
          .error (.refused (.unsupported ("read-write " ++ rest))) →
        ∃ v name t usage, p.Image v name t usage ∧ p.EsRefuses v ("read-write " ++ rest) ∧
          (usage.loads = true ∨ usage.stores = true →
            usage.loads = true ∧ usage.stores = true ∧ ∃ text, p.WgslRefuses v text)) ∧
      (∀ rest, (Wgsl.backend.compile f o).result =
          .error (.refused (.unsupported ("read_write storage texture of " ++ rest))) →
        ∃ v, p.WgslRefuses v ("read_write storage texture of " ++ rest)) ∧
      (∀ v text, p.EsRefuses v text → ∀ out, ((Glsl.backend .es).compile f o).result ≠ .ok out) ∧
      ∀ v text, p.WgslRefuses v text → ∀ out, (Wgsl.backend.compile f o).result ≠ .ok out := by
  have built := reachableBuilt reachable
  refine ⟨fun v t texture => ?_, ?_⟩
  · obtain ⟨usage, used⟩ := built.usageOk v
    obtain ⟨-, var, at_, -, ty⟩ := id texture
    have image := built.image at_ ty used
    refine ⟨var.name, usage, image, fun sized => ?_, fun sized => ?_, image.agree⟩
    · obtain ⟨format, known⟩ := sized.format
      simp only [image.esRefuses, known, Option.isSome_some, true_and]
    · obtain ⟨format, known⟩ := sized.format
      simp only [image.wgslRefuses, known, Option.isSome_some, true_and]
  · rintro f rfl o
    refine ⟨fun rest failed => ?_, fun rest failed => ?_, fun v text refuses out compiled => ?_,
      fun v text refuses out compiled => ?_⟩
    · obtain ⟨_, stopped⟩ := compiledError failed
      obtain ⟨v, refuses⟩ := (built.glslTold .es o _ _ _ stopped ⟨rest, rfl⟩).refuses
      obtain ⟨name, t, usage, format, image, known, told, refused⟩ := id refuses
      refine ⟨v, name, t, usage, image, refuses, fun accessed => ?_⟩
      have both := image.agree.mpr ⟨⟨_, refuses⟩, accessed⟩
      obtain ⟨-, -, loads, stores⟩ := image.wgslRefuses.mp both
      exact ⟨loads, stores, both⟩
    · obtain ⟨_, stopped⟩ := compiledError failed
      exact (built.wgslTold o _ _ _ stopped ⟨rest, rfl⟩).refuses
    · obtain ⟨_, ran⟩ := compiledOk compiled
      exact undirectedRefused built ran refuses.undirected
    · obtain ⟨_, ran⟩ := compiledOk compiled
      exact mixedRefused built ran refuses.mixed

def copiedRun : List Call :=
  [.addCompute ⟨1, 1, 1⟩, .uniform "image" (.storage ⟨.d2, .vector .four .float⟩), .read ⟨0⟩,
    .literal (.int 0), .compose .int2 [⟨1⟩, ⟨1⟩], .load ⟨0⟩ ⟨2⟩, .store ⟨0⟩ ⟨0⟩ ⟨2⟩ ⟨3⟩]

theorem copiedRuns : ∃ p, Program.after { name := "p" } copiedRun = some p ∧ p.check = .ok [] ∧
    p.storageUsage ⟨0⟩ = .ok ⟨true, true⟩ ∧
    p.vars.get? ⟨0⟩ =
      some ⟨"image", .storage ⟨.d2, .vector .four .float⟩, .uniform, none, none, 0⟩ :=
  ⟨_, rfl, rfl, rfl, rfl⟩

theorem imagesAgreeCopied : ∃ (p : Program) (f : Frozen),
    Program.after { name := "p" } copiedRun = some p ∧ f.program = p ∧
    (∃ text, p.EsRefuses ⟨0⟩ text) ∧ (∃ text, p.WgslRefuses ⟨0⟩ text) ∧
    ∀ o out, ((Glsl.backend .es).compile f o).result ≠ .ok out ∧
      (Wgsl.backend.compile f o).result ≠ .ok out := by
  obtain ⟨p, ran, passed, used, at_⟩ := copiedRuns
  have reachable := (Reachable.new "p").after ran
  obtain ⟨each, compiled⟩ := imagesAgree reachable
  have image := (reachableBuilt reachable).image at_ rfl used
  obtain ⟨_, _, again, -, mixed, agree⟩ := each _ _ image.texture
  obtain ⟨rfl, -, rfl⟩ := image.unique again
  have sized : Storage.Sized ⟨.d2, .vector .four .float⟩ := ⟨4, .float, rfl, by decide, rfl, rfl⟩
  have wgsl := (mixed sized).mpr ⟨by decide, rfl, rfl⟩
  have es := (agree.mp wgsl).1
  let f : Frozen := ⟨p, _, passed⟩
  refine ⟨p, f, ran, rfl, es, wgsl, fun o out => ?_⟩
  obtain ⟨-, -, esLacks, wgslLacks⟩ := compiled f rfl o
  obtain ⟨_, esRefuses⟩ := es
  obtain ⟨_, wgslRefuses⟩ := wgsl
  exact ⟨esLacks _ _ esRefuses out, wgslLacks _ _ wgslRefuses out⟩

def idleRun : List Call :=
  [.addCompute ⟨1, 1, 1⟩, .uniform "image" (.storage ⟨.d2, .vector .four .float⟩)]

theorem idleRuns : ∃ p, Program.after { name := "p" } idleRun = some p ∧ p.check = .ok [] ∧
    p.uniforms = [⟨0⟩] ∧ p.storageUsage ⟨0⟩ = .ok ⟨false, false⟩ ∧
    p.vars.get? ⟨0⟩ =
      some ⟨"image", .storage ⟨.d2, .vector .four .float⟩, .uniform, none, none, 0⟩ :=
  ⟨_, rfl, rfl, rfl, rfl, rfl⟩

theorem idleStopped : (Program.after { name := "p" } idleRun).map (fun p =>
    (Wgsl.backend.stop? p {}, (Glsl.backend .es).stop? p { version := .es310 })) =
    some (none,
      some (.refused (.unsupported "read-write rgba32f image in GLSL ES (image)"))) := by
  decide +kernel

theorem idleImageRefused : ∃ (f : Frozen) (t : Storage) (usage : Usage),
    Program.after { name := "p" } idleRun = some f.program ∧ Reachable f.program ∧
    (∀ v u, f.program.Uniform v (.storage u) → u.Sized) ∧ f.program.Image ⟨0⟩ "image" t usage ∧
    usage.loads = false ∧ usage.stores = false ∧
    ((Glsl.backend .es).compile f { version := .es310 }).result =
      .error (.refused (.unsupported "read-write rgba32f image in GLSL ES (image)")) ∧
    ∃ out, (Wgsl.backend.compile f {}).result = .ok out := by
  obtain ⟨p, ran, passed, uniforms, used, at_⟩ := idleRuns
  have stopped := idleStopped
  rw [ran] at stopped
  simp only [Option.map_some, Option.some.injEq, Prod.mk.injEq] at stopped
  obtain ⟨wgsl, es⟩ := stopped
  have reachable := (Reachable.new "p").after ran
  let f : Frozen := ⟨p, _, passed⟩
  refine ⟨f, _, _, ran, reachable, fun v u texture => ?_,
    (reachableBuilt reachable).image at_ rfl used, rfl, rfl, compileStops es, compiles (f := f) wgsl⟩
  obtain ⟨inside, var, there, -, ty⟩ := texture
  change v ∈ p.uniforms at inside
  rw [uniforms] at inside
  cases List.mem_singleton.mp inside
  cases at_.symm.trans there
  cases ty
  exact ⟨4, .float, rfl, by decide, rfl, rfl⟩

end

end ShaderGraph
