import ShaderGraph.Proofs.Generation
import ShaderGraph.Proofs.Reach
/-! What remarks do to the text of a program. A walk that writes remarks and one that does not
take the same steps and end alike; the text of the first is that of the second with lines put in,
and each of these lines is a remark. -/
namespace ShaderGraph

inductive Inserted {α : Type} (extra : α → Prop) : List α → List α → Prop
  | done : Inserted extra [] []
  | keep {a : α} {l m : List α} (rest : Inserted extra l m) : Inserted extra (a :: l) (a :: m)
  | insert {a : α} {l m : List α} (added : extra a) (rest : Inserted extra l m) :
      Inserted extra (a :: l) m

namespace Inserted

variable {α : Type} {extra : α → Prop} {l m k n : List α}

theorem refl (l : List α) : Inserted extra l l := by
  induction l with
  | nil => exact .done
  | cons a rest ih => exact .keep ih

theorem append (first : Inserted extra l m) (second : Inserted extra k n) :
    Inserted extra (l ++ k) (m ++ n) := by
  induction first with
  | done => exact second
  | keep _ ih => exact .keep ih
  | insert added _ ih => exact .insert added ih

theorem all (added : ∀ a ∈ l, extra a) : Inserted extra l [] := by
  induction l with
  | nil => exact .done
  | cons a rest ih =>
    exact .insert (added a List.mem_cons_self) (ih fun b inside => added b (.tail a inside))

theorem flatten {ls ms : List (List α)} (each : List.Forall₂ (Inserted extra) ls ms) :
    Inserted extra ls.flatten ms.flatten := by
  induction each with
  | nil => exact .done
  | cons one _ ih => exact one.append ih

end Inserted

section Mirrors

variable {ε σ α β γ δ : Type}

inductive Alike (related : α → β → Prop) : EStateM.Result ε σ α → EStateM.Result ε σ β → Prop
  | ok {a : α} {b : β} {s : σ} (same : related a b) : Alike related (.ok a s) (.ok b s)
  | error {e : ε} {s : σ} : Alike related (.error e s) (.error e s)

def Mirrors (related : α → β → Prop) (x : EStateM ε σ α) (y : EStateM ε σ β) : Prop :=
  ∀ s, Alike related (x s) (y s)

namespace Mirrors

variable {related : α → β → Prop} {later : γ → δ → Prop}

theorem pure {a : α} {b : β} (same : related a b) :
    Mirrors related (Pure.pure a : EStateM ε σ α) (Pure.pure b) := fun _ => .ok same

theorem bind {x : EStateM ε σ α} {y : EStateM ε σ β} {f : α → EStateM ε σ γ} {g : β → EStateM ε σ δ}
    (first : Mirrors related x y) (second : ∀ a b, related a b → Mirrors later (f a) (g b)) :
    Mirrors later (x >>= f) (y >>= g) := by
  intro s
  change Alike later (EStateM.bind x f s) (EStateM.bind y g s)
  have ends := first s
  unfold EStateM.bind
  generalize x s = one at ends ⊢
  generalize y s = two at ends ⊢
  cases ends with
  | ok same => exact second _ _ same _
  | error => exact .error

theorem refl (x : EStateM ε σ α) : Mirrors Eq x x := by
  intro s
  cases x s with
  | ok => exact .ok rfl
  | error => exact .error

theorem after {x : EStateM ε σ α} {f : α → EStateM ε σ γ} {g : α → EStateM ε σ δ}
    (second : ∀ a, Mirrors later (f a) (g a)) : Mirrors later (x >>= f) (x >>= g) :=
  bind (refl x) fun a _ same => same ▸ second a

theorem mapM {f : α → EStateM ε σ γ} {g : α → EStateM ε σ δ} {l : List α}
    (each : ∀ a ∈ l, Mirrors later (f a) (g a)) :
    Mirrors (List.Forall₂ later) (l.mapM f) (l.mapM g) := by
  induction l with
  | nil => exact pure .nil
  | cons a rest ih =>
    rw [List.mapM_cons, List.mapM_cons]
    have more := ih fun b inside => each b (.tail a inside)
    exact bind (each a List.mem_cons_self) fun _ _ one => bind more fun _ _ others =>
      pure (.cons one others)

theorem ite {c : Prop} [Decidable c] {x z : EStateM ε σ α} {y w : EStateM ε σ β}
    (yes : Mirrors related x y) (no : Mirrors related z w) :
    Mirrors related (if c then x else z) (if c then y else w) := by
  split
  · exact yes
  · exact no

theorem refuse {why : Refusal} :
    Mirrors (α := α) (β := β) related (Compile.refuse why) (Compile.refuse why) := fun _ => .error

theorem walk {x : Emit α} {y : Emit β} (mirrors : Mirrors related x y) :
    Mirrors related (Compile.walk x) (Compile.walk y) := by
  intro r
  have ends := mirrors {}
  unfold Compile.walk
  generalize x {} = one at ends ⊢
  generalize y {} = two at ends ⊢
  cases ends with
  | ok same => exact .ok same
  | error => exact .error

end Mirrors

end Mirrors

def Remark (text : List Char) : Prop :=
  "// deps: ".toList <+: text ∨ "// block ".toList <+: text

def Item.Remark (item : Item) : Prop :=
  ∃ text, item = .line text ∧ ShaderGraph.Remark text.toList ∧ '\n' ∉ text.toList

structure Program.Unbroken (p : Program) : Prop where
  vars : ∀ v var, p.vars.get? v = some var → '\n' ∉ var.name.toList
  blocks : ∀ b block, p.blocks.get? b = some block → '\n' ∉ block.name.toList

section

variable {p : Program} {d : Dialect}

theorem notInIntercalate {α : Type} {a : α} {between : List α} {ls : List (List α)}
    (outside : a ∉ between) (each : ∀ l ∈ ls, a ∉ l) : a ∉ between.intercalate ls := by
  induction ls with
  | nil => exact List.not_mem_nil
  | cons l rest ih =>
    cases rest with
    | nil => simpa [List.intercalate] using each l List.mem_cons_self
    | cons m others =>
      have later := ih fun k inside => each k (.tail l inside)
      simp only [List.intercalate, List.intersperse_cons_cons, List.flatten_cons, List.mem_append,
        not_or] at later ⊢
      exact ⟨each l List.mem_cons_self, outside, later⟩

theorem stampAvoids {c : Char} (plain : c.isDigit = false) (apart : c ≠ '@')
    (outside : ∀ v var, p.vars.get? v = some var → c ∉ var.name.toList) {s : Stamp} {text : String}
    (made : p.stampText s = .ok text) : c ∉ text.toList := by
  simp only [Program.stampText, Outcome.bindOk, Outcome.pureOk, Arena.fetchOk] at made
  obtain ⟨var, at_, rfl⟩ := made
  change c ∉ (var.name ++ "@" ++ s.mutation.toNat.repr).toList
  rw [String.toList_append, String.toList_append, Nat.toList_repr, List.mem_append, List.mem_append,
    not_or, not_or]
  refine ⟨⟨outside _ _ at_, fun inside => apart (List.mem_singleton.mp inside)⟩, fun inside => ?_⟩
  have digit := Nat.isDigit_of_mem_toDigits (by decide) (by decide) inside
  rw [plain] at digit
  cases digit

theorem stampsAvoid {c : Char} (plain : c.isDigit = false) (apart : c ≠ '@') (between : c ∉ ", ".toList)
    (outside : ∀ v var, p.vars.get? v = some var → c ∉ var.name.toList) {set : Stamps} {text : String}
    (made : p.stampsText set = .ok text) : c ∉ text.toList := by
  simp only [Program.stampsText, Outcome.bindOk, Outcome.pureOk] at made
  obtain ⟨texts, each, rfl⟩ := made
  rw [String.toList_intercalate]
  refine notInIntercalate between fun l inside => ?_
  obtain ⟨t, there, rfl⟩ := List.mem_map.mp inside
  obtain ⟨s, -, written⟩ := Outcome.mapMSource each there
  exact stampAvoids plain apart outside written

theorem begunRemark {start text : String} (begins : start = "// deps: " ∨ start = "// block ")
    (whole : '\n' ∉ text.toList) : Item.Remark (.line (start ++ text)) := by
  refine ⟨_, rfl, ?_, ?_⟩ <;> rw [String.toList_append]
  · rcases begins with rfl | rfl
    · exact .inl (List.prefix_append ..)
    · exact .inr (List.prefix_append ..)
  · rw [List.mem_append, not_or]
    refine ⟨?_, whole⟩
    rcases begins with rfl | rfl <;> decide

theorem remarks (unbroken : p.Unbroken) {reads : Stamps} (stamped : p.Stamped reads) :
    ∃ lines, Emit.readsRemark p true reads = .ok lines ∧ ∀ item ∈ lines, item.Remark := by
  obtain ⟨text, made⟩ := stampsTextOk stamped
  unfold Emit.readsRemark
  split
  · refine ⟨[.line ("// deps: " ++ text)], ?_, ?_⟩
    · simp only [made, Bind.bind, Except.bind]
      rfl
    · intro item inside
      rw [List.mem_singleton.mp inside]
      exact begunRemark (.inl rfl) (stampsAvoid (by decide) (by decide) (by decide) unbroken.vars made)
  · exact ⟨[], rfl, fun _ none => by cases none⟩

theorem Inserted.nested {l m : Listing} (inserted : Inserted Item.Remark l m) :
    Inserted Item.Remark (Listing.nested l) (Listing.nested m) :=
  .keep (inserted.append (.refl _))

theorem Mirrors.remark {α β : Type} {related : α → β → Prop} {x y : Outcome Listing}
    {f : Listing → Emit α} {g : Listing → Emit β} {a b : Listing} (one : x = .ok a) (two : y = .ok b)
    (second : Mirrors related (f a) (g b)) : Mirrors related (liftM x >>= f) (liftM y >>= g) := by
  subst one two
  exact second

theorem Built.bodyMirrors (built : Built p) (unbroken : p.Unbroken) {l : List StmtId} {body : Body}
    (laid : Laid p l body) : ∀ stage, Mirrors (Inserted Item.Remark)
      (Emit.body p d true stage body) (Emit.body p d false stage body) := by
  have remark {s : StmtId} {node : Statement} (at_ : p.stmts.get? s = some node) :
      ∃ lines, Emit.readsRemark p true node.reads = .ok lines ∧ ∀ item ∈ lines, item.Remark :=
    remarks unbroken (built.stamped at_)
  induction laid with
  | done => exact fun _ => .pure .done
  | act at_ kind _ next =>
    intro stage
    obtain ⟨lines, made, added⟩ := remark at_
    refine .remark made rfl (.after fun own => .after fun _ => ?_)
    exact .bind (next stage) fun _ _ rest => .pure (((Inserted.all added).append (.refl own)).append rest)
  | branch at_ kind yesAt noAt _ _ _ inYes inNo next =>
    intro stage
    obtain ⟨lines, made, added⟩ := remark at_
    refine .remark made rfl (.after fun c => .after fun _ => ?_)
    refine .bind (inYes _) fun _ _ yes => .after fun _ => .bind (inNo _) fun _ _ no => ?_
    refine .after fun _ => .bind (next stage) fun _ _ rest => .pure ?_
    refine (((Inserted.all added).append (.keep yes.nested)).append ?_).append (.keep rest)
    split
    · exact .done
    · exact .keep no.nested
  | loop at_ kind homeAt _ _ inside next =>
    intro stage
    obtain ⟨lines, made, added⟩ := remark at_
    refine .remark made rfl (.after fun first => .after fun last => .after fun var => ?_)
    refine .after fun _ => .bind (inside _) fun _ _ inner => .after fun _ => ?_
    refine .bind (next stage) fun _ _ rest => .pure ?_
    exact ((Inserted.all added).append (.keep inner.nested)).append (.keep rest)
  | @block _ _ _ block _ _ _ _ at_ kind blockAt homeAt _ _ inside next =>
    intro stage
    obtain ⟨lines, made, added⟩ := remark at_
    refine .remark made rfl (.after fun _ => .after fun _ => .after fun _ => ?_)
    refine .bind (inside _) fun _ _ inner => .after fun _ => ?_
    refine .bind (next stage) fun _ _ rest => .pure ?_
    have named : Item.Remark (.line s!"// block {block.name}") :=
      begunRemark (.inr rfl) (unbroken.blocks _ _ blockAt)
    exact (((Inserted.all added).append (.insert named .done)).append (.keep inner.nested)).append
      (.keep rest)

theorem Built.scopeMirrors (built : Built p) (unbroken : p.Unbroken) {stage : Stage}
    (inside : stage ∈ p.stages) : Mirrors (Inserted Item.Remark)
      (Emit.scope p d true stage.main) (Emit.scope p d false stage.main) := by
  obtain ⟨home, homeAt, -⟩ := built.forest.mains inside
  obtain ⟨body, laidOut, laid⟩ := built.forest.body homeAt
  simp only [Emit.scope, Arena.fetchOfGet homeAt, laidOut]
  exact built.bodyMirrors unbroken laid home.stage

def RemarkLine (line : List Char) : Prop := Remark (line.dropWhile (· == ' '))

def textLines (text : String) : List (List Char) := text.toList.splitOn '\n'

def Listing.written : Nat → Listing → List Char
  | _, [] => []
  | level, .line text :: rest => (Writer.written level text).toList ++ written level rest
  | level, .blank :: rest => '\n' :: written level rest
  | level, .indent :: rest => written (level + 1) rest
  | level, .dedent :: rest => written (level - 1) rest

theorem writeText (w : Writer) (items : Listing) :
    (w.write items).text.toList = w.text.toList ++ Listing.written w.level items := by
  induction items generalizing w with
  | nil => simp [Writer.write, Listing.written]
  | cons item rest ih =>
    have later := ih (w.put item)
    rw [Writer.write, List.foldl_cons]
    refine later.trans ?_
    cases item <;> simp [Writer.put, Listing.written]

theorem marginSpaces (level : Nat) : ∀ c ∈ (Writer.margin level).toList, c = ' ' := by
  induction level with
  | zero => exact fun c none => by cases none
  | succ n ih =>
    intro c inside
    rw [Writer.margin, String.toList_append, List.mem_append] at inside
    rcases inside with here | deeper
    · have spaces : "    ".toList = List.replicate 4 ' ' := by decide
      exact List.eq_of_mem_replicate (spaces ▸ here)
    · exact ih c deeper

theorem splitEnded (front rest : List Char) :
    (front ++ '\n' :: rest).splitOn '\n' = front.splitOn '\n' ++ rest.splitOn '\n' :=
  List.splitOnP_append_cons _ _ (by decide)

theorem splitLine {line : List Char} (whole : '\n' ∉ line) (rest : List Char) :
    (line ++ '\n' :: rest).splitOn '\n' = line :: rest.splitOn '\n' := by
  refine List.splitOnP_append_cons_of_forall_mem (fun c inside => ?_) _ (by decide) _
  exact beq_eq_false_iff_ne.mpr fun same => whole (same ▸ inside)

theorem writtenEnded (level : Nat) (text : String) :
    ∃ front, (Writer.written level text).toList = front ++ ['\n'] := by
  unfold Writer.written
  split
  · exact ⟨[], rfl⟩
  · exact ⟨_, String.toList_append⟩

theorem writtenRemark {text : String} (remark : Remark text.toList) (level : Nat) :
    (Writer.written level text).toList = (Writer.margin level).toList ++ text.toList ++ ['\n'] ∧
      RemarkLine ((Writer.margin level).toList ++ text.toList) := by
  have begins : ∃ rest, text.toList = '/' :: rest := by
    rcases remark with ⟨rest, same⟩ | ⟨rest, same⟩ <;> exact ⟨_, same.symm⟩
  obtain ⟨rest, code⟩ := begins
  constructor
  · have full : text.isEmpty = false := by
      rw [Bool.eq_false_iff, ne_eq, String.isEmpty_iff]
      rintro rfl
      cases code
    rw [Writer.written, full, if_neg Bool.false_ne_true, String.toList_append, String.toList_append]
    rfl
  · have dropped : ((Writer.margin level).toList ++ text.toList).dropWhile (· == ' ') = text.toList := by
      rw [List.dropWhile_append_of_pos fun c inside => beq_iff_eq.mpr (marginSpaces level c inside)]
      rw [code]
      rfl
    rw [RemarkLine, dropped]
    exact remark

theorem Inserted.lines {l m : Listing} (inserted : Inserted Item.Remark l m) (level : Nat) :
    Inserted RemarkLine ((Listing.written level l).splitOn '\n')
      ((Listing.written level m).splitOn '\n') := by
  induction inserted generalizing level with
  | done => exact .refl _
  | @keep item l m _ ih =>
    cases item with
    | line text =>
      obtain ⟨front, ended⟩ := writtenEnded level text
      simp only [Listing.written, ended, List.append_assoc, List.singleton_append, splitEnded]
      exact (refl _).append (ih level)
    | blank =>
      have first (rest : List Char) := splitEnded [] rest
      simp only [Listing.written, List.nil_append] at first ⊢
      rw [first, first]
      exact (refl _).append (ih level)
    | indent => exact ih (level + 1)
    | dedent => exact ih (level - 1)
  | insert added _ ih =>
    obtain ⟨text, rfl, remark, whole⟩ := added
    obtain ⟨written, marked⟩ := writtenRemark remark level
    have one : '\n' ∉ (Writer.margin level).toList ++ text.toList := by
      rw [List.mem_append, not_or]
      exact ⟨fun inside => absurd (marginSpaces level _ inside) (by decide), whole⟩
    rw [Listing.written, written, List.append_assoc, List.singleton_append, splitLine one]
    exact .insert marked (ih level)

theorem Inserted.text {l m : Listing} (inserted : Inserted Item.Remark l m) :
    Inserted RemarkLine (textLines l.text) (textLines m.text) := by
  unfold textLines Listing.text
  rw [writeText, writeText]
  exact inserted.lines 0

def Options.marked (o : Options) (annotate : Bool) : Options := { o with annotate }

structure OutputFile.Annotates (a b : OutputFile) : Prop where
  name : a.name = b.name
  stage : a.stage = b.stage
  lines : Inserted RemarkLine (textLines a.source) (textLines b.source)

variable {o : Options}

theorem uniformLinesMarked (version : GlslVersion) (annotate : Bool) (vs : List VarId) :
    Glsl.uniformLines p version (o.marked annotate) vs = Glsl.uniformLines p version o vs := by
  induction vs with
  | nil => rfl
  | cons v rest ih =>
    simp only [Glsl.uniformLines, ih]
    rfl

theorem Built.shaderMirrors (built : Built p) (unbroken : p.Unbroken) (version : GlslVersion)
    {stage : Stage} (inside : stage ∈ p.stages) : Mirrors (Inserted Item.Remark)
      (Glsl.shader p version (o.marked true) stage) (Glsl.shader p version (o.marked false) stage) := by
  unfold Glsl.shader
  rw [uniformLinesMarked, uniformLinesMarked]
  refine .after fun _ => .after fun _ => .after fun _ => .after fun _ => ?_
  refine .bind (.walk (built.scopeMirrors unbroken inside)) fun _ _ same => .pure ?_
  exact ((Inserted.refl _).append (.keep (.keep same.nested))).append (.refl _)

theorem Built.glslMirrors (built : Built p) (unbroken : p.Unbroken) (flavor : Glsl.Flavor) :
    Mirrors (List.Forall₂ OutputFile.Annotates) (Glsl.files flavor p (o.marked true))
      (Glsl.files flavor p (o.marked false)) := by
  unfold Glsl.files
  refine .ite .refuse (.after fun version => .mapM fun stage inside => ?_)
  have rest : Mirrors OutputFile.Annotates (Glsl.settled p version (o.marked true) stage)
      (Glsl.settled p version (o.marked false) stage) :=
    .bind (built.shaderMirrors unbroken version inside) fun _ _ same => .after fun _ =>
      .pure ⟨rfl, rfl, same.text⟩
  exact .after fun _ => .ite (.after fun _ => rest) rest

structure Wgsl.EntryPoint.Annotates (e g : Wgsl.EntryPoint) : Prop where
  rest : e = { g with body := e.body }
  body : Inserted Item.Remark e.body g.body

theorem Wgsl.EntryPoint.Annotates.listing {e g : Wgsl.EntryPoint} (same : e.Annotates g) :
    Inserted Item.Remark e.listing g.listing := by
  obtain ⟨rest, body⟩ := same
  rw [rest]
  exact ((Inserted.refl _).append (((Inserted.refl _).append body).append (.refl _)).nested).append
    (.refl _)

structure Wgsl.Module.Annotates (m n : Wgsl.Module) : Prop where
  bindings : m.bindings = n.bindings
  entryPoints : List.Forall₂ EntryPoint.Annotates m.entryPoints n.entryPoints

theorem Wgsl.Module.Annotates.listing {m n : Wgsl.Module} (same : m.Annotates n) :
    Inserted Item.Remark m.listing n.listing := by
  have entries : List.Forall₂ (Inserted Item.Remark) (m.entryPoints.map EntryPoint.listing)
      (n.entryPoints.map EntryPoint.listing) :=
    List.forall₂_map_left_iff.mpr (List.forall₂_map_right_iff.mpr
      (same.entryPoints.imp fun _ _ one => one.listing))
  rw [Wgsl.Module.listing, Wgsl.Module.listing, same.bindings]
  exact (Inserted.refl _).append (.flatten entries)

theorem Built.wgslMirrors (built : Built p) (unbroken : p.Unbroken) :
    Mirrors (List.Forall₂ OutputFile.Annotates) (Wgsl.files p (o.marked true))
      (Wgsl.files p (o.marked false)) := by
  have entry {stage : Stage} (inside : stage ∈ p.stages) : Mirrors Wgsl.EntryPoint.Annotates
      (Wgsl.entryPoint p (o.marked true) stage) (Wgsl.entryPoint p (o.marked false) stage) := by
    have rest (positioned stores : Bool) : Mirrors Wgsl.EntryPoint.Annotates
        (Wgsl.settled p (o.marked true) stage positioned stores)
        (Wgsl.settled p (o.marked false) stage positioned stores) := by
      refine .ite .refuse (.after fun _ => .after fun _ => ?_)
      exact .bind (.walk (built.scopeMirrors unbroken inside)) fun _ _ same => .after fun _ =>
        .pure ⟨rfl, same⟩
    exact .after fun positioned => .after fun stores =>
      .ite (.after fun _ => rest positioned stores) (rest positioned stores)
  have module : Mirrors Wgsl.Module.Annotates (Wgsl.Module.ofProgram p (o.marked true))
      (Wgsl.Module.ofProgram p (o.marked false)) :=
    .ite .refuse (.after fun _ => .bind (.mapM fun _ inside => entry inside) fun _ _ each =>
      .pure ⟨rfl, each⟩)
  exact .bind module fun _ _ same => .pure (.cons ⟨rfl, rfl, same.listing.text⟩ .nil)

inductive Compilation.Annotates (a b : Compilation) : Prop
  | made {marked plain : Output} (one : a.result = .ok marked) (two : b.result = .ok plain)
      (diagnostics : marked.diagnostics = plain.diagnostics)
      (files : List.Forall₂ OutputFile.Annotates marked.files plain.files)
  | stopped {why : Stop} (one : a.result = .error why) (two : b.result = .error why)

theorem compileAnnotates {b : Backend} {f : Frozen} (mirrors : Mirrors (List.Forall₂ OutputFile.Annotates)
    (b.files f.program (o.marked true)) (b.files f.program (o.marked false))) :
    (b.compile f (o.marked true)).Annotates (b.compile f (o.marked false)) := by
  have ends := mirrors {}
  unfold Backend.compile
  generalize b.files f.program (o.marked true) {} = one at ends ⊢
  generalize b.files f.program (o.marked false) {} = two at ends ⊢
  cases ends with
  | ok same => exact .made rfl rfl rfl same
  | error => exact .stopped rfl rfl

theorem annotatedAlike {f : Frozen} (reachable : Reachable f.program) (unbroken : f.program.Unbroken)
    {b : Backend} (known : b = Wgsl.backend ∨ ∃ flavor, b = Glsl.backend flavor) (o : Options) :
    (b.compile f { o with annotate := true }).Annotates
      (b.compile f { o with annotate := false }) := by
  have built := reachableBuilt reachable
  refine compileAnnotates ?_
  rcases known with rfl | ⟨flavor, rfl⟩
  · exact built.wgslMirrors unbroken
  · cases flavor with
    | desktop => exact built.glslMirrors unbroken .desktop
    | es => exact built.glslMirrors unbroken .es

def Emit.items (p : Program) (annotate : Bool) : Nat :=
  match Emit.scope p (Wgsl.dialect .fragment) annotate ⟨0⟩ {} with
  | .ok lines _ => lines.length
  | .error _ _ => 0

theorem boundRemarks : ∃ p, Program.after { name := "p" } boundRun = some p ∧ p.check = .ok [] ∧
    p.vars.nodes.toList.map Variable.name = ["v_0"] ∧
    p.blocks.nodes.toList.map Block.name = ["use_1"] ∧
    Emit.items p true = Emit.items p false + 2 :=
  ⟨_, rfl, rfl, rfl, rfl, by decide +kernel⟩

theorem annotatedAlikeBound : ∃ p f, Program.after { name := "p" } boundRun = some p ∧
    f.program = p ∧ Emit.items p true = Emit.items p false + 2 ∧
    (Wgsl.backend.compile f { annotate := true }).Annotates (Wgsl.backend.compile f {}) := by
  obtain ⟨p, ran, passed, vars, blocks, more⟩ := boundRemarks
  let f : Frozen := ⟨p, _, passed⟩
  have unbroken : p.Unbroken := by
    constructor
    · intro v var at_
      have inside := List.mem_map_of_mem (f := Variable.name) (Arena.memNodes.mpr ⟨v, at_⟩)
      rw [vars, List.mem_singleton] at inside
      rw [inside]
      decide
    · intro b block at_
      have inside := List.mem_map_of_mem (f := Block.name) (Arena.memNodes.mpr ⟨b, at_⟩)
      rw [blocks, List.mem_singleton] at inside
      rw [inside]
      decide
  have reachable := (Reachable.new "p").after ran
  exact ⟨p, f, ran, rfl, more, annotatedAlike (f := f) reachable unbroken (.inl rfl) {}⟩

end

end ShaderGraph
