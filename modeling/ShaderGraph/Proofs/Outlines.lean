import ShaderGraph.Proofs.Sources
/-! Outlines of modules. The lines without a margin declare bindings, structures, module variables
and entry points, each under its name; beside them there are only the marks of entry points and
closing braces. -/
namespace ShaderGraph

open Compile

structure Wgsl.Declaration where
  lead : String
  name : String
  rest : String
  deriving DecidableEq, Repr

def Wgsl.Declaration.line (d : Declaration) : String := d.lead ++ d.name ++ d.rest

def Wgsl.Binding.declaration (b : Binding) : Declaration :=
  ⟨s!"@group(0) @binding({b.number}) var{b.space} ", b.name, s!": {b.ty};"⟩

namespace Wgsl.EntryPoint

variable (e : EntryPoint)

def structs : List String :=
  (if e.inputs.isEmpty then [] else [e.inputName]) ++ if e.hasOutput then [e.outputName] else []

def structDeclaration (name : String) : Declaration := ⟨"struct ", name, " \x7b"⟩

def memberDeclaration (m : Member) : Declaration :=
  ⟨"var<private> ", moduleName m.var, s!": {typeName m.var.ty};"⟩

def declaration : Declaration :=
  let params := if e.inputs.isEmpty then "" else "input: " ++ e.inputName
  let result := if e.hasOutput then " -> " ++ e.outputName else ""
  ⟨"fn ", s!"{e.stage.name}Main", s!"({params}){result} \x7b"⟩

def declarations : List Declaration :=
  e.structs.map structDeclaration ++ (e.inputs ++ e.outputs).map memberDeclaration ++ [e.declaration]

def outline : List String :=
  e.structs.flatMap (fun name => [(structDeclaration name).line, "\x7d"]) ++
    (e.inputs ++ e.outputs).map moduleVar ++ [e.mark, e.header, "\x7d"]

end Wgsl.EntryPoint

namespace Wgsl.Module

variable (m : Module)

def declarations : List Declaration :=
  m.bindings.map Binding.declaration ++ m.entryPoints.flatMap EntryPoint.declarations

def outline : List String :=
  m.bindings.map Binding.line ++ m.entryPoints.flatMap EntryPoint.outline

end Wgsl.Module

def bindsLine (line : List Char) : Bool := "@group(0)".toList.isPrefixOf line

def declaresLine (line : List Char) : Bool :=
  bindsLine line || ["struct ", "var<private> ", "fn "].any fun word => word.toList.isPrefixOf line

section

variable {p : Program}

def Starts (start text : String) : Prop := start.toList <+: text.toList

theorem Starts.refl (start : String) : Starts start start := List.prefix_rfl

theorem Starts.append {start text rest : String} (starts : Starts start text) :
    Starts start (text ++ rest) := by
  unfold Starts
  rw [String.toList_append]
  exact starts.trans (List.prefix_append _ _)

theorem Starts.holds {start word text : String} (starts : Starts start text)
    (begun : word.toList <+: start.toList) : word.toList.isPrefixOf text.toList = true :=
  List.isPrefixOf_iff_prefix.mpr (begun.trans starts)

theorem Starts.apart {start word text : String} (starts : Starts start text)
    (apart : word.toList.isPrefixOf start.toList = false ∧ start.toList.isPrefixOf word.toList = false) :
    word.toList.isPrefixOf text.toList = false := by
  rw [Bool.eq_false_iff]
  intro begins
  rcases List.prefix_or_prefix_of_prefix (List.isPrefixOf_iff_prefix.mp begins) starts with within | beyond
  · exact Bool.eq_false_iff.mp apart.1 (List.isPrefixOf_iff_prefix.mpr within)
  · exact Bool.eq_false_iff.mp apart.2 (List.isPrefixOf_iff_prefix.mpr beyond)

theorem Wgsl.Declaration.starts (d : Wgsl.Declaration) : Starts d.lead d.line :=
  .append (.append (.refl _))

theorem Wgsl.Declaration.declares {d : Wgsl.Declaration}
    (keyword : d.lead ∈ ["struct ", "var<private> ", "fn "]) :
    bindsLine d.line.toList = false ∧ declaresLine d.line.toList = true := by
  have declares : declaresLine d.line.toList = true :=
    Bool.or_eq_true_iff.mpr (.inr (List.any_eq_true.mpr ⟨_, keyword, d.starts.holds List.prefix_rfl⟩))
  refine ⟨d.starts.apart ?_, declares⟩
  simp only [List.mem_cons, List.not_mem_nil, or_false] at keyword
  rcases keyword with lead | lead | lead <;> rw [lead] <;> decide

theorem bindingBinds (b : Wgsl.Binding) : bindsLine b.line.toList = true := by
  have starts : Starts "@group(0) @binding(" b.line :=
    .append (.append (.append (.append (.append (.append (.append (.append (.refl _))))))))
  have begun : "@group(0)".toList <+: "@group(0) @binding(".toList := by decide
  exact List.isPrefixOf_iff_prefix.mpr (begun.trans starts)

theorem bindingDeclares (b : Wgsl.Binding) : declaresLine b.line.toList = true := by
  unfold declaresLine
  rw [bindingBinds, Bool.true_or]

theorem bindingLine (b : Wgsl.Binding) : b.line = b.declaration.line := by
  unfold Wgsl.Binding.line Wgsl.Declaration.line Wgsl.Binding.declaration
  generalize toString b.number = number
  simp only [String.append_assoc]
  rfl

namespace Wgsl.EntryPoint

variable (e : EntryPoint)

theorem memberLine (m : Member) : moduleVar m = (memberDeclaration m).line := by
  simp [moduleVar, Declaration.line, memberDeclaration, String.append_assoc]

theorem headerLine : e.header = e.declaration.line := by
  have word : "Main(" = "Main" ++ "(" := by decide
  unfold header Declaration.line declaration
  rw [word]
  simp only [String.append_assoc]
  rfl

theorem keywords : ∀ d ∈ e.declarations, d.lead ∈ ["struct ", "var<private> ", "fn "] := by
  simp only [declarations, List.mem_append, List.mem_map, List.mem_singleton]
  rintro d ((⟨name, -, rfl⟩ | ⟨m, -, rfl⟩) | rfl)
  · exact List.mem_cons_self
  · exact .tail _ List.mem_cons_self
  · exact .tail _ (.tail _ List.mem_cons_self)

theorem markQuiet : declaresLine e.mark.toList = false := by
  unfold mark
  split
  · rename_i w _
    have starts : Starts "@compute @workgroup_size(" s!"@compute @workgroup_size({w.x}, {w.y}, {w.z})" :=
      .append (.append (.append (.append (.append (.append (.refl _))))))
    have words : ∀ word ∈ ["struct ", "var<private> ", "fn "],
        ¬ word.toList.isPrefixOf (s!"@compute @workgroup_size({w.x}, {w.y}, {w.z})").toList = true := by
      simp only [List.forall_mem_cons, List.not_mem_nil, false_imp_iff, implies_true, and_true,
        Bool.not_eq_true]
      exact ⟨starts.apart (by decide), starts.apart (by decide), starts.apart (by decide)⟩
    exact Bool.or_eq_false_iff.mpr ⟨starts.apart (by decide), List.any_eq_false.mpr words⟩
  · cases e.stage <;> decide

theorem outlineDeclares : e.outline.filter (fun text => declaresLine text.toList) =
    e.declarations.map Declaration.line := by
  have kept (d : Declaration) (inside : d ∈ e.declarations) : declaresLine d.line.toList = true :=
    (Declaration.declares (e.keywords d inside)).2
  have brace : declaresLine "\x7d".toList = false := by decide
  rw [declarations, List.forall_mem_append, List.forall_mem_append, List.forall_mem_map,
    List.forall_mem_map, List.forall_mem_singleton] at kept
  obtain ⟨⟨structs, members⟩, entry⟩ := kept
  have structLines : (e.structs.flatMap fun name => [(structDeclaration name).line, "\x7d"]).filter
      (fun text => declaresLine text.toList) = e.structs.map (Declaration.line ∘ structDeclaration) := by
    generalize e.structs = names at structs
    induction names with
    | nil => rfl
    | cons name rest ih =>
      obtain ⟨own, later⟩ := List.forall_mem_cons.mp structs
      rw [List.flatMap_cons, List.filter_append, ih later, List.filter_cons, if_pos own, List.filter_cons,
        if_neg (Bool.eq_false_iff.mp brace)]
      rfl
  have memberLines : ((e.inputs ++ e.outputs).map moduleVar).filter (fun text => declaresLine text.toList) =
      (e.inputs ++ e.outputs).map (Declaration.line ∘ memberDeclaration) := by
    rw [List.filter_eq_self.mpr (List.forall_mem_map.mpr fun m inside => memberLine m ▸ members m inside)]
    exact List.map_congr_left fun m _ => memberLine m
  rw [outline, List.filter_append, List.filter_append, structLines, memberLines, headerLine]
  rw [List.filter_cons, if_neg (Bool.eq_false_iff.mp e.markQuiet), List.filter_cons, if_pos entry,
    List.filter_cons, if_neg (Bool.eq_false_iff.mp brace), declarations]
  simp only [List.map_append, List.map_map]
  rfl

end Wgsl.EntryPoint
structure Listing.Outlined (items : Listing) (texts : List String) : Prop where
  level : items.reached 0 = 0
  outer : items.flush 0 = texts

namespace Listing.Outlined

variable {items more : Listing} {texts others : List String}

theorem done : Listing.Outlined [] [] := ⟨rfl, rfl⟩

theorem append (first : items.Outlined texts) (second : more.Outlined others) :
    (items ++ more).Outlined (texts ++ others) where
  level := by rw [reachedAppend, first.level, second.level]
  outer := by rw [flushAppend, first.level, first.outer, second.outer]

theorem line (text : String) (rest : items.Outlined texts) :
    Listing.Outlined (.line text :: items) (text :: texts) :=
  ⟨rest.level, congrArg (text :: ·) rest.outer⟩

theorem blank (rest : items.Outlined texts) : Listing.Outlined (.blank :: items) texts :=
  ⟨rest.level, rest.outer⟩

theorem lines : ∀ texts : List String, Listing.Outlined (texts.map .line) texts
  | [] => done
  | text :: rest => (lines rest).line text

theorem nested (steady : items.Steady) : (Listing.nested items).Outlined [] where
  level := steady.nested.level 0
  outer := by
    change Listing.flush 1 (items ++ [.dedent]) = []
    rw [flushAppend, steady.level, steady.within]
    rfl

theorem flatten {α : Type} {listing : α → Listing} {outline : α → List String} {as : List α}
    (each : ∀ a ∈ as, (listing a).Outlined (outline a)) :
    Listing.Outlined (as.map listing).flatten (as.flatMap outline) := by
  induction as with
  | nil => exact done
  | cons a rest ih =>
    exact (each a List.mem_cons_self).append (ih fun b inside => each b (.tail _ inside))

end Listing.Outlined

namespace Wgsl.EntryPoint

theorem structOutlined (name : String) (texts : List String) :
    (structLines name texts).Outlined [(structDeclaration name).line, "\x7d"] :=
  .append (.line _ (.nested (.lines texts))) (.line _ (.blank .done))

theorem outlined {e : EntryPoint} (steady : e.body.Steady) : e.listing.Outlined e.outline := by
  have inputStruct : e.inputStruct.Outlined ((if e.inputs.isEmpty then [] else [e.inputName]).flatMap
      fun name => [(structDeclaration name).line, "\x7d"]) := by
    unfold inputStruct
    split
    · exact .done
    · exact structOutlined _ _
  have outputStruct : e.outputStruct.Outlined ((if e.hasOutput then [e.outputName] else []).flatMap
      fun name => [(structDeclaration name).line, "\x7d"]) := by
    unfold outputStruct
    split
    · exact structOutlined _ _
    · exact .done
  have moduleVars : e.moduleVars.Outlined ((e.inputs ++ e.outputs).map moduleVar) := by
    unfold moduleVars
    dsimp only
    split
    · rename_i empty
      rw [List.isEmpty_iff.mp empty]
      exact .done
    · rw [← List.map_map]
      simpa using (Listing.Outlined.lines ((e.inputs ++ e.outputs).map moduleVar)).append (.blank .done)
  have copies : Listing.Steady (e.inputs.map (.line ∘ copyIn)) := by
    rw [← List.map_map]
    exact .lines _
  have epilogue : e.epilogue.Steady := by
    unfold epilogue
    split
    · rw [← List.map_map]
      refine .line _ (.append (.append ?_ (.lines _)) (.lines [_]))
      split
      · exact .lines [_]
      · exact .lines []
    · exact .lines []
  simpa [listing, outline, structs] using ((inputStruct.append outputStruct).append moduleVars).append
    (.line e.mark (.line e.header ((Listing.Outlined.nested ((copies.append steady).append epilogue)).append
      (.line "\x7d" (.blank .done)))))

end Wgsl.EntryPoint

theorem moduleOutlined {o : Options} {m : Wgsl.Module} {r t : Report}
    (ran : Wgsl.Module.ofProgram p o r = .ok m t) : m.listing.Outlined m.outline := by
  refine .append ?_ (.flatten fun e inside => ?_)
  · split
    · rename_i empty
      rw [List.isEmpty_iff.mp empty]
      exact .done
    · rw [← List.map_map]
      simpa using (Listing.Outlined.lines (m.bindings.map Wgsl.Binding.line)).append (.blank .done)
  · obtain ⟨stage, -, -, _, _, made⟩ := pairedSource (wgslModuleOk ran).2 inside
    obtain ⟨-, -, -, ⟨_, emitted⟩, -⟩ := wgslEntryOk made
    exact Wgsl.EntryPoint.outlined (scopeSteady (Wgsl.steady stage.kind) emitted)

namespace Wgsl.Module

variable (m : Module)

theorem outlineDeclares : m.outline.filter (fun text => declaresLine text.toList) =
    m.declarations.map Declaration.line := by
  have declared : (m.bindings.map Binding.line).filter (fun text => declaresLine text.toList) =
      m.bindings.map Binding.line :=
    List.filter_eq_self.mpr (List.forall_mem_map.mpr fun b _ => bindingDeclares b)
  rw [outline, List.filter_append, declared, List.filter_flatMap, declarations, List.map_append,
    List.map_map, List.map_flatMap, List.map_congr_left fun b _ => bindingLine b]
  exact congrArg (_ ++ ·) (List.flatMap_congr fun e _ => e.outlineDeclares)

end Wgsl.Module

theorem flushPasses {test : List Char → Bool} (empty : test [] = false)
    (inset : ∀ line, test (' ' :: line) = false) (items : Listing) (level : Nat) :
    (Listing.lines level items).filter test =
      ((items.flush level).filter fun text => test text.toList).map String.toList := by
  induction items generalizing level with
  | nil => rfl
  | cons item rest ih =>
    cases item with
    | line text =>
      cases level with
      | zero =>
        have bare : (Writer.margin 0).toList ++ text.toList = text.toList := rfl
        rw [Listing.lines, Listing.flush, bare, List.filter_cons, List.filter_cons, ih]
        split <;> rfl
      | succ level =>
        have margined : test ((Writer.margin (level + 1)).toList ++ text.toList) = false := by
          rw [marginText, Nat.mul_succ, List.replicate_succ]
          exact inset _
        rw [Listing.lines, Listing.flush, List.filter_cons, margined, ih]
        rfl
    | blank => 
      rw [Listing.lines, List.filter_cons, empty]
      cases level <;> exact ih _
    | indent | dedent => cases level <;> exact ih _

end
end ShaderGraph
