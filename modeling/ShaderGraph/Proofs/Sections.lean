import ShaderGraph.Proofs.Outlines
/-! The lines of a module, all of them. First come the bindings. A stage has a section with its
structures, its module variables and its function, which copies what enters the stage before the
body and what leaves it behind the body. -/
namespace ShaderGraph

open Compile

namespace Listing

def shown : Nat → Listing → List String
  | _, [] => []
  | level, .line text :: rest =>
    (if text.isEmpty then "" else Writer.margin level ++ text) :: shown level rest
  | level, .blank :: rest => "" :: shown level rest
  | level, .indent :: rest => shown (level + 1) rest
  | level, .dedent :: rest => shown (level - 1) rest

structure Shows (level : Nat) (items : Listing) (texts : List String) : Prop where
  ends : items.reached level = level
  puts : items.shown level = texts

end Listing

namespace Wgsl

def Declaration.inset (d : Declaration) : String := "    " ++ d.line

def Member.field (m : Member) : Declaration :=
  ⟨m.mark ++ " ", m.var.name, s!": {m.wire.getD (typeName m.var.ty)},"⟩

def Member.copy (m : Member) (output : Bool) : Declaration :=
  let field := s!"input.{m.var.name}"
  let value := if m.wire.isSome then (spelling .fragment).convert m.var.ty field else field
  if output then ⟨s!"output.{m.var.name} = ", moduleName m.var, ";"⟩
  else ⟨"", moduleName m.var, s!" = {value};"⟩

namespace EntryPoint

variable (e : EntryPoint)

def members (output : Bool) : List Member := if output then e.outputs else e.inputs

def zeroField : Declaration := ⟨"@builtin(position) ", "position", ": vec4<f32>,"⟩

def zeroCopy : Declaration := ⟨"output.", "position", " = vec4<f32>(0.0);"⟩

def fields (output : Bool) : List Declaration :=
  (if output && e.positionless then [zeroField] else []) ++ (e.members output).map Member.field

def mirrors : List Declaration := (e.inputs ++ e.outputs).map memberDeclaration

def copies (output : Bool) : List Declaration := (e.members output).map (Member.copy · output)

def structOf (output : Bool) : List String :=
  if (e.fields output).isEmpty then []
  else (structDeclaration (if output then e.outputName else e.inputName)).line ::
    (e.fields output).map Declaration.inset ++ ["\x7d", ""]

def closing : List String :=
  if (e.fields true).isEmpty then []
  else s!"    var output: {e.outputName};" ::
    ((if e.positionless then [zeroCopy] else []) ++ e.copies true).map Declaration.inset ++
      ["    return output;"]

def lines : List String :=
  e.structOf false ++ e.structOf true ++
    (if e.mirrors.isEmpty then [] else e.mirrors.map Declaration.line ++ [""]) ++
    [e.mark, e.declaration.line] ++ (e.copies false).map Declaration.inset ++ e.body.shown 1 ++
    e.closing ++ ["\x7d", ""]

end EntryPoint

def Module.lines (m : Module) : List String :=
  (if m.bindings.isEmpty then [] else m.bindings.map Binding.line ++ [""]) ++
    m.entryPoints.flatMap EntryPoint.lines

end Wgsl

section

theorem shownAppend (items more : Listing) (level : Nat) :
    (items ++ more).shown level = items.shown level ++ more.shown (items.reached level) := by
  induction items generalizing level with
  | nil => rfl
  | cons item rest ih =>
    cases item with
    | line text => exact congrArg (_ :: ·) (ih level)
    | blank => exact congrArg ("" :: ·) (ih level)
    | indent => exact ih (level + 1)
    | dedent => exact ih (level - 1)

namespace Listing.Shows

variable {level : Nat} {items more : Listing} {texts others : List String}

theorem done : Shows level [] [] := ⟨rfl, rfl⟩

theorem append (first : Shows level items texts) (second : Shows level more others) :
    Shows level (items ++ more) (texts ++ others) where
  ends := by rw [reachedAppend, first.ends, second.ends]
  puts := by rw [shownAppend, first.ends, first.puts, second.puts]

theorem blank (rest : Shows level items texts) : Shows level (.blank :: items) ("" :: texts) :=
  ⟨rest.ends, congrArg ("" :: ·) rest.puts⟩

theorem line (text : String) (rest : Shows 0 items texts) :
    Shows 0 (.line text :: items) (text :: texts) where
  ends := rest.ends
  puts := by
    rw [Listing.shown, rest.puts]
    cases empty : text.isEmpty with
    | true => rw [String.isEmpty_iff.mp empty]; rfl
    | false => simp [Writer.margin]

theorem inset {text : String} (full : text ≠ "") (rest : Shows 1 items texts) :
    Shows 1 (.line text :: items) (("    " ++ text) :: texts) where
  ends := rest.ends
  puts := by
    rw [Listing.shown, rest.puts, if_neg (by rwa [String.isEmpty_iff])]
    rfl

theorem lines (texts : List String) : Shows 0 (texts.map .line) texts := by
  induction texts with
  | nil => exact done
  | cons text _ ih => exact ih.line text

theorem insets {ds : List Wgsl.Declaration} (full : ∀ d ∈ ds, d.line ≠ "") :
    Shows 1 ((ds.map Wgsl.Declaration.line).map .line) (ds.map Wgsl.Declaration.inset) := by
  induction ds with
  | nil => exact done
  | cons d rest ih =>
    obtain ⟨own, later⟩ := List.forall_mem_cons.mp full
    exact (ih later).inset own

theorem nested (inside : Shows 1 items texts) : Shows 0 (Listing.nested items) texts where
  ends := by
    change reached 1 (items ++ [.dedent]) = 0
    rw [reachedAppend, inside.ends]
    rfl
  puts := by
    change Listing.shown 1 (items ++ [.dedent]) = texts
    rw [shownAppend, inside.ends, inside.puts]
    exact List.append_nil _

theorem flatten {α : Type} {listing : α → Listing} {lines : α → List String} {as : List α}
    (each : ∀ a ∈ as, Shows 0 (listing a) (lines a)) :
    Shows 0 (as.map listing).flatten (as.flatMap lines) := by
  induction as with
  | nil => exact done
  | cons a rest ih =>
    exact (each a List.mem_cons_self).append (ih fun b inside => each b (.tail _ inside))

end Listing.Shows

namespace Wgsl

theorem endsFull (text : String) {last : String} (full : last ≠ "") : text ++ last ≠ "" := by
  intro empty
  have parts := congrArg String.length empty
  rw [String.length_append, String.length_empty] at parts
  exact full (String.length_eq_zero_iff.mp (by omega))

theorem Declaration.full {d : Declaration} (rest : d.rest ≠ "") : d.line ≠ "" := endsFull _ rest

theorem Member.fieldLine (m : Member) : m.line = m.field.line := by
  simp [Member.line, Declaration.line, Member.field, String.append_assoc]

theorem Member.copyLine (m : Member) :
    EntryPoint.copyIn m = (m.copy false).line ∧ EntryPoint.copyOut m = (m.copy true).line := by
  constructor
  · simp [EntryPoint.copyIn, Declaration.line, Member.copy, String.append_assoc]
  · simp [EntryPoint.copyOut, Declaration.line, Member.copy, String.append_assoc]

namespace EntryPoint

variable (e : EntryPoint)

theorem fieldsFull (output : Bool) : ∀ d ∈ e.fields output, d.line ≠ "" := by
  simp only [fields, List.mem_append, List.mem_map]
  rintro d (zero | ⟨m, -, rfl⟩)
  · split at zero
    · cases List.mem_singleton.mp zero
      decide
    · cases zero
  · exact Declaration.full (endsFull _ (by decide))

theorem copiesFull (output : Bool) : ∀ d ∈ e.copies output, d.line ≠ "" := by
  refine List.forall_mem_map.mpr fun m _ => Declaration.full ?_
  cases output with
  | false => exact endsFull _ (by decide)
  | true => exact (by decide : ";" ≠ "")

theorem structShows (name : String) {ds : List Declaration} (full : ∀ d ∈ ds, d.line ≠ "") :
    Listing.Shows 0 (structLines name (ds.map Declaration.line))
      ((structDeclaration name).line :: ds.map Declaration.inset ++ ["\x7d", ""]) :=
  .line _ ((Listing.Shows.nested (.insets full)).append (.line _ (.blank .done)))

theorem inputShows : Listing.Shows 0 e.inputStruct (e.structOf false) := by
  have same : e.inputs.map Member.line = (e.fields false).map Declaration.line := by
    simp [fields, members, Member.fieldLine]
  have empty : (e.fields false).isEmpty = e.inputs.isEmpty := by simp [fields, members]
  unfold inputStruct structOf
  rw [same, empty]
  split
  · exact .done
  · exact structShows _ (e.fieldsFull false)

theorem noFields : (e.fields true).isEmpty = !e.hasOutput := by
  unfold fields hasOutput members
  cases e.positionless <;> simp

theorem outputShows : Listing.Shows 0 e.outputStruct (e.structOf true) := by
  have zero : zeroField.line = "@builtin(position) position: vec4<f32>," := by decide
  have same : (if e.positionless then ["@builtin(position) position: vec4<f32>,"] else []) ++
      e.outputs.map Member.line = (e.fields true).map Declaration.line := by
    cases lacks : e.positionless <;> simp [fields, members, Member.fieldLine, lacks, zero]
  unfold outputStruct structOf
  rw [e.noFields]
  dsimp only
  rw [same]
  cases e.hasOutput with
  | false => exact .done
  | true => exact structShows _ (e.fieldsFull true)

theorem mirrorsShow : Listing.Shows 0 e.moduleVars
    (if e.mirrors.isEmpty then [] else e.mirrors.map Declaration.line ++ [""]) := by
  have same : (e.inputs ++ e.outputs).map moduleVar = e.mirrors.map Declaration.line := by
    rw [mirrors, List.map_map]
    exact List.map_congr_left fun m _ => memberLine m
  have empty : e.mirrors.isEmpty = (e.inputs ++ e.outputs).isEmpty := by
    rw [Bool.eq_iff_iff]
    simp [mirrors]
  unfold moduleVars
  dsimp only
  rw [empty, ← List.map_map, same]
  split
  · exact .done
  · exact (Listing.Shows.lines _).append (.blank .done)

theorem copiesShow (output : Bool) : Listing.Shows 1
    ((e.members output).map (.line ∘ if output then copyOut else copyIn))
    ((e.copies output).map Declaration.inset) := by
  have same : (e.members output).map (if output then copyOut else copyIn) =
      (e.copies output).map Declaration.line := by
    rw [copies, List.map_map]
    refine List.map_congr_left fun m _ => ?_
    cases output with
    | false => exact m.copyLine.1
    | true => exact m.copyLine.2
  rw [← List.map_map, same]
  exact .insets (e.copiesFull output)

theorem closingShows : Listing.Shows 1 e.epilogue e.closing := by
  have zero : Listing.Shows 1
      (if e.positionless then [Item.line "output.position = vec4<f32>(0.0);"] else [])
      ((if e.positionless then [zeroCopy] else []).map Declaration.inset) := by
    split
    · exact .inset (by decide) .done
    · exact .done
  unfold epilogue closing
  rw [e.noFields]
  cases e.hasOutput with
  | false => exact .done
  | true =>
    have last : Listing.Shows 1 [.line "return output;"] ["    return output;"] :=
      .inset (by decide) .done
    have first := (zero.append (e.copiesShow true)).append last
    rw [← List.map_append] at first
    exact .inset (endsFull _ (by decide)) first

theorem shows {e : EntryPoint} (steady : e.body.Steady) : Listing.Shows 0 e.listing e.lines := by
  have body : Listing.Shows 1 e.body (e.body.shown 1) := ⟨steady.level 1, rfl⟩
  have inside := Listing.Shows.nested (((e.copiesShow false).append body).append e.closingShows)
  have heads := (e.inputShows.append e.outputShows).append e.mirrorsShow
  have function := (Listing.Shows.line e.mark (.line e.header .done)).append inside
  have all := (heads.append function).append (.line "\x7d" (.blank .done))
  rw [headerLine] at all
  simpa [listing, lines, members, headerLine] using all

end EntryPoint

end Wgsl

end

end ShaderGraph
