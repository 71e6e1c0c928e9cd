import Mathlib.Data.List.Nodup
import ShaderGraph.Proofs.Naming
/-! Names of types. Values have a few names, all different. An array is written around the name of its
elements, and behind that comes a mark which no value has in its name, so the text still tells the
elements from the size. In a listing the first two letters of a name also tell a value or an array
from a resource, and a resource is told by its name alone; the targets write storage textures alike
whose texels differ. -/
namespace ShaderGraph

section

variable {α : Type} {x y between u w : String} {mark : Char} {m n : UInt32}

theorem toldApart {text : α → String} {all : List α} (every : ∀ a, a ∈ all)
    (once : (all.map text).Nodup) : Function.Injective text :=
  fun _ _ same => List.inj_on_of_nodup_map once (every _) (every _) same

theorem markedSame (marked : between.toList.head? = some mark) (first : mark ∉ x.toList)
    (second : mark ∉ y.toList) (same : x ++ (between ++ u) = y ++ (between ++ w)) : x = y ∧ u = w := by
  obtain ⟨rest, code⟩ := List.head?_eq_some_iff.mp marked
  have before {x : String} (plain : mark ∉ x.toList) (u : String) :
      (x ++ (between ++ u)).toList.takeWhile (· ≠ mark) = x.toList := by
    have apart : ∀ c ∈ x.toList, decide (c ≠ mark) = true :=
      fun c inside => decide_eq_true fun same => plain (same ▸ inside)
    rw [String.toList_append, String.toList_append, code, List.takeWhile_append_of_pos apart]
    simp
  have front := congrArg (fun text : String => text.toList.takeWhile (· ≠ mark)) same
  simp only [before first, before second] at front
  obtain rfl := String.toList_injective front
  exact ⟨rfl, (String.append_right_inj _).mp ((String.append_right_inj _).mp same)⟩

theorem countSame (same : toString m = toString n) : m = n := by
  have digits : m.toNat.repr.toList = n.toNat.repr.toList := congrArg String.toList same
  rw [Nat.toList_repr, Nat.toList_repr] at digits
  exact digitsSame digits

end

def ScalarKind.all : List ScalarKind := [.float, .int, .uint, .bool]

def VectorSize.all : List VectorSize := [.two, .three, .four]

def ValueTy.all : List ValueTy :=
  ScalarKind.all.map .scalar ++ VectorSize.all.flatMap (fun size => ScalarKind.all.map (.vector size)) ++
    VectorSize.all.map .matrix

def Sampler.all : List Sampler :=
  [.d1, .d2, .d3, .cube, .d2Array, .cubeArray].flatMap fun dim => [⟨dim, .color⟩, ⟨dim, .depth⟩]

def StorageDim.all : List StorageDim := [.d1, .d2, .d3]

theorem kindListed (kind : ScalarKind) : kind ∈ ScalarKind.all := by cases kind <;> decide

theorem sizeListed (size : VectorSize) : size ∈ VectorSize.all := by cases size <;> decide

theorem valueListed (v : ValueTy) : v ∈ ValueTy.all := by
  cases v <;> simp [ValueTy.all, kindListed, sizeListed]

theorem samplerListed (s : Sampler) : s ∈ Sampler.all := by
  obtain ⟨dim, kind⟩ := s
  cases kind <;> cases dim <;> decide

theorem dimListed (dim : StorageDim) : dim ∈ StorageDim.all := by cases dim <;> decide

/-- How arrays are written: the elements' name and the size, with fixed texts around them. The text
between the two begins with the mark. -/
structure ArrayForm where
  opening : String
  between : String
  closing : String
  mark : Char
  marked : between.toList.head? = some mark := by decide

namespace ArrayForm

def write (form : ArrayForm) (elem : String) (size : UInt32) : String :=
  form.opening ++ elem ++ form.between ++ toString size ++ form.closing

def bracketed : ArrayForm where
  opening := ""
  between := "["
  closing := "]"
  mark := '['

def angled : ArrayForm where
  opening := "array<"
  between := ", "
  closing := ">"
  mark := ','

variable (form : ArrayForm)

theorem marks (elem : String) (size : UInt32) : form.mark ∈ (form.write elem size).toList := by
  have inside : form.mark ∈ form.between.toList := List.mem_of_head? form.marked
  simp [write, inside]

theorem apart {x y : String} {m n : UInt32} (first : form.mark ∉ x.toList) (second : form.mark ∉ y.toList)
    (same : form.write x m = form.write y n) : x = y ∧ m = n := by
  simp only [write, String.append_assoc, String.append_right_inj] at same
  obtain ⟨elems, sizes⟩ := markedSame form.marked first second same
  exact ⟨elems, countSame ((String.append_left_inj _).mp sizes)⟩

end ArrayForm

structure TypeNames (name : Ty → String) where
  value : ValueTy → String
  form : ArrayForm
  ofValue : ∀ v : ValueTy, name v.ty = value v
  ofArray : ∀ v n, name (.array v n) = form.write (value v) n
  once : (ValueTy.all.map value).Nodup
  unmarked : ∀ v ∈ ValueTy.all, form.mark ∉ (value v).toList

def Ty.names : TypeNames Ty.name where
  value := ValueTy.name
  form := .bracketed
  ofValue v := by cases v <;> rfl
  ofArray v n := by
    simp only [ArrayForm.write, ArrayForm.bracketed, String.empty_append]
    rfl
  once := by decide
  unmarked := by decide

def Glsl.names : TypeNames Glsl.typeName where
  value := Glsl.valueName
  form := .bracketed
  ofValue v := by cases v <;> rfl
  ofArray v n := by
    simp only [ArrayForm.write, ArrayForm.bracketed, String.empty_append]
    rfl
  once := by decide
  unmarked := by decide

def Wgsl.names : TypeNames Wgsl.typeName where
  value := Wgsl.valueName
  form := .angled
  ofValue v := by cases v <;> rfl
  ofArray _ _ := rfl
  once := by decide
  unmarked := by decide

theorem storableForm {t : Ty} (storable : t.isStorable = true) :
    (∃ v : ValueTy, t = v.ty) ∨ ∃ v n, t = .array v n := by
  rcases (Bool.or_eq_true _ _).mp storable with value | array
  · obtain ⟨v, found⟩ := Option.isSome_iff_exists.mp value
    exact .inl ⟨v, (Ty.tyOfValue found).symm⟩
  · cases t with
    | array elem size => exact .inr ⟨elem, size, rfl⟩
    | _ => cases array

namespace TypeNames

variable {name : Ty → String} (names : TypeNames name) {v w : ValueTy} {m n : UInt32}
include names

theorem valueSame (same : names.value v = names.value w) : v = w :=
  toldApart valueListed names.once same

theorem arraySame (same : name (.array v m) = name (.array w n)) : v = w ∧ m = n := by
  rw [names.ofArray, names.ofArray] at same
  obtain ⟨elems, sizes⟩ := names.form.apart (names.unmarked v (valueListed v))
    (names.unmarked w (valueListed w)) same
  exact ⟨names.valueSame elems, sizes⟩

theorem valueArray : name v.ty ≠ name (.array w n) := by
  intro same
  rw [names.ofValue, names.ofArray] at same
  exact names.unmarked v (valueListed v) (same ▸ names.form.marks _ n)

theorem apart {a b : Ty} (first : a.isStorable = true) (second : b.isStorable = true)
    (same : name a = name b) : a = b := by
  rcases storableForm first with ⟨v, rfl⟩ | ⟨v, m, rfl⟩ <;>
    rcases storableForm second with ⟨w, rfl⟩ | ⟨w, n, rfl⟩
  -- the mark is in the names of arrays and of no value
  · rw [names.ofValue, names.ofValue] at same
    rw [names.valueSame same]
  · exact absurd same names.valueArray
  · exact absurd same.symm names.valueArray
  · obtain ⟨rfl, rfl⟩ := names.arraySame same
    rfl

end TypeNames

def StorageDim.text : StorageDim → String
  | .d1 => "1d"
  | .d2 => "2d"
  | .d3 => "3d"

theorem storageSpelled (s : Storage) :
    s.name = "storage" ++ s.dim.text ++ "<" ++ s.texel.name ++ ">" := by
  obtain ⟨dim, texel⟩ := s
  cases dim <;> rfl

theorem samplerSame {s t : Sampler} (same : s.name = t.name) : s = t :=
  toldApart samplerListed (by decide) same

theorem storageSame {s t : Storage} (same : s.name = t.name) : s = t := by
  have plain : ∀ dim ∈ StorageDim.all, '<' ∉ dim.text.toList := by decide
  have told : (StorageDim.all.map StorageDim.text).Nodup := by decide
  simp only [storageSpelled, String.append_assoc, String.append_right_inj] at same
  obtain ⟨dims, texels⟩ := markedSame (by decide) (plain _ (dimListed s.dim)) (plain _ (dimListed t.dim)) same
  obtain ⟨dim, texel⟩ := s
  obtain ⟨other, more⟩ := t
  obtain rfl : dim = other := toldApart dimListed told dims
  obtain rfl : texel = more := Ty.names.valueSame ((String.append_left_inj _).mp texels)
  rfl

namespace Ty

inductive Family
  | void
  | storable
  | sampler
  | storage
  deriving DecidableEq, Repr

def family : Ty → Family
  | .void => .void
  | .sampler _ => .sampler
  | .storage _ => .storage
  | _ => .storable

def Family.ofLead : List Char → Family
  | ['v', 'o'] => .void
  | ['s', 'a'] => .sampler
  | ['d', 'e'] => .sampler
  | ['s', 't'] => .storage
  | _ => .storable

def lead (text : String) : List Char := text.toList.take 2

theorem leadAppend {x rest : String} (long : 2 ≤ x.toList.length) : lead (x ++ rest) = lead x := by
  rw [lead, String.toList_append, List.take_append_of_le_length long, lead]

theorem valueLead (v : ValueTy) : 2 ≤ v.name.toList.length ∧ Family.ofLead (lead v.name) = .storable := by
  have each : ∀ v ∈ ValueTy.all, 2 ≤ v.name.toList.length ∧ Family.ofLead (lead v.name) = .storable := by
    decide
  exact each v (valueListed v)

theorem samplerLead (s : Sampler) : Family.ofLead (lead s.name) = .sampler := by
  have each : ∀ s ∈ Sampler.all, Family.ofLead (lead s.name) = .sampler := by decide
  exact each s (samplerListed s)

theorem storageLead (s : Storage) : Family.ofLead (lead s.name) = .storage := by
  rw [storageSpelled, String.append_assoc, String.append_assoc, String.append_assoc, leadAppend (by decide)]
  decide

theorem familyLead (t : Ty) : Family.ofLead (lead t.name) = t.family := by
  cases t with
  | void => decide
  | scalar kind => exact (valueLead (.scalar kind)).2
  | vector size kind => exact (valueLead (.vector size kind)).2
  | matrix size => exact (valueLead (.matrix size)).2
  | array elem size =>
    have spelled : Ty.name (.array elem size) = elem.name ++ ("[" ++ toString size ++ "]") := by
      rw [← String.append_assoc, ← String.append_assoc]
      rfl
    obtain ⟨long, told⟩ := valueLead elem
    rw [spelled, leadAppend long, told]
    rfl
  | sampler s => exact samplerLead s
  | storage s => exact storageLead s

theorem storableFamily {t : Ty} : t.family = .storable ↔ t.isStorable = true := by
  cases t <;> simp [family, isStorable, value?, isArray]

theorem nameSame {a b : Ty} (same : a.name = b.name) : a = b := by
  have family : a.family = b.family := by rw [← familyLead, ← familyLead, same]
  by_cases storable : a.isStorable = true
  · have other : b.isStorable = true := storableFamily.mp (family ▸ storableFamily.mpr storable)
    exact Ty.names.apart storable other same
  · cases a with
    | void =>
      cases b with
      | void => rfl
      | _ => cases family
    | sampler s =>
      cases b with
      | sampler t => rw [samplerSame same]
      | _ => cases family
    | storage s =>
      cases b with
      | storage t => rw [storageSame same]
      | _ => cases family
    | scalar | vector | matrix | array => exact absurd rfl storable

end Ty

theorem typesApart (a b : Ty) :
    (a.name = b.name → a = b) ∧
      (a.isStorable = true → b.isStorable = true →
        (Glsl.typeName a = Glsl.typeName b → a = b) ∧ (Wgsl.typeName a = Wgsl.typeName b → a = b)) :=
  ⟨Ty.nameSame, fun first second => ⟨Glsl.names.apart first second, Wgsl.names.apart first second⟩⟩

theorem typesApartTexels :
    (∃ a b, Ty.column? .mat3 = some a ∧ Ty.ofComponents? .float 3 = some b ∧ a.isStorable = true ∧
      b.isStorable = true ∧ Glsl.typeName a = Glsl.typeName b ∧ a = b) ∧
    (∃ a b, Ty.arrayOf .mat3 3 = .ok a ∧ Ty.arrayOf .mat3 33 = .ok b ∧ a.isStorable = true ∧
      b.isStorable = true ∧ Glsl.typeName a ≠ Glsl.typeName b ∧ Wgsl.typeName a ≠ Wgsl.typeName b) ∧
    ∃ s t, Storage.make .d2 .float3 = .ok s ∧ Storage.make .d2 .float4 = .ok t ∧
      Ty.name (.storage s) ≠ Ty.name (.storage t) ∧
      Glsl.typeName (.storage s) = Glsl.typeName (.storage t) ∧
      Wgsl.typeName (.storage s) = Wgsl.typeName (.storage t) := by
  refine ⟨⟨_, _, rfl, rfl, rfl, rfl, rfl, ?_⟩, ⟨_, _, rfl, rfl, rfl, rfl, ?_, ?_⟩, ⟨_, _, rfl, rfl, ?_, rfl, rfl⟩⟩
  · exact ((typesApart _ _).2 rfl rfl).1 rfl
  · exact fun same => absurd (((typesApart _ _).2 rfl rfl).1 same) (by decide)
  · exact fun same => absurd (((typesApart _ _).2 rfl rfl).2 same) (by decide)
  · exact fun same => absurd ((typesApart _ _).1 same) (by decide)

end ShaderGraph
