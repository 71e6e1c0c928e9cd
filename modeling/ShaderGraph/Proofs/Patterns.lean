import Mathlib.Data.List.Basic
import ShaderGraph.Spelling
/-! The grammar of swizzle patterns. A pattern is one to four letters of one set, and reading it gives
the place of each letter in that set. The reader counts bytes where the grammar counts letters, but
the letters of both sets are single bytes. What a swizzle writes after its dot reads back. -/
namespace ShaderGraph

namespace Component

def alphabets : List String := ["xyzw", "rgba"]

structure Written (letters pattern : String) : Prop where
  least : 1 ≤ pattern.length
  most : pattern.length ≤ 4
  drawn : ∀ c ∈ pattern.toList, c ∈ letters.toList

structure Reads (read : Char → Option Component) (letters : String) : Prop where
  place : ∀ ⦃c component⦄, read c = some component →
    c ∈ letters.toList ∧ component.index = letters.toList.idxOf c
  known : ∀ c ∈ letters.toList, (read c).isSome = true
  byte : ∀ c ∈ letters.toList, c.utf8Size = 1

theorem spatialReads : Reads ofSpatial? "xyzw" where
  place c component found := by
    unfold ofSpatial? at found
    split at found <;> cases found <;> decide
  known := by simp [ofSpatial?]
  byte := by simp [Char.utf8Size]

theorem colorReads : Reads ofColor? "rgba" where
  place c component found := by
    unfold ofColor? at found
    split at found <;> cases found <;> decide
  known := by simp [ofColor?]
  byte := by simp [Char.utf8Size]

theorem allIndex (component : Component) : all[component.index]? = some component := by
  cases component <;> rfl

theorem indexSame {one two : Component} (same : one.index = two.index) : one = two :=
  Option.some.inj ((allIndex one).symm.trans (same ▸ allIndex two))

section

variable {read : Char → Option Component} {letters pattern : String} {chars : List Char}
  {cs : List Component}

theorem Reads.letter (reads : Reads read letters) {c : Char} {component : Component} :
    read c = some component ↔ c ∈ letters.toList ∧ component.index = letters.toList.idxOf c := by
  refine ⟨fun found => reads.place found, fun ⟨inside, place⟩ => ?_⟩
  obtain ⟨other, found⟩ := Option.isSome_iff_exists.mp (reads.known c inside)
  rw [found, indexSame (place.trans (reads.place found).2.symm)]

theorem Reads.all (reads : Reads read letters) : chars.mapM read = some cs ↔
    (∀ c ∈ chars, c ∈ letters.toList) ∧ cs.map index = chars.map letters.toList.idxOf := by
  induction chars generalizing cs with
  | nil => simp [eq_comm]
  | cons c rest ih =>
    rw [List.mapM_cons, List.forall_mem_cons, List.map_cons]
    constructor
    · intro found
      obtain ⟨component, here, found⟩ := Option.bind_eq_some_iff.mp found
      obtain ⟨others, later, same⟩ := Option.bind_eq_some_iff.mp found
      cases same
      obtain ⟨inside, place⟩ := reads.place here
      obtain ⟨drawn, places⟩ := ih.mp later
      exact ⟨⟨inside, drawn⟩, by rw [List.map_cons, place, places]⟩
    · rintro ⟨⟨inside, drawn⟩, places⟩
      cases cs with
      | nil => cases places
      | cons component others =>
        obtain ⟨place, places⟩ := List.cons.inj places
        rw [reads.letter.mpr ⟨inside, place⟩, ih.mpr ⟨drawn, places⟩]
        rfl

theorem Reads.total (reads : Reads read letters) (drawn : ∀ c ∈ chars, c ∈ letters.toList) :
    ∃ cs, chars.mapM read = some cs := by
  induction chars with
  | nil => exact ⟨[], rfl⟩
  | cons c rest ih =>
    obtain ⟨here, later⟩ := List.forall_mem_cons.mp drawn
    obtain ⟨component, found⟩ := Option.isSome_iff_exists.mp (reads.known c here)
    obtain ⟨cs, others⟩ := ih later
    exact ⟨component :: cs, by rw [List.mapM_cons, found, others]; rfl⟩

theorem singleBytes (byte : ∀ c ∈ chars, c.utf8Size = 1) :
    (String.ofList chars).utf8ByteSize = chars.length := by
  induction chars with
  | nil => rfl
  | cons c rest ih =>
    obtain ⟨here, later⟩ := List.forall_mem_cons.mp byte
    rw [String.ofList_cons, String.utf8ByteSize_append, String.utf8ByteSize_singleton, here, ih later,
      List.length_cons, Nat.add_comm]

theorem sized (byte : ∀ c ∈ pattern.toList, c.utf8Size = 1) :
    (pattern.isEmpty || decide (4 < pattern.utf8ByteSize)) = false ↔
      1 ≤ pattern.length ∧ pattern.length ≤ 4 := by
  have bytes : pattern.utf8ByteSize = pattern.length := by
    rw [← String.length_toList, ← singleBytes byte, String.ofList_toList]
  have filled : pattern.isEmpty = false ↔ 1 ≤ pattern.length := by
    rw [String.isEmpty_eq_false_iff, ne_eq, ← String.length_eq_zero_iff, Nat.one_le_iff_ne_zero]
  rw [Bool.or_eq_false_iff, filled, bytes, decide_eq_false_iff_not, Nat.not_lt]

theorem Reads.spelled (reads : Reads read letters) : Written letters pattern ↔
    (pattern.isEmpty || decide (4 < pattern.utf8ByteSize)) = false ∧
      ∀ c ∈ pattern.toList, c ∈ letters.toList := by
  constructor
  · intro ⟨least, most, drawn⟩
    exact ⟨(sized fun c inside => reads.byte c (drawn c inside)).mpr ⟨least, most⟩, drawn⟩
  · intro ⟨size, drawn⟩
    obtain ⟨least, most⟩ := (sized fun c inside => reads.byte c (drawn c inside)).mp size
    exact ⟨least, most, drawn⟩

theorem Reads.unwritten (reads : Reads read letters) (unread : pattern.toList.mapM read = none) :
    ¬ Written letters pattern := by
  intro written
  obtain ⟨cs, found⟩ := reads.total written.drawn
  cases unread.symm.trans found

theorem memAlphabets : letters ∈ alphabets ↔ letters = "xyzw" ∨ letters = "rgba" := by
  simp [alphabets]

inductive Parsed (pattern : String) : Except Error (List Component) → Prop
  | places {letters : String} {cs : List Component} (inside : letters ∈ alphabets)
      (written : Written letters pattern)
      (places : cs.map index = pattern.toList.map letters.toList.idxOf) : Parsed pattern (.ok cs)
  | refused (what : String) (unwritten : ∀ letters ∈ alphabets, ¬ Written letters pattern) :
      Parsed pattern (.error (.invalidSwizzle what))

theorem parsed (pattern : String) : Parsed pattern (parse pattern) := by
  unfold parse
  split
  · rename_i missized
    refine .refused _ fun letters inside written => ?_
    rcases memAlphabets.mp inside with rfl | rfl
    · exact absurd missized (by simp [(spatialReads.spelled.mp written).1])
    · exact absurd missized (by simp [(colorReads.spelled.mp written).1])
  · rename_i size
    have size := Bool.not_eq_true _ ▸ size
    split
    · rename_i cs spatial
      obtain ⟨drawn, places⟩ := spatialReads.all.mp spatial
      exact .places (memAlphabets.mpr (.inl rfl)) (spatialReads.spelled.mpr ⟨size, drawn⟩) places
    · rename_i unspatial
      split
      · rename_i cs color
        obtain ⟨drawn, places⟩ := colorReads.all.mp color
        exact .places (memAlphabets.mpr (.inr rfl)) (colorReads.spelled.mpr ⟨size, drawn⟩) places
      · rename_i uncolored
        refine .refused _ fun letters inside => ?_
        rcases memAlphabets.mp inside with rfl | rfl
        · exact spatialReads.unwritten unspatial
        · exact colorReads.unwritten uncolored

theorem writtenOnce {other : String} (inside : letters ∈ alphabets) (among : other ∈ alphabets)
    (written : Written letters pattern) (again : Written other pattern) : letters = other := by
  have apart : ∀ c ∈ "xyzw".toList, c ∉ "rgba".toList := by simp
  obtain ⟨c, here⟩ : ∃ c, c ∈ pattern.toList :=
    List.exists_mem_of_length_pos (String.length_toList ▸ written.least)
  have one := written.drawn c here
  have two := again.drawn c here
  rcases memAlphabets.mp inside with rfl | rfl <;> rcases memAlphabets.mp among with rfl | rfl
  · rfl
  · exact absurd two (apart c one)
  · exact absurd one (apart c two)
  · rfl

theorem placesSame {one two : List Component} (same : one.map index = two.map index) : one = two :=
  List.map_injective_iff.mpr (fun _ _ => indexSame) same

theorem parseOk : parse pattern = .ok cs ↔ ∃ letters ∈ alphabets, Written letters pattern ∧
    cs.map index = pattern.toList.map letters.toList.idxOf := by
  have parsed := parsed pattern
  constructor
  · intro read
    rw [read] at parsed
    cases parsed with
    | places inside written places => exact ⟨_, inside, written, places⟩
  · rintro ⟨letters, inside, written, places⟩
    generalize parse pattern = result at parsed
    cases parsed with
    | places among again found =>
      obtain rfl := writtenOnce inside among written again
      rw [placesSame (places.trans found.symm)]
    | refused what unwritten => exact absurd written (unwritten letters inside)

theorem parseReads : (∃ cs, parse pattern = .ok cs) ↔ ∃ letters ∈ alphabets, Written letters pattern := by
  constructor
  · rintro ⟨cs, read⟩
    obtain ⟨letters, inside, written, -⟩ := parseOk.mp read
    exact ⟨letters, inside, written⟩
  · rintro ⟨letters, inside, written⟩
    have parsed := parsed pattern
    generalize parse pattern = result at parsed
    cases parsed with
    | places => exact ⟨_, rfl⟩
    | refused what unwritten => exact absurd written (unwritten letters inside)

theorem parseRefused (refused : ∀ cs, parse pattern ≠ .ok cs) :
    ∃ what, parse pattern = .error (.invalidSwizzle what) := by
  have parsed := parsed pattern
  generalize parse pattern = result at parsed refused
  cases parsed with
  | places => exact absurd rfl (refused _)
  | refused what => exact ⟨what, rfl⟩

theorem parseLetters (least : 1 ≤ cs.length) (most : cs.length ≤ 4) :
    parse (Component.letters cs) = .ok cs := by
  have spelled : (Component.letters cs).toList = cs.map letter := String.toList_ofList
  have drawn (component : Component) := spatialReads.place (spatialOfLetter component)
  have written : Written "xyzw" (Component.letters cs) := by
    constructor
    · rwa [← String.length_toList, spelled, List.length_map]
    · rwa [← String.length_toList, spelled, List.length_map]
    · rw [spelled, List.forall_mem_map]
      exact fun component _ => (drawn component).1
  refine parseOk.mpr ⟨_, memAlphabets.mpr (.inl rfl), written, ?_⟩
  rw [spelled, List.map_map]
  exact List.map_congr_left fun component _ => (drawn component).2

end

end Component

theorem patternsRead (pattern : String) :
    (∀ cs, Component.parse pattern = .ok cs ↔ ∃ letters ∈ Component.alphabets,
      Component.Written letters pattern ∧
        cs.map Component.index = pattern.toList.map letters.toList.idxOf) ∧
      ((∃ cs, Component.parse pattern = .ok cs) ↔
        ∃ letters ∈ Component.alphabets, Component.Written letters pattern) ∧
      ((∀ cs, Component.parse pattern ≠ .ok cs) →
        ∃ what, Component.parse pattern = .error (.invalidSwizzle what)) ∧
      ∀ cs : List Component, 1 ≤ cs.length → cs.length ≤ 4 → ∀ typeName sample vector,
        ∃ text, ({ typeName, sample } : Spelling).swizzle vector cs = vector ++ "." ++ text ∧
          Component.parse text = .ok cs :=
  ⟨fun _ => Component.parseOk, Component.parseReads, Component.parseRefused,
    fun _ least most _ _ _ => ⟨_, rfl, Component.parseLetters least most⟩⟩

theorem patternsReadColor : Component.Written "rgba" "bar" ∧
    Component.parse "bar" = .ok [.z, .w, .x] ∧
    (∃ what, Component.parse "xg" = .error (.invalidSwizzle what)) ∧
    ∃ text, Spelling.pseudo.swizzle "v" [.z, .w, .x] = "v" ++ "." ++ text ∧ text ≠ "bar" ∧
      Component.parse text = .ok [.z, .w, .x] := by
  have written : Component.Written "rgba" "bar" := ⟨by decide, by decide, by simp⟩
  obtain ⟨reads, -, -, prints⟩ := patternsRead "bar"
  obtain ⟨-, -, refuses, -⟩ := patternsRead "xg"
  have mixed : ∀ cs, Component.parse "xg" ≠ .ok cs := by
    intro cs read
    cases read
  obtain ⟨text, same, read⟩ := prints [.z, .w, .x] (by decide) (by decide)
    Spelling.pseudo.typeName Spelling.pseudo.sample "v"
  refine ⟨written, (reads _).mpr ⟨"rgba", by decide, written, by decide⟩, refuses mixed, text, same, ?_, read⟩
  rintro rfl
  exact absurd same (by decide)

end ShaderGraph
