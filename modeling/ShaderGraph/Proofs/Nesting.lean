import Mathlib.Data.List.Infix
import ShaderGraph.Proofs.Annotating
/-! Nesting of texts. A line opens a block by the brace it ends with and closes one by the brace it
begins with. A listing whose indentation follows the braces of its lines is written as a text in
which no block is closed that is not open, all blocks are closed in the end, and each line stands
four spaces in for each block around it. -/
namespace ShaderGraph

def content (line : List Char) : List Char := line.dropWhile Char.isWhitespace

def closes (line : List Char) : Nat := if (content line).head? = some '}' then 1 else 0

def opens (line : List Char) : Nat := if line.getLast? = some '{' then 1 else 0

def depth : List (List Char) → Int
  | [] => 0
  | line :: rest => opens line - closes line + depth rest

/-- What is visible of the line stands `level` times four spaces in. -/
def StandsAt (level : Nat) (line : List Char) : Prop :=
  ∃ c rest, line = List.replicate (4 * level) ' ' ++ c :: rest ∧ c.isWhitespace = false

/-- Read with `first` blocks open, the lines leave `last` open, and each stands as deep as the blocks
do that it does not close. -/
structure Nested (first : Nat) (lines : List (List Char)) (last : Nat) : Prop where
  sane : ∀ front, front <+: lines → 0 ≤ first + depth front
  settled : first + depth lines = last
  indented : ∀ front line back, lines = front ++ line :: back → line ≠ [] →
    ∃ level : Nat, (level + closes line : Int) = first + depth front ∧ StandsAt level line

def WellNested (text : String) : Prop := Nested 0 (textLines text) 0

theorem depthCons (line : List Char) (lines : List (List Char)) :
    depth (line :: lines) = opens line - closes line + depth lines := rfl

theorem Nested.cons {first after last : Nat} {line : List Char} {lines : List (List Char)}
    (net : (after : Int) = first + (opens line - closes line))
    (stands : line ≠ [] → ∃ level : Nat, level + closes line = first ∧ StandsAt level line)
    (later : Nested after lines last) : Nested first (line :: lines) last where
  sane := by
    intro front part
    rcases List.prefix_cons_iff.mp part with rfl | ⟨rest, rfl, deeper⟩
    · simp [depth]
    · have := later.sane rest deeper
      rw [depthCons]
      omega
  settled := by
    have := later.settled
    rw [depthCons]
    omega
  indented := by
    intro front chosen back split full
    cases front with
    | nil =>
      obtain ⟨rfl, -⟩ := List.cons.inj split
      obtain ⟨level, kept, there⟩ := stands full
      exact ⟨level, by simp [depth]; omega, there⟩
    | cons begun front =>
      obtain ⟨rfl, tails⟩ := List.cons.inj split
      obtain ⟨level, kept, there⟩ := later.indented front chosen back tails full
      refine ⟨level, ?_, there⟩
      rw [depthCons]
      omega

theorem Nested.done (first : Nat) : Nested first [[]] first := by
  have later : Nested first [] first :=
    { sane := fun front part => by simp [List.prefix_nil.mp part, depth]
      settled := by simp [depth]
      indented := fun _ _ _ split => by simp at split }
  exact .cons (by simp [opens, closes, content]) (fun full => absurd rfl full) later

def Whole (text : String) : Prop := '\n' ∉ text.toList

structure Shaped (text : String) : Prop where
  whole : Whole text
  begins : ∃ c rest, text.toList = c :: rest ∧ c.isWhitespace = false

namespace Listing

def lines : Nat → Listing → List (List Char)
  | _, [] => []
  | level, .line text :: rest => ((Writer.margin level).toList ++ text.toList) :: lines level rest
  | level, .blank :: rest => [] :: lines level rest
  | level, .indent :: rest => lines (level + 1) rest
  | level, .dedent :: rest => lines (level - 1) rest

def reached : Nat → Listing → Nat
  | level, [] => level
  | level, .indent :: rest => reached (level + 1) rest
  | level, .dedent :: rest => reached (level - 1) rest
  | level, _ :: rest => reached level rest

end Listing

theorem marginText (level : Nat) : (Writer.margin level).toList = List.replicate (4 * level) ' ' := by
  induction level with
  | zero => rfl
  | succ n ih =>
    have four : "    ".toList = List.replicate 4 ' ' := by decide
    rw [Writer.margin, String.toList_append, ih, four, ← List.replicate_add, Nat.mul_succ, Nat.add_comm]

theorem Shaped.full {text : String} (shaped : Shaped text) : text.isEmpty = false := by
  obtain ⟨c, rest, code, -⟩ := shaped.begins
  rw [Bool.eq_false_iff, ne_eq, String.isEmpty_iff]
  rintro rfl
  cases code

theorem Shaped.written {text : String} (shaped : Shaped text) (level : Nat) :
    (Writer.written level text).toList = (Writer.margin level).toList ++ text.toList ++ ['\n'] := by
  rw [Writer.written, shaped.full, if_neg Bool.false_ne_true, String.toList_append, String.toList_append]
  rfl

theorem Listing.writtenLines {items : Listing} (shaped : ∀ text, .line text ∈ items → Shaped text)
    (level : Nat) : (Listing.written level items).splitOn '\n' = Listing.lines level items ++ [[]] := by
  induction items generalizing level with
  | nil => rfl
  | cons item rest ih =>
    have later := ih fun text inside => shaped text (.tail _ inside)
    cases item with
    | line text =>
      have own := shaped text List.mem_cons_self
      have one : '\n' ∉ (Writer.margin level).toList ++ text.toList := by
        rw [List.mem_append, not_or]
        exact ⟨fun inside => absurd (marginSpaces level _ inside) (by decide), own.whole⟩
      rw [Listing.written, own.written, List.append_assoc, List.singleton_append, splitLine one, later]
      rfl
    | blank =>
      have bare : '\n' ∉ ([] : List Char) := List.not_mem_nil
      have one := splitLine bare (Listing.written level rest)
      rw [List.nil_append] at one
      rw [Listing.written, one, later]
      rfl
    | indent => exact later (level + 1)
    | dedent => exact later (level - 1)

theorem Listing.textLines {items : Listing} (shaped : ∀ text, .line text ∈ items → Shaped text) :
    textLines items.text = Listing.lines 0 items ++ [[]] := by
  unfold ShaderGraph.textLines Listing.text
  rw [writeText]
  exact Listing.writtenLines shaped 0

theorem writeLevel (w : Writer) (items : Listing) : (w.write items).level = items.reached w.level := by
  induction items generalizing w with
  | nil => rfl
  | cons item rest ih =>
    refine (ih (w.put item)).trans ?_
    cases item <;> rfl

def Listing.flush : Nat → Listing → List String
  | _, [] => []
  | 0, .line text :: rest => text :: flush 0 rest
  | level + 1, .line _ :: rest => flush (level + 1) rest
  | level, .blank :: rest => flush level rest
  | level, .indent :: rest => flush (level + 1) rest
  | level, .dedent :: rest => flush (level - 1) rest

theorem reachedAppend (items more : Listing) (level : Nat) :
    (items ++ more).reached level = more.reached (items.reached level) := by
  induction items generalizing level with
  | nil => rfl
  | cons item rest ih => cases item <;> exact ih _

theorem flushAppend (items more : Listing) (level : Nat) :
    (items ++ more).flush level = items.flush level ++ more.flush (items.reached level) := by
  induction items generalizing level with
  | nil => simp [Listing.flush, Listing.reached]
  | cons item rest ih =>
    cases item with
    | line text =>
      cases level with
      | zero => exact congrArg (text :: ·) (ih 0)
      | succ level => exact ih (level + 1)
    | blank | indent | dedent => cases level <;> exact ih _

/-- Behind the listing a writer stands where it stood before, and where it stands in, no line of the
listing stands out. -/
structure Listing.Steady (items : Listing) : Prop where
  level : ∀ level, items.reached level = level
  within : ∀ level, items.flush (level + 1) = []

namespace Listing.Steady

variable {items more : Listing}

theorem append (first : items.Steady) (second : more.Steady) : (items ++ more).Steady where
  level level := by rw [reachedAppend, first.level, second.level]
  within level := by rw [flushAppend, first.level, first.within, second.within, List.append_nil]

theorem nested (inside : items.Steady) : (Listing.nested items).Steady where
  level level := by
    change Listing.reached (level + 1) (items ++ [.dedent]) = level
    rw [reachedAppend, inside.level]
    rfl
  within level := by
    change Listing.flush (level + 2) (items ++ [.dedent]) = []
    rw [flushAppend, inside.level, inside.within]
    rfl

theorem line (text : String) (rest : items.Steady) : Listing.Steady (.line text :: items) :=
  ⟨rest.level, rest.within⟩

theorem lines (texts : List String) : Listing.Steady (texts.map .line) := by
  induction texts with
  | nil => exact ⟨fun _ => rfl, fun _ => rfl⟩
  | cons text _ ih => exact ih.line text

end Listing.Steady

/-- From `level` margins and `open_` blocks on, the items stand each as deep as their braces have it,
and lead to the margins and the blocks behind. -/
inductive Leads : Nat → Nat → Listing → Nat → Nat → Prop
  | done {level open_ : Nat} : Leads level open_ [] level open_
  | line {level after last : Nat} {text : String} {rest : Listing} (shaped : Shaped text)
      (later : Leads level (level + opens text.toList) rest after last) :
      Leads level (level + closes text.toList) (.line text :: rest) after last
  | blank {level open_ after last : Nat} {rest : Listing} (later : Leads level open_ rest after last) :
      Leads level open_ (.blank :: rest) after last
  | indent {level open_ after last : Nat} {rest : Listing}
      (later : Leads (level + 1) open_ rest after last) :
      Leads level open_ (.indent :: rest) after last
  | dedent {level open_ after last : Nat} {rest : Listing} (later : Leads level open_ rest after last) :
      Leads (level + 1) open_ (.dedent :: rest) after last

namespace Leads

variable {level open_ middle between after last : Nat} {items more : Listing}

theorem append (first : Leads level open_ items middle between) (second : Leads middle between more after last) :
    Leads level open_ (items ++ more) after last := by
  induction first with
  | done => exact second
  | line shaped _ ih => exact .line shaped (ih second)
  | blank _ ih => exact .blank (ih second)
  | indent _ ih => exact .indent (ih second)
  | dedent _ ih => exact .dedent (ih second)

theorem shaped (leads : Leads level open_ items after last) : ∀ text, .line text ∈ items → Shaped text := by
  induction leads with
  | done => exact fun _ none => by cases none
  | line own _ ih =>
    intro text inside
    rcases List.mem_cons.mp inside with same | there
    · cases same
      exact own
    · exact ih text there
  | blank _ ih | indent _ ih | dedent _ ih =>
    intro text inside
    rcases List.mem_cons.mp inside with same | there
    · cases same
    · exact ih text there

end Leads

theorem Shaped.content {text : String} (shaped : Shaped text) (level : Nat) :
    content ((Writer.margin level).toList ++ text.toList) = text.toList := by
  obtain ⟨c, rest, code, seen⟩ := shaped.begins
  unfold ShaderGraph.content
  rw [List.dropWhile_append_of_pos fun s inside => marginSpaces level s inside ▸ rfl, code,
    List.dropWhile_cons_of_neg (by simp [seen])]

theorem Shaped.margined {text : String} (shaped : Shaped text) (level : Nat) :
    closes ((Writer.margin level).toList ++ text.toList) = closes text.toList ∧
      opens ((Writer.margin level).toList ++ text.toList) = opens text.toList ∧
      StandsAt level ((Writer.margin level).toList ++ text.toList) := by
  have bare := shaped.content 0
  rw [show Writer.margin 0 = "" from rfl, String.toList_empty, List.nil_append] at bare
  obtain ⟨c, rest, code, seen⟩ := shaped.begins
  refine ⟨?_, ?_, c, rest, by rw [marginText, code], seen⟩
  · unfold closes
    rw [shaped.content level, bare]
  · unfold opens
    rw [List.getLast?_append_of_ne_nil _ (by simp [code])]

theorem Leads.nested {level open_ after last : Nat} {items : Listing}
    (leads : Leads level open_ items after last) :
    Nested open_ (Listing.lines level items ++ [[]]) last := by
  induction leads with
  | done => exact .done _
  | @line level _ _ text _ shaped _ ih =>
    obtain ⟨closed, opened, stands⟩ := shaped.margined level
    -- what the line closes is closed before it stands, so its depth is the level itself
    refine .cons ?_ (fun _ => ⟨level, ?_, stands⟩) ih
    · rw [closed, opened]
      omega
    · rw [closed]
  | blank _ ih => exact .cons (by simp [opens, closes, content]) (fun full => absurd rfl full) ih
  | indent _ ih | dedent _ ih => exact ih

def Listing.Balanced (items : Listing) : Prop := ∀ level, Leads level level items level level

def Listing.Inside (items : Listing) : Prop := ∀ level, Leads level (level + 1) items level (level + 1)

theorem Listing.Balanced.wellNested {items : Listing} (balanced : items.Balanced) :
    WellNested items.text := by
  unfold WellNested
  rw [Listing.textLines (balanced 0).shaped]
  exact (balanced 0).nested

structure Even (text : String) : Prop extends Shaped text where
  kept : closes text.toList = 0
  left : opens text.toList = 0

structure Opener (text : String) : Prop extends Shaped text where
  kept : closes text.toList = 0
  opened : opens text.toList = 1

namespace Listing.Balanced

variable {items more : Listing}

theorem done : Listing.Balanced [] := fun _ => .done

theorem append (first : items.Balanced) (second : more.Balanced) : (items ++ more).Balanced :=
  fun level => (first level).append (second level)

theorem blank (rest : items.Balanced) : Listing.Balanced (.blank :: items) :=
  fun level => .blank (rest level)

theorem line {text : String} (even : Even text) (rest : items.Balanced) :
    Listing.Balanced (.line text :: items) := by
  intro level
  have later : Leads level (level + opens text.toList) items level level := by
    rw [even.left]
    exact rest level
  have one := Leads.line even.toShaped later
  rw [even.kept] at one
  exact one

theorem lines {texts : List String} (even : ∀ text ∈ texts, Even text) :
    Listing.Balanced (texts.map .line) := by
  induction texts with
  | nil => exact done
  | cons text rest ih =>
    exact line (even _ List.mem_cons_self) (ih fun t inside => even t (.tail _ inside))

theorem flatten {ls : List Listing} (each : ∀ l ∈ ls, l.Balanced) : Listing.Balanced ls.flatten := by
  induction ls with
  | nil => exact done
  | cons l rest ih =>
    exact append (each l List.mem_cons_self) (ih fun m inside => each m (.tail _ inside))

theorem nested (balanced : items.Balanced) : (Listing.nested items).Inside :=
  fun level => .indent ((balanced (level + 1)).append (.dedent .done))

theorem block {text : String} (opener : Opener text) (inner : items.Inside) :
    Listing.Balanced (.line text :: items ++ [.line "\x7d"]) := by
  intro level
  have brace : Shaped "\x7d" := ⟨by simp [Whole], '}', [], rfl, rfl⟩
  have closed : Leads level (level + 1) [.line "\x7d"] level level := .line brace .done
  have later : Leads level (level + opens text.toList) (items ++ [.line "\x7d"]) level level :=
    opener.opened ▸ (inner level).append closed
  have one := Leads.line opener.toShaped later
  rw [opener.kept] at one
  exact one

end Listing.Balanced

theorem Listing.Inside.append {items more : Listing} (first : items.Inside) (second : more.Inside) :
    (items ++ more).Inside := fun level => (first level).append (second level)

theorem Listing.Inside.turned {items : Listing} (inner : items.Inside) :
    Listing.Inside (.line "\x7d else \x7b" :: items) := by
  intro level
  have shaped : Shaped "\x7d else \x7b" := ⟨by simp [Whole], '}', " else \x7b".toList, by decide, rfl⟩
  exact .line shaped (inner level)

end ShaderGraph
