import ShaderGraph.Proofs.Destinations
import ShaderGraph.Proofs.Nesting
/-! Words of the targets. Where the names of a program have neither white space nor braces, what is
written for its types, values and assignments breaks no line, and a line begins and ends with the
characters its form has there. -/
namespace ShaderGraph

def Begun (text : String) : Prop :=
  text.toList.head?.any (fun c => !c.isWhitespace && c != '}') = true

def Braced (text : String) : Prop := text.toList.getLast? = some '{'

instance (text : String) : Decidable (Whole text) := by unfold Whole; infer_instance

instance (text : String) : Decidable (Begun text) := by unfold Begun; infer_instance

instance (text : String) : Decidable (Braced text) := by unfold Braced; infer_instance

@[simp] theorem shownText (text : String) : toString text = text := rfl

@[simp] theorem wholeAppend (a b : String) : Whole (a ++ b) ↔ Whole a ∧ Whole b := by simp [Whole]

@[simp] theorem begunAppend (a b : String) : Begun (a ++ b) ↔ Begun a ∨ a = "" ∧ Begun b := by
  unfold Begun
  rw [String.toList_append, ← String.toList_eq_nil_iff]
  cases a.toList <;> simp

@[simp] theorem bracedAppend (a b : String) : Braced (a ++ b) ↔ Braced b ∨ b = "" ∧ Braced a := by
  unfold Braced
  rw [String.toList_append, List.getLast?_append, ← String.toList_eq_nil_iff]
  cases ended : b.toList.getLast? with
  | none => simp [List.getLast?_eq_none_iff.mp ended]
  | some c =>
    have full : b.toList ≠ [] := fun none => by
      rw [none] at ended
      cases ended
    simp [full]

theorem Begun.shaped {text : String} (begun : Begun text) (whole : Whole text) :
    Shaped text ∧ closes text.toList = 0 := by
  unfold Begun at begun
  cases code : text.toList with
  | nil =>
    rw [code] at begun
    cases begun
  | cons c rest =>
    rw [code] at begun
    simp only [List.head?_cons, Option.any_some, Bool.and_eq_true, Bool.not_eq_true', bne_iff_ne] at begun
    obtain ⟨seen, apart⟩ := begun
    refine ⟨⟨whole, c, rest, code, seen⟩, ?_⟩
    unfold closes content
    rw [List.dropWhile_cons_of_neg (by simp [seen])]
    exact if_neg fun same => apart (Option.some.inj same)

theorem Even.of {text : String} (whole : Whole text) (begun : Begun text) (ends : ¬ Braced text) :
    Even text :=
  ⟨(begun.shaped whole).1, (begun.shaped whole).2, if_neg ends⟩

theorem Opener.of {text : String} (whole : Whole text) (begun : Begun text) (ends : Braced text) :
    Opener text :=
  ⟨(begun.shaped whole).1, (begun.shaped whole).2, if_pos ends⟩

theorem digitsWhole (n : Nat) : '\n' ∉ Nat.toDigits 10 n := fun inside =>
  absurd (Nat.isDigit_of_mem_toDigits (by decide) (by decide) inside) (by decide)

@[simp] theorem wholeNat (n : Nat) : Whole n.repr := by
  unfold Whole
  rw [Nat.toList_repr]
  exact digitsWhole n

@[simp] theorem wholeCount (n : UInt32) : Whole (toString n) := wholeNat n.toNat

@[simp] theorem wholeInt (n : Int) : Whole n.repr := by
  cases n with
  | ofNat n => exact wholeNat n
  | negSucc n =>
    change Whole ("-" ++ n.succ.repr)
    simp +decide

theorem intercalateWhole {between : String} {parts : List String} (apart : Whole between)
    (each : ∀ t ∈ parts, Whole t) : Whole (between.intercalate parts) := by
  unfold Whole
  rw [String.toList_intercalate]
  exact notInIntercalate apart (List.forall_mem_map.mpr each)

theorem joinedWhole {parts : List String} (each : ∀ t ∈ parts, Whole t) : Whole (joined parts) :=
  intercalateWhole (by decide) each

theorem significantWhole (d : Decimal.Scaled) : '\n' ∉ d.significant := by
  intro inside
  rw [Decimal.Scaled.significant, List.mem_reverse] at inside
  exact digitsWhole _ (List.mem_reverse.mp ((List.dropWhile_sublist _).mem inside))

theorem digitLine {digits : List Char} (whole : '\n' ∉ digits) (point : Int) :
    '\n' ∉ Decimal.positional digits point ∧ '\n' ∉ Decimal.exponential digits point := by
  have front (n : Nat) : '\n' ∉ digits.take n := fun inside => whole (List.mem_of_mem_take inside)
  have back (n : Nat) : '\n' ∉ digits.drop n := fun inside => whole (List.mem_of_mem_drop inside)
  have tail : '\n' ∉ digits.tail := fun inside => whole (List.mem_of_mem_tail inside)
  have shift : '\n' ∉ (toString (point - 1)).toList := wholeInt (point - 1)
  constructor
  · unfold Decimal.positional Decimal.zeros
    split
    · simp [whole]
    · dsimp only
      split <;> simp [front, back]
  · unfold Decimal.exponential
    dsimp only
    split
    · simpa [front] using shift
    · simpa [front, tail] using shift

theorem singleWhole (x : Single) : Whole x.text := by
  unfold Single.text
  split
  · decide
  · have signed : Whole (if x.negative then "-" else "") := by split <;> decide
    dsimp only
    split
    · simp +decide only [wholeAppend, signed]
    · split
      · simp +decide only [wholeAppend, signed]
      · have number : Whole (String.ofList x.digits) := by
          unfold Whole
          rw [String.toList_ofList, Single.digits, Decimal.Layout.write]
          split
          · exact (digitLine (significantWhole _) _).1
          · exact (digitLine (significantWhole _) _).2
        simp [signed, number]

theorem literalWhole (l : Literal) : Whole l.text := by
  cases l with
  | float x => exact singleWhole x
  | int n => exact wholeInt _
  | uint n =>
    change Whole s!"{n.toNat}u"
    simp +decide
  | bool b => cases b <;> decide

theorem lettersWhole (pattern : List Component) : Whole (Component.letters pattern) := by
  unfold Whole Component.letters
  rw [String.toList_ofList]
  refine fun inside => ?_
  obtain ⟨c, -, same⟩ := List.mem_map.mp inside
  cases c <;> cases same

structure Spelling.Unbroken (sp : Spelling) : Prop where
  literal : ∀ l, Whole (sp.literal l)
  read : ∀ v, Whole v.name → Whole (sp.read v)
  compose : ∀ ty parts, (∀ t ∈ parts, Whole t) → Whole (sp.compose ty parts)
  unary : ∀ op a, Whole a → Whole (sp.unary op a)
  binary : ∀ op s t a b, Whole a → Whole b → Whole (sp.binary op s t a b)
  swizzle : ∀ a pattern, Whole a → Whole (sp.swizzle a pattern)
  column : ∀ a i, Whole a → Whole i.text → Whole (sp.column a i)
  element : ∀ a i, Whole a → Whole i.text → Whole (sp.element a i)
  call : ∀ f args, (∀ t ∈ args, Whole t) → Whole (sp.call f args)
  convert : ∀ ty a, Whole a → Whole (sp.convert ty a)
  sample : ∀ a s c, Whole a → Whole c → Whole (sp.sample a s c)
  load : ∀ a s c, Whole a → Whole c → Whole (sp.load a s c)
  unbound : ∀ slot block text, sp.unbound slot block = .ok text → Whole text

section

variable {p : Program} {sp : Spelling}

theorem Spelling.Unbroken.within (whole : sp.Unbroken) (unbroken : p.Unbroken) {fuel : Nat}
    {opened : List SlotId} {e : ExprId} {text : String}
    (rendered : p.renderWithin sp fuel opened e = .ok text) : Whole text := by
  induction fuel generalizing opened e text with
  | zero => cases rendered
  | succ fuel ih =>
    obtain ⟨node, -, rendered⟩ := Outcome.bindOk.mp rendered
    have all {opened : List SlotId} {es : List ExprId} {texts : List String}
        (each : es.mapM (p.renderWithin sp fuel opened) = .ok texts) : ∀ t ∈ texts, Whole t := by
      intro t inside
      obtain ⟨e, -, made⟩ := Outcome.mapMSource each inside
      exact ih made
    unfold Program.renderNode at rendered
    split at rendered <;> simp only [Outcome.bindOk, Outcome.pureOk, Arena.fetchOk] at rendered
    · subst rendered
      exact whole.literal _
    · obtain ⟨var, at_, rfl⟩ := rendered
      exact whole.read var (unbroken.vars _ _ at_)
    · obtain ⟨slot, -, block, -, rendered⟩ := rendered
      split at rendered
      · cases rendered
      · split at rendered
        · exact ih rendered
        · unfold Outcome.ofResult at rendered
          split at rendered
          · rename_i made
            cases rendered
            exact whole.unbound _ _ _ made
          · cases rendered
    · obtain ⟨texts, each, rfl⟩ := rendered
      exact whole.compose _ _ (all each)
    · obtain ⟨a, made, rfl⟩ := rendered
      exact whole.unary _ _ (ih made)
    · obtain ⟨a, one, b, two, s, -, t, -, rfl⟩ := rendered
      exact whole.binary _ _ _ _ _ (ih one) (ih two)
    · obtain ⟨a, made, rfl⟩ := rendered
      exact whole.swizzle _ _ (ih made)
    · obtain ⟨a, one, i, two, shown, read, rfl⟩ := rendered
      exact whole.column _ _ (ih one) (indexTextKept read ▸ ih two)
    · obtain ⟨a, one, i, two, shown, read, rfl⟩ := rendered
      exact whole.element _ _ (ih one) (indexTextKept read ▸ ih two)
    · obtain ⟨texts, each, rfl⟩ := rendered
      exact whole.call _ _ (all each)
    · obtain ⟨a, made, rfl⟩ := rendered
      exact whole.convert _ _ (ih made)
    · obtain ⟨s, -, a, one, c, two, rfl⟩ := rendered
      exact whole.sample _ _ _ (ih one) (ih two)
    · obtain ⟨s, -, a, one, c, two, rfl⟩ := rendered
      exact whole.load _ _ _ (ih one) (ih two)

theorem Spelling.Unbroken.rendered (whole : sp.Unbroken) (unbroken : p.Unbroken) {e : ExprId} {text : String}
    (made : p.render sp e = .ok text) : Whole text := by
  obtain ⟨_, -, made⟩ := Outcome.bindOk.mp made
  exact whole.within unbroken made

theorem Selector.whole {a : Selector} (fits : ∀ text, a = .index text → Whole text) : Whole a.text := by
  cases a with
  | index text =>
    change Whole s!"[{text}]"
    simp +decide [fits text rfl]
  | letters pattern =>
    change Whole ("." ++ Component.letters pattern)
    simp +decide [lettersWhole]

theorem Program.Places.written (whole : sp.Unbroken) (unbroken : p.Unbroken) {e : ExprId} {d : Destination}
    (places : p.Places sp e d) : Whole d.text ∧ ∃ v var rest, p.vars.get? v = some var ∧
      d.text = sp.read var ++ rest := by
  induction places with
  | @read _ _ _ var _ _ varAt =>
    refine ⟨whole.read var (unbroken.vars _ _ varAt), _, var, "", varAt, ?_⟩
    exact (String.append_empty).symm
  | index _ _ _ rendered ih =>
    obtain ⟨before, v, var, rest, varAt, same⟩ := ih
    rw [Destination.throughText]
    refine ⟨(wholeAppend _ _).mpr ⟨before, ?_⟩, v, var, _, varAt, by rw [same, String.append_assoc]⟩
    refine Selector.whole fun text same => ?_
    cases same
    exact whole.within unbroken rendered
  | letters _ _ _ ih =>
    obtain ⟨before, v, var, rest, varAt, same⟩ := ih
    rw [Destination.throughText]
    refine ⟨(wholeAppend _ _).mpr ⟨before, ?_⟩, v, var, _, varAt, by rw [same, String.append_assoc]⟩
    exact Selector.whole fun text same => by cases same

theorem Spelling.Unbroken.target (whole : sp.Unbroken) (written : sp.Postfix) (unbroken : p.Unbroken)
    {e : ExprId} {text : String} (made : p.renderTarget sp e = .ok text) :
    Whole text ∧ ∃ v var rest, p.vars.get? v = some var ∧ text = sp.read var ++ rest := by
  obtain ⟨_, -, made⟩ := Outcome.bindOk.mp made
  obtain ⟨d, places, rfl⟩ := written.places made
  exact places.written whole unbroken

end

theorem calledWhole {name : String} {args : List String} (named : Whole name)
    (each : ∀ t ∈ args, Whole t) : Whole (name ++ "(" ++ joined args ++ ")") := by
  simp +decide [named, joinedWhole each]

theorem convertedWhole {name a : String} (named : Whole name) (operand : Whole a) :
    Whole (name ++ "(" ++ a ++ ")") := by
  simp +decide [named, operand]

theorem unaryWhole (op : UnaryOp) {a : String} (operand : Whole a) : Whole s!"{op.symbol}({a})" := by
  have symbol : Whole op.symbol := by cases op <;> decide
  simp +decide [symbol, operand]

theorem binaryWhole (op : BinaryOp) {a b : String} (left : Whole a) (right : Whole b) :
    Whole s!"({a} {op.symbol} {b})" := by
  have symbol : Whole op.symbol := by cases op <;> decide
  simp +decide [symbol, left, right]

theorem indexedWhole {a i : String} (base : Whole a) (index : Whole i) : Whole s!"{a}[{i}]" := by
  simp +decide [base, index]

theorem swizzledWhole {a : String} (pattern : List Component) (base : Whole a) :
    Whole (a ++ "." ++ Component.letters pattern) := by
  simp +decide [base, lettersWhole]

theorem pickWhole (s : Storage) : Whole s.pick := by
  unfold Storage.pick
  split <;> decide

theorem paddedWhole (s : Storage) {vec value : String} (named : Whole vec) (texel : Whole value) :
    Whole (s.padded vec value) := by
  unfold Storage.padded
  split
  · exact texel
  · have zero : Whole (Storage.zeroText s.kind) := by cases s.kind <;> decide
    have parts : Whole (", ".intercalate (value :: s.padding)) := by
      refine intercalateWhole (by decide) (List.forall_mem_cons.mpr ⟨texel, fun t inside => ?_⟩)
      rw [List.eq_of_mem_replicate inside]
      exact zero
    simp +decide [named, parts]

namespace Glsl

theorem valueNameWhole (ty : ValueTy) : Whole (valueName ty) ∧ Begun (valueName ty) := by
  cases ty with
  | scalar kind => cases kind <;> decide
  | vector size kind => cases size <;> cases kind <;> decide
  | matrix size => cases size <;> decide

theorem samplerNameWhole (s : Sampler) : Whole (samplerName s) ∧ Begun (samplerName s) := by
  obtain ⟨dim, kind⟩ := s
  cases dim <;> cases kind <;> decide

theorem imageNameWhole (s : Storage) : Whole (imageName s) ∧ Begun (imageName s) := by
  have letter (kind : Option ScalarKind) : Whole ((kind.map vectorLetter).getD "") ∧
      (Begun ((kind.map vectorLetter).getD "") ∨ (kind.map vectorLetter).getD "" = "") := by
    cases kind with
    | none => decide
    | some kind => cases kind <;> decide
  unfold imageName
  dsimp only
  split <;> simp +decide [letter]

theorem typeNameWhole (ty : Ty) : Whole (typeName ty) ∧ Begun (typeName ty) := by
  cases ty with
  | void => decide
  | scalar kind => exact valueNameWhole (.scalar kind)
  | vector size kind => exact valueNameWhole (.vector size kind)
  | matrix size => exact valueNameWhole (.matrix size)
  | array elem size =>
    change Whole s!"{valueName elem}[{size}]" ∧ Begun s!"{valueName elem}[{size}]"
    simp +decide [valueNameWhole]
  | sampler s => exact samplerNameWhole s
  | storage s => exact imageNameWhole s

theorem spellingUnbroken : spelling.Unbroken where
  literal := literalWhole
  read v named := by
    change Whole (readText v)
    unfold readText
    split
    · rename_i b _
      cases b <;> decide
    · exact named
  compose ty _ each := calledWhole (typeNameWhole ty).1 each
  unary op _ operand := unaryWhole op operand
  binary op s t a b left right := by
    change Whole (binaryText op s t a b)
    unfold binaryText
    split
    · split <;> simp +decide [typeNameWhole, left, right]
    · exact binaryWhole op left right
  swizzle _ pattern base := swizzledWhole pattern base
  column _ _ base index := indexedWhole base index
  element _ _ base index := indexedWhole base index
  call f _ each := by
    refine calledWhole ?_ each
    cases f <;> decide
  convert ty _ operand := convertedWhole (typeNameWhole ty).1 operand
  sample a _ c texture coord := by
    change Whole s!"texture({a}, {c})"
    simp +decide [texture, coord]
  load a s c texture coord := by
    change Whole (s!"imageLoad({a}, {c})" ++ s.pick)
    simp +decide [texture, coord, pickWhole]
  unbound _ _ _ none := by cases none

theorem storeWhole {a c v : String} (s : Storage) (texture : Whole a) (coord : Whole c) (value : Whole v) :
    Whole (spelling.store a s c v) ∧ Begun (spelling.store a s c v) := by
  have named : Whole (vectorLetter s.kind ++ "vec4") := by cases s.kind <;> decide
  have texel := paddedWhole s named value
  constructor
  · change Whole ("imageStore(" ++ a ++ ", " ++ c ++ ", " ++ s.padded (vectorLetter s.kind ++ "vec4") v ++ ")")
    simp +decide [texture, coord, texel]
  · change Begun ("imageStore(" ++ a ++ ", " ++ c ++ ", " ++ s.padded (vectorLetter s.kind ++ "vec4") v ++ ")")
    simp +decide

theorem spellingPostfix : spelling.Postfix where
  column base i := Wgsl.bracketed base i.text
  element base i := Wgsl.bracketed base i.text
  swizzle _ _ := String.append_assoc ..

end Glsl

namespace Wgsl

theorem scalarNameWhole (kind : ScalarKind) : Whole (scalarName kind) := by cases kind <;> decide

theorem valueNameWhole (ty : ValueTy) : Whole (valueName ty) := by
  cases ty with
  | scalar kind => cases kind <;> decide
  | vector size kind => cases size <;> cases kind <;> decide
  | matrix size => cases size <;> decide

theorem textureNameWhole (s : Sampler) : Whole (textureName s) := by
  obtain ⟨dim, kind⟩ := s
  cases dim <;> cases kind <;> decide

theorem storageNameWhole (s : Storage) {access : String} (word : Whole access) :
    Whole (storageName s access) := by
  have format : Whole ((texelFormat? s.texelTy).getD "rgba32float") := by
    unfold texelFormat?
    split <;> decide
  unfold storageName
  dsimp only
  split <;> simp +decide [format, word]

theorem typeNameWhole (ty : Ty) : Whole (typeName ty) := by
  cases ty with
  | void => decide
  | scalar kind => exact valueNameWhole (.scalar kind)
  | vector size kind => exact valueNameWhole (.vector size kind)
  | matrix size => exact valueNameWhole (.matrix size)
  | array elem size =>
    change Whole s!"array<{valueName elem}, {size}>"
    simp +decide [valueNameWhole]
  | sampler s => exact textureNameWhole s
  | storage s => exact storageNameWhole s (by decide)

theorem moduleNameWhole {v : Variable} (named : Whole v.name) : Whole (moduleName v) := by
  unfold moduleName
  split
  · exact named
  · exact named
  · exact named
  · rename_i stage _ _ _
    have word : Whole stage.name := by cases stage <;> decide
    simp +decide [word, named]

theorem coordArgsWhole (s : Sampler) {coord : String} (at_ : Whole coord) : Whole (coordArgs s coord) := by
  unfold coordArgs
  split <;> simp +decide [at_]

theorem sampleTextWhole (stage : StageKind) (s : Sampler) {texture coord : String} (named : Whole texture)
    (at_ : Whole coord) : Whole (sampleText stage texture s coord) := by
  have args := coordArgsWhole s at_
  unfold sampleText
  dsimp only
  split <;> simp +decide [named, args]

theorem spellingUnbroken (stage : StageKind) : (spelling stage).Unbroken where
  literal := literalWhole
  read _ named := moduleNameWhole named
  compose ty _ each := calledWhole (typeNameWhole ty) each
  unary op _ operand := unaryWhole op operand
  binary op _ _ _ _ left right := binaryWhole op left right
  swizzle _ pattern base := swizzledWhole pattern base
  column _ _ base index := indexedWhole base index
  element _ _ base index := indexedWhole base index
  call f _ each := by
    refine calledWhole ?_ each
    cases f <;> decide
  convert ty _ operand := convertedWhole (typeNameWhole ty) operand
  sample _ s _ texture coord := sampleTextWhole stage s texture coord
  load a s c texture coord := by
    change Whole (s!"textureLoad({a}, {c})" ++ s.pick)
    simp +decide [texture, coord, pickWhole]
  unbound _ _ _ none := by cases none

theorem storeWhole {stage : StageKind} {a c v : String} (s : Storage) (texture : Whole a)
    (coord : Whole c) (value : Whole v) :
    Whole ((spelling stage).store a s c v) ∧ Begun ((spelling stage).store a s c v) := by
  have named : Whole s!"vec4<{scalarName s.kind}>" := by simp +decide [scalarNameWhole]
  have texel := paddedWhole s named value
  constructor
  · change Whole ("textureStore(" ++ a ++ ", " ++ c ++ ", " ++ s.padded s!"vec4<{scalarName s.kind}>" v ++ ")")
    simpa +decide [texture, coord] using texel
  · change Begun ("textureStore(" ++ a ++ ", " ++ c ++ ", " ++ s.padded s!"vec4<{scalarName s.kind}>" v ++ ")")
    simp +decide

end Wgsl

end ShaderGraph
