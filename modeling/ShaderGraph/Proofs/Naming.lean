import Mathlib.Data.List.DropRight
import ShaderGraph.Glsl.Dialect
import ShaderGraph.Proofs.History
import ShaderGraph.Wgsl.Dialect
/-! Names of variables. A local is named by its stem and the count of names given before, so what
follows the last underscore of its name tells which count, and two locals are named apart until
the count has gone round. Interface variables keep the names they were given, and nothing keeps
those from ending in a count too. -/
namespace ShaderGraph

open Build

def suffix (name : String) : List Char := name.toList.rtakeWhile (· ≠ '_')

theorem suffixAfter (front back : String) : suffix (front ++ "_" ++ back) = suffix back := by
  have spelled : (front ++ "_" ++ back).toList.reverse =
      back.toList.reverse ++ '_' :: front.toList.reverse := by simp
  rw [suffix, List.rtakeWhile, spelled, List.takeWhile_append]
  split
  · rename_i whole
    rw [suffix, List.rtakeWhile, (List.takeWhile_sublist _).eq_of_length whole]
    simp
  · rfl

theorem suffixNumbered (stem : String) (n : UInt32) :
    suffix s!"{stem}_{n}" = Nat.toDigits 10 n.toNat := by
  change suffix (stem ++ "_" ++ n.toNat.repr) = _
  rw [suffixAfter, suffix, Nat.toList_repr, List.rtakeWhile_eq_self_iff]
  exact fun c inside => decide_eq_true fun same => Nat.underscore_not_in_toDigits (same ▸ inside)

theorem numberedDigits (stem : String) (n : UInt32) :
    (suffix s!"{stem}_{n}").all Char.isDigit = true := by
  rw [suffixNumbered, List.all_eq_true]
  exact fun c => Nat.isDigit_of_mem_toDigits (by decide) (by decide)

theorem digitsSame {m n : UInt32} (same : Nat.toDigits 10 m.toNat = Nat.toDigits 10 n.toNat) :
    m = n := by
  have numbers := congrArg (fun digits => Nat.ofDigitChars 10 digits 0) same
  exact UInt32.toNat_inj.mp (by simpa using numbers)

theorem numberedNumber {stem other : String} {m n : UInt32}
    (same : s!"{stem}_{m}" = s!"{other}_{n}") : m = n := by
  have digits := suffixNumbered stem m
  rw [same, suffixNumbered] at digits
  exact digitsSame digits.symm

theorem numberedLate {stem other : String} {m n : Nat} (earlier : m < n)
    (same : s!"{stem}_{UInt32.ofNat m}" = s!"{other}_{UInt32.ofNat n}") : UInt32.size ≤ n := by
  -- counts that are written alike are the same modulo the size of the counter
  have counts := congrArg UInt32.toNat (numberedNumber same)
  simp only [UInt32.toNat_ofNat'] at counts
  unfold UInt32.size
  omega

def Variable.Given (v : Variable) : Prop :=
  match v.kind with
  | .uniform | .stageInput _ | .stageOutput _ => True
  | .lexical | .builtin _ => False

def spellings : List (Variable → String) := [Variable.name, Glsl.readText, Wgsl.moduleName]

section

variable {write : Variable → String} {v : Variable}

theorem spelledLocal (among : write ∈ spellings) (kind : v.kind = .lexical) : write v = v.name := by
  simp only [spellings, List.mem_cons, List.not_mem_nil, or_false] at among
  rcases among with rfl | rfl | rfl
  · rfl
  · rw [Glsl.readText, kind]
  · rw [Wgsl.moduleName, kind]

theorem moduleSuffix (v : Variable) : suffix (Wgsl.moduleName v) = suffix v.name := by
  unfold Wgsl.moduleName
  split
  · rfl
  · rfl
  · rfl
  · exact suffixAfter _ _

theorem spelledGiven (among : write ∈ spellings) (given : v.Given) :
    suffix (write v) = suffix v.name := by
  simp only [spellings, List.mem_cons, List.not_mem_nil, or_false] at among
  rcases among with rfl | rfl | rfl
  · rfl
  · unfold Glsl.readText
    split
    · rename_i kind
      rw [Variable.Given, kind] at given
      exact given.elim
    · rfl
  · exact moduleSuffix v

theorem spelledBuiltin (among : write ∈ spellings) {b : Builtin} (kind : v.kind = .builtin b)
    (name : v.name = b.name) : (suffix (write v)).all Char.isDigit = false := by
  have wordy : (suffix b.name).all Char.isDigit = false := by cases b <;> decide
  simp only [spellings, List.mem_cons, List.not_mem_nil, or_false] at among
  rcases among with rfl | rfl | rfl
  · rwa [name]
  · have same : Glsl.readText v = Glsl.builtinName b := by rw [Glsl.readText, kind]
    rw [same]
    cases b <;> decide
  · rwa [moduleSuffix, name]

end

/-- The program has given `n` names. Each local has one of them, and two locals have the same
one only once the count has gone round. -/
structure Numbered (n : Nat) (p : Program) : Prop where
  counter : p.nameCounter = .ofNat n
  named : ∀ ⦃v var⦄, p.vars.get? v = some var → var.kind = .lexical →
    ∃ stem : String, ∃ k < n, var.name = s!"{stem}_{UInt32.ofNat k}"
  once : ∀ ⦃v w var other⦄, v ≠ w → p.vars.get? v = some var → var.kind = .lexical →
    p.vars.get? w = some other → other.kind = .lexical → var.name = other.name → UInt32.size ≤ n
  builtin : ∀ ⦃v var b⦄, p.vars.get? v = some var → var.kind = .builtin b → var.name = b.name

section

variable {p q : Program} {n : Nat}

namespace Numbered

theorem new (name : String) : Numbered 0 { name } where
  counter := rfl
  named _ _ at_ := absurd at_ emptyGet
  once _ _ _ _ _ at_ := absurd at_ emptyGet
  builtin _ _ _ at_ := absurd at_ emptyGet

theorem kept (numbered : Numbered n p) (counter : q.nameCounter = p.nameCounter)
    (old : ∀ ⦃v var⦄, q.vars.get? v = some var →
      ∃ before, p.vars.get? v = some before ∧ var.name = before.name ∧ var.kind = before.kind) :
    Numbered n q where
  counter := counter.trans numbered.counter
  named v var at_ kind := by
    obtain ⟨_, there, name, same⟩ := old at_
    rw [name]
    exact numbered.named there (same ▸ kind)
  once v w var other apart at_ kind otherAt otherKind same := by
    obtain ⟨_, there, name, sameKind⟩ := old at_
    obtain ⟨_, otherThere, otherName, otherSame⟩ := old otherAt
    exact numbered.once apart there (sameKind ▸ kind) otherThere (otherSame ▸ otherKind)
      (name ▸ otherName ▸ same)
  builtin v var b at_ kind := by
    obtain ⟨_, there, name, same⟩ := old at_
    rw [name]
    exact numbered.builtin there (same ▸ kind)

theorem same (numbered : Numbered n p) (counter : q.nameCounter = p.nameCounter)
    (vars : q.vars = p.vars) : Numbered n q :=
  numbered.kept counter fun _ var at_ => ⟨var, vars ▸ at_, rfl, rfl⟩

theorem spend (numbered : Numbered n p) : Numbered (n + 1) p.spent where
  counter := by
    rw [UInt32.ofNat_add, ← numbered.counter]
    rfl
  named v var at_ kind := by
    obtain ⟨stem, k, less, name⟩ := numbered.named at_ kind
    exact ⟨stem, k, Nat.lt_succ_of_lt less, name⟩
  once v w var other apart at_ kind otherAt otherKind same :=
    Nat.le_succ_of_le (numbered.once apart at_ kind otherAt otherKind same)
  builtin := numbered.builtin

theorem verbatim (numbered : Numbered n p) {var : Variable} (kind : var.kind ≠ .lexical)
    (named : ∀ b, var.kind = .builtin b → var.name = b.name) : Numbered n (p.withVar var) where
  counter := numbered.counter
  named v _ at_ isLocal := by
    rcases Arena.getPushed at_ with ⟨-, rfl⟩ | at_
    · exact absurd isLocal kind
    · exact numbered.named at_ isLocal
  once v w _ _ apart at_ isLocal otherAt otherLocal same := by
    rcases Arena.getPushed at_ with ⟨-, rfl⟩ | at_
    · exact absurd isLocal kind
    · rcases Arena.getPushed otherAt with ⟨-, rfl⟩ | otherAt
      · exact absurd otherLocal kind
      · exact numbered.once apart at_ isLocal otherAt otherLocal same
  builtin v _ b at_ isBuiltin := by
    rcases Arena.getPushed at_ with ⟨-, rfl⟩ | at_
    · exact named b isBuiltin
    · exact numbered.builtin at_ isBuiltin

theorem lexicalName (numbered : Numbered n p) (scope : ScopeId) (home : Scope) (stem : String)
    (ty : Ty) : (p.lexical scope home stem ty).name = s!"{stem}_{UInt32.ofNat n}" :=
  congrArg (fun count : UInt32 => s!"{stem}_{count}") numbered.counter

theorem lexical (numbered : Numbered n p) (scope : ScopeId) (home : Scope) (stem : String)
    (ty : Ty) : Numbered (n + 1) (p.spent.withVar (p.lexical scope home stem ty)) where
  counter := numbered.spend.counter
  named v _ at_ kind := by
    rcases Arena.getPushed at_ with ⟨-, rfl⟩ | at_
    · exact ⟨stem, n, Nat.lt_succ_self n, numbered.lexicalName scope home stem ty⟩
    · exact numbered.spend.named at_ kind
  once v w _ _ apart at_ kind otherAt otherKind same := by
    -- an older local has an earlier count, so its name comes again only after a full round
    have late {u : VarId} {old : Variable} (oldAt : p.vars.get? u = some old)
        (oldKind : old.kind = .lexical)
        (same : old.name = (p.lexical scope home stem ty).name) : UInt32.size ≤ n + 1 := by
      obtain ⟨_, k, less, name⟩ := numbered.named oldAt oldKind
      rw [name, numbered.lexicalName] at same
      exact Nat.le_succ_of_le (numberedLate less same)
    rcases Arena.getPushed at_ with ⟨rfl, rfl⟩ | at_
    · rcases Arena.getPushed otherAt with ⟨rfl, rfl⟩ | otherAt
      · exact absurd rfl apart
      · exact late otherAt otherKind same.symm
    · rcases Arena.getPushed otherAt with ⟨rfl, rfl⟩ | otherAt
      · exact late at_ kind same
      · exact numbered.spend.once apart at_ kind otherAt otherKind same
  builtin v _ b at_ kind := by
    rcases Arena.getPushed at_ with ⟨-, rfl⟩ | at_
    · cases kind
    · exact numbered.builtin at_ kind

end Numbered

inductive Names (n : Nat) (p q : Program) : Prop
  | none (numbered : Numbered n q)
  | one (numbered : Numbered (n + 1) q)
  | two (numbered : Numbered (n + 2) q) (opens : q.scopes ≠ p.scopes)

theorem Edit.names (edit : Edit p q) (numbered : Numbered n p) : Names n p q := by
  cases edit with
  | spend => exact .one numbered.spend
  | expr | stage | store | slot | fill => exact .none (numbered.same rfl rfl)
  | uniform | stageInput | stageOutput =>
    refine .none ((numbered.verbatim ?_ ?_).same rfl rfl)
    · exact nofun
    · exact nofun
  | builtin =>
    refine .none ((numbered.verbatim ?_ fun b same => ?_).same rfl rfl)
    · exact nofun
    · cases same
      rfl
  | declare | output => exact .one ((numbered.lexical ..).same rfl rfl)
  | assign =>
    refine .none (numbered.kept rfl fun v var at_ => ?_)
    obtain ⟨before, there, same⟩ := Arena.getReplaced at_
    refine ⟨before, there, ?_⟩
    rw [same]
    split
    · exact ⟨rfl, rfl⟩
    · exact ⟨rfl, rfl⟩
  | branch | block => exact .one (numbered.spend.same rfl rfl)
  | @loop scope home =>
    have inside : Numbered (n + 1) (p.opened scope home s!"loop_{p.nameCounter}_body") :=
      numbered.spend.same rfl rfl
    refine .two ((inside.lexical ..).same rfl rfl) fun same => ?_
    have sizes := congrArg Arena.size same
    simp [Program.looped, Program.placed, Program.counted, Program.opened, Program.withScope,
      Program.mapScope, Program.withStmt, Program.withVar, Program.spent] at sizes

theorem Names.few (names : Names n p q) : ∃ k ≤ 2, Numbered (n + k) q := by
  cases names with
  | none numbered => exact ⟨0, by decide, numbered⟩
  | one numbered => exact ⟨1, by decide, numbered⟩
  | two numbered => exact ⟨2, by decide, numbered⟩

theorem Aside.names (aside : Aside p q) (numbered : Numbered n p) :
    ∃ k ≤ 1, Numbered (n + k) q := by
  cases aside.1.names numbered with
  | none numbered => exact ⟨0, by decide, numbered⟩
  | one numbered => exact ⟨1, by decide, numbered⟩
  | two _ opens => exact absurd aside.2 opens

theorem asideTwice {r : Program} (one : Aside p r) (two : Aside r q) (numbered : Numbered n p) :
    ∃ k ≤ 2, Numbered (n + k) q := by
  obtain ⟨j, few, numbered⟩ := one.names numbered
  obtain ⟨k, fewer, numbered⟩ := two.names numbered
  exact ⟨j + k, by omega, Nat.add_assoc n j k ▸ numbered⟩

theorem inputNames {b : BlockId} {name : Option String} {ty : Ty} {default : Option ExprId}
    {made : Logged SlotId} (ran : input b name ty default p = .ok made q)
    (numbered : Numbered n p) : ∃ k ≤ 2, Numbered (n + k) q := by
  cases inputMade ran with
  | @made _ _ _ r _ _ _ named _ _ _ filled =>
    obtain ⟨_, _, _, _, -, -, -, -, rfl⟩ := fillSlotOk filled
    rcases named with rfl | rfl
    · exact ⟨0, by decide, numbered.same rfl rfl⟩
    · exact ⟨1, by decide, numbered.spend.same rfl rfl⟩

theorem stepNames {call : Call} (step : Step p call q) (numbered : Numbered n p) :
    ∃ k ≤ 2, Numbered (n + k) q := by
  cases step with
  | refused error failed =>
    cases refusedTrace failed with
    | nothing => exact ⟨0, by decide, numbered⟩
    | name => exact ⟨1, by decide, numbered.spend⟩
    | literal => exact ⟨0, by decide, numbered.same rfl rfl⟩
  | answered answer ran =>
    cases among : call.compound with
    | false =>
      exact ((answeredEdit among ran).names numbered).few
    | true =>
      cases call with
      | builtin =>
        obtain ⟨_, ran⟩ := quietOk ran
        rcases builtinEdit ran with rfl | made
        · exact ⟨0, by decide, numbered⟩
        · exact (made.1.names numbered).few
      | columnAt =>
        obtain ⟨_, ran⟩ := quietOk ran
        obtain ⟨_, index, view⟩ := columnAtEdits ran
        exact asideTwice index view numbered
      | elementAt =>
        obtain ⟨_, ran⟩ := quietOk ran
        obtain ⟨_, index, view⟩ := elementAtEdits ran
        exact asideTwice index view numbered
      | input =>
        obtain ⟨_, ran⟩ := loggedOk ran
        exact inputNames ran numbered
      | arrayInput =>
        obtain ⟨_, ran⟩ := loggedOk ran
        obtain ⟨_, -, ran⟩ := liftThen ran
        exact inputNames ran numbered
      | _ => cases among

theorem Run.numbered {past : List Attempt} (run : Run past p) :
    ∃ n ≤ 2 * past.length, Numbered n p := by
  induction run with
  | new name => exact ⟨0, by decide, .new name⟩
  | call _ step ih =>
    obtain ⟨n, most, numbered⟩ := ih
    obtain ⟨k, few, numbered⟩ := stepNames step numbered
    refine ⟨n + k, ?_, numbered⟩
    rw [List.length_cons]
    omega

theorem localsApart {past : List Attempt} (run : Run past p) {v : VarId} {var : Variable}
    (at_ : p.vars.get? v = some var) (kind : var.kind = .lexical) :
    (∃ stem : String, ∃ k < 2 * past.length, var.name = s!"{stem}_{UInt32.ofNat k}") ∧
      ∀ w other, w ≠ v → p.vars.get? w = some other → ∀ write ∈ spellings,
        write other = write var →
          other.Given ∧ (suffix other.name).all Char.isDigit = true ∨
            other.kind = .lexical ∧ UInt32.size ≤ 2 * past.length := by
  obtain ⟨n, most, numbered⟩ := run.numbered
  obtain ⟨stem, k, less, name⟩ := numbered.named at_ kind
  refine ⟨⟨stem, k, by omega, name⟩, fun w other apart otherAt write among same => ?_⟩
  rw [spelledLocal among kind] at same
  have digits : (suffix (write other)).all Char.isDigit = true := by
    rw [same, name]
    exact numberedDigits stem _
  have given (known : other.Given) :
      other.Given ∧ (suffix other.name).all Char.isDigit = true :=
    ⟨known, spelledGiven among known ▸ digits⟩
  cases otherKind : other.kind with
  | uniform | stageInput | stageOutput =>
    refine .inl (given ?_)
    rw [Variable.Given, otherKind]
    trivial
  | builtin b =>
    rw [spelledBuiltin among otherKind (numbered.builtin otherAt otherKind)] at digits
    cases digits
  | lexical =>
    rw [spelledLocal among otherKind] at same
    have round := numbered.once apart otherAt otherKind at_ kind same
    exact .inr ⟨rfl, by omega⟩

def counterRun : List Call :=
  [.addStage .fragment, .builtin .fragCoord, .literal (.int 0), .declare ⟨0⟩ "i" .int1 none,
    .loop ⟨0⟩ ⟨0⟩ ⟨0⟩]

theorem localsApartCounter : ∃ past p var, Run past p ∧ p.vars.get? ⟨2⟩ = some var ∧
    var.kind = .lexical ∧ ∀ w other, w ≠ ⟨2⟩ → p.vars.get? w = some other →
      ∀ write ∈ spellings, write other ≠ write var := by
  obtain ⟨p, ran, kinds, at_⟩ : ∃ p, Program.after { name := "p" } counterRun = some p ∧
      p.vars.nodes.toList.map Variable.kind = [.builtin .fragCoord, .lexical, .lexical] ∧
      (p.vars.get? ⟨2⟩).map Variable.kind = some .lexical := ⟨_, rfl, rfl, rfl⟩
  obtain ⟨var, at_, kind⟩ := Option.map_eq_some_iff.mp at_
  obtain ⟨late, length, run⟩ := (Run.new "p").after ran
  refine ⟨_, p, var, run, at_, kind, fun w other apart otherAt write among same => ?_⟩
  rcases (localsApart run at_ kind).2 w other apart otherAt write among same with
    ⟨given, -⟩ | ⟨-, many⟩
  · have inside := List.mem_map_of_mem (f := Variable.kind) (Arena.memNodes.mpr ⟨w, otherAt⟩)
    simp only [kinds, List.mem_cons, List.not_mem_nil, or_false] at inside
    rcases inside with kind | kind | kind <;> rw [Variable.Given, kind] at given <;> exact given
  · rw [List.append_nil, length] at many
    exact absurd many (by decide)

def shadowRun : List Call :=
  [.addStage .fragment, .uniform "v_0" .float1, .literal (.float ⟨0⟩),
    .declare ⟨0⟩ "v" .float1 (some ⟨0⟩), .read ⟨0⟩, .read ⟨1⟩]

theorem givenNameTaken : ∃ (p : Program) (var other : Variable), Reachable p ∧ p.check = .ok [] ∧
    p.vars.get? ⟨1⟩ = some var ∧ var.kind = .lexical ∧ p.vars.get? ⟨0⟩ = some other ∧
    other.kind = .uniform ∧ var.name = other.name ∧
    (p.exprs.get? ⟨2⟩).map Expr.op = some (.read ⟨1⟩) ∧
    (p.exprs.get? ⟨1⟩).map Expr.op = some (.read ⟨0⟩) ∧
    p.render Glsl.spelling ⟨2⟩ = p.render Glsl.spelling ⟨1⟩ ∧
    ∀ stage, p.render (Wgsl.spelling stage) ⟨2⟩ = p.render (Wgsl.spelling stage) ⟨1⟩ := by
  have shadowed : Program.after { name := "p" } shadowRun = some _ := rfl
  exact ⟨_, _, _, (Reachable.new "p").after shadowed, rfl, rfl, rfl, rfl, rfl, rfl, rfl, rfl, rfl,
    fun _ => rfl⟩

end

end ShaderGraph
