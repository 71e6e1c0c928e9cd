import ShaderGraph.Failure
/-! Append-only storage. A node keeps its place for the life of its program, so a handle
is a place; its sort keeps the arenas of a program apart. Places stop at `Handle.limit`,
one short of the largest 32-bit word, and an arena with that many nodes is full. -/
namespace ShaderGraph

inductive NodeSort
  | var
  | expr
  | stmt
  | scope
  | block
  | slot
  deriving DecidableEq, Repr

structure Handle (sort : NodeSort) where
  index : Nat
  deriving DecidableEq, Repr

instance (sort : NodeSort) : LawfulBEq (Handle sort) := inferInstance

abbrev VarId := Handle .var
abbrev ExprId := Handle .expr
abbrev StmtId := Handle .stmt
abbrev ScopeId := Handle .scope
abbrev BlockId := Handle .block
abbrev SlotId := Handle .slot

def Handle.limit : Nat := 4294967295

/-- The handle of a place; places past the last one share the last handle. -/
def Handle.ofIndex {s : NodeSort} (n : Nat) : Handle s := ⟨min n (limit - 1)⟩

def Handle.text {s : NodeSort} (h : Handle s) : String := s!"#{h.index}"

theorem ofIndexBelow {s : NodeSort} {n : Nat} (h : n < Handle.limit) :
    (Handle.ofIndex n : Handle s).index = n := by
  simp only [Handle.ofIndex]; omega

structure Arena (s : NodeSort) (α : Type) where
  nodes : Array α := #[]
  deriving DecidableEq, Repr

namespace Arena

variable {s : NodeSort} {α : Type}

def size (a : Arena s α) : Nat := a.nodes.size

def isEmpty (a : Arena s α) : Bool := a.size == 0

def get? (a : Arena s α) (h : Handle s) : Option α := a.nodes[h.index]?

/-- Reads a handle that came from outside; one that is out of range is the caller's error. -/
def find (a : Arena s α) (h : Handle s) : Outcome α :=
  match a.get? h with
  | some n => .ok n
  | none => reject (.badHandle h.index a.size)

/-- Reads a handle that the program itself keeps. -/
def fetch (a : Arena s α) (h : Handle s) : Outcome α :=
  match a.get? h with
  | some n => .ok n
  | none => abort (.dangling h.index a.size)

def next (a : Arena s α) : Outcome (Handle s) :=
  if a.size < Handle.limit then .ok (Handle.ofIndex a.size) else abort (.full a.size)

def append (a : Arena s α) (n : α) : Outcome (Handle s × Arena s α) :=
  a.next.map fun h => (h, ⟨a.nodes.push n⟩)

def adjust (a : Arena s α) (h : Handle s) (f : α → α) : Outcome (Arena s α) :=
  if h.index < a.size then .ok ⟨a.nodes.modify h.index f⟩ else abort (.dangling h.index a.size)

def entries (a : Arena s α) : List (Handle s × α) :=
  a.nodes.toList.zipIdx.map fun (n, i) => (Handle.ofIndex i, n)

theorem findOfGet {a : Arena s α} {h : Handle s} {n : α} (at_ : a.get? h = some n) :
    a.find h = .ok n := by simp [find, at_]

theorem fetchOfGet {a : Arena s α} {h : Handle s} {n : α} (at_ : a.get? h = some n) :
    a.fetch h = .ok n := by simp [fetch, at_]

theorem fetchSome {a : Arena s α} {h : Handle s} {n : α} (read : a.fetch h = .ok n) :
    a.get? h = some n := by
  unfold fetch at read
  split at read
  · rename_i m at_; cases read; exact at_
  · cases read

theorem getBelow {a : Arena s α} {h : Handle s} : (a.get? h).isSome ↔ h.index < a.size := by
  simp [get?, size]

end Arena

end ShaderGraph
