import ShaderGraph.Proofs.Outlines
/-! Numbers of bindings. The uniforms of a module are numbered in the order of their declaration
from zero on, a sampler with two numbers and any other uniform with one, and no other line of the
module declares a binding. -/
namespace ShaderGraph

open Compile

namespace Program

variable (p : Program)

def paired (v : VarId) : Bool :=
  (p.vars.get? v).any fun var => match var.ty with
    | .sampler _ => true
    | _ => false

def taken (vs : List VarId) : Nat := vs.length + vs.countP p.paired

end Program

section

variable {p : Program} {v : VarId} {var : Variable} {own : List Wgsl.Binding} {n : Nat}

theorem Program.takenCons (v : VarId) (vs : List VarId) : p.taken (v :: vs) = p.taken [v] + p.taken vs := by
  simp only [Program.taken, List.length_cons, List.length_nil, List.countP_cons, List.countP_nil]
  omega

theorem Wgsl.Takes.length {number : UInt32} (at_ : p.vars.get? v = some var)
    (takes : Wgsl.Takes p number v var own) : own.length = p.taken [v] := by
  cases takes with
  | sampler ty => simp [Program.taken, Program.paired, at_, ty]
  | storage ty => simp [Program.taken, Program.paired, at_, ty]
  | value plain =>
    cases ty : var.ty with
    | sampler => simp [ty, Ty.isResource] at plain
    | _ => simp [Program.taken, Program.paired, at_, ty]

theorem Wgsl.Takes.numbers (takes : Wgsl.Takes p (.ofNat n) v var own) (few : n + own.length ≤ 4294967296) :
    own.map (fun b => b.number.toNat) = List.range' n own.length := by
  have first (small : n < 4294967296) : (UInt32.ofNat n).toNat = n := UInt32.toNat_ofNat_of_lt' small
  cases takes with
  | sampler =>
    have small : n + 1 < 4294967296 := Nat.lt_of_succ_le few
    have second : (UInt32.ofNat n + 1).toNat = n + 1 := by
      rw [UInt32.toNat_add, first (by omega)]
      exact Nat.mod_eq_of_lt small
    simp [List.range'_succ, first (by omega), second]
  | storage | value =>
    have small : n < 4294967296 := Nat.lt_of_succ_le few
    simp [first small]

theorem Wgsl.Numbered.numbers {number : UInt32} {vs : List VarId} {groups : List (List Wgsl.Binding)}
    (numbered : Wgsl.Numbered p number vs groups) (from_ : number = .ofNat n)
    (few : n + p.taken vs ≤ 4294967296) :
    groups.flatten.map (fun b => b.number.toNat) = List.range' n (p.taken vs) := by
  induction numbered generalizing n with
  | nil => rfl
  | @cons _ v var rest own _ at_ takes _ ih =>
    subst from_
    have length := takes.length at_
    rw [Program.takenCons] at few ⊢
    rw [List.flatten_cons, List.map_append, takes.numbers (by omega),
      ih (n := n + own.length) (UInt32.ofNat_add _ _).symm (by omega), length]
    exact List.range'_append_1

theorem Wgsl.Numbered.placed {number : UInt32} {before after : List VarId}
    {groups : List (List Wgsl.Binding)} (numbered : Wgsl.Numbered p number (before ++ v :: after) groups)
    (from_ : number = .ofNat n) : ∃ front own back var, groups.flatten = front ++ own ++ back ∧
      p.vars.get? v = some var ∧ front.length = p.taken before ∧
      Wgsl.Takes p (.ofNat (n + p.taken before)) v var own := by
  induction before generalizing n number groups with
  | nil =>
    cases numbered with
    | @cons _ _ var _ own groups at_ takes _ =>
      exact ⟨[], own, groups.flatten, var, rfl, at_, rfl, from_ ▸ takes⟩
  | cons w before ih =>
    cases numbered with
    | @cons _ _ _ _ other _ thereAt others later =>
      subst from_
      have length := others.length thereAt
      obtain ⟨front, own, back, var, same, at_, stands, takes⟩ :=
        ih later (n := n + other.length) (UInt32.ofNat_add _ _).symm
      refine ⟨other ++ front, own, back, var, by simp [same], at_, ?_, ?_⟩
      · rw [List.length_append, stands, length, ← Program.takenCons]
      · rw [Program.takenCons, ← length, ← Nat.add_assoc]
        exact takes

end

end ShaderGraph
