import Mathlib.Data.List.Forall2
import ShaderGraph.Target.Basic
import ShaderGraph.Proofs.Build.Steps
/-! Compilations step by step: what ran where one has ended well, and what one may stop for. -/
namespace ShaderGraph

namespace Compile

variable {α β : Type} {r s : Report}

theorem bindOk {x : Compile α} {f : α → Compile β} {b : β} :
    (x >>= f) r = .ok b s ↔ ∃ a t, x r = .ok a t ∧ f a t = .ok b s := ranBind

theorem liftOk {x : Outcome α} {a : α} : (liftM x : Compile α) r = .ok a s ↔ x = .ok a ∧ r = s := by
  change ofOutcome x r = _ ↔ _
  unfold ofOutcome
  cases x <;> simp

theorem pureOk {a b : α} : (pure a : Compile α) r = .ok b s ↔ a = b ∧ r = s := ranPure

theorem unsupportedOk {what : String} {a : α} : ¬ (unsupported what : Compile α) r = .ok a s :=
  fun ran => by cases ran

theorem afterOk {c : Prop} [Decidable c] {x : Compile β} {y : Compile α} {a : α}
    (ran : (if c then x >>= fun _ => y else y) r = .ok a s) : ∃ t, y t = .ok a s := by
  split at ran
  · obtain ⟨_, t, -, ran⟩ := bindOk.mp ran
    exact ⟨t, ran⟩
  · exact ⟨r, ran⟩

theorem walkOk {x : Emit α} {a : α} (ran : walk x r = .ok a s) : ∃ w, x {} = .ok a w := by
  unfold walk at ran
  split at ran
  · rename_i w made
    cases ran
    exact ⟨w, made⟩
  · cases ran

theorem mapMOk {f : α → Compile β} {as : List α} {bs : List β} (ran : as.mapM f r = .ok bs s) :
    List.Forall₂ (fun a b => ∃ t u, f a t = .ok b u) as bs := by
  induction as generalizing r s bs with
  | nil =>
    obtain ⟨rfl, -⟩ := pureOk.mp ran
    exact .nil
  | cons a rest ih =>
    simp only [List.mapM_cons, bindOk, pureOk] at ran
    obtain ⟨b, t, one, others, u, more, rfl, -⟩ := ran
    exact .cons ⟨r, t, one⟩ (ih more)

def StopsFor (allowed : Stop → Prop) (x : Compile α) : Prop :=
  ∀ r why s, x r = .error why s → allowed why

namespace StopsFor

variable {allowed : Stop → Prop}

theorem pure (a : α) : StopsFor allowed (Pure.pure a : Compile α) :=
  fun _ _ _ failed => by cases failed

theorem bind {x : Compile α} {f : α → Compile β} (first : StopsFor allowed x)
    (second : ∀ a, StopsFor allowed (f a)) : StopsFor allowed (x >>= f) := by
  intro r why s failed
  change EStateM.bind x f r = _ at failed
  unfold EStateM.bind at failed
  split at failed
  · exact second _ _ _ _ failed
  · rename_i ran
    cases failed
    exact first _ _ _ ran

theorem lift {x : Outcome α} {f : α → Compile β}
    (fails : ∀ e, x = .error e → allowed (.ofFailure e))
    (second : ∀ a, x = .ok a → StopsFor allowed (f a)) : StopsFor allowed (liftM x >>= f) := by
  cases x with
  | ok a => exact second a rfl
  | error e =>
    intro r why s failed
    cases failed
    exact fails e rfl

theorem refuse {cause : Refusal} (holds : allowed (.refused cause)) :
    StopsFor allowed (Compile.refuse cause : Compile α) := by
  intro r why s failed
  cases failed
  exact holds

theorem modify (f : Report → Report) : StopsFor allowed (modify f : Compile PUnit) :=
  fun _ _ _ failed => by cases failed

theorem walk {x : Emit α} (fails : ∀ e v, x {} = .error e v → allowed (.ofFailure e)) :
    StopsFor allowed (Compile.walk x) := by
  intro r why s failed
  unfold Compile.walk at failed
  split at failed
  · cases failed
  · rename_i e v ran
    cases failed
    exact fails e v ran

theorem ite {c : Prop} [Decidable c] {x y : Compile α} (yes : c → StopsFor allowed x)
    (no : ¬ c → StopsFor allowed y) : StopsFor allowed (if c then x else y) := by
  split
  · exact yes ‹_›
  · exact no ‹_›

theorem mapM {f : α → Compile β} {as : List α} (each : ∀ a ∈ as, StopsFor allowed (f a)) :
    StopsFor allowed (as.mapM f) := by
  induction as with
  | nil => exact pure _
  | cons a rest ih =>
    rw [List.mapM_cons]
    have later := ih fun b inside => each b (List.mem_cons_of_mem _ inside)
    exact bind (each a List.mem_cons_self) fun _ => bind later fun _ => pure _

end StopsFor

end Compile

section

variable {b : Backend} {f : Frozen} {o : Options}

theorem compiledReport {out : Output} (compiled : (b.compile f o).result = .ok out) :
    ∃ r, b.files f.program o {} = .ok out.files r ∧ r.diagnostics = out.diagnostics := by
  unfold Backend.compile at compiled
  split at compiled
  · rename_i files r made
    cases compiled
    exact ⟨r, made, rfl⟩
  · cases compiled

theorem compiledOk {out : Output} (compiled : (b.compile f o).result = .ok out) :
    ∃ r, b.files f.program o {} = .ok out.files r := by
  obtain ⟨r, made, -⟩ := compiledReport compiled
  exact ⟨r, made⟩

theorem compiledError {why : Stop} (compiled : (b.compile f o).result = .error why) :
    ∃ r, b.files f.program o {} = .error why r := by
  unfold Backend.compile at compiled
  split at compiled
  · cases compiled
  · rename_i r made
    cases compiled
    exact ⟨r, made⟩

end

end ShaderGraph
