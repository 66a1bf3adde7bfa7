import Mathlib.Data.List.Basic

set_option relaxedAutoImplicit false
set_option autoImplicit false

/-!
# Runs of a partial transition function

A concurrent or reactive program is given here as a function `next : σ → ε → Option σ`: the
label `ε` says which party moves and how everything outside the program answers, and `none`
says that the move is not possible in that state. A run is the list of the steps taken, each
with the state before and after it, so that a property of every state reached and a condition
on every step are both quantifications over one list.

## Main definitions

* `Transition.Step` — one step taken: the state before, the label, the state after.
* `Transition.Run` — the runs of `next` from one state to another.
* `Transition.exec` — the run that a given list of labels produces.

## Main results

* `Transition.Run.forall_step` — a step invariant holds before and after every step of a run.
* `Transition.Run.forall_post_of_guard` — what guarded steps preserve, guarded runs preserve.
* `Transition.Run.forall_post_iff` — a property that a step keeps exactly when it meets its
  guard holds in all states of a run exactly when all steps meet the guard.
* `Transition.Run.exists_step_of_not` — a property that comes to hold in a run does so in one of
  its steps.
* `Transition.Run.exists_map` — a simulation with stuttering maps runs to runs.
* `Transition.Run.of_exec` — what `exec` returns is a run.
* `Transition.Run.length_add_le`, `Transition.exists_run_of_progress` — steps that decrease a
  measure: how long their runs are, and where they can be led.
-/

namespace Transition

universe u v

variable {σ : Type u} {ε : Type v}

/-- One step taken in a run. -/
structure Step (σ : Type u) (ε : Type v) where
  /-- The state in which the step was taken. -/
  pre : σ
  /-- Who moved, and what the outside world answered. -/
  label : ε
  /-- The state the step led to. -/
  post : σ

/-- `Run next s tr s'`: the steps `tr`, in this order, lead from `s` to `s'`. -/
inductive Run (next : σ → ε → Option σ) : σ → List (Step σ ε) → σ → Prop
  | nil (s : σ) : Run next s [] s
  | cons {s m s' : σ} {e : ε} {tr : List (Step σ ε)} (h : next s e = some m)
      (hr : Run next m tr s') : Run next s (⟨s, e, m⟩ :: tr) s'

/-- The run that the labels `es` produce from `s`, with its final state; `none` when one of
them is not possible. -/
def exec (next : σ → ε → Option σ) : σ → List ε → Option (List (Step σ ε) × σ)
  | s, [] => some ([], s)
  | s, e :: es =>
    match next s e with
    | none => none
    | some m => (exec next m es).map fun r => (⟨s, e, m⟩ :: r.1, r.2)

variable {next : σ → ε → Option σ} {s s' : σ} {tr : List (Step σ ε)}

namespace Run

/-- What `exec` returns is a run.

**Proof sketch.** Induction on the labels; each step of `exec` is one `cons`. -/
theorem of_exec : ∀ {es : List ε} {s : σ} {r : List (Step σ ε) × σ},
    exec next s es = some r → Run next s r.1 r.2
  | [], s, r, h => by
    obtain rfl : ([], s) = r := by simpa [exec] using h
    exact nil s
  | e :: es, s, r, h => by
    unfold exec at h
    split at h
    · simp at h
    · rename_i m hm
      obtain ⟨r', hr', rfl⟩ := Option.map_eq_some_iff.mp h
      exact cons hm (of_exec hr')

/-- The labels of what `exec` returns are the labels it was given. -/
theorem labels_of_exec : ∀ {es : List ε} {s : σ} {r : List (Step σ ε) × σ},
    exec next s es = some r → r.1.map Step.label = es
  | [], s, r, h => by
    obtain rfl : ([], s) = r := by simpa [exec] using h
    rfl
  | e :: es, s, r, h => by
    unfold exec at h
    split at h
    · simp at h
    · rename_i m hm
      obtain ⟨r', hr', rfl⟩ := Option.map_eq_some_iff.mp h
      rw [List.map_cons, labels_of_exec hr']

/-- Two runs in a row are one run. -/
theorem append {t : σ} {tr' : List (Step σ ε)} (h : Run next s tr s')
    (h' : Run next s' tr' t) : Run next s (tr ++ tr') t := by
  induction h with
  | nil => exact h'
  | cons hs _ ih => exact cons hs (ih h')

/-- A run can be continued with a step from its final state. -/
theorem concat {s'' : σ} {e : ε} (h : Run next s tr s') (he : next s' e = some s'') :
    Run next s (tr ++ [⟨s', e, s''⟩]) s'' :=
  h.append (.cons he (.nil _))

/-- A run can be cut at any of its steps.

**Proof sketch.** Induction on the run: the step is the first one, or one of the rest. -/
theorem split_of_mem {t : Step σ ε} (h : Run next s tr s') (ht : t ∈ tr) :
    ∃ tr₁ tr₂, tr = tr₁ ++ t :: tr₂ ∧ Run next s tr₁ t.pre ∧ next t.pre t.label = some t.post ∧
      Run next t.post tr₂ s' := by
  induction h with
  | nil => simp at ht
  | cons hs hr ih =>
    rcases List.mem_cons.mp ht with rfl | ht
    · exact ⟨[], _, rfl, .nil _, hs, hr⟩
    · obtain ⟨tr₁, tr₂, rfl, h₁, hstep, h₂⟩ := ih ht
      exact ⟨_ :: tr₁, tr₂, rfl, .cons hs h₁, hstep, h₂⟩

/-- **Change of a property.** A run that ends in a state with `Q`, and does not start in one, has
a step that leads from a state without `Q` to one with it. -/
theorem exists_step_of_not {Q : σ → Prop} (h : Run next s tr s') (h0 : ¬ Q s) (hQ : Q s') :
    ∃ t ∈ tr, ¬ Q t.pre ∧ Q t.post := by
  induction h with
  | nil => exact absurd hQ h0
  | @cons s m s' e tr hs hr ih =>
    by_cases hm : Q m
    · exact ⟨⟨s, e, m⟩, List.mem_cons_self .., h0, hm⟩
    · obtain ⟨t, ht, hpre, hpost⟩ := ih hm hQ
      exact ⟨t, List.mem_cons_of_mem _ ht, hpre, hpost⟩

/-- Every step of a run is a step of the transition function. -/
theorem next_of_mem (h : Run next s tr s') : ∀ t ∈ tr, next t.pre t.label = some t.post := by
  induction h with
  | nil => simp
  | cons hs _ ih => exact List.forall_mem_cons.mpr ⟨hs, ih⟩

/-- **Step invariants.** What holds at the start and is preserved by every step holds before
and after every step of a run, and at its end. -/
theorem forall_step {I : σ → Prop} (hI : ∀ s e s', I s → next s e = some s' → I s')
    (h : Run next s tr s') (h0 : I s) : (∀ t ∈ tr, I t.pre ∧ I t.post) ∧ I s' := by
  induction h with
  | nil => exact ⟨by simp, h0⟩
  | cons hs _ ih =>
    have hm := hI _ _ _ h0 hs
    obtain ⟨ih1, ih2⟩ := ih hm
    exact ⟨List.forall_mem_cons.mpr ⟨⟨h0, hm⟩, ih1⟩, ih2⟩

/-- **Guarded invariants.** What holds at the start and is preserved by every step that meets
the guard `C` holds before and after every step of a run all of whose steps meet it. -/
theorem forall_post_of_guard {I : σ → Prop} {C : σ → ε → Prop}
    (hI : ∀ s e s', I s → C s e → next s e = some s' → I s')
    (h : Run next s tr s') (h0 : I s) (hC : ∀ t ∈ tr, C t.pre t.label) :
    (∀ t ∈ tr, I t.pre ∧ I t.post) ∧ I s' := by
  induction h with
  | nil => exact ⟨by simp, h0⟩
  | cons hs _ ih =>
    obtain ⟨hC0, hC1⟩ := List.forall_mem_cons.mp hC
    have hm := hI _ _ _ h0 hC0 hs
    obtain ⟨ih1, ih2⟩ := ih hm hC1
    exact ⟨List.forall_mem_cons.mpr ⟨⟨h0, hm⟩, ih1⟩, ih2⟩

/-- **Exact guards.** Let `I` be an invariant, and let a step from a state with `P` lead to a
state with `P` exactly when it meets the guard `C`. Then `P` holds in every state of a run
exactly when every step of the run meets the guard.

**Proof sketch.** Induction on the run. Both sides speak of the first step and of the rest;
the first step's halves are equivalent by assumption, and either half puts the rest of the run
in a state with `P`, where the induction hypothesis applies. -/
theorem forall_post_iff {I P : σ → Prop} {C : σ → ε → Prop}
    (hI : ∀ s e s', I s → next s e = some s' → I s')
    (hP : ∀ s e s', I s → P s → next s e = some s' → (P s' ↔ C s e))
    (h : Run next s tr s') (h0 : I s) (p0 : P s) :
    (∀ t ∈ tr, P t.post) ↔ ∀ t ∈ tr, C t.pre t.label := by
  induction h with
  | nil => simp
  | cons hs _ ih =>
    have hm := hI _ _ _ h0 hs
    have hiff := hP _ _ _ h0 p0 hs
    simp only [List.forall_mem_cons]
    constructor
    · intro h'
      obtain ⟨hp, hrest⟩ := h'
      exact ⟨hiff.mp hp, (ih hm hp).mp hrest⟩
    · intro h'
      obtain ⟨hc, hrest⟩ := h'
      have hp := hiff.mpr hc
      exact ⟨hp, (ih hm hp).mpr hrest⟩

/-- **Simulation with stuttering.** Let `I` be an invariant, and let every step be no step of
`next'` or one step of it, between the images under `f`. Then a run is a run of `next'` between
the images. -/
theorem exists_map {σ' : Type*} {ε' : Type*} {next' : σ' → ε' → Option σ'} (f : σ → σ')
    {I : σ → Prop} (hI : ∀ s e s', I s → next s e = some s' → I s')
    (hf : ∀ s e s', I s → next s e = some s' → f s' = f s ∨ ∃ e', next' (f s) e' = some (f s'))
    (h : Run next s tr s') (h0 : I s) : ∃ tr', Run next' (f s) tr' (f s') := by
  induction h with
  | nil => exact ⟨[], .nil _⟩
  | cons hs _ ih =>
    obtain ⟨tr', hrun⟩ := ih (hI _ _ _ h0 hs)
    rcases hf _ _ _ h0 hs with hsame | ⟨e', he'⟩
    · rw [← hsame]
      exact ⟨tr', hrun⟩
    · exact ⟨_, .cons he' hrun⟩

/-- **Bounded runs.** Steps with labels in `C` that decrease a measure: a run of them is at most as
long as the measure says. -/
theorem length_add_le {C : ε → Prop} {μ : σ → ℕ}
    (hμ : ∀ s e s', C e → next s e = some s' → μ s' < μ s)
    (h : Run next s tr s') (hC : ∀ t ∈ tr, C t.label) : tr.length + μ s' ≤ μ s := by
  induction h with
  | nil => simp
  | @cons s m s' e tr hs hr ih =>
    obtain ⟨he, hC⟩ := List.forall_mem_cons.mp hC
    have hlt := hμ s e m he hs
    have hrest := ih hC
    rw [List.length_cons]
    omega

end Run

/-- **Progress.** If from every state with `I` that is not done a step with a label in `C` is
possible, and such steps keep `I` and decrease a measure, then a run of them leads to a state that
is done.

**Proof sketch.** Induction on the measure. -/
theorem exists_run_of_progress {I Done : σ → Prop} {C : ε → Prop} {μ : σ → ℕ}
    (hI : ∀ s e s', I s → C e → next s e = some s' → I s')
    (hμ : ∀ s e s', C e → next s e = some s' → μ s' < μ s)
    (hprogress : ∀ s, I s → ¬ Done s → ∃ e s', C e ∧ next s e = some s') (h0 : I s) :
    ∃ tr s', Run next s tr s' ∧ (∀ t ∈ tr, C t.label) ∧ Done s' := by
  induction hn : μ s using Nat.strongRecOn generalizing s with
  | _ n ih =>
    by_cases hdone : Done s
    · exact ⟨[], s, .nil s, by simp, hdone⟩
    · obtain ⟨e, m, he, hs⟩ := hprogress s h0 hdone
      have hlt : μ m < n := hn ▸ hμ s e m he hs
      obtain ⟨tr, s', hrun, hC, hs'⟩ := ih (μ m) hlt (hI s e m h0 he hs) rfl
      exact ⟨_, s', .cons hs hrun, List.forall_mem_cons.mpr ⟨he, hC⟩, hs'⟩

end Transition
