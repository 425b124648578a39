import Mathlib.Data.List.Induction

/-!
# Runs of a step relation

A `Run` is a finite sequence of events taken one after the other from a
start state, each by a step of a given relation. It grows at the end, so
an invariant may speak of the events taken so far as well as of the state
they led to.
-/

namespace Runs

variable {σ ε : Type*}

/-- `Run step s₀ es s`: the events `es`, oldest first, lead from `s₀` to
`s`. -/
inductive Run (step : σ → ε → σ → Prop) (s₀ : σ) : List ε → σ → Prop
  | nil : Run step s₀ [] s₀
  | snoc {es s e s'} : Run step s₀ es s → step s e s' →
      Run step s₀ (es ++ [e]) s'

variable {step : σ → ε → σ → Prop} {s₀ : σ}

/-- **The invariant rule**: what holds at the start and is kept by every
step holds after every run. -/
theorem Run.invariant {I : List ε → σ → Prop} (h0 : I [] s₀)
    (hstep : ∀ es s e s', Run step s₀ es s → I es s → step s e s' →
      I (es ++ [e]) s')
    {es : List ε} {s : σ} (h : Run step s₀ es s) : I es s := by
  induction h with
  | nil => exact h0
  | snoc hr hs ih => exact hstep _ _ _ _ hr ih hs

/-- The invariant rule for a property of states alone. -/
theorem Run.stateInvariant {I : σ → Prop} (h0 : I s₀)
    (hstep : ∀ s e s', I s → step s e s' → I s')
    {es : List ε} {s : σ} (h : Run step s₀ es s) : I s :=
  Run.invariant (I := fun _ => I) h0
    (fun _ s e s' _ hi hs => hstep s e s' hi hs) h

/-- A step that may fail with an error, taken as one that may fail. -/
theorem ok_of_toOption {κ α : Type*} {x : Except κ α} {a : α} (h : x.toOption = some a) :
    x = .ok a := by
  cases x with
  | error e => cases h
  | ok b => exact congrArg _ (Option.some.inj h)

/-- Steps that a function takes are a run. -/
theorem Run.of_foldlM {f : σ → ε → Option σ} {es : List ε} {s : σ}
    (h : es.foldlM f s₀ = some s) : Run (fun s e s' => f s e = some s') s₀ es s := by
  induction es using List.reverseRecOn generalizing s with
  | nil =>
      obtain rfl := Option.some.inj h
      exact .nil
  | append_singleton es e ih =>
      rw [List.foldlM_append] at h
      obtain ⟨s₁, hrun, hlast⟩ := Option.bind_eq_some_iff.mp h
      rw [List.foldlM_cons] at hlast
      obtain ⟨s₂, hstep, hnil⟩ := Option.bind_eq_some_iff.mp hlast
      obtain rfl := Option.some.inj hnil
      exact .snoc (ih hrun) hstep

/-- What one more step of the function shows. -/
theorem Run.of_foldlM_step {α : Type*} {f : σ → ε → Option σ} {view : σ → σ → α} {es : List ε}
    {e : ε} {a : α} (h : (es.foldlM f s₀).bind (fun s => (f s e).map (view s)) = some a) :
    ∃ s s', Run (fun s e s' => f s e = some s') s₀ es s ∧ f s e = some s' ∧ view s s' = a := by
  obtain ⟨s, hs, hview⟩ := Option.bind_eq_some_iff.mp h
  obtain ⟨s', hstep, hview⟩ := Option.map_eq_some_iff.mp hview
  exact ⟨s, s', .of_foldlM hs, hstep, hview⟩

/-- A run of a stronger relation is a run of a weaker one. -/
theorem Run.mono {step' : σ → ε → σ → Prop}
    (hle : ∀ s e s', step s e s' → step' s e s')
    {es : List ε} {s : σ} (h : Run step s₀ es s) : Run step' s₀ es s := by
  induction h with
  | nil => exact .nil
  | snoc _ hs ih => exact .snoc ih (hle _ _ _ hs)

/-- **A simulation**: what is a step from the image of a state to the image of the next one
takes a run to a run. -/
theorem Run.map {τ δ : Type*} {step' : τ → δ → τ → Prop} (f : σ → τ) (g : ε → δ)
    (hstep : ∀ s e s', step s e s' → step' (f s) (g e) (f s'))
    {es : List ε} {s : σ} (h : Run step s₀ es s) : Run step' (f s₀) (es.map g) (f s) := by
  induction h with
  | nil => exact .nil
  | snoc _ hs ih =>
      rw [List.map_append, List.map_singleton]
      exact .snoc ih (hstep _ _ _ hs)

/-- Steps that a function takes while a condition holds are a run of such steps. -/
theorem Run.of_foldlM_guarded {f : σ → ε → Option σ} {P : σ → ε → Prop}
    [∀ s e, Decidable (P s e)] {es : List ε} {s : σ}
    (h : es.foldlM (fun s e => if P s e then f s e else none) s₀ = some s) :
    Run (fun s e s' => f s e = some s' ∧ P s e) s₀ es s := by
  refine (Run.of_foldlM h).mono fun s e s' hstep => ?_
  split at hstep
  · exact ⟨hstep, ‹P s e›⟩
  · cases hstep

/-- What the events of a run have, its steps have. -/
theorem Run.and_events {P : ε → Prop} {es : List ε} {s : σ} (h : Run step s₀ es s)
    (hP : ∀ e ∈ es, P e) : Run (fun s e s' => step s e s' ∧ P e) s₀ es s := by
  induction h with
  | nil => exact .nil
  | snoc _ hs ih =>
      refine .snoc (ih fun e he => hP e (List.mem_append_left _ he)) ⟨hs, hP _ ?_⟩
      exact List.mem_append_right _ (List.mem_singleton_self _)

/-- A condition on the steps of a run is replaced by one that it implies on every
step from a state that it has led to. -/
theorem Run.restrict {P Q : σ → ε → σ → Prop} {I : σ → Prop} (h0 : I s₀)
    (hstep : ∀ s e s', I s → step s e s' → P s e s' → Q s e s' ∧ I s')
    {es : List ε} {s : σ} (h : Run (fun s e s' => step s e s' ∧ P s e s') s₀ es s) :
    Run (fun s e s' => step s e s' ∧ Q s e s') s₀ es s ∧ I s := by
  induction h with
  | nil => exact ⟨.nil, h0⟩
  | snoc _ hs ih =>
      obtain ⟨hrun, hi⟩ := ih
      obtain ⟨hq, hkeep⟩ := hstep _ _ _ hi hs.1 hs.2
      exact ⟨.snoc hrun ⟨hs.1, hq⟩, hkeep⟩

/-- **Two conditions on the steps of a run** are the same if they agree on every
step from a state that they have led to. -/
theorem Run.restrict_iff {P Q : σ → ε → σ → Prop} {I : σ → Prop} (h0 : I s₀)
    (hstep : ∀ s e s', I s → step s e s' → (P s e s' ↔ Q s e s') ∧ (Q s e s' → I s'))
    {es : List ε} {s : σ} :
    Run (fun s e s' => step s e s' ∧ P s e s') s₀ es s ↔
      Run (fun s e s' => step s e s' ∧ Q s e s') s₀ es s := by
  constructor
  · intro h
    refine (h.restrict h0 fun s e s' hi hs hp => ?_).1
    obtain ⟨hiff, hkeep⟩ := hstep s e s' hi hs
    exact ⟨hiff.mp hp, hkeep (hiff.mp hp)⟩
  · intro h
    refine (h.restrict h0 fun s e s' hi hs hq => ?_).1
    obtain ⟨hiff, hkeep⟩ := hstep s e s' hi hs
    exact ⟨hiff.mpr hq, hkeep hq⟩

/-- Every step that some run ends in has a property. -/
def Always (step P : σ → ε → σ → Prop) (s₀ : σ) : Prop :=
  ∀ es s e s', Run step s₀ es s → step s e s' → P s e s'

/-- The invariant rule for a property of steps. -/
theorem Always.of_invariant {P : σ → ε → σ → Prop} {I : σ → Prop} (h0 : I s₀)
    (hstep : ∀ s e s', I s → step s e s' → I s' ∧ P s e s') : Always step P s₀ := by
  intro es s e s' hrun hlast
  have hs : I s := hrun.stateInvariant h0 fun s e s' hi h => (hstep s e s' hi h).1
  exact (hstep s e s' hs hlast).2

/-- One step is taken first. -/
theorem Run.cons {e : ε} {s₁ s : σ} {es : List ε} (hstep : step s₀ e s₁)
    (h : Run step s₁ es s) : Run step s₀ (e :: es) s := by
  induction h with
  | nil => exact .snoc .nil hstep
  | snoc _ hs ih => exact .snoc ih hs

/-- One run after another. -/
theorem Run.append {s₁ s : σ} {es es' : List ε} (h : Run step s₀ es s₁)
    (h' : Run step s₁ es' s) : Run step s₀ (es ++ es') s := by
  induction h' with
  | nil => rwa [List.append_nil]
  | snoc _ hs ih =>
      rw [← List.append_assoc]
      exact .snoc ih hs

/-- What every step after the first one has. -/
theorem Always.tail {P : σ → ε → σ → Prop} {e : ε} {s₁ : σ} (h : Always step P s₀)
    (hstep : step s₀ e s₁) : Always step P s₁ :=
  fun _ s e' s' hrun hlast => h _ s e' s' (hrun.cons hstep) hlast

theorem Always.head {P : σ → ε → σ → Prop} {e : ε} {s₁ : σ} (h : Always step P s₀)
    (hstep : step s₀ e s₁) : P s₀ e s₁ :=
  h [] s₀ e s₁ .nil hstep

/-- A run takes a step that has a property. -/
def Happened (step P : σ → ε → σ → Prop) (s₀ : σ) (es : List ε) (s : σ) : Prop :=
  ∃ es₁ s₁ e s₂ es₂, es = es₁ ++ e :: es₂ ∧ Run step s₀ es₁ s₁ ∧ step s₁ e s₂ ∧ P s₁ e s₂ ∧
    Run step s₂ es₂ s

theorem Happened.last {P : σ → ε → σ → Prop} {es : List ε} {s : σ} {e : ε} {s' : σ}
    (hrun : Run step s₀ es s) (hstep : step s e s') (hP : P s e s') :
    Happened step P s₀ (es ++ [e]) s' :=
  ⟨es, s, e, s', [], rfl, hrun, hstep, hP, .nil⟩

theorem Happened.snoc {P : σ → ε → σ → Prop} {es : List ε} {s : σ} {e : ε} {s' : σ}
    (h : Happened step P s₀ es s) (hstep : step s e s') :
    Happened step P s₀ (es ++ [e]) s' := by
  obtain ⟨es₁, s₁, e₁, s₂, es₂, rfl, hrun₁, hstep₁, hP, hrun₂⟩ := h
  exact ⟨es₁, s₁, e₁, s₂, es₂ ++ [e], by simp, hrun₁, hstep₁, hP, .snoc hrun₂ hstep⟩

/-- **What only some steps set right**: if such a step makes `Good` hold, and every other
one leaves what `Good` depends on as it is, then it holds after a run exactly if it held
before or such a step was taken. -/
theorem Run.good_iff {P : σ → ε → σ → Prop} {I Good : σ → Prop} (h0 : I s₀)
    (hinv : ∀ s e s', I s → step s e s' → I s')
    (hset : ∀ s e s', I s → step s e s' → P s e s' → Good s')
    (hkeep : ∀ s e s', I s → step s e s' → ¬P s e s' → (Good s' ↔ Good s))
    {es : List ε} {s : σ} (h : Run step s₀ es s) :
    Good s ↔ Good s₀ ∨ Happened step P s₀ es s := by
  have hstays : ∀ s e s', I s ∧ Good s → step s e s' → I s' ∧ Good s' := by
    intro s e s' hgood hstep
    refine ⟨hinv s e s' hgood.1 hstep, ?_⟩
    by_cases hP : P s e s'
    · exact hset s e s' hgood.1 hstep hP
    · exact (hkeep s e s' hgood.1 hstep hP).mpr hgood.2
  constructor
  · intro hgood
    induction h with
    | nil => exact .inl hgood
    | snoc hr hs ih =>
        rename_i es s e s'
        have hI : I s := hr.stateInvariant h0 hinv
        by_cases hP : P s e s'
        · exact .inr (.last hr hs hP)
        · rcases ih ((hkeep s e s' hI hs hP).mp hgood) with hbefore | htaken
          · exact .inl hbefore
          · exact .inr (htaken.snoc hs)
  · intro hor
    rcases hor with hbefore | ⟨es₁, s₁, e, s₂, es₂, _, hrun₁, hstep, hP, hrun₂⟩
    · exact (h.stateInvariant (I := fun s => I s ∧ Good s) ⟨h0, hbefore⟩ hstays).2
    · have hI : I s₁ := hrun₁.stateInvariant h0 hinv
      have hgood : I s₂ ∧ Good s₂ := ⟨hinv s₁ e s₂ hI hstep, hset s₁ e s₂ hI hstep hP⟩
      exact (hrun₂.stateInvariant (I := fun s => I s ∧ Good s) hgood hstays).2

end Runs
