import RmcatNs3.Lib.Runs

/-!
# Runs with a clock and a beat

A system whose events come at times that do not go back, some of them beats. The time of the
last event and of the last beat stand beside the state, so that a step may ask for beats that
come soon enough.
-/

namespace PacedRuns

open Runs

variable {σ τ ε δ : Type*}

/-- A state, the time of the last event and the time of the last beat. -/
structure Paced (σ : Type*) where
  state : σ
  now : Int
  beat : Int

/-- How the events of a system stand in time. -/
structure Clocked (ε : Type*) where
  time : ε → Int
  beats : ε → Bool

/-- A step whose time does not go back; a beat comes at most `gap` after the last one. -/
structure PacedStep (clock : Clocked ε) (step : σ → ε → σ → Prop) (gap : Int) (p : Paced σ)
    (e : ε) (p' : Paced σ) : Prop where
  step : step p.state e p'.state
  later : p.now ≤ clock.time e
  soon : clock.beats e = true → clock.time e ≤ p.beat + gap
  now : p'.now = clock.time e
  beat : clock.beats e = true → p'.beat = clock.time e
  idle : clock.beats e = false → p'.beat = p.beat

def Paced.map (f : σ → τ) (p : Paced σ) : Paced τ := ⟨f p.state, p.now, p.beat⟩

variable {clock : Clocked ε} {step : σ → ε → σ → Prop} {gap gap' : Int} {p p' p₀ : Paced σ}
  {e : ε} {es : List ε}

/-- The last beat is not behind the last event. -/
theorem PacedStep.beat_le (h : PacedStep clock step gap p e p') (hle : p.beat ≤ p.now) :
    p'.beat ≤ p'.now := by
  rw [h.now]
  cases hbeats : clock.beats e with
  | true => exact Int.le_of_eq (h.beat hbeats)
  | false =>
      rw [h.idle hbeats]
      exact Int.le_trans hle h.later

theorem PacedStep.mono_gap (h : PacedStep clock step gap p e p') (hle : gap ≤ gap') :
    PacedStep clock step gap' p e p' where
  step := h.step
  later := h.later
  soon hbeats := Int.le_trans (h.soon hbeats) (Int.add_le_add_left hle _)
  now := h.now
  beat := h.beat
  idle := h.idle

/-- **A simulation** leaves the times as they are. -/
theorem PacedStep.map {clock' : Clocked δ} {step' : τ → δ → τ → Prop} {f : σ → τ} {g : ε → δ}
    (htime : ∀ e, clock'.time (g e) = clock.time e)
    (hbeats : ∀ e, clock'.beats (g e) = clock.beats e)
    (hstep : ∀ s e s', step s e s' → step' (f s) (g e) (f s'))
    (h : PacedStep clock step gap p e p') :
    PacedStep clock' step' gap (p.map f) (g e) (p'.map f) where
  step := hstep _ _ _ h.step
  later := by
    rw [htime]
    exact h.later
  soon hb := by
    rw [htime]
    exact h.soon ((hbeats e).symm.trans hb)
  now := by
    rw [htime]
    exact h.now
  beat hb := by
    rw [htime]
    exact h.beat ((hbeats e).symm.trans hb)
  idle hb := h.idle ((hbeats e).symm.trans hb)

/-- The steps of a paced run are steps. -/
theorem run_state (h : Run (PacedStep clock step gap) p₀ es p) :
    Run step p₀.state es p.state := by
  have hmap : Run step p₀.state (es.map id) p.state :=
    h.map Paced.state id fun _ _ _ hs => hs.step
  rwa [List.map_id] at hmap

/-- The steps that a function takes, at their times. -/
def paced? (clock : Clocked ε) (f : σ → ε → Option σ) (gap : Int) (p : Paced σ) (e : ε) :
    Option (Paced σ) :=
  if p.now ≤ clock.time e ∧ (clock.beats e = true → clock.time e ≤ p.beat + gap) then
    (f p.state e).map fun s =>
      ⟨s, clock.time e, if clock.beats e then clock.time e else p.beat⟩
  else none

theorem pacedStep_of_paced? {f : σ → ε → Option σ} (h : paced? clock f gap p e = some p') :
    PacedStep clock (fun s e s' => f s e = some s') gap p e p' := by
  rw [paced?] at h
  split at h
  · rename_i htime
    obtain ⟨s, hs, rfl⟩ := Option.map_eq_some_iff.mp h
    exact ⟨hs, htime.1, htime.2, rfl, fun hbeats => if_pos hbeats, fun hbeats => by
      dsimp only
      rw [hbeats]
      rfl⟩
  · cases h

end PacedRuns
