import Waymux.Interleave.Runs

/-!
# Simulation between two step functions

Every admitted step of the lower system leaves the upper state alone or is answered by one admitted
step of the upper system.
-/

namespace Interleave.Simulation
open Runs

variable {σ α τ β : Type}

def Simulates (step : σ → α → Option σ) (ok : σ → α → Prop) (up : τ → β → Option τ)
    (allowed : τ → β → Prop) (R : σ → τ → Prop) : Prop :=
  ∀ s s' a t,R s t → ok s a → step s a=some s' →
    R s' t ∨ ∃ b t',allowed t b ∧ up t b=some t' ∧ R s' t'

variable {step : σ → α → Option σ} {ok : σ → α → Prop} {up : τ → β → Option τ}
  {allowed : τ → β → Prop} {R : σ → τ → Prop} {s₀ s : σ} {t₀ : τ}

theorem Simulates.reach (hsim : Simulates step ok up allowed R) (h0 : R s₀ t₀)
    (hr : Reach step ok s₀ s) : ∃ t,Reach up allowed t₀ t ∧ R s t := by
  induction hr with
  | start => exact ⟨t₀,.start,h0⟩
  | next _ ha ht ih =>
    obtain ⟨t,hreach,hR⟩ := ih
    rcases hsim _ _ _ _ hR ha ht with hstay | ⟨b,t',hb,ht',hR'⟩
    · exact ⟨t,hreach,hstay⟩
    · exact ⟨t',hreach.next hb ht',hR'⟩

end Interleave.Simulation
