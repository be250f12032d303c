import Mathlib.Logic.Function.Basic

/-!
# Runs of a step function under a scheduler

A system is a partial step function `step : σ → α → Option σ`: the label says which task moves and
what its surroundings answer, `none` that it is not enabled. `Reach step ok s₀ s` is reachability
along steps that satisfy `ok`, a condition on the state before the step and its label.
-/

namespace Interleave.Runs

variable {σ α : Type}

/-- The state after a schedule, if every label of it was enabled. -/
def exec (step : σ → α → Option σ) : σ → List α → Option σ
  | s, [] => some s
  | s, a::as => (step s a).bind fun t => exec step t as

def Free (_ : σ) (_ : α) : Prop := True

inductive Reach (step : σ → α → Option σ) (ok : σ → α → Prop) (s₀ : σ) : σ → Prop
  | start : Reach step ok s₀ s₀
  | next {s t : σ} {a : α} : Reach step ok s₀ s → ok s a → step s a=some t →
      Reach step ok s₀ t

def Meets (step : σ → α → Option σ) (ok : σ → α → Prop) : σ → List α → Prop
  | _, [] => True
  | s, a::as => ok s a ∧ ∀ t,step s a=some t → Meets step ok t as

variable {step : σ → α → Option σ} {ok ok' : σ → α → Prop} {s₀ s t : σ}

variable {as : List α}

theorem exec_cons {a : α} (h : exec step s (a::as)=some t) : ∃ u,step s a=some u ∧ exec step u as=some t :=
  Option.bind_eq_some_iff.mp h

theorem exec_append {front back : List α} (h : exec step s (front++back)=some t) :
    ∃ u,exec step s front=some u ∧ exec step u back=some t := by
  induction front generalizing s with
  | nil => exact ⟨s,rfl,h⟩
  | cons a front ih =>
    obtain ⟨u,hu,ht⟩ := exec_cons h
    obtain ⟨v,hv,ht⟩ := ih ht
    exact ⟨v,by rw [exec,hu]; exact hv,ht⟩

/-- It holds at the start and every admitted step from a reachable state keeps it. -/
theorem Reach.invariant {I : σ → Prop} (h : Reach step ok s₀ s) (h0 : I s₀)
    (hs : ∀ {u v a},Reach step ok s₀ u → I u → ok u a → step u a=some v → I v) : I s := by
  induction h with
  | start => exact h0
  | next hr ha ht ih => exact hs hr ih ha ht

theorem Reach.keeps {I : σ → Prop} (h : Reach step ok s₀ s) (h0 : I s₀)
    (hs : ∀ {u v a},I u → ok u a → step u a=some v → I v) : I s :=
  h.invariant h0 fun _ => hs

theorem reach_of_meets (hr : Reach step ok s₀ s) (hm : Meets step ok s as) (h : exec step s as=some t) :
    Reach step ok s₀ t := by
  induction as generalizing s with
  | nil =>
    have he : s=t := Option.some.inj h
    exact he ▸ hr
  | cons a as ih =>
    obtain ⟨u,hu,ht⟩ := exec_cons h
    exact ih (.next hr hm.1 hu) (hm.2 u hu) ht

theorem meets_free (as : List α) : Meets step Free s as := by
  induction as generalizing s with
  | nil => trivial
  | cons a as ih => exact ⟨trivial,fun _ _ => ih⟩

theorem reach_of_exec (h : exec step s₀ as=some t) : Reach step Free s₀ t :=
  reach_of_meets .start (meets_free as) h

theorem Reach.mono (hle : ∀ u a,ok u a → ok' u a) (h : Reach step ok s₀ s) : Reach step ok' s₀ s := by
  induction h with
  | start => exact .start
  | next _ ha ht ih => exact ih.next (hle _ _ ha) ht

theorem Reach.free (h : Reach step ok s₀ s) : Reach step Free s₀ s :=
  h.mono fun _ _ _ => trivial

theorem Meets.mono (hle : ∀ u a,ok u a → ok' u a) (h : Meets step ok s as) : Meets step ok' s as := by
  induction as generalizing s with
  | nil => trivial
  | cons a as ih => exact ⟨hle s a h.1,fun t ht => ih (h.2 t ht)⟩

theorem Meets.and (h : Meets step ok s as) (h' : Meets step ok' s as) :
    Meets step (fun u a => ok u a ∧ ok' u a) s as := by
  induction as generalizing s with
  | nil => trivial
  | cons a as ih => exact ⟨⟨h.1,h'.1⟩,fun t ht => ih (h.2 t ht) (h'.2 t ht)⟩

theorem meets_of_invariant {I : σ → Prop} {L : α → Prop} (h0 : I s)
    (hs : ∀ u v a,I u → L a → step u a=some v → I v) (hok : ∀ u a,I u → L a → ok u a) (hl : ∀ a∈as,L a) :
    Meets step ok s as := by
  induction as generalizing s with
  | nil => trivial
  | cons a as ih =>
    have ha:=hl a List.mem_cons_self
    exact ⟨hok s a h0 ha,fun t ht => ih (hs s t a h0 ha ht) fun b hb => hl b (List.mem_cons_of_mem _ hb)⟩

def checked (step : σ → α → Option σ) (test : σ → α → Bool) : σ → List α → Bool
  | _, [] => true
  | s, a::as => test s a && match step s a with
    | some t => checked step test t as
    | none => true

theorem meets_of_checked {test : σ → α → Bool} (ht : ∀ u a,test u a=true → ok u a)
    (h : checked step test s as=true) : Meets step ok s as := by
  induction as generalizing s with
  | nil => trivial
  | cons a as ih =>
    obtain ⟨ha,has⟩ := Bool.and_eq_true_iff.mp h
    refine ⟨ht s a ha,fun t hs => ih ?_⟩
    simpa [hs] using has

theorem meets_decided [∀ u a,Decidable (ok u a)] (h : checked step (fun u a => decide (ok u a)) s as=true) :
    Meets step ok s as :=
  meets_of_checked (fun _ _ => of_decide_eq_true) h

theorem exec_last (step : σ → α → Option σ) (s₀ : σ) (as : List α) (a : α) (p : σ → σ → Bool)
    (h : ((exec step s₀ as).bind fun u => (step u a).map (p u))=some true) :
    ∃ u v,exec step s₀ as=some u ∧ step u a=some v ∧ p u v=true := by
  obtain ⟨u,hu,hv⟩ := Option.bind_eq_some_iff.mp h
  obtain ⟨v,hv,hp⟩ := Option.map_eq_some_iff.mp hv
  exact ⟨u,v,hu,hv,hp⟩

/-- A schedule whose steps meet the condition and that ends in a state of the
kind looked for. -/
theorem reach_observed (as : List α) {P : σ → Prop} [DecidablePred P] (hm : Meets step ok s₀ as)
    (h : (exec step s₀ as).map (fun s => decide (P s))=some true) : ∃ s,Reach step ok s₀ s ∧ P s := by
  obtain ⟨s,hs,hp⟩ := Option.map_eq_some_iff.mp h
  exact ⟨s,reach_of_meets .start hm hs,of_decide_eq_true hp⟩

theorem reach_exec (as : List α) (hm : Meets step ok s₀ as) (h : (exec step s₀ as).isSome) :
    Reach step ok s₀ ((exec step s₀ as).get h) :=
  reach_of_meets .start hm (Option.some_get h).symm

theorem reach_free (as : List α) (h : (exec step s₀ as).isSome) : Reach step Free s₀ ((exec step s₀ as).get h) :=
  reach_exec as (meets_free as) h

theorem free_observed (as : List α) {P : σ → Prop} [DecidablePred P]
    (h : (exec step s₀ as).map (fun s => decide (P s))=some true) : ∃ s,Reach step Free s₀ s ∧ P s :=
  reach_observed as (meets_free as) h

end Interleave.Runs
