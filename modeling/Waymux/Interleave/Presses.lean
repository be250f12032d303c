import Mathlib.Data.Finset.Dedup
import Mathlib.Data.Finset.Insert
import Mathlib.Data.Finset.Basic
import Waymux.Interleave.Logs

/-!
# Presses and releases

`true` presses a key, `false` releases it. A set of keys matches a log if every key alternates and
the set has those whose last event is a press.
-/

namespace Interleave.Presses
open Logs List

variable {κ : Type} [DecidableEq κ]

def eventsOf (k : κ) (log : List (κ × Bool)) : List Bool :=
  log.filterMap fun e => if e.1=k then some e.2 else none

def IsDown (k : κ) (log : List (κ × Bool)) : Prop := (eventsOf k log).getLast?=some true

instance (k : κ) (log : List (κ × Bool)) : Decidable (IsDown k log) :=
  inferInstanceAs (Decidable ((eventsOf k log).getLast?=some true))

/-- After each key's events the next one is a press, unless the key is held. -/
def Matched (held : Finset κ) (log : List (κ × Bool)) : Prop :=
  ∀ k,turn true (eventsOf k log)=some (decide (k∉held))

theorem eventsOf_append (k : κ) (log log' : List (κ × Bool)) :
    eventsOf k (log++log')=eventsOf k log++eventsOf k log' :=
  filterMap_append

theorem eventsOf_own (k : κ) (pressed : Bool) : eventsOf k [(k,pressed)]=[pressed] := by
  simp [eventsOf]

theorem eventsOf_other {k j : κ} (h : j≠k) (pressed : Bool) : eventsOf k [(j,pressed)]=[] := by
  simp [eventsOf,h]

theorem matched_nil : Matched (∅ : Finset κ) [] := by
  intro k
  simp [eventsOf,turn]

variable {held : Finset κ} {log : List (κ × Bool)}

theorem Matched.alternates (h : Matched held log) (k : κ) : Alternates (eventsOf k log) := by
  rw [Alternates,h k]
  rfl

theorem turn_of_getLast {b c : Bool} {l : List Bool} (hl : l.getLast?=some c) (h : (turn b l).isSome=true) :
    turn b l=some (!c) := by
  obtain ⟨l',rfl⟩ := List.getLast?_eq_some_iff.mp hl
  rw [turn_append] at h ⊢
  cases ht : turn b l' with
  | none => rw [ht] at h; cases h
  | some d =>
    rw [ht] at h
    by_cases hd : c=d
    · simp [turn,hd]
    · simp [turn,hd] at h

theorem Matched.mem_of_isDown (h : Matched held log) {k : κ} (hk : IsDown k log) : k∈held := by
  have ht:=turn_of_getLast hk (h.alternates k)
  rw [h k] at ht
  simpa using ht

theorem Matched.same {held' : Finset κ} (h : Matched held log) (he : ∀ k,k∈held' ↔ k∈held) :
    Matched held' log := by
  intro k
  rw [h k]
  simp only [he k]

theorem Matched.press (h : Matched held log) {k : κ} (hk : k∉held) :
    Matched (insert k held) (log++[(k,true)]) := by
  intro j
  rw [eventsOf_append]
  by_cases hj : k=j
  · subst hj
    have ht : turn true (eventsOf k log)=some true := by simpa [hk] using h k
    rw [eventsOf_own,turn_concat ht]
    simp
  · rw [eventsOf_other hj,append_nil,h j]
    simp [Ne.symm hj]

theorem Matched.release (h : Matched held log) {k : κ} (hk : k∈held) :
    Matched (held.erase k) (log++[(k,false)]) := by
  intro j
  rw [eventsOf_append]
  by_cases hj : k=j
  · subst hj
    have ht : turn true (eventsOf k log)=some false := by simpa [hk] using h k
    rw [eventsOf_own,turn_concat ht]
    simp
  · rw [eventsOf_other hj,append_nil,h j]
    simp [Ne.symm hj]

theorem Matched.drain {order : List κ} (h : Matched held log) (hn : order.Nodup)
    (ho : ∀ k,k∈order ↔ k∈held) : Matched ∅ (log++order.map fun k => (k,false)) := by
  induction order generalizing held log with
  | nil =>
    rw [map_nil,append_nil]
    refine h.same fun k => ?_
    rw [← ho k]
    simp
  | cons k ks ih =>
    obtain ⟨hk,hn⟩ := nodup_cons.mp hn
    have hrest : ∀ j,j∈ks ↔ j∈held.erase k := by
      intro j
      rw [Finset.mem_erase,← ho j,mem_cons]
      refine ⟨fun hj => ⟨fun he => hk (he ▸ hj),.inr hj⟩,fun hj => hj.2.resolve_left hj.1⟩
    have hall:=ih (h.release ((ho k).mp mem_cons_self)) hn hrest
    simpa using hall

end Interleave.Presses
