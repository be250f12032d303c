import Mathlib.Data.List.Nodup
import Mathlib.Logic.Function.Basic

/-!
# Counting the tasks that hold a slot

Tasks are listed once each. A counter is right if it is the number of tasks whose state says that
they hold a slot.
-/

namespace Interleave.Slots
open List Function

variable {ι β : Type}

def holders (p : β → Bool) (tasks : List ι) (f : ι → β) : Nat := tasks.countP fun i => p (f i)

variable {p : β → Bool} {tasks : List ι} {f : ι → β} {i : ι} {b : β}

theorem holders_eq_zero (h : ∀ i,p (f i)=false) : holders p tasks f=0 :=
  countP_eq_zero.mpr fun i _ => by simp [h i]

theorem holders_pos (hi : i∈tasks) (hp : p (f i)=true) : 0<holders p tasks f :=
  countP_pos_iff.mpr ⟨i,hi,hp⟩

variable [DecidableEq ι]

theorem holders_update_of_notMem (hi : i∉tasks) : holders p tasks (update f i b)=holders p tasks f := by
  refine countP_congr fun j hj => ?_
  have hji : j≠i := fun he => hi (he ▸ hj)
  rw [update_of_ne hji]

theorem holders_update_same (hb : p b=p (f i)) : holders p tasks (update f i b)=holders p tasks f := by
  refine countP_congr fun j _ => ?_
  by_cases hji : j=i
  · rw [hji,update_self,hb]
  · rw [update_of_ne hji]

theorem holders_update (hn : tasks.Nodup) (hi : i∈tasks) :
    holders p tasks (update f i b)+(p (f i)).toNat=holders p tasks f+(p b).toNat := by
  induction tasks with
  | nil => cases hi
  | cons j tasks ih =>
    obtain ⟨hj,hn⟩ := nodup_cons.mp hn
    by_cases hij : i=j
    · subst hij
      have hrest : holders p tasks (update f i b)=holders p tasks f := holders_update_of_notMem hj
      unfold holders at hrest ⊢
      rw [countP_cons,countP_cons,hrest,update_self]
      cases p b <;> cases p (f i) <;> simp
    · have hrest:=ih hn (mem_of_ne_of_mem hij hi)
      unfold holders at hrest ⊢
      rw [countP_cons,countP_cons,update_of_ne (Ne.symm hij)]
      omega

theorem holders_start (hi : i∉tasks) (hb : p b=false) :
    holders p (tasks++[i]) (update f i b)=holders p tasks f := by
  have hrest : holders p tasks (update f i b)=holders p tasks f := holders_update_of_notMem hi
  unfold holders at hrest ⊢
  rw [countP_append,hrest]
  simp [hb]

/-- The list has exactly the tasks whose state says that they are on it. -/
def Enrolled (p : β → Bool) (l : List ι) (f : ι → β) : Prop := ∀ i,i∈l ↔ p (f i)=true

variable {l : List ι}

omit [DecidableEq ι] in
theorem Enrolled.eq_nil (he : Enrolled p l f) (hp : ∀ i,p (f i)=false) : l=[] :=
  eq_nil_iff_forall_not_mem.mpr fun i hi => by
    have hi:=(he i).mp hi
    rw [hp i] at hi
    cases hi

theorem Enrolled.same (he : Enrolled p l f) (hb : p b=p (f i)) : Enrolled p l (update f i b) := by
  intro j
  by_cases hji : j=i
  · rw [hji,update_self,hb]
    exact he i
  · rw [update_of_ne hji]
    exact he j

theorem Enrolled.add (he : Enrolled p l f) (hb : p b=true) : Enrolled p (l++[i]) (update f i b) := by
  intro j
  by_cases hji : j=i
  · rw [hji,update_self]
    exact ⟨fun _ => hb,fun _ => mem_append_right l (mem_singleton_self i)⟩
  · rw [update_of_ne hji,mem_append,mem_singleton,he j]
    exact ⟨fun h => h.resolve_right hji,.inl⟩

theorem Enrolled.erase (he : Enrolled p l f) (hn : l.Nodup) (hb : p b=false) :
    Enrolled p (l.erase i) (update f i b) := by
  intro j
  rw [hn.mem_erase_iff]
  by_cases hji : j=i
  · rw [hji,update_self,hb]
    exact ⟨fun h => absurd rfl h.1,nofun⟩
  · rw [update_of_ne hji,he j]
    exact ⟨And.right,fun h => ⟨hji,h⟩⟩

end Interleave.Slots
