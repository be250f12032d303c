import Waymux.Interleave.Ownership
import Waymux.Registry.Processes

/-!
# One incarnation per name

`create` does not check that the name's previous incarnation has finished.
-/

namespace Waymux.Registry.NameExclusive
open HostResources TaskState TaskSteps StepCases TaskFrames Incarnations Processes
open Interleave.Runs Interleave.Ownership

variable {s t : Daemon} {a : Act} {i j : Inc} {m : Bool}

def supLive : SupPc → Bool
  | .none | .done _ => false
  | _ => true

def cleanLive : CleanPc → Bool
  | .kill | .retry _ => true
  | _ => false

def spawnTarget : SpawnPc → Option Inc
  | .spawn i | .record i => some i
  | _ => none

/-- A create call, supervisor or destroy call works for `i`. -/
def Busy (s : Daemon) (i : Inc) : Prop :=
  InFlight s i ∨ supLive (s.sups i)=true ∨ ∃ d e,taken (s.destroys d).pc=some e ∧ e.inc=i

/-- Beyond that: clean-up task, unfinished spawn call, or a process of `i`. -/
def Active (s : Daemon) (i : Inc) : Prop :=
  Busy s i ∨ cleanLive (s.cleans i)=true ∨ (∃ c,spawnTarget (s.spawns c).pc=some i) ∨
    ∃ x∈s.procs,x.inc=i

def Enters (s : Daemon) (a : Act) (j : Inc) : Prop :=
  (s.creates j).pc=.lookup ∧ s.sessions (nameOf s j)=none ∧ ∃ o,a=.createStep j o

/-- A create call passes its look-up only when no other incarnation of the
name is left, as judged by `busy`. -/
def Alone (busy : Daemon → Inc → Prop) (s : Daemon) (a : Act) : Prop :=
  ∀ j,Enters s a j → ∀ i,busy s i → nameOf s i=nameOf s j → i=j

theorem alone_busy (h : Alone Active s a) : Alone Busy s a :=
  fun j hj i hi hn => h j hj i (.inl hi) hn

theorem enters_unique (hi : Enters s a i) (hj : Enters s a j) : i=j := by
  obtain ⟨_,_,o,rfl⟩ := hi
  obtain ⟨_,_,o',h⟩ := hj
  cases h
  rfl

theorem armed_live {pc : SupPc} (h : armed pc=true) : supLive pc=true := by
  cases pc <;> first | rfl | cases h

theorem entry_busy (w : Wf s) {n : Name} {e : SessionEntry} (he : s.sessions n=some e) : Busy s e.inc :=
  .inr (.inl (armed_live (w.entry_armed n e he)))

theorem sup_busy {pc : SupPc} (h : s.sups i=pc) (hl : supLive pc=true) : Busy s i :=
  .inr (.inl (h ▸ hl))

theorem destroy_busy {d : Nat} {e : SessionEntry} (h : taken (s.destroys d).pc=some e) : Busy s e.inc :=
  .inr (.inr ⟨d,e,h,rfl⟩)

theorem supCase_live (h : SupCase s i t) : supLive (s.sups i)=true := by
  cases h with
  | exited st hpc => rcases hpc with hpc | hpc <;> simp [hpc,supLive]
  | _ => simp_all [supLive]

theorem Busy.not_idle (w : Wf s) (h : Busy s i) : (s.creates i).pc≠.idle := by
  rcases h with h | h | ⟨d,e,h,rfl⟩
  · exact h.not_idle
  · refine ((w.sup_iff i).mp fun hn => ?_).not_idle
    simp [hn,supLive] at h
  · exact (w.removed_inserted _ e (w.destroy_taken d e h).1).2.not_idle

theorem awaited_incOf {k : SpawnCall} (h : Awaited k i) : incOf k=some i := by
  rcases h with ⟨hp,_⟩ | ⟨hp,hr⟩
  · simp [incOf,hp]
  · simp [incOf,hp,hr]

theorem target_incOf {k : SpawnCall} (h : spawnTarget k.pc=some i) : incOf k=some i := by
  cases hp : k.pc <;> simp_all [spawnTarget,incOf]

theorem Active.not_idle (w : Wf s) (r : Rows s) (h : Active s i) : (s.creates i).pc≠.idle := by
  rcases h with h | h | ⟨c,h⟩ | ⟨x,hx,rfl⟩
  · exact h.not_idle w
  · refine (r.clean_inserted i fun hn => ?_).not_idle
    simp [hn,cleanLive] at h
  · exact (r.target c i (target_incOf h)).1.not_idle
  · cases hq : x.proc with
    | session k =>
      obtain ⟨hk,hh⟩ := r.session_row x hx k hq
      exact hk ▸ hh.not_idle w
    | child c => exact (r.target c _ (awaited_incOf (r.child_row x hx c hq).2)).1.not_idle

section Step
variable (w : Wf s) (h : step s a=some t)
include w h

theorem busy_before (hb : Busy t j) : Busy s j ∨ Enters s a j := by
  rcases hb with hf | hl | ⟨d,e,ht,rfl⟩
  · exact (inFlight_before h hf).imp .inl id
  · refine .inl ?_
    rcases sup_frame h j with hs | ⟨hpc,_,_⟩ | ⟨o,_,hc⟩
    · exact .inr (.inl (hs ▸ hl))
    · exact .inl (inFlight_of_pc hpc rfl)
    · exact .inr (.inl (supCase_live hc))
  · rcases (taken_before h ht).2 with hold | ⟨hs,_⟩
    · exact .inl (destroy_busy hold)
    · exact .inl (entry_busy w hs)

theorem active_before (hb : Active t j) : Active s j ∨ Enters s a j := by
  rcases hb with hb | hl | ⟨c,hc⟩ | ⟨x,hx,rfl⟩
  · exact (busy_before w h hb).imp .inl id
  · refine .inl ?_
    rcases clean_frame h j with hs | ⟨d,e,hpc,_,rfl,_⟩ | ⟨o,_,hc⟩
    · exact .inr (.inl (hs ▸ hl))
    · exact .inl (destroy_busy (by rw [hpc]; rfl))
    · refine .inr (.inl ?_)
      cases hc <;> simp_all [cleanLive]
  · refine .inl ?_
    rcases spawn_frame h c with hs | ⟨n,comp,pc,_,hq,hp⟩ | ⟨o,_,hk⟩ | ⟨_,hk⟩
    · exact .inr (.inr (.inl ⟨c,hs ▸ hc⟩))
    · rcases hp with rfl | ⟨err,rfl⟩ <;> simp [hq,spawnTarget] at hc
    · cases hk with
      | found e hpc hs =>
        simp only [setSpawn,Function.update_self,spawnTarget,Option.some.injEq] at hc
        exact .inl (hc ▸ entry_busy w hs)
      | spawn k p hpc =>
        exact .inr (.inr (.inl ⟨c,by simpa [setSpawn,hpc,spawnTarget] using hc⟩))
      | _ => simp [setSpawn,spawnTarget] at hc
    · refine .inr (.inr (.inl ⟨c,?_⟩))
      cases hk <;> simpa [setSpawn] using hc
  · refine .inl ?_
    rcases row_before h hx with ⟨y,hy,_,_,hi,_⟩ | ⟨k,p,hpc,_,_,rfl⟩ |
      ⟨c,k,p,o,_,hpc,_,_,rfl⟩
    · exact .inr (.inr (.inr ⟨y,hy,hi⟩))
    · exact .inl (.inl (inFlight_of_pc hpc rfl))
    · exact .inr (.inr (.inl ⟨c,by rw [hpc]; rfl⟩))

end Step

def Sole (busy : Daemon → Inc → Prop) (s : Daemon) : Prop := Exclusive (nameOf s) (busy s)

theorem sole_step {busy : Daemon → Inc → Prop} (hu : Sole busy s) (ha : Alone busy s a)
    (h : step s a=some t) (hidle : ∀ i,busy s i → (s.creates i).pc≠.idle)
    (hb : ∀ i,busy t i → busy s i ∨ Enters s a i) : Sole busy t := by
  refine hu.step (Enters s a) ?_ hb (fun _ _ => enters_unique) fun i j hi hj hk => ha i hi j hj hk
  rintro k (hk | ⟨hpc,_⟩)
  · exact name_stable h (hidle k hk)
  · exact name_stable h (by simp [hpc])

theorem sole_busy {ok : Daemon → Act → Prop} (hok : ∀ s a,ok s a → Alone Busy s a)
    (hr : Reach step ok (init m) s) : Sole Busy s := by
  refine hr.invariant ?_ fun {u v a} hu he ha h => ?_
  · intro i _ hb
    exact absurd rfl (hb.not_idle (wf_init m))
  · have w:=wf_reach hu
    exact sole_step he (hok u a ha) h (fun _ hb => hb.not_idle w) fun _ => busy_before w h

theorem sole_active {ok : Daemon → Act → Prop} (hok : ∀ s a,ok s a → Alone Active s a)
    (hr : Reach step ok (init m) s) : Sole Active s := by
  refine hr.invariant ?_ fun {u v a} hu he ha h => ?_
  · intro i _ hb
    exact absurd rfl (hb.not_idle (wf_init m) (rows_init m))
  · have w:=wf_reach hu
    exact sole_step he (hok u a ha) h (fun _ hb => hb.not_idle w (rows_reach hu)) fun _ =>
      active_before w h

end Waymux.Registry.NameExclusive
