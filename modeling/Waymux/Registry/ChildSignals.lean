import Waymux.Registry.ChildTracking

/-!
# Whom a SIGTERM reaches

A pid leaves the list that `destroy` signals only after the wait has given the number back to the
kernel.
-/

namespace Waymux.Registry.ChildSignals
open HostResources TaskState TaskSteps StepCases TaskFrames Incarnations Processes
open Schedules ChildTracking Interleave.Runs

variable {s t : Daemon} {a : Act} {c d : Nat} {m : Bool}

def waited : ReapPc → Bool
  | .none | .wait _ => false
  | _ => true

/-- The log has, for each SIGTERM, the process that held the pid then; a client holds it until it is waited
for. -/
structure OwnOnly (s : Daemon) : Prop where
  hits : ∀ g∈s.signals,∃ c,g.hit=some (.child c) ∧ (s.spawns c).pid=g.pid ∧
    (s.spawns c).name=nameOf s g.inc
  until_waited : ∀ c,waited (s.spawns c).reaper=true → s.procs.row (.child c)=none

structure Settled (s : Daemon) (a : Act) : Prop where
  /-- The entry a destroy call takes lists no client whose wait is over. -/
  removal : ∀ d e,a=.destroyStep d → (s.destroys d).pc=.remove →
    s.sessions (s.destroys d).name=some e → ∀ c i code,(s.spawns c).reaper=.prune i code →
    (s.spawns c).name=(s.destroys d).name → (s.spawns c).pid∉e.childPids
  /-- No client of a taken entry is waited for before the SIGTERM loop. -/
  between : ∀ c i,a=.reapStep c → (s.spawns c).reaper=.wait i → ∀ d e,
    (s.destroys d).pc=.emit e → (s.spawns c).name=(s.destroys d).name →
    (s.spawns c).pid∉e.childPids

def Held (s : Daemon) (n : Name) (p : Pid) : Prop :=
  ∃ c i,(s.spawns c).pc=.done none ∧ (s.spawns c).reaper=.wait i ∧ (s.spawns c).name=n ∧
    (s.spawns c).pid=p

theorem Held.hit {ok : Daemon → Act → Prop} (hr : Reach step ok (init m) s) {n : Name} {p : Pid}
    (h : Held s n p) : ∃ c,(s.procs.byPid p).map Process.proc=some (.child c) ∧
      (s.spawns c).pc=.done none ∧ (s.spawns c).pid=p ∧ (s.spawns c).name=n := by
  obtain ⟨c,i,hpc,hw,hn,hp⟩ := h
  have r:=rows_reach hr
  obtain ⟨x,hx,hq⟩ := present_reach hr c i (.inr ⟨hpc,hw⟩)
  have hrow:=byPid_row r hx ((r.child_row x hx c hq).1.trans hp)
  exact ⟨c,by rw [hrow,Option.map_some,hq],hpc,hp,hn⟩

theorem Held.step {n : Name} {p : Pid} (h : step s a=some t) (hh : Held s n p)
    (hw : ∀ c i,a=.reapStep c → (s.spawns c).reaper=.wait i → (s.spawns c).name=n →
      (s.spawns c).pid≠p) : Held t n p := by
  obtain ⟨c,i,hpc,hr,hn,hp⟩ := hh
  rcases spawn_frame h c with hs | ⟨_,_,_,hidle,_⟩ | ⟨o,_,hk⟩ | ⟨ha,_⟩
  · exact ⟨c,i,by rw [hs]; exact ⟨hpc,hr,hn,hp⟩⟩
  · simp [hpc] at hidle
  · exact absurd hpc (spawn_running hk)
  · exact absurd hp (hw c i ha hr hn)

def Pending (s : Daemon) : Prop :=
  ∀ d e,(s.destroys d).pc=.emit e → ∀ p∈e.childPids,Held s (s.destroys d).name p

theorem listed_held (ho : Owned (fun _ _ => True) s) (hc : Settled s (.destroyStep d)) {e : SessionEntry}
    (hpc : (s.destroys d).pc=.remove) (he : s.sessions (s.destroys d).name=some e) {p : Pid}
    (hp : p∈e.childPids) : Held s (s.destroys d).name p := by
  obtain ⟨c,i,_,⟨hd,hw | ⟨code,hw⟩⟩,hn,rfl⟩ := ho _ e p he hp
  · exact ⟨c,i,hd,hw,hn,rfl⟩
  · exact absurd hp (hc.removal d e rfl hpc he c i code hw hn)

theorem pending_step (h : step s a=some t) (ho : Owned (fun _ _ => True) s) (hp : Pending s)
    (hc : Settled s a) : Pending t := by
  intro d e hpc p hmem
  rcases destroy_frame h d with hs | ⟨n,_,_,hq⟩ | ⟨rfl,hk⟩
  · rw [hs] at hpc ⊢
    refine (hp d e hpc p hmem).step h fun c i ha hw hn he => ?_
    exact hc.between c i ha hw d e hpc hn (he ▸ hmem)
  · simp [hq] at hpc
  · cases hk with
    | remove f hrem hf =>
      simp only [destroyAt,Function.update_self,DestroyPc.emit.injEq] at hpc
      subst hpc
      have hheld:=(listed_held ho hc hrem hf hmem).step h fun c i ha => by cases ha
      simpa [destroyAt,take,setEntry] using hheld
    | _ => simp [destroyAt] at hpc

theorem pending_reach (hr : Reach step Settled (init m) s) : Pending s :=
  hr.invariant (by simp [Pending,init]) fun hu hp hc h => pending_step h (owned_reach hu) hp hc

def Own (s : Daemon) (g : Signal) : Prop :=
  ∃ c,g.hit=some (.child c) ∧ (s.spawns c).pc=.done none ∧ (s.spawns c).pid=g.pid ∧
    (s.spawns c).name=nameOf s g.inc ∧ Inserted s g.inc

theorem Own.step {g : Signal} (h : step s a=some t) (hg : Own s g) : Own t g := by
  obtain ⟨c,hhit,hpc,hp,hn,hi⟩ := hg
  have hcall : (t.spawns c).pc=.done none ∧ (t.spawns c).pid=(s.spawns c).pid ∧
      (t.spawns c).name=(s.spawns c).name := by
    rcases spawn_frame h c with hs | ⟨_,_,_,hidle,_⟩ | ⟨o,_,hk⟩ | ⟨_,hk⟩
    · rw [hs]
      exact ⟨hpc,rfl,rfl⟩
    · simp [hpc] at hidle
    · exact absurd hpc (spawn_running hk)
    · cases hk <;> simp [setSpawn,setEntry,hpc]
  obtain ⟨hpc',hp',hn'⟩ := hcall
  exact ⟨c,hhit,hpc',hp'.trans hp,by rw [hn',hn,name_stable h hi.not_idle],hi.stable h⟩

theorem own_reach (hr : Reach step Settled (init m) s) : ∀ g∈s.signals,Own s g := by
  refine hr.invariant (I := fun u => ∀ g∈u.signals,Own u g) (by simp [init])
    fun {u v a} hu ho hc h g hg => ?_
  have w:=wf_reach hu
  have sent {d : Nat} {e : SessionEntry} (hd : nameOf u e.inc=(u.destroys d).name)
      (hi : Inserted u e.inc) (hheld : ∀ p∈e.childPids,Held u (u.destroys d).name p)
      (hmem : g∈e.childPids.map
        (fun p => (⟨e.inc,p,(u.procs.byPid p).map Process.proc⟩ : Signal))) : Own v g := by
    obtain ⟨p,hp,rfl⟩ := List.mem_map.mp hmem
    obtain ⟨c,hhit,hpc,hpid,hn⟩ := (hheld p hp).hit hu
    exact Own.step h ⟨c,hhit,hpc,hpid,hn.trans hd.symm,hi⟩
  cases signal_effect h with
  | same hs => exact Own.step h (ho g (hs ▸ hg))
  | sent d e hpc hs =>
    rcases List.mem_append.mp (hs ▸ hg) with hg | hg
    · exact Own.step h (ho g hg)
    · obtain ⟨hrem,hn⟩ := w.destroy_taken d e (by simp [hpc,taken])
      exact sent hn (w.removed_inserted _ e hrem).2 (pending_reach hu d e hpc) hg

theorem waited_gone {ok : Daemon → Act → Prop} (hr : Reach step ok (init m) s) (c : Nat)
    (hw : waited (s.spawns c).reaper=true) : s.procs.row (.child c)=none := by
  refine List.find?_eq_none.mpr fun x hx hq => ?_
  rcases ((rows_reach hr).child_row x hx c (by simpa using hq)).2 with ⟨_,hk⟩ | ⟨_,hk⟩ <;>
    simp [hk,waited] at hw

/-- In every run that meets the condition, each SIGTERM of a destroy call has gone to a client of the
session that was not waited for yet. -/
theorem signals_reach_own (hr : Reach step Settled (init m) s) : OwnOnly s where
  hits := fun g hg => by
    obtain ⟨c,hhit,_,hp,hn,_⟩ := own_reach hr g hg
    exact ⟨c,hhit,hp,hn⟩
  until_waited := waited_gone hr

theorem settled_unpruned {u : Daemon} (hp : ∀ c i code,(u.spawns c).reaper≠.prune i code)
    (ha : isLater a=false) : Settled u a where
  removal := fun _ _ _ _ _ c i code hw => absurd hw (hp c i code)
  between := by
    rintro c i rfl
    cases ha

theorem signals_reach_own_destroy : ∃ s,Reach step Settled (init true) s ∧
    s.signals=[⟨0,20,some (.child 0)⟩] ∧ OwnOnly s := by
  have hm : Meets step Settled (init true) destroyedUnderClient :=
    meets_of_invariant (L := fun a => isLater a=false) (by simp [init])
      (fun u v a hu ha h => unpruned_step h ha hu) (fun u a hu ha => settled_unpruned hu ha) (by decide)
  have hr : Reach step Settled (init true) _ := reach_exec _ hm (by decide +kernel)
  exact ⟨_,hr,by decide +kernel,signals_reach_own hr⟩

/-- Before the pid of a client of `"a"` is pruned the kernel gives the number to the session process of
`"b"`. -/
def pidTakenOver : List Act :=
  createRun 0 10 (plain "a")++spawnRun 0 "a" 20 ++
    ([.exit (.child 0) (.code 0),.reapStep 0] : List Act)++createRun 1 20 (plain "b") ++
    destroyRun 0 "a"

theorem stranger_signalled : ∃ s,Reach step Free (init false) s ∧
    s.signals=[⟨0,20,some (.session 1)⟩] ∧ s.procs.running (.session 1)=true ∧ ¬OwnOnly s := by
  have hr : Reach step Free (init false) _ := reach_free pidTakenOver (by decide +kernel)
  refine ⟨_,hr,by decide +kernel,by decide +kernel,fun ho => ?_⟩
  obtain ⟨c,hhit,_⟩ := ho.hits ⟨0,20,some (.session 1)⟩ (by decide +kernel)
  cases hhit

end Waymux.Registry.ChildSignals
