import Waymux.Registry.Directories
import Waymux.Registry.LifecycleEvents

/-!
# Teardown of a session that has left the map

`destroy` signals the clients, unmounts the tmpfs and starts the cgroup clean-up. The supervisor of
a session that ended by itself only unmounts.
-/

namespace Waymux.Registry.Teardown
open HostResources TaskState TaskSteps StepCases TaskFrames Incarnations
open NameExclusive Directories Schedules LifecycleEvents Interleave.Runs

variable {s t : Daemon} {a : Act} {i j : Inc} {m : Bool}

/-- SIGTERM went to every client the entry listed when it left the map. -/
def Signalled (s : Daemon) (e : SessionEntry) : Prop :=
  ∀ p∈e.childPids,∃ g∈s.signals,g.inc=e.inc ∧ g.pid=p

/-- When the end of a session is reported, its teardown is complete. -/
def TornDown (s : Daemon) : Prop :=
  ∀ n code i e,.sessionDestroyed n code i∈s.events → s.removed i=some e →
    Signalled s e ∧ (e.cgroup=true → s.cleans i≠.none) ∧ ∀ x,i∉makers (s.dirs x)

/-- Supervisors take only entries without clients and without a cgroup. -/
def LeavesNothing (s : Daemon) (a : Act) : Prop :=
  ∀ i o code e,a=.supStep i o → s.sups i=.remove code → s.sessions (nameOf s i)=some e →
    e.childPids=[] ∧ e.cgroup=false

/-- A supervisor reports only when the destroy call of its session has finished. -/
def DestroyFirst (s : Daemon) (a : Act) : Prop :=
  ∀ i o code,a=.supStep i o → s.sups i=.announce code →
    ∀ d e,taken (s.destroys d).pc=some e → e.inc≠i

structure Orderly (s : Daemon) (a : Act) : Prop where
  alone : Alone Busy s a
  nothing : LeavesNothing s a
  destroyed : DestroyFirst s a

structure Handled (s : Daemon) : Prop where
  signalled : ∀ i e,s.removed i=some e → Signalled s e ∨ ∃ d,(s.destroys d).pc=.emit e
  cleaned : ∀ i e,s.removed i=some e → e.cgroup=true →
    s.cleans i≠.none ∨ ∃ d,taken (s.destroys d).pc=some e
  settled : ∀ i,finished (s.sups i)=true → ∀ d e,taken (s.destroys d).pc=some e → e.inc≠i

theorem signalled_sigterm (u : Daemon) (e : SessionEntry) : Signalled (sigterm u e) e := by
  intro p hp
  refine ⟨⟨e.inc,p,(u.procs.byPid p).map Process.proc⟩,?_,rfl,rfl⟩
  exact List.mem_append_right _ (List.mem_map.mpr ⟨p,hp,rfl⟩)

theorem removed_now (h : step s a=some t) {e : SessionEntry} (hr : t.removed i=some e)
    (hn : s.removed i≠some e) :
    (∃ d,a=.destroyStep d ∧ (t.destroys d).pc=.emit e) ∨
    ∃ k o code,a=.supStep k o ∧ s.sups k=.remove code ∧ s.sessions (nameOf s k)=some e := by
  cases step_cases h with
  | destroyStep d hc =>
    cases hc with
    | remove f =>
      refine .inl ⟨d,rfl,?_⟩
      by_cases hi : i=f.inc
      · subst hi
        simp only [destroyAt,take,Function.update_self,Option.some.injEq] at hr
        subst hr
        simp [destroyAt]
      · exact absurd (by simpa [destroyAt,take,hi] using hr) hn
    | _ => exact absurd hr hn
  | supStep k o hc =>
    cases hc with
    | removed code f pc hpc hs =>
      by_cases hi : i=f.inc
      · subst hi
        simp only [supAt,take,Function.update_self,Option.some.injEq] at hr
        subst hr
        exact .inr ⟨k,o,code,rfl,hpc,hs⟩
      · exact absurd (by simpa [supAt,take,hi] using hr) hn
    | _ => exact absurd hr hn
  | createStep k o _ hc | cleanStep k o hc | spawnStep c o hc | reapStep c hc | controlStep c hc =>
    cases hc <;> exact absurd hr hn
  | _ => exact absurd hr hn

section Step
variable (h : step s a=some t) (hs : Handled s)
include h hs

theorem signalled_step (hc : LeavesNothing s a) (i : Inc) (e : SessionEntry)
    (hr : t.removed i=some e) : Signalled t e ∨ ∃ d,(t.destroys d).pc=.emit e := by
  by_cases hold : s.removed i=some e
  · rcases hs.signalled i e hold with hsig | ⟨d,hd⟩
    · refine .inl fun p hp => ?_
      obtain ⟨g,hg,hgi⟩ := hsig p hp
      exact ⟨g,signals_mono h hg,hgi⟩
    · rcases destroy_frame h d with he | ⟨n,_,hpc,_⟩ | ⟨_,hcase⟩
      · exact .inr ⟨d,by rw [he,hd]⟩
      · simp [hd] at hpc
      · cases hcase with
        | emit f hpc =>
          cases hd.symm.trans hpc
          exact .inl (signalled_sigterm _ e)
        | _ => simp_all
  · rcases removed_now h hr hold with ⟨d,_,hemit⟩ | ⟨k,o,code,ha,hpc,he⟩
    · exact .inr ⟨d,hemit⟩
    · -- the supervisor's entry lists no client
      refine .inl fun p hp => ?_
      simp [(hc k o code e ha hpc he).1] at hp

theorem cleaned_step (w : Wf s) (hc : LeavesNothing s a) (i : Inc) (e : SessionEntry)
    (hr : t.removed i=some e) (hg : e.cgroup=true) :
    t.cleans i≠.none ∨ ∃ d,taken (t.destroys d).pc=some e := by
  by_cases hold : s.removed i=some e
  · rcases hs.cleaned i e hold hg with hcl | ⟨d,hd⟩
    · refine .inl ?_
      rcases clean_frame h i with he | ⟨_,_,_,_,_,hk⟩ | ⟨o,_,hcase⟩
      · rw [he]
        exact hcl
      · simp [hk]
      · cases hcase with
        | busy k pc _ hpc => rcases hpc with rfl | rfl <;> simp [cleanAt]
        | _ => simp [cleanAt]
    · rcases destroy_frame h d with he | ⟨n,_,hpc,_⟩ | ⟨_,hcase⟩
      · exact .inr ⟨d,by rw [he,hd]⟩
      · simp [hpc,taken] at hd
      · have hi:=(w.removed_inserted i e hold).1
        cases hcase with
        | cleanup f hpc =>
          simp only [hpc,taken,Option.some.injEq] at hd
          subst hd hi
          exact .inl (by simp [destroyAt,cleanAt])
        | noCgroup f hpc hf =>
          simp only [hpc,taken,Option.some.injEq] at hd
          simp [hd,hg] at hf
        | emit f hpc | tags f hpc | kill f hpc | unmount f hpc | noTmpfs f hpc =>
          exact .inr ⟨d,by simpa [hpc,taken,destroyAt] using hd⟩
        | missing hpc | remove f hpc => simp [hpc,taken] at hd
  · rcases removed_now h hr hold with ⟨d,_,hemit⟩ | ⟨k,o,code,ha,hpc,he⟩
    · exact .inr ⟨d,by rw [hemit]; rfl⟩
    · simp [(hc k o code e ha hpc he).2] at hg

theorem settled_step (w : Wf s) (hc : DestroyFirst s a) (i : Inc) (hf : finished (t.sups i)=true)
    (d : Nat) (e : SessionEntry) (ht : taken (t.destroys d).pc=some e) : e.inc≠i := by
  rintro rfl
  -- at its end the supervisor has been at the map, so the session is not there any more
  have hout {pc : SupPc} (hp : s.sups e.inc=pc) (ha : armed pc=false) :
      s.sessions (s.destroys d).name≠some e := by
    intro he
    have := w.entry_armed _ e he
    simp [hp,ha] at this
  have hold:=(taken_before h ht).2
  by_cases hfs : finished (s.sups e.inc)=true
  · rcases hold with hold | ⟨he,_⟩
    · exact hs.settled e.inc hfs d e hold rfl
    · cases hp : s.sups e.inc <;> simp [hp,finished] at hfs
      exact hout hp rfl he
  · obtain ⟨o,code,ha,hpc,_⟩ := finished_now h hf hfs
    rcases hold with hold | ⟨he,_⟩
    · exact hc e.inc o code ha hpc d e hold rfl
    · exact hout hpc rfl he

end Step

theorem handled_reach (hr : Reach step Orderly (init m) s) : Handled s := by
  refine hr.invariant ⟨by simp [init],by simp [init],by simp [init,finished]⟩ fun {u v a} hu hs ha h => ?_
  have w:=wf_reach hu
  exact ⟨signalled_step h hs ha.nothing,cleaned_step h hs w ha.nothing,settled_step h hs w ha.destroyed⟩

theorem finished_unmounted (w : Wf s) (hm : MountStack s) (hs : Handled s)
    (hf : finished (s.sups i)=true) : ∀ n,i∉makers (s.dirs n) := by
  have hi : Inserted s i := (w.sup_iff i).mp fun hnone => by simp [hnone,finished] at hf
  intro n hmem
  cases hk : makers (s.dirs n) with
  | nil => simp [hk] at hmem
  | cons top rest =>
    obtain ⟨_,htop,hrest⟩ := hm n top rest hk
    rw [hk] at hmem
    rcases List.mem_cons.mp hmem with rfl | hmem
    · refine (htop.resolve_left hi.not_failed).elim (fun hfl => hfl.1.not_inserted hi) ?_
      rintro (⟨e,he,rfl,_⟩ | ⟨d,e,hd,rfl,_⟩ | ⟨code,e,hp,_⟩ | ⟨code,hp⟩)
      · have := w.entry_armed _ e he
        cases hp : s.sups e.inc <;> simp [hp,finished,armed] at hf this
      · exact hs.settled e.inc hf d e (detaching_taken hd) rfl
      · simp [hp,finished] at hf
      · simp [hp,finished] at hf
    · exact hi.not_failed (hrest i hmem).2

/-- In every run whose steps are orderly, the end of a session is reported only when its clients were
signalled, its cgroup was handed over and its tmpfs is unmounted. -/
theorem teardown_complete (hr : Reach step Orderly (init m) s) : TornDown s := by
  intro n code i e hev hrem
  have w:=wf_reach hr
  have hs:=handled_reach hr
  have hf : finished (s.sups i)=true :=
    ((destroyed_reach hr).mem i).mp (List.mem_filterMap.mpr ⟨_,hev,rfl⟩)
  have hinc:=(w.removed_inserted i e hrem).1
  refine ⟨?_,fun hg => ?_,finished_unmounted w (mountStack_reach (fun _ _ hok => hok.alone) hr) hs hf⟩
  · refine (hs.signalled i e hrem).resolve_right ?_
    rintro ⟨d,hd⟩
    exact hs.settled i hf d e (by simp [hd,taken]) hinc
  · refine (hs.cleaned i e hrem hg).resolve_right ?_
    rintro ⟨d,hd⟩
    exact hs.settled i hf d e hd hinc

def leavesNothing (s : Daemon) : Act → Bool
  | .supStep i _ =>
      match s.sups i, s.sessions (nameOf s i) with
      | .remove _, some e => e.childPids=[] ∧ e.cgroup=false
      | _, _ => true
  | _ => true

theorem leavesNothing_correct (s : Daemon) (a : Act) (h : leavesNothing s a=true) : LeavesNothing s a := by
  rintro i o code e rfl hpc he
  simpa [leavesNothing,hpc,he] using h

theorem teardown_complete_quota : ∃ s,Reach step Orderly (init false) s ∧
    .sessionDestroyed "a" 0 0∈s.events ∧ (s.removed 0).map SessionEntry.tmpfs=some true ∧
    TornDown s := by
  have hm : Meets step Orderly (init false) (createRun 0 10 (withQuota "a")++exitRun 0) :=
    (((names_once false (by decide)).mono fun _ _ => alone_busy).and
      ((meets_of_checked leavesNothing_correct (by decide +kernel)).and
        (no_destroy false (fun u a hu i o code _ _ d e hd => by simp [hu,taken] at hd)
          (by decide)))).mono fun _ _ hok => ⟨hok.1,hok.2.1,hok.2.2⟩
  have hr : Reach step Orderly (init false) _ := reach_exec _ hm (by decide +kernel)
  refine ⟨_,hr,?_,?_,teardown_complete hr⟩ <;> decide +kernel

/-- A client has been spawned, then the session process ends by itself. -/
def clientLeftRunning : List Act :=
  createRun 0 10 (plain "a") ++
    ([.spawnChild 0 "a" ["/bin/app"] false,.spawnStep 0 .ok,.spawnStep 0 (.spawned 20),
      .spawnStep 0 .ok] : List Act) ++
    exitRun 0

theorem natural_exit_signals_nobody : ∃ s,Reach step Free (init false) s ∧
    .sessionDestroyed "a" 0 0∈s.events ∧ s.procs.running (.child 0)=true ∧ ¬TornDown s := by
  obtain ⟨s,hr,hev,hrun,hpids,hsig⟩ : ∃ s,Reach step Free (init false) s ∧
      .sessionDestroyed "a" 0 0∈s.events ∧ s.procs.running (.child 0)=true ∧
      (s.removed 0).map SessionEntry.childPids=some [20] ∧ s.signals=[] :=
    free_observed clientLeftRunning (by decide +kernel)
  obtain ⟨e,he,hpids⟩ := Option.map_eq_some_iff.mp hpids
  refine ⟨s,hr,hev,hrun,fun htorn => ?_⟩
  obtain ⟨g,hg,_⟩ := (htorn "a" 0 0 e hev he).1 20 (by simp [hpids])
  simp [hsig] at hg

end Waymux.Registry.Teardown
