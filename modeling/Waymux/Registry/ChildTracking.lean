import Mathlib.Data.List.Pairwise
import Waymux.Registry.Schedules

/-!
# Clients of a session

`spawn_child` looks its session up by name before it starts the client and again to record the pid.
-/

namespace Waymux.Registry.ChildTracking
open HostResources TaskState TaskSteps StepCases TaskFrames Processes List
open Schedules Interleave.Runs

variable {s t : Daemon} {a : Act} {i j : Inc} {c d : Nat} {n : Name} {m : Bool}

theorem running_iff {tb : Table} {q : Proc} : tb.running q=true ↔ ∃ x∈tb,x.proc=q ∧ x.status=none := by
  simp [Table.running]

/-- The client is in `child_pids` of the incarnation its call resolved to. -/
def Listed (s : Daemon) (c : Nat) (i : Inc) : Prop :=
  ∃ e,s.sessions (s.spawns c).name=some e ∧ e.inc=i ∧ (s.spawns c).pid∈e.childPids

def Terminated (s : Daemon) (c : Nat) (i : Inc) : Prop :=
  ⟨i,(s.spawns c).pid,some (.child c)⟩∈s.signals

/-- Between the removal and the SIGTERM loop of a destroy call the client is only in the list the call has
taken along. -/
def Pending (s : Daemon) (c : Nat) (i : Inc) : Prop :=
  ∃ d e,(s.destroys d).pc=.emit e ∧ e.inc=i ∧ (s.spawns c).pid∈e.childPids

/-- No orphans: a client whose call has returned is accounted for while it runs. -/
def Tracked (s : Daemon) : Prop :=
  ∀ c i,(s.spawns c).pc=.done none → incOf (s.spawns c)=some i →
    s.procs.running (.child c)=true →
    (Listed s c i ∨ Terminated s c i) ∧
      ∀ n e,s.sessions n=some e → e.inc≠i → (s.spawns c).pid∉e.childPids

def NoneLive (s : Daemon) (e : SessionEntry) : Prop :=
  ∀ c,s.procs.running (.child c)=true → (s.spawns c).pid∉e.childPids

structure Tracking (s : Daemon) (a : Act) : Prop where
  /-- A client is recorded only while the session it was started for is registered. -/
  record : ∀ c o i,a=.spawnStep c o → (s.spawns c).pc=.record i →
    ∃ e,s.sessions (s.spawns c).name=some e ∧ e.inc=i
  /-- A supervisor takes only entries that list no live client. -/
  collect : ∀ i o code e,a=.supStep i o → s.sups i=.remove code →
    s.sessions (nameOf s i)=some e → NoneLive s e
  /-- A pid is not handed out again before its previous owner has been pruned. -/
  fresh : ∀ c p i,a=.spawnStep c (.spawned p) → (s.spawns c).pc=.spawn i →
    ∀ c' i' code,(s.spawns c').reaper=.prune i' code → (s.spawns c').pid≠p

def Present (s : Daemon) : Prop :=
  ∀ c i,Awaited (s.spawns c) i → ∃ x∈s.procs,x.proc=.child c

theorem child_row_kept (h : step s a=some t) {x : Process} (hx : x∈s.procs)
    (hq : x.proc=.child c) : (∃ y∈t.procs,y.proc=.child c) ∨
      ∃ i code,(t.spawns c).reaper=.prune i code := by
  cases proc_effect h with
  | same ht => exact .inl ⟨x,ht ▸ hx,hq⟩
  | session i o p _ _ ht | client c' o i p _ _ ht =>
    exact .inl ⟨x,ht ▸ mem_cons_of_mem _ hx,hq⟩
  | given i o err _ ht | shutdown i o code _ ht =>
    exact .inl ⟨x,ht ▸ mem_reap.mpr ⟨hx,by simp [hq]⟩,hq⟩
  | reaped c' i st _ _ ht hk =>
    by_cases hc : c=c'
    · subst hc
      exact .inr ⟨i,_,by rw [hk]⟩
    · exact .inl ⟨x,ht ▸ mem_reap.mpr ⟨hx,by simp [hq,hc]⟩,hq⟩
  | killed i o _ ht | exited q st ht =>
    rw [ht]
    refine .inl ⟨_,mem_map.mpr ⟨x,hx,rfl⟩,?_⟩
    split <;> exact hq

theorem awaited_before (h : step s a=some t) (r : Rows s) (ha : Awaited (t.spawns c) i) :
    Awaited (s.spawns c) i ∨ ∃ x∈t.procs,x.proc=.child c := by
  rcases spawn_frame h c with hs | ⟨n,comp,pc,_,hq,hp⟩ | ⟨o,_,hk⟩ | ⟨_,hk⟩
  · exact .inl (hs ▸ ha)
  · rcases hp with rfl | ⟨err,rfl⟩ <;> simp [Awaited,hq] at ha
  · cases hk with
    | spawn => exact .inr ⟨_,mem_cons_self,rfl⟩
    | record k e l hpc | recordGone k hpc =>
      have hi : k=i := by simpa [Awaited,setSpawn] using ha
      subst hi
      exact .inl (.inl ⟨hpc,r.reaper_late c (by simp [hpc])⟩)
    | _ => simp [Awaited,setSpawn] at ha
  · have hp:=reap_returned r hk
    cases hk with
    | report k code b pc _ hpc => rcases hpc with ⟨_,rfl⟩ | ⟨_,rfl⟩ <;> simp [Awaited,setSpawn,hp] at ha
    | _ => simp [Awaited,setSpawn,hp] at ha

theorem present_reach {ok : Daemon → Act → Prop} (hr : Reach step ok (init m) s) : Present s := by
  refine hr.invariant (by simp [Present,init,Awaited]) fun {u v a} hu hp _ h c i ha => ?_
  rcases awaited_before h (rows_reach hu) ha with hold | hnew
  · obtain ⟨x,hx,hq⟩ := hp c i hold
    refine (child_row_kept h hx hq).resolve_right ?_
    rintro ⟨k,code,hk⟩
    rcases ha with ⟨_,hn⟩ | ⟨_,hn⟩ <;> simp [hk] at hn
  · exact hnew

def Entitled (k : SpawnCall) (i : Inc) : Prop :=
  k.pc=.done none ∧ (k.reaper=.wait i ∨ ∃ code,k.reaper=.prune i code)

def Accounted (s : Daemon) (c : Nat) (i : Inc) : Prop := Listed s c i ∨ Terminated s c i ∨ Pending s c i

structure Lists (s : Daemon) : Prop where
  owner : ∀ n e p,s.sessions n=some e → p∈e.childPids →
    ∃ c,Entitled (s.spawns c) e.inc ∧ (s.spawns c).name=n ∧ (s.spawns c).pid=p
  pruning : ∀ c i code,(s.spawns c).reaper=.prune i code →
    ∀ x∈s.procs,∀ d,x.proc=.child d → x.pid≠(s.spawns c).pid
  accounted : ∀ x∈s.procs,∀ c,x.proc=.child c → x.status=none → (s.spawns c).pc=.done none → Accounted s c x.inc

theorem row_unique (r : Rows s) {x y : Process} (hx : x∈s.procs) (hy : y∈s.procs)
    (he : x.pid=y.pid) : x=y := by
  have : Std.Symm fun x y : Process => x.pid≠y.pid := ⟨fun _ _ h => h.symm⟩
  by_contra hne
  exact r.pids.forall hx hy hne he

theorem entitled_step (h : step s a=some t) (he : Entitled (s.spawns c) i) :
    (Entitled (t.spawns c) i ∧ (t.spawns c).name=(s.spawns c).name ∧
      (t.spawns c).pid=(s.spawns c).pid) ∨
    ∃ i code,(s.spawns c).reaper=.prune i code ∧ ReapCase s c t := by
  obtain ⟨hp,hw⟩ := he
  rcases spawn_frame h c with hs | ⟨n,comp,pc,hpc,_⟩ | ⟨o,_,hk⟩ | ⟨_,hk⟩
  · exact .inl (by rw [hs]; exact ⟨⟨hp,hw⟩,rfl,rfl⟩)
  · simp [hp] at hpc
  · exact absurd hp (spawn_running hk)
  · rcases hw with hw | ⟨code,hw⟩
    · cases hk with
      | wait k st hq =>
        cases hw.symm.trans hq
        exact .inl (by simp [Entitled,setSpawn,hp])
      | prune k code e hq | pruneGone k code hq | report k code b pc hq | crash k code hq =>
        simp [hw] at hq
    · exact .inr ⟨i,code,hw,hk⟩

theorem recorded_call {o : Outcome} (h : step s (.spawnStep c o)=some t) (hpc : (s.spawns c).pc=.record i) :
    t.spawns c={s.spawns c with pc := .done none, reaper := .wait i} := by
  cases spawnStep_cases h with
  | record k e l hp | recordGone k hp =>
    cases hpc.symm.trans hp
    exact Function.update_self ..
  | missing hp | found e hp | spawn k p hp | failed k hp => simp [hpc] at hp

theorem recorded_listed {o : Outcome} {e : SessionEntry} (h : step s (.spawnStep c o)=some t)
    (hpc : (s.spawns c).pc=.record i) (he : s.sessions (s.spawns c).name=some e)
    (hi : e.inc=i) : Listed t c i := by
  cases spawnStep_cases h with
  | record k f l _ hf =>
    cases he.symm.trans hf
    refine ⟨addChild e (s.spawns c).pid (s.spawns c).compositor,?_,hi,?_⟩
    · simp [setSpawn,setLeaf,setEntry]
    · simp [setSpawn,addChild]
  | recordGone k _ hf => simp [he] at hf
  | missing hp | found f hp | spawn k p hp | failed k hp => simp [hpc] at hp

theorem byPid_row (r : Rows s) {x : Process} {p : Pid} (hx : x∈s.procs) (hp : x.pid=p) :
    s.procs.byPid p=some x := by
  cases hf : s.procs.byPid p with
  | none => exact absurd (List.find?_eq_none.mp hf x hx) (by simp [hp])
  | some y =>
    have hy : y.pid=p := by simpa using List.find?_some hf
    rw [row_unique r (mem_of_find?_eq_some hf) hx (hy.trans hp.symm)]

theorem taken_along {e : SessionEntry} (h : step s (.destroyStep d)=some t) (hpc : (s.destroys d).pc=.remove)
    (he : s.sessions (s.destroys d).name=some e) : (t.destroys d).pc=.emit e := by
  cases destroyStep_cases h with
  | remove f _ hf =>
    cases he.symm.trans hf
    simp [destroyAt]
  | missing _ hf => simp [he] at hf
  | emit f hp | tags f hp | kill f hp | unmount f hp | noTmpfs f hp | cleanup f hp
  | noCgroup f hp => simp [hpc] at hp

theorem signalled_now {e : SessionEntry} {p : Pid} (h : step s (.destroyStep d)=some t)
    (hpc : (s.destroys d).pc=.emit e) (hp : p∈e.childPids) :
    ⟨e.inc,p,(s.procs.byPid p).map Process.proc⟩∈t.signals := by
  cases destroyStep_cases h with
  | emit f hf =>
    cases hpc.symm.trans hf
    exact mem_append_right _ (mem_map.mpr ⟨p,hp,rfl⟩)
  | missing hp' | remove f hp' | tags f hp' | kill f hp' | unmount f hp' | noTmpfs f hp' | cleanup f hp'
  | noCgroup f hp' => simp [hpc] at hp'

theorem pending_step (h : step s a=some t) (r : Rows s) {x : Process} (hx : x∈s.procs) (hq : x.proc=.child c)
    (hs : Pending s c i) (hp : (t.spawns c).pid=(s.spawns c).pid) : Terminated t c i ∨ Pending t c i := by
  obtain ⟨d,e,hpc,rfl,hmem⟩ := hs
  rcases destroy_frame h d with hd | ⟨n,_,hidle,_⟩ | ⟨rfl,_⟩
  · exact .inr ⟨d,e,hd ▸ hpc,rfl,hp ▸ hmem⟩
  · simp [hpc] at hidle
  · have hsig:=signalled_now h hpc hmem
    rw [byPid_row r hx (r.child_row x hx c hq).1,Option.map_some,hq,← hp] at hsig
    exact .inl hsig

theorem spawned_outcome {o : Outcome} {p : Pid} (h : step s (.spawnStep c o)=some t)
    (hpc : (s.spawns c).pc=.spawn i)
    (hk : t.spawns c={s.spawns c with pc := .record i, pid := p}) : o=.spawned p := by
  cases o with
  | spawned =>
    simp only [step,spawnStep,hpc] at h
    split at h
    · cases h
    · cases h
      simp only [setSpawn,Function.update_self,SpawnCall.mk.injEq] at hk
      rw [hk.2.2.2.1]
  | fail =>
    simp only [step,spawnStep,hpc,Option.some.injEq] at h
    subst h
    simp [setSpawn] at hk
  | _ => simp [step,spawnStep,hpc] at h

/-- Clients that are waited for or about to be pruned. `R` relates the incarnation a client was started for
to the one that lists it. -/
def Owned (R : Inc → Inc → Prop) (s : Daemon) : Prop :=
  ∀ n e p,s.sessions n=some e → p∈e.childPids →
    ∃ c i,R i e.inc ∧ Entitled (s.spawns c) i ∧ (s.spawns c).name=n ∧ (s.spawns c).pid=p

theorem owned_step {R : Inc → Inc → Prop} (h : step s a=some t) (ho : Owned R s)
    (hrec : ∀ c o i e,a=.spawnStep c o → (s.spawns c).pc=.record i →
      s.sessions (s.spawns c).name=some e → R i e.inc) : Owned R t := by
  intro n e p he hp
  -- a pid listed before the step belongs to the same call after it, unless it has just been pruned
  have old (e' : SessionEntry) (he' : s.sessions n=some e') (hi : e'.inc=e.inc)
      (hp' : p∈e'.childPids) : ∃ c i,R i e.inc ∧ Entitled (t.spawns c) i ∧
        (t.spawns c).name=n ∧ (t.spawns c).pid=p := by
    obtain ⟨c,i,hR,hcn,rfl,rfl⟩ := ho n e' p he' hp'
    rcases entitled_step h hcn with ⟨ht,hn,hq⟩ | ⟨k,code,hw,hk⟩
    · exact ⟨c,i,hi ▸ hR,ht,hn,hq⟩
    · cases hk with
      | prune =>
        simp only [setSpawn,setEntry,Function.update_self,Option.some.injEq] at he
        subst he
        simp [pruneChild] at hp
      | pruneGone k code hw' hf => simp [he'] at hf
      | wait k st hq | report k code b pc hq | crash k code hq => simp [hw] at hq
  cases entry_effect h n with
  | same hs => exact old e (hs ▸ he) rfl hp
  | inserted i o _ _ _ ht =>
    cases he.symm.trans ht
    simp [newEntry] at hp
  | recorded c o i e' hpc hn hs ht =>
    cases he.symm.trans ht
    rcases mem_append.mp hp with hp | hp
    · exact old e' hs rfl hp
    · have hcall:=recorded_call h hpc
      refine ⟨c,i,hrec c o i e' rfl hpc (hn ▸ hs),?_,?_,?_⟩
      · exact ⟨by rw [hcall],.inl (by rw [hcall])⟩
      · rw [hcall,← hn]
      · rw [hcall,mem_singleton.mp hp]
  | pruned c i code e' _ _ hs ht =>
    cases he.symm.trans ht
    exact old e' hs rfl (mem_of_mem_filter hp)
  | resized c i w h' e' _ _ _ hs ht =>
    cases he.symm.trans ht
    exact old e' hs rfl hp
  | destroyed d e' _ _ _ ht | collected i o code e' _ _ _ ht => cases he.symm.trans ht

/- In every run: the client may have been started for another incarnation. -/
theorem owned_reach {ok : Daemon → Act → Prop} (hr : Reach step ok (init m) s) : Owned (fun _ _ => True) s :=
  hr.keeps (by simp [Owned,init]) fun ho _ h => owned_step h ho fun _ _ _ _ _ _ _ => trivial

section Step
variable (h : step s a=some t) (r : Rows s) (hl : Lists s) (hc : Tracking s a)
include h r hl hc

omit r in
theorem owner_step (n : Name) (e : SessionEntry) (p : Pid) (he : t.sessions n=some e) (hp : p∈e.childPids) :
    ∃ c,Entitled (t.spawns c) e.inc ∧ (t.spawns c).name=n ∧ (t.spawns c).pid=p := by
  have ho : Owned Eq s := fun n e p he hp => by
    obtain ⟨c,hcn⟩ := hl.owner n e p he hp
    exact ⟨c,e.inc,rfl,hcn⟩
  have hrec (c : Nat) (o : Outcome) (i : Inc) (f : SessionEntry) (ha : a=.spawnStep c o)
      (hpc : (s.spawns c).pc=.record i) (hf : s.sessions (s.spawns c).name=some f) : i=f.inc := by
    obtain ⟨g,hg,hi⟩ := hc.record c o i ha hpc
    cases hf.symm.trans hg
    exact hi.symm
  obtain ⟨c,i,rfl,hcn⟩ := owned_step h ho hrec n e p he hp
  exact ⟨c,hcn⟩

theorem pruning_step (c : Nat) (i : Inc) (code : Int) (hw : (t.spawns c).reaper=.prune i code)
    (x : Process) (hx : x∈t.procs) (d : Nat) (hd : x.proc=.child d) : x.pid≠(t.spawns c).pid := by
  -- the pid of a client that waits to be pruned was its own already before the step
  have hold : (t.spawns c).pid=(s.spawns c).pid ∧
      ((s.spawns c).reaper=.prune i code ∨
        a=.reapStep c ∧ ∃ z∈s.procs,z.proc=.child c ∧ t.procs=s.procs.reap (.child c)) := by
    rcases spawn_frame h c with hs | ⟨n,comp,pc,_,hq,_⟩ | ⟨o,_,hk⟩ | ⟨ha,hk⟩
    · exact ⟨by rw [hs],.inl (hs ▸ hw)⟩
    · simp [hq] at hw
    · cases hk with
      | missing hp | found e hp | spawn k p hp | failed k hp =>
        simp [setSpawn,r.reaper_late c (by simp [hp])] at hw
      | _ => simp [setSpawn] at hw
    · cases hk with
      | wait k st hq hst =>
        refine ⟨by simp [setSpawn],.inr ?_⟩
        obtain ⟨z,hz,_⟩ := Option.bind_eq_some_iff.mp hst
        exact ⟨ha,z,mem_of_find?_eq_some hz,by simpa using List.find?_some hz,rfl⟩
      | report k code' b pc _ hpc => rcases hpc with ⟨_,rfl⟩ | ⟨_,rfl⟩ <;> simp [setSpawn] at hw
      | _ => simp [setSpawn] at hw
  obtain ⟨hpid,hold⟩ := hold
  rw [hpid]
  rcases row_before h hx with ⟨y,hy,hyp,hyq,_⟩ | ⟨k,p,_,_,_,rfl⟩ |
    ⟨c',k,p,o,rfl,hpc,_,hk,rfl⟩
  · rcases hold with hold | ⟨_,z,hz,hzq,ht⟩
    · exact hyp ▸ hl.pruning c i code hold y hy d (hyq.trans hd)
    · intro he
      have hyz : y=z := row_unique r hy hz (by rw [hyp,he,(r.child_row z hz c hzq).1])
      rw [ht] at hx
      exact (mem_reap.mp hx).2 (by rw [← hyq,hyz,hzq])
  · cases hd
  · rcases hold with hold | ⟨ha,_⟩
    · cases spawned_outcome h hpc hk
      exact (hc.fresh c' p k rfl hpc c i code hold).symm
    · cases ha

theorem listed_step (x : Process) (hx : x∈s.procs) (hq : x.proc=.child c) (hst : x.status=none)
    (hi : Listed s c x.inc) (hn : (t.spawns c).name=(s.spawns c).name)
    (hp : (t.spawns c).pid=(s.spawns c).pid) : Accounted t c x.inc := by
  obtain ⟨e,he,hinc,hmem⟩ := hi
  have hrun : s.procs.running (.child c)=true := running_iff.mpr ⟨x,hx,hq,hst⟩
  have kept {e' : SessionEntry} (ht : t.sessions (s.spawns c).name=some e') (hi' : e'.inc=e.inc)
      (hm : (s.spawns c).pid∈e'.childPids) : Accounted t c x.inc :=
    .inl ⟨e',hn ▸ ht,hi'.trans hinc,hp ▸ hm⟩
  cases entry_effect h (s.spawns c).name with
  | same hs => exact kept (hs ▸ he) rfl hmem
  | inserted i o _ _ hs => simp [he] at hs
  | recorded d o i e' _ _ hs ht =>
    cases he.symm.trans hs
    exact kept ht rfl (mem_append_left _ hmem)
  | pruned d i code e' hw _ hs ht =>
    cases he.symm.trans hs
    have hne:=hl.pruning d i code hw x hx c hq
    rw [(r.child_row x hx c hq).1] at hne
    exact kept ht rfl (mem_filter.mpr ⟨hmem,by simpa using hne⟩)
  | resized d i w h' e' _ _ _ hs ht =>
    cases he.symm.trans hs
    exact kept ht rfl hmem
  | collected i o code e' hpc hnm =>
    exact absurd hmem (hc.collect i o code e rfl hpc (hnm ▸ he) c hrun)
  | destroyed d e' hpc hnm =>
    -- the entry is out of the map and its clients are not signalled yet
    exact .inr (.inr ⟨d,e,taken_along h hpc (hnm ▸ he),hinc,hp ▸ hmem⟩)

theorem accounted_step (x : Process) (hx : x∈t.procs) (c : Nat) (hq : x.proc=.child c)
    (hst : x.status=none) (hd : (t.spawns c).pc=.done none) : Accounted t c x.inc := by
  rcases row_before h hx with ⟨y,hy,_,_,_,hxy⟩ | ⟨k,p,_,_,_,rfl⟩ |
    ⟨d,k,p,o,rfl,_,_,hk,rfl⟩
  · obtain rfl := hxy hst
    rcases (r.child_row y hy c hq).2 with ⟨hpc,_⟩ | ⟨hpc,hw⟩
    · rcases spawn_frame h c with hs | ⟨_,_,_,hpc',_⟩ | ⟨o,rfl,_⟩ | ⟨_,hk⟩
      · simp [hs,hpc] at hd
      · simp [hpc] at hpc'
      · obtain ⟨e,he,hei⟩ := hc.record c o y.inc rfl hpc
        exact .inl (recorded_listed h hpc he hei)
      · simp [reap_returned r hk] at hpc
    · have hc' : Entitled (s.spawns c) y.inc := ⟨hpc,.inl hw⟩
      rcases entitled_step h hc' with ⟨_,hn,hp⟩ | ⟨k,code,hw',_⟩
      · rcases hl.accounted y hy c hq hst hpc with hli | hte | hpe
        · exact listed_step h r hl hc y hy hq hst hli hn hp
        · exact .inr (.inl (by unfold Terminated; rw [hp]; exact signals_mono h hte))
        · exact .inr (pending_step h r hy hq hpe hp)
      · simp [hw] at hw'
  · cases hq
  · cases hq
    simp [hk] at hd

end Step

theorem lists_reach (hr : Reach step Tracking (init m) s) : Lists s := by
  refine hr.invariant ⟨by simp [init],by simp [init],by simp [init]⟩ fun {u v a} hu hl ha h => ?_
  have r:=rows_reach hu
  exact ⟨owner_step h hl ha,pruning_step h r hl ha,accounted_step h r hl ha⟩

/-- In every run that meets the condition, whenever no destroy call stands between the removal and the SIGTERM
loop with a running client in its list, each running client is listed by the session it was started for, and by
no other, or was signalled on the removal of it. -/
theorem clients_tracked (hr : Reach step Tracking (init m) s)
    (hgap : ∀ d e,(s.destroys d).pc=.emit e → NoneLive s e) : Tracked s := by
  intro c i hd hi hrun
  have r:=rows_reach hr
  have hl:=lists_reach hr
  obtain ⟨x,hx,hq,hst⟩ := running_iff.mp hrun
  obtain ⟨hpid,haw⟩ := r.child_row x hx c hq
  have hw : (s.spawns c).reaper=.wait x.inc := by
    rcases haw with ⟨hpc,_⟩ | ⟨_,hw⟩
    · simp [hd] at hpc
    · exact hw
  have hinc : x.inc=i := by simpa [incOf,hd,hw] using hi
  subst hinc
  refine ⟨?_,fun n e he hne hmem => ?_⟩
  · rcases hl.accounted x hx c hq hst hd with hli | hte | ⟨d,e,hpc,_,hmem⟩
    · exact .inl hli
    · exact .inr hte
    · exact absurd hmem (hgap d e hpc c hrun)
  obtain ⟨d,⟨hdd,hw' | ⟨code,hw'⟩⟩,_,hp⟩ := hl.owner n e _ he hmem
  · -- two clients that are waited for have different pids
    obtain ⟨y,hy,hyq⟩ := present_reach hr d e.inc (.inr ⟨hdd,hw'⟩)
    have hyx : y=x := row_unique r hy hx (by rw [(r.child_row y hy d hyq).1,hp,hpid])
    rw [hyx,hq] at hyq
    cases hyq
    exact hne (ReapPc.wait.inj (hw'.symm.trans hw))
  · exact hl.pruning d e.inc code hw' x hx c hq (hpid.trans hp.symm)

def spawnRun (c : Nat) (n : Name) (p : Pid) : List Act :=
  [.spawnChild c n ["/bin/app"] false,.spawnStep c .ok,.spawnStep c (.spawned p),.spawnStep c .ok]

/- Nobody prunes, and whoever records or removes finds the map as it should be. -/
def trackingOk (s : Daemon) : Act → Bool
  | .spawnStep c _ =>
      match (s.spawns c).pc with
      | .record i => (s.sessions (s.spawns c).name).any fun e => e.inc == i
      | _ => true
  | .supStep i _ => (s.sessions (nameOf s i)).all (noneRuns s)
  | _ => true
where
  noneRuns (s : Daemon) (e : SessionEntry) : Bool :=
    s.procs.all fun x => x.status.isSome || !e.childPids.contains x.pid

theorem noneLive_of_test {u : Daemon} {e : SessionEntry} (r : Rows u) (h : trackingOk.noneRuns u e=true) :
    NoneLive u e := by
  intro c hrun hmem
  obtain ⟨x,hx,hq,hst⟩ := running_iff.mp hrun
  have hno : x.pid∉e.childPids := by simpa [hst] using all_eq_true.mp h x hx
  exact hno ((r.child_row x hx c hq).1 ▸ hmem)

theorem tracking_of_test {u : Daemon} (r : Rows u)
    (hp : ∀ c i code,(u.spawns c).reaper≠.prune i code) (h : trackingOk u a=true) : Tracking u a where
  record := by
    rintro c o i rfl hpc
    simpa [trackingOk,hpc,Option.any_eq_true] using h
  collect := by
    rintro i o code e rfl _ he
    exact noneLive_of_test r (by simpa [trackingOk,he] using h)
  fresh := fun c p i _ _ c' i' code hw => absurd hw (hp c' i' code)

/- No client is waited for, and only one destroy call is made. -/
def isLater : Act → Bool
  | .reapStep _ => true
  | .destroy d _ => d≠0
  | _ => false

theorem unpruned_step (h : step s a=some t) (ha : isLater a=false)
    (hp : ∀ c i code,(s.spawns c).reaper≠.prune i code) (c : Nat) (i : Inc) (code : Int) :
    (t.spawns c).reaper≠.prune i code := by
  rcases spawn_frame h c with hs | ⟨_,_,_,_,hq,_⟩ | ⟨o,_,hk⟩ | ⟨rfl,_⟩
  · rw [hs]
    exact hp c i code
  · simp [hq]
  · cases hk <;> simp_all [setSpawn]
  · cases ha

theorem undestroyed_step (h : step s a=some t) (ha : isLater a=false) (hi : ∀ d≠0,(s.destroys d).pc=.idle) (d : Nat)
    (hd : d≠0) : (t.destroys d).pc=.idle := by
  have hidle:=hi d hd
  rcases destroy_frame h d with hs | ⟨n,rfl,_⟩ | ⟨_,hc⟩
  · rw [hs,hidle]
  · simp [isLater,hd] at ha
  · cases hc <;> simp_all

def destroyedUnderClient : List Act :=
  createRun 0 10 (plain "a")++spawnRun 0 "a" 20++destroyRun 0 "a"

theorem clients_tracked_destroy : ∃ s,Reach step Tracking (init false) s ∧
    (s.spawns 0).pc=.done none ∧ incOf (s.spawns 0)=some 0 ∧ s.procs.running (.child 0)=true ∧
    s.sessions "a" = none ∧ s.signals=[⟨0,20,some (.child 0)⟩] ∧ Tracked s := by
  have hprune : Meets step (fun u a => (Rows u ∧ ∀ c i code,(u.spawns c).reaper≠.prune i code) ∧ isLater a=false)
      (init false) destroyedUnderClient :=
    meets_of_invariant (I := fun u => Reach step Free (init false) u ∧
        ∀ c i code,(u.spawns c).reaper≠.prune i code) (L := fun a => isLater a=false)
      ⟨.start,by simp [init]⟩
      (fun u v a hu ha h => ⟨hu.1.next trivial h,unpruned_step h ha hu.2⟩)
      (fun u a hu ha => ⟨⟨rows_reach hu.1,hu.2⟩,ha⟩) (by decide)
  have htest : Meets step (fun u a => trackingOk u a=true) (init false) destroyedUnderClient :=
    meets_decided (by decide +kernel)
  have hr : Reach step (fun u a => Tracking u a ∧ isLater a=false) (init false) _ :=
    reach_exec _ ((hprune.and htest).mono fun _ _ hok => ⟨tracking_of_test hok.1.1.1 hok.1.1.2 hok.2,hok.1.2⟩)
      (by decide +kernel)
  refine ⟨_,hr.mono fun _ _ => And.left,?_,?_,?_,?_,?_,clients_tracked (hr.mono fun _ _ => And.left) fun d e hpc => ?_⟩
  case refine_6 =>
    by_cases hd : d=0
    · subst hd
      cases hpc.symm.trans (by decide +kernel : _=DestroyPc.done true)
    · have hidle:=hr.keeps (I := fun u => ∀ d≠0,(u.destroys d).pc=.idle) (by simp [init])
        (fun hi hok h => undestroyed_step h hok.2 hi) d hd
      simp [hidle] at hpc
  all_goals decide +kernel

/-- In the gap the client is neither listed nor signalled. -/
theorem client_between : ∃ s,Reach step Free (init false) s ∧ Pending s 0 0 ∧ s.procs.running (.child 0)=true ∧
    ¬Tracked s := by
  obtain ⟨s,hr,hd,hi,hrun,hnone,hsig,hpc⟩ : ∃ s,Reach step Free (init false) s ∧ (s.spawns 0).pc=.done none ∧
      incOf (s.spawns 0)=some 0 ∧ s.procs.running (.child 0)=true ∧ s.sessions (s.spawns 0).name=none ∧
      s.signals=[] ∧ ∃ e∈Incarnations.taken (s.destroys 0).pc,(s.destroys 0).pc=.emit e ∧ e.inc=0 ∧
        (s.spawns 0).pid∈e.childPids :=
    free_observed (destroyedUnderClient.take (destroyedUnderClient.length-5)) (by decide +kernel)
  obtain ⟨e,_,hpc⟩ := hpc
  refine ⟨s,hr,⟨0,e,hpc⟩,hrun,fun htr => ?_⟩
  rcases (htr 0 0 hd hi hrun).1 with ⟨f,hf,_⟩ | hte
  · simp [hnone] at hf
  · simp [Terminated,hsig] at hte

/-- Before the pid of the client is recorded, its session is destroyed and the name created again. -/
def recreatedMeanwhile : List Act :=
  createRun 0 10 (plain "a") ++
    ([.spawnChild 0 "a" ["/bin/app"] false,.spawnStep 0 .ok,.spawnStep 0 (.spawned 20)] : List Act) ++
    destroyRun 0 "a" ++ exitRun 0++createRun 1 11 (plain "a")++([.spawnStep 0 .ok] : List Act)

theorem client_listed_by_successor : ∃ s,Reach step Free (init false) s ∧
    incOf (s.spawns 0)=some 0 ∧ s.procs.running (.child 0)=true ∧
    (s.sessions "a").map (fun e => (e.inc,e.childPids))=some (1,[20]) ∧ ¬Tracked s := by
  obtain ⟨s,hr,hd,hpid,hi,hrun,hlist⟩ : ∃ s,Reach step Free (init false) s ∧
      (s.spawns 0).pc=.done none ∧ (s.spawns 0).pid=20 ∧ incOf (s.spawns 0)=some 0 ∧
      s.procs.running (.child 0)=true ∧
      (s.sessions "a").map (fun e => (e.inc,e.childPids))=some (1,[20]) :=
    free_observed recreatedMeanwhile (by decide +kernel)
  refine ⟨s,hr,hi,hrun,hlist,fun htr => ?_⟩
  obtain ⟨e,he,hpair⟩ := Option.map_eq_some_iff.mp hlist
  obtain ⟨hinc,hpids⟩ := Prod.mk.inj hpair
  exact (htr 0 0 hd hi hrun).2 "a" e he (by simp [hinc]) (by simp [hpid,hpids])

end Waymux.Registry.ChildTracking
