import Waymux.Registry.Incarnations

/-!
# Process table, spawn calls and cgroup leaves

Which task answers for a row, and under which name its process may sit in a leaf, in every run.
-/

namespace Waymux.Registry.Processes
open HostResources TaskState TaskSteps StepCases TaskFrames Incarnations Interleave.Runs List

variable {s t : Daemon} {a : Act} {i j : Inc} {c : Nat}

def incOf (k : SpawnCall) : Option Inc :=
  match k.pc, k.reaper with
  | .spawn i, _ | .record i, _ => some i
  | _, .wait i | _, .prune i _ | _, .report i _ _ | _, .crash i _ => some i
  | _, _ => none

/- The create call has a child that it still has to hand over or kill. -/
def spawned : CreatePc → Bool
  | .wait | .unlinkReady | .cgroup | .join | .insert => true
  | _ => false

def Hosted (s : Daemon) (i : Inc) : Prop :=
  spawned (s.creates i).pc=true ∨ s.sups i=.wait ∨ s.sups i=.term

def Awaited (k : SpawnCall) (i : Inc) : Prop :=
  k.pc=.record i ∧ k.reaper=.none ∨ k.pc=.done none ∧ k.reaper=.wait i

def Home (s : Daemon) (n : Name) : Proc → Prop
  | .session i => (s.creates i).pc≠.idle ∧ nameOf s i=n
  | .child c => (s.spawns c).pc≠.idle ∧ (s.spawns c).name=n

structure Rows (s : Daemon) : Prop where
  session_row : ∀ x∈s.procs,∀ i,x.proc=.session i → x.inc=i ∧ Hosted s i
  child_row : ∀ x∈s.procs,∀ c,x.proc=.child c →
    x.pid=(s.spawns c).pid ∧ Awaited (s.spawns c) x.inc
  reaper_late : ∀ c,(s.spawns c).pc≠.done none → (s.spawns c).reaper=.none
  target : ∀ c i,incOf (s.spawns c)=some i → Inserted s i ∧ nameOf s i=(s.spawns c).name
  pids : s.procs.Pairwise fun x y => x.pid≠y.pid
  clean_inserted : ∀ i,s.cleans i≠.none → Inserted s i
  member_home : ∀ n l,s.leaves n=some l → ∀ q∈l.procs,Home s n q

theorem Hosted.not_idle (w : Wf s) (h : Hosted s i) : (s.creates i).pc≠.idle := by
  rcases h with h | h | h
  · intro hp
    simp [hp,spawned] at h
  · exact ((w.sup_iff i).mp (by simp [h])).not_idle
  · exact ((w.sup_iff i).mp (by simp [h])).not_idle

theorem hosted_step (h : step s a=some t) (hh : Hosted s i) : Hosted t i ∨ t.procs=s.procs.reap (.session i) := by
  rcases hh with hp | hw | hw
  · rcases create_frame h i with hs | ⟨args,_,hpc,_⟩ | ⟨o,_,hc⟩
    · exact .inl (.inl (by rw [hs,hp]))
    · simp [hpc,spawned] at hp
    · cases hc with
      | abandoned | lost => exact .inr rfl
      | insert => exact .inl (.inr (.inl (Function.update_self ..)))
      | taken e hpc | free hpc | mkdir hpc | mounted d hpc | unmounted hpc | clear k hpc
      | bind k d hpc | spawn p hpc | announce hpc => simp [hpc,spawned] at hp
      | failed err hpc =>
        rcases hpc with hpc | ⟨k,hpc⟩ | hpc <;> simp [hpc,spawned] at hp
      | _ => exact .inl (.inl (by simp [createAt,setCreate,spawned]))
  · rcases sup_frame h i with hs | ⟨_,_,hw'⟩ | ⟨o,_,hc⟩
    · exact .inl (.inr (.inl (hs.trans hw)))
    · exact .inl (.inr (.inl hw'))
    · cases hc with
      | killed => exact .inl (.inr (.inr (Function.update_self ..)))
      | exited | escalated => exact .inr rfl
      | _ => simp_all
  · rcases sup_frame h i with hs | ⟨_,_,hw'⟩ | ⟨o,_,hc⟩
    · exact .inl (.inr (.inr (hs.trans hw)))
    · exact .inl (.inr (.inl hw'))
    · cases hc with
      | exited | escalated => exact .inr rfl
      | _ => simp_all

variable {tb : Table} {x : Process}

theorem mem_reap {q : Proc} : x∈tb.reap q ↔ x∈tb ∧ x.proc≠q := by
  simp [Table.reap]

theorem mem_exitWhen {f : Process → Bool} {st : ExitStatus} (h : x∈tb.exitWhen f st) :
    ∃ y∈tb,y.pid=x.pid ∧ y.proc=x.proc ∧ y.inc=x.inc ∧
      (x.status=none → y=x) := by
  obtain ⟨y,hy,rfl⟩ := mem_map.mp h
  refine ⟨y,hy,?_⟩
  split <;> simp

theorem row_before (h : step s a=some t) (hx : x∈t.procs) :
    (∃ y∈s.procs,y.pid=x.pid ∧ y.proc=x.proc ∧ y.inc=x.inc ∧ (x.status=none → y=x)) ∨
    (∃ i p,(s.creates i).pc=.spawn ∧ (t.creates i).pc=.wait ∧ s.procs.pidUsed p=false ∧
      x=⟨p,.session i,i,none⟩) ∨
    ∃ c i p o,a=.spawnStep c o ∧ (s.spawns c).pc=.spawn i ∧ s.procs.pidUsed p=false ∧
      t.spawns c={s.spawns c with pc := .record i, pid := p} ∧ x=⟨p,.child c,i,none⟩ := by
  have old (hy : x∈s.procs) : ∃ y∈s.procs,y.pid=x.pid ∧ y.proc=x.proc ∧ y.inc=x.inc ∧
      (x.status=none → y=x) := ⟨x,hy,rfl,rfl,rfl,fun _ => rfl⟩
  cases proc_effect h with
  | same hs => exact .inl (old (hs ▸ hx))
  | session i o p hpc hp ht hw =>
    rcases mem_cons.mp (ht ▸ hx) with rfl | hy
    · exact .inr (.inl ⟨i,p,hpc,hw,hp,rfl⟩)
    · exact .inl (old hy)
  | client c o i p hpc hp ht hk =>
    rcases mem_cons.mp (ht ▸ hx) with rfl | hy
    · exact .inr (.inr ⟨c,i,p,o,rfl,hpc,hp,hk,rfl⟩)
    · exact .inl (old hy)
  | given i o err _ ht | shutdown i o code _ ht | reaped c i st _ _ ht => exact .inl (old (mem_reap.mp (ht ▸ hx)).1)
  | killed i o _ ht | exited q st ht => exact .inl (mem_exitWhen (ht ▸ hx))

theorem reap_returned (r : Rows s) (hk : ReapCase s c t) : (s.spawns c).pc=.done none := by
  by_contra hne
  have hn:=r.reaper_late c hne
  cases hk <;> simp_all

theorem pairwise_exitWhen {f : Process → Bool} {st : ExitStatus} (hp : tb.Pairwise fun x y => x.pid≠y.pid) :
    (tb.exitWhen f st).Pairwise fun x y => x.pid≠y.pid := by
  unfold Table.exitWhen
  rw [pairwise_map]
  refine hp.imp fun hxy => ?_
  split <;> split <;> exact hxy

theorem pids_cons {p : Pid} (x : Process) (hx : x.pid=p) (hu : tb.pidUsed p=false)
    (hp : tb.Pairwise fun x y => x.pid≠y.pid) : (x::tb).Pairwise fun x y => x.pid≠y.pid := by
  refine pairwise_cons.mpr ⟨fun y hy he => ?_,hp⟩
  have := any_eq_false.mp hu y hy
  simp [← he,hx] at this

section Step
variable (h : step s a=some t)
include h

theorem session_row_step (r : Rows s) (x : Process) (hx : x∈t.procs) (i : Inc)
    (hq : x.proc=.session i) : x.inc=i ∧ Hosted t i := by
  rcases row_before h hx with ⟨y,hy,_,hp,hi,_⟩ | ⟨k,p,_,hw,_,rfl⟩ | ⟨c,k,p,o,_,_,_,_,rfl⟩
  · obtain ⟨hyi,hh⟩ := r.session_row y hy i (hp.trans hq)
    refine ⟨hi ▸ hyi,?_⟩
    rcases hosted_step h hh with ht | ht
    · exact ht
    · rw [ht] at hx
      exact absurd hq (mem_reap.mp hx).2
  · cases hq
    exact ⟨rfl,.inl (by simp [hw,spawned])⟩
  · cases hq

theorem awaited_step (ha : Awaited (s.spawns c) i) :
    Awaited (t.spawns c) i ∧ (t.spawns c).pid=(s.spawns c).pid ∨
      t.procs=s.procs.reap (.child c) := by
  rcases spawn_frame h c with hs | ⟨n,comp,pc,hpc,_⟩ | ⟨o,_,hc⟩ | ⟨_,hc⟩
  · exact .inl ⟨by rw [hs]; exact ha,by rw [hs]⟩
  · rcases ha with ⟨hp,_⟩ | ⟨hp,_⟩ <;> simp [hp] at hpc
  · rcases ha with ⟨hp,hr⟩ | ⟨hp,hr⟩
    · cases hc with
      | record k e l hpc | recordGone k hpc =>
        cases hp.symm.trans hpc
        exact .inl ⟨.inr (by simp [setSpawn]),by simp [setSpawn]⟩
      | missing hpc | found e hpc | spawn k p hpc | failed k hpc => simp [hp] at hpc
    · exact absurd hp (spawn_running hc)
  · rcases ha with ⟨hp,hr⟩ | ⟨hp,hr⟩
    · cases hc with
      | wait k st hq | prune k code e hq | pruneGone k code hq | report k code b pc hq
      | crash k code hq => simp [hr] at hq
    · cases hc with
      | wait => exact .inr rfl
      | prune k code e hq | pruneGone k code hq | report k code b pc hq | crash k code hq =>
        simp [hr] at hq

theorem child_row_step (r : Rows s) (x : Process) (hx : x∈t.procs) (c : Nat)
    (hq : x.proc=.child c) : x.pid=(t.spawns c).pid ∧ Awaited (t.spawns c) x.inc := by
  rcases row_before h hx with ⟨y,hy,hpid,hp,hi,_⟩ | ⟨k,p,_,_,_,rfl⟩ |
    ⟨d,k,p,o,_,hpc,_,hk,rfl⟩
  · obtain ⟨hyp,ha⟩ := r.child_row y hy c (hp.trans hq)
    rcases awaited_step h ha with ⟨ht,hs⟩ | ht
    · exact ⟨by rw [hs,← hyp,hpid],hi ▸ ht⟩
    · rw [ht] at hx
      exact absurd hq (mem_reap.mp hx).2
  · cases hq
  · cases hq
    have hr:=r.reaper_late c (by simp [hpc])
    exact ⟨by simp [hk],.inl (by simp [hk,hr])⟩

theorem reaper_late_step (r : Rows s) (c : Nat) (hc : (t.spawns c).pc≠.done none) :
    (t.spawns c).reaper=.none := by
  rcases spawn_frame h c with hs | ⟨n,comp,pc,_,hq,_⟩ | ⟨o,_,hk⟩ | ⟨_,hk⟩
  · rw [hs] at hc ⊢
    exact r.reaper_late c hc
  · simp [hq]
  · cases hk with
    | missing hpc | found e hpc | spawn k p hpc | failed k hpc =>
      simpa [setSpawn] using r.reaper_late c (by simp [hpc])
    | _ => simp [setSpawn] at hc
  · have hp:=reap_returned r hk
    cases hk <;> simp [setSpawn,setEntry,hp] at hc

theorem spawn_name (hc : (s.spawns c).pc≠.idle) :
    (t.spawns c).name=(s.spawns c).name ∧ (t.spawns c).pc≠.idle := by
  rcases spawn_frame h c with hs | ⟨n,comp,pc,hpc,_⟩ | ⟨o,_,hk⟩ | ⟨_,hk⟩
  · rw [hs]
    exact ⟨rfl,hc⟩
  · exact absurd hpc hc
  · cases hk <;> simp [setSpawn,setLeaf,setEntry]
  · cases hk <;> simp [setSpawn,setEntry,hc]

theorem incOf_step (r : Rows s) (hi : incOf (t.spawns c)=some i) :
    incOf (s.spawns c)=some i ∨
    ∃ e,s.sessions (s.spawns c).name=some e ∧ e.inc=i ∧ (s.spawns c).pc=.lookup := by
  rcases spawn_frame h c with hs | ⟨n,comp,pc,_,hq,hp⟩ | ⟨o,_,hk⟩ | ⟨_,hk⟩
  · exact .inl (hs ▸ hi)
  · rcases hp with rfl | ⟨err,rfl⟩ <;> simp [hq,incOf] at hi
  · cases hk with
    | found e hpc hs =>
      simp only [setSpawn,Function.update_self,incOf,Option.some.injEq] at hi
      exact .inr ⟨e,hs,hi,hpc⟩
    | missing hpc | failed k hpc =>
      have hr:=r.reaper_late c (by simp [hpc])
      simp [setSpawn,incOf,hr] at hi
    | spawn k p hpc | record k e l hpc | recordGone k hpc =>
      exact .inl (by simpa [setSpawn,incOf,hpc] using hi)
  · have hp:=reap_returned r hk
    refine .inl ?_
    cases hk with
    | report k code b pc hq hpc =>
      rcases hpc with ⟨_,rfl⟩ | ⟨_,rfl⟩ <;> simp_all [setSpawn,incOf]
    | _ => simp_all [setSpawn,incOf]

theorem target_step (w : Wf s) (r : Rows s) (c : Nat) (i : Inc) (hi : incOf (t.spawns c)=some i) :
    Inserted t i ∧ nameOf t i=(t.spawns c).name := by
  have hold : Inserted s i ∧ nameOf s i=(s.spawns c).name ∧ (s.spawns c).pc≠.idle := by
    rcases incOf_step h r hi with hs | ⟨e,he,rfl,hc⟩
    · refine ⟨(r.target c i hs).1,(r.target c i hs).2,fun hp => ?_⟩
      simp [incOf,hp,r.reaper_late c (by simp [hp])] at hs
    · exact ⟨w.entry_inserted _ e he,w.entry_name _ e he,by simp [hc]⟩
  obtain ⟨hin,hn,hc⟩ := hold
  exact ⟨hin.stable h,by rw [name_stable h hin.not_idle,hn,(spawn_name h hc).1]⟩

theorem pids_step (r : Rows s) : t.procs.Pairwise fun x y => x.pid≠y.pid := by
  cases proc_effect h with
  | same hs => exact hs ▸ r.pids
  | session i o p _ hu ht | client c o i p _ hu ht => exact ht ▸ pids_cons _ rfl hu r.pids
  | given i o err _ ht | shutdown i o code _ ht | reaped c i st _ _ ht => exact ht ▸ r.pids.filter _
  | killed i o _ ht | exited q st ht => exact ht ▸ pairwise_exitWhen r.pids

theorem clean_inserted_step (w : Wf s) (r : Rows s) (i : Inc) (hi : t.cleans i≠.none) : Inserted t i := by
  rcases clean_frame h i with hs | ⟨d,e,hpc,_,rfl,_⟩ | ⟨o,_,hc⟩
  · exact (r.clean_inserted i (hs ▸ hi)).stable h
  · have ht:=w.destroy_taken d e (by simp [hpc,taken])
    exact (w.removed_inserted _ e ht.1).2.stable h
  · refine (r.clean_inserted i ?_).stable h
    cases hc <;> simp_all

theorem Home.stable {n : Name} {q : Proc} (hq : Home s n q) : Home t n q := by
  cases q with
  | session i =>
    refine ⟨?_,(name_stable h hq.1).trans hq.2⟩
    rcases create_frame h i with hs | ⟨args,_,hpc,_⟩ | ⟨o,_,hc⟩
    · rw [hs]
      exact hq.1
    · exact absurd hpc hq.1
    · intro hp
      rcases (create_phase hc).2 with ⟨_,err,hx⟩ | ⟨_,_,hx⟩ | ⟨_,hx | ⟨err,hx⟩⟩ | ⟨_,hx⟩ | ⟨_,hx⟩
      · simp [hx] at hp
      · simp [hx] at hp
      · exact hx.not_idle hp
      · simp [hx] at hp
      · simp [hx] at hp
      · simp [hx] at hp
  | child =>
    obtain ⟨hn,hi⟩ := spawn_name h hq.1
    exact ⟨hi,hn.trans hq.2⟩

theorem member_home_step (r : Rows s) (n : Name) (l : Leaf) (hl : t.leaves n=some l) (q : Proc)
    (hq : q∈l.procs) : Home t n q := by
  refine Home.stable h ?_
  -- members are the ones before the step and the process that has just joined
  have joined {x : Proc} (hx : Home s n x) (ht : t.leaves n=(s.leaves n).map (·.add x)) :
      Home s n q := by
    obtain ⟨l',hl',rfl⟩ := Option.map_eq_some_iff.mp (ht.symm.trans hl)
    rcases mem_cons.mp hq with rfl | hq
    · exact hx
    · exact r.member_home n l' hl' q hq
  cases leaf_effect h n with
  | same hs => exact r.member_home n l (hs ▸ hl) q hq
  | made i o _ _ ht =>
    cases hs : s.leaves n with
    | none =>
      rw [hl,hs] at ht
      cases ht
      cases hq
    | some =>
      rw [hl,hs] at ht
      cases ht
      exact r.member_home n _ hs q hq
  | joined i o hpc hn ht => exact joined (x := .session i) ⟨by simp [hpc],hn⟩ ht
  | entered c o i hpc hn ht => exact joined (x := .child c) ⟨by simp [hpc],hn⟩ ht
  | removed i o k _ _ ht => simp [hl] at ht

theorem Rows.step (w : Wf s) (r : Rows s) : Rows t where
  session_row := session_row_step h r
  child_row := child_row_step h r
  reaper_late := reaper_late_step h r
  target := target_step h w r
  pids := pids_step h r
  clean_inserted := clean_inserted_step h w r
  member_home := member_home_step h r

end Step

theorem rows_init (m : Bool) : Rows (init m) where
  session_row := by simp [init]
  child_row := by simp [init]
  reaper_late := by simp [init]
  target := by simp [init,incOf]
  pids := List.Pairwise.nil
  clean_inserted := by simp [init]
  member_home := by simp [init]

theorem rows_reach {ok : Daemon → Act → Prop} {m : Bool} (hr : Reach step ok (init m) s) : Rows s :=
  hr.invariant (rows_init m) fun hu r _ h => Rows.step h (wf_reach hu) r

end Waymux.Registry.Processes
