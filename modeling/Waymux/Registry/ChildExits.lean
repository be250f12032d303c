import Waymux.Interleave.Simulation
import Waymux.Registry.ChildSignals

/-!
# ChildExited and SessionCrashed

The task that waits for a client reports its exit, and a crash if the client is in `compositor_pid`.
-/

namespace Waymux.Registry.ChildExits
open HostResources TaskState TaskSteps StepCases TaskFrames Incarnations Processes List Function
open Schedules ChildTracking ChildSignals Interleave.Runs Interleave.Simulation

variable {s t : Daemon} {a : Act} {i : Inc} {c d : Nat} {m : Bool}

/-! ### What is to be reported -/

/-- For each client whose exit has been processed, the exit code and whether a `SessionCrashed` was due
then. -/
structure Watched where
  daemon : Daemon
  verdict : Nat → Option (Int × Bool)

def processed (s : Daemon) (v : Nat → Option (Int × Bool)) (a : Act) (c : Nat) : Option (Int × Bool) :=
  match (s.spawns c).reaper with
  | .prune i code =>
      if a=.reapStep c then some (code,(s.spawns c).compositor && registered s i) else v c
  | _ => v c

def watch (w : Watched) (a : Act) : Option Watched :=
  (step w.daemon a).map fun t => ⟨t,processed w.daemon w.verdict a⟩

def start (m : Bool) : Watched := ⟨init m,fun _ => none⟩

def callOf : Event → Option Nat
  | .childExited _ _ _ c | .sessionCrashed _ _ _ c => some c
  | _ => none

def reports (s : Daemon) (c : Nat) : List Event := s.events.filter fun x => callOf x == some c

def expected (w : Watched) (c : Nat) : List Event :=
  let k:=w.daemon.spawns c
  match k.reaper, w.verdict c with
  | .crash _ _, some (code,_) => [.childExited k.name k.pid code c]
  | .done, some (code,true) => [.childExited k.name k.pid code c,.sessionCrashed k.name k.pid code c]
  | .done, some (code,false) => [.childExited k.name k.pid code c]
  | _, _ => []

def started : SpawnPc → Bool
  | .record _ | .done none => true
  | _ => false

/- Steps between now and the end of the task that waits for the client. -/
def left (k : SpawnCall) : Nat :=
  match k.reaper with
  | .none => 5
  | .wait _ => 4
  | .prune _ _ => 3
  | .report _ _ _ => 2
  | .crash _ _ => 1
  | .done => 0

structure Reported (w : Watched) (c : Nat) : Prop where
  /-- Nothing but `ChildExited` and, if it was due, `SessionCrashed` after it. -/
  events : reports w.daemon c=expected w c
  decided : (w.daemon.spawns c).reaper=.done → w.verdict c≠none
  exited : reports w.daemon c≠[] → w.daemon.procs.row (.child c)=none
  /-- After the exit the report is a matter of the daemon's own next steps. -/
  goesOn : started (w.daemon.spawns c).pc=true → w.daemon.procs.running (.child c)=false →
    left (w.daemon.spawns c)≠0 →
    ∃ a t,step w.daemon a=some t ∧ left (t.spawns c)<left (w.daemon.spawns c)
  neverBack : ∀ a t,started (w.daemon.spawns c).pc=true → step w.daemon a=some t →
    left (t.spawns c)≤left (w.daemon.spawns c)

/-! ### Condition -/

structure OneCompositor (s : Daemon) (a : Act) : Prop where
  /-- A compositor is recorded only in the session it was started for, and only
  while that session has no other. -/
  record : ∀ c o i e,a=.spawnStep c o → (s.spawns c).pc=.record i →
    (s.spawns c).compositor=true → s.sessions (s.spawns c).name=some e →
    e.inc=i ∧ e.compositorPid=none
  /-- A pid is not handed out again before its previous owner has been pruned. -/
  fresh : ∀ c p i,a=.spawnStep c (.spawned p) → (s.spawns c).pc=.spawn i →
    ∀ d j code,(s.spawns d).reaper=.prune j code → (s.spawns d).pid≠p

/-! ### Clients that are not pruned yet -/

def Unpruned (k : SpawnCall) : Prop :=
  (∃ i,Awaited k i) ∨ ∃ i code,k.reaper=.prune i code

theorem unpruned_of_entitled {k : SpawnCall} (h : Entitled k i) : Unpruned k := by
  obtain ⟨hd,hw | ⟨code,hw⟩⟩ := h
  · exact .inl ⟨i,.inr ⟨hd,hw⟩⟩
  · exact .inr ⟨i,code,hw⟩

def Same (k k' : SpawnCall) : Prop :=
  k'.name=k.name ∧ k'.pid=k.pid ∧ k'.compositor=k.compositor

theorem unpruned_before (h : step s a=some t) (r : Rows s) (hu : Unpruned (t.spawns c)) :
    Unpruned (s.spawns c) ∧ Same (s.spawns c) (t.spawns c) ∨
    ∃ i p,a=.spawnStep c (.spawned p) ∧ (s.spawns c).pc=.spawn i ∧
      s.procs.pidUsed p=false ∧ (t.spawns c).pid=p := by
  rcases spawn_frame h c with hs | ⟨n,comp,pc,_,hq,hp⟩ | ⟨o,rfl,hk⟩ | ⟨rfl,hk⟩
  · exact .inl ⟨hs ▸ hu,by simp [Same,hs]⟩
  · rcases hp with rfl | ⟨err,rfl⟩ <;> simp [Unpruned,Awaited,hq] at hu
  · cases hk with
    | spawn i p hpc hp =>
      have ho : o=.spawned p := spawned_outcome h hpc (by simp [setSpawn])
      exact .inr ⟨i,p,by rw [ho],hpc,hp,by simp [setSpawn]⟩
    | record i e l hpc | recordGone i hpc =>
      exact .inl ⟨.inl ⟨i,.inl ⟨hpc,r.reaper_late c (by simp [hpc])⟩⟩,by simp [Same,setSpawn,setLeaf]⟩
    | missing hpc | found e hpc | failed i hpc =>
      simp [Unpruned,Awaited,setSpawn,r.reaper_late c (by simp [hpc])] at hu
  · have hp:=reap_returned r hk
    cases hk with
    | wait i st hw => exact .inl ⟨.inl ⟨i,.inr ⟨hp,hw⟩⟩,by simp [Same,setSpawn]⟩
    | report i code b pc _ hpc =>
      rcases hpc with ⟨_,rfl⟩ | ⟨_,rfl⟩ <;> simp [Unpruned,Awaited,setSpawn,hp] at hu
    | _ => simp [Unpruned,Awaited,setSpawn,hp] at hu

def Apart (s : Daemon) : Prop :=
  ∀ c d,Unpruned (s.spawns c) → Unpruned (s.spawns d) → (s.spawns c).pid=(s.spawns d).pid → c=d

theorem new_pid_unused (hp : Present s) (r : Rows s) {p : Pid}
    (hc : OneCompositor s (.spawnStep c (.spawned p))) (hpc : (s.spawns c).pc=.spawn i)
    (hu : s.procs.pidUsed p=false) (hd : Unpruned (s.spawns d)) : (s.spawns d).pid≠p := by
  rcases hd with ⟨j,ha⟩ | ⟨j,code,hw⟩
  · obtain ⟨x,hx,hq⟩ := hp d j ha
    have hne:=any_eq_false.mp hu x hx
    rw [← (r.child_row x hx d hq).1]
    simpa using hne
  · exact hc.fresh c p i rfl hpc d j code hw

theorem apart_step (h : step s a=some t) (hp : Present s) (r : Rows s) (hap : Apart s)
    (hc : OneCompositor s a) : Apart t := by
  intro c d huc hud he
  rcases unpruned_before h r huc with ⟨huc,_,hpc,_⟩ | ⟨i,p,rfl,hpc,hu,htp⟩
  · rcases unpruned_before h r hud with ⟨hud,_,hpd,_⟩ | ⟨j,q,rfl,hpd,hu,htq⟩
    · exact hap c d huc hud (by rw [← hpc,← hpd,he])
    · exact absurd (by rw [← hpc,he,htq]) (new_pid_unused hp r hc hpd hu huc)
  · rcases unpruned_before h r hud with ⟨hud,_,hpd,_⟩ | ⟨j,q,hq,_⟩
    · exact absurd (by rw [← hpd,← he,htp]) (new_pid_unused hp r hc hpc hu hud)
    · cases hq
      rfl

theorem apart_reach (hr : Reach step OneCompositor (init m) s) : Apart s :=
  hr.invariant (by simp [Apart,init,Unpruned,Awaited]) fun hu hap hc h =>
    apart_step h (present_reach hu) (rows_reach hu) hap hc

/-! ### The compositor slot -/

def SlotListed (s : Daemon) : Prop :=
  ∀ n e p,s.sessions n=some e → e.compositorPid=some p → p∈e.childPids

theorem slotListed_step (h : step s a=some t) (hs : SlotListed s) : SlotListed t := by
  intro n e p he hp
  cases entry_effect h n with
  | same hsame => exact hs n e p (hsame ▸ he) hp
  | inserted i o _ _ _ ht =>
    cases he.symm.trans ht
    simp [newEntry] at hp
  | recorded c o i e' _ _ he' ht =>
    cases he.symm.trans ht
    simp only [addChild] at hp ⊢
    split at hp
    · cases hp
      simp
    · exact mem_append_left _ (hs n e' p he' hp)
  | pruned c i code e' _ _ he' ht =>
    cases he.symm.trans ht
    simp only [pruneChild] at hp ⊢
    split at hp
    · cases hp
    · next hne =>
      refine mem_filter.mpr ⟨hs n e' p he' hp,?_⟩
      simp only [ne_eq,decide_eq_true_eq]
      rintro rfl
      exact hne hp
  | resized c i w h' e' _ _ _ he' ht =>
    cases he.symm.trans ht
    exact hs n e' p he' hp
  | destroyed d e' _ _ _ ht | collected i o code e' _ _ _ ht => cases he.symm.trans ht

/-- The slot of the entry a client finds under its name is its own exactly when
it is a compositor started for that entry. -/
def SlotRight (s : Daemon) : Prop :=
  ∀ c i e,Entitled (s.spawns c) i → s.sessions (s.spawns c).name=some e →
    (e.compositorPid=some (s.spawns c).pid ↔ (s.spawns c).compositor=true ∧ e.inc=i)

theorem entitled_before (h : step s a=some t) (r : Rows s) (he : Entitled (t.spawns c) i) :
    Entitled (s.spawns c) i ∧ Same (s.spawns c) (t.spawns c) ∨
    ∃ o,a=.spawnStep c o ∧ (s.spawns c).pc=.record i := by
  rcases spawn_frame h c with hs | ⟨n,comp,pc,_,hq,hp⟩ | ⟨o,rfl,hk⟩ | ⟨rfl,hk⟩
  · exact .inl ⟨hs ▸ he,by simp [Same,hs]⟩
  · rcases hp with rfl | ⟨err,rfl⟩ <;> simp [Entitled,hq] at he
  · refine .inr ⟨o,rfl,?_⟩
    cases hk with
    | record k e l hpc | recordGone k hpc =>
      have hi : k=i := by simpa [Entitled,setSpawn] using he
      exact hi ▸ hpc
    | _ => simp [Entitled,setSpawn] at he
  · have hp:=reap_returned r hk
    cases hk with
    | wait k st hw =>
      have hi : k=i := by simpa [Entitled,setSpawn,hp] using he
      exact .inl ⟨⟨hp,.inl (hi ▸ hw)⟩,by simp [Same,setSpawn]⟩
    | report k code b pc _ hpc =>
      rcases hpc with ⟨_,rfl⟩ | ⟨_,rfl⟩ <;> simp [Entitled,setSpawn,hp] at he
    | _ => simp [Entitled,setSpawn,hp] at he

theorem pruneChild_slot (e : SessionEntry) (p q : Pid) :
    (pruneChild e p).compositorPid=some q ↔ e.compositorPid=some q ∧ q≠p := by
  simp only [pruneChild]
  split
  · next he =>
    rw [he]
    simp only [reduceCtorEq,Option.some.injEq,false_iff,not_and,not_not]
    exact Eq.symm
  · next hne =>
    refine ⟨fun hq => ⟨hq,?_⟩,And.left⟩
    rintro rfl
    exact hne hq

theorem recorded_entry {o : Outcome} {e : SessionEntry} (h : step s (.spawnStep c o)=some t)
    (hpc : (s.spawns c).pc=.record i) (he : t.sessions (s.spawns c).name=some e) :
    ∃ f,s.sessions (s.spawns c).name=some f ∧
      e=addChild f (s.spawns c).pid (s.spawns c).compositor := by
  cases spawnStep_cases h with
  | record k f l _ hf =>
    simp only [setSpawn,setLeaf,setEntry,update_self,Option.some.injEq] at he
    exact ⟨f,hf,he.symm⟩
  | recordGone k _ hf => simp [setSpawn,hf] at he
  | missing hp | found f hp | spawn k p hp | failed k hp => simp [hpc] at hp

theorem pruned_not_entitled {code : Int} (h : step s (.reapStep c)=some t)
    (hw : (s.spawns c).reaper=.prune i code) {j : Inc} : ¬Entitled (t.spawns c) j := by
  cases reapStep_cases h with
  | wait k st hq | report k code b pc hq | crash k code hq => simp [hw] at hq
  | _ => simp [Entitled,setSpawn]

section Step
variable (h : step s a=some t) (r : Rows s) (ho : Owned (fun _ _ => True) s) (hl : SlotListed s)
  (hap : Apart s) (hc : OneCompositor s a)
include h r ho hl hap hc

/- As a compositor it takes the slot, and otherwise the slot, if taken, has the pid of another client. -/
theorem slot_recorded {o : Outcome} {e : SessionEntry} (ha : a=.spawnStep c o)
    (hpc : (s.spawns c).pc=.record i) (he : t.sessions (t.spawns c).name=some e) :
    e.compositorPid=some (t.spawns c).pid ↔ (t.spawns c).compositor=true ∧ e.inc=i := by
  subst ha
  simp only [recorded_call h hpc] at he ⊢
  obtain ⟨f,hf,rfl⟩ := recorded_entry h hpc he
  cases hcomp : (s.spawns c).compositor with
  | true => simpa [addChild] using (hc.record c o i f rfl hpc hcomp hf).1
  | false =>
    simp only [Bool.false_eq_true,false_and,iff_false]
    intro hslot
    obtain ⟨d,j,_,hd,_,hp⟩ := ho _ f _ hf (hl _ f _ hf hslot)
    have hu : Unpruned (s.spawns c) := .inl ⟨i,.inl ⟨hpc,r.reaper_late c (by simp [hpc])⟩⟩
    obtain rfl := hap d c (unpruned_of_entitled hd) hu hp
    simp [hd.1] at hpc

theorem slotRight_step (hs : SlotRight s) : SlotRight t := by
  intro c i e hent he
  rcases entitled_before h r hent with ⟨hold,hname,hpid,hcomp⟩ | ⟨o,ha,hpc⟩
  · rw [hname] at he
    rw [hpid,hcomp]
    cases entry_effect h (s.spawns c).name with
    | same hsame => exact hs c i e hold (hsame ▸ he)
    | inserted j o hpc _ _ ht =>
      cases he.symm.trans ht
      have hinc : incOf (s.spawns c)=some i := by
        rcases hold.2 with hw | ⟨code,hw⟩ <;> simp [incOf,hold.1,hw]
      have hne : i≠j := by
        rintro rfl
        exact (inFlight_of_pc hpc rfl).not_inserted (r.target c i hinc).1
      simpa [newEntry] using fun _ => hne.symm
    | recorded c' o j f hpc hn hf ht =>
      cases he.symm.trans ht
      cases hcomp' : (s.spawns c').compositor with
      | false => simpa [addChild] using hs c i f hold hf
      | true =>
        have hu : Unpruned (s.spawns c') := .inl ⟨j,.inl ⟨hpc,r.reaper_late c' (by simp [hpc])⟩⟩
        have hp : (s.spawns c').pid≠(s.spawns c).pid := fun hp => by
          obtain rfl := hap c' c hu (unpruned_of_entitled hold) hp
          simp [hold.1] at hpc
        -- another compositor would hold the slot that has to be free
        have hfree:=(hc.record c' o j f rfl hpc hcomp' (hn ▸ hf)).2
        have hright:=hs c i f hold hf
        rw [hfree] at hright
        simpa [hp,addChild] using hright
    | pruned c' j code f hw hn hf ht =>
      cases he.symm.trans ht
      have hp : (s.spawns c).pid≠(s.spawns c').pid := fun hp => by
        obtain rfl := hap c c' (unpruned_of_entitled hold) (.inr ⟨j,code,hw⟩) hp
        exact pruned_not_entitled h hw hent
      rw [pruneChild_slot]
      simpa [hp,pruneChild] using hs c i f hold hf
    | resized c' j w h' f _ _ _ hf ht =>
      cases he.symm.trans ht
      exact hs c i f hold hf
    | destroyed d f _ _ _ ht | collected j o code f _ _ _ ht => cases he.symm.trans ht
  · exact slot_recorded h r ho hl hap hc ha hpc he

end Step

variable {ok : Daemon → Act → Prop} {w w' : Watched}

theorem slotListed_reach (hr : Reach step ok (init m) s) : SlotListed s :=
  hr.keeps (by simp [SlotListed,init]) fun hs _ h => slotListed_step h hs

theorem slotRight_reach (hr : Reach step OneCompositor (init m) s) : SlotRight s :=
  hr.invariant (by simp [SlotRight,init]) fun hu hs hc h =>
    slotRight_step h (rows_reach hu) (owned_reach hu) (slotListed_reach hu) (apart_reach hu) hc hs

/-! ### Reports -/

/- The slot the task finds when it processes the exit. -/
def crashed (s : Daemon) (c : Nat) : Bool :=
  (s.sessions (s.spawns c).name).any fun e => e.compositorPid=some (s.spawns c).pid

theorem crashed_eq (r : Rows s) (hs : SlotRight s) {code : Int} (hw : (s.spawns c).reaper=.prune i code) :
    crashed s c=((s.spawns c).compositor && registered s i) := by
  have hd : (s.spawns c).pc=.done none := by
    by_contra hne
    simp [r.reaper_late c hne] at hw
  have hn : nameOf s i=(s.spawns c).name := (r.target c i (by simp [incOf,hd,hw])).2
  unfold crashed registered
  rw [hn]
  cases he : s.sessions (s.spawns c).name with
  | none => simp
  | some e => simp [hs c i e ⟨hd,.inr ⟨code,hw⟩⟩ he]

/-- One step of the waiting task: where it goes and what it reports. -/
inductive Move (s : Daemon) (c : Nat) : ReapPc → List Event → Prop
  | wait (i : Inc) (code : Int) : (s.spawns c).reaper=.wait i → Move s c (.prune i code) []
  | prune (i : Inc) (code : Int) : (s.spawns c).reaper=.prune i code →
      Move s c (.report i code (crashed s c)) []
  | report (i : Inc) (code : Int) : (s.spawns c).reaper=.report i code false →
      Move s c .done [.childExited (s.spawns c).name (s.spawns c).pid code c]
  | reportCrash (i : Inc) (code : Int) : (s.spawns c).reaper=.report i code true →
      Move s c (.crash i code) [.childExited (s.spawns c).name (s.spawns c).pid code c]
  | crash (i : Inc) (code : Int) : (s.spawns c).reaper=.crash i code →
      Move s c .done [.sessionCrashed (s.spawns c).name (s.spawns c).pid code c]

theorem reap_move (hk : ReapCase s c t) : ∃ pc evs,Move s c pc evs ∧
    t.spawns c={s.spawns c with reaper := pc} ∧ reports t c=reports s c++evs := by
  have now (evs : List Event) (he : t.events=s.events++evs) (hc : ∀ x∈evs,callOf x=some c) :
      reports t c=reports s c++evs := by
    unfold reports
    have hall : evs.filter (fun x => callOf x == some c)=evs :=
      filter_eq_self.mpr fun x hx => by simp [hc x hx]
    rw [he,filter_append,hall]
  cases hk with
  | wait i st hw =>
    exact ⟨_,[],.wait i _ hw,update_self ..,now [] (append_nil _).symm (by simp)⟩
  | prune i code e hw he =>
    have hb : crashed s c=decide (e.compositorPid=some (s.spawns c).pid) := by simp [crashed,he]
    refine ⟨_,[],.prune i code hw,?_,now [] (append_nil _).symm (by simp)⟩
    rw [hb]
    exact update_self ..
  | pruneGone i code hw he =>
    have hb : crashed s c=false := by simp [crashed,he]
    refine ⟨_,[],.prune i code hw,?_,now [] (append_nil _).symm (by simp)⟩
    rw [hb]
    exact update_self ..
  | report i code b pc hw hpc =>
    rcases hpc with ⟨rfl,rfl⟩ | ⟨rfl,rfl⟩
    · exact ⟨_,_,.reportCrash i code hw,update_self ..,now _ rfl (by simp [callOf])⟩
    · exact ⟨_,_,.report i code hw,update_self ..,now _ rfl (by simp [callOf])⟩
  | crash i code hw =>
    exact ⟨_,_,.crash i code hw,update_self ..,now _ rfl (by simp [callOf])⟩

theorem watch_step (h : watch w a=some w') : step w.daemon a=some w'.daemon ∧
    w'.verdict=processed w.daemon w.verdict a := by
  obtain ⟨t,ht,rfl⟩ := Option.map_eq_some_iff.mp h
  exact ⟨ht,rfl⟩

theorem daemon_reach (hr : Reach watch (fun w a => ok w.daemon a) (start m) w) : Reach step ok (init m) w.daemon := by
  have hsim : Simulates watch (fun w a => ok w.daemon a) step ok fun w s => w.daemon=s := by
    rintro w w' a s rfl hok h
    exact .inr ⟨a,w'.daemon,hok,(watch_step h).1,rfl⟩
  have hstart : (start m).daemon=init m := rfl
  obtain ⟨s,hs,rfl⟩ := hsim.reach hstart hr
  exact hs

structure Agree (w : Watched) (c : Nat) : Prop where
  report : ∀ i code b,(w.daemon.spawns c).reaper=.report i code b → w.verdict c=some (code,b)
  crash : ∀ i code,(w.daemon.spawns c).reaper=.crash i code → w.verdict c=some (code,true)
  finished : (w.daemon.spawns c).reaper=.done → w.verdict c≠none
  events : reports w.daemon c=expected w c

theorem reports_frame (h : step s a=some t) (ha : a≠.reapStep c) : reports t c=reports s c := by
  cases event_effect h with
  | same he => simp [reports,he]
  | created i o _ he | destroyed i o code _ he => simp [reports,he,callOf]
  | childExited d code he | crashed d code he =>
    have hd : d≠c := fun hd => ha (by rw [hd])
    simp [reports,he,callOf,hd]

theorem processed_frame {v : Nat → Option (Int × Bool)} (ha : a≠.reapStep c) : processed s v a c=v c := by
  unfold processed
  split
  · exact if_neg ha
  · rfl

/- Before the call has returned, and while the client is waited for, there is
nothing to report. -/
def quiet : ReapPc → Bool
  | .none | .wait _ | .prune _ _ => true
  | _ => false

theorem expected_quiet (h : quiet (w.daemon.spawns c).reaper=true) : expected w c=[] := by
  unfold expected
  cases hr : (w.daemon.spawns c).reaper <;> simp_all [quiet]

theorem agree_quiet (h : quiet (w.daemon.spawns c).reaper=true) (he : reports w.daemon c=[]) : Agree w c where
  report := fun i code b hr => by simp [hr,quiet] at h
  crash := fun i code hr => by simp [hr,quiet] at h
  finished := fun hr => by simp [hr,quiet] at h
  events := by rw [expected_quiet h,he]

theorem spawn_quiet (hr : (s.spawns c).reaper=.none) (hk : SpawnCase s c t) : quiet (t.spawns c).reaper=true := by
  cases hk <;> simp [setSpawn,setLeaf,hr,quiet]

theorem agree_frame (h : watch w a=some w') (r : Rows w.daemon) (ha : a≠.reapStep c) (hag : Agree w c) :
    Agree w' c := by
  obtain ⟨hstep,hv⟩ := watch_step h
  have hvc : w'.verdict c=w.verdict c := hv ▸ processed_frame ha
  have hrep:=reports_frame hstep ha
  -- a call that changes without its waiting task has none, or has just started it
  have silent (hq : quiet (w.daemon.spawns c).reaper=true)
      (hq' : quiet (w'.daemon.spawns c).reaper=true) : Agree w' c :=
    agree_quiet hq' (by rw [hrep,hag.events,expected_quiet hq])
  rcases spawn_frame hstep c with hs | ⟨n,comp,pc,hidle,hs,_⟩ | ⟨o,_,hk⟩ | ⟨hreap,_⟩
  · exact ⟨fun i code b hr => by rw [hvc,hag.report i code b (hs ▸ hr)],
      fun i code hr => by rw [hvc,hag.crash i code (hs ▸ hr)],
      fun hr => by rw [hvc]; exact hag.finished (hs ▸ hr),
      by simp [hrep,hag.events,expected,hs,hvc]⟩
  · exact silent (by rw [r.reaper_late c (by simp [hidle])]; rfl) (by rw [hs]; rfl)
  · have hlate:=r.reaper_late c (spawn_running hk)
    exact silent (by rw [hlate]; rfl) (spawn_quiet hlate hk)
  · exact absurd hreap ha

theorem agree_reap (h : watch w (.reapStep c)=some w') (r : Rows w.daemon) (hs : SlotRight w.daemon)
    (hag : Agree w c) : Agree w' c := by
  obtain ⟨hstep,hv⟩ := watch_step h
  obtain ⟨pc,evs,hmove,hcall,hrep⟩ := reap_move (reapStep_cases hstep)
  have hev:=hag.events
  -- except where the exit is processed the verdict stands
  have hkeep (hne : ∀ i code,(w.daemon.spawns c).reaper≠.prune i code) :
      w'.verdict c=w.verdict c := by
    rw [hv]
    unfold processed
    split
    · next i code hw => exact absurd hw (hne i code)
    · rfl
  cases hmove with
  | wait i code hw =>
    rw [expected_quiet (by rw [hw]; rfl)] at hev
    exact agree_quiet (by rw [hcall]; rfl) (by rw [hrep,hev]; rfl)
  | prune i code hw =>
    rw [expected_quiet (by rw [hw]; rfl)] at hev
    have hvc : w'.verdict c=some (code,crashed w.daemon c) := by
      rw [hv,crashed_eq r hs hw]
      simp [processed,hw]
    exact ⟨by simp [hcall,hvc],by simp [hcall],by simp [hcall],by simp [hrep,hev,expected,hcall]⟩
  | report i code hw =>
    have hvc:=(hkeep (by simp [hw])).trans (hag.report i code false hw)
    refine ⟨by simp [hcall],by simp [hcall],by simp [hvc],?_⟩
    simp [hrep,hev,expected,hcall,hw,hvc]
  | reportCrash i code hw =>
    have hvc:=(hkeep (by simp [hw])).trans (hag.report i code true hw)
    refine ⟨by simp [hcall],by simp [hcall,hvc],by simp [hcall],?_⟩
    simp [hrep,hev,expected,hcall,hw,hvc]
  | crash i code hw =>
    have hold:=hag.crash i code hw
    have hvc:=(hkeep (by simp [hw])).trans hold
    refine ⟨by simp [hcall],by simp [hcall],by simp [hvc],?_⟩
    simp [hrep,hev,expected,hcall,hw,hvc,hold]

theorem agree_reach (hr : Reach watch (fun w a => OneCompositor w.daemon a) (start m) w) (c : Nat) : Agree w c := by
  refine hr.invariant (I := fun w => Agree w c)
    ⟨by simp [start,init],by simp [start,init],by simp [start,init],rfl⟩ fun {u v a} hu hag _ h => ?_
  have hd:=daemon_reach hu
  by_cases ha : a=.reapStep c
  · subst ha
    exact agree_reap h (rows_reach hd) (slotRight_reach hd) hag
  · exact agree_frame h (rows_reach hd) ha hag

/-! ### Progress -/

theorem returned_waits (hr : Reach step ok (init m) s) (c : Nat) (hd : (s.spawns c).pc=.done none) :
    (s.spawns c).reaper≠.none := by
  revert hd
  refine hr.keeps (I := fun u => (u.spawns c).pc=.done none → (u.spawns c).reaper≠.none)
    (by simp [init]) fun {u v a} hu _ h hd => ?_
  rcases spawn_frame h c with hs | ⟨n,comp,pc,_,hq,hp⟩ | ⟨o,_,hk⟩ | ⟨_,hk⟩
  · rw [hs] at hd ⊢
    exact hu hd
  · rcases hp with rfl | ⟨err,rfl⟩ <;> simp [hq] at hd
  · cases hk with
    | record | recordGone => simp [setSpawn]
    | _ => simp [setSpawn] at hd
  · obtain ⟨pc,evs,hmove,hcall,_⟩ := reap_move hk
    rw [hcall]
    cases hmove <;> simp

theorem move_left {pc : ReapPc} {evs : List Event} (h : Move s c pc evs) :
    left {s.spawns c with reaper := pc}<left (s.spawns c) := by
  cases h with
  | wait i code hw | prune i code hw | report i code hw | reportCrash i code hw | crash i code hw =>
    simp [left,hw]

theorem left_step (r : Rows s) (h : step s a=some t) (hs : started (s.spawns c).pc=true) :
    left (t.spawns c)≤left (s.spawns c) := by
  rcases spawn_frame h c with he | ⟨n,comp,pc,hidle,_⟩ | ⟨o,_,hk⟩ | ⟨_,hk⟩
  · exact Nat.le_of_eq (by rw [he])
  · simp [hidle,started] at hs
  · cases hk with
    | record i e l hpc | recordGone i hpc =>
      have hlate:=r.reaper_late c (by simp [hpc])
      simp [setSpawn,left,hlate]
    | missing hpc | found e hpc | spawn i p hpc | failed i hpc => simp [hpc,started] at hs
  · obtain ⟨pc,evs,hmove,hcall,_⟩ := reap_move hk
    rw [hcall]
    exact Nat.le_of_lt (move_left hmove)

theorem exit_seen (hr : Reach step ok (init m) s) (hpc : (s.spawns c).pc=.done none)
    (hw : (s.spawns c).reaper=.wait i) (hrun : s.procs.running (.child c)=false) :
    ∃ st,s.procs.exitOf (.child c)=some st := by
  obtain ⟨x,hx,hq⟩ := present_reach hr c i (.inr ⟨hpc,hw⟩)
  cases hrow : s.procs.row (.child c) with
  | none => exact absurd (List.find?_eq_none.mp hrow x hx) (by simp [hq])
  | some y =>
    have hy : y.proc=.child c := by simpa using List.find?_some hrow
    cases hst : y.status with
    | none =>
      have := running_iff.mpr ⟨y,mem_of_find?_eq_some hrow,hy,hst⟩
      simp [hrun] at this
    | some st => exact ⟨st,by simp [Table.exitOf,hrow,hst]⟩

theorem next_enabled (hr : Reach step ok (init m) s) (hs : started (s.spawns c).pc=true)
    (hrun : s.procs.running (.child c)=false) (hl : left (s.spawns c)≠0) :
    ∃ a t,step s a=some t ∧ left (t.spawns c)<left (s.spawns c) := by
  have r:=rows_reach hr
  have reap (h : (step s (.reapStep c)).isSome=true) :
      ∃ a t,step s a=some t ∧ left (t.spawns c)<left (s.spawns c) := by
    obtain ⟨t,h⟩ := Option.isSome_iff_exists.mp h
    obtain ⟨pc,evs,hmove,hcall,_⟩ := reap_move (reapStep_cases h)
    exact ⟨_,t,h,by rw [hcall]; exact move_left hmove⟩
  cases hpc : (s.spawns c).pc with
  | record =>
    have hlate:=r.reaper_late c (by simp [hpc])
    have hstep : ∃ t,step s (.spawnStep c .ok)=some t := by simp [step,spawnStep,hpc]
    obtain ⟨t,ht⟩ := hstep
    exact ⟨_,t,ht,by simp [recorded_call ht hpc,left,hlate]⟩
  | done err =>
    cases err with
    | some => simp [hpc,started] at hs
    | none =>
      cases hw : (s.spawns c).reaper with
      | none => exact absurd hw (returned_waits hr c hpc)
      | done => simp [left,hw] at hl
      | wait =>
        obtain ⟨st,hst⟩ := exit_seen hr hpc hw hrun
        exact reap (by simp [step,reapStep,hw,hst])
      | prune =>
        cases he : s.sessions (s.spawns c).name with
        | none | some => exact reap (by simp [step,reapStep,hw,he])
      | _ => exact reap (by simp [step,reapStep,hw])
  | _ => simp [hpc,started] at hs

/-- In every run that meets the condition, each client is reported once after its exit, and a crash follows
exactly if it is a compositor whose session is still registered when the exit is processed. -/
theorem exits_reported {w : Watched}
    (hr : Reach watch (fun w a => OneCompositor w.daemon a) (start m) w) (c : Nat) : Reported w c where
  events := (agree_reach hr c).events
  decided := (agree_reach hr c).finished
  exited := fun hne => by
    refine waited_gone (daemon_reach hr) c ?_
    rw [(agree_reach hr c).events] at hne
    cases hw : (w.daemon.spawns c).reaper with
    | none | wait | prune => exact absurd (expected_quiet (by rw [hw]; rfl)) hne
    | _ => rfl
  goesOn := next_enabled (daemon_reach hr)
  neverBack := fun _ _ hs h => left_step (rows_reach (daemon_reach hr)) h hs

/-! ### Runs -/

def firstOnly : Act → Bool
  | .spawnStep c _ | .reapStep c => c=0
  | _ => true

theorem others_idle (h : step s a=some t) (ha : firstOnly a=true)
    (hs : ∀ d,d≠0 → (s.spawns d).reaper=.none) (d : Nat) (hd : d≠0) : (t.spawns d).reaper=.none := by
  rcases spawn_frame h d with he | ⟨_,_,_,_,hq,_⟩ | ⟨o,rfl,_⟩ | ⟨rfl,_⟩
  · rw [he]
    exact hs d hd
  · rw [hq]
  · exact absurd (by simpa [firstOnly] using ha) hd
  · exact absurd (by simpa [firstOnly] using ha) hd

def oneCompositor (s : Daemon) : Act → Bool
  | .spawnStep c _ =>
      match (s.spawns c).pc with
      | .record i => (s.sessions (s.spawns c).name).all fun e => e.inc=i ∧ e.compositorPid=none
      | .spawn _ => (s.spawns 0).reaper=.none
      | _ => true
  | _ => true

theorem oneCompositor_correct (hs : ∀ d,d≠0 → (s.spawns d).reaper=.none)
    (h : oneCompositor s a=true) : OneCompositor s a where
  record := by
    rintro c o i e rfl hpc _ he
    simpa [oneCompositor,hpc,he] using h
  fresh := by
    rintro c p i rfl hpc d j code hw
    by_cases hd : d=0
    · subst hd
      simp [oneCompositor,hpc,hw] at h
    · simp [hs d hd] at hw

def compositorRun (c : Nat) (n : Name) (p : Pid) : List Act :=
  [.spawnChild c n ["/usr/bin/kwin_wayland"] true,.spawnStep c .ok,.spawnStep c (.spawned p)]

def clientExit (c : Nat) : List Act :=
  .exit (.child c) (.code 1)::List.replicate 4 (Act.reapStep c)

def compositorExit : List Act :=
  createRun 0 10 (plain "a")++compositorRun 0 "a" 20++[Act.spawnStep 0 .ok]++clientExit 0

theorem exits_reported_crash : ∃ w,Reach watch (fun w a => OneCompositor w.daemon a) (start false) w ∧
    w.daemon.events=[.sessionCreated "a" 0,.childExited "a" 20 1 0,.sessionCrashed "a" 20 1 0] ∧
    Reported w 0 := by
  have hothers : Meets watch (fun w _ => ∀ d,d≠0 → (w.daemon.spawns d).reaper=.none)
      (start false) compositorExit :=
    meets_of_invariant (L := fun a => firstOnly a=true) (by simp [start,init])
      (fun u v a hu ha h => others_idle (watch_step h).1 ha hu) (fun u a hu _ => hu) (by decide)
  have htest : Meets watch (fun w a => oneCompositor w.daemon a=true) (start false) compositorExit :=
    meets_of_checked (fun _ _ h => h) (by decide +kernel)
  have hr : Reach watch (fun w a => OneCompositor w.daemon a) (start false) _ :=
    reach_exec compositorExit ((hothers.and htest).mono fun _ _ hok => oneCompositor_correct hok.1 hok.2)
      (by decide +kernel)
  exact ⟨_,hr,by decide +kernel,exits_reported hr 0⟩

/-- The session of a compositor is destroyed and the name created again before the pid is recorded: its exit
is a crash of the second session. -/
def recordedWithSuccessor : List Act :=
  createRun 0 10 (plain "a")++compositorRun 0 "a" 20++destroyRun 0 "a" ++ exitRun 0 ++
    createRun 1 11 (plain "a")++[Act.spawnStep 0 .ok]++clientExit 0

theorem crash_of_successor : ∃ w,Reach watch Free (start false) w ∧
    Registered w.daemon 1 ∧ w.verdict 0=some (1,false) ∧
    Event.sessionCrashed "a" 20 1 0∈w.daemon.events ∧ ¬Reported w 0 := by
  obtain ⟨w,hr,hreg,hv,hmem,hrep⟩ : ∃ w,Reach watch Free (start false) w ∧
      registered w.daemon 1=true ∧ w.verdict 0=some (1,false) ∧
      Event.sessionCrashed "a" 20 1 0∈w.daemon.events ∧ reports w.daemon 0≠expected w 0 :=
    free_observed recordedWithSuccessor (by decide +kernel)
  exact ⟨w,hr,registered_iff.mp hreg,hv,hmem,fun h => hrep h.events⟩

end Waymux.Registry.ChildExits
