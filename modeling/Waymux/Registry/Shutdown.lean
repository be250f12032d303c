import Waymux.Registry.LifecycleEvents
import Waymux.Interleave.Simulation
import Mathlib.Data.List.Dedup

/-!
# Shutdown of the daemon (`Registry::shutdown_all`)

The one call of `shutdown_all` that `main` makes; every other task goes on while it runs.
-/

namespace Waymux.Registry.Shutdown
open HostResources TaskState TaskSteps StepCases TaskFrames Incarnations Processes List Option
open LifecycleEvents (finished)
open Schedules Interleave.Runs Interleave.Simulation

variable {d d' : Daemon} {a : TaskSteps.Act} {i : Inc}

/- The entry whose kill a destroy call has in hand and not sent. -/
def unsent : DestroyPc → Option SessionEntry
  | .emit e | .tags e | .kill e => some e
  | _ => none

/-- A supervisor that waits for its process has an entry in the map, has been told, or is about to be. -/
structure Told (d : Daemon) : Prop where
  term : ∀ i,d.sups i=.term → d.kills i≠.waiting
  wait : ∀ i,d.sups i=.wait → Registered d i ∨ d.kills i≠.waiting ∨
    ∃ k e,unsent (d.destroys k).pc=some e ∧ e.inc=i

theorem told_init (m : Bool) : Told (TaskSteps.init m) := ⟨nofun,nofun⟩

theorem unregistered_now (w : Wf d) (h : TaskSteps.step d a=some d') (hr : Registered d i) :
    Registered d' i ∨ d'.kills i≠.waiting ∨ ∃ k e,unsent (d'.destroys k).pc=some e ∧ e.inc=i := by
  have hname:=name_stable h (hr.inserted w).not_idle
  obtain ⟨e,he,hi⟩ := hr
  have kept {f : SessionEntry} (hf : d'.sessions (nameOf d i)=some f) (hfi : f.inc=e.inc) : Registered d' i :=
    ⟨f,by rw [hname]; exact hf,hfi.trans hi⟩
  cases entry_effect h (nameOf d i) with
  | same hs => exact .inl (kept (hs.trans he) rfl)
  | inserted k o _ _ hn => simp [he] at hn
  | recorded c o k f _ _ hs ht | pruned c k code f _ _ hs ht | resized c k w' h' f _ _ _ hs ht =>
    cases he.symm.trans hs
    exact .inl (kept ht rfl)
  | destroyed k f hpc hn =>
    refine .inr (.inr ⟨k,e,?_,hi⟩)
    cases destroyStep_cases (show destroyStep d k=some d' from h) with
    | remove f _ hf =>
      rw [hn,he] at hf
      cases hf
      simp [destroyAt,unsent]
    | missing _ hf => simp [hn,he] at hf
    | _ => simp_all
  | collected k o code f hpc hn =>
    refine .inr (.inl ?_)
    cases supStep_cases (show supStep d k o=some d' from h) with
    | removed code' f pc _ hf =>
      rw [hn,he] at hf
      cases hf
      simpa [supAt,hi] using dropKill_told (d.kills i)
    | absent _ _ hf => simp [hn,he] at hf
    | _ => simp_all

theorem unsent_step (h : TaskSteps.step d a=some d') {k : Nat} {e : SessionEntry}
    (hu : unsent (d.destroys k).pc=some e) : unsent (d'.destroys k).pc=some e ∨ d'.kills e.inc≠.waiting := by
  rcases destroy_frame h k with hs | ⟨n,_,hpc,_⟩ | ⟨_,hc⟩
  · exact .inl (by rw [hs,hu])
  · simp [hpc,unsent] at hu
  · cases hc with
    | emit f hpc | tags f hpc =>
      simp only [hpc,unsent,Option.some.injEq] at hu
      exact .inl (by simp [destroyAt,unsent,hu])
    | kill f hpc =>
      simp only [hpc,unsent,Option.some.injEq] at hu
      exact .inr (by simp [destroyAt,hu])
    | _ => simp_all [unsent]

theorem registered_inserted (w : Wf d) (w' : Wf d') (h : TaskSteps.step d a=some d')
    (hpc : (d.creates i).pc=.insert) (hann : (d'.creates i).pc=.announce) : Registered d' i := by
  have hnew : ¬Inserted d i := (inFlight_of_pc hpc rfl).not_inserted
  refine (w'.inserted_kept i (.inl hann)).resolve_right fun hrem => ?_
  rcases removed_frame h i with hs | ⟨n,e,rfl,he,_,_⟩
  · rw [hs] at hrem
    obtain ⟨e,he⟩ := ne_none_iff_exists'.mp hrem
    exact hnew (w.removed_inserted i e he).2
  · exact hnew (w.entry_inserted n e he)

theorem sup_moves (hc : SupCase d i d') : d'.sups i≠.wait ∧ (d'.sups i=.term → d.kills i≠.waiting) := by
  cases hc with
  | killed hpc hk => exact ⟨by simp [supAt],fun _ => hk⟩
  | removed code e pc hpc hs hpc' =>
    rcases hpc' with ⟨_,rfl⟩ | ⟨_,rfl⟩ <;> simp [supAt]
  | unlink code k => cases k <;> simp [supAt,afterUnlink]
  | _ => simp [supAt]

theorem Told.step (w : Wf d) (h : TaskSteps.step d a=some d') (ht : Told d) : Told d' where
  term i hi := by
    rcases sup_frame h i with hs | ⟨_,_,hw⟩ | ⟨o,_,hc⟩
    · exact told_stable h (ht.term i (hs ▸ hi))
    · simp [hw] at hi
    · exact told_stable h ((sup_moves hc).2 hi)
  wait i hi := by
    rcases sup_frame h i with hs | ⟨hpc,hann,_⟩ | ⟨o,_,hc⟩
    · rcases ht.wait i (hs ▸ hi) with hr | hk | ⟨k,e,hu,he⟩
      · exact unregistered_now w h hr
      · exact .inr (.inl (told_stable h hk))
      · rcases unsent_step h hu with hu' | hk
        · exact .inr (.inr ⟨k,e,hu',he⟩)
        · exact .inr (.inl (he ▸ hk))
    · exact .inl (registered_inserted w (w.step h) h hpc hann)
    · exact absurd hi (sup_moves hc).1

theorem told_reach {ok : Daemon → TaskSteps.Act → Prop} {m : Bool} (hr : Reach TaskSteps.step ok (TaskSteps.init m) d) :
    Told d :=
  hr.invariant (told_init m) fun hu ht _ h => ht.step (wf_reach hu) h

/-- In every run, one task waits for each process. A session that was handed over is registered or told to end, or a
destroy call is about to tell it. -/
theorem processes_in_hand {m : Bool} (hr : Reach TaskSteps.step Free (TaskSteps.init m) d) :
    d.procs.Pairwise (fun x y => x.pid≠y.pid) ∧
    (∀ x∈d.procs,∀ c,x.proc=.child c → Awaited (d.spawns c) x.inc) ∧
    ∀ x∈d.procs,∀ i,x.proc=.session i → spawned (d.creates i).pc=true ∧ d.sups i=.none ∨
      spawned (d.creates i).pc=false ∧ (d.sups i=.wait ∨ d.sups i=.term) ∧
        (Registered d i ∨ d.kills i≠.waiting ∨ ∃ k e,unsent (d.destroys k).pc=some e ∧ e.inc=i) := by
  have r:=rows_reach hr
  have told:=told_reach hr
  have handed {i : Inc} (hs : d.sups i≠.none) : spawned (d.creates i).pc=false := by
    rcases ((wf_reach hr).sup_iff i).mp hs with hp | hp <;> rw [hp] <;> rfl
  refine ⟨r.pids,fun x hx c hc => (r.child_row x hx c hc).2,fun x hx i hi => ?_⟩
  rcases (r.session_row x hx i hi).2 with hs | hs | hs
  · exact .inl ⟨hs,by_contra fun hn => by simp [handed hn] at hs⟩
  · exact .inr ⟨handed (by simp [hs]),.inl hs,told.wait i hs⟩
  · exact .inr ⟨handed (by simp [hs]),.inr hs,.inr (.inl (told.term i hs))⟩

theorem processes_in_hand_taken : ∃ d : Daemon,d.sessions "a" = none ∧ d.procs.running (.session 1)=true ∧
    d.procs.Pairwise fun x y => x.pid≠y.pid := by
  have hr : Reach TaskSteps.step Free (TaskSteps.init false) _ :=
    reach_free (createRun 1 100 (plain "a")++[TaskSteps.Act.destroy 7 "a",.destroyStep 7]) (by decide +kernel)
  exact ⟨_,by decide +kernel,by decide +kernel,(processes_in_hand hr).1⟩

/- The loop over the names, with the destroy call it waits for, then the loop
over the handles. -/
inductive Pc
  | idle
  | sweep (rest : List Name)
  | destroying (k : Nat) (rest : List Name)
  | join (handles : List Inc)
  | returned
  deriving DecidableEq, Repr

/- A handle is named by the incarnation of its supervisor. -/
structure State where
  daemon : Daemon
  supervisorHandles : List Inc
  pc : Pc

def init (metering : Bool) : State := ⟨TaskSteps.init metering,[],.idle⟩

/- Names in the map. Whatever is in it has been inserted. -/
def keys (d : Daemon) : List Name :=
  ((d.history.map (nameOf d)).dedup).filter fun n => (d.sessions n).isSome

inductive Act
  | task (a : TaskSteps.Act)
  | shutdownAll (names : List Name)
  | destroyNext (k : Nat)
  | destroyed
  | takeHandles
  | join (expired : Bool)
  | ret
  deriving DecidableEq, Repr

/- A create that inserts pushes the handle before it lets go of the map. The
keys come in any order. -/
def step (s : State) : Act → Option State
  | .task a => (TaskSteps.step s.daemon a).map fun d => {s with
      daemon := d
      supervisorHandles := s.supervisorHandles++d.history.drop s.daemon.history.length}
  | .shutdownAll names =>
      if s.pc=.idle ∧ names.Perm (keys s.daemon) then some {s with pc := .sweep names} else none
  | .destroyNext k =>
      match s.pc with
      | .sweep (n::rest) =>
          (TaskSteps.step s.daemon (.destroy k n)).map fun d => {s with daemon := d, pc := .destroying k rest}
      | _ => none
  | .destroyed =>
      match s.pc with
      | .destroying k rest =>
          match (s.daemon.destroys k).pc with
          | .done _ => some {s with pc := .sweep rest}
          | _ => none
      | _ => none
  | .takeHandles =>
      match s.pc with
      | .sweep [] => some {s with supervisorHandles := [], pc := .join s.supervisorHandles}
      | _ => none
  | .join expired =>
      match s.pc with
      | .join (i::rest) =>
          if expired ∨ finished (s.daemon.sups i) then some {s with pc := .join rest} else none
      | _ => none
  | .ret =>
      match s.pc with
      | .join [] => some {s with pc := .returned}
      | _ => none

variable {s t : State} {b : Act}

inductive Turn (s : State) : Act → State → Prop
  | task (a : TaskSteps.Act) (d : Daemon) : TaskSteps.step s.daemon a=some d →
      Turn s (.task a) {s with
        daemon := d
        supervisorHandles := s.supervisorHandles++d.history.drop s.daemon.history.length}
  | begins (names : List Name) : s.pc=.idle → names.Perm (keys s.daemon) →
      Turn s (.shutdownAll names) {s with pc := .sweep names}
  | destroys (k : Nat) (n : Name) (rest : List Name) (d : Daemon) : s.pc=.sweep (n::rest) →
      TaskSteps.step s.daemon (.destroy k n)=some d →
      Turn s (.destroyNext k) {s with daemon := d, pc := .destroying k rest}
  | destroyed (k : Nat) (rest : List Name) (found : Bool) : s.pc=.destroying k rest →
      (s.daemon.destroys k).pc=.done found → Turn s .destroyed {s with pc := .sweep rest}
  | takes : s.pc=.sweep [] →
      Turn s .takeHandles {s with supervisorHandles := [], pc := .join s.supervisorHandles}
  | joins (i : Inc) (rest : List Inc) (expired : Bool) : s.pc=.join (i::rest) →
      expired=true ∨ finished (s.daemon.sups i)=true → Turn s (.join expired) {s with pc := .join rest}
  | returns : s.pc=.join [] → Turn s .ret {s with pc := .returned}

theorem step_turn (h : step s b=some t) : Turn s b t := by
  cases b with
  | task a =>
    obtain ⟨d,hd,rfl⟩ := map_eq_some_iff.mp h
    exact .task a d hd
  | shutdownAll names =>
    obtain ⟨⟨hpc,hp⟩,⟨⟩⟩ := ite_none_right_eq_some.mp h
    exact .begins names hpc hp
  | destroyNext k =>
    simp only [step] at h
    split at h
    case h_1 n rest hpc =>
      obtain ⟨d,hd,rfl⟩ := map_eq_some_iff.mp h
      exact .destroys k n rest d hpc hd
    case h_2 => cases h
  | destroyed | takeHandles | ret =>
    simp only [step] at h
    repeat' split at h
    all_goals cases h
    constructor <;> assumption
  | join expired =>
    simp only [step] at h
    repeat' split at h
    all_goals cases h
    exact .joins _ _ expired ‹_› ‹_›

theorem daemon_reach {ok : State → Act → Prop} {m : Bool} (hr : Reach step ok (init m) s) :
    Reach TaskSteps.step Free (TaskSteps.init m) s.daemon := by
  have hsim : Simulates step ok TaskSteps.step Free fun u d => u.daemon=d := by
    intro u u' b d hd _ h
    cases step_turn h with
    | task a d' hs => exact .inr ⟨a,d',trivial,hd ▸ hs,rfl⟩
    | destroys k n rest d' _ hs => exact .inr ⟨_,d',trivial,hd ▸ hs,rfl⟩
    | _ => exact .inl hd
  obtain ⟨d,hd,he⟩ := hsim.reach (show (init m).daemon=TaskSteps.init m from rfl) hr
  exact he ▸ hd

/-- No session is registered, and a session process that still runs has been told to stop. -/
structure Complete (d : Daemon) : Prop where
  unregistered : ∀ n,d.sessions n=none
  told : ∀ i,d.procs.running (.session i)=true → d.kills i≠.waiting

/-- From the taking of the names on no create inserts, and none has a process it has not inserted when
`shutdown_all` returns. The deadline does not pass for a supervisor whose kill is still to be sent. -/
def Drained (s : State) : Act → Prop
  | .task (.createStep i _) =>
      (s.pc≠.idle → (s.daemon.creates i).pc=.insert → s.daemon.sessions (nameOf s.daemon i)≠none) ∧
      (s.pc=.returned → (s.daemon.creates i).pc≠.spawn)
  | .join true => ∀ i rest,s.pc=.join (i::rest) →
      ∀ k e,unsent (s.daemon.destroys k).pc=some e → e.inc≠i
  | .ret => ∀ x∈s.daemon.procs,∀ i,x.proc=.session i → spawned (s.daemon.creates i).pc=false
  | _ => True

theorem history_kept (hq : Drained s (.task a)) (hpc : s.pc≠.idle)
    (h : TaskSteps.step s.daemon a=some d) : d.history=s.daemon.history := by
  rcases history_frame h with hs | ⟨i,o,rfl,hins,hann,_⟩
  · exact hs
  · have hnew:=(inFlight_of_pc hins rfl).not_inserted
    exact absurd (inserted_now h (.inl hann) hnew).2.1 (hq.1 hpc hins)

theorem entries_kept (hq : Drained s (.task a)) (hpc : s.pc≠.idle) (h : TaskSteps.step s.daemon a=some d)
    {n : Name} (hn : d.sessions n≠none) : s.daemon.sessions n≠none := by
  obtain ⟨e,he⟩ := ne_none_iff_exists'.mp hn
  rcases entry_after h he with ⟨i,hins,hname,hfree,_,hann,_⟩ | ⟨e',hs,_⟩
  · have hhist:=(inserted_now h (.inl hann) (inFlight_of_pc hins rfl).not_inserted).2.2.1
    rw [history_kept hq hpc h] at hhist
    simp at hhist
  · simp [hs]

def Pending (s : State) (n : Name) : Prop :=
  match s.pc with
  | .idle => True
  | .sweep rest => n∈rest
  | .destroying k rest => n∈rest ∨ (s.daemon.destroys k).pc=.remove ∧ (s.daemon.destroys k).name=n
  | .join _ | .returned => False

def Swept (s : State) : Prop := ∀ n,s.daemon.sessions n≠none → Pending s n

theorem mem_keys {n : Name} (w : Wf d) (hist : HistoryOk d) (hn : d.sessions n≠none) : n∈keys d := by
  obtain ⟨e,he⟩ := ne_none_iff_exists'.mp hn
  refine mem_filter.mpr ⟨mem_dedup.mpr ?_,by simp [he]⟩
  exact mem_map.mpr ⟨e.inc,(hist.mem e.inc).mpr (w.entry_inserted n e he),w.entry_name n e he⟩

theorem destroy_pending {k : Nat} (h : TaskSteps.step d a=some d') (hpc : (d.destroys k).pc=.remove) :
    (d'.destroys k).pc=.remove ∧ (d'.destroys k).name=(d.destroys k).name ∨
      d'.sessions (d.destroys k).name=none := by
  rcases destroy_frame h k with hs | ⟨n,_,hidle,_⟩ | ⟨_,hc⟩
  · exact .inl (by rw [hs]; exact ⟨hpc,rfl⟩)
  · simp [hpc] at hidle
  · cases hc with
    | missing _ hn => exact .inr hn
    | remove => exact .inr (Function.update_self ..)
    | _ => simp_all

theorem destroy_called {k : Nat} {n : Name} (h : TaskSteps.step d (.destroy k n)=some d') :
    d'={d with destroys := Function.update d.destroys k ⟨n,.remove⟩} :=
  (Option.some.inj (ite_none_right_eq_some.mp h).2).symm

theorem step_swept (w : Wf s.daemon) (hist : HistoryOk s.daemon) (hq : Drained s b) (hi : Swept s)
    (ht : Turn s b t) : Swept t := by
  intro n hn
  cases ht with
  | task a d h =>
    by_cases hpc : s.pc=.idle
    · simp [Pending,hpc]
    · have hp:=hi n (entries_kept hq hpc h hn)
      unfold Pending at hp ⊢
      dsimp only
      split at hp
      case h_1 => trivial
      case h_2 => exact hp
      case h_3 k rest hk =>
        rcases hp with hp | ⟨hrem,hname⟩
        · exact .inl hp
        · rcases destroy_pending h hrem with ⟨hrem',hname'⟩ | hgone
          · exact .inr ⟨hrem',hname'.trans hname⟩
          · exact absurd (hname ▸ hgone) hn
      case h_4 => exact hp
      case h_5 => exact hp
  | begins names hpc hp => exact hp.mem_iff.mpr (mem_keys w hist hn)
  | destroys k m rest d hpc h =>
    cases destroy_called h
    have hp:=hi n hn
    simp only [Pending,hpc] at hp
    rcases mem_cons.mp hp with rfl | hp
    · exact .inr (by simp)
    · exact .inl hp
  | destroyed k rest found hpc hd =>
    have hp:=hi n hn
    simp only [Pending,hpc,hd] at hp
    exact hp.resolve_right (by simp)
  | takes hpc | joins _ _ _ hpc | returns hpc =>
    -- no name is left, so none is registered
    have hp:=hi n hn
    simp [Pending,hpc] at hp

def Halted (d : Daemon) (i : Inc) : Prop := d.kills i≠.waiting ∨ d.sups i≠.wait

theorem halted_stable (h : TaskSteps.step d a=some d') (hins : Inserted d i) (hi : Halted d i) : Halted d' i := by
  rcases hi with hk | hs
  · exact .inl (told_stable h hk)
  · refine .inr ?_
    rcases sup_frame h i with he | ⟨hpc,_,_⟩ | ⟨o,_,hc⟩
    · rw [he]
      exact hs
    · exact absurd hins (inFlight_of_pc hpc rfl).not_inserted
    · exact (sup_moves hc).1

def Joined (s : State) (i : Inc) : Prop :=
  match s.pc with
  | .join handles => i∈handles ∨ Halted s.daemon i
  | .returned => Halted s.daemon i
  | .idle | .sweep _ | .destroying _ _ => i∈s.supervisorHandles

theorem handle_pushed (h : TaskSteps.step s.daemon a=some d) (hi : i∈d.history) :
    i∈s.daemon.history ∨ i∈d.history.drop s.daemon.history.length := by
  rcases history_frame h with hs | ⟨k,o,_,_,_,hs⟩
  · exact .inl (hs ▸ hi)
  · rw [hs] at hi ⊢
    rw [drop_left]
    exact mem_append.mp hi

/- The wait ends with the supervisor or at the deadline: the entry is gone and its taker has sent the kill. -/
theorem wait_over {rest : List Inc} {expired : Bool} (htold : Told s.daemon) (hsw : Swept s)
    (hq : Drained s (.join expired)) (hpc : s.pc=.join (i::rest))
    (hend : expired=true ∨ finished (s.daemon.sups i)=true) : Halted s.daemon i := by
  by_cases hs : s.daemon.sups i=.wait
  · refine .inl ?_
    rcases hend with rfl | hfin
    · rcases htold.wait i hs with ⟨e,he,_⟩ | hk | ⟨k,e,hu,he⟩
      · have hp:=hsw (nameOf s.daemon i) (by simp [he])
        simp [Pending,hpc] at hp
      · exact hk
      · exact absurd he (hq i rest hpc k e hu)
    · simp [hs,finished] at hfin
  · exact .inr hs

theorem step_joined (hist : HistoryOk s.daemon) (htold : Told s.daemon) (hsw : Swept s)
    (hq : Drained s b) (hi : ∀ i∈s.daemon.history,Joined s i) (ht : Turn s b t) :
    ∀ i∈t.daemon.history,Joined t i := by
  intro i hmem
  cases ht with
  | task a d h =>
    have hold (hj : i∈s.daemon.history) := hi i hj
    cases hpc : s.pc with
    | join =>
      rw [history_kept hq (by simp [hpc]) h] at hmem
      simp only [Joined,hpc] at hold ⊢
      exact (hold hmem).imp_right (halted_stable h ((hist.mem i).mp hmem))
    | returned =>
      rw [history_kept hq (by simp [hpc]) h] at hmem
      simp only [Joined,hpc] at hold ⊢
      exact halted_stable h ((hist.mem i).mp hmem) (hold hmem)
    | _ =>
      simp only [Joined,hpc] at hold ⊢
      exact mem_append.mpr ((handle_pushed h hmem).imp_left hold)
  | begins _ hpc | destroyed _ _ _ hpc => simpa only [Joined,hpc] using hi i hmem
  | destroys k n rest d hpc h =>
    cases destroy_called h
    simpa only [Joined,hpc] using hi i hmem
  | takes hpc =>
    have hj:=hi i hmem
    simp only [Joined,hpc] at hj
    exact .inl hj
  | joins j rest expired hpc hend =>
    have hj:=hi i hmem
    simp only [Joined,hpc] at hj
    rcases hj with hj | hh
    · rcases mem_cons.mp hj with rfl | hj
      · have hh : Halted s.daemon i := wait_over htold hsw hq hpc hend
        exact .inr hh
      · exact .inl hj
    · exact .inr hh
  | returns hpc => simpa [Joined,hpc] using hi i hmem

def Settled (s : State) : Prop :=
  s.pc=.returned → ∀ x∈s.daemon.procs,∀ i,x.proc=.session i → spawned (s.daemon.creates i).pc=false

theorem spawned_before (h : TaskSteps.step d a=some d') (hs : spawned (d'.creates i).pc=true) :
    spawned (d.creates i).pc=true ∨ ∃ o,a=.createStep i o ∧ (d.creates i).pc=.spawn := by
  rcases create_frame h i with he | ⟨args,_,_,he⟩ | ⟨o,ha,hc⟩
  · exact .inl (he ▸ hs)
  · rw [he] at hs
    rcases callCreate_pc args with hp | ⟨err,hp⟩ <;> simp [hp,spawned] at hs
  · cases hc with
    | spawn p hpc => exact .inr ⟨o,ha,hpc⟩
    | ready hpc | unlinkReady hpc | leaf hpc | noLeaf hpc | join hpc => exact .inl (by rw [hpc]; rfl)
    | clear k => cases k <;> simp [createAt,setCreate,afterClear,spawned] at hs
    | bind k => cases k <;> simp [createAt,setCreate,afterBind,spawned] at hs
    | _ => simp [createAt,setCreate,spawned] at hs

theorem step_settled (hq : Drained s b) (hi : Settled s) (ht : Turn s b t) : Settled t := by
  cases ht with
  | task a d h =>
    intro hpc x hx i hxi
    have hnospawn : ¬∃ o,a=.createStep i o ∧ (s.daemon.creates i).pc=.spawn := by
      rintro ⟨o,rfl,hspawn⟩
      exact hq.2 hpc hspawn
    rw [← Bool.not_eq_true]
    intro hs
    have hs:=(spawned_before h hs).resolve_right hnospawn
    rcases row_before h hx with ⟨y,hy,_,hp,_⟩ | ⟨k,p,hspawn,_,_,rfl⟩ | ⟨c,k,p,o,_,_,_,_,rfl⟩
    · rw [hi hpc y hy i (hp.trans hxi)] at hs
      cases hs
    · cases hxi
      rw [hspawn] at hs
      cases hs
    · cases hxi
  | returns => exact fun _ => hq
  | _ => exact nofun

structure Inv (s : State) : Prop where
  swept : Swept s
  joined : ∀ i∈s.daemon.history,Joined s i
  settled : Settled s

theorem reach_inv {m : Bool} (hr : Reach step Drained (init m) s) : Inv s := by
  have hstart : Inv (init m) := ⟨fun _ _ => trivial,nofun,nofun⟩
  refine hr.invariant hstart fun {u v b} hu hi hq h => ?_
  have hd:=daemon_reach hu
  have ht:=step_turn h
  exact {
    swept := step_swept (wf_reach hd) (history_reach hd) hq hi.swept ht
    joined := step_joined (history_reach hd) (told_reach hd) hi.swept hq hi.joined ht
    settled := step_settled hq hi.settled ht}

theorem shutdown_complete {m : Bool} {s : State} (hr : Reach step Drained (init m) s) (hpc : s.pc=.returned) :
    Complete s.daemon := by
  have hi:=reach_inv hr
  have hd:=daemon_reach hr
  have w:=wf_reach hd
  refine ⟨fun n => by_contra fun hn => ?_,fun i hrun => ?_⟩
  · have hp:=hi.swept n hn
    simp [Pending,hpc] at hp
  · obtain ⟨x,hx,hxi⟩ := any_eq_true.mp hrun
    have hxi : x.proc=.session i := (of_decide_eq_true hxi).1
    rcases ((rows_reach hd).session_row x hx i hxi).2 with hs | hs | hs
    · rw [hi.settled hpc x hx i hxi] at hs
      cases hs
    · have hins : Inserted s.daemon i := (w.sup_iff i).mp (by simp [hs])
      have hj:=hi.joined i (((history_reach hd).mem i).mpr hins)
      simp only [Joined,hpc,Halted,hs] at hj
      exact hj.resolve_right (by simp)
    · exact (told_reach hd).term i hs

/- A test for `Drained` in runs in which no wait reaches the deadline. -/
def drained (s : State) : Act → Bool
  | .task (.createStep i _) =>
      (s.pc=.idle || (s.daemon.creates i).pc≠.insert || (s.daemon.sessions (nameOf s.daemon i)).isSome) &&
      (s.pc≠.returned || (s.daemon.creates i).pc≠.spawn)
  | .join expired => !expired
  | .ret => s.daemon.procs.all fun x => match x.proc with
    | .session i => !spawned (s.daemon.creates i).pc
    | .child _ => true
  | _ => true

theorem drained_correct (s : State) (b : Act) (h : drained s b=true) : Drained s b := by
  cases b with
  | task a =>
    cases a with
    | createStep =>
      simp only [drained,Bool.and_eq_true,Bool.or_eq_true,decide_eq_true_eq] at h
      refine ⟨fun hpc hins => ?_,fun hpc hspawn => ?_⟩
      · rcases h.1 with (hidle | hne) | hsome
        · exact absurd hidle hpc
        · exact absurd hins hne
        · exact isSome_iff_ne_none.mp hsome
      · rcases h.2 with hne | hne
        · exact hne hpc
        · exact hne hspawn
    | _ => trivial
  | join expired =>
    cases expired with
    | false => trivial
    | true => cases h
  | ret =>
    intro x hx i hxi
    have hx:=all_eq_true.mp h x hx
    simpa [hxi] using hx
  | _ => trivial

def oneSession : List Act :=
  (createRun 1 100 (plain "a")).map .task++([.shutdownAll ["a"],.destroyNext 7] : List Act) ++
  (List.replicate 6 (TaskSteps.Act.destroyStep 7)).map .task++([.destroyed,.takeHandles] : List Act) ++
  (.supStep 1 .killed::exitRun 1).map .task++([.join false,.ret] : List Act)

theorem shutdown_complete_one_session : ∃ s,Reach step Drained (init false) s ∧ s.pc=.returned ∧
    s.daemon.history=[1] ∧ Complete s.daemon := by
  have hr : Reach step Drained (init false) _ :=
    reach_exec oneSession (meets_of_checked drained_correct (by decide +kernel)) (by decide +kernel)
  refine ⟨_,hr,?_,?_,shutdown_complete hr ?_⟩ <;> decide +kernel

/- The create is past its handshake when the names are taken. -/
def lateInsert : List Act :=
  (openRun 1 100 (plain "a")).map .task++([.shutdownAll [],.takeHandles] : List Act) ++
  ([.createStep 1 .ok] : List TaskSteps.Act).map .task++([.ret] : List Act)

theorem session_after_shutdown : ∃ s,Reach step Free (init false) s ∧ s.pc=.returned ∧
    (s.daemon.sessions "a").isSome ∧ s.daemon.procs.running (.session 1)=true ∧ s.daemon.kills 1=.waiting :=
  free_observed lateInsert (by decide +kernel)

end Waymux.Registry.Shutdown
