import Waymux.Registry.Directories
import Waymux.Registry.Schedules

/-!
# What a failed create call leaves behind

The error exits of `create` undo the process, and not the tmpfs, the sockets and the cgroup leaf.
-/

namespace Waymux.Registry.FailedCreate
open HostResources TaskState TaskSteps StepCases TaskFrames Incarnations Processes List Option
open Directories Schedules Interleave.Runs

variable {s t : Daemon} {a : Act} {i j k : Inc} {n : Name} {m : Bool} {o : Outcome}

def leafMaker (s : Daemon) (n : Name) : Option Inc := (s.leaves n).map Leaf.maker

def seen (d : SessionDir) (f : Sock) : Option Inc := (sockets d).head?.bind fun g => g f

/-- The call `k` has returned an error and nothing of it is left. -/
structure NoTrace (s : Daemon) (k : Inc) : Prop where
  entry : ∀ n e,s.sessions n=some e → e.inc≠k
  mount : ∀ n,k∉makers (s.dirs n)
  leaf : ∀ n,leafMaker s n≠some k
  child : s.procs.running (.session k)=false

/-- A step of the call `k` or of its process leaves the others as they are, with the sockets of every create
call that has bound one and of every session. -/
structure Harmless (s t : Daemon) (k : Inc) : Prop where
  entry : ∀ n e,e.inc≠k → (t.sessions n=some e ↔ s.sessions n=some e)
  mount : ∀ n j,j≠k → (j∈makers (t.dirs n) ↔ j∈makers (s.dirs n))
  leaf : ∀ n j,j≠k → (leafMaker t n=some j ↔ leafMaker s n=some j)
  socket : ∀ n f j,j≠k → Seated s j → (seen (t.dirs n) f=some j ↔ seen (s.dirs n) f=some j)

/-- The bind fails, the spawn fails, the child does not get ready, or the name is taken under the second
lock. -/
def ErrorExit (s : Daemon) (k : Inc) (o : Outcome) : Prop :=
  match (s.creates k).pc with
  | .bind f => o=.fail ∨ ((s.dirs (nameOf s k)).bind k f).isNone
  | .spawn => o=.fail
  | .wait => o=.readyFailed ∨ o=.exited ∨ o=.timedOut
  | .insert => (s.sessions (nameOf s k)).isSome
  | _ => False

instance : Decidable (ErrorExit s k o) := by
  unfold ErrorExit
  split <;> infer_instance

def ExitsBare (s : Daemon) : Act → Prop
  | .createStep k o => ErrorExit s k o → (s.creates k).tmpfs=false ∧ leafMaker s (nameOf s k)≠some k
  | _ => True

instance : Decidable (ExitsBare s a) := by
  unfold ExitsBare
  split <;> infer_instance

def writing : CreatePc → Bool
  | .mount | .clear _ | .bind _ | .unlinkReady => true
  | _ => false

def AloneInDir (s : Daemon) (k : Inc) : Prop :=
  ∀ j,Seated s j → nameOf s j=nameOf s k → j=k

/-- Error exits are taken by calls with no tmpfs and no leaf, and a call and its process write into the
directory only while no other create call of the name has bound a socket and no other session of it is
there. -/
structure Clean (s : Daemon) (a : Act) : Prop where
  exit : ExitsBare s a
  call : ∀ k o,a=.createStep k o → writing (s.creates k).pc=true → AloneInDir s k
  process : ∀ k f,a=.sessionBind k f → s.procs.running (.session k)=true → AloneInDir s k

theorem failing_pc (hc : CreateCase s k t) (hf : Failed t k) (hfl : InFlight s k) :
    (s.creates k).pc=.mkdir ∨ (∃ f,(s.creates k).pc=.bind f) ∨ (s.creates k).pc=.spawn ∨
    (s.creates k).pc=.wait ∨ (s.creates k).pc=.insert := by
  obtain ⟨err,hf⟩ := hf
  cases hc with
  | failed err hpc => exact hpc.imp id fun hpc => hpc.imp id .inl
  | abandoned err hpc => exact .inr (.inr (.inr (.inl hpc)))
  | lost e hpc => exact .inr (.inr (.inr (.inr hpc)))
  | taken e hpc | free hpc => simp [InFlight,hpc,working] at hfl
  | clear f => cases f <;> simp [createAt,setCreate,afterClear] at hf
  | bind f d hpc => exact .inr (.inl ⟨f,hpc⟩)
  | spawn p hpc => exact .inr (.inr (.inl hpc))
  | _ => simp [createAt,setCreate] at hf

theorem errorExit_of_failed (h : createStep s k o=some t) (hf : Failed t k) (hfl : InFlight s k)
    (hm : (s.creates k).pc≠.mkdir) : ErrorExit s k o := by
  have hpc:=failing_pc (createStep_cases h) hf hfl
  obtain ⟨err,hf⟩ := hf
  rcases hpc with hpc | ⟨f,hpc⟩ | hpc | hpc | hpc
  · exact absurd hpc hm
  · simp only [ErrorExit,hpc]
    refine or_iff_not_imp_left.mpr fun ho => ?_
    by_contra hb
    obtain ⟨d,hd⟩ := ne_none_iff_exists'.mp fun hn => hb (isNone_iff_eq_none.mpr hn)
    rw [nameOf] at hd
    cases o <;> simp [createStep,hpc,hd] at h ho
    subst h
    cases f <;> simp [createAt,setCreate,afterBind] at hf
  · simp only [ErrorExit,hpc]
    cases o <;> simp [createStep,hpc] at h ⊢
    simp [← h.2,setCreate] at hf
  · simp only [ErrorExit,hpc]
    cases o <;> simp [createStep,hpc] at h ⊢
    simp [← h,createAt,setCreate] at hf
  · simp only [ErrorExit,hpc]
    refine isSome_iff_ne_none.mpr fun hs => ?_
    rw [nameOf] at hs
    cases o <;> simp [createStep,hpc,insertEntry,hs] at h
    simp [← h,createAt,setCreate] at hf

def MountsOwned (s : Daemon) : Prop :=
  ∀ n k,k∈makers (s.dirs n) → InFlight s k ∧ (s.creates k).tmpfs=true ∨ Inserted s k

def LeavesOwned (s : Daemon) : Prop :=
  ∀ n k,leafMaker s n=some k → nameOf s k=n ∧
    ((s.creates k).pc=.join ∨ (s.creates k).pc=.insert ∨ Inserted s k)

theorem mountsOwned_step (h0 : NoHandleYet s) (hc : Clean s a) (hs : MountsOwned s)
    (h : step s a=some t) : MountsOwned t := by
  intro n k hk
  have keep (hk : k∈makers (s.dirs n)) : InFlight t k ∧ (t.creates k).tmpfs=true ∨ Inserted t k := by
    rcases hs n k hk with ⟨hfl,hm⟩ | hi
    · rcases create_frame h k with he | ⟨args,_,hpc,_⟩ | ⟨o,rfl,hcase⟩
      · exact .inl ⟨by simpa only [InFlight,he] using hfl,by rw [he,hm]⟩
      · exact absurd hpc hfl.not_idle
      · rcases (create_phase hcase).2 with ⟨hp,_⟩ | ⟨hp,_⟩ | ⟨_,hp | hp⟩ | ⟨_,hp⟩ | ⟨hp,_⟩
        · simp [InFlight,hp,working] at hfl
        · simp [InFlight,hp,working] at hfl
        · exact .inl ⟨hp,create_tmpfs hcase hm⟩
        · -- an error exit: the condition says that there is no handle
          have hmk : (s.creates k).pc≠.mkdir := fun hp => by simp [h0 k (.inr (.inl hp))] at hm
          have := (hc.exit (errorExit_of_failed h hp hfl hmk)).1
          simp [hm] at this
        · exact .inr (.inl hp)
        · simp [InFlight,hp,working] at hfl
    · exact .inr (hi.stable h)
  rcases makers_after h n with ht | ⟨i,hpc,_,ht,hclear,hm⟩ | ht
  · exact keep (ht ▸ hk)
  · rcases mem_cons.mp (ht ▸ hk) with rfl | hk
    · exact .inl ⟨by simp [InFlight,hclear,working],hm⟩
    · exact keep hk
  · exact keep (mem_of_mem_tail (ht ▸ hk))

theorem leafMaker_after (h : step s a=some t) (hk : leafMaker t n=some k) :
    leafMaker s n=some k ∨ nameOf s k=n ∧ (s.creates k).pc=.cgroup ∧ (t.creates k).pc=.join := by
  unfold leafMaker at hk ⊢
  cases leaf_effect h n with
  | same ht => exact .inl (ht ▸ hk)
  | made i o hpc hn ht hcr =>
    cases hl : s.leaves n with
    | none =>
      rw [ht,hl] at hk
      obtain rfl : i=k := some.inj hk
      exact .inr ⟨hn,hpc,by rw [hcr]⟩
    | some =>
      rw [ht,hl] at hk
      exact .inl hk
  | joined i o _ _ ht | entered c o i _ _ ht =>
    rw [ht,Option.map_map] at hk
    exact .inl hk
  | removed i o _ _ _ ht => simp [ht] at hk

theorem leavesOwned_step (hc : Clean s a) (hs : LeavesOwned s) (h : step s a=some t) : LeavesOwned t := by
  intro n k hk
  rcases leafMaker_after h hk with hold | ⟨hn,hpc,hj⟩
  · obtain ⟨rfl,hpc | hpc | hi⟩ := hs n k hold
    · refine ⟨name_stable h (by simp [hpc]),?_⟩
      rcases create_frame h k with he | ⟨args,_,hidle,_⟩ | ⟨o,rfl,hcase⟩
      · exact .inl (by rw [he,hpc])
      · simp [hpc] at hidle
      · cases hcase with
        | join => exact .inr (.inl (by simp [createAt,setCreate]))
        | _ => simp_all
    · refine ⟨name_stable h (by simp [hpc]),?_⟩
      rcases create_frame h k with he | ⟨args,_,hidle,_⟩ | ⟨o,rfl,hcase⟩
      · exact .inr (.inl (by rw [he,hpc]))
      · simp [hpc] at hidle
      · cases hcase with
        | insert => exact .inr (.inr (.inl (by simp [createAt,setCreate])))
        | lost e _ he => exact absurd hold (hc.exit (by simp [ErrorExit,hpc,he])).2
        | _ => simp_all
    · exact ⟨name_stable h hi.not_idle,.inr (.inr (hi.stable h))⟩
  · exact ⟨(name_stable h (by simp [hpc])).trans hn,.inl hj⟩

theorem failed_no_row (w : Wf s) (r : Rows s) (hf : Failed s k) : s.procs.running (.session k)=false := by
  refine Bool.eq_false_iff.mpr fun hrun => ?_
  obtain ⟨x,hx,hp⟩ := any_eq_true.mp hrun
  obtain ⟨err,hpc⟩ := hf
  rcases (r.session_row x hx k (of_decide_eq_true hp).1).2 with hh | hh | hh
  · simp [hpc,spawned] at hh
  · exact ((w.sup_iff k).mp (by simp [hh])).not_failed ⟨err,hpc⟩
  · exact ((w.sup_iff k).mp (by simp [hh])).not_failed ⟨err,hpc⟩

def SocketNames (s : Daemon) : Prop :=
  ∀ n,∀ g∈sockets (s.dirs n),∀ f j,g f=some j → Home s n (.session j)

theorem mem_modifyHead {α : Type} {u : α → α} {l : List α} {x : α} (h : x∈l.modifyHead u) :
    x∈l ∨ ∃ y∈l,x=u y := by
  cases l with
  | nil => cases h
  | cons y =>
    rcases mem_cons.mp h with rfl | h
    · exact .inr ⟨y,mem_cons_self,rfl⟩
    · exact .inl (mem_cons_of_mem _ h)

theorem socketNames_step (w : Wf s) (r : Rows s) (hs : SocketNames s) (h : step s a=some t) : SocketNames t := by
  intro n g hg f j hj
  have old (hg : g∈sockets (s.dirs n)) : Home t n (.session j) := Home.stable h (hs n g hg f j hj)
  -- a write puts `v` under one path and leaves the others
  have write {c : Sock} {v : Option Inc} (hv : ∀ i,v=some i → Home t n (.session i))
      (ht : sockets (t.dirs n)=(sockets (s.dirs n)).modifyHead fun g => Function.update g c v) :
      Home t n (.session j) := by
    rcases mem_modifyHead (ht ▸ hg) with hg | ⟨g',hg',rfl⟩
    · exact old hg
    · by_cases hf : f=c
      · subst hf
        exact hv j (by simpa using hj)
      · rw [Function.update_of_ne hf] at hj
        exact Home.stable h (hs n g' hg' f j hj)
  cases socket_effect w r h n with
  | same ht => exact old (ht ▸ hg)
  | grown ht =>
    rcases mem_append.mp (ht ▸ hg) with hg | hg
    · exact old hg
    · simp [mem_singleton.mp hg] at hj
  | mounted i _ _ ht =>
    rcases mem_cons.mp (ht ▸ hg) with rfl | hg
    · cases hj
    · exact old hg
  | wiped ht =>
    rcases mem_cons.mp (ht ▸ hg) with rfl | hg
    · cases hj
    · exact old (mem_of_mem_tail hg)
  | unlinked c ht => exact write (by simp) ht
  | bound i c hn hseat ht =>
    refine write (fun i' hi => ?_) ht
    cases hi
    exact ⟨hseat.busy.not_idle (w.step h),hn⟩
  | popped ht => exact old (mem_of_mem_tail (ht ▸ hg))

theorem socketNames_reach {ok : Daemon → Act → Prop} (hr : Reach step ok (init m) s) : SocketNames s :=
  hr.invariant (by simp [SocketNames,sockets,init,SessionDir.absent]) fun hu hs _ h =>
    socketNames_step (wf_reach hu) (rows_reach hu) hs h

theorem seen_home (hs : SocketNames s) {f : Sock} (h : seen (s.dirs n) f=some j) : nameOf s j=n := by
  obtain ⟨g,hg,hj⟩ := bind_eq_some_iff.mp h
  exact (hs n g (mem_of_head? hg) f j hj).2

theorem seen_foreign (w : Wf s) (hs : SocketNames s) (ht : SocketNames t) (h : step s a=some t)
    (hd : AloneInDir s k) (hn : nameOf s k=n) (hne : j≠k) (hj : Seated s j) {f : Sock} :
    seen (t.dirs n) f=some j ↔ seen (s.dirs n) f=some j := by
  have hname : nameOf s j≠nameOf s k := fun he => hne (hd j hj he)
  have hstable:=name_stable h (hj.busy.not_idle w)
  refine ⟨fun hseen => absurd ?_ hname,fun hseen => absurd ?_ hname⟩
  · rw [← hstable,seen_home ht hseen,hn]
  · rw [seen_home hs hseen,hn]

section Harm
variable (w : Wf s) (hs : SocketNames s) (ht : SocketNames t)
include w hs ht

theorem create_harmless (hc : Clean s (.createStep k o)) (h : step s (.createStep k o)=some t) :
    Harmless s t k := by
  constructor
  case entry =>
    intro n e he
    cases entry_effect h n with
    | same hsame => rw [hsame]
    | inserted _ _ _ _ hnone hnew =>
      rw [hnew,hnone]
      refine ⟨fun heq => absurd ?_ he,fun heq => by cases heq⟩
      rw [← some.inj heq]
      rfl
  case mount =>
    intro n j hj
    cases dir_effect h n with
    | same hd => rw [hd]
    | made _ _ _ _ hd => rw [hd,makers_createDirAll]
    | mounted _ _ _ _ hd =>
      have hm : makers (t.dirs n)=k::makers (s.dirs n) := by rw [hd]; rfl
      simp [hm,hj]
    | cleared _ _ f _ _ hd => rw [hd,SessionDir.removeFile,makers_put]
    | bound _ _ f _ _ hd => rw [hd,SessionDir.rebind,makers_put]
  case leaf =>
    intro n j hj
    unfold leafMaker
    cases leaf_effect h n with
    | same hl => rw [hl]
    | made _ _ _ _ hl =>
      rw [hl]
      cases s.leaves n with
      | none => simp [Ne.symm hj]
      | some => simp
    | joined _ _ _ _ hl =>
      rw [hl,Option.map_map]
      rfl
  case socket =>
    intro n f j hj hseat
    have away {n : Name} (hn : nameOf s k=n) (hw : writing (s.creates k).pc=true) :
        seen (t.dirs n) f=some j ↔ seen (s.dirs n) f=some j :=
      seen_foreign w hs ht h (hc.call k o rfl hw) hn hj hseat
    cases dir_effect h n with
    | same hd => rw [hd]
    | made _ _ _ _ hd =>
      rw [hd]
      unfold seen
      rcases sockets_createDirAll (s.dirs n) k with hk | hk
      · rw [hk]
      · rw [hk]
        cases sockets (s.dirs n) <;> simp
    | mounted _ _ hpc hn | bound _ _ _ hpc hn => exact away hn (by rw [hpc]; rfl)
    | cleared _ _ f' hpc hn => exact away hn (by rcases hpc with hpc | hpc <;> rw [hpc] <;> rfl)

theorem process_harmless {f : Sock} (hc : Clean s (.sessionBind k f))
    (h : step s (.sessionBind k f)=some t) : Harmless s t k := by
  constructor
  case entry =>
    intro n e _
    cases entry_effect h n with
    | same hsame => rw [hsame]
  case mount =>
    intro n j _
    cases dir_effect h n with
    | same hd => rw [hd]
    | rebound _ _ _ _ hd => rw [hd,SessionDir.rebind,makers_put]
  case leaf =>
    intro n j _
    unfold leafMaker
    cases leaf_effect h n with
    | same hl => rw [hl]
  case socket =>
    intro n f' j hj hseat
    cases dir_effect h n with
    | same hd => rw [hd]
    | rebound _ _ hrun hn => exact seen_foreign w hs ht h (hc.process k f rfl hrun) hn hj hseat

end Harm

theorem noTrace_reach (hr : Reach step Clean (init m) s) (hf : Failed s k) : NoTrace s k := by
  have w:=wf_reach hr
  have hmount : MountsOwned s :=
    hr.invariant (by simp [MountsOwned,makers,init,SessionDir.absent]) fun hu hs ha h =>
      mountsOwned_step (noHandle_reach hu) ha hs h
  have hleaf : LeavesOwned s :=
    hr.keeps (by simp [LeavesOwned,leafMaker,init]) fun hs ha h =>
      leavesOwned_step ha hs h
  constructor
  case entry =>
    rintro n e he rfl
    exact (w.entry_inserted n e he).not_failed hf
  case mount =>
    intro n hk
    rcases hmount n k hk with ⟨hfl,_⟩ | hi
    · exact hfl.not_failed hf
    · exact hi.not_failed hf
  case leaf =>
    intro n hk
    obtain ⟨_,hpc | hpc | hi⟩ := hleaf n k hk
    · exact (inFlight_of_pc hpc rfl).not_failed hf
    · exact (inFlight_of_pc hpc rfl).not_failed hf
    · exact hi.not_failed hf
  case child => exact failed_no_row w (rows_reach hr) hf

theorem registered_seated (w : Wf s) (hj : Registered s j) : Seated s j := by
  obtain ⟨e,he,rfl⟩ := hj
  have harmed:=w.entry_armed _ e he
  refine .inr ?_
  revert harmed
  cases s.sups e.inc <;> simp [armed,seated]

/-- In every run whose steps are clean, a create call that returned an error has left nothing behind and
touched nothing of the others. -/
theorem failed_create_no_trace (hr : Reach step Clean (init m) s) :
    (∀ k,Failed s k → NoTrace s k) ∧ (∀ j,Registered s j → Seated s j) ∧
    ∀ k a t,(∃ o,a=.createStep k o) ∨ (∃ f,a=.sessionBind k f) → Clean s a →
      step s a=some t → Harmless s t k := by
  refine ⟨fun k hf => noTrace_reach hr hf,fun j hj => registered_seated (wf_reach hr) hj,
    fun k a t ha hc h => ?_⟩
  have hs:=socketNames_reach hr
  have ht:=socketNames_reach (.next hr hc h)
  rcases ha with ⟨o,rfl⟩ | ⟨f,rfl⟩
  · exact create_harmless (wf_reach hr) hs ht hc h
  · exact process_harmless (wf_reach hr) hs ht hc h

theorem aloneInDir_once (w : Wf s) (hd : OncePerName s) (hk : (s.creates k).pc≠.idle) : AloneInDir s k :=
  fun j hj hn => hd j k (hj.busy.not_idle w) hk hn

theorem clean_once (w : Wf s) (r : Rows s) (hd : OncePerName s) (he : ExitsBare s a) : Clean s a where
  exit := he
  call := fun k o _ hw => by
    apply aloneInDir_once w hd
    intro hidle
    simp [hidle,writing] at hw
  process := fun k f _ hrun => by
    obtain ⟨x,hx,hp⟩ := any_eq_true.mp hrun
    exact aloneInDir_once w hd ((r.session_row x hx k (of_decide_eq_true hp).1).2.not_idle w)

/-- One session is up; the session process of a second one never gets ready. -/
def neverReady : List Act :=
  createRun 0 10 (withMemCap "a")++Act.create 1 (plain "b")::List.replicate 10 (Act.createStep 1 .ok) ++
    ([.createStep 1 (.spawned 11),.sessionBind 1 .wayland,.createStep 1 .timedOut] : List Act)

theorem failed_create_no_trace_never_ready : ∃ s,Reach step Clean (init false) s ∧
    (s.creates 1).pc=.done (some .timedOut) ∧ NoTrace s 1 := by
  have hbare : Meets step ExitsBare (init false) neverReady := meets_decided (by decide +kernel)
  have hr : Reach step Clean (init false) _ := reach_exec neverReady (hbare.and (meets_once false
    (fun _ _ hu hd => clean_once (wf_reach hu) (rows_reach hu) hd) (by decide))|>.mono fun _ _ h => h.2 h.1) (by decide +kernel)
  refine ⟨_,hr,?_,(failed_create_no_trace hr).1 1 ⟨.timedOut,?_⟩⟩ <;> decide +kernel

/-- A create call with a disk quota whose ready socket cannot be bound. -/
def bindFails : List Act :=
  Act.create 0 (withQuota "a")::List.replicate 7 (Act.createStep 0 .ok)++([.createStep 0 .fail] : List Act)

theorem failed_create_leaves_tmpfs : ∃ s,Reach step Free (init false) s ∧
    (s.creates 0).pc=.done (some (.bind .ready)) ∧ ¬NoTrace s 0 := by
  have hr : Reach step Free (init false) _ := reach_free bindFails (by decide +kernel)
  refine ⟨_,hr,?_,fun hno => hno.mount "a" ?_⟩ <;> decide +kernel

end Waymux.Registry.FailedCreate
