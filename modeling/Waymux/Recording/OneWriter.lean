import Waymux.Recording.Threads

/-!
# One writer for each output

A recording that was stopped has its output open until its thread has finished.
-/

namespace Waymux.Recording.OneWriter
open Paths.Components Confinement Threads Interleave.Runs List
open Server.Messages (RecordingCodec)

variable {cfg : Config} {s t : State} {a : Act}

def Fresh (cfg : Config) (s : State) : Act → Prop
  | .recordStart path _ secondary _ _ => ∀ x∈s.threads,x.isLive=true →
      components x.path≠components (primaryPath cfg s path) ∧
      (secondary≠none → components x.path≠components (secondaryPath (primaryPath cfg s path)))
  | _ => True

instance (s : State) : (a : Act) → Decidable (Fresh cfg s a)
  | .recordStart path _ secondary _ _ => inferInstanceAs (Decidable (∀ x∈s.threads,x.isLive=true →
      components x.path≠components (primaryPath cfg s path) ∧
      (secondary≠none → components x.path≠components (secondaryPath (primaryPath cfg s path)))))
  | .second | .spawnSecondary _ | .recordStop | .shutdownRecording | .setStop _ | .thread _ _ | .viewerStart _ _
  | .viewerStop | .shutdownViewer | .viewerThread _ _ | .bridgeEnds _ => inferInstanceAs (Decidable True)

/-- No output changes hands, no thread comes back and no stop flag is reset. -/
structure Descends (xs ys : List Thread) : Prop where
  length : ys.length=xs.length
  thread : ∀ (i : Nat) (y : Thread),ys[i]?=some y → ∃ x : Thread,xs[i]?=some x ∧ x.path=y.path ∧
    (y.isLive=true → x.isLive=true) ∧ (x.stop=true → y.stop=true)

theorem descends_refl (xs : List Thread) : Descends xs xs := ⟨rfl,fun _ y hy => ⟨y,hy,rfl,id,id⟩⟩

variable {xs : List Thread} {i : Nat} {x : Thread} {path : Path} {codec : RecordingCodec}

theorem descends_modify {f : Thread → Thread} (hpath : ∀ x,(f x).path=x.path)
    (hlive : ∀ x,xs[i]?=some x → (f x).isLive=true → x.isLive=true)
    (hstop : ∀ x,x.stop=true → (f x).stop=true) : Descends xs (xs.modify i f) := by
  refine ⟨length_modify ..,fun j y hy => ?_⟩
  rw [getElem?_modify] at hy
  obtain ⟨x,hx,hxy⟩ := Option.map_eq_some_iff.mp hy
  refine ⟨x,hx,?_⟩
  by_cases hij : i=j
  · subst hij
    rw [if_pos rfl] at hxy
    subst hxy
    exact ⟨(hpath x).symm,hlive x hx,hstop x⟩
  · rw [if_neg hij] at hxy
    subst hxy
    exact ⟨rfl,id,id⟩

theorem Descends.stop {ys : List Thread} (h : Descends xs ys) (hx : xs[i]?=some x) (hs : x.stop=true) :
    ∃ y : Thread,ys[i]?=some y ∧ y.stop=true := by
  obtain ⟨hi,-⟩ := List.getElem?_eq_some_iff.mp hx
  obtain ⟨y,hy⟩ : ∃ y,ys[i]?=some y := ⟨_,getElem?_eq_getElem (h.length ▸ hi)⟩
  obtain ⟨x',hx',-,-,hstop⟩ := h.thread i y hy
  obtain rfl : x=x' := Option.some.inj (hx.symm.trans hx')
  exact ⟨y,hy,hstop hs⟩

theorem next_live {e : Event} {p : Phase} (h : x.next e=some p) : x.isLive=true := by
  by_contra hdead
  have hphase : x.phase=.returned := by simpa [Thread.isLive] using hdead
  cases e <;> simp [Thread.next,hphase] at h

theorem tellStop_descends (s : State) (i : Nat) : Descends s.threads (s.tellStop i).threads :=
  descends_modify (fun _ => rfl) (fun _ _ h => h) fun _ _ => rfl

theorem thread_descends {e : Event} {p : Phase} (h : s.threads[i]?.bind (·.next e)=some p) :
    Descends s.threads (s.threads.modify i fun x => {x with phase := p}) := by
  refine descends_modify (fun _ => rfl) (fun x hx _ => ?_) fun _ hs => hs
  rw [hx] at h
  exact next_live h

theorem getElem?_snoc {y : Thread} (h : (xs++[x])[i]?=some y) : xs[i]?=some y ∨ i=xs.length ∧ x=y := by
  rw [getElem?_append] at h
  split at h
  · exact .inl h
  · obtain ⟨hi,hx⟩ := List.getElem?_eq_some_iff.mp h
    refine .inr ⟨?_,?_⟩
    · have hone : i-xs.length<1 := hi
      omega
    · simpa using hx

structure Apart (s : State) : Prop where
  threads : ∀ (i j : Nat) (x y : Thread),i≠j → s.threads[i]?=some x → s.threads[j]?=some y →
    x.isLive=true → y.isLive=true → components x.path≠components y.path
  starting : ∀ st,s.starting=some st → ∀ (i : Nat) (x : Thread),s.threads[i]?=some x → x.isLive=true →
    components x.path≠components st.path

theorem Apart.descends (h : Apart s) (hd : Descends s.threads t.threads)
    (hs : t.starting=s.starting ∨ t.starting=none) : Apart t := by
  refine ⟨fun i j x y hij hx hy hlx hly => ?_,fun st hst i x hx hlx => ?_⟩
  · obtain ⟨x',hx',hpx,hlx',-⟩ := hd.thread i x hx
    obtain ⟨y',hy',hpy,hly',-⟩ := hd.thread j y hy
    rw [← hpx,← hpy]
    exact h.threads i j x' y' hij hx' hy' (hlx' hlx) (hly' hly)
  · obtain ⟨x',hx',hpx,hlx',-⟩ := hd.thread i x hx
    rw [← hpx]
    rcases hs with hs | hs
    · exact h.starting st (hs ▸ hst) i x' hx' (hlx' hlx)
    · cases hs.symm.trans hst

theorem Apart.spawned (h : Apart s)
    (hnew : ∀ (i : Nat) (x : Thread),s.threads[i]?=some x → x.isLive=true → components x.path≠components path)
    (hthreads : t.threads=(s.spawn path codec).threads)
    (hstarting : ∀ st,t.starting=some st → components path≠components st.path ∧
      ∀ (i : Nat) (x : Thread),s.threads[i]?=some x → x.isLive=true → components x.path≠components st.path) :
    Apart t := by
  have hcases : ∀ (i : Nat) (x : Thread),t.threads[i]?=some x →
      s.threads[i]?=some x ∨ i=s.threads.length ∧ x.path=path := by
    intro i x hx
    rw [hthreads] at hx
    rcases getElem?_snoc hx with hx | ⟨hi,rfl⟩
    · exact .inl hx
    · exact .inr ⟨hi,rfl⟩
  refine ⟨fun i j x y hij hx hy hlx hly => ?_,fun st hst i x hx hlx => ?_⟩
  · rcases hcases i x hx with hx | ⟨hi,hx⟩
    · rcases hcases j y hy with hy | ⟨-,hy⟩
      · exact h.threads i j x y hij hx hy hlx hly
      · exact hy ▸ hnew i x hx hlx
    · rcases hcases j y hy with hy | ⟨hj,-⟩
      · exact hx ▸ (hnew j y hy hly).symm
      · exact absurd (hi.trans hj.symm) hij
  · rcases hcases i x hx with hx | ⟨-,hx⟩
    · exact (hstarting st hst).2 i x hx hlx
    · exact hx ▸ (hstarting st hst).1

theorem Apart.recordStart {path : Option Path} {secondary : Option RecordingCodec} {probed spawned : Bool}
    (h : Apart s) (hok : Fresh cfg s (.recordStart path codec secondary probed spawned))
    (ht : recordStart cfg s path codec secondary probed spawned=some t) : Apart t := by
  have hfresh : ∀ (i : Nat) (x : Thread),s.threads[i]?=some x → x.isLive=true →
      components x.path≠components (primaryPath cfg s path) ∧
      (secondary≠none → components x.path≠components (secondaryPath (primaryPath cfg s path))) :=
    fun i x hx hl => hok x (mem_of_getElem? hx) hl
  cases hcase : recordStart_cases ht with
  | refused => exact h.descends (descends_refl _) (.inl rfl)
  | alone hlock =>
    refine h.spawned (fun i x hx hl => (hfresh i x hx hl).1) rfl fun st hst => ?_
    cases hlock.symm.trans hst
  | first sc hlock _ hsec =>
    have hacc : accepted cfg s path secondary=true := by
      refine recordStart_accepted ht fun he => ?_
      have hnone:=congrArg State.starting he
      cases hnone.trans hlock
    have hroot : hasRoot (primaryPath cfg s path)=true :=
      (validate_ok (validatePaths_ok (of_decide_eq_true hacc)).1).1
    refine h.spawned (fun i x hx hl => (hfresh i x hx hl).1) rfl fun st hst => ?_
    cases hst
    exact ⟨secondaryPath_ne hroot,fun i x hx hl => (hfresh i x hx hl).2 (by simp [hsec])⟩

theorem Apart.spawnSecondary (h : Apart s) {st : Starting} (hst : s.starting=some st) (spawned : Bool) :
    Apart (spawnSecondary s st spawned) := by
  unfold Threads.spawnSecondary
  split
  · exact h.spawned (h.starting st hst) rfl nofun
  · exact h.descends (tellStop_descends s st.primary) (.inr rfl)

theorem takeRecording_threads (s : State) :
    (takeRecording s).threads=s.threads ∧ (takeRecording s).starting=s.starting ∧
    (takeRecording s).refused=s.refused := by
  unfold takeRecording
  split <;> exact ⟨rfl,rfl,rfl⟩

theorem step_descends (ht : step cfg s a=some t) :
    (∃ path codec secondary probed spawned,a=.recordStart path codec secondary probed spawned ∧
      recordStart cfg s path codec secondary probed spawned=some t) ∨
    (∃ st spawned,s.starting=some st ∧ t=spawnSecondary s st spawned) ∨
    (Descends s.threads t.threads ∧ t.starting=s.starting ∧ t.refused=s.refused) := by
  cases step_turn ht with
  | recordStart ht => exact .inl ⟨_,_,_,_,_,rfl,ht⟩
  | spawnSecondary st spawned hst => exact .inr (.inl ⟨st,spawned,hst,rfl⟩)
  | taken =>
    obtain ⟨hx,hs,hr⟩ := takeRecording_threads s
    exact .inr (.inr ⟨hx ▸ descends_refl _,hs,hr⟩)
  | told i => exact .inr (.inr ⟨tellStop_descends s i,rfl,rfl⟩)
  | moved i e p hp => exact .inr (.inr ⟨thread_descends hp,rfl,rfl⟩)
  | elsewhere h => exact .inr (.inr ⟨h.threads ▸ descends_refl _,h.starting,h.refused⟩)

theorem apart_step (h : Apart s) (hok : Fresh cfg s a) (ht : step cfg s a=some t) : Apart t := by
  rcases step_descends ht with ⟨path,codec,secondary,probed,spawned,rfl,ht⟩ | ⟨st,spawned,hst,rfl⟩ |
    ⟨hd,hs,-⟩
  · exact h.recordStart hok ht
  · exact h.spawnSecondary hst spawned
  · exact h.descends hd (.inl hs)

structure Told (s : State) : Prop where
  refused : ∀ i,some i∈s.refused → ∃ x : Thread,s.threads[i]?=some x ∧ x.stop=true
  starting : ∀ st,s.starting=some st → st.primary<s.threads.length ∧ s.recording=none

theorem getElem?_spawn (h : s.threads[i]?=some x) : (s.spawn path codec).threads[i]?=some x := by
  obtain ⟨hi,-⟩ := List.getElem?_eq_some_iff.mp h
  show (s.threads++_)[i]?=some x
  rw [getElem?_append_left hi]
  exact h

theorem Told.spawned (h : Told s) (hthreads : t.threads=(s.spawn path codec).threads)
    (hrefused : t.refused=s.refused)
    (hstarting : ∀ st,t.starting=some st → st.primary<t.threads.length ∧ t.recording=none) : Told t := by
  refine ⟨fun i hi => ?_,hstarting⟩
  obtain ⟨x,hx,hs⟩ := h.refused i (hrefused ▸ hi)
  exact ⟨x,hthreads ▸ getElem?_spawn hx,hs⟩

theorem Told.recordStart {secondary : Option RecordingCodec} (h : Told s) (ht : StartCase s path codec secondary t) :
    Told t := by
  cases ht with
  | refused =>
    refine ⟨fun i hi => h.refused i ?_,h.starting⟩
    rcases mem_append.mp hi with hi | hi
    · exact hi
    · cases mem_singleton.mp hi
  | alone hlock =>
    refine h.spawned rfl rfl fun st hst => ?_
    cases hlock.symm.trans hst
  | first sc _ hslot =>
    refine h.spawned rfl rfl fun st hst => ?_
    cases hst
    refine ⟨?_,hslot⟩
    show s.threads.length<(s.threads++[_]).length
    rw [length_append,length_singleton]
    exact Nat.lt_succ_self _

theorem Told.spawnSecondary (h : Told s) {st : Starting} (hst : s.starting=some st) (spawned : Bool) :
    Told (spawnSecondary s st spawned) := by
  unfold Threads.spawnSecondary
  split
  · exact h.spawned rfl rfl nofun
  · refine ⟨fun i hi => ?_,nofun⟩
    rcases mem_append.mp hi with hi | hi
    · obtain ⟨x,hx,hs⟩ := h.refused i hi
      exact (tellStop_descends s st.primary).stop hx hs
    · obtain rfl : i=st.primary := Option.some.inj (mem_singleton.mp hi)
      obtain ⟨x,hx⟩ : ∃ x,s.threads[st.primary]?=some x :=
        ⟨_,getElem?_eq_getElem (h.starting st hst).1⟩
      refine ⟨{x with stop := true},?_,rfl⟩
      show (s.threads.modify _ _)[st.primary]?=_
      rw [getElem?_modify,hx]
      simp

theorem step_recording (ht : step cfg s a=some t) (hs : s.starting≠none) (hr : s.recording=none) :
    t.recording=none ∨ t.starting=none := by
  cases step_turn ht with
  | recordStart ht =>
    cases recordStart_cases ht with
    | refused => exact .inl hr
    | alone hlock | first _ hlock => exact absurd hlock hs
  | spawnSecondary =>
    unfold Threads.spawnSecondary
    split <;> exact .inr rfl
  | taken hlock => exact absurd hlock hs
  | elsewhere h => exact .inl (h.recording.trans hr)
  | _ => exact .inl hr

theorem told_step (h : Told s) (ht : step cfg s a=some t) : Told t := by
  rcases step_descends ht with ⟨path,codec,secondary,probed,spawned,rfl,ht⟩ | ⟨st,spawned,hst,rfl⟩ |
    ⟨hd,hs,hr⟩
  · exact h.recordStart (recordStart_cases ht)
  · exact h.spawnSecondary hst spawned
  · refine ⟨fun i hi => ?_,fun st hst => ?_⟩
    · obtain ⟨x,hx,hstop⟩ := h.refused i (hr ▸ hi)
      exact hd.stop hx hstop
    · obtain ⟨hlt,hnone⟩ := h.starting st (hs ▸ hst)
      refine ⟨hd.length.symm ▸ hlt,?_⟩
      rcases step_recording ht (by rw [← hs,hst]; nofun) hnone with hrec | hrec
      · exact hrec
      · cases hrec.symm.trans hst

theorem refused_recording {started : Option Nat} (ht : step cfg s a=some t)
    (hr : t.refused=s.refused++[started]) : t.recording=s.recording := by
  rcases step_descends ht with ⟨path,codec,secondary,probed,spawned,-,ht⟩ | ⟨st,spawned,hst,rfl⟩ |
    ⟨-,-,hsame⟩
  · cases recordStart_cases ht with
    | refused => rfl
    | _ => exact absurd hr (by simp [State.spawn])
  · cases spawned with
    | true => exact absurd hr (by simp [Threads.spawnSecondary,State.spawn])
    | false => rfl
  · exact absurd (hsame.symm.trans hr) (by simp)

/-- Only a request whose second thread cannot be started fails with a thread of its own. -/
theorem refused_started (ht : step cfg s a=some t) (hr : t.refused=s.refused++[some i]) :
    ∃ st,s.starting=some st := by
  rcases step_descends ht with ⟨path,codec,secondary,probed,spawned,-,ht⟩ | ⟨st,-,hst,-⟩ | ⟨-,-,hsame⟩
  · cases recordStart_cases ht <;> exact absurd hr (by simp [State.refuse,State.spawn])
  · exact ⟨st,hst⟩
  · exact absurd (hsame.symm.trans hr) (by simp)

theorem isLive_of_isOpen (h : x.isOpen=true) : x.isLive=true := by
  by_contra hdead
  have hphase : x.phase=.returned := by simpa [Thread.isLive] using hdead
  simp [Thread.isOpen,hphase] at h

/-- As long as a `RecordStart` names only outputs whose threads have returned, no two threads have one file
open, and one that fails leaves the slot as it was; where it had started a thread, the slot is empty and
the thread is told to stop. -/
theorem one_writer (h : Reach (step cfg) (Fresh cfg) start s) :
    (∀ (i j : Nat) (x y : Thread),i≠j → s.threads[i]?=some x → s.threads[j]?=some y →
      x.isOpen=true → y.isOpen=true → components x.path≠components y.path) ∧
    ∀ a t started,step cfg s a=some t → t.refused=s.refused++[started] →
      t.recording=s.recording ∧
      ∀ i,started=some i → t.recording=none ∧ ∃ x : Thread,t.threads[i]?=some x ∧ x.stop=true := by
  have hstart : Apart start ∧ Told start := by
    refine ⟨⟨fun i j x y _ hx => ?_,nofun⟩,⟨nofun,nofun⟩⟩
    cases hx
  have hinv : Apart s ∧ Told s := by
    refine h.keeps (I := fun s => Apart s ∧ Told s) hstart ?_
    intro _ _ _ hi hok ht
    exact ⟨apart_step hi.1 hok ht,told_step hi.2 ht⟩
  refine ⟨fun i j x y hij hx hy hox hoy => ?_,fun a t started ht hr => ⟨refused_recording ht hr,?_⟩⟩
  · exact hinv.1.threads i j x y hij hx hy (isLive_of_isOpen hox) (isLive_of_isOpen hoy)
  · intro i hi
    subst hi
    obtain ⟨st,hst⟩ := refused_started ht hr
    refine ⟨(refused_recording ht hr).trans (hinv.2.starting st hst).2,?_⟩
    exact (told_step hinv.2 ht).refused i (by rw [hr]; simp)

def desk : Config := ⟨"/home/u".toList,"desk".toList⟩

def opens (i : Nat) : List Act :=
  [.thread i (.check false),.thread i (.frame true),.thread i .creates]

def clip : Path := "/home/u/.local/share/waymux/recordings/clip.mkv".toList

/-- Two threads have their outputs open, and the second thread of a third recording cannot be started. -/
theorem one_writer_dual : ∃ s,Reach (step desk) (Fresh desk) start s ∧
    s.threads.map (·.isOpen)=[true,true,false] ∧
    (∀ t,step desk s (.spawnSecondary false)=some t → t.recording=none) := by
  obtain ⟨s,hs,hp,hmap⟩ := @reach_observed State Act (step desk) (Fresh desk) start
    (([.recordStart (some clip) .ffv1 (some .h264Vulkan) true true,.spawnSecondary true] : List Act)++opens 0 ++
      opens 1++([.recordStop,.setStop 0,.setStop 1,.recordStart none .ffv1 (some .ffv1) true true] : List Act))
    (fun s => s.threads.map (·.isOpen)=[true,true,false] ∧ s.starting.map (·.primary)=some 2) _
    (meets_decided (by decide +kernel))
    (by decide +kernel)
  refine ⟨s,hs,hp,fun t ht => (((one_writer hs).2 _ t (some 2) ht ?_).2 2 rfl).1⟩
  obtain ⟨st,hst,rfl⟩ := Option.map_eq_some_iff.mp ht
  obtain ⟨st',hst',hprimary⟩ := Option.map_eq_some_iff.mp hmap
  obtain rfl : st=st' := Option.some.inj (hst.symm.trans hst')
  rw [← hprimary]
  rfl

/-- The next recording is started on the same path, or within the second: both threads have the file open. -/
theorem two_writers :
    (∃ s,Reach (step desk) Free start s ∧ s.threads.map (fun x => (x.path,x.isOpen))=[(clip,true),(clip,true)]) ∧
    ∃ s,Reach (step desk) Free start s ∧ s.seconds=0 ∧ s.threads.map (·.isOpen)=[true,true] ∧
      (s.threads.map (·.path)).Pairwise (·=·) := by
  constructor
  · exact free_observed (([.recordStart (some clip) .ffv1 none true true] : List Act)++opens 0 ++
      ([.recordStop,.setStop 0,.recordStart (some clip) .ffv1 none true true] : List Act)++opens 1) (by decide +kernel)
  · exact free_observed (([.recordStart none .ffv1 none true true] : List Act)++opens 0 ++
      ([.recordStop,.setStop 0,.recordStart none .ffv1 none true true] : List Act)++opens 1) (by decide +kernel)

end Waymux.Recording.OneWriter
