import Waymux.Recording.OneWriter

/-!
# What the status says

The slots are cleared by requests only.
-/

namespace Waymux.Recording.Status
open Paths.Components Threads OneWriter Interleave.Runs Option List
open Server.Messages (RecordingCodec)

variable {cfg : Config} {s t : State} {a : Act}

/-- The thread of a slot, or of a `RecordStart` under way, does not leave by itself, and the bridge stays. -/
def lasting (s : State) : Act → Bool
  | .thread i e => !e.isOwnExit || !(s.recording.any (·.primary=i) || s.starting.any (·.primary=i))
  | .viewerThread i e => e≠.fails || !s.viewer.any (·.thread=i)
  | .bridgeEnds i => !s.viewer.any (·.thread=i)
  | _ => true

def Lasting (s : State) (a : Act) : Prop := lasting s a=true

def Running (xs : List Thread) (i : Nat) : Prop :=
  ∃ x : Thread,xs[i]?=some x ∧ x.stop=false ∧ x.phase≠.finishing ∧ x.phase≠.returned

variable {i : Nat} {path : Path} {codec : RecordingCodec} {e : Event} {p : Phase} {secondary : Option RecordingCodec}

theorem Running.lt {xs : List Thread} (h : Running xs i) : i<xs.length := by
  obtain ⟨x,hx,-⟩ := h
  exact (List.getElem?_eq_some_iff.mp hx).1

theorem Running.spawn (h : Running s.threads i) : Running (s.spawn path codec).threads i := by
  obtain ⟨x,hx,hrun⟩ := h
  exact ⟨x,getElem?_spawn hx,hrun⟩

theorem running_new (path : Path) (codec : RecordingCodec) : Running (s.spawn path codec).threads s.threads.length := by
  refine ⟨⟨path,codec,false,.waiting⟩,?_,rfl,nofun,nofun⟩
  show (s.threads++[_])[s.threads.length]?=_
  rw [getElem?_concat_length]

theorem Running.modify_other {xs : List Thread} {j : Nat} {f : Thread → Thread} (h : Running xs i) (hij : j≠i) :
    Running (xs.modify j f) i := by
  obtain ⟨x,hx,hrun⟩ := h
  refine ⟨x,?_,hrun⟩
  rw [getElem?_modify,hx]
  simp [hij]

theorem next_running {x : Thread} (h : x.next e=some p) (he : e.isOwnExit=false) (hs : x.stop=false)
    (hf : x.phase≠.finishing) : p≠.finishing ∧ p≠.returned := by
  cases e with
  | check late =>
    obtain rfl : late=false := he
    obtain ⟨-,h⟩ := ite_none_right_eq_some.mp h
    rw [hs] at h
    cases h
    exact ⟨nofun,nofun⟩
  | frame usable =>
    obtain ⟨-,h⟩ := ite_none_right_eq_some.mp h
    cases usable <;> · cases h; exact ⟨nofun,nofun⟩
  | creates | begins =>
    obtain ⟨-,h⟩ := ite_none_right_eq_some.mp h
    cases h
    exact ⟨nofun,nofun⟩
  | stopSeen =>
    obtain ⟨hp,-⟩ := ite_none_right_eq_some.mp h
    simp [hs] at hp
  | closes =>
    obtain ⟨hp,-⟩ := ite_none_right_eq_some.mp h
    exact absurd hp hf
  | _ => cases he

theorem Running.thread {j : Nat} (h : Running s.threads i) (hp : s.threads[j]?.bind (·.next e)=some p)
    (he : j=i → e.isOwnExit=false) : Running (s.threads.modify j fun x => {x with phase := p}) i := by
  by_cases hij : j=i
  · subst hij
    obtain ⟨x,hx,hs,hf,-⟩ := h
    rw [hx] at hp
    obtain ⟨hfin,hret⟩ := next_running hp (he rfl) hs hf
    refine ⟨{x with phase := p},?_,hs,hfin,hret⟩
    rw [getElem?_modify,hx]
    simp
  · exact h.modify_other hij

structure Slots (s : State) : Prop where
  recording : ∀ d,s.recording=some d → Running s.threads d.primary ∧ d.primary∉s.stopping ∧
    ∀ j,d.secondary=some j → j<s.threads.length
  starting : ∀ st,s.starting=some st → Running s.threads st.primary ∧ st.primary∉s.stopping ∧ s.recording=none
  stopping : ∀ i∈s.stopping,i<s.threads.length

theorem Slots.not_mem_new (h : Slots s) : s.threads.length∉s.stopping :=
  fun hm => absurd (h.stopping _ hm) (Nat.lt_irrefl _)

theorem spawn_length (s : State) (path : Path) (codec : RecordingCodec) :
    (s.spawn path codec).threads.length=s.threads.length+1 := by
  simp [State.spawn]

theorem Slots.stopping_spawn (h : Slots s) (path : Path) (codec : RecordingCodec) :
    ∀ i∈s.stopping,i<(s.spawn path codec).threads.length := by
  intro i hi
  have hlt:=h.stopping i hi
  rw [spawn_length]
  omega

theorem Slots.recordStart (h : Slots s) (ht : StartCase s path codec secondary t) : Slots t := by
  cases ht with
  | refused => exact ⟨h.recording,h.starting,h.stopping⟩
  | alone hlock =>
    refine ⟨fun d hd => ?_,fun st hst => ?_,h.stopping_spawn path codec⟩
    · cases hd
      exact ⟨running_new path codec,h.not_mem_new,nofun⟩
    · cases hlock.symm.trans hst
  | first sc _ hslot =>
    refine ⟨fun d hd => ?_,fun st hst => ?_,h.stopping_spawn path codec⟩
    · cases hslot.symm.trans hd
    · cases hst
      exact ⟨running_new path codec,h.not_mem_new,hslot⟩

theorem Slots.spawnSecondary (h : Slots s) {st : Starting} (hst : s.starting=some st) (spawned : Bool) :
    Slots (spawnSecondary s st spawned) := by
  obtain ⟨hrun,hnot,hslot⟩ := h.starting st hst
  unfold Threads.spawnSecondary
  split
  · refine ⟨fun d hd => ?_,nofun,h.stopping_spawn st.path st.codec⟩
    cases hd
    refine ⟨hrun.spawn,hnot,fun j hj => ?_⟩
    cases hj
    rw [spawn_length]
    exact Nat.lt_succ_self _
  · refine ⟨fun d hd => ?_,nofun,fun i hi => ?_⟩
    · cases hslot.symm.trans hd
    · exact (tellStop_descends s st.primary).length.symm ▸ h.stopping i hi

theorem Slots.takeRecording (h : Slots s) (hlock : s.starting=none) : Slots (takeRecording s) := by
  unfold Threads.takeRecording
  split
  · exact h
  · rename_i d hd
    obtain ⟨hrun,-,hsec⟩ := h.recording d hd
    refine ⟨nofun,fun st hst => ?_,fun i hi => ?_⟩
    · cases hlock.symm.trans hst
    · rcases mem_append.mp hi with hi | hi
      · exact h.stopping i hi
      · rcases mem_cons.mp hi with rfl | hi
        · exact hrun.lt
        · exact hsec i (mem_toList.mp hi)

theorem Slots.setStop (h : Slots s) (hi : i∈s.stopping) :
    Slots {s.tellStop i with stopping := s.stopping.erase i} := by
  have hlen : (s.tellStop i).threads.length=s.threads.length := (tellStop_descends s i).length
  -- the thread that is told has left its slot, so it is none of those looked at
  have hother : ∀ j,Running s.threads j ∧ j∉s.stopping →
      Running (s.tellStop i).threads j ∧ j∉s.stopping.erase i := by
    intro j hj
    refine ⟨hj.1.modify_other fun he => hj.2 (he ▸ hi),fun hm => hj.2 (mem_of_mem_erase hm)⟩
  refine ⟨fun d hd => ?_,fun st hst => ?_,fun j hj => ?_⟩
  · obtain ⟨hrun,hnot,hsec⟩ := h.recording d hd
    obtain ⟨hrun,hnot⟩ := hother d.primary ⟨hrun,hnot⟩
    exact ⟨hrun,hnot,fun j hj => hlen.symm ▸ hsec j hj⟩
  · obtain ⟨hrun,hnot,hslot⟩ := h.starting st hst
    obtain ⟨hrun,hnot⟩ := hother st.primary ⟨hrun,hnot⟩
    exact ⟨hrun,hnot,hslot⟩
  · exact hlen.symm ▸ h.stopping j (mem_of_mem_erase hj)

theorem Slots.thread (h : Slots s) (hok : Lasting s (.thread i e)) (hp : s.threads[i]?.bind (·.next e)=some p) :
    Slots {s with threads := s.threads.modify i fun x => {x with phase := p}} := by
  have hlen : (s.threads.modify i fun x => {x with phase := p}).length=s.threads.length := length_modify ..
  have hok : e.isOwnExit=false ∨
      ¬s.recording.any (·.primary=i)=true ∧ ¬s.starting.any (·.primary=i)=true := by
    simpa [Lasting,lasting] using hok
  refine ⟨fun d hd => ?_,fun st hst => ?_,fun j hj => hlen.symm ▸ h.stopping j hj⟩
  · obtain ⟨hrun,hnot,hsec⟩ := h.recording d hd
    refine ⟨hrun.thread hp fun he => hok.resolve_right fun hn => hn.1 ?_,hnot,fun j hj => hlen.symm ▸ hsec j hj⟩
    have hd : s.recording=some d := hd
    rw [hd]
    simp [he]
  · obtain ⟨hrun,hnot,hslot⟩ := h.starting st hst
    refine ⟨hrun.thread hp fun he => hok.resolve_right fun hn => hn.2 ?_,hnot,hslot⟩
    have hst : s.starting=some st := hst
    rw [hst]
    simp [he]

def ViewerRuns (s : State) : Prop :=
  ∀ h,s.viewer=some h → ∃ x : ViewerThread,s.viewers[h.thread]?=some x ∧ x.stop=false ∧
    (x.phase=.preparing ∨ x.phase=.streaming)

theorem ViewerRuns.start (h : ViewerRuns s) (url : String) (spawned : Bool) :
    ViewerRuns (viewerStart s url spawned) := by
  unfold viewerStart
  split
  · exact h
  · intro v hv
    cases hv
    refine ⟨⟨false,false,.preparing⟩,?_,rfl,.inl rfl⟩
    rw [getElem?_concat_length]

theorem ViewerRuns.take (h : ViewerRuns s) : ViewerRuns (takeViewer s) := by
  unfold takeViewer
  split
  · exact h
  · nofun

theorem viewerNext_runs {x y : ViewerThread} {e : ViewerEvent} (hx : x.next e=some y) (he : e≠.fails)
    (hs : x.stop=false) (hp : x.phase=.preparing ∨ x.phase=.streaming) :
    y.stop=false ∧ (y.phase=.preparing ∨ y.phase=.streaming) := by
  cases e with
  | ready =>
    obtain ⟨-,hx⟩ := ite_none_right_eq_some.mp hx
    cases hx
    exact ⟨hs,.inr rfl⟩
  | fails => exact absurd rfl he
  | stopSeen => simp [ViewerThread.next,hs] at hx
  | closes =>
    obtain ⟨hend,-⟩ := ite_none_right_eq_some.mp hx
    rcases hp with hp | hp <;> cases hend.symm.trans hp

theorem ViewerRuns.thread (h : ViewerRuns s) {e : ViewerEvent} {y : ViewerThread}
    (hok : Lasting s (.viewerThread i e)) (hy : s.viewers[i]?.bind (·.next e)=some y) :
    ViewerRuns {s with viewers := s.viewers.set i y} := by
  intro v hv
  have hv : s.viewer=some v := hv
  obtain ⟨x,hx,hs,hp⟩ := h v hv
  have hok : e≠.fails ∨ v.thread≠i := by
    simpa only [Lasting,lasting,hv,any_some,Bool.or_eq_true,Bool.not_eq_true',decide_eq_true_eq,
      decide_eq_false_iff_not] using hok
  by_cases hi : i=v.thread
  · subst hi
    rw [hx] at hy
    obtain ⟨hlt,-⟩ := List.getElem?_eq_some_iff.mp hx
    exact ⟨y,by simp [hlt],viewerNext_runs hy (hok.resolve_right fun hne => hne rfl) hs hp⟩
  · exact ⟨x,by simp [hi,hx],hs,hp⟩

theorem ViewerRuns.bridge (h : ViewerRuns s) (hok : Lasting s (.bridgeEnds i)) :
    ViewerRuns {s with viewers := s.viewers.modify i fun x => {x with stop := true, reader := false}} := by
  intro v hv
  have hv : s.viewer=some v := hv
  obtain ⟨x,hx,hs,hp⟩ := h v hv
  have hi : v.thread≠i := by simpa [Lasting,lasting,hv] using hok
  refine ⟨x,?_,hs,hp⟩
  rw [getElem?_modify,hx]
  simp [hi.symm]

theorem Slots.same (h : Slots s) (he : SameRecordings s t) : Slots t := by
  refine ⟨?_,?_,?_⟩
  · rw [he.recording,he.stopping,he.threads]
    exact h.recording
  · rw [he.recording,he.starting,he.stopping,he.threads]
    exact h.starting
  · rw [he.stopping,he.threads]
    exact h.stopping

theorem slots_step (h : Slots s) (hok : Lasting s a) (ht : step cfg s a=some t) : Slots t := by
  cases step_turn ht with
  | recordStart ht => exact h.recordStart (recordStart_cases ht)
  | spawnSecondary st spawned hst => exact h.spawnSecondary hst spawned
  | taken hlock => exact h.takeRecording hlock
  | told i hi => exact h.setStop hi
  | moved i e p hp => exact h.thread hok hp
  | elsewhere he => exact h.same he

theorem ViewerRuns.same (h : ViewerRuns s) (he : t.viewer=s.viewer ∧ t.viewers=s.viewers) : ViewerRuns t := by
  unfold ViewerRuns
  rw [he.1,he.2]
  exact h

theorem startCase_viewer (ht : StartCase s path codec secondary t) : t.viewer=s.viewer ∧ t.viewers=s.viewers := by
  cases ht <;> exact ⟨rfl,rfl⟩

theorem spawnSecondary_viewer (s : State) (st : Starting) (spawned : Bool) :
    (spawnSecondary s st spawned).viewer=s.viewer ∧ (spawnSecondary s st spawned).viewers=s.viewers := by
  unfold Threads.spawnSecondary
  split <;> exact ⟨rfl,rfl⟩

theorem takeRecording_viewer (s : State) :
    (takeRecording s).viewer=s.viewer ∧ (takeRecording s).viewers=s.viewers := by
  unfold takeRecording
  split <;> exact ⟨rfl,rfl⟩

theorem viewerRuns_step (h : ViewerRuns s) (hok : Lasting s a) (ht : step cfg s a=some t) : ViewerRuns t := by
  cases a with
  | viewerStart url spawned =>
    cases ht
    exact h.start url spawned
  | viewerStop | shutdownViewer =>
    cases ht
    exact h.take
  | viewerThread =>
    obtain ⟨y,hy,rfl⟩ := map_eq_some_iff.mp ht
    exact h.thread hok hy
  | bridgeEnds =>
    obtain ⟨-,ht⟩ := ite_none_right_eq_some.mp ht
    cases ht
    exact h.bridge hok
  | recordStart => exact h.same (startCase_viewer (recordStart_cases ht))
  -- requests and threads of recordings leave the viewers alone
  | spawnSecondary spawned =>
    obtain ⟨st,-,rfl⟩ := map_eq_some_iff.mp ht
    exact h.same (spawnSecondary_viewer s st spawned)
  | recordStop | shutdownRecording =>
    obtain ⟨-,ht⟩ := ite_none_left_eq_some.mp ht
    cases ht
    exact h.same (takeRecording_viewer s)
  | setStop =>
    obtain ⟨-,ht⟩ := ite_none_right_eq_some.mp ht
    cases ht
    exact h.same ⟨rfl,rfl⟩
  | thread =>
    obtain ⟨p,-,rfl⟩ := map_eq_some_iff.mp ht
    exact h.same ⟨rfl,rfl⟩
  | second =>
    cases ht
    exact h.same ⟨rfl,rfl⟩

theorem status_reach (h : Reach (step cfg) Lasting start s) : Slots s ∧ ViewerRuns s := by
  refine h.keeps (I := fun s => Slots s ∧ ViewerRuns s) ⟨⟨nofun,nofun,nofun⟩,nofun⟩ ?_
  intro _ _ _ hi hok ht
  exact ⟨slots_step hi.1 hok ht,viewerRuns_step hi.2 hok ht⟩

theorem recordStart_blocked {path : Option Path} (hacc : accepted cfg s path secondary=true)
    (ht : recordStart cfg s path codec secondary true true=some t) (hsame : t.threads=s.threads) :
    ∃ d,s.recording=some d := by
  rw [← isSome_iff_exists]
  by_contra hfree
  have hfree : s.recording.isSome=false := by simpa using hfree
  have hspawned : t.threads.length=s.threads.length+1 := by
    unfold recordStart at ht
    simp only [hacc,hfree,Bool.and_self,Bool.not_true,Bool.or_self,Bool.false_eq_true,if_false] at ht
    split at ht
    · cases ht
    · cases secondary <;> · cases ht; exact spawn_length s _ codec
  rw [hsame] at hspawned
  omega

theorem viewerStart_blocked {url : String} (hsame : (viewerStart s url true).viewers=s.viewers) :
    ∃ v,s.viewer=some v := by
  rw [← isSome_iff_exists]
  by_contra hfree
  have hlen : (viewerStart s url true).viewers.length=s.viewers.length+1 := by
    simp [viewerStart,hfree]
  rw [hsame] at hlen
  omega

/-- As long as the threads of the slots do not end on their own, the threads reported have not returned, and
a request that is turned away meets such a thread. -/
theorem status_truthful (h : Reach (step cfg) Lasting start s) :
    ((recordStatus s).recording=true →
      ∃ d x,s.recording=some d ∧ s.threads[d.primary]?=some x ∧ x.isLive=true) ∧
    (∀ url,viewerStatus s=some url →
      ∃ v x,s.viewer=some v ∧ v.url=url ∧ s.viewers[v.thread]?=some x ∧ x.phase≠.returned) ∧
    (∀ path codec secondary t,accepted cfg s path secondary=true →
      step cfg s (.recordStart path codec secondary true true)=some t → t.threads=s.threads →
      ∃ d x,s.recording=some d ∧ s.threads[d.primary]?=some x ∧ x.isLive=true) ∧
    (∀ url t,step cfg s (.viewerStart url true)=some t → t.viewers=s.viewers →
      ∃ v x,s.viewer=some v ∧ s.viewers[v.thread]?=some x ∧ x.phase≠.returned) := by
  obtain ⟨hslots,hviewer⟩ := status_reach h
  have hlive : ∀ d,s.recording=some d → ∃ x : Thread,s.threads[d.primary]?=some x ∧ x.isLive=true := by
    intro d hd
    obtain ⟨x,hx,-,-,hret⟩ := (hslots.recording d hd).1
    exact ⟨x,hx,decide_eq_true hret⟩
  have hstream : ∀ v,s.viewer=some v →
      ∃ x : ViewerThread,s.viewers[v.thread]?=some x ∧ x.phase≠.returned := by
    intro v hv
    obtain ⟨x,hx,-,hp⟩ := hviewer v hv
    refine ⟨x,hx,fun hret => ?_⟩
    rw [hret] at hp
    rcases hp with hp | hp <;> cases hp
  refine ⟨fun hr => ?_,fun url hu => ?_,fun path codec secondary t hacc ht hsame => ?_,fun url t ht hsame => ?_⟩
  · obtain ⟨d,hd⟩ : ∃ d,s.recording=some d := by
      cases hrec : s.recording with
      | none => simp [recordStatus,hrec] at hr
      | some d => exact ⟨d,rfl⟩
    obtain ⟨x,hx⟩ := hlive d hd
    exact ⟨d,x,hd,hx⟩
  · obtain ⟨v,hv,hurl⟩ := map_eq_some_iff.mp hu
    obtain ⟨x,hx⟩ := hstream v hv
    exact ⟨v,x,hv,hurl,hx⟩
  · obtain ⟨d,hd⟩ := recordStart_blocked hacc ht hsame
    obtain ⟨x,hx⟩ := hlive d hd
    exact ⟨d,x,hd,hx⟩
  · cases ht
    obtain ⟨v,hv⟩ := viewerStart_blocked hsame
    obtain ⟨x,hx⟩ := hstream v hv
    exact ⟨v,x,hv,hx⟩

/-- A dual recording of which the second thread has gone, and a viewer that
streams. -/
theorem status_truthful_dual : ∃ s,Reach (step desk) Lasting start s ∧ (recordStatus s).recording=true ∧
    viewerStatus s=some "ws://b" ∧ (s.threads.map (·.isLive)=[true,false]) ∧
    ∃ d x,s.recording=some d ∧ s.threads[d.primary]?=some x ∧ x.isLive=true := by
  have hs : Reach (step desk) Lasting start _ := reach_exec
    (([.recordStart (some clip) .ffv1 (some .h264Vulkan) true true,.spawnSecondary true,
        .viewerStart "ws://a" true,.viewerStop,.viewerStart "ws://b" true,.viewerThread 1 .ready] : List Act) ++
      opens 0++([.thread 0 .begins,.thread 1 (.check true),.viewerThread 0 .stopSeen] : List Act))
    (meets_of_checked (fun _ _ h => h) (by decide +kernel)) (by decide +kernel)
  refine ⟨_,hs,?_,?_,?_,(status_truthful hs).1 ?_⟩ <;> decide +kernel

/-- The first frame does not come in time, the bridge closes its socket: both threads are still reported,
and the next requests start nothing. -/
theorem status_of_returned : ∃ s,Reach (step desk) Free start s ∧ (recordStatus s).recording=true ∧
    s.recording.map (·.primary)=some 0 ∧ s.threads.map (·.isLive)=[false] ∧
    viewerStatus s=some "ws://a" ∧ s.viewer.map (·.thread)=some 0 ∧ s.viewers.map (·.phase)=[.returned] ∧
    step desk s (.recordStart (some clip) .ffv1 none true true)=some (s.refuse none) ∧
    step desk s (.viewerStart "ws://b" true)=some s :=
  free_observed
    [.recordStart none .ffv1 none true true,.thread 0 (.check false),.thread 0 (.frame false),
      .thread 0 (.check true),.viewerStart "ws://a" true,.viewerThread 0 .ready,.bridgeEnds 0,
      .viewerThread 0 .stopSeen,.viewerThread 0 .closes] (by decide +kernel)

end Waymux.Recording.Status
