import Waymux.Session.Presentation

/-!
# What the steps of a presentation do

Every step with what it found and the state it leaves.
-/

namespace Waymux.Session.PresentationCases
open BufferRelease (Job job_eq)
open Presentation Option

variable {kind : Nat → BufferKind} {s t : State} {a : Act}

theorem dispatching_iff : s.dispatching=true ↔ s.compositor=.idle ∧ s.api.idle compositorThread=true := by
  simp [State.dispatching]

theorem serving_iff : s.serving=true ↔ s.server=.idle ∧ s.api.idle serverThread=true := by
  simp [State.serving]

theorem viewAt_iff {v : View} : s.viewAt v=true ↔ s.view=v ∧ s.api.idle viewThread=true := by
  simp [State.viewAt]

theorem unref_cases (s : State) (th h : Nat) :
    (∃ hold,s.holds[h]?=some hold ∧ hold.refs≤1 ∧
      s.unref th h={s with
        holds := s.holds.set h {hold with refs := 0}
        api := s.api.dropBufferHold th hold.buf
        drops := s.drops++if hold.wrapped then
          [⟨hold.buf,s.api.alive hold.buf && s.api.pinned.count hold.buf=1,s.api.log.length⟩] else []}) ∨
    ∃ hs,s.unref th h={s with holds := hs} := by
  unfold State.unref
  split
  next hold hh =>
    split
    next hr => exact .inl ⟨hold,hh,hr,rfl⟩
    · exact .inr ⟨_,rfl⟩
  · exact .inr ⟨s.holds,rfl⟩

theorem runRelease_eq {i : Nat} (h : runRelease i s=some t) : ∃ th j,s.api.jobs[i]?=some (th,j) ∧
    t=s.afterJob j (s.api.perform i th j) := by
  unfold runRelease at h
  split at h
  next th j hj =>
    obtain ⟨api,ha,rfl⟩ := map_eq_some_iff.mp h
    obtain ⟨th',j',hj',rfl⟩ := job_eq (i := i) ha
    obtain ⟨rfl,rfl⟩ := Prod.mk.inj (some.inj (hj.symm.trans hj'))
    exact ⟨th,j,hj,rfl⟩
  · cases h

inductive StepCase (kind : Nat → BufferKind) (s : State) : Act → State → Prop
  | attach (x : Nat) (buffer : Option Nat) (hd : s.dispatching=true) :
      StepCase kind s (.attach x buffer) (s.setSurface x {s.surfaces x with pendingBuffer := buffer})
  | setReleasePoint (x : Nat) (hd : s.dispatching=true) :
      StepCase kind s (.setReleasePoint x) (s.setSurface x {s.surfaces x with pendingRelease := true})
  | destroyBuffer (b : Nat) (hd : s.dispatching=true) :
      StepCase kind s (.destroyBuffer b) {s with api := s.api.destroy b}
  | committed (x nb : Nat) (hd : s.dispatching=true) (hn : (s.surfaces x).pendingBuffer=some nb) :
      StepCase kind s (.commit x) (s.promote kind x nb)
  | unbuffered (x : Nat) (hd : s.dispatching=true) (hn : (s.surfaces x).pendingBuffer=none) :
      StepCase kind s (.commit x) (s.promoteNothing x)
  | noted (x cur p : Nat) (hc : s.compositor=.promoted x cur (some p)) :
      StepCase kind s .notePoint {s with api := s.api.noteBufferReleasePoint cur p, compositor := .noted x cur}
  | unnoted (x cur : Nat) (hc : s.compositor=.promoted x cur none) :
      StepCase kind s .notePoint {s with compositor := .noted x cur}
  | attached (x cur : Nat) (hc : s.compositor=.noted x cur) (hk : kind cur=.dmabuf)
      (hw : s.outerWake.isSome=true) : StepCase kind s .checkAttached {s with compositor := .attached x cur}
  | unattached (x cur : Nat) (hc : s.compositor=.noted x cur) :
      StepCase kind s .checkAttached {s with compositor := .tapping x (some cur)}
  | queueRelease (x cur : Nat) (hc : s.compositor=.attached x cur) :
      StepCase kind s .queueRelease
        {s with api := s.api.queueDeferredRelease cur, compositor := .tapping x none}
  | tap (x : Nat) (r : Option Nat) (b : Nat) (hc : s.compositor=.tapping x r)
      (hb : (s.surfaces x).currentBuffer=some b) (hk : kind b=.dmabuf) :
      StepCase kind s .tap (s.pin b)
  | prime (x b : Nat) (hb : (s.surfaces x).currentBuffer=some b) (hk : kind b=.dmabuf)
      (hl : s.compositor.locked≠some x) : StepCase kind s (.prime x) (s.pin b)
  | endTap (x : Nat) (release : Option Nat) (hc : s.compositor=.tapping x release) :
      StepCase kind s .endTap
        {s with api := releaseAll s.api compositorThread release.toList, compositor := .damaging}
  | recordDamage (now : Nat) (hc : s.compositor=.damaging) :
      StepCase kind s (.recordDamage now) {s with lastDamage := now, compositor := .idle}
  | setRecording (on : Bool) : StepCase kind s (.setRecording on) {s with recording := on}
  | recorderDrop (th h : Nat) :
      StepCase kind s (.recorderDrop th h) (({s with recorder := s.recorder.erase h} : State).unref th h)
  | request (spawn : Bool) (hg : s.serving=true) :
      StepCase kind s (.request spawn)
        {s with activeView := false, stop := s.stop || s.activeView, server := .joining spawn}
  | sweep (hg : s.serving=true) :
      StepCase kind s .sweep {s with activeView := false, server := .joining false}
  | spawned (hv : s.view=.absent) (hs : s.server=.joining true) :
      StepCase kind s .join {s with
        server := .idle, activeView := true, stop := false, views := s.views+1, view := .starting}
  | joined (hv : s.view=.absent) (hs : s.server=.joining false) :
      StepCase kind s .join {s with server := .unsetting}
  | unset (hs : s.server=.unsetting) :
      StepCase kind s .unset
        {s with outerWake := none, server := if s.outerWake.isSome then .draining else .idle}
  | drain (hs : s.server=.draining) :
      StepCase kind s .drain {s with api := s.api.flushPendingReleases serverThread, server := .announcing}
  | announceGone (hs : s.server=.announcing) :
      StepCase kind s .announceGone {s with occluded := s.occluded++[true], server := .idle}
  | fail (hv : s.view=.starting) : StepCase kind s .fail {s with view := .absent}
  | install (w h : Nat) (hv : s.view=.starting) :
      StepCase kind s (.install w h) {s with
        outerWake := some s.views
        loop := FrameLoop.start w h
        view := .installed s.outerWake.isNone}
  | announce (new : Bool) (hv : s.view=.installed new) :
      StepCase kind s .announce
        {s with occluded := s.occluded++(if new then [false] else []), view := .looping}
  | frameDone (cb : Nat) (l : FrameLoop.Loop) (hv : s.viewAt .looping=true) :
      StepCase kind s (.frameDone cb) {s with loop := l}
  | slotReleased (i : Fin 2) (l : FrameLoop.Loop) (hv : s.viewAt .looping=true) :
      StepCase kind s (.slotReleased i) {s with loop := l}
  | observe (l : FrameLoop.Loop) (hv : s.viewAt .looping=true) : StepCase kind s .observe {s with loop := l}
  | close (hv : s.viewAt .looping=true) : StepCase kind s .close {s with stop := true}
  | freeOuter (k : Nat) (o : OuterBuffer) (ho : s.inflight[k]?=some o) :
      StepCase kind s (.freeOuter k) {s with inflight := s.inflight.set k {o with freed := true}}
  | directs (k : Nat) (o : OuterBuffer) (bufs : List Nat) (ho : s.inflight[k]?=some o)
      (hv : s.viewAt .looping=true ∨ s.viewAt .leaving=true) (hr : o.releases=.direct bufs) :
      StepCase kind s (.outerReleased k)
        {s with api := releaseAll s.api viewThread bufs, inflight := s.inflight.eraseIdx k}
  | refcounted (k : Nat) (o : OuterBuffer) (holds : List Nat) (ho : s.inflight[k]?=some o)
      (hv : s.viewAt .looping=true ∨ s.viewAt .leaving=true) (hr : o.releases=.refcounted holds) :
      StepCase kind s (.outerReleased k)
        {s with view := .dropping holds (resumed s.view), inflight := s.inflight.eraseIdx k}
  | begun (l : FrameLoop.Loop) (hv : s.viewAt .looping=true) :
      StepCase kind s .begin {s with loop := l, view := .choosing}
  | undamaged (l : FrameLoop.Loop) (hv : s.viewAt .looping=true) :
      StepCase kind s .begin
        {s with loop := l, api := s.api.flushPendingReleases viewThread, view := .looping}
  | cloneDmabuf (x b : Nat) (hv : s.view=.choosing) (hb : (s.surfaces x).currentBuffer=some b)
      (hk : kind b=.dmabuf) (hl : s.compositor.locked≠some x) :
      StepCase kind s (.cloneDmabuf x) {s with view := .forwarding b}
  | split (b : Nat) (hv : s.view=.forwarding b) :
      StepCase kind s .split {s with
        api := s.api.takePendingReleasesSplit viewThread b
        view := .skipping b (s.api.pending.filter (·=b))}
  | recorded (b : Nat) (deferred : List Nat) (hv : s.view=.skipping b deferred) :
      StepCase kind s .decideRecording {s with view := .wrapping b deferred []}
  | unrecorded (b : Nat) (deferred : List Nat) (hv : s.view=.skipping b deferred) :
      StepCase kind s .decideRecording {s with view := .committing b deferred}
  | wrap (b d : Nat) (left holds : List Nat) (hv : s.view=.wrapping b (d::left) holds) :
      StepCase kind s .wrap {s with
        api := s.api.registerBufferHold d
        holds := s.holds++[⟨d,2,true⟩]
        view := .wrapping b left (holds++[s.holds.length])}
  | wrappedCommit (w h : Nat) (al : Bool) (b : Nat) (holds : List Nat) (hv : s.view=.wrapping b [] holds) :
      StepCase kind s (.outerCommit w h al) (s.commitOuter b (.refcounted holds) holds w h al)
  | directCommit (w h : Nat) (al : Bool) (b : Nat) (deferred : List Nat) (hv : s.view=.committing b deferred) :
      StepCase kind s (.outerCommit w h al) (s.commitOuter b (.direct deferred) [] w h al)
  | push (second : Bool) (holds : List Nat) (hs : List Hold) (rs : List Nat) (hv : s.view=.pushing holds) :
      StepCase kind s (.push second) {s with holds := hs, recorder := rs, view := .looping}
  | window (hv : s.view=.choosing) :
      StepCase kind s .window {s with api := s.api.flushPendingReleases viewThread, view := .compositing}
  | composite (w h : Nat) (al co : Bool) (hv : s.viewAt .compositing=true) :
      StepCase kind s (.composite w h al co) {s with loop := s.loop.composite w h al co, view := .looping}
  | stillEmpty (hv : s.view=.choosing) :
      StepCase kind s .noWindow {s with loop := s.loop.empty, view := .looping}
  | noWindow (hv : s.view=.choosing) :
      StepCase kind s .noWindow {s with api := s.api.flushPendingReleases viewThread, view := .emptying}
  | placeholder (hv : s.viewAt .emptying=true) :
      StepCase kind s .placeholder {s with loop := s.loop.empty, view := .looping}
  | dropNext (h : Nat) (left : List Nat) (next : Next) (hv : s.view=.dropping (h::left) next) :
      StepCase kind s .dropNext (({s with view := .dropping left next} : State).unref viewThread h)
  | dropped (next : Next) (hv : s.view=.dropping [] next) (hi : s.api.idle viewThread=true) :
      StepCase kind s .dropNext {s with view := next.view}
  | leave (hv : s.viewAt .looping=true) : StepCase kind s .leave {s with view := .exiting}
  | clear (hv : s.view=.exiting) :
      StepCase kind s .clear {s with
        outerWake := if s.outerWake=some s.views then none else s.outerWake, view := .leaving}
  | finish (hv : s.viewAt .leaving=true) : StepCase kind s .finish s.tearDown
  | panicked (hv : s.viewAt .looping=true) : StepCase kind s .panicked s.tearDown
  | job (i th : Nat) (j : Job) (hj : s.api.jobs[i]?=some (th,j)) :
      StepCase kind s (.job i) (s.afterJob j (s.api.perform i th j))

theorem step_cases (h : step kind s a=some t) : StepCase kind s a t := by
  cases a with
  | attach | setReleasePoint | destroyBuffer | request | close | composite | placeholder | leave | finish | panicked =>
    obtain ⟨hg,⟨⟩⟩ := ite_none_right_eq_some.mp h
    constructor
    exact hg
  | recordDamage | sweep | announceGone =>
    obtain ⟨hg,⟨⟩⟩ := ite_none_right_eq_some.mp h
    constructor
    exact hg.1
  | frameDone | slotReleased | observe =>
    obtain ⟨hv,h⟩ := ite_none_right_eq_some.mp h
    obtain ⟨l,-,rfl⟩ := map_eq_some_iff.mp h
    constructor
    exact hv
  -- one branch of one match, with what it has found in the state
  | queueRelease | endTap | unset | drain | fail | install | announce | freeOuter | split | wrap | push | window
  | clear =>
    simp only [step,queueRelease,endTap,Presentation.unset,drain,Presentation.fail,install,announce,freeOuter,
      Presentation.split,wrap,push,window,Presentation.clear] at h
    split at h <;> cases h
    constructor
    assumption
  | commit x =>
    obtain ⟨hd,h⟩ := ite_none_right_eq_some.mp h
    split at h <;> cases h
    · exact .committed x _ hd ‹_›
    · exact .unbuffered x hd ‹_›
  | notePoint =>
    simp only [step,notePoint] at h
    split at h
    next x cur point hc =>
      obtain ⟨-,⟨⟩⟩ := ite_none_right_eq_some.mp h
      cases point with
      | some p => exact .noted x cur p hc
      | none => exact .unnoted x cur hc
    · cases h
  | checkAttached =>
    simp only [step,checkAttached] at h
    split at h <;> cases h
    split
    next x cur hc ha => exact .attached x cur hc ha.1 ha.2
    next x cur hc ha => exact .unattached x cur hc
  | tap =>
    simp only [step,tap] at h
    repeat' split at h
    all_goals cases h
    exact .tap _ _ _ ‹_› ‹_› ‹_›
  | prime x =>
    simp only [step,prime] at h
    split at h
    next b hb =>
      obtain ⟨⟨hk,hl⟩,⟨⟩⟩ := ite_none_right_eq_some.mp h
      exact .prime x b hb hk hl
    · cases h
  | setRecording on =>
    cases h
    exact .setRecording on
  | recorderDrop th hd =>
    obtain ⟨-,⟨⟩⟩ := ite_none_right_eq_some.mp h
    exact .recorderDrop th hd
  | join =>
    simp only [step,Presentation.join] at h
    split at h <;> cases h
    · exact .spawned ‹_› ‹_›
    · exact .joined ‹_› ‹_›
  | outerReleased k =>
    simp only [step,outerReleased] at h
    split at h
    next o ho =>
      obtain ⟨hg,h⟩ := ite_none_right_eq_some.mp h
      split at h <;> cases h
      · exact .directs k o _ ho hg.2 ‹_›
      · exact .refcounted k o _ ho hg.2 ‹_›
    · cases h
  | begin =>
    obtain ⟨hv,h⟩ := ite_none_right_eq_some.mp h
    obtain ⟨l,-,rfl⟩ := map_eq_some_iff.mp h
    cases l.committing with
    | true => exact .begun l hv
    | false => exact .undamaged l hv
  | cloneDmabuf x =>
    simp only [step,cloneDmabuf] at h
    split at h
    next b hv hb =>
      obtain ⟨hg,⟨⟩⟩ := ite_none_right_eq_some.mp h
      exact .cloneDmabuf x b hv hb hg.1 hg.2
    · cases h
  | decideRecording =>
    simp only [step,decideRecording] at h
    split at h
    next b deferred hv =>
      obtain ⟨-,⟨⟩⟩ := ite_none_right_eq_some.mp h
      split
      · exact .recorded b deferred hv
      · exact .unrecorded b deferred hv
    · cases h
  | outerCommit w hh al =>
    simp only [step,outerCommit] at h
    split at h <;> cases h
    · exact .wrappedCommit w hh al _ _ ‹_›
    · exact .directCommit w hh al _ _ ‹_›
  | noWindow =>
    simp only [step,noWindow] at h
    repeat' split at h
    all_goals cases h
    · exact .stillEmpty ‹_›
    · exact .noWindow ‹_›
  | dropNext =>
    simp only [step,dropNext] at h
    split at h
    · obtain ⟨-,⟨⟩⟩ := ite_none_right_eq_some.mp h
      exact .dropNext _ _ _ ‹_›
    · obtain ⟨hi,⟨⟩⟩ := ite_none_right_eq_some.mp h
      exact .dropped _ ‹_› hi
    · cases h
  | job i =>
    obtain ⟨th,j,hj,rfl⟩ := runRelease_eq h
    exact .job i th j hj

end Waymux.Session.PresentationCases
