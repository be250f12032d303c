import Waymux.Interleave.Runs

/-!
# Holds and releases of inner buffers (`State::release_inner_buffer` and around it)

The hold counts, the release points and the deferred releases of `State`, each under its own mutex. A
call of `release_inner_buffer` is a job that goes from one section to the next; `buf.release()` and the
signal of a point are steps.
-/

namespace Waymux.Session.BufferRelease
open Interleave.Runs List Function

/-- `BufferHoldState` -/
structure HoldState where
  count : Nat
  releaseRequested : Bool
  deriving DecidableEq, Repr

/-- Where a release stands: `is_alive` and the hold section of
`release_inner_buffer`, then `is_alive` and the signal section of
`do_release_inner_buffer`, `buf.release()` and `s.signal()`. -/
inductive Job
  | enter (b : Nat)
  | gate (b : Nat)
  | start (b : Nat)
  | pop (b : Nat)
  | send (b : Nat) (point : Option Nat)
  | signal (b point : Nat)
  deriving DecidableEq, Repr

/-- What reached the client, with the holds that were live on the buffer. -/
inductive Emission
  | release (b pins : Nat)
  | signal (b point pins : Nat)
  deriving DecidableEq, Repr

def Emission.pins : Emission → Nat
  | .release _ pins => pins
  | .signal _ _ pins => pins

structure Api where
  alive : Nat → Bool
  /-- `buffer_hold_state` -/
  holds : Nat → Option HoldState
  /-- `buffer_release_signals`: the queues of all buffers, as pairs of buffer and point -/
  signals : List (Nat × Nat)
  /-- `pending_dmabuf_releases` -/
  pending : List Nat
  /-- releases in progress, each with its thread; a thread runs its own in order -/
  jobs : List (Nat × Job)
  -- observed only
  /-- the buffers of the holds that were registered and not dropped -/
  pinned : List Nat
  log : List Emission

def init : Api where
  alive _ := true
  holds _ := none
  signals := []
  pending := []
  jobs := []
  pinned := []
  log := []

def Api.idle (s : Api) (t : Nat) : Bool := s.jobs.all (·.1≠t)

def registered : Option HoldState → HoldState
  | some st => {st with count := st.count+1}
  | none => ⟨1,false⟩

def Api.registerBufferHold (s : Api) (b : Nat) : Api :=
  {s with
    holds := update s.holds b (some (registered (s.holds b)))
    pinned := s.pinned++[b]}

def dropped : Option HoldState → Option HoldState
  | some st => if st.count-1=0 then none else some {st with count := st.count-1}
  | none => none

def lastRequested : Option HoldState → Bool
  | some st => st.count-1=0 && st.releaseRequested
  | none => false

def Api.dropBufferHold (s : Api) (t b : Nat) : Api :=
  {s with
    holds := update s.holds b (dropped (s.holds b))
    jobs := s.jobs++if lastRequested (s.holds b) then [(t,.start b)] else []
    pinned := s.pinned.erase b}

def Api.releaseInnerBuffer (s : Api) (t b : Nat) : Api := {s with jobs := s.jobs++[(t,.enter b)]}

def Api.queueDeferredRelease (s : Api) (b : Nat) : Api := {s with pending := s.pending++[b]}

/- `mem::take` of the list, and a release of each of its buffers. -/
def Api.flushPendingReleases (s : Api) (t : Nat) : Api :=
  {s with pending := [], jobs := s.jobs++s.pending.map fun b => (t,.enter b)}

/- `take_pending_releases_split` with the release of the skipped buffers; the
deferred ones are `s.pending.filter (· = b)`. -/
def Api.takePendingReleasesSplit (s : Api) (t b : Nat) : Api :=
  {s with pending := [], jobs := s.jobs++(s.pending.filter (·≠b)).map fun b => (t,.enter b)}

def Api.noteBufferReleasePoint (s : Api) (b point : Nat) : Api :=
  {s with signals := s.signals++[(b,point)]}

def Api.destroy (s : Api) (b : Nat) : Api := {s with alive := update s.alive b false}

def isHeld : Option HoldState → Bool
  | some st => 0<st.count
  | none => false

def requested : Option HoldState → Option HoldState
  | some st => some (if 0<st.count then {st with releaseRequested := true} else st)
  | none => none

def Api.follow (s : Api) : Job → Option Job
  | .enter b => if s.alive b then some (.gate b) else none
  | .gate b => if isHeld (s.holds b) then none else some (.start b)
  | .start b => if s.alive b then some (.pop b) else none
  | .pop b => some (.send b ((s.signals.find? (·.1=b)).map Prod.snd))
  | .send b point => point.map (.signal b)
  | .signal _ _ => none

/- Sending to a dead object is a no-op of the wayland library. -/
def Api.emitted (s : Api) : Job → List Emission
  | .send b _ => if s.alive b then [.release b (s.pinned.count b)] else []
  | .signal b point => [.signal b point (s.pinned.count b)]
  | _ => []

def Api.holdsAfter (s : Api) : Job → Nat → Option HoldState
  | .gate b => update s.holds b (requested (s.holds b))
  | _ => s.holds

def Api.signalsAfter (s : Api) : Job → List (Nat × Nat)
  | .pop b => s.signals.eraseP (·.1=b)
  | _ => s.signals

def Api.perform (s : Api) (i t : Nat) (j : Job) : Api :=
  {s with
    holds := s.holdsAfter j
    signals := s.signalsAfter j
    jobs := s.jobs.take i++(s.follow j).toList.map (fun j => (t,j))++s.jobs.drop (i+1)
    log := s.log++s.emitted j}

def Api.runJob (s : Api) (i : Nat) : Option Api :=
  match s.jobs[i]? with
  | some (t,j) => if (s.jobs.take i).all (·.1≠t) then some (s.perform i t j) else none
  | none => none

inductive Act
  | register (b : Nat)
  | dropHold (t b : Nat)
  | release (t b : Nat)
  | flush (t : Nat)
  | split (t b : Nat)
  | queue (b : Nat)
  | note (b point : Nat)
  | destroy (b : Nat)
  | job (i : Nat)

def step (s : Api) : Act → Option Api
  | .register b => some (s.registerBufferHold b)
  | .dropHold t b => if s.idle t ∧ b∈s.pinned then some (s.dropBufferHold t b) else none
  | .release t b => if s.idle t then some (s.releaseInnerBuffer t b) else none
  | .flush t => if s.idle t then some (s.flushPendingReleases t) else none
  | .split t b => if s.idle t then some (s.takePendingReleasesSplit t b) else none
  | .queue b => some (s.queueDeferredRelease b)
  | .note b point => some (s.noteBufferReleasePoint b point)
  | .destroy b => some (s.destroy b)
  | .job i => s.runJob i

variable {s t : Api} {a : Act} {b : Nat}

variable {th i n : Nat} {j : Job} {st : Option HoldState}

theorem dropHold_eq (h : step s (.dropHold th b)=some t) : b∈s.pinned ∧ t=s.dropBufferHold th b := by
  obtain ⟨hg,⟨⟩⟩ := Option.ite_none_right_eq_some.mp h
  exact ⟨hg.2,rfl⟩

theorem release_eq (h : step s (.release th b)=some t) : t=s.releaseInnerBuffer th b := by
  simp only [step] at h
  split at h <;> cases h
  rfl

theorem flush_eq (h : step s (.flush th)=some t) : t=s.flushPendingReleases th := by
  simp only [step] at h
  split at h <;> cases h
  rfl

theorem split_eq (h : step s (.split th b)=some t) : t=s.takePendingReleasesSplit th b := by
  simp only [step] at h
  split at h <;> cases h
  rfl

theorem job_eq (h : step s (.job i)=some t) : ∃ th j,s.jobs[i]?=some (th,j) ∧
    t=s.perform i th j := by
  simp only [step,Api.runJob] at h
  repeat' split at h
  all_goals cases h
  exact ⟨_,_,‹_›,rfl⟩

theorem jobs_split (h : s.jobs[i]?=some (th,j)) : s.jobs=s.jobs.take i++(th,j)::s.jobs.drop (i+1) := by
  obtain ⟨hi,he⟩ := List.getElem?_eq_some_iff.mp h
  rw [← he,getElem_cons_drop hi,take_append_drop]

theorem alive_of_destroy {c : Nat} (h : (s.destroy c).alive b=true) : s.alive b=true := by
  have h : update s.alive c false b=true := h
  by_cases hb : b=c
  · subst hb
    rw [update_self] at h
    cases h
  · rwa [update_of_ne hb] at h

def NeverPinned (s : Api) : Prop := ∀ e∈s.log,e.pins=0

def Job.past : Job → Option Nat
  | .enter _ | .gate _ => none
  | .start b | .pop b | .send b _ | .signal b _ => some b

/-- A buffer is pinned only when no release of it has passed the hold section. -/
def Settled (s : Api) : Act → Prop
  | .register b => ∀ x∈s.jobs,x.2.past≠some b
  | _ => True

def Counted (n : Nat) : Option HoldState → Prop
  | some st => st.count=n ∧ 0<n
  | none => n=0

def Tallied (s : Api) : Prop := ∀ b,Counted (s.pinned.count b) (s.holds b)

structure Inv (s : Api) : Prop where
  counted : Tallied s
  past : ∀ x∈s.jobs,∀ b,x.2.past=some b → b∉s.pinned
  log : NeverPinned s

theorem Counted.registered (h : Counted n st) : Counted (n+1) (some (registered st)) := by
  cases st with
  | none =>
    obtain rfl : n=0 := h
    exact ⟨rfl,Nat.one_pos⟩
  | some => exact ⟨congrArg (·+1) h.1,Nat.succ_pos _⟩

theorem Counted.dropped (h : Counted n st) : Counted (n-1) (dropped st) := by
  cases st with
  | none =>
    obtain rfl : n=0 := h
    rfl
  | some st =>
    obtain ⟨hc,hn⟩ := h
    show Counted (n-1) (if st.count-1=0 then none else some {st with count := st.count-1})
    split
    next hz =>
      rw [← hc]
      exact hz
    next hz => exact ⟨congrArg (·-1) hc,by omega⟩

theorem Counted.requested (h : Counted n st) : Counted n (requested st) := by
  cases st with
  | none => exact h
  | some st =>
    show Counted n (some (if 0<st.count then {st with releaseRequested := true} else st))
    split <;> exact h

theorem Counted.last (h : Counted n st) (hl : lastRequested st=true) : n=1 := by
  cases st with
  | none => cases hl
  | some =>
    obtain ⟨hc,hn⟩ := h
    simp only [lastRequested,Bool.and_eq_true,decide_eq_true_eq] at hl
    omega

theorem Counted.free (h : Counted n st) (hf : isHeld st=false) : n=0 := by
  cases st with
  | none => exact h
  | some =>
    obtain ⟨hc,hn⟩ := h
    simp only [isHeld,decide_eq_false_iff_not] at hf
    omega

theorem Tallied.register (h : Tallied s) (b : Nat) : Tallied (s.registerBufferHold b) := by
  intro c
  show Counted ((s.pinned++[b]).count c) (update s.holds b _ c)
  by_cases hc : c=b
  · subst hc
    rw [update_self,count_append,count_singleton_self]
    exact (h c).registered
  · rw [update_of_ne hc,count_append,count_singleton,if_neg (by simpa using Ne.symm hc)]
    exact h c

theorem Tallied.dropHold (h : Tallied s) (th b : Nat) : Tallied (s.dropBufferHold th b) := by
  intro c
  show Counted ((s.pinned.erase b).count c) (update s.holds b _ c)
  by_cases hc : c=b
  · subst hc
    rw [update_self,count_erase_self]
    exact (h c).dropped
  · rw [update_of_ne hc,count_erase_of_ne hc]
    exact h c

theorem Tallied.perform (h : Tallied s) (i th : Nat) : Tallied (s.perform i th j) := by
  intro c
  cases j with
  | gate b =>
    show Counted (s.pinned.count c) (update s.holds b _ c)
    by_cases hc : c=b
    · subst hc
      rw [update_self]
      exact (h c).requested
    · rw [update_of_ne hc]
      exact h c
  | _ => exact h c

theorem Inv.register (hi : Inv s) (hok : Settled s (.register b)) : Inv (s.registerBufferHold b) := by
  refine ⟨hi.counted.register b,fun x hx c hc => ?_,hi.log⟩
  intro hm
  rcases mem_append.mp hm with hm | hm
  · exact hi.past x hx c hc hm
  · exact hok x hx (mem_singleton.mp hm ▸ hc)

theorem Inv.dropHold (hi : Inv s) : Inv (s.dropBufferHold th b) := by
  refine ⟨hi.counted.dropHold th b,fun x hx c hc => ?_,hi.log⟩
  intro hm
  have hm : c∈s.pinned.erase b := hm
  rcases mem_append.mp hx with hx | hx
  · exact hi.past x hx c hc (mem_of_mem_erase hm)
  · split at hx
    next hl =>
      obtain rfl := mem_singleton.mp hx
      obtain rfl := Option.some.inj hc
      have hone:=(hi.counted b).last hl
      have hpos:=count_pos_iff.mpr hm
      rw [count_erase_self,hone] at hpos
      cases hpos
    · cases hx

theorem Inv.addJobs {js : List (Nat × Job)} (hi : Inv s) (hjs : ∀ x∈js,x.2.past=none) {p : List Nat} :
    Inv {s with pending := p, jobs := s.jobs++js} := by
  refine ⟨hi.counted,fun x hx c hc => ?_,hi.log⟩
  rcases mem_append.mp hx with hx | hx
  · exact hi.past x hx c hc
  · rw [hjs x hx] at hc
    cases hc

theorem past_enter (th : Nat) (bs : List Nat) : ∀ x∈bs.map fun b => (th,Job.enter b),x.2.past=none := by
  intro x hx
  obtain ⟨b,-,rfl⟩ := mem_map.mp hx
  rfl

theorem follow_past {j' : Job} (hi : Inv s) (hj : ∀ c,j.past=some c → c∉s.pinned) (h : s.follow j=some j') :
    ∀ c,j'.past=some c → c∉s.pinned := by
  intro c hc
  cases j with
  | enter =>
    simp only [Api.follow] at h
    split at h <;> cases h
    cases hc
  | gate b =>
    simp only [Api.follow] at h
    split at h <;> cases h
    next hf =>
      obtain rfl := Option.some.inj hc
      exact count_eq_zero.mp ((hi.counted b).free (Bool.eq_false_iff.mpr hf))
  | start =>
    simp only [Api.follow] at h
    split at h <;> cases h
    exact hj c hc
  | pop =>
    cases h
    exact hj c hc
  | send =>
    obtain ⟨p,-,rfl⟩ := Option.map_eq_some_iff.mp h
    exact hj c hc
  | signal => cases h

theorem emitted_pins (hj : ∀ c,j.past=some c → c∉s.pinned) : ∀ e∈s.emitted j,e.pins=0 := by
  intro e he
  cases j with
  | send b =>
    simp only [Api.emitted] at he
    split at he
    · obtain rfl := mem_singleton.mp he
      exact count_eq_zero.mpr (hj b rfl)
    · cases he
  | signal b =>
    obtain rfl := mem_singleton.mp he
    exact count_eq_zero.mpr (hj b rfl)
  | _ => cases he

theorem Inv.job (hi : Inv s) (h : s.jobs[i]?=some (th,j)) : Inv (s.perform i th j) := by
  have hj:=hi.past (th,j) (mem_of_getElem? h)
  refine ⟨hi.counted.perform i th,fun x hx c hc => ?_,fun e he => ?_⟩
  · rcases mem_append.mp hx with hx | hx
    · rcases mem_append.mp hx with hx | hx
      · exact hi.past x (mem_of_mem_take hx) c hc
      · obtain ⟨j',hj',rfl⟩ := mem_map.mp hx
        exact follow_past hi hj (Option.mem_toList.mp hj') c hc
    · exact hi.past x (mem_of_mem_drop hx) c hc
  · rcases mem_append.mp he with he | he
    · exact hi.log e he
    · exact emitted_pins hj e he

theorem inv_step (hi : Inv s) (hok : Settled s a) (h : step s a=some t) : Inv t := by
  cases a with
  | register =>
    cases h
    exact hi.register hok
  | dropHold =>
    obtain ⟨-,rfl⟩ := dropHold_eq h
    exact hi.dropHold
  | release th b =>
    cases release_eq h
    exact hi.addJobs (past_enter th [b])
  | flush th =>
    cases flush_eq h
    exact hi.addJobs (past_enter th _)
  | split th =>
    cases split_eq h
    exact hi.addJobs (past_enter th _)
  | job =>
    obtain ⟨th,j,hj,rfl⟩ := job_eq h
    exact hi.job hj
  | _ =>
    cases h
    exact ⟨hi.counted,hi.past,hi.log⟩

theorem inv_init : Inv init := ⟨fun _ => rfl,nofun,nofun⟩

theorem never_released_pinned (hr : Reach step Settled init s) : NeverPinned s :=
  (hr.keeps inv_init inv_step).log

instance : Decidable (Settled s a) := by
  unfold Settled
  split <;> infer_instance

/-- A release is asked for while two holds pin the buffer; the last drop does it. -/
theorem never_released_pinned_twice : ∃ s,Reach step Settled init s ∧
    s.log=[.release 7 0,.signal 7 1 0] ∧ NeverPinned s := by
  have hr : Reach step Settled init _ :=
    reach_exec [.note 7 1,.register 7,.register 7,.queue 7,.flush 2,.job 0,.job 0,
      .dropHold 3 7,.dropHold 4 7,.job 0,.job 0,.job 0,.job 0]
      (meets_decided (by decide +kernel)) (by decide +kernel)
  exact ⟨_,hr,by decide +kernel,never_released_pinned hr⟩

/-- The hold is registered after a release has passed the hold section. -/
theorem released_while_pinned : ∃ s,Reach step Free init s ∧ s.pinned=[7] ∧ s.log=[.release 7 1] ∧
    ¬NeverPinned s := by
  have hr : Reach step Free init _ :=
    reach_free [.release 2 7,.job 0,.job 0,.register 7,.job 0,.job 0,.job 0] (by decide +kernel)
  refine ⟨_,hr,?_,?_,fun hn => absurd (hn (.release 7 1) ?_) ?_⟩ <;> decide +kernel

end Waymux.Session.BufferRelease
