import Mathlib.Algebra.GroupWithZero.Nat
import Waymux.Session.PresentationCases

/-!
# Releases that are still to come

For every buffer, the releases taken on and not carried out: deferred, in progress, asked for while
the buffer was held, or carried by an outer buffer.
-/

namespace Waymux.Session.Obligations
open BufferRelease Presentation PresentationCases List Function

variable {kind : Nat → BufferKind} {s t : State} {a : Presentation.Act} {sent : Bool} {b : Nat}

def one (c b : Nat) : Nat := if c=b then 1 else 0

@[simp] theorem count_singleton_one (c b : Nat) : [c].count b=one c b := by
  simp [one,count_singleton]

theorem count_cons_one (c b : Nat) (bs : List Nat) : (c::bs).count b=one c b+bs.count b := by
  rw [← singleton_append,count_append,count_singleton_one]

@[simp] theorem one_self (b : Nat) : one b b=1 := if_pos rfl

theorem one_of_ne {c b : Nat} (h : c≠b) : one c b=0 := if_neg h

/- A release counts until its point is taken from the queue or, with `sent`,
until `buf.release()`. -/
def Job.owes (sent : Bool) (b : Nat) : Job → Nat
  | .enter c | .gate c | .start c | .pop c => one c b
  | .send c _ => if sent then one c b else 0
  | .signal _ _ => 0

def jobsOwe (sent : Bool) (b : Nat) (js : List (Nat × Job)) : Nat := (js.map fun x => Job.owes sent b x.2).sum

@[simp] theorem jobsOwe_append (js ks : List (Nat × Job)) :
    jobsOwe sent b (js++ks)=jobsOwe sent b js+jobsOwe sent b ks := by
  simp [jobsOwe]

@[simp] theorem jobsOwe_nil : jobsOwe sent b []=0 := rfl

@[simp] theorem jobsOwe_cons (x : Nat × Job) (js : List (Nat × Job)) :
    jobsOwe sent b (x::js)=Job.owes sent b x.2+jobsOwe sent b js := rfl

@[simp] theorem jobsOwe_enter (th : Nat) (bs : List Nat) :
    jobsOwe sent b (bs.map fun c => (th,Job.enter c))=bs.count b := by
  induction bs with
  | nil => rfl
  | cons c bs ih =>
    rw [map_cons,jobsOwe_cons,ih,count_cons_one]
    rfl

def wasRequested : Option HoldState → Bool
  | some st => st.releaseRequested
  | none => false

def flag (st : Option HoldState) : Nat := (wasRequested st).toNat

def apiOwes (sent : Bool) (p : Api) (b : Nat) : Nat :=
  p.pending.count b+jobsOwe sent b p.jobs+flag (p.holds b)

section
variable {p : Api} {th : Nat}

theorem flag_update {holds : Nat → Option HoldState} {st : Option HoldState} {c : Nat} (h : flag st=flag (holds c)) :
    flag (update holds c st b)=flag (holds b) := by
  by_cases hb : b=c
  · subst hb
    rw [update_self,h]
  · rw [update_of_ne hb]

theorem register_owes (c : Nat) : apiOwes sent (p.registerBufferHold c) b=apiOwes sent p b := by
  have hf : flag (some (registered (p.holds c)))=flag (p.holds c) := by
    cases p.holds c <;> rfl
  show _+_+flag (update p.holds c _ b)=_
  rw [flag_update hf]
  rfl

theorem dropped_flag (st : Option HoldState) : flag (dropped st)+(lastRequested st).toNat=flag st := by
  cases st with
  | none => rfl
  | some st =>
    by_cases hc : st.count-1=0 <;> simp [dropped,lastRequested,flag,wasRequested,hc]

theorem dropHold_owes (c : Nat) : apiOwes sent (p.dropBufferHold th c) b=apiOwes sent p b := by
  have hd:=dropped_flag (p.holds c)
  show p.pending.count b+jobsOwe sent b (p.jobs++_)+flag (update p.holds c _ b)=_
  rw [jobsOwe_append]
  have hjob : jobsOwe sent b (if lastRequested (p.holds c)=true then [(th,Job.start c)] else []) =
      (lastRequested (p.holds c)).toNat*one c b := by
    cases lastRequested (p.holds c) <;> simp [Job.owes]
  rw [hjob]
  by_cases hb : c=b
  · subst hb
    rw [update_self,one_self]
    unfold apiOwes
    omega
  · rw [update_of_ne (Ne.symm hb),one_of_ne hb]
    rfl

theorem releaseAll_owes (bs : List Nat) : apiOwes sent (releaseAll p th bs) b=apiOwes sent p b+bs.count b := by
  show p.pending.count b+jobsOwe sent b (p.jobs++_)+flag (p.holds b)=_
  rw [jobsOwe_append,jobsOwe_enter]
  unfold apiOwes
  omega

theorem queue_owes (c : Nat) : apiOwes sent (p.queueDeferredRelease c) b=apiOwes sent p b+one c b := by
  show (p.pending++[c]).count b+jobsOwe sent b p.jobs+flag (p.holds b)=_
  rw [count_append,count_singleton_one]
  unfold apiOwes
  omega

theorem flush_owes : apiOwes sent (p.flushPendingReleases th) b=apiOwes sent p b := by
  show ([] : List Nat).count b+jobsOwe sent b (p.jobs++_)+flag (p.holds b)=_
  rw [jobsOwe_append,jobsOwe_enter,count_nil]
  unfold apiOwes
  omega

theorem count_filter_split (bs : List Nat) (c : Nat) :
    (bs.filter (·=c)).count b+(bs.filter (·≠c)).count b=bs.count b := by
  induction bs with
  | nil => rfl
  | cons d bs ih =>
    by_cases hd : d=c
    · simp only [hd,filter_cons,decide_true,if_true,ne_eq,not_true,decide_false,Bool.false_eq_true,
        if_false,count_cons_one]
      simp only [ne_eq] at ih
      omega
    · simp only [hd,filter_cons,decide_true,if_true,ne_eq,not_false_iff,decide_false,Bool.false_eq_true,
        if_false,count_cons_one]
      simp only [ne_eq] at ih
      omega

theorem split_owes (c : Nat) :
    apiOwes sent (p.takePendingReleasesSplit th c) b+(p.pending.filter (·=c)).count b=apiOwes sent p b := by
  show ([] : List Nat).count b+jobsOwe sent b (p.jobs++_)+flag (p.holds b)+_=_
  rw [jobsOwe_append,jobsOwe_enter,count_nil]
  have := count_filter_split (b := b) p.pending c
  unfold apiOwes
  omega

/-- A release of a dead buffer, one that was asked for already, and the one it carries out. -/
def spent (sent : Bool) (p : Api) (b : Nat) : Job → Nat
  | .enter c | .start c => if p.alive c then 0 else one c b
  | .gate c => if isHeld (p.holds c) && wasRequested (p.holds c) then one c b else 0
  | .pop c => if sent then 0 else one c b
  | .send c _ => if sent then one c b else 0
  | .signal _ _ => 0

theorem requested_flag (st : Option HoldState) :
    flag (requested st)=flag st+(isHeld st && !wasRequested st).toNat := by
  cases st with
  | none => rfl
  | some st =>
    by_cases hc : 0<st.count
    · cases hr : st.releaseRequested <;> simp [requested,flag,wasRequested,isHeld,hc,hr]
    · simp [requested,flag,wasRequested,isHeld,hc]

theorem follow_owes (th : Nat) (j : Job) :
    jobsOwe sent b ((p.follow j).toList.map fun j => (th,j))+flag (p.holdsAfter j b)+spent sent p b j =
      Job.owes sent b j+flag (p.holds b) := by
  cases j with
  | enter c | start c =>
    simp only [Api.follow,Api.holdsAfter,spent]
    cases p.alive c <;> simp [Job.owes,Nat.add_comm]
  | gate c =>
    have hf : flag (update p.holds c (requested (p.holds c)) b) =
        flag (p.holds b)+(isHeld (p.holds c) && !wasRequested (p.holds c)).toNat*one c b := by
      by_cases hb : c=b
      · subst hb
        rw [update_self,requested_flag,one_self,Nat.mul_one]
      · rw [update_of_ne (Ne.symm hb),one_of_ne hb]
        rfl
    simp only [Api.follow,Api.holdsAfter,spent,hf]
    cases isHeld (p.holds c) <;> cases wasRequested (p.holds c) <;> simp [Job.owes,Nat.add_comm]
  | pop =>
    simp only [Api.follow,Api.holdsAfter,spent]
    cases sent <;> simp [Job.owes,Nat.add_comm]
  | send c point =>
    simp only [Api.follow,Api.holdsAfter,spent]
    cases point <;> cases sent <;> simp [Job.owes,Nat.add_comm]
  | signal =>
    simp [Api.follow,Api.holdsAfter,spent,Job.owes]

theorem perform_owes {i : Nat} {j : Job} (h : p.jobs[i]?=some (th,j)) :
    apiOwes sent (p.perform i th j) b+spent sent p b j=apiOwes sent p b := by
  have hjobs:=congrArg (jobsOwe sent b) (jobs_split h)
  have hf:=@follow_owes sent b p th j
  rw [jobsOwe_append,jobsOwe_cons] at hjobs
  dsimp only at hjobs
  show p.pending.count b+jobsOwe sent b (p.jobs.take i++_++p.jobs.drop (i+1))+flag (p.holdsAfter j b) +
    _=_
  rw [jobsOwe_append,jobsOwe_append]
  unfold apiOwes
  omega

end

def Compositor.owes (b : Nat) : Compositor → Nat
  | .promoted _ cur _ => one cur b
  | .noted _ cur => one cur b
  | .attached _ cur => one cur b
  | .tapping _ release => release.toList.count b
  | .idle | .damaging => 0

def View.owes (b : Nat) : View → Nat
  | .skipping _ deferred => deferred.count b
  | .wrapping _ left _ => left.count b
  | .committing _ deferred => deferred.count b
  | _ => 0

def inflightOwe (b : Nat) (os : List OuterBuffer) : Nat := (os.map fun o => o.releases.directs.count b).sum

def owed (sent : Bool) (s : State) (b : Nat) : Nat :=
  apiOwes sent s.api b+Compositor.owes b s.compositor+View.owes b s.view+inflightOwe b s.inflight

/- Taken on by a commit: the release of its buffer and that of the one before. -/
def made (kind : Nat → BufferKind) (s : State) (b : Nat) : Presentation.Act → Nat
  | .commit x =>
      match (s.surfaces x).pendingBuffer with
      | some nb => one nb b+(replaced kind (s.surfaces x)).count b
      | none => 0
  | _ => 0

def spentBy (sent : Bool) (s : State) (b : Nat) : Presentation.Act → Nat
  | .job i =>
      match s.api.jobs[i]? with
      | some (_,j) => spent sent s.api b j
      | none => 0
  | .wrap =>
      match s.view with
      | .wrapping _ (d::_) _ => one d b
      | _ => 0
  | .finish | .panicked => inflightOwe b s.inflight
  | _ => 0

theorem owed_same (ha : apiOwes sent t.api b=apiOwes sent s.api b)
    (hc : Compositor.owes b t.compositor=Compositor.owes b s.compositor)
    (hv : View.owes b t.view=View.owes b s.view)
    (hi : inflightOwe b t.inflight=inflightOwe b s.inflight) : owed sent t b=owed sent s b := by
  unfold owed
  rw [ha,hc,hv,hi]

theorem owed_kept (ha : apiOwes sent t.api b=apiOwes sent s.api b)
    (hc : Compositor.owes b t.compositor=Compositor.owes b s.compositor)
    (hv : View.owes b t.view=View.owes b s.view)
    (hi : inflightOwe b t.inflight=inflightOwe b s.inflight) : owed sent t b+0=owed sent s b+0 :=
  congrArg (·+0) (owed_same ha hc hv hi)

theorem owed_passed {n : Nat} (ha : apiOwes sent t.api b=apiOwes sent s.api b+n)
    (hrest : Compositor.owes b t.compositor+View.owes b t.view+inflightOwe b t.inflight+n =
      Compositor.owes b s.compositor+View.owes b s.view+inflightOwe b s.inflight) :
    owed sent t b+0=owed sent s b+0 := by
  unfold owed
  omega

theorem inflightOwe_append (os qs : List OuterBuffer) :
    inflightOwe b (os++qs)=inflightOwe b os+inflightOwe b qs := by
  simp [inflightOwe]

theorem inflightOwe_none {os : List OuterBuffer} (h : ∀ o∈os,b∉o.releases.directs) : inflightOwe b os=0 := by
  induction os with
  | nil => rfl
  | cons o os ih =>
    show o.releases.directs.count b+inflightOwe b os=0
    rw [count_eq_zero.mpr (h o mem_cons_self),ih fun q hq => h q (mem_cons_of_mem _ hq)]

theorem inflightOwe_split {os : List OuterBuffer} {k : Nat} {o : OuterBuffer} (h : os[k]?=some o) :
    inflightOwe b os=o.releases.directs.count b+inflightOwe b (os.eraseIdx k) := by
  obtain ⟨hk,ho⟩ := List.getElem?_eq_some_iff.mp h
  have hs : os=os.take k++o::os.drop (k+1) := by
    rw [← ho,getElem_cons_drop hk,take_append_drop]
  have hsum:=congrArg (inflightOwe b) hs
  rw [inflightOwe_append] at hsum
  rw [eraseIdx_eq_take_drop_succ,inflightOwe_append,hsum]
  show _+(o.releases.directs.count b+inflightOwe b (os.drop (k+1)))=_
  omega

theorem inflightOwe_freed {os : List OuterBuffer} {k : Nat} {o : OuterBuffer} (h : os[k]?=some o) :
    inflightOwe b (os.set k {o with freed := true})=inflightOwe b os := by
  have hset : (os.set k {o with freed := true})[k]?=some {o with freed := true} :=
    List.getElem?_set_self (List.getElem?_eq_some_iff.mp h).1
  rw [inflightOwe_split h,inflightOwe_split hset,eraseIdx_set_eq]

theorem unref_owed (s : State) (th h : Nat) : owed sent (s.unref th h) b=owed sent s b := by
  rcases unref_cases s th h with ⟨hold,-,-,he⟩ | ⟨hs,he⟩
  · rw [he]
    exact owed_same (dropHold_owes _) rfl rfl rfl
  · rw [he]
    rfl

theorem tearDown_owed (s : State) (hv : View.owes b s.view=0) :
    owed sent s.tearDown b+inflightOwe b s.inflight=owed sent s b := by
  show apiOwes sent s.api b+Compositor.owes b s.compositor+0+0+_=_
  unfold owed
  omega

theorem commitOuter_owed {releases : InnerReleases} {c w h : Nat} {holds : List Nat} {al : Bool}
    (hv : View.owes b s.view=releases.directs.count b) :
    owed sent (s.commitOuter c releases holds w h al) b=owed sent s b := by
  show apiOwes sent s.api b+Compositor.owes b s.compositor+0+inflightOwe b (s.inflight++[_])=_
  rw [inflightOwe_append]
  unfold owed
  show _+(_+(releases.directs.count b+0))=_
  omega

theorem looping_owes {v : View} (hv : s.viewAt v=true) (h0 : View.owes b v=0) : View.owes b s.view=0 := by
  rw [(viewAt_iff.mp hv).1]
  exact h0

theorem step_owed (h : step kind s a=some t) :
    owed sent t b+spentBy sent s b a=owed sent s b+made kind s b a := by
  cases step_cases h with
  | committed x nb hd hn =>
    have hidle : Compositor.owes b s.compositor=0 := congrArg (Compositor.owes b) (dispatching_iff.mp hd).1
    show apiOwes sent (releaseAll s.api _ _) b+one nb b+View.owes b s.view+inflightOwe b s.inflight+0 =
      owed sent s b+match (s.surfaces x).pendingBuffer with
        | some nb => one nb b+(replaced kind (s.surfaces x)).count b
        | none => 0
    rw [hn,releaseAll_owes]
    unfold owed
    show _=_+(one nb b+(replaced kind (s.surfaces x)).count b)
    omega
  | unbuffered x hd hn =>
    have hidle : Compositor.owes b s.compositor=0 := congrArg (Compositor.owes b) (dispatching_iff.mp hd).1
    show apiOwes sent s.api b+0+View.owes b s.view+inflightOwe b s.inflight+0 =
      owed sent s b+match (s.surfaces x).pendingBuffer with
        | some nb => one nb b+(replaced kind (s.surfaces x)).count b
        | none => 0
    rw [hn]
    unfold owed
    rw [hidle]
  | noted x cur p hc | unnoted x cur hc | attached x cur hc | recordDamage _ hc =>
    exact owed_kept rfl (by rw [hc]; rfl) rfl rfl
  | unattached x cur hc =>
    refine owed_kept rfl ?_ rfl rfl
    rw [hc]
    exact count_singleton_one cur b
  | queueRelease x cur hc =>
    refine owed_passed (queue_owes cur) ?_
    rw [hc]
    show 0+View.owes b s.view+inflightOwe b s.inflight+one cur b=one cur b+_+_
    omega
  | tap _ _ c | prime _ c => exact owed_kept (register_owes c) rfl rfl rfl
  | endTap x release hc =>
    refine owed_passed (releaseAll_owes release.toList) ?_
    rw [hc]
    show 0+View.owes b s.view+inflightOwe b s.inflight+release.toList.count b=release.toList.count b+_+_
    omega
  | recorderDrop => exact congrArg (·+0) (unref_owed _ _ _)
  | drain => exact owed_kept flush_owes rfl rfl rfl
  | spawned hv | fail hv | install _ _ hv | announce _ hv | cloneDmabuf _ _ hv | recorded _ _ hv | unrecorded _ _ hv
  | push _ _ _ _ hv | stillEmpty hv | clear hv =>
    exact owed_kept rfl rfl (by rw [hv]; rfl) rfl
  | freeOuter k o ho => exact owed_kept rfl rfl rfl (inflightOwe_freed ho)
  | directs k o bufs ho hv hb =>
    refine owed_passed (releaseAll_owes bufs) ?_
    rw [inflightOwe_split ho,hb]
    show Compositor.owes b s.compositor+View.owes b s.view+inflightOwe b (s.inflight.eraseIdx k)+bufs.count b =
      _+_+(bufs.count b+_)
    omega
  | refcounted k o holds ho hv hh =>
    have hv0 : View.owes b s.view=0 := hv.elim (looping_owes · rfl) (looping_owes · rfl)
    refine owed_kept rfl rfl hv0.symm ?_
    rw [inflightOwe_split ho,hh]
    exact (Nat.zero_add _).symm
  | begun _ hv | composite _ _ _ _ hv | placeholder hv | leave hv =>
    exact owed_kept rfl rfl (looping_owes hv rfl).symm rfl
  | undamaged l hv => exact owed_kept flush_owes rfl (looping_owes hv rfl).symm rfl
  | window hv | noWindow hv => exact owed_kept flush_owes rfl (by rw [hv]; rfl) rfl
  | split c hv =>
    have hs:=@split_owes sent b s.api viewThread c
    show apiOwes sent (s.api.takePendingReleasesSplit _ _) b+Compositor.owes b s.compositor +
      (s.api.pending.filter (·=c)).count b+inflightOwe b s.inflight+0=_+0
    unfold owed
    rw [hv]
    show _=_+0+_+0
    omega
  | wrap c d left holds hv =>
    have hr:=@register_owes sent b s.api d
    show apiOwes sent (s.api.registerBufferHold d) b+Compositor.owes b s.compositor+left.count b +
      inflightOwe b s.inflight+(match s.view with
        | .wrapping _ (d::_) _ => one d b
        | _ => 0)=_+0
    unfold owed
    rw [hv,hr]
    show _+one d b=_+(d::left).count b+_+0
    rw [count_cons_one]
    omega
  | wrappedCommit _ _ _ _ _ hv | directCommit _ _ _ _ _ hv =>
    exact congrArg (·+0) (commitOuter_owed (by rw [hv]; rfl))
  | dropNext hd left next hv =>
    refine congrArg (·+0) ((unref_owed _ _ _).trans (owed_same rfl rfl ?_ rfl))
    rw [hv]
    rfl
  | dropped next hv =>
    refine owed_kept rfl rfl ?_ rfl
    rw [hv]
    cases next <;> rfl
  | finish hv | panicked hv => exact tearDown_owed s (looping_owes hv rfl)
  | job i th j hj =>
    have hp:=@perform_owes sent b s.api th i j hj
    show apiOwes sent (s.api.perform i th j) b+Compositor.owes b s.compositor+View.owes b s.view +
      inflightOwe b s.inflight+(match s.api.jobs[i]? with
        | some (_,j) => spent sent s.api b j
        | none => 0)=_+0
    unfold owed
    rw [hj]
    dsimp only
    omega
  | _ => rfl

end Waymux.Session.Obligations
