import Waymux.Session.CommitReleases

/-!
# Release points (`wp_linux_drm_syncobj`)

The point of a commit is with the commit handler, in the queue of its buffer, or in a release that
has taken it.
-/

namespace Waymux.Session.ReleasePoints
open BufferRelease Presentation PresentationCases Obligations Effects List Option
open Interleave.Runs CommitReleases

variable {kind : Nat → BufferKind} {s t : State} {a : Presentation.Act} {b : Nat}

def signalPoint : Emission → Option Nat
  | .signal _ point _ => some point
  | .release .. => none

def signalled (s : State) : List Nat := s.api.log.filterMap signalPoint

/-- No live hold, no deferred release, no outer buffer, no release in progress and no commit to process. -/
structure Quiescent (s : State) : Prop where
  holds : s.api.pinned=[]
  pending : s.api.pending=[]
  inflight : s.inflight=[]
  jobs : s.api.jobs=[]
  compositor : s.compositor=.idle
  view : s.view=.absent ∨ s.view=.looping

/-- Of the points taken by commits. -/
structure SignalledOnce (s : State) : Prop where
  once : ∀ p,(signalled s).count p≤1
  all : Quiescent s → ∀ p,p<s.taken → (signalled s).count p=1

def queued (s : State) (b : Nat) : Nat := s.api.signals.countP (·.1=b)

/-- A point comes with a live buffer; and a buffer that has points queued is not
destroyed, asked for a second time while it is held, wrapped for the recorder
or lost with an outer buffer. -/
def Attended (s : State) : Presentation.Act → Prop
  | .commit x => (s.surfaces x).pendingRelease=true → ∃ nb∈(s.surfaces x).pendingBuffer,s.api.alive nb=true
  | .destroyBuffer b => queued s b=0
  | .job i => match s.api.jobs[i]? with
    | some (_,.gate c) => isHeld (s.api.holds c)=true → wasRequested (s.api.holds c)=true → queued s c=0
    | _ => True
  | .wrap => match s.view with
    | .wrapping _ (d::_) _ => queued s d=0
    | _ => True
  | .finish | .panicked => ∀ o∈s.inflight,∀ c∈o.releases.directs,queued s c=0
  | _ => True

def promotedPoint (c : Compositor) (p : Nat) : Nat :=
  match promotion c with
  | some (_,some q) => one q p
  | _ => 0

def jobPoints (js : List (Nat × Job)) : List Nat := js.filterMap fun x => Job.carried x.2

def places (s : State) (p : Nat) : Nat :=
  promotedPoint s.compositor p+(s.api.signals.map Prod.snd).count p+(jobPoints s.api.jobs).count p +
    (signalled s).count p

def promotes (c : Compositor) (b : Nat) : Nat :=
  match promotion c with
  | some (cur,_) => one cur b
  | none => 0

structure Inv (s : State) : Prop where
  placed : ∀ p,places s p=if p<s.taken then 1 else 0
  /-- a release to come for every queued point, besides that of the commit -/
  covered : ∀ b,queued s b+promotes s.compositor b≤owed false s b
  dead : ∀ b,s.api.alive b=false → queued s b=0 ∧ ∀ p,promotion s.compositor≠some (b,some p)
  tallied : Tallied s.api

theorem promotes_le (c : Compositor) (b : Nat) : promotes c b≤Compositor.owes b c := by
  cases c <;> simp [promotes,promotion,Compositor.owes]

theorem promotes_le_owed (s : State) (b : Nat) : promotes s.compositor b≤owed false s b := by
  have := promotes_le s.compositor b
  unfold owed
  omega

theorem jobPoints_append (js ks : List (Nat × Job)) : jobPoints (js++ks)=jobPoints js++jobPoints ks :=
  filterMap_append

theorem jobPoints_none {js : List (Nat × Job)} (h : ∀ x∈js,Job.carried x.2=none) : jobPoints js=[] :=
  filterMap_eq_nil_iff.mpr h

theorem carried_unqueued (h : ∀ o∈s.inflight,∀ c∈o.releases.directs,queued s c=0)
    (hb : inflightOwe b s.inflight≠0) : queued s b=0 := by
  by_contra hq
  exact hb (inflightOwe_none fun o ho hm => hq (h o ho b hm))

theorem spent_unqueued (hok : Attended s a) (h : spentBy false s b a≠0) (hj : ∀ i,a≠.job i) :
    queued s b=0 := by
  cases a with
  | job i => exact absurd rfl (hj i)
  | wrap =>
    simp only [spentBy] at h
    split at h
    next c d left holds hv =>
      have hd : d=b := by
        by_contra hne
        exact h (one_of_ne hne)
      subst hd
      simpa [Attended,hv] using hok
    · exact absurd rfl h
  | finish | panicked => exact carried_unqueued hok h
  | _ => exact absurd rfl h

theorem pop_points (signals : List (Nat × Nat)) (c : Nat) :
    (signals.find? (·.1=c)=none ∧ signals.eraseP (·.1=c)=signals ∧ signals.countP (·.1=c)=0) ∨
    ∃ l p r,signals=l++(c,p)::r ∧ signals.find? (·.1=c)=some (c,p) ∧
      signals.eraseP (·.1=c)=l++r := by
  cases hf : signals.find? (·.1=c) with
  | none =>
    have hno:=List.find?_eq_none.mp hf
    exact .inl ⟨rfl,eraseP_of_forall_not hno,countP_eq_zero.mpr hno⟩
  | some x =>
    obtain ⟨hx,l,r,rfl,hl⟩ := List.find?_eq_some_iff_append.mp hf
    obtain ⟨d,p⟩ := x
    obtain rfl : d=c := of_decide_eq_true hx
    refine .inr ⟨l,p,r,rfl,rfl,?_⟩
    have hne : ∀ y∈l,¬decide (y.1=d)=true := fun y hy => by simpa using hl y hy
    rw [eraseP_append_right _ hne]
    exact congrArg (l++·) (eraseP_cons_of_pos hx)

def pointsOf (j : Option Job) : List Nat := (j.bind Job.carried).toList

@[simp] theorem pointsOf_none : pointsOf none=[] := rfl

@[simp] theorem pointsOf_some (j : Job) : pointsOf (some j)=(Job.carried j).toList := rfl

theorem follow_points (p : Api) (j : Job) (q : Nat) :
    (pointsOf (p.follow j)).count q+((p.signalsAfter j).map Prod.snd).count q +
      ((p.emitted j).filterMap signalPoint).count q =
    (pointsOf (some j)).count q+(p.signals.map Prod.snd).count q := by
  cases j with
  | enter c | start c => cases hc : p.alive c <;> simp [Api.follow,hc,Api.signalsAfter,Api.emitted,Job.carried]
  | gate c => cases hc : isHeld (p.holds c) <;> simp [Api.follow,hc,Api.signalsAfter,Api.emitted,Job.carried]
  | pop c =>
    rcases pop_points p.signals c with ⟨hf,he,-⟩ | ⟨l,pt,r,hs,hf,he⟩
    · simp [Api.follow,hf,Api.signalsAfter,Api.emitted,he,Job.carried]
    · simp only [Api.follow,hf,Api.signalsAfter,Api.emitted,he,map_some,pointsOf_some,Job.carried,toList_none]
      rw [hs]
      simp only [toList_some,map_append,map_cons,count_append,count_cons_one,filterMap_nil,count_nil]
      omega
  | send c point =>
    have hemit : (p.emitted (.send c point)).filterMap signalPoint=[] := by
      simp only [Api.emitted]
      split <;> rfl
    rw [hemit]
    cases point <;> simp [Api.follow,Api.signalsAfter,Job.carried]
  | signal c point =>
    show 0+(p.signals.map Prod.snd).count q+[point].count q=[point].count q+_
    omega

theorem perform_points {i th : Nat} {j : Job} (p : Api) (h : p.jobs[i]?=some (th,j)) (q : Nat) :
    (jobPoints (p.perform i th j).jobs).count q+(pointsOf (some j)).count q =
      (jobPoints p.jobs).count q+(pointsOf (p.follow j)).count q := by
  have hs:=congrArg (fun js => (jobPoints js).count q) (jobs_split h)
  have hone (j : Job) : jobPoints [(th,j)]=pointsOf (some j) := by
    simp only [jobPoints,pointsOf,bind_some]
    cases hc : Job.carried j <;> simp [hc]
  have hnext : jobPoints ((p.follow j).toList.map fun j => (th,j))=pointsOf (p.follow j) := by
    cases p.follow j with
    | none => rfl
    | some j' => exact hone j'
  rw [← singleton_append] at hs
  simp only [jobPoints_append,count_append,hone] at hs
  show (jobPoints (p.jobs.take i++_++p.jobs.drop (i+1))).count q+_=_
  simp only [jobPoints_append,count_append,hnext]
  omega

theorem perform_queued {i th : Nat} {j : Job} (hi : Inv s) (hok : Attended s (.job i))
    (h : s.api.jobs[i]?=some (th,j)) (b : Nat) :
    spent false s.api b j=0 ∧ (s.api.signalsAfter j).countP (·.1=b)=queued s b ∨
      (s.api.signalsAfter j).countP (·.1=b)=0 ∨
      (s.api.signalsAfter j).countP (·.1=b)+spent false s.api b j=queued s b := by
  cases j with
  | enter c | start c =>
    cases hc : s.api.alive c with
    | true => exact .inl ⟨by simp [spent,hc],rfl⟩
    | false =>
      by_cases hb : c=b
      · subst hb
        exact .inr (.inl (hi.dead c hc).1)
      · exact .inl ⟨by simp [spent,hc,one_of_ne hb],rfl⟩
  | gate c =>
    cases hg : isHeld (s.api.holds c) && wasRequested (s.api.holds c) with
    | false => exact .inl ⟨by simp only [spent,hg]; rfl,rfl⟩
    | true =>
      by_cases hb : c=b
      · subst hb
        obtain ⟨hh,hw⟩ := Bool.and_eq_true_iff.mp hg
        have hq : queued s c=0 := by simpa [Attended,h,hh,hw] using hok
        exact .inr (.inl hq)
      · exact .inl ⟨by simp [spent,one_of_ne hb],rfl⟩
  | pop c =>
    rcases pop_points s.api.signals c with ⟨hf,he,h0⟩ | ⟨l,pt,r,hs,hf,he⟩
    · by_cases hb : c=b
      · subst hb
        refine .inr (.inl ?_)
        simp only [Api.signalsAfter,he]
        exact h0
      · exact .inl ⟨by simp [spent,one_of_ne hb],by simp only [Api.signalsAfter,he]; rfl⟩
    · refine .inr (.inr ?_)
      simp only [Api.signalsAfter,he,spent,queued]
      rw [hs]
      simp only [countP_append,countP_cons,one]
      simp only [Bool.false_eq_true,if_false,decide_eq_true_eq]
      omega
  | _ => exact .inl ⟨rfl,rfl⟩

theorem Inv.quiet (hi : Inv s) (hok : Attended s a) (hq : Quiet s a t) (hj : ∀ i,a≠.job i)
    (hbal : ∀ b,owed false t b+spentBy false s b a=owed false s b) : Inv t := by
  obtain ⟨js,hjobs,hjs⟩ := hq.jobs
  refine ⟨fun p => ?_,fun b => ?_,fun b hb => ?_,hq.tallied hi.tallied⟩
  · have hjp : jobPoints t.api.jobs=jobPoints s.api.jobs := by
      rw [hjobs,jobPoints_append,jobPoints_none hjs,append_nil]
    have hsame : places t p=places s p := by
      unfold places promotedPoint signalled
      rw [hq.promotion,hq.signals,hjp,hq.log]
    rw [hsame,hq.taken]
    exact hi.placed p
  · have hqb : queued t b=queued s b := by rw [queued,hq.signals]; rfl
    have hpr : promotes t.compositor b=promotes s.compositor b := by rw [promotes,hq.promotion]; rfl
    have hold:=hi.covered b
    by_cases hs : spentBy false s b a=0
    · have := hbal b
      omega
    · have h0:=spent_unqueued hok hs hj
      have := promotes_le_owed t b
      omega
  · rw [hq.alive] at hb
    rw [queued,hq.signals,hq.promotion]
    exact hi.dead b hb

theorem dispatching_promotion (hd : s.dispatching=true) : promotion s.compositor=none := by
  rw [(dispatching_iff.mp hd).1]
  rfl

theorem lt_succ_split (p n : Nat) : (if p<n+1 then 1 else 0)=(if p<n then 1 else 0)+one n p := by
  unfold one
  split <;> split <;> split <;> omega

theorem promotes_none {c : Compositor} (h : promotion c=none) (b : Nat) : promotes c b=0 := by
  rw [promotes,h]

theorem promotedPoint_none {c : Compositor} (h : promotion c=none) (p : Nat) : promotedPoint c p=0 := by
  rw [promotedPoint,h]

theorem Inv.committed {x nb : Nat} (hi : Inv s) (hok : Attended s (.commit x)) (hd : s.dispatching=true)
    (hn : (s.surfaces x).pendingBuffer=some nb) (ht : t.api=releaseAll s.api compositorThread
      (replaced kind (s.surfaces x))) (hc : t.compositor=.promoted x nb (s.pendingPoint x))
    (htk : t.taken=s.taken+takenBy (s.pendingPoint x))
    (hbal : ∀ b,owed false t b=owed false s b+made kind s b (.commit x)) : Inv t := by
  have hnone:=dispatching_promotion hd
  have hsig : t.api.signals=s.api.signals := by rw [ht]; rfl
  have hprom : promotion t.compositor=some (nb,s.pendingPoint x) := by rw [hc]; rfl
  refine ⟨fun p => ?_,fun b => ?_,fun b hb => ?_,?_⟩
  · have hjobs : jobPoints t.api.jobs=jobPoints s.api.jobs := by
      rw [ht]
      show jobPoints (s.api.jobs++_)=_
      rw [jobPoints_append,jobPoints_none (carried_enter _ _),append_nil]
    have hlog : signalled t=signalled s := by rw [signalled,ht]; rfl
    have hold:=hi.placed p
    unfold places at hold ⊢
    rw [promotedPoint_none hnone] at hold
    rw [hsig,hjobs,hlog,htk,promotedPoint,hprom]
    unfold State.pendingPoint
    cases (s.surfaces x).pendingRelease with
    | false => exact hold
    | true =>
      show one s.taken p+_+_+_=if p<s.taken+1 then 1 else 0
      rw [lt_succ_split,← hold]
      omega
  · have hqb : queued t b=queued s b := by rw [queued,hsig]; rfl
    have hpr : promotes t.compositor b=one nb b := by rw [promotes,hprom]
    have hmade : made kind s b (.commit x)=one nb b+(replaced kind (s.surfaces x)).count b := by
      simp only [made,hn]
    have hold:=hi.covered b
    have := hbal b
    omega
  · have halive : s.api.alive b=false := by rw [ht] at hb; exact hb
    obtain ⟨h0,-⟩ := hi.dead b halive
    refine ⟨by rw [queued,hsig]; exact h0,fun p hp => ?_⟩
    rw [hprom] at hp
    obtain ⟨rfl,hpt⟩ := Prod.mk.inj (some.inj hp)
    -- a commit with a point has a live buffer
    have hrel : (s.surfaces x).pendingRelease=true := by
      by_contra hne
      rw [State.pendingPoint,if_neg hne] at hpt
      cases hpt
    obtain ⟨nb',hn',hal⟩ := hok hrel
    obtain rfl : nb=nb' := some.inj (hn.symm.trans hn')
    rw [halive] at hal
    cases hal
  · rw [ht]
    exact hi.tallied

theorem Inv.unbuffered {x : Nat} (hi : Inv s) (hok : Attended s (.commit x)) (hd : s.dispatching=true)
    (hn : (s.surfaces x).pendingBuffer=none) (ht : t.api=s.api) (hc : t.compositor=.tapping x none)
    (htk : t.taken=s.taken+takenBy (s.pendingPoint x)) (hbal : ∀ b,owed false t b=owed false s b) : Inv t := by
  have hnone:=dispatching_promotion hd
  have hprom : promotion t.compositor=none := by rw [hc]; rfl
  have hpt : s.pendingPoint x=none := by
    refine if_neg fun hrel => ?_
    obtain ⟨nb,hnb,-⟩ := hok hrel
    rw [hn] at hnb
    cases hnb
  refine ⟨fun p => ?_,fun b => ?_,fun b hb => ?_,by rw [ht]; exact hi.tallied⟩
  · have hsame : places t p=places s p := by
      unfold places signalled
      rw [promotedPoint_none hnone,promotedPoint_none hprom,ht]
    rw [hsame,htk,hpt]
    exact hi.placed p
  · have hold:=hi.covered b
    rw [promotes_none hnone] at hold
    rw [hbal,promotes_none hprom,queued,ht]
    exact hold
  · rw [ht] at hb
    rw [queued,ht,hprom]
    exact ⟨(hi.dead b hb).1,nofun⟩

theorem Inv.noted {x cur : Nat} {point : Option Nat} (hi : Inv s) (hc : s.compositor=.promoted x cur point)
    (hsig : t.api.signals=s.api.signals++point.toList.map fun p => (cur,p))
    (hjobs : t.api.jobs=s.api.jobs) (hlog : t.api.log=s.api.log) (hal : t.api.alive=s.api.alive)
    (hta : Tallied t.api) (hc' : t.compositor=.noted x cur) (htk : t.taken=s.taken)
    (hbal : ∀ b,owed false t b=owed false s b) : Inv t := by
  have hprom : promotion s.compositor=some (cur,point) := by rw [hc]; rfl
  have hprom' : promotion t.compositor=none := by rw [hc']; rfl
  have hqueue (b : Nat) : queued t b=queued s b+if point.isSome then one cur b else 0 := by
    rw [queued,hsig]
    cases point with
    | none => simp [queued]
    | some => simp [queued,one]
  refine ⟨fun p => ?_,fun b => ?_,fun b hb => ?_,hta⟩
  · have hold:=hi.placed p
    unfold places signalled promotedPoint at hold ⊢
    rw [hprom] at hold
    rw [hprom',hsig,hjobs,hlog,htk,← hold]
    cases point with
    | none => simp
    | some =>
      simp only [toList_some,map_append,map_cons,map_nil,count_append,count_singleton_one]
      omega
  · have hold:=hi.covered b
    have hq:=hqueue b
    have hpr : promotes s.compositor b=one cur b := by rw [promotes,hprom]
    rw [hbal,promotes_none hprom']
    split at hq <;> omega
  · rw [hal] at hb
    obtain ⟨h0,hp⟩ := hi.dead b hb
    refine ⟨?_,fun p hp' => by rw [hprom'] at hp'; cases hp'⟩
    have hq:=hqueue b
    cases point with
    | none => exact hq.trans h0
    | some p =>
      have hne : cur≠b := fun he => hp p (by rw [hprom,he])
      rw [hq,h0,one_of_ne hne]
      rfl

theorem Inv.destroyed (hi : Inv s) (hok : Attended s (.destroyBuffer b)) (hd : s.dispatching=true)
    (hbal : ∀ c,owed false {s with api := s.api.destroy b} c=owed false s c) :
    Inv {s with api := s.api.destroy b} := by
  refine ⟨hi.placed,fun c => by rw [hbal]; exact hi.covered c,fun c hc => ?_,hi.tallied⟩
  have hnone:=dispatching_promotion hd
  by_cases hcb : c=b
  · subst hcb
    refine ⟨hok,fun p hp => ?_⟩
    have hp : promotion s.compositor=some (c,some p) := hp
    rw [hnone] at hp
    cases hp
  · have hc : Function.update s.api.alive b false c=false := hc
    rw [Function.update_of_ne hcb] at hc
    exact hi.dead c hc

theorem Inv.job {i th : Nat} {j : Job} (hi : Inv s) (hok : Attended s (.job i))
    (hj : s.api.jobs[i]?=some (th,j)) (ht : t.api=s.api.perform i th j) (hc : t.compositor=s.compositor)
    (htk : t.taken=s.taken) (hbal : ∀ b,owed false t b+spent false s.api b j=owed false s b) : Inv t := by
  have hqueue (b : Nat) : queued t b=(s.api.signalsAfter j).countP (·.1=b) := by rw [queued,ht]; rfl
  refine ⟨fun p => ?_,fun b => ?_,fun b hb => ?_,?_⟩
  · have hold:=hi.placed p
    have hf:=follow_points s.api j p
    have hp:=perform_points s.api hj p
    have hlog : (signalled t).count p =
        (signalled s).count p+((s.api.emitted j).filterMap signalPoint).count p := by
      rw [signalled,ht]
      show ((s.api.log++s.api.emitted j).filterMap signalPoint).count p=_
      rw [filterMap_append,count_append]
      rfl
    have hsig : (t.api.signals.map Prod.snd).count p=((s.api.signalsAfter j).map Prod.snd).count p := by
      rw [ht]
      rfl
    unfold places at hold ⊢
    rw [hc,hlog,hsig,ht,htk]
    omega
  · have hold:=hi.covered b
    have hb:=hbal b
    rw [hqueue,hc]
    rcases perform_queued hi hok hj b with ⟨hs,hq⟩ | hq | hq
    · omega
    · have := promotes_le_owed t b
      rw [hc] at this
      omega
    · omega
  · have halive : s.api.alive b=false := by rw [ht] at hb; exact hb
    obtain ⟨h0,hp⟩ := hi.dead b halive
    rw [hc]
    refine ⟨?_,hp⟩
    rw [hqueue]
    rcases perform_queued hi hok hj b with ⟨-,hq⟩ | hq | hq <;> omega
  · rw [ht]
    exact hi.tallied.perform i th

theorem inv_step (hi : Inv s) (hok : Attended s a) (h : step kind s a=some t) : Inv t := by
  have hbal (b : Nat) := @step_owed kind s t a false b h
  cases step_effect h with
  | quiet hm hj hq =>
    refine hi.quiet hok hq hj fun b => ?_
    have := hbal b
    rwa [hm] at this
  | committed x nb hd hn => exact hi.committed hok hd hn rfl rfl rfl hbal
  | unbuffered x hd hn =>
    refine hi.unbuffered hok hd hn rfl rfl rfl fun b => ?_
    have := hbal b
    simp only [made,hn] at this
    exact this
  | noted x cur p hc => exact hi.noted hc rfl rfl rfl rfl hi.tallied rfl rfl hbal
  | unnoted x cur hc => exact hi.noted hc (append_nil _).symm rfl rfl rfl hi.tallied rfl rfl hbal
  | destroyed c hd => exact hi.destroyed hok hd hbal
  | job i th j hj =>
    exact hi.job hok hj rfl rfl rfl fun b => by simpa only [spentBy,hj,made,Nat.add_zero] using hbal b

theorem inv_init : Inv init where
  placed p := (if_neg (Nat.not_lt_zero p)).symm
  covered _ := Nat.zero_le _
  dead _ hb := by cases hb
  tallied := tallied_init

theorem quiescent_owed (hc : Tallied s.api) (hq : Quiescent s) (b : Nat) : owed false s b=0 := by
  have hflag : flag (s.api.holds b)=0 := by
    have htal:=hc b
    rw [hq.holds] at htal
    cases hh : s.api.holds b with
    | none => rfl
    | some =>
      rw [hh] at htal
      exact absurd htal.2 (Nat.lt_irrefl 0)
  have hview : View.owes b s.view=0 := by
    rcases hq.view with hv | hv <;> rw [hv] <;> rfl
  simp [owed,apiOwes,hq.pending,hq.jobs,hflag,hq.compositor,Compositor.owes,hview,hq.inflight,inflightOwe]

/-- In every run whose steps all meet the condition. -/
theorem signalled_exactly_once (hr : Reach (step kind) Attended init s) : SignalledOnce s := by
  have hi : Inv s := hr.keeps inv_init inv_step
  refine ⟨fun p => ?_,fun hq p hp => ?_⟩
  · have := hi.placed p
    unfold places at this
    split at this <;> omega
  · have hsig : s.api.signals=[] := by
      by_contra hne
      obtain ⟨x,hx⟩ := exists_mem_of_ne_nil _ hne
      have hcov:=hi.covered x.1
      have hpos : 0<queued s x.1 := countP_pos_iff.mpr ⟨x,hx,decide_eq_true rfl⟩
      rw [quiescent_owed hi.tallied hq] at hcov
      omega
    have hplace:=hi.placed p
    rw [if_pos hp,places,hsig,hq.jobs,hq.compositor] at hplace
    simpa [promotedPoint,promotion,jobPoints] using hplace

instance : Decidable (Attended s a) := by
  rcases a with ⟨⟩ <;> dsimp only [Attended]
  case job i => rcases s.api.jobs[i]? with _ | ⟨_,⟨⟩⟩ <;> infer_instance
  case wrap =>
    rcases s.view with ⟨⟩
    case wrapping _ ds _ => rcases ds with ⟨⟩ <;> infer_instance
    all_goals infer_instance
  all_goals infer_instance

def pinnedWithPoint : List Presentation.Act :=
  [.attach 0 (some 10),.setReleasePoint 0,.commit 0,.notePoint,.checkAttached,.tap,.endTap,
    .job 0,.job 0,.recordDamage 1]

theorem signalled_exactly_once_pinned : ∃ s,Reach (step kinds) Attended init s ∧ Quiescent s ∧ s.taken=1 ∧
    signalled s=[0] ∧ SignalledOnce s := by
  have hr : Reach (step kinds) Attended init _ := reach_exec
    (pinnedWithPoint++([.recorderDrop 3 0] : List Presentation.Act) ++
      (List.replicate 4 (.job 0) : List Presentation.Act))
    (meets_decided (by decide +kernel)) (by decide +kernel)
  refine ⟨_,hr,⟨?_,?_,?_,?_,?_,.inl ?_⟩,?_,?_,signalled_exactly_once hr⟩ <;> decide +kernel

/-- The client destroys the buffer while it is pinned. -/
theorem point_lost : ∃ s,Reach (step kinds) Free init s ∧ Quiescent s ∧ s.taken=1 ∧ signalled s=[] ∧
    ¬SignalledOnce s := by
  have hr : Reach (step kinds) Free init _ := reach_free
    (pinnedWithPoint++([.destroyBuffer 10,.recorderDrop 3 0,.job 0] : List Presentation.Act)) (by decide +kernel)
  refine ⟨_,hr,⟨?_,?_,?_,?_,?_,.inl ?_⟩,?_,?_,
    fun hone => absurd (hone.all ⟨?_,?_,?_,?_,?_,.inl ?_⟩ 0 ?_) ?_⟩ <;> decide +kernel

end Waymux.Session.ReleasePoints
