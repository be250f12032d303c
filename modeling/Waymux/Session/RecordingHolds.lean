import Waymux.Session.CommitReleases

/-!
# Holds shared with the recorder (`InnerReleases::Refcounted`)

While the session is recorded, the deferred releases of a forwarded buffer become holds that the
outer buffer and the recorder share.
-/

namespace Waymux.Session.RecordingHolds
open BufferRelease Presentation PresentationCases Obligations Effects List
open Interleave.Runs CommitReleases

variable {kind : Nat → BufferKind} {s t : State} {a : Presentation.Act} {b : Nat}

def Job.sends (b : Nat) : Job → Bool
  | .start c | .pop c | .send c _ => c=b
  | .enter _ | .gate _ | .signal _ _ => false

def SentSince (s : State) (d : Drop) : Prop := (s.api.log.drop d.sent).any (isRelease d.buf)=true

def Sole (s : State) (d : Drop) : Prop := d∈s.drops ∧ d.alone=true ∧ s.api.alive d.buf=true

/-- The release was sent, or is in progress; and all in progress can run to
their end, after which it was sent. -/
structure NotStranded (kind : Nat → BufferKind) (s : State) : Prop where
  coming : ∀ d,Sole s d → SentSince s d ∨ ∃ x∈s.api.jobs,Job.sends d.buf x.2=true
  sent : ∃ n t,exec (step kind) s (List.replicate n (.job 0))=some t ∧ ∀ d,Sole s d → SentSince t d

/-- When the last hold of a live buffer goes, its release was asked for while it
was held. -/
def Requested (s : State) (a : Presentation.Act) : Prop :=
  ∀ h∈unrefs s a,∀ hold∈s.holds[h]?,hold.refs≤1 → hold.wrapped=true → s.api.alive hold.buf=true →
    s.api.pinned.count hold.buf=1 → wasRequested (s.api.holds hold.buf)=true

def Job.left : Job → Nat
  | .enter _ => 6
  | .gate _ => 5
  | .start _ => 4
  | .pop _ => 3
  | .send _ _ => 2
  | .signal _ _ => 1

def jobsLeft (js : List (Nat × Job)) : Nat := (js.map fun x => Job.left x.2).sum

theorem follow_left (p : Api) (j : Job) : ((p.follow j).map Job.left).getD 0<Job.left j := by
  cases j with
  | enter c | start c => cases hc : p.alive c <;> simp [Api.follow,hc,Job.left]
  | gate c => cases hc : isHeld (p.holds c) <;> simp [Api.follow,hc,Job.left]
  | pop => exact Nat.lt_succ_self 2
  | send c point => cases point <;> simp [Api.follow,Job.left]
  | signal => exact Nat.one_pos

theorem first_job (kind : Nat → BufferKind) {th : Nat} {j : Job} {js : List (Nat × Job)}
    (h : s.api.jobs=(th,j)::js) :
    ∃ t,step kind s (.job 0)=some t ∧ t.drops=s.drops ∧ t.api.alive=s.api.alive ∧
      jobsLeft t.api.jobs<jobsLeft s.api.jobs := by
  have hj : s.api.jobs[0]?=some (th,j) := by rw [h]; rfl
  have hrun : s.api.runJob 0=some (s.api.perform 0 th j) := by
    simp only [Api.runJob,hj]
    rfl
  obtain ⟨t,ht⟩ : ∃ t,step kind s (.job 0)=some t := by
    simp only [Presentation.step,runRelease,hj,hrun,Option.map_some]
    exact ⟨_,rfl⟩
  obtain ⟨th',j',hj',rfl⟩ := runRelease_eq ht
  obtain ⟨rfl,rfl⟩ := Prod.mk.inj (Option.some.inj (hj.symm.trans hj'))
  refine ⟨_,ht,rfl,rfl,?_⟩
  have hjobs : (s.api.perform 0 th j).jobs=(s.api.follow j).toList.map (fun j => (th,j))++js := by
    show s.api.jobs.take 0++_++s.api.jobs.drop 1=_
    rw [h]
    rfl
  rw [hjobs,h]
  have hl:=follow_left s.api j
  cases hf : s.api.follow j with
  | none =>
    rw [hf] at hl
    exact Nat.lt_add_of_pos_left hl
  | some =>
    rw [hf] at hl
    exact Nat.add_lt_add_right hl (jobsLeft js)

theorem jobs_run_out (kind : Nat → BufferKind) (s : State) : ∃ n t,
    exec (step kind) s (List.replicate n (.job 0))=some t ∧
    t.drops=s.drops ∧ t.api.alive=s.api.alive ∧ t.api.jobs=[] := by
  -- by the sections that the releases in progress have before them
  induction hm : jobsLeft s.api.jobs using Nat.strongRecOn generalizing s with
  | ind m ih =>
    cases hjobs : s.api.jobs with
    | nil => exact ⟨0,s,rfl,rfl,rfl,hjobs⟩
    | cons =>
      obtain ⟨u,hu,hd,ha,hl⟩ := first_job kind hjobs
      obtain ⟨n,t,ht,hd',ha',he⟩ := ih (jobsLeft u.api.jobs) (hm ▸ hl) u rfl
      refine ⟨n+1,t,?_,hd'.trans hd,ha'.trans ha,he⟩
      show (step kind s (.job 0)).bind _=some t
      rw [hu]
      exact ht

structure Inv (s : State) : Prop where
  tallied : Tallied s.api
  known : ∀ d∈s.drops,d.sent ≤ s.api.log.length
  coming : ∀ d,Sole s d → SentSince s d ∨ ∃ x∈s.api.jobs,Job.sends d.buf x.2=true

theorem Inv.keep (hi : Inv s) (hc : Tallied t.api) (hl : t.api.log=s.api.log) (hd : t.drops=s.drops)
    (ha : ∀ b,t.api.alive b=true → s.api.alive b=true) (hj : ∀ x∈s.api.jobs,x∈t.api.jobs) : Inv t := by
  refine ⟨hc,fun d hm => ?_,fun d hs => ?_⟩
  · rw [hl]
    exact hi.known d (hd ▸ hm)
  · unfold SentSince
    rw [hl]
    refine (hi.coming d ⟨hd ▸ hs.1,hs.2.1,ha _ hs.2.2⟩).imp_right fun hx => ?_
    obtain ⟨x,hx,hb⟩ := hx
    exact ⟨x,hj x hx,hb⟩

theorem counted_last {st : Option HoldState} (hc : Counted 1 st) (hw : wasRequested st=true) :
    lastRequested st=true := by
  cases st with
  | none => cases hw
  | some st =>
    have hst : st.count-1=0 := by rw [hc.1]
    simp only [lastRequested,hst]
    exact hw

theorem Inv.quiet (hi : Inv s) (hok : Requested s a) (hq : Quiet s a t) : Inv t := by
  obtain ⟨js,hjobs,-⟩ := hq.jobs
  have hkeep : ∀ x∈s.api.jobs,x∈t.api.jobs := fun x hx => by
    rw [hjobs]
    exact mem_append_left js hx
  rcases hq.drops with hd | ⟨h,hold,th,hd⟩
  · exact hi.keep (hq.tallied hi.tallied) hq.log hd (fun b hb => by rwa [hq.alive] at hb) hkeep
  · refine ⟨hq.tallied hi.tallied,fun d hm => ?_,fun d hs => ?_⟩
    · rw [hq.log]
      rw [hd.drops] at hm
      rcases mem_append.mp hm with hm | hm
      · exact hi.known d hm
      · obtain rfl := mem_singleton.mp hm
        exact Nat.le_refl _
    · obtain ⟨hm,hal,hb⟩ := hs
      rw [hd.drops] at hm
      rw [hq.alive] at hb
      rcases mem_append.mp hm with hm | hm
      · unfold SentSince
        rw [hq.log]
        refine (hi.coming d ⟨hm,hal,hb⟩).imp_right fun hx => ?_
        obtain ⟨x,hx,hs⟩ := hx
        exact ⟨x,hkeep x hx,hs⟩
      · -- this drop: the release was asked for, so the last hold begins it
        obtain rfl := mem_singleton.mp hm
        have hone:=of_decide_eq_true (Bool.and_eq_true_iff.mp hal).2
        have hreq:=hok h hd.unrefs hold hd.found hd.last hd.wrapped hb hone
        have hc:=hi.tallied hold.buf
        rw [hone] at hc
        refine .inr ⟨(th,.start hold.buf),?_,decide_eq_true rfl⟩
        rw [hd.jobs,counted_last hc hreq]
        exact mem_append_right _ (mem_singleton_self _)

theorem sends_follow (p : Api) {j : Job} (hb : p.alive b=true) (h : Job.sends b j=true) :
    (p.emitted j).any (isRelease b)=true ∨ ∃ j',p.follow j=some j' ∧ Job.sends b j'=true := by
  cases j with
  | start c =>
    obtain rfl : c=b := of_decide_eq_true h
    exact .inr ⟨.pop c,if_pos hb,h⟩
  | pop => exact .inr ⟨_,rfl,h⟩
  | send c =>
    obtain rfl : c=b := of_decide_eq_true h
    left
    simp [Api.emitted,hb,isRelease]
  | _ => cases h

theorem mem_perform {p : Api} {i th : Nat} {j : Job} {x : Nat × Job} (h : p.jobs[i]?=some (th,j))
    (hx : x∈p.jobs) : x=(th,j) ∨ x∈(p.perform i th j).jobs := by
  rw [jobs_split h] at hx
  rcases mem_append.mp hx with hx | hx
  · exact .inr (mem_append_left _ (mem_append_left _ hx))
  · exact (mem_cons.mp hx).imp_right (mem_append_right _)

theorem Inv.job {i th : Nat} {j : Job} (hi : Inv s) (hj : s.api.jobs[i]?=some (th,j))
    (ht : t.api=s.api.perform i th j) (hd : t.drops=s.drops) : Inv t := by
  have hlog : t.api.log=s.api.log++s.api.emitted j := by rw [ht]; rfl
  have halive : t.api.alive=s.api.alive := by rw [ht]; rfl
  refine ⟨by rw [ht]; exact hi.tallied.perform i th,fun d hm => ?_,fun d hs => ?_⟩
  · rw [hlog,length_append]
    exact Nat.le_add_right_of_le (hi.known d (hd ▸ hm))
  · obtain ⟨hm,hal,hb⟩ := hs
    rw [hd] at hm
    rw [halive] at hb
    unfold SentSince
    rw [hlog,drop_append_of_le_length (hi.known d hm),any_append,Bool.or_eq_true]
    rcases hi.coming d ⟨hm,hal,hb⟩ with hsent | ⟨x,hx,hsends⟩
    · exact .inl (.inl hsent)
    · rcases mem_perform hj hx with rfl | hx
      · rcases sends_follow s.api hb hsends with he | ⟨j',hf,hs⟩
        · exact .inl (.inr he)
        · refine .inr ⟨(th,j'),?_,hs⟩
          rw [ht]
          show (th,j')∈s.api.jobs.take i++_++_
          rw [hf]
          simp
      · exact .inr ⟨x,by rw [ht]; exact hx,hsends⟩

theorem inv_step (hi : Inv s) (hok : Requested s a) (h : step kind s a=some t) : Inv t := by
  cases step_effect h with
  | quiet _ _ hq => exact hi.quiet hok hq
  | committed x =>
    exact hi.keep hi.tallied rfl rfl (fun _ => id) fun x hx => mem_append_left _ hx
  | destroyed => exact hi.keep hi.tallied rfl rfl (fun _ => alive_of_destroy) fun _ => id
  | job i th j hj => exact hi.job hj rfl rfl
  | _ => exact hi.keep hi.tallied rfl rfl (fun _ => id) fun _ => id

theorem inv_init : Inv init := ⟨tallied_init,nofun,fun _ hs => nomatch hs.1⟩

theorem requested_job (s : State) (i : Nat) : Requested s (.job i) := nofun

/-- In every run in which the last hold of a buffer goes only after a release of
it was asked for. -/
theorem not_stranded (hr : Reach (step kind) Requested init s) : NotStranded kind s := by
  have hinv (u : State) (hu : Reach (step kind) Requested init u) : Inv u :=
    hu.keeps inv_init inv_step
  refine ⟨(hinv s hr).coming,?_⟩
  obtain ⟨n,t,ht,hd,ha,hjobs⟩ := jobs_run_out kind s
  have hm : Meets (step kind) Requested s (List.replicate n (.job 0)) := by
    refine meets_of_invariant (I := fun _ => True) (L := fun a => a=.job 0) trivial (fun _ _ _ _ _ _ => trivial)
      (fun u a _ hl => hl ▸ requested_job u 0) fun a hm => eq_of_mem_replicate hm
  refine ⟨n,t,ht,fun d hs => ?_⟩
  have hs' : Sole t d := ⟨hd ▸ hs.1,hs.2.1,ha ▸ hs.2.2⟩
  refine ((hinv t (reach_of_meets hr hm ht)).coming d hs').resolve_right ?_
  rintro ⟨x,hx,-⟩
  rw [hjobs] at hx
  cases hx

def attaching : List Presentation.Act := [.request true,.join,.install 1 1,.announce]

def queuing (x b now : Nat) : List Presentation.Act :=
  [.attach x (some b),.commit x,.notePoint,.checkAttached,.queueRelease,.endTap,.recordDamage now]

def choosing (x : Nat) : List Presentation.Act := [.observe,.begin,.cloneDmabuf x,.split,.decideRecording]

def recorded : List Presentation.Act :=
  attaching++([.setRecording true] : List Presentation.Act)++queuing 0 10 1++choosing 0 ++
  ([.wrap,.outerCommit 1 1 true,.push false] : List Presentation.Act)

def letGo : List Presentation.Act := [.freeOuter 0,.outerReleased 0,.dropNext,.dropNext,.recorderDrop 3 0]

instance : Decidable (Requested s a) := by
  unfold Requested
  infer_instance

/-- The buffer is committed to a second surface as well, and the flush of that release finds it held. -/
theorem not_stranded_committed_twice : ∃ s,Reach (step kinds) Requested init s ∧
    s.drops=[⟨10,true,0⟩] ∧ s.api.log=[.release 10 0] ∧ NotStranded kinds s := by
  have hr : Reach (step kinds) Requested init _ :=
    reach_exec (recorded++queuing 1 10 2 ++
      ([.frameDone 0,.begin,.job 0,.job 0] : List Presentation.Act) ++
      letGo++(List.replicate 3 (.job 0) : List Presentation.Act))
      (meets_decided (by decide +kernel)) (by decide +kernel)
  refine ⟨_,hr,?_,?_,not_stranded hr⟩ <;> decide +kernel

/-- The deferred release became the hold, and nobody asks for another. -/
theorem stranded_by_recorder : ∃ s,Reach (step kinds) Free init s ∧ s.outerWake.isSome=true ∧
    s.recording=true ∧ s.drops=[⟨10,true,0⟩] ∧ s.api.alive 10=true ∧ s.api.pinned=[] ∧
    s.api.jobs=[] ∧ s.api.log=[] ∧ ¬NotStranded kinds s := by
  have hr : Reach (step kinds) Free init _ := reach_free (recorded++letGo) (by decide +kernel)
  refine ⟨_,hr,?_,?_,?_,?_,?_,?_,?_,fun hn => ?_⟩
  case refine_8 =>
    rcases hn.coming ⟨10,true,0⟩ ⟨by decide +kernel,rfl,by decide +kernel⟩ with hsent | ⟨x,hx,-⟩
    · cases hsent
    · cases hx
  all_goals decide +kernel

end Waymux.Session.RecordingHolds
