import Waymux.Session.Attachment
import Waymux.Session.RecordingHolds

/-!
# Buffers the outer compositor reads

The client may draw into a forwarded dmabuf as soon as it is sent `wl_buffer.release`.
-/

namespace Waymux.Session.Tearing
open BufferRelease Presentation PresentationCases Obligations Effects Attachment List
open Interleave.Runs CommitReleases RecordingHolds

variable {kind : Nat → BufferKind} {s t : State} {a : Presentation.Act} {b : Nat} {o : OuterBuffer}

/-- No buffer was released while an outer buffer that wraps it was in flight. -/
def NeverTorn (s : State) : Prop := s.torn=[]

/-- An outer buffer takes with it all the releases its buffer is still owed, and
a buffer is not committed again while it is in flight. -/
def Unshared (s : State) : Presentation.Act → Prop
  | .outerCommit .. => ∀ b∈chosen s.view,owed true s b=View.owes b s.view
  | .commit x => ∀ nb∈(s.surfaces x).pendingBuffer,wrappedInFlight s.inflight nb=false
  | _ => True

structure Inv (kind : Nat → BufferKind) (s : State) : Prop where
  chosen : ∀ b,chosen s.view=some b → kind b=.dmabuf
  wraps : ∀ o∈s.inflight,kind o.wraps=.dmabuf
  /-- the releases to come are the outer buffer's own -/
  own : ∀ o∈s.inflight,o.freed=false → owed true s o.wraps=o.releases.directs.count o.wraps
  torn : NeverTorn s

theorem carried_le (ho : o∈s.inflight) (b : Nat) : o.releases.directs.count b ≤ inflightOwe b s.inflight := by
  obtain ⟨k,hk⟩ := List.getElem?_of_mem ho
  rw [inflightOwe_split hk]
  exact Nat.le_add_right _ _

theorem Inv.alone (hi : Inv kind s) (ho : o∈s.inflight) (hf : o.freed=false) :
    apiOwes true s.api o.wraps=0 ∧ View.owes o.wraps s.view=0 := by
  have hown:=hi.own o ho hf
  have hle:=carried_le ho o.wraps
  unfold owed at hown
  omega

theorem Inv.unspent (hi : Inv kind s) (ho : o∈s.inflight) (hf : o.freed=false) (h : step kind s a=some t)
    (hne : t.inflight≠[]) : spentBy true s o.wraps a=0 := by
  obtain ⟨hapi,hview⟩ := hi.alone ho hf
  cases step_cases h with
  | job i th j hj =>
    have hp:=@perform_owes true o.wraps s.api th i j hj
    simp only [spentBy,hj]
    omega
  | wrap c d left holds hv =>
    simp only [hv,View.owes,count_cons_one] at hview
    simp only [spentBy,hv]
    omega
  | finish | panicked => exact absurd rfl hne
  | _ => rfl

theorem Inv.unmade (hi : Inv kind s) (hok : Unshared s a) (ho : o∈s.inflight) (hf : o.freed=false) :
    made kind s o.wraps a=0 := by
  cases a with
  | commit x =>
    simp only [made]
    split
    next nb hn =>
      have hnb : nb≠o.wraps := by
        rintro rfl
        have hfree:=any_eq_false.mp (hok o.wraps hn) o ho
        simp [hf] at hfree
      have hprev : o.wraps∉replaced kind (s.surfaces x) := by
        unfold replaced
        split
        · split
          · exact not_mem_nil
          next hk =>
            intro hm
            exact hk (mem_singleton.mp hm ▸ hi.wraps o ho)
        · exact not_mem_nil
      rw [one_of_ne hnb,count_eq_zero.mpr hprev]
    · rfl
  | _ => rfl

theorem inflight_cases (h : Turn s a t) (ho : o∈t.inflight) :
    (∃ o'∈s.inflight,o'.wraps=o.wraps ∧ (o.freed=false → o'=o)) ∨
    ∃ w h al b releases,a=.outerCommit w h al ∧ chosen s.view=some b ∧
      releases.directs.count b=View.owes b s.view ∧ o=⟨b,releases,false⟩ := by
  cases h with
  | forwarded w h al b releases ha _ _ hc hd hi =>
    rw [hi] at ho
    rcases mem_append.mp ho with ho | ho
    · exact .inl ⟨o,ho,rfl,fun _ => rfl⟩
    · exact .inr ⟨w,h,al,b,releases,ha,hc,hd,mem_singleton.mp ho⟩
  | freed k o' _ hk hi =>
    rw [hi] at ho
    rcases mem_or_eq_of_mem_set ho with ho | rfl
    · exact .inl ⟨o,ho,rfl,fun _ => rfl⟩
    · exact .inl ⟨o',mem_of_getElem? hk,rfl,nofun⟩
  | returned k _ hi =>
    rw [hi] at ho
    exact .inl ⟨o,mem_of_mem_eraseIdx ho,rfl,fun _ => rfl⟩
  | tornDown _ _ _ _ hi =>
    rw [hi] at ho
    cases ho
  | moved _ hi | cleared _ _ _ hi | gone _ _ _ hi | failed _ _ _ hi | installed _ _ _ _ hi | announced _ _ _ _ _ hi
  | requested _ _ _ _ hi | spawned _ _ _ _ _ hi | joined _ _ _ _ hi | unset _ _ _ _ hi | drained _ _ _ _ hi
  | announcedGone _ _ _ _ hi =>
    rw [hi] at ho
    exact .inl ⟨o,ho,rfl,fun _ => rfl⟩

theorem Inv.unwrapped {i th : Nat} {j : Job} (hi : Inv kind s) (hj : s.api.jobs[i]?=some (th,j))
    (hr : released s.api j=some b) : wrappedInFlight s.inflight b=false := by
  refine any_eq_false.mpr fun o ho hw => ?_
  obtain ⟨hwr,hf⟩ := Bool.and_eq_true_iff.mp hw
  obtain rfl : o.wraps=b := of_decide_eq_true hwr
  obtain ⟨hapi,-⟩ := hi.alone ho (Bool.not_eq_true' _ ▸ hf)
  have howes : Job.owes true o.wraps j=1 := by
    cases j with
    | send c =>
      simp only [released] at hr
      split at hr
      · rw [← Option.some.inj hr]
        exact one_self c
      · cases hr
    | _ => cases hr
  have hjobs:=congrArg (jobsOwe true o.wraps) (jobs_split hj)
  rw [jobsOwe_append,jobsOwe_cons] at hjobs
  dsimp only at hjobs
  unfold apiOwes at hapi
  omega

theorem torn_step (hi : Inv kind s) (h : step kind s a=some t) : NeverTorn t := by
  cases step_effect h with
  | quiet _ _ hq => exact hq.torn.trans hi.torn
  | job i th j hj =>
    show s.torn++(released s.api j).toList.filter _=[]
    rw [hi.torn,nil_append]
    cases hr : released s.api j with
    | none => rfl
    | some =>
      rw [Option.toList_some,filter_cons_of_neg (by rw [hi.unwrapped hj hr]; nofun)]
      rfl
  | _ => exact hi.torn

theorem inv_step (hi : Inv kind s) (hok : Unshared s a) (h : step kind s a=some t) : Inv kind t := by
  obtain ⟨hturn,hchosen,-⟩ := step_turn h
  have hbal (b : Nat) := @step_owed kind s t a true b h
  refine ⟨fun b hb => (hchosen b hb).elim (hi.chosen b) id,fun o ho => ?_,fun o ho hf => ?_,torn_step hi h⟩
  · rcases inflight_cases hturn ho with ⟨o',ho',hw,-⟩ | ⟨w,hh,al,b,releases,-,hc,-,rfl⟩
    · exact hw ▸ hi.wraps o' ho'
    · exact hi.chosen b hc
  · rcases inflight_cases hturn ho with ⟨o',ho',-,heq⟩ | ⟨w,hh,al,b,releases,rfl,hc,hd,rfl⟩
    · obtain rfl := heq hf
      have hspent:=hi.unspent ho' hf h (ne_nil_of_mem ho)
      have hmade:=hi.unmade hok ho' hf
      have hown:=hi.own o' ho' hf
      have := hbal o'.wraps
      omega
    · -- the new outer buffer: all that is owed was deferred for it
      have hall:=hok b hc
      have hb : owed true t b=owed true s b := hbal b
      show owed true t b=releases.directs.count b
      omega

theorem inv_init : Inv kind init := ⟨nofun,nofun,nofun,rfl⟩

/-- In every run in which an outer buffer takes all releases along and no buffer is committed while it is in
flight. -/
theorem never_torn (hr : Reach (step kind) Unshared init s) : NeverTorn s := by
  have hi : Inv kind s := hr.keeps inv_init inv_step
  exact hi.torn

instance : Decidable (Unshared s a) := by
  unfold Unshared
  rcases a with ⟨⟩ <;> infer_instance

def forwarding : List Presentation.Act :=
  attaching++queuing 0 10 1++choosing 0 ++
  ([.outerCommit 1 1 true,.push false] : List Presentation.Act)

theorem never_torn_forwarded : ∃ s,Reach (step kinds) Unshared init s ∧ s.forwarded=[10] ∧
    s.api.log=[.release 10 0] ∧ NeverTorn s := by
  have hr : Reach (step kinds) Unshared init _ :=
    reach_exec (forwarding++([.freeOuter 0,.outerReleased 0] : List Presentation.Act) ++
      releasing)
      (meets_decided (by decide +kernel)) (by decide +kernel)
  refine ⟨_,hr,?_,?_,never_torn hr⟩ <;> decide +kernel

/-- A commit without a buffer makes the view forward the dmabuf again; the release of the first outer buffer
gives it back. -/
theorem torn_when_forwarded_twice : ∃ s,Reach (step kinds) Free init s ∧ s.forwarded=[10,10] ∧
    s.inflight=[⟨10,.direct [],false⟩] ∧ s.api.log=[.release 10 0] ∧ ¬NeverTorn s := by
  have hr : Reach (step kinds) Free init _ := reach_free (forwarding ++
    ([.commit 0,.endTap,.recordDamage 2,.frameDone 0] : List Presentation.Act)++choosing 0 ++
    ([.outerCommit 1 1 true,.push false,.freeOuter 0,.outerReleased 0] : List Presentation.Act) ++
    releasing) (by decide +kernel)
  refine ⟨_,hr,?_,?_,?_,show ¬_=[] from ?_⟩ <;> decide +kernel

end Waymux.Session.Tearing
