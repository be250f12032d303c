import Waymux.Registry.Schedules

/-!
# SessionCreated and SessionDestroyed

`create` broadcasts after it has released the map lock, the supervisor in its last step.
-/

namespace Waymux.Registry.LifecycleEvents
open HostResources TaskState TaskSteps StepCases TaskFrames Incarnations List
open NameExclusive Schedules Interleave.Runs Interleave.Logs

variable {s t : Daemon} {a : Act} {i j : Inc} {m : Bool}

def createdInc : Event → Option Inc
  | .sessionCreated _ i => some i
  | _ => none
def destroyedInc : Event → Option Inc
  | .sessionDestroyed _ _ i => some i
  | _ => none

def created (s : Daemon) : List Inc := s.events.filterMap createdInc
def destroyed (s : Daemon) : List Inc := s.events.filterMap destroyedInc

def finished : SupPc → Bool
  | .done _ => true
  | _ => false

section Step
variable (h : step s a=some t)
include h

theorem announced_stable (hd : (s.creates i).pc=.done none) : (t.creates i).pc=.done none := by
  rcases create_frame h i with hs | ⟨args,_,hpc,_⟩ | ⟨o,_,hc⟩
  · rw [hs,hd]
  · simp [hd] at hpc
  · cases hc <;> simp_all

theorem announced_now (hd : (t.creates i).pc=.done none) (hn : (s.creates i).pc≠.done none) :
    t.events=s.events++[Event.sessionCreated (nameOf s i) i] := by
  rcases create_frame h i with hs | ⟨args,_,_,hq⟩ | ⟨o,_,hc⟩
  · exact absurd (hs ▸ hd) hn
  · rcases callCreate_pc args with hl | ⟨err,hl⟩ <;> simp [hq,hl] at hd
  · cases hc with
    | announce => rfl
    | clear k => cases k <;> simp [createAt,setCreate,afterClear] at hd
    | bind k => cases k <;> simp [createAt,setCreate,afterBind] at hd
    | _ => simp [createAt,setCreate] at hd

theorem finished_stable (w : Wf s) (hd : finished (s.sups i)=true) : finished (t.sups i)=true := by
  rcases sup_frame h i with hs | ⟨hpc,_,_⟩ | ⟨o,_,hc⟩
  · rw [hs,hd]
  · refine absurd ((w.sup_iff i).mp fun hnone => ?_) (inFlight_of_pc hpc rfl).not_inserted
    simp [hnone,finished] at hd
  · have := supCase_live hc
    cases hp : s.sups i <;> simp [hp,supLive,finished] at this hd

theorem finished_now (hd : finished (t.sups i)=true) (hn : finished (s.sups i)≠true) :
    ∃ o code,a=.supStep i o ∧ s.sups i=.announce code ∧
      t.events=s.events++[Event.sessionDestroyed (nameOf s i) code i] := by
  rcases sup_frame h i with hs | ⟨_,_,hw⟩ | ⟨o,ha,hc⟩
  · exact absurd (hs ▸ hd) hn
  · simp [hw,finished] at hd
  · cases hc with
    | announce code hpc => exact ⟨o,code,ha,hpc,rfl⟩
    | removed code e pc _ _ hp => rcases hp with ⟨_,rfl⟩ | ⟨_,rfl⟩ <;> simp [supAt,finished] at hd
    | unlink code k => cases k <;> simp [supAt,afterUnlink,finished] at hd
    | _ => simp [supAt,finished] at hd

theorem created_step (hs : Marks (fun i => (s.creates i).pc=.done none) (created s)) :
    Marks (fun i => (t.creates i).pc=.done none) (created t) := by
  -- without a new `SessionCreated` no create call has returned
  have quiet (hq : created t=created s) : Marks (fun i => (t.creates i).pc=.done none) (created t) := by
    rw [hq]
    refine hs.same fun i => ⟨fun hd => by_contra fun hn => ?_,announced_stable h⟩
    have := announced_now h hd hn
    simp [created,this,createdInc] at hq
  cases event_effect h with
  | same he => exact quiet (by simp [created,he])
  | destroyed k o code _ he | childExited c code he | crashed c code he =>
    exact quiet (by simp [created,he,createdInc])
  | created k o hpc he hd =>
    have hk : created t=created s++[k] := by simp [created,he,createdInc]
    rw [hk]
    refine hs.append (by simp [hpc]) fun i => ⟨fun hi => ?_,fun hi => hi.elim (announced_stable h) ?_⟩
    · by_cases hn : (s.creates i).pc=.done none
      · exact .inl hn
      · have := announced_now h hi hn
        simp [he] at this
        exact .inr this.2.symm
    · rintro rfl
      exact hd

theorem destroyed_step (w : Wf s) (hs : Marks (fun i => finished (s.sups i)=true) (destroyed s)) :
    Marks (fun i => finished (t.sups i)=true) (destroyed t) := by
  have quiet (hq : destroyed t=destroyed s) : Marks (fun i => finished (t.sups i)=true) (destroyed t) := by
    rw [hq]
    refine hs.same fun i => ⟨fun hd => by_contra fun hn => ?_,finished_stable h w⟩
    obtain ⟨o,code,_,_,this⟩ := finished_now h hd hn
    simp [destroyed,this,destroyedInc] at hq
  cases event_effect h with
  | same he => exact quiet (by simp [destroyed,he])
  | created k o _ he | childExited c code he | crashed c code he =>
    exact quiet (by simp [destroyed,he,destroyedInc])
  | destroyed k o code hpc he hd =>
    have hk : destroyed t=destroyed s++[k] := by simp [destroyed,he,destroyedInc]
    rw [hk]
    refine hs.append (by simp [hpc,finished]) fun i => ⟨fun hi => ?_,fun hi => hi.elim (finished_stable h w) ?_⟩
    · by_cases hn : finished (s.sups i)=true
      · exact .inl hn
      · obtain ⟨_,code',_,_,this⟩ := finished_now h hi hn
        simp [he] at this
        exact .inr this.2.2.symm
    · rintro rfl
      simp [hd,finished]

end Step

theorem destroyed_reach {ok : Daemon → Act → Prop} (hr : Reach step ok (init m) s) :
    Marks (fun i => finished (s.sups i)=true) (destroyed s) :=
  hr.invariant ⟨by simp [destroyed,init,finished],nodup_nil⟩ fun hu hs _ h =>
    destroyed_step h (wf_reach hu) hs

def subject : Event → Option (Name × Inc)
  | .sessionCreated n i => some (n,i)
  | .sessionDestroyed n _ i => some (n,i)
  | _ => none

def Named (s : Daemon) : Prop :=
  ∀ x∈s.events,∀ n i,subject x=some (n,i) → nameOf s i=n ∧ Inserted s i

theorem named_step (w : Wf s) (hs : Named s) (h : step s a=some t) : Named t := by
  intro x hx n i hn
  have old (hi : nameOf s i=n ∧ Inserted s i) : nameOf t i=n ∧ Inserted t i :=
    ⟨(name_stable h hi.2.not_idle).trans hi.1,hi.2.stable h⟩
  cases event_effect h with
  | same he => exact old (hs x (he ▸ hx) n i hn)
  | created k o hpc he =>
    rcases mem_append.mp (he ▸ hx) with hx | hx
    · exact old (hs x hx n i hn)
    · rw [mem_singleton.mp hx] at hn
      cases hn
      exact old ⟨rfl,.inl hpc⟩
  | destroyed k o code hpc he =>
    rcases mem_append.mp (he ▸ hx) with hx | hx
    · exact old (hs x hx n i hn)
    · rw [mem_singleton.mp hx] at hn
      cases hn
      exact old ⟨rfl,(w.sup_iff i).mp (by simp [hpc])⟩
  | childExited c code he | crashed c code he =>
    rcases mem_append.mp (he ▸ hx) with hx | hx
    · exact old (hs x hx n i hn)
    · rw [mem_singleton.mp hx] at hn
      cases hn

def CreatedFirst (s : Daemon) (a : Act) : Prop :=
  ∀ i o code,a=.supStep i o → s.sups i=.announce code → (s.creates i).pc=.done none

/-- A name is taken again only when no task of an earlier session of the name is at work, and creations are
reported first. -/
def InOrder (s : Daemon) (a : Act) : Prop := Alone Busy s a ∧ CreatedFirst s a

structure Ordered (s : Daemon) : Prop where
  created_marks : Marks (fun i => (s.creates i).pc=.done none) (created s)
  named : Named s
  reported : ∀ i,finished (s.sups i)=true → (s.creates i).pc=.done none
  created_first : ∀ i,Precedes (createdInc ·=some i) (destroyedInc ·=some i) s.events
  after_earlier : ∀ i j,[i,j].Sublist s.history → nameOf s i=nameOf s j →
    Precedes (destroyedInc ·=some i) (createdInc ·=some j) s.events

theorem earlier_finished (ho : Ordered s) (w : Wf s) (hh : HistoryOk s) (hu : Sole Busy s)
    (hp : [i,j].Sublist s.history) (hn : nameOf s i=nameOf s j)
    (hj : (s.creates j).pc=.announce) : finished (s.sups i)=true := by
  have hne : i≠j := by simpa using hh.nodup.sublist hp
  have hi : Inserted s i := (hh.mem i).mp (hp.subset mem_cons_self)
  have live {k : Inc} (hk : Inserted s k) (hf : finished (s.sups k)≠true) : Busy s k := by
    refine .inr (.inl ?_)
    have hsup:=(w.sup_iff k).mpr hk
    cases hp : s.sups k <;> simp_all [supLive,finished]
  have hjl : Busy s j := live (.inl hj) fun hf => by simp [ho.reported j hf] at hj
  by_contra hf
  exact hne (hu i j (live hi hf) hjl hn)

section Order
variable (ho : Ordered s) (h : step s a=some t)
include ho h

theorem reported_step (hc : CreatedFirst s a) (i : Inc) (hd : finished (t.sups i)=true) :
    (t.creates i).pc=.done none := by
  refine announced_stable h ?_
  by_cases hs : finished (s.sups i)=true
  · exact ho.reported i hs
  · obtain ⟨o,code,ha,hpc,_⟩ := finished_now h hd hs
    exact hc i o code ha hpc

theorem created_first_step (hc : CreatedFirst s a) (i : Inc) :
    Precedes (createdInc ·=some i) (destroyedInc ·=some i) t.events := by
  cases event_effect h with
  | same he => exact he ▸ ho.created_first i
  | created k o _ he | childExited c code he | crashed c code he =>
    exact he ▸ (ho.created_first i).append (by simp [destroyedInc])
  | destroyed k o code hpc he =>
    refine he ▸ (ho.created_first i).append fun hk => ?_
    have hk : k=i := Option.some.inj hk
    have hmem:=(ho.created_marks.mem i).mpr (hk ▸ hc k o code rfl hpc)
    exact mem_filterMap.mp hmem

theorem after_earlier_step (w : Wf s) (hh : HistoryOk s) (hu : Sole Busy s)
    (hd : Marks (fun i => finished (s.sups i)=true) (destroyed s)) (i j : Inc)
    (hp : [i,j].Sublist t.history) (hn : nameOf t i=nameOf t j) :
    Precedes (destroyedInc ·=some i) (createdInc ·=some j) t.events := by
  -- a pair that is new has its second create call still to report
  have hpair : [i,j].Sublist s.history ∨ (s.creates j).pc=.insert := by
    rcases history_frame h with ht | ⟨k,o,_,hpc,_,ht⟩
    · exact .inl (ht ▸ hp)
    · rcases pair_sublist_append (ht ▸ hp) with hp | rfl
      · exact .inl hp
      · exact .inr hpc
  rcases hpair with hp | hpc
  · have hi : Inserted s i := (hh.mem i).mp (hp.subset (by simp))
    have hj : Inserted s j := (hh.mem j).mp (hp.subset (by simp))
    rw [name_stable h hi.not_idle,name_stable h hj.not_idle] at hn
    have hold:=ho.after_earlier i j hp hn
    cases event_effect h with
    | same he => exact he ▸ hold
    | destroyed k o code _ he | childExited c code he | crashed c code he =>
      exact he ▸ hold.append (by simp [createdInc])
    | created k o hpc he =>
      refine he ▸ hold.append fun hk => ?_
      have hk : k=j := Option.some.inj hk
      have hfin:=earlier_finished ho w hh hu hp hn (hk ▸ hpc)
      exact mem_filterMap.mp ((hd.mem i).mpr hfin)
  · refine precedes_of_absent fun y hy hc => ?_
    have hmem : j∈created t := mem_filterMap.mpr ⟨y,hy,hc⟩
    have hd:=((created_step h ho.created_marks).mem j).mp hmem
    rcases create_frame h j with hs | ⟨args,_,hidle,_⟩ | ⟨o,_,hk⟩
    · simp [← hs,hd] at hpc
    · simp [hpc] at hidle
    · cases hk <;> simp_all [createAt,setCreate]

end Order

theorem ordered_init (m : Bool) : Ordered (init m) where
  created_marks := ⟨by simp [created,init],nodup_nil⟩
  named := by simp [Named,init]
  reported := by simp [init,finished]
  created_first := fun _ => precedes_nil _ _
  after_earlier := fun _ _ _ _ => precedes_nil _ _

theorem ordered_reach (hr : Reach step InOrder (init m) s) : Ordered s := by
  refine hr.invariant (ordered_init m) fun {u v a} hu ho ha h => ?_
  have w:=wf_reach hu
  exact {
    created_marks := created_step h ho.created_marks
    named := named_step w ho.named h
    reported := reported_step ho h ha.2
    created_first := created_first_step ho h ha.2
    after_earlier := after_earlier_step ho h w (history_reach hu)
      (sole_busy (fun _ _ hok => hok.1) hu) (destroyed_reach hu)}

structure Announced (s : Daemon) : Prop where
  one_created : ∀ i,(created s).count i=if (s.creates i).pc=.done none then 1 else 0
  one_destroyed : ∀ i,(destroyed s).count i=if finished (s.sups i)=true then 1 else 0
  named : ∀ x∈s.events,∀ n i,subject x=some (n,i) → nameOf s i=n
  created_first : ∀ i,Precedes (createdInc ·=some i) (destroyedInc ·=some i) s.events
  after_earlier : ∀ i j,[i,j].Sublist s.history → nameOf s i=nameOf s j →
    Precedes (destroyedInc ·=some i) (createdInc ·=some j) s.events

/-- In every run that meets the condition, each successful create call and each supervisor reports once, the
creation before the end and after the end of every earlier session of the name. -/
theorem lifecycle_in_order (hr : Reach step InOrder (init m) s) : Announced s where
  one_created := fun i => by
    have hm:=(ordered_reach hr).created_marks
    split
    · next hd => exact hm.count_one hd
    · next hd => exact hm.count_zero hd
  one_destroyed := fun i => by
    have hm:=destroyed_reach hr
    split
    · next hd => exact hm.count_one hd
    · next hd => exact hm.count_zero hd
  named := fun x hx n i hn => ((ordered_reach hr).named x hx n i hn).1
  created_first := (ordered_reach hr).created_first
  after_earlier := (ordered_reach hr).after_earlier

def createdFirst (s : Daemon) : Act → Bool
  | .supStep i _ =>
      match s.sups i with
      | .announce _ => (s.creates i).pc=.done none
      | _ => true
  | _ => true

theorem createdFirst_correct (s : Daemon) (a : Act) (h : createdFirst s a=true) : CreatedFirst s a := by
  rintro i o code rfl hpc
  simpa [createdFirst,hpc] using h

theorem lifecycle_in_order_one_session : ∃ s,Reach step InOrder (init false) s ∧
    s.events=[.sessionCreated "a" 0,.sessionDestroyed "a" 0 0] ∧ Announced s := by
  have hm : Meets step InOrder (init false) (createRun 0 10 (plain "a")++exitRun 0) :=
    ((names_once false (by decide)).mono fun _ _ => alone_busy).and
      (meets_of_checked createdFirst_correct (by decide +kernel))
  have hr : Reach step InOrder (init false) _ := reach_exec _ hm (by decide +kernel)
  exact ⟨_,hr,by decide +kernel,lifecycle_in_order hr⟩

/-- The session process ends between the insertion and the broadcast of its
create call. -/
def quickExit : List Act :=
  openRun 0 10 (plain "a")++([.createStep 0 .ok] : List Act)++exitRun 0 ++
  ([.createStep 0 .ok] : List Act)

theorem destroyed_reported_before_created : ∃ s,Reach step Free (init false) s ∧
    s.events=[.sessionDestroyed "a" 0 0,.sessionCreated "a" 0] ∧ ¬Announced s := by
  have hr : Reach step Free (init false) _ := reach_free quickExit (by decide +kernel)
  refine ⟨_,hr,by decide +kernel,fun hann => ?_⟩
  obtain ⟨x,hx,_⟩ :=
    hann.created_first 0 [] (.sessionDestroyed "a" 0 0) [.sessionCreated "a" 0] (by decide +kernel) rfl
  cases hx

/-- In every run each successful create call and each finished supervisor reports once. -/
theorem reported_once (hr : Reach step Free (init m) s) (i : Inc) :
    (created s).count i=(if (s.creates i).pc=.done none then 1 else 0) ∧
    (destroyed s).count i=(if finished (s.sups i)=true then 1 else 0) := by
  have hc : Marks (fun i => (s.creates i).pc=.done none) (created s) :=
    hr.keeps ⟨by simp [created,init],nodup_nil⟩ fun hu _ h => created_step h hu
  exact ⟨hc.count_eq i,(destroyed_reach hr).count_eq i⟩

theorem reported_once_quick : ∃ s,(created s).count 0=1 ∧ (destroyed s).count 0=1 := by
  have hr : Reach step Free (init false) _ := reach_free quickExit (by decide +kernel)
  obtain ⟨hc,hd⟩ := reported_once hr 0
  exact ⟨_,hc.trans (by decide +kernel),hd.trans (by decide +kernel)⟩

end Waymux.Registry.LifecycleEvents
