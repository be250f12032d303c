import Waymux.Interleave.Runs
import Waymux.Interleave.Logs
import Waymux.Registry.TaskFrames

/-!
# Lives of an incarnation

The create call `i` fails, or inserts its entry and starts supervisor `i`. Holds in every run.
-/

namespace Waymux.Registry.Incarnations
open HostResources SessionNames TaskState TaskSteps StepCases TaskFrames Interleave.Runs Function
open Interleave.Logs

variable {s t : Daemon} {a : Act} {i j : Inc}

def working : CreatePc → Bool
  | .mkdir | .mount | .clear _ | .bind _ | .spawn | .wait | .unlinkReady | .cgroup | .join | .insert => true
  | _ => false

def InFlight (s : Daemon) (i : Inc) : Prop := working (s.creates i).pc=true
def Inserted (s : Daemon) (i : Inc) : Prop :=
  (s.creates i).pc=.announce ∨ (s.creates i).pc=.done none
def Failed (s : Daemon) (i : Inc) : Prop := ∃ err,(s.creates i).pc=.done (some err)
def Registered (s : Daemon) (i : Inc) : Prop :=
  ∃ e,s.sessions (nameOf s i)=some e ∧ e.inc=i

def registered (s : Daemon) (i : Inc) : Bool := (s.sessions (nameOf s i)).any fun e => e.inc=i

theorem registered_iff : registered s i=true ↔ Registered s i := by
  simp [registered,Registered,Option.any_eq_true]

instance : Decidable (Registered s i) := decidable_of_iff _ registered_iff

theorem InFlight.not_inserted (h : InFlight s i) : ¬Inserted s i := by
  rintro (hp | hp) <;> simp [InFlight,hp,working] at h

theorem InFlight.not_failed (h : InFlight s i) : ¬Failed s i := by
  rintro ⟨err,hp⟩
  simp [InFlight,hp,working] at h

theorem Inserted.not_failed (h : Inserted s i) : ¬Failed s i := by
  rintro ⟨err,hp⟩
  rcases h with h | h <;> simp [h] at hp

theorem inFlight_of_pc {pc : CreatePc} (h : (s.creates i).pc=pc) (hw : working pc=true) :
    InFlight s i := by rw [InFlight,h]; exact hw

theorem createAt_failed (s : Daemon) (i : Inc) (err : CreateError) : Failed (createAt s i (.done (some err))) i :=
  ⟨err,by simp [createAt,setCreate]⟩

theorem callCreate_pc (args : CreateArgs) :
    callCreate args=.lookup ∨ ∃ err,callCreate args=.done (some err) := by
  unfold callCreate
  split
  · exact .inr ⟨_,rfl⟩
  · exact .inr ⟨_,rfl⟩
  · exact .inl rfl

theorem create_phase (h : CreateCase s i t) : nameOf t i=nameOf s i ∧
    ((s.creates i).pc=.lookup ∧ Failed t i ∨
     (s.creates i).pc=.lookup ∧ s.sessions (nameOf s i)=none ∧ (t.creates i).pc=.mkdir ∨
     InFlight s i ∧ (InFlight t i ∨ Failed t i) ∨
     (s.creates i).pc=.insert ∧ (t.creates i).pc=.announce ∨
     (s.creates i).pc=.announce ∧ (t.creates i).pc=.done none) := by
  cases h with
  | taken e hpc =>
    simp [nameOf,createAt,setCreate,Failed,hpc]
  | free hpc hs => simp [nameOf,createAt,setCreate,hpc,← hs]
  | insert hpc => simp [nameOf,createAt,setCreate,supAt,setEntry,hpc]
  | announce hpc => simp [nameOf,createAt,setCreate,hpc]
  | failed err hpc =>
    rcases hpc with hpc | ⟨k,hpc⟩ | hpc <;>
      simp [nameOf,createAt,setCreate,Failed,InFlight,working,hpc]
  | abandoned err hpc | lost e hpc =>
    simp [nameOf,createAt,setCreate,killSession,Failed,InFlight,working,hpc]
  | clear k hpc =>
    cases k <;> simp [nameOf,createAt,setCreate,setDir,InFlight,working,hpc,afterClear]
  | bind k d hpc =>
    cases k <;> simp [nameOf,createAt,setCreate,setDir,InFlight,working,hpc,afterBind]
  | mkdir hpc | mounted d hpc | unmounted hpc | spawn p hpc | ready hpc | unlinkReady hpc
  | leaf hpc | noLeaf hpc | join hpc =>
    simp [nameOf,createAt,setCreate,setDir,setLeaf,InFlight,working,hpc]

theorem name_stable (h : step s a=some t) (hi : (s.creates j).pc≠.idle) : nameOf t j=nameOf s j := by
  rcases create_frame h j with hs | ⟨args,_,hpc,_⟩ | ⟨o,_,hc⟩
  · simp [nameOf,hs]
  · exact absurd hpc hi
  · exact (create_phase hc).1

theorem InFlight.not_idle (h : InFlight s i) : (s.creates i).pc≠.idle := by
  intro hp
  simp [InFlight,hp,working] at h

theorem Inserted.not_idle (h : Inserted s i) : (s.creates i).pc≠.idle := by
  rcases h with h | h <;> simp [h]

theorem Failed.not_idle (h : Failed s i) : (s.creates i).pc≠.idle := by
  obtain ⟨err,hp⟩ := h
  simp [hp]

theorem Inserted.stable (hi : Inserted s j) (h : step s a=some t) : Inserted t j := by
  rcases create_frame h j with hs | ⟨args,_,hpc,_⟩ | ⟨o,_,hc⟩
  · simpa only [Inserted,hs] using hi
  · exact absurd hpc hi.not_idle
  · rcases (create_phase hc).2 with ⟨hp,_⟩ | ⟨hp,_⟩ | ⟨hf,_⟩ | ⟨_,hp⟩ | ⟨_,hp⟩
    · rcases hi with hi | hi <;> simp [hi] at hp
    · rcases hi with hi | hi <;> simp [hi] at hp
    · exact absurd hi hf.not_inserted
    · exact .inl hp
    · exact .inr hp

theorem Failed.stable (hf : Failed s j) (h : step s a=some t) : Failed t j := by
  obtain ⟨err,hp⟩ := hf
  rcases create_frame h j with hs | ⟨args,_,hpc,_⟩ | ⟨o,_,hc⟩
  · exact ⟨err,by rw [hs,hp]⟩
  · simp [hp] at hpc
  · rcases (create_phase hc).2 with ⟨hq,_⟩ | ⟨hq,_⟩ | ⟨hf,_⟩ | ⟨hq,_⟩ | ⟨hq,_⟩
    · simp [hp] at hq
    · simp [hp] at hq
    · exact absurd ⟨err,hp⟩ hf.not_failed
    · simp [hp] at hq
    · simp [hp] at hq

theorem inFlight_before (h : step s a=some t) (hf : InFlight t j) : InFlight s j ∨
    ((s.creates j).pc=.lookup ∧ s.sessions (nameOf s j)=none ∧ ∃ o,a=.createStep j o) := by
  rcases create_frame h j with hs | ⟨args,_,_,hq⟩ | ⟨o,ha,hc⟩
  · exact .inl (by simpa only [InFlight,hs] using hf)
  · rcases callCreate_pc args with hl | ⟨err,hl⟩ <;> simp [InFlight,hq,hl,working] at hf
  · rcases (create_phase hc).2 with ⟨_,hq⟩ | ⟨hq,hs,_⟩ | ⟨hq,_⟩ | ⟨hq,_⟩ | ⟨_,hq⟩
    · exact absurd hq hf.not_failed
    · exact .inr ⟨hq,hs,o,ha⟩
    · exact .inl hq
    · exact .inl (inFlight_of_pc hq rfl)
    · simp [InFlight,hq,working] at hf

theorem inserted_before (h : step s a=some t) (hi : Inserted t j) : Inserted s j ∨
    (s.creates j).pc=.insert ∧ ∃ o,a=.createStep j o := by
  rcases create_frame h j with hs | ⟨args,_,_,hq⟩ | ⟨o,ha,hc⟩
  · exact .inl (by simpa only [Inserted,hs] using hi)
  · rcases callCreate_pc args with hl | ⟨err,hl⟩ <;> simp [Inserted,hq,hl] at hi
  · rcases (create_phase hc).2 with ⟨_,hq⟩ | ⟨_,_,hq⟩ | ⟨_,hq | hq⟩ | ⟨hq,_⟩ | ⟨hq,_⟩
    · exact absurd hq hi.not_failed
    · simp [Inserted,hq] at hi
    · exact absurd hi hq.not_inserted
    · exact absurd hq hi.not_failed
    · exact .inr ⟨hq,o,ha⟩
    · exact .inl (.inl hq)

/- The supervisor has not been at the map yet. -/
def armed : SupPc → Bool
  | .wait | .term | .remove _ => true
  | _ => false

/- The entry a destroy call has taken and not yet dealt with. -/
def taken : DestroyPc → Option SessionEntry
  | .emit e | .tags e | .kill e | .unmount e | .cleanup e => some e
  | _ => none

theorem destroy_name {d : Nat} (h : DestroyCase s d t) : (t.destroys d).name=(s.destroys d).name := by
  cases h <;> simp [destroyAt,take,setEntry,sigterm,forgetTags,setDir,cleanAt]

theorem taken_before (h : step s a=some t) {d : Nat} {e : SessionEntry}
    (ht : taken (t.destroys d).pc=some e) : (t.destroys d).name=(s.destroys d).name ∧
      (taken (s.destroys d).pc=some e ∨ s.sessions (s.destroys d).name=some e ∧
        t.removed=update s.removed e.inc (some e)) := by
  rcases destroy_frame h d with hs | ⟨n,_,_,hq⟩ | ⟨_,hc⟩
  · exact ⟨by rw [hs],.inl (hs ▸ ht)⟩
  · simp [hq,taken] at ht
  · refine ⟨destroy_name hc,?_⟩
    cases hc with
    | remove f hpc hs =>
      simp only [destroyAt,update_self,taken,Option.some.injEq] at ht
      subst ht
      exact .inr ⟨hs,rfl⟩
    | emit f hpc | tags f hpc | kill f hpc | unmount f hpc | noTmpfs f hpc =>
      simp only [destroyAt,update_self,taken,Option.some.injEq] at ht
      subst ht
      exact .inl (by simp [hpc,taken])
    | _ => simp [destroyAt,taken] at ht

structure Wf (s : Daemon) : Prop where
  entry_name : ∀ n e,s.sessions n=some e → nameOf s e.inc=n
  entry_inserted : ∀ n e,s.sessions n=some e → Inserted s e.inc
  entry_armed : ∀ n e,s.sessions n=some e → armed (s.sups e.inc)=true
  entry_present : ∀ n e,s.sessions n=some e → s.removed e.inc=none
  sup_iff : ∀ i,s.sups i≠.none ↔ Inserted s i
  removed_inserted : ∀ i e,s.removed i=some e → e.inc=i ∧ Inserted s i
  inserted_kept : ∀ i,Inserted s i → Registered s i ∨ s.removed i≠none
  destroy_taken : ∀ d e,taken (s.destroys d).pc=some e →
    s.removed e.inc=some e ∧ nameOf s e.inc=(s.destroys d).name
  sup_taken : ∀ i code e,s.sups i=.emit code e →
    s.removed e.inc=some e ∧ nameOf s e.inc=nameOf s i

theorem Registered.inserted (w : Wf s) (h : Registered s i) : Inserted s i := by
  obtain ⟨e,he,rfl⟩ := h
  exact w.entry_inserted _ e he

theorem Registered.armed (w : Wf s) (h : Registered s i) : armed (s.sups i)=true := by
  obtain ⟨e,he,rfl⟩ := h
  exact w.entry_armed _ e he

section Step
variable (w : Wf s) (h : step s a=some t)
include w h

theorem removed_stable {e : SessionEntry} (hr : s.removed j=some e) : t.removed j=some e := by
  rcases removed_frame h j with hs | ⟨n,f,rfl,hf,_,_⟩
  · rw [hs,hr]
  · simp [w.entry_present n f hf] at hr

theorem entry_name_step (n : Name) (e : SessionEntry) (he : t.sessions n=some e) : nameOf t e.inc=n := by
  rcases entry_after h he with ⟨i,hpc,hn,_,rfl,_⟩ | ⟨e',hs,hi,_⟩
  · exact (name_stable h (by simp [newEntry,hpc])).trans hn
  · rw [← hi,name_stable h (w.entry_inserted n e' hs).not_idle,w.entry_name n e' hs]

theorem entry_inserted_step (n : Name) (e : SessionEntry) (he : t.sessions n=some e) : Inserted t e.inc := by
  rcases entry_after h he with ⟨i,_,_,_,rfl,hc,_⟩ | ⟨e',hs,hi,_⟩
  · exact .inl hc
  · exact hi ▸ (w.entry_inserted n e' hs).stable h

theorem entry_present_step (n : Name) (e : SessionEntry) (he : t.sessions n=some e) : t.removed e.inc=none := by
  have hout : s.removed e.inc=none := by
    rcases entry_after h he with ⟨i,hpc,_,_,rfl,_,_⟩ | ⟨e',hs,hi,_⟩
    · by_contra hne
      obtain ⟨f,hf⟩ := Option.ne_none_iff_exists'.mp hne
      exact (inFlight_of_pc hpc rfl).not_inserted (w.removed_inserted _ f hf).2
    · exact hi ▸ w.entry_present n e' hs
  rcases removed_frame h e.inc with hs | ⟨m,f,hi,hf,hm,_⟩
  · rw [hs,hout]
  · -- the entry removed in this step would be the one that is still there
    have hn:=entry_name_step w h n e he
    rw [← hi,name_stable h (w.entry_inserted m f hf).not_idle,w.entry_name m f hf] at hn
    subst hn
    simp [he] at hm

theorem entry_armed_step (n : Name) (e : SessionEntry) (he : t.sessions n=some e) :
    armed (t.sups e.inc)=true := by
  rcases entry_after h he with ⟨i,hpc,_,_,rfl,_,hw⟩ | ⟨e',hs,hi,_⟩
  · simp [newEntry,hw,armed]
  · have ha:=w.entry_armed n e' hs
    have hn:=w.entry_name n e' hs
    rw [← hi]
    rcases sup_frame h e'.inc with hsame | ⟨_,_,hw⟩ | ⟨o,_,hc⟩
    · rw [hsame,ha]
    · rw [hw]; rfl
    · cases hc with
      | removed =>
        -- the map section empties the name
        rw [hn] at he
        simp [supAt,take,setEntry] at he
      | absent code hpc hf =>
        rw [hn] at hf
        simp [hf] at hs
      | emit code f hpc | unmount code hpc | noTmpfs code hpc | tags code hpc | unlink code k hpc
      | rmdir code hpc | announce code hpc => simp [hpc,armed] at ha
      | _ => simp [supAt,killSession,armed]

theorem sup_iff_step (i : Inc) : t.sups i≠.none ↔ Inserted t i := by
  rcases sup_frame h i with hs | ⟨_,hc,hw⟩ | ⟨o,_,hc⟩
  · rw [hs,w.sup_iff i]
    refine ⟨fun hi => hi.stable h,fun hi => ?_⟩
    rcases inserted_before h hi with hi | ⟨hpc,o,rfl⟩
    · exact hi
    · -- the insertion starts the supervisor, so this one cannot have been there
      have hn:=(w.sup_iff i).not.mpr (inFlight_of_pc hpc rfl).not_inserted
      cases createStep_cases (show createStep s i o=some t from h) with
      | insert =>
        simp [createAt,setCreate,supAt] at hs
        simp [← hs] at hn
      | lost => simp [Inserted,createAt,setCreate] at hi
      | _ => simp_all
  · exact ⟨fun _ => .inl hc,fun _ => by simp [hw]⟩
  · have hi : Inserted s i := (w.sup_iff i).mp (by
      intro hn
      cases hc <;> simp_all)
    refine ⟨fun _ => hi.stable h,fun _ => ?_⟩
    cases hc with
    | unlink code k => cases k <;> simp [supAt,setDir,afterUnlink]
    | removed code e pc hpc hs hp =>
      rcases hp with ⟨_,rfl⟩ | ⟨_,rfl⟩ <;> simp [supAt]
    | _ => simp [supAt,killSession,setDir,forgetTags]

theorem removed_inserted_step (i : Inc) (e : SessionEntry) (hr : t.removed i=some e) :
    e.inc=i ∧ Inserted t i := by
  rcases removed_frame h i with hs | ⟨n,f,rfl,hf,_,hrf⟩
  · have hold:=w.removed_inserted i e (hs ▸ hr)
    exact ⟨hold.1,hold.2.stable h⟩
  · cases hr.symm.trans hrf
    exact ⟨rfl,(w.entry_inserted n e hf).stable h⟩

theorem registered_step (hr : Registered s i) : Registered t i ∨ t.removed i≠none := by
  have hn:=name_stable h (hr.inserted w).not_idle
  obtain ⟨e,he,rfl⟩ := hr
  cases entry_effect h (nameOf s e.inc) with
  | same hs => exact .inl ⟨e,by rw [hn,hs,he],rfl⟩
  | inserted k o _ _ hs => simp [he] at hs
  | recorded c o k e' _ _ hs ht | pruned c k code e' _ _ hs ht | resized c k x y e' _ _ _ hs ht =>
    cases he.symm.trans hs
    exact .inl ⟨_,(congrArg t.sessions hn).trans ht,rfl⟩
  | destroyed d e' _ _ hs _ hr | collected k o code e' _ _ hs _ hr =>
    cases he.symm.trans hs
    exact .inr (by simp [hr])

theorem inserted_kept_step (i : Inc) (hi : Inserted t i) : Registered t i ∨ t.removed i≠none := by
  rcases inserted_before h hi with hs | ⟨hpc,o,rfl⟩
  · rcases w.inserted_kept i hs with hr | hr
    · exact registered_step w h hr
    · obtain ⟨e,he⟩ := Option.ne_none_iff_exists'.mp hr
      exact .inr (by simp [removed_stable w h he])
  · have hn:=name_stable h (inFlight_of_pc hpc rfl).not_idle
    cases createStep_cases (show createStep s i o=some t from h) with
    | insert => exact .inl ⟨newEntry i (s.creates i),by rw [hn]; exact update_self ..,rfl⟩
    | lost => simp [Inserted,createAt,setCreate] at hi
    | _ => simp_all

theorem destroy_taken_step (d : Nat) (e : SessionEntry) (ht : taken (t.destroys d).pc=some e) :
    t.removed e.inc=some e ∧ nameOf t e.inc=(t.destroys d).name := by
  obtain ⟨hd,hold | ⟨hs,hr⟩⟩ := taken_before h ht
  · obtain ⟨hr,hn⟩ := w.destroy_taken d e hold
    refine ⟨removed_stable w h hr,?_⟩
    rw [name_stable h (w.removed_inserted _ e hr).2.not_idle,hn,hd]
  · refine ⟨by simp [hr],?_⟩
    rw [name_stable h (w.entry_inserted _ e hs).not_idle,w.entry_name _ e hs,hd]

theorem sup_taken_step (i : Inc) (code : Int) (e : SessionEntry) (ht : t.sups i=.emit code e) :
    t.removed e.inc=some e ∧ nameOf t e.inc=nameOf t i := by
  rcases sup_frame h i with hs | ⟨_,_,hw⟩ | ⟨o,_,hc⟩
  · have he : s.sups i=.emit code e := hs ▸ ht
    obtain ⟨hr,hn⟩ := w.sup_taken i code e he
    refine ⟨removed_stable w h hr,?_⟩
    have hi:=(w.sup_iff i).mp (by simp [he])
    rw [name_stable h (w.removed_inserted _ e hr).2.not_idle,hn,name_stable h hi.not_idle]
  · simp [hw] at ht
  · have hi : Inserted s i := (w.sup_iff i).mp (by
      intro hn
      cases hc <;> simp_all)
    cases hc with
    | removed code' f pc hpc hs hp =>
      simp only [supAt,update_self] at ht
      rcases hp with ⟨_,rfl⟩ | ⟨_,rfl⟩
      · obtain ⟨rfl,rfl⟩ := SupPc.emit.inj ht
        refine ⟨by simp [supAt,take],?_⟩
        rw [name_stable h (w.entry_inserted _ f hs).not_idle,w.entry_name _ f hs,name_stable h hi.not_idle]
      · cases ht
    | unlink code' k => cases k <;> simp [supAt,afterUnlink] at ht
    | _ => simp [supAt] at ht

theorem Wf.step : Wf t where
  entry_name := entry_name_step w h
  entry_inserted := entry_inserted_step w h
  entry_armed := entry_armed_step w h
  entry_present := entry_present_step w h
  sup_iff := sup_iff_step w h
  removed_inserted := removed_inserted_step w h
  inserted_kept := inserted_kept_step w h
  destroy_taken := destroy_taken_step w h
  sup_taken := sup_taken_step w h

end Step

theorem wf_init (m : Bool) : Wf (init m) where
  entry_name := by simp [init]
  entry_inserted := by simp [init]
  entry_armed := by simp [init]
  entry_present := by simp [init]
  sup_iff := by simp [init,Inserted]
  removed_inserted := by simp [init]
  inserted_kept := by simp [init,Inserted]
  destroy_taken := by simp [init,taken]
  sup_taken := by simp [init]

theorem wf_reach {ok : Daemon → Act → Prop} {m : Bool} (hr : Reach step ok (init m) s) : Wf s :=
  hr.keeps (wf_init m) fun w _ h => w.step h

theorem inserted_now (h : step s a=some t) (hi : Inserted t j) (hn : ¬Inserted s j) :
    (s.creates j).pc=.insert ∧ s.sessions (nameOf s j)=none ∧ t.history=s.history++[j] ∧
    t.usage=if s.metering then s.usage++[UsageLine.start (nameOf s j) (s.creates j).args.apiKeyId j]
      else s.usage := by
  rcases inserted_before h hi with hs | ⟨hpc,o,rfl⟩
  · exact absurd hs hn
  · cases createStep_cases (show createStep s j o=some t from h) with
    | insert _ hs => exact ⟨hpc,hs,rfl,rfl⟩
    | lost => simp [Inserted,createAt,setCreate] at hi
    | _ => simp_all

def HistoryOk (s : Daemon) : Prop := Marks (Inserted s) s.history

theorem historyOk_step (hs : HistoryOk s) (h : step s a=some t) : HistoryOk t := by
  unfold HistoryOk
  rcases history_frame h with ht | ⟨k,o,rfl,hpc,hann,ht⟩
  · rw [ht]
    refine Marks.same hs fun i => ⟨fun hi => by_contra fun hn => ?_,fun hi => hi.stable h⟩
    have := (inserted_now h hi hn).2.2.1
    simp [ht] at this
  · rw [ht]
    refine Marks.append hs (inFlight_of_pc hpc rfl).not_inserted fun i => ⟨fun hi => ?_,fun hi => ?_⟩
    · rcases inserted_before h hi with hi | ⟨_,o',ho⟩
      · exact .inl hi
      · cases ho
        exact .inr rfl
    · rcases hi with hi | rfl
      · exact hi.stable h
      · exact .inl hann

theorem history_reach {ok : Daemon → Act → Prop} {m : Bool} (hr : Reach step ok (init m) s) : HistoryOk s :=
  hr.keeps ⟨by simp [init,Inserted],List.nodup_nil⟩ fun hs _ h => historyOk_step hs h

end Waymux.Registry.Incarnations
