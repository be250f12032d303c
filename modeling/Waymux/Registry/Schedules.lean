import Waymux.Registry.NameExclusive

/-!
# Schedules of whole calls

Labels of undisturbed calls. A run in which no two create calls have the same name meets `Alone`.
-/

namespace Waymux.Registry.Schedules
open HostResources TaskState TaskSteps StepCases TaskFrames Incarnations Processes
open NameExclusive Interleave.Runs

variable {s t : Daemon} {a : Act} {i j : Inc}

def plain (n : Name) : CreateArgs := ⟨n,800,600,1,none,none,none,none⟩
def withQuota (n : Name) : CreateArgs := {plain n with diskQuotaMb := some 64}
def withMemCap (n : Name) : CreateArgs := {plain n with memCapMb := some 512}

def openRun (i : Inc) (p : Pid) (args : CreateArgs) : List Act :=
  .create i args::List.replicate 10 (.createStep i .ok) ++
  ([.createStep i (.spawned p),.sessionBind i .wayland,.sessionBind i .control,
   .sessionBind i .attach,.createStep i .ready,.createStep i .ok,.createStep i .ok] : List Act) ++
  if args.wantsCgroup then [.createStep i .ok] else []

def createRun (i : Inc) (p : Pid) (args : CreateArgs) : List Act :=
  openRun i p args++([.createStep i .ok,.createStep i .ok] : List Act)

def destroyRun (d : Nat) (n : Name) : List Act :=
  .destroy d n::List.replicate 6 (.destroyStep d)

def exitRun (i : Inc) : List Act :=
  ([.exit (.session i) (.code 0),.supStep i .exited] : List Act) ++
  (List.replicate 9 (.supStep i .ok) : List Act)

def talkRun (i : Inc) (c k : Nat) : List Act :=
  [.box i (.deliver c),.box i (.serve k true),.box i (.reply c true),.controlStep c]

def nameGiven : Act → Option Name
  | .create _ args => some args.name
  | _ => none

/-- No two create calls that were made have the same name. -/
def OncePerName (s : Daemon) : Prop :=
  ∀ i j,(s.creates i).pc≠.idle → (s.creates j).pc≠.idle → nameOf s i=nameOf s j → i=j

def Distinct (s : Daemon) (later : List Name) : Prop :=
  OncePerName s ∧ (∀ i,(s.creates i).pc≠.idle → nameOf s i∉later) ∧ later.Nodup

theorem create_given (h : step s a=some t) (hi : (t.creates i).pc≠.idle) :
    (s.creates i).pc≠.idle ∧ nameOf t i=nameOf s i ∨
    ∃ args,a=.create i args ∧ nameOf t i=args.name := by
  by_cases hs : (s.creates i).pc=.idle
  · rcases create_frame h i with he | ⟨args,ha,_,hq⟩ | ⟨o,_,hc⟩
    · exact absurd hs (he ▸ hi)
    · exact .inr ⟨args,ha,by simp [nameOf,hq]⟩
    · cases hc <;> simp_all
  · exact .inl ⟨hs,name_stable h hs⟩

theorem distinct_step {as : List Act} (h : step s a=some t)
    (hd : Distinct s ((a::as).filterMap nameGiven)) : Distinct t (as.filterMap nameGiven) := by
  obtain ⟨hinj,hlater,hnodup⟩ := hd
  have hsub : (as.filterMap nameGiven).Sublist ((a::as).filterMap nameGiven) :=
    (List.sublist_cons_self a as).filterMap _
  -- a name given in this step is not among the ones in use, nor among the later ones
  have fresh {k : Inc} {args : CreateArgs} (ha : a=.create k args) :
      (∀ j,(s.creates j).pc≠.idle → nameOf s j≠args.name) ∧
        args.name∉as.filterMap nameGiven := by
    subst ha
    refine ⟨fun j hj he => hlater j hj ?_,?_⟩
    · simp [nameGiven,he]
    · exact (List.nodup_cons.mp hnodup).1
  refine ⟨fun i j hi hj hn => ?_,fun i hi => ?_,hnodup.sublist hsub⟩
  · rcases create_given h hi with ⟨hi,hni⟩ | ⟨args,ha,hni⟩ <;>
      rcases create_given h hj with ⟨hj,hnj⟩ | ⟨args',ha',hnj⟩
    · exact hinj i j hi hj (hni ▸ hnj ▸ hn)
    · exact absurd (hni.symm.trans (hn.trans hnj)) ((fresh ha').1 i hi)
    · exact absurd (hnj.symm.trans (hn.symm.trans hni)) ((fresh ha).1 j hj)
    · rw [ha] at ha'
      cases ha'
      rfl
  · rcases create_given h hi with ⟨hi,hni⟩ | ⟨args,ha,hni⟩
    · exact fun hm => hlater i hi (hsub.subset (hni ▸ hm))
    · exact hni ▸ (fresh ha).2

theorem meets_distinct {ok : Daemon → Act → Prop} {m : Bool} {as : List Act}
    (hok : ∀ u a,Reach step Free (init m) u → OncePerName u → ok u a) (hr : Reach step Free (init m) s)
    (hd : Distinct s (as.filterMap nameGiven)) : Meets step ok s as := by
  induction as generalizing s with
  | nil => trivial
  | cons a as ih => exact ⟨hok s a hr hd.1,fun t ht => ih (hr.next trivial ht) (distinct_step ht hd)⟩

theorem meets_once {ok : Daemon → Act → Prop} (m : Bool) {as : List Act}
    (hok : ∀ u a,Reach step Free (init m) u → OncePerName u → ok u a) (h : (as.filterMap nameGiven).Nodup) :
    Meets step ok (init m) as :=
  meets_distinct hok .start ⟨by simp [OncePerName,init],by simp [init],h⟩

theorem alone_once {busy : Daemon → Inc → Prop} (hidle : ∀ i,busy s i → (s.creates i).pc≠.idle)
    (hd : OncePerName s) : Alone busy s a :=
  fun j hj i hi hn => hd i j (hidle i hi) (by simp [hj.1]) hn

theorem names_once (m : Bool) {as : List Act} (h : (as.filterMap nameGiven).Nodup) :
    Meets step (Alone Active) (init m) as :=
  meets_once m (fun _ _ hu => alone_once fun _ hb => hb.not_idle (wf_reach hu) (rows_reach hu)) h

def isDestroy : Act → Bool
  | .destroy .. => true
  | _ => false

theorem no_destroy {ok : Daemon → Act → Prop} (m : Bool) {as : List Act}
    (hok : ∀ u a,(∀ d,(u.destroys d).pc=.idle) → ok u a)
    (h : ∀ a∈as,isDestroy a=false) : Meets step ok (init m) as := by
  refine meets_of_invariant (I := fun u => ∀ d,(u.destroys d).pc=.idle) (by simp [init]) ?_
    (fun u a hu _ => hok u a hu) h
  intro u v a hu ha hv d
  rcases destroy_frame hv d with hs | ⟨n,rfl,_⟩ | ⟨_,hc⟩
  · rw [hs,hu]
  · cases ha
  · cases hc <;> simp_all

end Waymux.Registry.Schedules
