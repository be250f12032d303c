import Waymux.Registry.NameExclusive

/-!
# Tags of a name

`tag_window` stores under another lock than it looks the window up.
-/

namespace Waymux.Registry.TagStore
open HostResources TaskState TaskSteps StepCases TaskFrames Incarnations
open NameExclusive Interleave.Runs

variable {s t : Daemon} {a : Act} {i j : Inc} {n : Name} {m : Bool}

/-- The call's look-up found incarnation `i` and the map still has it. -/
def StillThere (s : Daemon) (n : Name) (i : Inc) : Prop := ∃ e,s.sessions n=some e ∧ e.inc=i

/-- Tags are stored only while the session they were checked against is registered. -/
def StoresLive (s : Daemon) (a : Act) : Prop :=
  ∀ c i,a=.controlStep c → (s.controls c).pc=.store i → StillThere s (s.controls c).name i

def isControlStep : Act → Bool
  | .controlStep _ => true
  | _ => false

theorem storesLive_of_labels {as : List Act} (h : ∀ a∈as,isControlStep a=false) :
    Meets step StoresLive s as := by
  refine meets_of_invariant (I := fun _ => True) trivial (fun _ _ _ _ _ _ => trivial) ?_ h
  rintro u a _ ha c i rfl
  cases ha

/- The supervisor has not erased the tags of its name yet. -/
def tagging : SupPc → Bool
  | .wait | .term | .remove _ | .emit _ _ | .unmount _ _ | .tags _ => true
  | _ => false

theorem tagging_live {pc : SupPc} (h : tagging pc=true) : supLive pc=true := by
  cases pc <;> first | rfl | cases h

theorem armed_tagging {pc : SupPc} (h : armed pc=true) : tagging pc=true := by
  cases pc <;> first | rfl | cases h

def TagsLive (s : Daemon) : Prop :=
  ∀ n w g,s.tags n w=some g → nameOf s g.inc=n ∧ tagging (s.sups g.inc)=true

theorem tagging_inserted (w : Wf s) (h : tagging (s.sups i)=true) : Inserted s i := by
  refine (w.sup_iff i).mp fun hn => ?_
  simp [hn,tagging] at h

theorem tagging_step (h : step s a=some t) (hi : tagging (s.sups i)=true) :
    tagging (t.sups i)=true ∨ ∀ v,t.tags (nameOf s i) v=none := by
  rcases sup_frame h i with hs | ⟨_,_,hw⟩ | ⟨o,_,hc⟩
  · exact .inl (hs ▸ hi)
  · exact .inl (by rw [hw]; rfl)
  · cases hc with
    | tags => exact .inr fun v => by simp [supAt,forgetTags]
    | removed code e pc _ _ hp =>
      rcases hp with ⟨_,rfl⟩ | ⟨_,rfl⟩ <;> exact .inl (by simp [supAt,tagging])
    | unlink code k hpc | rmdir code hpc | announce code hpc => simp [hpc,tagging] at hi
    | _ => exact .inl (by simp [supAt,tagging])

theorem tagsLive_step (w : Wf s) (hc : StoresLive s a) (hs : TagsLive s) (h : step s a=some t) : TagsLive t := by
  intro n v g hg
  cases tag_effect h n v with
  | same ht =>
    obtain ⟨rfl,hp⟩ := hs n v g (ht ▸ hg)
    refine ⟨name_stable h (tagging_inserted w hp).not_idle,?_⟩
    rcases tagging_step h hp with hp | hnone
    · exact hp
    · simp [hnone v] at hg
  | forgotten d e _ _ ht | erased i o code _ _ ht => simp [hg] at ht
  | stored c i ls hpc hq hn ht =>
    cases hg.symm.trans ht
    obtain ⟨e,he,rfl⟩ := hc c i rfl hpc
    rw [hn] at he
    refine ⟨(name_stable h (w.entry_inserted n e he).not_idle).trans (w.entry_name n e he),?_⟩
    rcases sup_frame h e.inc with hsame | ⟨_,_,hw⟩ | ⟨o,ha,_⟩
    · exact hsame ▸ armed_tagging (w.entry_armed n e he)
    · exact hw ▸ rfl
    · cases ha

theorem tagsLive_reach {ok : Daemon → Act → Prop} (hok : ∀ s a,ok s a → StoresLive s a)
    (hr : Reach step ok (init m) s) : TagsLive s :=
  hr.invariant (by simp [TagsLive,init]) fun {u _ a} hu hs ha h =>
    tagsLive_step (wf_reach hu) (hok u a ha) hs h

end Waymux.Registry.TagStore
