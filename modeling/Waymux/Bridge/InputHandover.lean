import Waymux.Bridge.Admission

/-!
# Input after a handover

The read loop loads the flag, translates the message and writes the InjectOp, with no lock over the
three.
-/

namespace Waymux.Bridge.InputHandover
open Interleave.Runs Handlers Admission Function
open ViewerList (Caps Before)

def forwarding : Pc → Bool
  | .forward _ | .write _ => true
  | _ => false

/-- addViewer appends its viewer only while no message is being forwarded. -/
def Quiet (s : State) : Act → Prop
  | .handler h _ => s.list.mu=some (.append h) → ∀ g∈s.started,forwarding (s.handlers g).pc=false
  | _ => True

instance (s : State) : (a : Act) → Decidable (Quiet s a)
  | .handler h _ => inferInstanceAs (Decidable (s.list.mu=some (.append h) →
      ∀ g∈s.started,forwarding (s.handlers g).pc=false))
  | .request _ _ | .read _ _ | .loadPrimary _ | .translate _ _ | .writeInput _ _ | .keyframe _ | .select _ _
  | .checkPrimary _ | .estimate _ _ | .writeRate _ _ => inferInstanceAs (Decidable True)

def Fresh (s : State) : Prop :=
  ∀ g,forwarding (s.handlers g).pc=true → ∀ v∈s.list.viewers,¬Before s.list g v

variable {s t : State} {a : Act} {h : Nat}

theorem Fresh.moves {x : Handler} (hi : Fresh s) (hh : t.handlers=update s.handlers h x)
    (hv : t.list.viewers ⊆ s.list.viewers) (ha : t.list.added=s.list.added)
    (hx : forwarding x.pc=true → forwarding (s.handlers h).pc=true) : Fresh t := by
  intro g hg v hmem
  unfold Before
  rw [ha]
  rw [hh] at hg
  by_cases hgh : g=h
  · rw [hgh,update_self] at hg
    exact hi g (hgh ▸ hx hg) v (hv hmem)
  · rw [update_of_ne hgh] at hg
    exact hi g hg v (hv hmem)

theorem fresh_of_none {x : Handler} (hall : ∀ g,forwarding (s.handlers g).pc=false)
    (hh : t.handlers=update s.handlers h x) (hx : forwarding x.pc=false) : Fresh t := by
  intro g hg
  have hno:=all_update (P := fun y => forwarding y.pc=false) (h := h) hall hx g
  rw [hh,hno] at hg
  cases hg

theorem Fresh.load {raw : String} (hinv : Admission.Inv s) (hi : Fresh s) (hpc : (s.handlers h).pc=.event raw)
    (hp : s.list.primary h=true) : Fresh (goTo s h (.forward raw)) := by
  have hmem : h∈s.list.viewers := hinv.viewer hpc rfl
  have hlast:=hinv.list.newest hmem hp
  intro g hg v hv
  by_cases hgh : g=h
  · rw [hgh]
    exact ViewerList.not_before_newest hinv.list hlast hv
  · have hkeep : (goTo s h (.forward raw)).handlers g=s.handlers g := update_of_ne hgh ..
    rw [hkeep] at hg
    exact hi g hg v hv

theorem step_fresh (hinv : Admission.Inv s) (hi : Fresh s) (hq : Quiet s a) (ht : Turn s a t) : Fresh t := by
  cases ht with
  | stays | keyframes => exact hi
  | demotes h rest l hpc hmu hl =>
    obtain ⟨hv,ha,_⟩ := ViewerList.proceed_demote hmu hl
    intro g hg v hmem
    unfold Before
    rw [ha]
    exact hi g hg v (hv ▸ hmem)
  | flows h pc pc' hpc hf =>
    cases hf with
    | primary raw hp => exact hi.load hinv hpc hp
    | translated => exact hi.moves rfl (List.Subset.refl _) rfl fun _ => by rw [hpc]; rfl
    | setUp k => exact hi.moves rfl (List.Subset.refl _) rfl (by cases k <;> exact nofun)
    | _ => exact hi.moves rfl (List.Subset.refl _) rfl nofun
  | joins h hpc hmu =>
    -- nobody forwards, and the new viewer has read nothing yet
    have hall:=hinv.listed.all (P := fun x => forwarding x.pc=false) rfl (hq hmu)
    exact fresh_of_none hall rfl rfl
  | leaves => exact hi.moves rfl List.erase_subset rfl nofun
  | rates | loads => exact hi.moves rfl (List.Subset.refl _) rfl id
  | keeps | sends | notSent =>
    exact hi.moves (complete_handlers ..) (by rw [complete_list]; exact List.Subset.refl _)
      (by rw [complete_list]; rfl) id
  | _ => exact hi.moves rfl (List.Subset.refl _) rfl nofun

theorem reach_fresh {cfg : Caps} {rates : Rates} (hr : Reach step Quiet (init cfg rates) s) : Fresh s := by
  have hstart : Fresh (init cfg rates) := nofun
  exact hr.invariant hstart fun hu hi hq ht => step_fresh (Admission.reach_inv hu) hi hq (step_turn ht)

/-- An InjectOp is written for a connection only while no viewer registered
after it is on the list. -/
theorem input_handover {cfg : Caps} {rates : Rates} {s t : State} {a : Act} {h : Nat} {op : String}
    (hr : Reach step Quiet (init cfg rates) s) (ht : step s a=some t)
    (hw : t.socket=s.socket++[Sent.injectOp h op]) : ∀ v∈s.list.viewers,¬Before s.list h v := by
  refine reach_fresh hr h ?_
  cases turn_written (step_turn ht) hw with
  | injectOp _ _ hpc =>
    rw [hpc]
    rfl

/- Two viewers join one after the other; then both send an event. -/
def secondViewerWrites : List Act :=
  .request 1 "10.0.0.7" :: handlerRuns 1 17++[Act.request 2 "10.0.0.8"]++handlerRuns 2 18 ++
    [Act.read 1 (.event "move"),.loadPrimary 1,.read 2 (.event "move"),.loadPrimary 2,.translate 2 (some "op")]

theorem input_handover_second_viewer : ∃ s t,Reach step Quiet (init ⟨0,0⟩ defaultRates) s ∧
    step s (.writeInput 2 true)=some t ∧ t.socket=s.socket++[Sent.injectOp 2 "op"] ∧
    s.list.viewers=[1,2] ∧ ∀ v∈s.list.viewers,¬Before s.list 2 v := by
  obtain ⟨s,t,hs,ht,hp⟩ := exec_last step (init ⟨0,0⟩ defaultRates) secondViewerWrites (.writeInput 2 true)
    (fun s t => t.socket=s.socket++[Sent.injectOp 2 "op"] ∧ s.list.viewers=[1,2]) (by decide +kernel)
  obtain ⟨hw,hv⟩ := of_decide_eq_true hp
  have hm : Meets step Quiet (init ⟨0,0⟩ defaultRates) secondViewerWrites :=
    meets_decided (by decide +kernel)
  have hr:=reach_of_meets .start hm hs
  exact ⟨s,t,hr,ht,hw,hv,input_handover hr ht hw⟩

/- The first viewer's event is past the check when the second viewer joins. -/
def eventOvertaken : List Act :=
  .request 1 "10.0.0.7" :: handlerRuns 1 17++[Act.read 1 (.event "move"),.loadPrimary 1,.request 2 "10.0.0.8"] ++
    handlerRuns 2 18++[Act.translate 1 (some "op")]

theorem old_event_after_handover : ∃ s t,Reach step Free (init ⟨0,0⟩ defaultRates) s ∧
    step s (.writeInput 1 true)=some t ∧ t.socket=s.socket++[Sent.injectOp 1 "op"] ∧ s.list.mu=none ∧
    2∈s.list.viewers ∧ s.list.primary 1=false ∧ Before s.list 1 2 := by
  obtain ⟨s,t,hs,ht,hp⟩ := exec_last step (init ⟨0,0⟩ defaultRates) eventOvertaken (.writeInput 1 true)
    (fun s t => t.socket=s.socket++[Sent.injectOp 1 "op"] ∧ s.list.mu=none ∧ 2∈s.list.viewers ∧
      s.list.primary 1=false ∧ [1,2].Sublist s.list.added) (by decide +kernel)
  obtain ⟨hw,hmu,hv,hf,hb⟩ := of_decide_eq_true hp
  exact ⟨s,t,reach_of_exec hs,ht,hw,hmu,hv,hf,hb⟩

end Waymux.Bridge.InputHandover
