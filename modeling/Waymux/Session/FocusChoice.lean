import Waymux.Session.Windows

/-!
# Which window has the focus

`unregister_surface` passes the focus on to the highest id left, whichever function registered it.
-/

namespace Waymux.Session.FocusChoice
open Interleave.Runs Windows List

variable {s t : State} {a : Call} {id : Nat}

/-- The windows registered through `register_surface`, in order. -/
def focusable (windows : List Window) : List Window := windows.filter (·.focusable)

/-- The focus is on a registered window, and on the most recent focusable one if
there is any. -/
structure Chosen (s : State) : Prop where
  registered : Registered s
  recent : ∀ w,(focusable s.windowsById).getLast?=some w → s.focused=some w.id

/-- Ids ascend; and when the focused window closes, the highest id left is focusable, or no focusable one is
left. -/
def Ordered (s : State) : Call → Prop
  | .registerSurface id _ => ∀ w∈s.windowsById,w.id < id
  | .registerSurfaceNoFocus id _ => ∀ w∈s.windowsById,w.id < id
  | .unregisterSurface id => s.focused=some id →
      (∀ w∈s.others id,highest (s.others id)=some w.id → w.focusable=true) ∨
        focusable (s.others id)=[]
  | _ => True

instance (s : State) : (a : Call) → Decidable (Ordered s a)
  | .registerSurface id _ => inferInstanceAs (Decidable (∀ w∈s.windowsById,w.id < id))
  | .registerSurfaceNoFocus id _ => inferInstanceAs (Decidable (∀ w∈s.windowsById,w.id < id))
  | .unregisterSurface id => inferInstanceAs (Decidable (s.focused=some id →
      (∀ w∈s.others id,highest (s.others id)=some w.id → w.focusable=true) ∨
        focusable (s.others id)=[]))
  | .registerToplevel _ | .registerDevice .. | .unregisterDevice .. | .destroySurface _ | .disconnect _ =>
    .isTrue trivial

structure Inv (s : State) : Prop where
  recent : ∀ w,(focusable s.windowsById).getLast?=some w → s.focused=some w.id
  ascending : s.windowsById.Pairwise (·.id<·.id)

variable {w : Window}

theorem highest_concat {windows : List Window} (h : (windows++[w]).Pairwise (·.id<·.id)) :
    highest (windows++[w])=some w.id := by
  have hlt:=(pairwise_append.mp h).2.2
  unfold highest
  rw [List.max?_eq_some_iff]
  constructor
  · simp
  · intro i hi
    obtain ⟨v,hv,rfl⟩ := mem_map.mp hi
    rcases mem_append.mp hv with hv | hv
    · exact Nat.le_of_lt (hlt v hv w (mem_singleton_self w))
    · exact Nat.le_of_eq (congrArg Window.id (mem_singleton.mp hv))

theorem focusable_concat (windows : List Window) (h : w.focusable=true) :
    (focusable (windows++[w])).getLast?=some w := by
  simp [focusable,h]

theorem focusable_concat_panel (windows : List Window) (h : w.focusable=false) :
    focusable (windows++[w])=focusable windows := by
  simp [focusable,h]

theorem focusable_filter (windows : List Window) (p : Window → Bool) :
    focusable (windows.filter p)=(focusable windows).filter p := by
  exact filter_comm _ _ _

theorem getLast_filter {windows : List Window} {p : Window → Bool} {v : Window} (hw : windows.getLast?=some w)
    (hp : p w=true) (hv : (windows.filter p).getLast?=some v) : v=w := by
  obtain ⟨front,rfl⟩ := List.getLast?_eq_some_iff.mp hw
  rw [filter_append,filter_cons_of_pos hp,filter_nil,List.getLast?_concat] at hv
  exact (Option.some.inj hv).symm

theorem inserted_fresh (h : ∀ v∈s.windowsById,v.id<w.id) :
    (s.inserted w).windowsById=s.windowsById++[w] := by
  have hf : s.windowsById.filter (·.id≠w.id)=s.windowsById := by
    apply filter_eq_self.mpr
    intro v hv
    exact decide_eq_true (Nat.ne_of_lt (h v hv))
  unfold State.inserted
  rw [hf]

theorem ascending_inserted (hi : Inv s) (h : ∀ v∈s.windowsById,v.id<w.id) :
    (s.inserted w).windowsById.Pairwise (·.id<·.id) := by
  rw [inserted_fresh h]
  apply pairwise_append.mpr
  refine ⟨hi.ascending,pairwise_singleton _ _,?_⟩
  intro v hv u hu
  rw [mem_singleton.mp hu]
  exact h v hv

theorem registerSurface_inv {surface : Resource} (hi : Inv s) (h : ∀ w∈s.windowsById,w.id < id) :
    Inv (s.registerSurface id surface) := by
  have hw : (s.inserted ⟨id,surface,true⟩).windowsById=s.windowsById++[⟨id,surface,true⟩] :=
    inserted_fresh h
  rw [registerSurface_eq]
  refine ⟨?_,ascending_inserted hi h⟩
  intro w hl
  have hl' : (focusable (s.inserted ⟨id,surface,true⟩).windowsById).getLast?=some w := hl
  rw [hw,focusable_concat _ rfl] at hl'
  exact congrArg (fun v : Option Window => v.map (·.id)) hl'

theorem registerSurfaceNoFocus_inv {surface : Resource} (hi : Inv s) (h : ∀ w∈s.windowsById,w.id < id) :
    Inv (s.registerSurfaceNoFocus id surface) := by
  have hw : (s.inserted ⟨id,surface,false⟩).windowsById=s.windowsById++[⟨id,surface,false⟩] :=
    inserted_fresh h
  refine ⟨?_,ascending_inserted hi h⟩
  intro w hl
  have hl' : (focusable (s.inserted ⟨id,surface,false⟩).windowsById).getLast?=some w := hl
  rw [hw,focusable_concat_panel _ rfl] at hl'
  exact hi.recent w hl'

theorem demoted_recent (hi : Inv s)
    (h : (∀ w∈s.others id,highest (s.others id)=some w.id → w.focusable=true) ∨ focusable (s.others id)=[])
    (hl : (focusable (s.others id)).getLast?=some w) : highest (s.others id)=some w.id := by
  have hasc : (s.others id).Pairwise (·.id<·.id) := hi.ascending.filter _
  rcases eq_nil_or_concat (s.others id) with hn | ⟨front,v,hc⟩
  · rw [hn] at hl
    simp [focusable] at hl
  · rw [concat_eq_append] at hc
    rw [hc] at hasc h hl ⊢
    have hv:=highest_concat hasc
    rcases h with h | h
    · have hfv:=h v (by simp) hv
      rw [focusable_concat _ hfv] at hl
      rw [hv,Option.some.inj hl]
    · rw [h] at hl
      simp at hl

theorem unregisterSurface_inv (hi : Inv s) (h : Ordered s (.unregisterSurface id)) :
    Inv (s.unregisterSurface id) := by
  rw [unregisterSurface_eq]
  refine ⟨?_,hi.ascending.filter _⟩
  intro w hl
  have hl' : (focusable (s.others id)).getLast?=some w := hl
  by_cases hf : s.focused=some id
  · have hh:=demoted_recent hi (h hf) hl'
    exact (if_pos hf).trans hh
  · -- the focused window was the last focusable one, and it is kept
    have he : (s.removed id).focused=s.focused := if_neg hf
    rw [State.others,focusable_filter] at hl'
    have hne : focusable s.windowsById≠[] := by
      intro hn
      rw [hn] at hl'
      simp at hl'
    have hlast:=List.getLast?_eq_some_getLast hne
    have hfocus:=hi.recent _ hlast
    have hkept : ((focusable s.windowsById).getLast hne).id≠id := fun hid => hf (hid ▸ hfocus)
    have hw:=getLast_filter hlast (decide_eq_true hkept) hl'
    show (s.removed id).focused=some w.id
    rw [he,hw]
    exact hfocus

theorem inv_step (hi : Inv s) (hok : Ordered s a) (h : step s a=some t) : Inv t := by
  cases a with
  | registerSurface =>
    obtain ⟨-,⟨⟩⟩ := Option.ite_none_left_eq_some.mp h
    exact registerSurface_inv hi hok
  | registerSurfaceNoFocus =>
    obtain ⟨-,⟨⟩⟩ := Option.ite_none_left_eq_some.mp h
    exact registerSurfaceNoFocus_inv hi hok
  | unregisterSurface =>
    cases h
    exact unregisterSurface_inv hi hok
  | registerDevice =>
    obtain ⟨-,⟨⟩⟩ := Option.ite_none_left_eq_some.mp h
    exact ⟨hi.recent,hi.ascending⟩
  | _ =>
    cases h
    exact ⟨hi.recent,hi.ascending⟩

theorem inv_start : Inv start := by
  refine ⟨?_,List.Pairwise.nil⟩
  intro w h
  simp [start,focusable] at h

/-- In a run with ascending ids in which no panel is the most recent window left when the focused one
closes. -/
theorem focus_on_most_recent_window (h : Reach step Ordered start s) : Chosen s := by
  have hi : Inv s := h.keeps inv_start inv_step
  exact ⟨focus_registered h,hi.recent⟩

/-- A panel between two windows of an application, and a third window that is closed again. -/
theorem focus_back_on_second_window : ∃ s,Reach step Ordered start s ∧ s.focused=some 3 ∧ Chosen s := by
  have hr : Reach step Ordered start _ :=
    reach_exec [.registerSurface 1 ⟨1,1⟩,.registerSurfaceNoFocus 2 ⟨2,1⟩,.registerSurface 3 ⟨1,2⟩,
      .registerSurface 4 ⟨1,3⟩,.unregisterSurface 4]
      (meets_decided (by decide +kernel)) (by decide +kernel)
  exact ⟨_,hr,by decide +kernel,focus_on_most_recent_window hr⟩

/-- A window, a panel and a window that is closed: the panel has the focus. -/
theorem panel_takes_focus : ∃ s,Reach step Free start s ∧ s.focused=some 2 ∧ ¬ Chosen s := by
  have hr : Reach step Free start _ := reach_free
    [.registerSurface 1 ⟨1,1⟩,.registerSurfaceNoFocus 2 ⟨2,1⟩,.registerSurface 3 ⟨1,2⟩,.unregisterSurface 3]
    (by decide +kernel)
  exact ⟨_,hr,by decide +kernel,fun hc => absurd (hc.recent ⟨1,⟨1,1⟩,true⟩ (by decide +kernel)) (by decide +kernel)⟩

end Waymux.Session.FocusChoice
