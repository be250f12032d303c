import Waymux.Session.Windows

/-!
# Enter and leave

The events of a device are to alternate, and to put it on the focused window exactly when that is
its client's.
-/

namespace Waymux.Session.FocusEvents
open Interleave.Runs Windows List

variable {s t : State} {a : Call} {c id : Nat} {x : Resource}

/-- The surface a device is on, after one more event; `none` where the event is not due. The end of a
surface is the leave of those that are on it. -/
def follow : Option Resource → FocusEvent → Option (Option Resource)
  | none, .enter x => some (some x)
  | some _, .enter _ => none
  | none, .leave _ => none
  | some y, .leave x => if y=x then some none else none
  | none, .gone _ => some none
  | some y, .gone x => some (if y=x then none else some y)

def track (log : List FocusEvent) : Option (Option Resource) := log.foldlM follow none

def expected (s : State) (client : Nat) : Option Resource :=
  match s.focusedWindow with
  | some w => if w.client=client then some w.surface else none
  | none => none

/-- The events of every device of a connected client alternate and have put it
where it belongs. -/
def FocusProtocol (s : State) : Prop :=
  ∀ d∈s.devices,d.client∉s.gone → track d.log=some (expected s d.client)

/-- The focused id is not reused; a window is registered on a live surface and destroyed before it; and a
window goes only while no device of a connected client listens to the focused one. -/
def Unheard (s : State) : Call → Prop
  | .registerSurface id x => s.focused≠some id ∧ x∉s.dead
  | .registerSurfaceNoFocus id x => s.focused≠some id ∧ x∉s.dead
  | .unregisterSurface _ => ∀ f∈s.focusedWindow,f.client∈s.gone ∨ ∀ d∈s.devices,d.client≠f.client
  | .destroySurface x => x.client∈s.gone ∨ ∀ w∈s.windowsById,w.surface≠x
  | _ => True

instance (s : State) : (a : Call) → Decidable (Unheard s a)
  | .registerSurface id x => inferInstanceAs (Decidable (s.focused≠some id ∧ x∉s.dead))
  | .registerSurfaceNoFocus id x => inferInstanceAs (Decidable (s.focused≠some id ∧ x∉s.dead))
  | .unregisterSurface _ => inferInstanceAs (Decidable (∀ f∈s.focusedWindow,f.client∈s.gone ∨
      ∀ d∈s.devices,d.client≠f.client))
  | .destroySurface x => inferInstanceAs (Decidable (x.client∈s.gone ∨ ∀ w∈s.windowsById,w.surface≠x))
  | .registerToplevel _ | .registerDevice .. | .unregisterDevice .. | .disconnect _ => .isTrue trivial

def Housed (s : State) : Prop := ∀ w∈s.windowsById,w.surface∈s.dead → w.client∈s.gone

structure Inv (s : State) : Prop where
  housed : Housed s
  protocol : FocusProtocol s

theorem track_append (log news : List FocusEvent) :
    track (log++news)=(track log).bind fun current => news.foldlM follow current := by
  unfold track
  rw [foldlM_append]
  rfl

theorem expected_focused {w : Window} (h : s.focusedWindow=some w) (c : Nat) :
    expected s c=if w.client=c then some w.surface else none := by
  unfold expected
  rw [h]

theorem expected_unfocused (h : s.focusedWindow=none) (c : Nat) : expected s c=none := by
  unfold expected
  rw [h]

theorem expected_some {y : Resource} (h : expected s c=some y) :
    ∃ w,s.focusedWindow=some w ∧ w.client=c ∧ w.surface=y := by
  cases hf : s.focusedWindow with
  | none =>
    rw [expected_unfocused hf] at h
    cases h
  | some w =>
    rw [expected_focused hf] at h
    by_cases hc : w.client=c
    · rw [if_pos hc] at h
      exact ⟨w,rfl,hc,Option.some.inj h⟩
    · rw [if_neg hc] at h
      cases h

theorem windowNews_housed (hh : Housed s) {w : Window} (hw : w∈s.windowsById) (hc : c∉s.gone)
    (event : Resource → FocusEvent) :
    s.windowNews event (some w) c=if w.client=c then [event w.surface] else [] := by
  by_cases he : w.client=c
  · have hlive : w.surface∉s.dead := fun hd => hc (he ▸ hh w hw hd)
    rw [if_pos he]
    exact if_pos ⟨he,hlive⟩
  · rw [if_neg he]
    exact if_neg fun h => he h.1

theorem enter_settles (hh : Housed s) (hc : c∉s.gone) :
    (s.windowNews .enter s.focusedWindow c).foldlM follow none=some (expected s c) := by
  cases hf : s.focusedWindow with
  | none =>
    rw [expected_unfocused hf]
    rfl
  | some w =>
    obtain ⟨_,hm⟩ := focusedWindow_some hf
    rw [windowNews_housed hh hm hc,expected_focused hf]
    by_cases he : w.client=c
    · simp [he,follow]
    · simp [he]

theorem leave_settles (hh : Housed s) (hc : c∉s.gone) :
    (s.windowNews .leave s.focusedWindow c).foldlM follow (expected s c)=some none := by
  cases hf : s.focusedWindow with
  | none =>
    rw [expected_unfocused hf]
    rfl
  | some w =>
    obtain ⟨_,hm⟩ := focusedWindow_some hf
    rw [windowNews_housed hh hm hc,expected_focused hf]
    by_cases he : w.client=c
    · simp [he,follow]
    · simp [he]

theorem protocol_broadcast {u : State} {news : Nat → List FocusEvent} (h : FocusProtocol s)
    (hd : u.devices=s.devices) (hg : u.gone=s.gone) (hn : ∀ d∈s.devices,d.client∉s.gone →
      (news d.client).foldlM follow (expected s d.client)=some (expected u d.client)) :
    FocusProtocol (u.broadcast news) := by
  intro d hm hc
  obtain ⟨e,he,rfl⟩ := mem_broadcast hm
  have hes : e∈s.devices := hd ▸ he
  have hec : e.client∉s.gone := hg ▸ hc
  show track (e.log++news e.client)=_
  rw [track_append,h e hes hec,Option.bind_some,hn e hes hec]
  rfl

theorem housed_inserted {w : Window} (hh : Housed s) (hx : w.surface∉s.dead) : Housed (s.inserted w) := by
  intro v hv hd
  rcases mem_append.mp hv with hv | hv
  · exact hh v (mem_of_mem_filter hv) hd
  · rw [mem_singleton.mp hv] at hd
    exact absurd hd hx

theorem leaveNews_focusing (h : s.focused≠some id) :
    (s.focusing id x).leaveNews s.focused id c=s.windowNews .leave s.focusedWindow c := by
  unfold State.leaveNews State.focusedWindow
  cases hf : s.focused with
  | none => rfl
  | some old =>
    have hne : old≠id := fun he => h (he ▸ hf)
    have hw : (s.focusing id x).window old=s.window old := by rw [window_focusing,if_neg hne]
    simp only [if_pos hne,hw]
    rfl

theorem registerSurface_inv (hi : Inv s) (h : s.focused≠some id) (hx : x∉s.dead) :
    Inv (s.registerSurface id x) := by
  have hh : Housed (s.focusing id x) := @housed_inserted s ⟨id,x,true⟩ hi.housed hx
  rw [registerSurface_eq]
  refine ⟨hh,protocol_broadcast hi.protocol ?_ ?_ ?_⟩
  · rfl
  · rfl
  · intro d _ hc
    have hleave:=leave_settles hi.housed hc
    have henter:=enter_settles hh hc
    rw [focusedWindow_focusing] at henter
    rw [foldlM_append,leaveNews_focusing h,hleave]
    exact henter

theorem registerSurfaceNoFocus_inv (hi : Inv s) (h : s.focused≠some id) (hx : x∉s.dead) :
    Inv (s.registerSurfaceNoFocus id x) := by
  have hfocus : (s.registerSurfaceNoFocus id x).focusedWindow=s.focusedWindow := focusedWindow_inserted h
  refine ⟨@housed_inserted s ⟨id,x,false⟩ hi.housed hx,?_⟩
  intro d hd hc
  unfold expected
  rw [hfocus]
  exact hi.protocol d hd hc

theorem unregisterSurface_inv (hi : Inv s) (h : Unheard s (.unregisterSurface id)) :
    Inv (s.unregisterSurface id) := by
  have hh : Housed (s.removed id) := fun w hw => hi.housed w (mem_of_mem_filter hw)
  rw [unregisterSurface_eq]
  refine ⟨hh,protocol_broadcast hi.protocol ?_ ?_ ?_⟩
  · rfl
  · rfl
  · intro d hd hc
    -- nobody who listens was on the focused window
    have hoff : expected s d.client=none := by
      cases he : expected s d.client with
      | none => rfl
      | some =>
        obtain ⟨f,hf,hcl,_⟩ := expected_some he
        rcases h f hf with hg | hn
        · exact absurd (hcl ▸ hg) hc
        · exact absurd hcl.symm (hn d hd)
    rw [hoff]
    exact enter_settles hh hc

theorem registerDevice_inv {kind : DeviceKind} {resource : Resource} {version : Nat} (hi : Inv s)
    (hc : resource.client∉s.gone) : Inv (s.registerDevice kind resource version) := by
  refine ⟨hi.housed,?_⟩
  intro d hd hg
  rcases mem_append.mp hd with hd | hd
  · exact hi.protocol d hd hg
  · rw [mem_singleton.mp hd]
    exact enter_settles hi.housed hc

theorem destroySurface_inv (hi : Inv s) (h : Unheard s (.destroySurface x)) : Inv (s.destroySurface x) := by
  refine ⟨?_,?_⟩
  · intro w hw hd
    rcases mem_cons.mp hd with he | hd
    · rcases h with hg | hn
      · have hc : w.client=x.client := congrArg Resource.client he
        exact hc ▸ hg
      · exact absurd he (hn w hw)
    · exact hi.housed w hw hd
  · refine @protocol_broadcast s {s with dead := x::s.dead}
      (fun c => if c=x.client then [.gone x] else []) hi.protocol rfl rfl ?_
    intro d _ hc
    show _=some (expected s d.client)
    by_cases hx : d.client=x.client
    · rw [if_pos hx]
      cases he : expected s d.client with
      | none => rfl
      | some =>
        -- the surface of the focused window is not the one destroyed
        obtain ⟨f,hf,hcl,rfl⟩ := expected_some he
        have hne : f.surface≠x := by
          intro hfx
          rcases h with hg | hn
          · exact hc (hx ▸ hg)
          · exact hn f (focusedWindow_some hf).2 hfx
        simp [follow,hne]
    · rw [if_neg hx]
      rfl

theorem inv_step (hi : Inv s) (hok : Unheard s a) (h : step s a=some t) : Inv t := by
  cases a with
  | registerSurface =>
    obtain ⟨-,⟨⟩⟩ := Option.ite_none_left_eq_some.mp h
    exact registerSurface_inv hi hok.1 hok.2
  | registerSurfaceNoFocus =>
    obtain ⟨-,⟨⟩⟩ := Option.ite_none_left_eq_some.mp h
    exact registerSurfaceNoFocus_inv hi hok.1 hok.2
  | unregisterSurface =>
    cases h
    exact unregisterSurface_inv hi hok
  | registerDevice =>
    obtain ⟨hc,⟨⟩⟩ := Option.ite_none_left_eq_some.mp h
    exact registerDevice_inv hi hc
  | unregisterDevice =>
    cases h
    exact ⟨hi.housed,fun d hd => hi.protocol d (mem_of_mem_filter hd)⟩
  | destroySurface =>
    cases h
    exact destroySurface_inv hi hok
  | disconnect =>
    cases h
    refine ⟨?_,?_⟩
    · intro w hw hd
      exact mem_cons_of_mem _ (hi.housed w hw hd)
    · intro d hd hc
      exact hi.protocol d hd fun hg => hc (mem_cons_of_mem _ hg)
  | registerToplevel =>
    cases h
    exact ⟨hi.housed,hi.protocol⟩

theorem inv_start : Inv start := by
  refine ⟨?_,?_⟩
  · intro w hw
    cases hw
  · intro d hd
    cases hd

/-- In a run in which nobody who listens is on the focused window whenever a window goes. -/
theorem focus_events_alternate (h : Reach step Unheard start s) : FocusProtocol s := by
  have hi : Inv s := h.keeps inv_start inv_step
  exact hi.protocol

/-- The focus goes to a second client and comes back when that one disconnects. -/
theorem focus_events_around_disconnect : ∃ s,Reach step Unheard start s ∧
    s.devices.map (·.log)=[[.enter ⟨1,1⟩,.leave ⟨1,1⟩,.enter ⟨1,1⟩]] ∧ FocusProtocol s := by
  have hr : Reach step Unheard start _ :=
    reach_exec [.registerSurface 1 ⟨1,1⟩,.registerDevice .keyboard ⟨1,2⟩ 5,.registerSurface 2 ⟨2,1⟩,
      .disconnect 2,.destroySurface ⟨2,1⟩,.unregisterSurface 2]
      (meets_decided (by decide +kernel)) (by decide +kernel)
  exact ⟨_,hr,by decide +kernel,focus_events_alternate hr⟩

/-- A notification closes next to the focused window: a second enter. The focused window closes: no leave. -/
theorem focus_events_not_alternating :
    (∃ s,Reach step Free start s ∧ s.devices.map (·.log)=[[.enter ⟨1,1⟩,.enter ⟨1,1⟩]] ∧
      ¬ FocusProtocol s) ∧
    ∃ s,Reach step Free start s ∧ s.devices.map (·.log)=[[.enter ⟨1,1⟩]] ∧ s.focused=none ∧
      ¬ FocusProtocol s := by
  constructor
  · have hr : Reach step Free start _ := reach_free
      [.registerSurface 1 ⟨1,1⟩,.registerDevice .keyboard ⟨1,2⟩ 5,.registerSurfaceNoFocus 2 ⟨2,1⟩,
        .unregisterSurface 2] (by decide +kernel)
    refine ⟨_,hr,?_,show ¬∀ _∈_,_ from ?_⟩ <;> decide +kernel
  · have hr : Reach step Free start _ := reach_free
      [.registerSurface 1 ⟨1,1⟩,.registerDevice .keyboard ⟨1,2⟩ 5,.unregisterSurface 1] (by decide +kernel)
    refine ⟨_,hr,?_,?_,show ¬∀ _∈_,_ from ?_⟩ <;> decide +kernel

end Waymux.Session.FocusEvents
