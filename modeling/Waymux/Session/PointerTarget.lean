import Waymux.Session.Windows

/-!
# Injected pointer events (`inject_pointer`)

Every live pointer of the client that owns the window gets the events; its last enter decides on
which surface.
-/

namespace Waymux.Session.PointerTarget
open Interleave.Runs Windows List Option

variable {κ : Type} {s t : State} {a : Call}

def heard (current : Option Resource) : FocusEvent → Option Resource
  | .enter x => some x
  | .leave _ => none
  | .gone x => if current=some x then none else current

def entered (d : Device) : Option Resource := d.log.foldl heard none

inductive Axis
  | horizontalScroll
  | verticalScroll
deriving DecidableEq

inductive PointerEvent (κ : Type)
  | motion (x y : κ)
  | button (code : Nat) (pressed : Bool)
  | axis (axis : Axis) (value : κ)
  | frame
deriving DecidableEq

structure Injection (κ : Type) where
  windowId : Option Nat
  content : Bool
  x : κ
  y : κ
  button : Nat
  pressed : Bool
  axisX : κ
  axisY : κ

def target (s : State) (windowId : Option Nat) : Option Nat :=
  match windowId with
  | some id => some id
  | none => s.focused

/-- `content_rect` of the surfaces that have one, as offset. -/
abbrev ContentRects := Resource → Option (Int × Int)

def windowContentInset (s : State) (rects : ContentRects) (id : Nat) : Int × Int :=
  match s.window id with
  | none => (0,0)
  | some w =>
    match rects w.surface with
    | some (x,y) => (max x 0,max y 0)
    | none => (0,0)

section
variable [Add κ] [OfNat κ 0] [BEq κ] [IntCast κ]

def position (s : State) (rects : ContentRects) (i : Injection κ) (id : Nat) : κ × κ :=
  if i.content then
    (i.x+((windowContentInset s rects id).1 : κ),i.y+((windowContentInset s rects id).2 : κ))
  else (i.x,i.y)

/-- Frames are for pointers of version 5 and above. -/
def framed (version : Nat) : List (PointerEvent κ) := if 5≤version then [.frame] else []

def pointerEvents (i : Injection κ) (x y : κ) (version : Nat) : List (PointerEvent κ) :=
  let needsSplit:=i.button != 0 || i.axisX != 0 || i.axisY != 0
  List.flatten [
    [.motion x y],
    if needsSplit then framed version else [],
    if i.button != 0 then [.button i.button i.pressed] else [],
    if i.axisX != 0 then [.axis .horizontalScroll i.axisX] else [],
    if i.axisY != 0 then [.axis .verticalScroll i.axisY] else [],
    framed version]

def pointersOf (s : State) (client : Nat) : List Device :=
  s.devices.filter fun d => d.kind=.pointer ∧ d.client=client

/-- What each pointer is sent, or `none` where the call returns false. -/
def injectPointer (s : State) (rects : ContentRects) (i : Injection κ) :
    Option (List (Device × List (PointerEvent κ))) := do
  let id ← target s i.windowId
  let w ← s.window id
  let (x,y) := position s rects i id
  if pointersOf s w.client=[] then none
  else some ((pointersOf s w.client).map fun p => (p,pointerEvents i x y p.version))

theorem injectPointer_sent {rects : ContentRects} {i : Injection κ} {sent : List (Device × List (PointerEvent κ))}
    (h : injectPointer s rects i=some sent) :
    ∃ id w,target s i.windowId=some id ∧ s.window id=some w ∧
      ∀ p∈sent,p.1∈s.devices ∧ p.1.client=w.client := by
  obtain ⟨id,hid,h⟩ := bind_eq_some_iff.mp h
  obtain ⟨w,hw,h⟩ := bind_eq_some_iff.mp h
  obtain ⟨-,⟨⟩⟩ := ite_none_left_eq_some.mp h
  refine ⟨id,w,hid,hw,?_⟩
  intro p hp
  obtain ⟨d,hd,rfl⟩ := mem_map.mp hp
  obtain ⟨hm,hk⟩ := mem_filter.mp hd
  exact ⟨hm,(of_decide_eq_true hk).2⟩

end

def OnFocus (s : State) : Prop :=
  ∀ w,s.focusedWindow=some w → w.surface∉s.dead →
    ∀ d∈s.devices,d.client=w.client → entered d=some w.surface

/-- A registration without focus does not take over the id that has it. -/
def FreshPanels (s : State) : Call → Prop
  | .registerSurfaceNoFocus id _ => s.focused≠some id
  | _ => True

instance (s : State) : (a : Call) → Decidable (FreshPanels s a)
  | .registerSurfaceNoFocus id _ => inferInstanceAs (Decidable (s.focused≠some id))
  | .registerSurface .. | .unregisterSurface _ | .registerToplevel _ | .registerDevice ..
  | .unregisterDevice .. | .destroySurface _ | .disconnect _ => .isTrue trivial

theorem entered_enter (d : Device) (events : List FocusEvent) (x : Resource) :
    entered (d.hears (events++[FocusEvent.enter x]))=some x := by
  simp [entered,Device.hears,heard]

theorem windowNews_alive {event : Resource → FocusEvent} {w : Window} (h : w.surface∉s.dead) :
    s.windowNews event (some w) w.client=[event w.surface] := if_pos ⟨rfl,h⟩

theorem onFocus_broadcast (s : State) (news : Nat → List FocusEvent) :
    OnFocus (s.broadcast fun c => news c++s.windowNews .enter s.focusedWindow c) := by
  intro w hw hdead d hd hc
  obtain ⟨e,_,rfl⟩ := mem_broadcast hd
  have hf : s.focusedWindow=some w := hw
  have he : e.client=w.client := hc
  have hlive : w.surface∉s.dead := hdead
  rw [hf,he,windowNews_alive hlive]
  exact entered_enter e (news w.client) w.surface

theorem registerSurface_onFocus (id : Nat) (surface : Resource) : OnFocus (s.registerSurface id surface) := by
  have h:=onFocus_broadcast (s.focusing id surface) ((s.focusing id surface).leaveNews s.focused id)
  rw [focusedWindow_focusing] at h
  rw [registerSurface_eq]
  exact h

theorem unregisterSurface_onFocus (id : Nat) : OnFocus (s.unregisterSurface id) := by
  rw [unregisterSurface_eq]
  exact onFocus_broadcast (s.removed id) fun _ => []

theorem registerSurfaceNoFocus_onFocus {id : Nat} {surface : Resource} (h : OnFocus s) (hf : s.focused≠some id) :
    OnFocus (s.registerSurfaceNoFocus id surface) := by
  have hw : (s.registerSurfaceNoFocus id surface).focusedWindow=s.focusedWindow := focusedWindow_inserted hf
  intro w hfw
  exact h w (hw ▸ hfw)

theorem registerDevice_onFocus {kind : DeviceKind} {resource : Resource} {version : Nat} (h : OnFocus s) :
    OnFocus (s.registerDevice kind resource version) := by
  intro w hw hdead d hd hc
  have hf : s.focusedWindow=some w := hw
  rcases mem_append.mp hd with hd | hd
  · exact h w hf hdead d hd hc
  · -- the late binder gets its enter on creation
    have he:=mem_singleton.mp hd
    subst he
    have hr : resource.client=w.client := hc
    have hlive : w.surface∉s.dead := hdead
    simp [entered,hf,hr,windowNews_alive hlive,heard]

theorem destroySurface_onFocus {surface : Resource} (h : OnFocus s) : OnFocus (s.destroySurface surface) := by
  intro w hw hdead d hd hc
  obtain ⟨e,he,rfl⟩ := mem_broadcast hd
  have hne : w.surface≠surface := fun hs => hdead (hs ▸ mem_cons_self)
  have hbefore:=h w hw (fun hm => hdead (mem_cons_of_mem _ hm)) e he hc
  unfold entered at hbefore ⊢
  simp only [Device.hears,foldl_append,hbefore]
  by_cases hcl : e.client=surface.client
  · simp [hcl,heard,hne]
  · simp [hcl]

theorem onFocus_step (h : OnFocus s) (hok : FreshPanels s a) (ht : step s a=some t) : OnFocus t := by
  cases a with
  | registerSurface id surface =>
    obtain ⟨-,⟨⟩⟩ := ite_none_left_eq_some.mp ht
    exact registerSurface_onFocus id surface
  | registerSurfaceNoFocus =>
    obtain ⟨-,⟨⟩⟩ := ite_none_left_eq_some.mp ht
    exact registerSurfaceNoFocus_onFocus h hok
  | unregisterSurface id =>
    cases ht
    exact unregisterSurface_onFocus id
  | registerDevice =>
    obtain ⟨-,⟨⟩⟩ := ite_none_left_eq_some.mp ht
    exact registerDevice_onFocus h
  | unregisterDevice =>
    cases ht
    intro w hw hdead d hd
    exact h w hw hdead d (mem_of_mem_filter hd)
  | destroySurface =>
    cases ht
    exact destroySurface_onFocus h
  | _ =>
    cases ht
    exact h

theorem onFocus_start : OnFocus start := by
  intro w h
  cases h

/-- The target is on the surface of the focused window, which is not destroyed. -/
def Focused (s : State) (windowId : Option Nat) : Prop :=
  ∃ f,s.focusedWindow=some f ∧ f.surface∉s.dead ∧
    ∀ id w,target s windowId=some id → s.window id=some w → w.surface=f.surface

section
variable [Add κ] [OfNat κ 0] [BEq κ] [IntCast κ]

/-- Events for a window on the focused surface are sent to pointers that are on
that surface. -/
theorem pointers_on_target (h : Reach step FreshPanels start s) (rects : ContentRects) (i : Injection κ)
    (hi : Focused s i.windowId) {sent : List (Device × List (PointerEvent κ))}
    (hs : injectPointer s rects i=some sent) :
    ∃ id w,target s i.windowId=some id ∧ s.window id=some w ∧
      ∀ p∈sent,entered p.1=some w.surface := by
  have hon : OnFocus s := h.keeps onFocus_start onFocus_step
  obtain ⟨f,hf,hdead,hsurface⟩ := hi
  obtain ⟨id,w,hid,hw,hsent⟩ := injectPointer_sent hs
  have hwf:=hsurface id w hid hw
  refine ⟨id,w,hid,hw,?_⟩
  intro p hp
  obtain ⟨hm,hc⟩ := hsent p hp
  have hcf : p.1.client=f.client := hc.trans (congrArg Resource.client hwf)
  rw [hwf]
  exact hon f hf hdead p.1 hm hcf

end

def click : Injection Int := ⟨some 1,false,10,20,272,true,0,0⟩

theorem click_on_focused_window : ∃ s w sent,Reach step FreshPanels start s ∧
    injectPointer s (fun _ => none) click=some sent ∧ sent.length=1 ∧ s.window 1=some w ∧
      ∀ p∈sent,entered p.1=some w.surface := by
  obtain ⟨s,hr,hf,hd,hw,hn⟩ := @reach_observed State Call step FreshPanels start
    [.registerSurface 1 ⟨1,1⟩,.registerDevice .pointer ⟨1,2⟩ 5,.registerSurfaceNoFocus 2 ⟨2,1⟩]
    (fun s => s.focusedWindow=some ⟨1,⟨1,1⟩,true⟩ ∧ s.dead=[] ∧
      s.window 1=some ⟨1,⟨1,1⟩,true⟩ ∧
      (injectPointer s (fun _ => none) click).map List.length=some 1) _
    (meets_decided (by decide +kernel)) (by decide +kernel)
  obtain ⟨sent,hs,hl⟩ := map_eq_some_iff.mp hn
  have hi : Focused s click.windowId := by
    refine ⟨_,hf,by simp [hd],?_⟩
    intro id w hid hwid
    have h1 : 1=id := some.inj hid
    rw [← h1,hw] at hwid
    rw [← some.inj hwid]
  obtain ⟨id,w,hid,hwid,hon⟩ := pointers_on_target hr (fun _ => none) click hi hs
  have h1 : 1=id := some.inj hid
  exact ⟨s,w,sent,hr,hs,hl,h1 ▸ hwid,hon⟩

/-- Of two windows of one client the second has the focus and gets the click for the first. -/
theorem click_on_other_window : ∃ s w sent,Reach step Free start s ∧
    injectPointer s (fun _ => none) click=some sent ∧ s.window 1=some w ∧
      ∃ p∈sent,entered p.1≠some w.surface := by
  obtain ⟨s,hr,hw,hn⟩ := @reach_observed State Call step Free start
    [.registerSurface 1 ⟨1,1⟩,.registerSurface 2 ⟨1,2⟩,.registerDevice .pointer ⟨1,3⟩ 5]
    (fun s => s.window 1=some ⟨1,⟨1,1⟩,true⟩ ∧
      (injectPointer s (fun _ => none) click).map (fun sent => sent.map fun p => entered p.1) =
        some [some ⟨1,2⟩]) _
    (meets_free _) (by decide +kernel)
  obtain ⟨sent,hs,hl⟩ := map_eq_some_iff.mp hn
  have hm : some ⟨1,2⟩∈sent.map fun p => entered p.1 := hl ▸ mem_singleton_self _
  obtain ⟨p,hp,he⟩ := mem_map.mp hm
  refine ⟨s,_,sent,hr,hs,hw,p,hp,?_⟩
  rw [he]
  decide

end Waymux.Session.PointerTarget
