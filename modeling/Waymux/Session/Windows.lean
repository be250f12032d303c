import Waymux.Interleave.Runs
import Mathlib.Data.List.Basic

/-!
# Windows, focus and seats of a session (`state.rs`)

With the calls that the protocol handlers of `compositor.rs` make.
-/

namespace Waymux.Session.Windows
open Interleave.Runs List

structure Resource where
  client : Nat
  object : Nat
deriving DecidableEq

/-- What a client is told about its focus. `gone` is the implicit leave of a
surface that is destroyed. -/
inductive FocusEvent
  | enter (surface : Resource)
  | leave (surface : Resource)
  | gone (surface : Resource)
deriving DecidableEq

inductive DeviceKind
  | keyboard
  | pointer
deriving DecidableEq

structure Device where
  kind : DeviceKind
  resource : Resource
  version : Nat
  log : List FocusEvent
deriving DecidableEq

def Device.client (d : Device) : Nat := d.resource.client

/-- The client stored with the surface is that of the surface. `focusable` is not in the code: it says which
of the two functions registered the window. -/
structure Window where
  id : Nat
  surface : Resource
  focusable : Bool
deriving DecidableEq

def Window.client (w : Window) : Nat := w.surface.client

structure State where
  windowsById : List Window
  toplevels : List Nat
  focused : Option Nat
  devices : List Device
  /-- destroyed surfaces -/
  dead : List Resource
  /-- clients that have disconnected -/
  gone : List Nat

def start : State := ⟨[],[],none,[],[],[]⟩

variable {s t : State}

def State.window (s : State) (id : Nat) : Option Window := s.windowsById.find? (·.id=id)

def State.focusedWindow (s : State) : Option Window := s.focused.bind s.window

def Device.hears (d : Device) (events : List FocusEvent) : Device := {d with log := d.log++events}

def State.broadcast (s : State) (news : Nat → List FocusEvent) : State :=
  {s with devices := s.devices.map fun d => d.hears (news d.client)}

/-- An event about a window's surface for the window's client. One that names a
destroyed surface is not sent. -/
def State.windowNews (s : State) (event : Resource → FocusEvent) (w : Option Window) (client : Nat) :
    List FocusEvent :=
  match w with
  | some w => if w.client=client ∧ w.surface∉s.dead then [event w.surface] else []
  | none => []

def State.sendEnter (s : State) (id : Nat) : State := s.broadcast (s.windowNews .enter (s.window id))

def State.sendLeave (s : State) (id : Nat) : State := s.broadcast (s.windowNews .leave (s.window id))

def State.inserted (s : State) (w : Window) : State :=
  {s with windowsById := s.windowsById.filter (·.id≠w.id)++[w]}

def State.leavePrevious (s : State) (previous : Option Nat) (id : Nat) : State :=
  match previous with
  | some old => if old≠id then s.sendLeave old else s
  | none => s

def State.registerSurface (s : State) (id : Nat) (surface : Resource) : State :=
  let inserted:=s.inserted ⟨id,surface,true⟩
  (State.leavePrevious {inserted with focused := some id} s.focused id).sendEnter id

def State.registerSurfaceNoFocus (s : State) (id : Nat) (surface : Resource) : State :=
  s.inserted ⟨id,surface,false⟩

def State.registerToplevel (s : State) (id : Nat) : State :=
  {s with toplevels := s.toplevels.filter (·≠id)++[id]}

def State.others (s : State) (id : Nat) : List Window := s.windowsById.filter (·.id≠id)

/-- The highest id, which is to be that of the most recent window. -/
def highest (windows : List Window) : Option Nat := (windows.map (·.id)).max?

def State.removed (s : State) (id : Nat) : State :=
  {s with
    windowsById := s.others id
    toplevels := s.toplevels.filter (·≠id)
    focused := if s.focused=some id then highest (s.others id) else s.focused}

/-- The enter is sent to the focused window, moved or not. -/
def State.unregisterSurface (s : State) (id : Nat) : State :=
  match (s.removed id).focused with
  | some new => (s.removed id).sendEnter new
  | none => s.removed id

def State.registerDevice (s : State) (kind : DeviceKind) (resource : Resource) (version : Nat) : State :=
  {s with
    devices := s.devices ++
      [⟨kind,resource,version,s.windowNews .enter s.focusedWindow resource.client⟩]}

def State.unregisterDevice (s : State) (kind : DeviceKind) (resource : Resource) : State :=
  {s with devices := s.devices.filter fun d => ¬ (d.kind=kind ∧ d.resource=resource)}

def State.destroySurface (s : State) (surface : Resource) : State :=
  {s with dead := surface::s.dead}.broadcast fun c => if c=surface.client then [.gone surface] else []

/-- What the handlers do. After a disconnect the objects of the client are
destroyed one by one, in any order. -/
inductive Call
  | registerSurface (id : Nat) (surface : Resource)
  | registerSurfaceNoFocus (id : Nat) (surface : Resource)
  | unregisterSurface (id : Nat)
  | registerToplevel (id : Nat)
  | registerDevice (kind : DeviceKind) (resource : Resource) (version : Nat)
  | unregisterDevice (kind : DeviceKind) (resource : Resource)
  | destroySurface (surface : Resource)
  | disconnect (client : Nat)

/-- A client that has disconnected creates nothing more. -/
def step (s : State) : Call → Option State
  | .registerSurface id surface =>
    if surface.client∈s.gone then none else some (s.registerSurface id surface)
  | .registerSurfaceNoFocus id surface =>
    if surface.client∈s.gone then none else some (s.registerSurfaceNoFocus id surface)
  | .unregisterSurface id => some (s.unregisterSurface id)
  | .registerToplevel id => some (s.registerToplevel id)
  | .registerDevice kind resource version =>
    if resource.client∈s.gone then none else some (s.registerDevice kind resource version)
  | .unregisterDevice kind resource => some (s.unregisterDevice kind resource)
  | .destroySurface surface => some (s.destroySurface surface)
  | .disconnect client => some {s with gone := client::s.gone}

theorem window_some {id : Nat} {w : Window} (h : s.window id=some w) : w∈s.windowsById ∧ w.id=id := by
  have hid:=List.find?_some h
  exact ⟨mem_of_find?_eq_some h,of_decide_eq_true hid⟩

theorem focusedWindow_some {w : Window} (h : s.focusedWindow=some w) :
    s.focused=some w.id ∧ w∈s.windowsById := by
  obtain ⟨id,hf,hw⟩ := Option.bind_eq_some_iff.mp h
  obtain ⟨hm,hid⟩ := window_some hw
  exact ⟨hid ▸ hf,hm⟩

theorem find_others (windows : List Window) (id i : Nat) :
    (windows.filter (·.id≠id)).find? (·.id=i)=if i=id then none else windows.find? (·.id=i) := by
  rw [List.find?_filter]
  by_cases h : i=id
  · rw [if_pos h,List.find?_eq_none]
    intro w _ hw
    simp only [decide_eq_true_eq] at hw
    exact hw.1 (hw.2.trans h)
  · rw [if_neg h]
    congr 1
    funext w
    by_cases hw : w.id=i <;> simp [hw,h]

theorem window_inserted (w : Window) (id : Nat) :
    (s.inserted w).window id=if id=w.id then some w else s.window id := by
  have ho:=find_others s.windowsById w.id id
  unfold State.window State.inserted
  rw [List.find?_append,ho]
  by_cases h : id=w.id
  · simp [h]
  · have hw : [w].find? (fun a => decide (a.id=id))=none := by simp [Ne.symm h]
    rw [if_neg h,if_neg h,hw,Option.or_none]

theorem hears_hears (d : Device) (es fs : List FocusEvent) : (d.hears es).hears fs=d.hears (es++fs) := by
  simp [Device.hears]

theorem hears_nil (d : Device) : d.hears []=d := by simp [Device.hears]

theorem broadcast_broadcast (s : State) (news more : Nat → List FocusEvent) :
    (s.broadcast news).broadcast more=s.broadcast fun c => news c++more c := by
  have hd : (s.devices.map fun d => d.hears (news d.client)).map (fun d => d.hears (more d.client)) =
      s.devices.map fun d => d.hears (news d.client++more d.client) := by
    rw [map_map]
    apply map_congr_left
    intro d _
    exact hears_hears d (news d.client) (more d.client)
  unfold State.broadcast
  rw [hd]

theorem broadcast_nothing (s : State) : s.broadcast (fun _ => [])=s := by
  have hd : s.devices.map (fun d => d.hears [])=s.devices := by
    rw [map_congr_left fun d _ => hears_nil d,map_id']
  unfold State.broadcast
  rw [hd]

theorem mem_broadcast {news : Nat → List FocusEvent} {d : Device} (h : d∈(s.broadcast news).devices) :
    ∃ e∈s.devices,d=e.hears (news e.client) := by
  obtain ⟨e,he,hd⟩ := mem_map.mp h
  exact ⟨e,he,hd.symm⟩

def State.leaveNews (s : State) (previous : Option Nat) (id : Nat) (client : Nat) : List FocusEvent :=
  match previous with
  | some old => if old≠id then s.windowNews .leave (s.window old) client else []
  | none => []

theorem leavePrevious_eq (s : State) (previous : Option Nat) (id : Nat) :
    s.leavePrevious previous id=s.broadcast (s.leaveNews previous id) := by
  cases previous with
  | none => exact (broadcast_nothing s).symm
  | some old =>
    by_cases h : old≠id
    · have hn : s.leaveNews (some old) id=s.windowNews .leave (s.window old) := funext fun _ => if_pos h
      rw [hn]
      exact if_pos h
    · have hn : s.leaveNews (some old) id=fun _ => [] := funext fun _ => if_neg h
      rw [hn,broadcast_nothing]
      exact if_neg h

def State.focusing (s : State) (id : Nat) (surface : Resource) : State :=
  {s.inserted ⟨id,surface,true⟩ with focused := some id}

theorem window_focusing (id : Nat) (surface : Resource) (i : Nat) :
    (s.focusing id surface).window i=if i=id then some ⟨id,surface,true⟩ else s.window i :=
  window_inserted ⟨id,surface,true⟩ i

theorem registerSurface_eq (s : State) (id : Nat) (surface : Resource) :
    s.registerSurface id surface=(s.focusing id surface).broadcast fun c =>
      (s.focusing id surface).leaveNews s.focused id c ++
        s.windowNews .enter (some ⟨id,surface,true⟩) c := by
  have hw : (s.focusing id surface).window id=some ⟨id,surface,true⟩ := by
    rw [window_focusing,if_pos rfl]
  have hp:=leavePrevious_eq (s.focusing id surface) s.focused id
  show ((s.focusing id surface).leavePrevious s.focused id).sendEnter id=_
  rw [hp]
  show ((s.focusing id surface).broadcast _).broadcast
    ((s.focusing id surface).windowNews .enter ((s.focusing id surface).window id))=_
  rw [broadcast_broadcast,hw]
  rfl

theorem unregisterSurface_eq (s : State) (id : Nat) :
    s.unregisterSurface id =
      (s.removed id).broadcast ((s.removed id).windowNews .enter (s.removed id).focusedWindow) := by
  unfold State.unregisterSurface State.focusedWindow
  cases hf : (s.removed id).focused with
  | none => exact (broadcast_nothing _).symm
  | some => rfl

theorem removed_focused {id i : Nat} (h : (s.removed id).focused=some i) :
    (s.focused=some i ∧ i≠id) ∨ (s.focused=some id ∧ highest (s.others id)=some i) := by
  by_cases hf : s.focused=some id
  · have he : (s.removed id).focused=highest (s.others id) := if_pos hf
    exact .inr ⟨hf,he ▸ h⟩
  · have he : (s.removed id).focused=s.focused := if_neg hf
    have hi : s.focused=some i := he ▸ h
    refine .inl ⟨hi,fun hid => hf (hid ▸ hi)⟩

theorem highest_mem {windows : List Window} {i : Nat} (h : highest windows=some i) : ∃ w∈windows,w.id=i := by
  have hm:=List.max?_mem h
  exact mem_map.mp hm

theorem focusedWindow_inserted {w : Window} (h : s.focused≠some w.id) :
    (s.inserted w).focusedWindow=s.focusedWindow := by
  show s.focused.bind (s.inserted w).window=s.focused.bind s.window
  cases hf : s.focused with
  | none => rfl
  | some i =>
    have hne : i≠w.id := fun he => h (he ▸ hf)
    exact (window_inserted w i).trans (if_neg hne)

theorem focusedWindow_focusing (id : Nat) (surface : Resource) :
    (s.focusing id surface).focusedWindow=some ⟨id,surface,true⟩ := by
  have hw:=@window_focusing s id surface id
  rw [if_pos rfl] at hw
  exact hw

def Registered (s : State) : Prop := ∀ id,s.focused=some id → ∃ w∈s.windowsById,w.id=id

theorem inserted_ids {w v : Window} (h : v∈s.windowsById) : ∃ u∈(s.inserted w).windowsById,u.id=v.id := by
  by_cases he : v.id=w.id
  · exact ⟨w,mem_append_right _ (mem_singleton_self w),he.symm⟩
  · exact ⟨v,mem_append_left _ (mem_filter.mpr ⟨h,decide_eq_true he⟩),rfl⟩

theorem registerSurface_registered (id : Nat) (surface : Resource) : Registered (s.registerSurface id surface) := by
  rw [registerSurface_eq]
  intro i hf
  have hid : id=i := Option.some.inj hf
  exact ⟨⟨id,surface,true⟩,mem_append_right _ (mem_singleton_self _),hid⟩

theorem registerSurfaceNoFocus_registered {id : Nat} {surface : Resource} (h : Registered s) :
    Registered (s.registerSurfaceNoFocus id surface) := by
  intro i hf
  obtain ⟨w,hw,hid⟩ := h i hf
  obtain ⟨u,hu,huid⟩ := @inserted_ids s ⟨id,surface,false⟩ w hw
  exact ⟨u,hu,huid.trans hid⟩

theorem unregisterSurface_registered {id : Nat} (h : Registered s) : Registered (s.unregisterSurface id) := by
  rw [unregisterSurface_eq]
  intro i hf
  rcases removed_focused hf with ⟨hfi,hne⟩ | ⟨_,hhigh⟩
  · obtain ⟨w,hw,hid⟩ := h i hfi
    exact ⟨w,mem_filter.mpr ⟨hw,decide_eq_true (hid ▸ hne)⟩,hid⟩
  · exact highest_mem hhigh

theorem registered_step {a : Call} (h : Registered s) (ht : step s a=some t) : Registered t := by
  cases a with
  | registerSurface id surface =>
    obtain ⟨-,⟨⟩⟩ := Option.ite_none_left_eq_some.mp ht
    exact registerSurface_registered id surface
  | registerSurfaceNoFocus =>
    obtain ⟨-,⟨⟩⟩ := Option.ite_none_left_eq_some.mp ht
    exact registerSurfaceNoFocus_registered h
  | unregisterSurface =>
    cases ht
    exact unregisterSurface_registered h
  | registerDevice =>
    obtain ⟨-,⟨⟩⟩ := Option.ite_none_left_eq_some.mp ht
    exact h
  | _ =>
    cases ht
    exact h

theorem focus_registered {ok : State → Call → Prop} (h : Reach step ok start s) : Registered s := by
  apply h.keeps (I := Registered)
  · intro id hf
    cases hf
  · intro u v a hu _ ht
    exact registered_step hu ht

end Waymux.Session.Windows
