import Waymux.Session.Windows

/-!
# Window requests (`compositor.rs`)

`xdg_toplevel` and `zwlr_layer_surface_v1` objects, the commits that register layer surfaces, and
disconnects.
-/

namespace Waymux.Session.WindowRequests
open Interleave.Runs Windows

inductive WindowEvent
  | windowCreated (id : Nat)
  | windowDestroyed (id : Nat)
deriving DecidableEq

def WindowEvent.id : WindowEvent → Nat
  | .windowCreated id => id
  | .windowDestroyed id => id

structure Registry where
  nextWindowId : Nat
  windows : List Nat
  events : List WindowEvent

/-- The new window has the id of the counter, a `u32`. -/
def Registry.addWindow (r : Registry) : Registry where
  nextWindowId := (r.nextWindowId+1)%0x100000000
  windows := r.windows.filter (·≠r.nextWindowId)++[r.nextWindowId]
  events := r.events++[.windowCreated r.nextWindowId]

def Registry.removeWindow (r : Registry) (id : Nat) : Registry :=
  if id∈r.windows then
    {r with windows := r.windows.filter (·≠id), events := r.events++[.windowDestroyed id]}
  else r

structure LayerData where
  isLayerSurface : Bool
  layerWindowId : Option Nat
  keyboardInteractivity : Nat

inductive RoleKind
  | toplevel (windowId : Nat)
  | layerSurface
deriving DecidableEq

/-- A role object. One that is not alive waits for its `destroyed` callback. -/
structure Role where
  kind : RoleKind
  resource : Resource
  surface : Resource
  alive : Bool
deriving DecidableEq

structure Compositor where
  registry : Registry
  state : State
  layers : Resource → LayerData
  roles : List Role

def start : Compositor := ⟨⟨1,[],[]⟩,Windows.start,fun _ => ⟨false,none,0⟩,[]⟩

variable {s t : Compositor}

def Compositor.setLayer (s : Compositor) (x : Resource) (data : LayerData) : Compositor :=
  {s with layers := Function.update s.layers x data}

def Compositor.getToplevel (s : Compositor) (x resource : Resource) : Compositor :=
  {s with
    registry := s.registry.addWindow
    state := (s.state.registerSurface s.registry.nextWindowId x).registerToplevel s.registry.nextWindowId
    roles := ⟨.toplevel s.registry.nextWindowId,resource,x,true⟩::s.roles}

def Compositor.getLayerSurface (s : Compositor) (x resource : Resource) : Compositor :=
  {s.setLayer x {s.layers x with isLayerSurface := true} with
    roles := ⟨.layerSurface,resource,x,true⟩::s.roles}

/-- A commit registers a surface that is marked as a layer surface and has no
window. The mark is never taken off. -/
def Compositor.registers (s : Compositor) (x : Resource) : Prop :=
  (s.layers x).isLayerSurface=true ∧ (s.layers x).layerWindowId=none

instance (s : Compositor) (x : Resource) : Decidable (s.registers x) :=
  inferInstanceAs (Decidable (_ ∧ _))

/-- Interactivity 1 is `exclusive`. -/
def Compositor.registerLayer (s : Compositor) (x : Resource) : Compositor :=
  {s.setLayer x {s.layers x with layerWindowId := some s.registry.nextWindowId} with
    registry := s.registry.addWindow
    state :=
      if (s.layers x).keyboardInteractivity=1 then s.state.registerSurface s.registry.nextWindowId x
      else s.state.registerSurfaceNoFocus s.registry.nextWindowId x}

def Compositor.commit (s : Compositor) (x : Resource) : Compositor :=
  if s.registers x then s.registerLayer x else s

def Compositor.close (s : Compositor) (id : Nat) : Compositor :=
  {s with state := s.state.unregisterSurface id, registry := s.registry.removeWindow id}

def Compositor.closeLayer (s : Compositor) (x : Resource) : Compositor :=
  match (s.layers x).layerWindowId with
  | some id => (s.setLayer x {s.layers x with layerWindowId := none}).close id
  | none => s

/-- What the `destroy` request and the `destroyed` callback of a role both do. -/
def Compositor.closeRole (s : Compositor) (r : Role) : Compositor :=
  match r.kind with
  | .toplevel id => s.close id
  | .layerSurface => s.closeLayer r.surface

variable {id : Nat} {x : Resource} {u : State}

theorem closeRole_toplevel {r : Role} (h : r.kind=.toplevel id) : s.closeRole r=s.close id := by
  unfold Compositor.closeRole
  rw [h]

theorem closeRole_layer {r : Role} (h : r.kind=.layerSurface) : s.closeRole r=s.closeLayer r.surface := by
  unfold Compositor.closeRole
  rw [h]

theorem closeLayer_none (h : (s.layers x).layerWindowId=none) : s.closeLayer x=s := by
  unfold Compositor.closeLayer
  rw [h]

theorem closeLayer_some (h : (s.layers x).layerWindowId=some id) :
    s.closeLayer x=(s.setLayer x {s.layers x with layerWindowId := none}).close id := by
  unfold Compositor.closeLayer
  rw [h]

def Role.dying (r : Role) : Role := {r with alive := false}

def Compositor.destroy (s : Compositor) (r : Role) : Compositor :=
  {s.closeRole r with roles := s.roles.map fun o => if o=r then o.dying else o}

def Compositor.destroyed (s : Compositor) (r : Role) : Compositor :=
  {s.closeRole r with roles := s.roles.erase r}

def Compositor.disconnect (s : Compositor) (client : Nat) : Compositor :=
  {s with
    state := {s.state with gone := client::s.state.gone}
    roles := s.roles.map fun o => if o.resource.client=client then o.dying else o}

/-- The labels of a run: requests, disconnects and the `destroyed` callbacks. -/
inductive Request
  | getToplevel (surface resource : Resource)
  | getLayerSurface (surface resource : Resource)
  | setKeyboardInteractivity (role : Role) (value : Nat)
  | commit (surface : Resource)
  | destroy (role : Role)
  | destroyed (role : Role)
  | getDevice (kind : DeviceKind) (resource : Resource) (version : Nat)
  | destroyDevice (kind : DeviceKind) (resource : Resource)
  | destroySurface (surface : Resource)
  | disconnect (client : Nat)

def Settled (s : Compositor) : Prop := ∀ r∈s.roles,r.alive=true

def Serves (s : Compositor) (client : Nat) : Prop := Settled s ∧ client∉s.state.gone

instance (s : Compositor) : Decidable (Settled s) := inferInstanceAs (Decidable (∀ r∈s.roles,r.alive=true))

instance (s : Compositor) (client : Nat) : Decidable (Serves s client) := inferInstanceAs (Decidable (_ ∧ _))

/-- A role object that does not exist yet, for a surface of the same client. -/
def NewRole (s : Compositor) (x resource : Resource) : Prop :=
  resource.client=x.client ∧ ∀ r∈s.roles,r.resource≠resource

instance (s : Compositor) (x resource : Resource) : Decidable (NewRole s x resource) :=
  inferInstanceAs (Decidable (_ ∧ _))

def step (s : Compositor) : Request → Option Compositor
  | .getToplevel x resource =>
    if Serves s x.client ∧ NewRole s x resource then some (s.getToplevel x resource) else none
  | .getLayerSurface x resource =>
    if Serves s x.client ∧ NewRole s x resource then some (s.getLayerSurface x resource) else none
  | .setKeyboardInteractivity r value =>
    if Serves s r.resource.client ∧ r∈s.roles ∧ r.kind=.layerSurface then
      some (s.setLayer r.surface {s.layers r.surface with keyboardInteractivity := value})
    else none
  | .commit x => if Serves s x.client ∧ x∉s.state.dead then some (s.commit x) else none
  | .destroy r => if Serves s r.resource.client ∧ r∈s.roles then some (s.destroy r) else none
  | .destroyed r => if r∈s.roles ∧ r.alive=false then some (s.destroyed r) else none
  | .getDevice kind resource version =>
    if Serves s resource.client then some {s with state := s.state.registerDevice kind resource version} else none
  | .destroyDevice kind resource => some {s with state := s.state.unregisterDevice kind resource}
  | .destroySurface x => some {s with state := s.state.destroySurface x}
  | .disconnect client => if Serves s client then some (s.disconnect client) else none

theorem reach_register (h : Reach Windows.step Free Windows.start u) (hc : x.client∉u.gone) :
    Reach Windows.step Free Windows.start (u.registerSurface id x) :=
  h.next trivial (a := .registerSurface id x) (if_neg hc)

theorem reach_registerNoFocus (h : Reach Windows.step Free Windows.start u) (hc : x.client∉u.gone) :
    Reach Windows.step Free Windows.start (u.registerSurfaceNoFocus id x) :=
  h.next trivial (a := .registerSurfaceNoFocus id x) (if_neg hc)

theorem reach_unregister (h : Reach Windows.step Free Windows.start u) (id : Nat) :
    Reach Windows.step Free Windows.start (u.unregisterSurface id) :=
  h.next trivial (a := .unregisterSurface id) rfl

theorem reach_closeRole (h : Reach Windows.step Free Windows.start s.state) (r : Role) :
    Reach Windows.step Free Windows.start (s.closeRole r).state := by
  cases hk : r.kind with
  | toplevel id =>
    rw [closeRole_toplevel hk]
    exact reach_unregister h id
  | layerSurface =>
    rw [closeRole_layer hk]
    cases hw : (s.layers r.surface).layerWindowId with
    | none =>
      rw [closeLayer_none hw]
      exact h
    | some id =>
      rw [closeLayer_some hw]
      exact reach_unregister h id

theorem reach_commit (h : Reach Windows.step Free Windows.start s.state) (hc : x.client∉s.state.gone) :
    Reach Windows.step Free Windows.start (s.commit x).state := by
  unfold Compositor.commit
  by_cases hr : s.registers x
  · rw [if_pos hr]
    unfold Compositor.registerLayer
    by_cases hk : (s.layers x).keyboardInteractivity=1
    · simp only [if_pos hk]
      exact reach_register h hc
    · simp only [if_neg hk]
      exact reach_registerNoFocus h hc
  · rw [if_neg hr]
    exact h

theorem calls_step {a : Request} (hr : Reach Windows.step Free Windows.start s.state) (h : step s a=some t) :
    Reach Windows.step Free Windows.start t.state := by
  cases a with
  | getToplevel x resource =>
    obtain ⟨⟨⟨_,hc⟩,_⟩,⟨⟩⟩ := Option.ite_none_right_eq_some.mp h
    exact (reach_register hr hc).next trivial (a := .registerToplevel s.registry.nextWindowId) rfl
  | commit =>
    obtain ⟨⟨⟨_,hc⟩,_⟩,⟨⟩⟩ := Option.ite_none_right_eq_some.mp h
    exact reach_commit hr hc
  | destroy r | destroyed r =>
    obtain ⟨_,⟨⟩⟩ := Option.ite_none_right_eq_some.mp h
    exact reach_closeRole hr r
  | getDevice kind resource version =>
    obtain ⟨⟨_,hc⟩,⟨⟩⟩ := Option.ite_none_right_eq_some.mp h
    exact hr.next trivial (a := .registerDevice kind resource version) (if_neg hc)
  | destroyDevice kind resource =>
    cases h
    exact hr.next trivial (a := .unregisterDevice kind resource) rfl
  | destroySurface x =>
    cases h
    exact hr.next trivial (a := .destroySurface x) rfl
  | disconnect client =>
    obtain ⟨_,⟨⟩⟩ := Option.ite_none_right_eq_some.mp h
    exact hr.next trivial (a := .disconnect client) rfl
  | _ =>
    obtain ⟨_,⟨⟩⟩ := Option.ite_none_right_eq_some.mp h
    exact hr

/-- Clients act on the windows by calls of `State` only; so the focus is on a registered one. -/
theorem requests_are_calls (h : Reach step Free start s) :
    Reach Windows.step Free Windows.start s.state ∧ Registered s.state := by
  have hc:=h.keeps (I := fun u => Reach Windows.step Free Windows.start u.state) .start
    fun hu _ ht => calls_step hu ht
  exact ⟨hc,focus_registered hc⟩

/-- Three windows of two clients: one is closed, and the client of another disconnects. -/
theorem requests_are_calls_close : ∃ s : Compositor,
    s.registry.events.map (·.id)=[1,2,3,3,2] ∧ s.state.windowsById.map (·.id)=[1] ∧ s.state.focused=some 1 ∧
    Reach Windows.step Free Windows.start s.state ∧ Registered s.state := by
  have hr : Reach step Free start _ := reach_free
    [.getToplevel ⟨1,1⟩ ⟨1,2⟩,.getToplevel ⟨2,1⟩ ⟨2,2⟩,.getToplevel ⟨1,3⟩ ⟨1,4⟩,
      .destroy ⟨.toplevel 3,⟨1,4⟩,⟨1,3⟩,true⟩,.destroyed ⟨.toplevel 3,⟨1,4⟩,⟨1,3⟩,false⟩,
      .disconnect 2,.destroyed ⟨.toplevel 2,⟨2,2⟩,⟨2,1⟩,false⟩] (by decide +kernel)
  exact ⟨_,by decide +kernel,by decide +kernel,by decide +kernel,requests_are_calls hr⟩

end Waymux.Session.WindowRequests
