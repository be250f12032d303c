import Waymux.Framing.Integers
import Waymux.Interleave.Presses
import Waymux.Interleave.Runs

/-!
# The input of the outer view (`input_bridge.rs`, `outer_view.rs`)

Coordinates, scrolling and keymaps are left out: no branch below reads them. A proxy of the outer
connection is a number; a lock and a relative pointer also say which `wl_pointer` they were made
for.
-/

namespace Waymux.Session.OuterInput
open Framing.Integers Framing.LengthPrefix Option

structure Modifiers where
  depressed : Nat
  latched : Nat
  locked : Nat
  group : Nat
deriving DecidableEq

def Modifiers.none : Modifiers := ⟨0,0,0,0⟩

/-- The calls `inject_key` and `inject_pointer` of the inner session. -/
inductive Injected
  | key (code : Nat) (pressed : Bool) (mods : Modifiers)
  | pointer (button : Nat) (pressed : Bool)
deriving DecidableEq

/-- `KeyState` and `ButtonState` as they arrive -/
inductive InputState
  | released
  | pressed
  | unknown (raw : Nat)
deriving DecidableEq

def InputState.isPressed : InputState → Bool
  | .pressed => true
  | _ => false

inductive LockState
  | unlocked
  | requesting
  | active
  | suspended
deriving DecidableEq

structure PointerProxy where
  object : Nat
  pointer : Nat
deriving DecidableEq

structure InputBridge where
  current : Modifiers
  keysHeld : Finset Nat
  buttonsHeld : Finset Nat
  inhibitManager : Bool
  pointerConstraints : Bool
  relativeManager : Bool
  outerInhibitor : Option Nat
  activeLock : Option PointerProxy
  activeRelative : Option PointerProxy
  lockState : LockState
deriving DecidableEq

def InputBridge.new (inhibitManager pointerConstraints relativeManager : Bool) : InputBridge :=
  ⟨.none,∅,∅,inhibitManager,pointerConstraints,relativeManager,none,none,none,.unlocked⟩

/-- `locks` and `relatives` are the objects alive there; `closing` is the time between the end of the loop
and the last round trip. -/
structure View where
  closing : Bool
  configured : Bool
  seat : Bool
  keyboard : Option Nat
  pointer : Option Nat
  input : InputBridge
  next : Nat
  locks : List PointerProxy
  relatives : List PointerProxy
deriving DecidableEq

/-- The seat's proxies are made before the first `Capabilities` event. -/
def View.new (seat inhibitManager pointerConstraints relativeManager : Bool) : View where
  closing := false
  configured := false
  seat := seat
  keyboard := if seat then some 0 else none
  pointer := if seat then some 1 else none
  input := .new inhibitManager pointerConstraints relativeManager
  next := 2
  locks := []
  relatives := []

/-- `chunks_exact(4)` and `from_ne_bytes`, on a little-endian machine -/
def keyCodes : Bytes → List Nat
  | a::b::c::d::rest => ofLe [a,b,c,d]::keyCodes rest
  | _ => []

namespace InputBridge

def onKeyboardEnter (b : InputBridge) (keys : Bytes) : InputBridge :=
  {b with keysHeld := (keyCodes keys).toFinset}

/-- `order` is the order in which the set is drained. -/
def drains (order : List Nat) (held : Finset Nat) : Prop := order.Nodup ∧ order.toFinset=held

instance (order : List Nat) (held : Finset Nat) : Decidable (drains order held) :=
  inferInstanceAs (Decidable (_ ∧ _))

def onKeyboardLeave (b : InputBridge) (order : List Nat) : Option (InputBridge × List Injected) :=
  if drains order b.keysHeld then
    some ({b with keysHeld := ∅ },order.map fun k => .key k false .none)
  else none

def onKeyboardModifiers (b : InputBridge) (mods : Modifiers) : InputBridge := {b with current := mods}

def onKeyboardKey (b : InputBridge) (key : Nat) (state : InputState) : InputBridge × List Injected :=
  ({b with keysHeld := if state.isPressed then insert key b.keysHeld else b.keysHeld.erase key},
    [.key key state.isPressed b.current])

def onPointerMotion (b : InputBridge) : InputBridge × List Injected := (b,[.pointer 0 false])

def onPointerButton (b : InputBridge) (button : Nat) (state : InputState) : InputBridge × List Injected :=
  ({b with buttonsHeld := if state.isPressed then insert button b.buttonsHeld else b.buttonsHeld.erase button},
    [.pointer button state.isPressed])

def onPointerLeave (b : InputBridge) (order : List Nat) : Option (InputBridge × List Injected) :=
  if drains order b.buttonsHeld then
    some ({b with buttonsHeld := ∅ },order.map fun k => .pointer k false)
  else none

/-- The held keys are forgotten; the lock and the buttons stay. -/
def resetForSeatChange (b : InputBridge) : InputBridge :=
  {b with outerInhibitor := none, keysHeld := ∅ }

def onNiriUnlocked (b : InputBridge) : InputBridge :=
  if b.lockState=.active then {b with lockState := .suspended} else b

end InputBridge

namespace View

def updateInhibitor (v : View) (want : Bool) : View :=
  if want && v.input.outerInhibitor.isNone then
    if v.input.inhibitManager then
      {v with input := {v.input with outerInhibitor := some v.next}, next := v.next+1}
    else v
  else if !want && v.input.outerInhibitor.isSome then
    {v with input := {v.input with outerInhibitor := none}}
  else v

def lockPointer (v : View) (p : Nat) : View :=
  {v with
    input := {v.input with activeLock := some ⟨v.next,p⟩, lockState := .requesting}
    locks := v.locks++[⟨v.next,p⟩]
    next := v.next+1}

def destroyLock (v : View) : View :=
  {v with
    input := {v.input with activeLock := none}
    locks := v.locks.filter fun l => some l≠v.input.activeLock}

def releaseLock (v : View) : View :=
  {v.destroyLock with input := {v.destroyLock.input with lockState := .unlocked}}

/-- The release moves the inner pointer to the centre. -/
def updateLock (v : View) (want : Bool) : View × List Injected :=
  match v.input.lockState, want with
  | .unlocked, true =>
    match v.input.pointerConstraints, v.pointer with
    | true, some p => (v.lockPointer p,[])
    | _, _ => (v,[])
  | .active, false | .suspended, false | .requesting, false => (v.releaseLock,[.pointer 0 false])
  | _, _ => (v,[])

def getRelativePointer (v : View) : View :=
  match v.input.activeRelative, v.input.relativeManager, v.pointer with
  | none, true, some p =>
    {v with
      input := {v.input with activeRelative := some ⟨v.next,p⟩}
      relatives := v.relatives++[⟨v.next,p⟩]
      next := v.next+1}
  | _, _, _ => v

def activate (v : View) : View := {v with input := {v.input with lockState := .active}}

def onNiriLocked (v : View) : View :=
  match v.input.lockState with
  | .requesting => v.getRelativePointer.activate
  | .suspended => v.activate
  | _ => v

def onCapabilities (v : View) (keyboard pointer : Bool) : View :=
  {v with
    keyboard := if keyboard then some v.next else none
    pointer := if pointer then some (v.next+1) else none
    input := v.input.resetForSeatChange
    next := v.next+2}

def destroyRelative (v : View) : View :=
  {v with
    input := {v.input with activeRelative := none}
    relatives := v.relatives.filter fun r => some r≠v.input.activeRelative}

def destroyInhibitor (v : View) : View := {v with input := {v.input with outerInhibitor := none}}

/-- The lock state is not reset. -/
def cleanup (v : View) : View := v.destroyInhibitor.destroyRelative.destroyLock

def withInput (v : View) (r : InputBridge × List Injected) : View × List Injected :=
  ({v with input := r.1},r.2)

def detach (v : View) (keys buttons : List Nat) : Option (View × List Injected) :=
  (v.input.onKeyboardLeave keys).bind fun r₁ =>
    (r₁.1.onPointerLeave buttons).map fun r₂ =>
      ({({v with input := r₂.1} : View).cleanup with closing := true},r₁.2++r₂.2)

end View

/-- The view, the two values that the inner clients change, and what has been injected. -/
structure State where
  view : Option View
  pointerLockCount : Nat
  shortcutsInhibited : Bool
  injected : List Injected
deriving DecidableEq

def start : State := ⟨none,0,false,[]⟩

def State.pointerLockActive (s : State) : Bool := decide (0<s.pointerLockCount)

/-- Capabilities of an unknown value are `none`. -/
inductive Act
  | attach (seat inhibitManager pointerConstraints relativeManager : Bool)
  | inner (pointerLockCount : Nat) (shortcutsInhibited : Bool)
  | configure
  | updateInhibitor
  | updateLock
  | capabilities (caps : Option (Bool × Bool))
  | keyboardEnter (keys : Bytes)
  | keyboardLeave (order : List Nat)
  | keyboardModifiers (mods : Modifiers)
  | keyboardKey (key : Nat) (state : InputState)
  | pointerEnter
  | pointerMotion
  | pointerButton (button : Nat) (state : InputState)
  | pointerLeave (order : List Nat)
  | relativeMotion
  | locked
  | unlocked
  | detach (keys buttons : List Nat)
  | gone
deriving DecidableEq

/-- Some of these are dispatched after the proxy was released, if they were in
the queue already; but never without a seat. -/
def Act.fromSeat : Act → Bool
  | .capabilities _ | .keyboardEnter _ | .keyboardLeave _ | .keyboardModifiers _ | .keyboardKey _ _
  | .pointerEnter | .pointerMotion | .pointerButton _ _ | .pointerLeave _ => true
  | _ => false

/-- What a view does; the events are dispatched until the last round trip ends. -/
def handle (s : State) (v : View) : Act → Option (View × List Injected)
  | .configure => some ({v with configured := true},[])
  | .updateInhibitor =>
    if v.closing then none
    else if v.configured && v.seat then
      some (v.updateInhibitor (s.shortcutsInhibited || s.pointerLockActive),[])
    else some (v,[])
  | .updateLock =>
    if v.closing then none
    else if v.configured then some (v.updateLock s.pointerLockActive)
    else some (v,[])
  | .capabilities none => some (v,[])
  | .capabilities (some (keyboard,pointer)) => some (v.onCapabilities keyboard pointer,[])
  | .keyboardEnter keys => some (v.withInput (v.input.onKeyboardEnter keys,[]))
  | .keyboardLeave order => (v.input.onKeyboardLeave order).map v.withInput
  | .keyboardModifiers mods => some (v.withInput (v.input.onKeyboardModifiers mods,[]))
  | .keyboardKey key state => some (v.withInput (v.input.onKeyboardKey key state))
  | .pointerEnter => some (v,[])
  | .pointerMotion => some (v.withInput v.input.onPointerMotion)
  | .pointerButton button state => some (v.withInput (v.input.onPointerButton button state))
  | .pointerLeave order => (v.input.onPointerLeave order).map v.withInput
  | .relativeMotion => some (v,[.pointer 0 false])
  | .locked => some (v.onNiriLocked,[])
  | .unlocked => some (v.withInput (v.input.onNiriUnlocked,[]))
  | .detach keys buttons => if v.closing then none else v.detach keys buttons
  | .attach _ _ _ _ | .inner _ _ | .gone => none

def State.advance (s : State) (r : View × List Injected) : State :=
  {s with view := some r.1, injected := s.injected++r.2}

def step (s : State) : Act → Option State
  | .attach seat inhibitManager pointerConstraints relativeManager =>
    if s.view=none then
      some {s with view := some (.new seat inhibitManager pointerConstraints relativeManager)}
    else none
  | .inner count inhibited => some {s with pointerLockCount := count, shortcutsInhibited := inhibited}
  | .gone => s.view.bind fun v => if v.closing then some {s with view := none} else none
  | a => s.view.bind fun v => if a.fromSeat && !v.seat then none else (handle s v a).map s.advance

variable {s t : State} {v : View} {a : Act}

/-- A view is installed, leaves, or handles what came; the inner clients act. -/
inductive Turn (s : State) (a : Act) : State → Prop
  | attached (seat im pc rm : Bool) : a=.attach seat im pc rm → s.view=none →
      Turn s a {s with view := some (.new seat im pc rm)}
  | inner (count : Nat) (inhibited : Bool) : a=.inner count inhibited →
      Turn s a {s with pointerLockCount := count, shortcutsInhibited := inhibited}
  | gone (v : View) : a=.gone → s.view=some v → v.closing=true → Turn s a {s with view := none}
  | handled (v : View) (r : View × List Injected) : s.view=some v → handle s v a=some r → Turn s a (s.advance r)

theorem handled_of_bind
    (h : (s.view.bind fun v => if a.fromSeat && !v.seat then none else (handle s v a).map s.advance)=some t) :
    Turn s a t := by
  obtain ⟨v,hv,h⟩ := bind_eq_some_iff.mp h
  obtain ⟨-,h⟩ := ite_none_left_eq_some.mp h
  obtain ⟨r,hr,rfl⟩ := map_eq_some_iff.mp h
  exact .handled v r hv hr

theorem step_cases (h : step s a=some t) : Turn s a t := by
  cases a with
  | attach seat im pc rm =>
    obtain ⟨hv,h⟩ := ite_none_right_eq_some.mp h
    cases h
    exact .attached seat im pc rm rfl hv
  | inner count inhibited =>
    cases h
    exact .inner count inhibited rfl
  | gone =>
    obtain ⟨v,hv,h⟩ := bind_eq_some_iff.mp h
    obtain ⟨hc,h⟩ := ite_none_right_eq_some.mp h
    cases h
    exact .gone v rfl hv hc
  | _ => exact handled_of_bind h

end Waymux.Session.OuterInput
