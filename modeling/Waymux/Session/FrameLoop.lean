import Waymux.Interleave.Runs

/-!
# The frame loop of the outer view (`outer_view::run`)

When the loop commits, in which of its branches, and what it then waits for.
-/

namespace Waymux.Session.FrameLoop
open Interleave.Runs

/-- The shm framebuffer: a slot is free when the outer compositor has released it. -/
structure Framebuffer where
  width : Nat
  height : Nat
  released : Fin 2 → Bool
  writeIdx : Fin 2

def Framebuffer.new (w h : Nat) : Framebuffer := ⟨w,h,fun _ => true,0⟩

def Framebuffer.writable (fb : Framebuffer) : Bool := fb.released fb.writeIdx

/- `commit_write_slot`, and `commit_placeholder` once it has found the slot free. -/
def Framebuffer.commit (fb : Framebuffer) : Framebuffer :=
  {fb with released := Function.update fb.released fb.writeIdx false, writeIdx := 1-fb.writeIdx}

/- Reallocated when the size changed; on failure the old one stays. -/
def Framebuffer.resize (fb : Framebuffer) (w h : Nat) (allocated : Bool) : Framebuffer :=
  if (w≠fb.width ∨ h≠fb.height) ∧ allocated then .new w h else fb

/-- The part of `OuterState` the loop decides by, and the callbacks: `requested` since the last commit,
`owed` for what was committed. -/
structure Loop where
  sessionEmpty : Bool
  frameCallbackFired : Bool
  pendingFrameCb : Option Nat
  hasNewDamage : Bool
  lastDamageChecked : Nat
  fb : Framebuffer
  /-- inside the body of `if outer.has_new_damage` -/
  committing : Bool
  requested : List Nat
  owed : List Nat
  nextCb : Nat

/- The placeholder has been committed in slot 0. -/
def start (w h : Nat) : Loop where
  sessionEmpty := false
  frameCallbackFired := false
  pendingFrameCb := none
  hasNewDamage := true
  lastDamageChecked := 0
  fb := (Framebuffer.new w h).commit
  committing := false
  requested := []
  owed := []
  nextCb := 0

def Loop.shouldCommit (s : Loop) : Bool := s.frameCallbackFired || (s.hasNewDamage && s.pendingFrameCb.isNone)

/- `outer.pending_frame_cb = Some(surface.frame(..))` -/
def Loop.frame (s : Loop) : Loop :=
  {s with pendingFrameCb := some s.nextCb, requested := s.requested++[s.nextCb], nextCb := s.nextCb+1}

/- `surface.commit()` -/
def Loop.surfaceCommit (s : Loop) : Loop := {s with owed := s.owed++s.requested, requested := []}

def Loop.commitSlot (s : Loop) : Loop := {s.surfaceCommit with fb := s.fb.commit}

/- A dmabuf is forwarded, the focused window is composited into a slot, or there is no window. -/
def Loop.forward (s : Loop) (w h : Nat) (allocated : Bool) : Loop :=
  {s with
    sessionEmpty := false
    fb := s.fb.resize w h allocated
    hasNewDamage := false
    committing := false}.frame.surfaceCommit

def Loop.composite (s : Loop) (w h : Nat) (allocated composited : Bool) : Loop :=
  let s:={s with sessionEmpty := false, fb := s.fb.resize w h allocated, committing := false}
  if s.fb.writable && composited then {s with hasNewDamage := false}.frame.commitSlot else s

def Loop.empty (s : Loop) : Loop :=
  let s:={s with hasNewDamage := false, committing := false}
  if s.sessionEmpty then s
  else
    let s:={s with sessionEmpty := true}.frame
    if s.fb.writable then s.commitSlot else s

inductive Act
  | done (cb : Nat)
  | slotReleased (i : Fin 2)
  | observe (damage : Nat)
  | begin
  | forward (w h : Nat) (allocated : Bool)
  | composite (w h : Nat) (allocated composited : Bool)
  | empty

/- Events are dispatched at the head of the loop only. -/
def step (s : Loop) : Act → Option Loop
  | .done cb =>
      if s.committing ∨ cb∉s.owed then none
      else some {s with owed := s.owed.erase cb, pendingFrameCb := none, frameCallbackFired := true}
  | .slotReleased i =>
      if s.committing ∨ s.fb.released i then none
      else some {s with fb := {s.fb with released := Function.update s.fb.released i true}}
  | .observe damage =>
      if s.committing then none
      else if damage=s.lastDamageChecked then some s
      else some {s with lastDamageChecked := damage, hasNewDamage := true}
  | .begin =>
      if s.committing ∨ s.shouldCommit=false then none
      else some {s with frameCallbackFired := false, committing := s.hasNewDamage}
  | .forward w h allocated => if s.committing then some (s.forward w h allocated) else none
  | .composite w h allocated composited =>
      if s.committing then some (s.composite w h allocated composited) else none
  | .empty => if s.committing then some s.empty else none

variable {s t : Loop} {a : Act} {w h : Nat}

/-- Whoever waits for a callback has committed since it asked for it; so new damage gets the loop going. -/
structure NeverWedged (s : Loop) : Prop where
  owes : ∀ cb,s.pendingFrameCb=some cb → cb∈s.owed
  goesOn : s.committing=false → s.hasNewDamage=true → s.pendingFrameCb.isSome →
    ∃ cb t,step s (.done cb)=some t ∧ t.shouldCommit=true

/-- When the last window goes, the slot to be written has been released. -/
def SlotFree (s : Loop) : Act → Prop
  | .empty => s.sessionEmpty=false → s.fb.writable=true
  | _ => True

def Owing (s : Loop) : Prop := ∀ cb,s.pendingFrameCb=some cb → cb∈s.owed

theorem Owing.frame (s : Loop) : Owing s.frame.surfaceCommit := by
  intro cb hcb
  obtain rfl : s.nextCb=cb := Option.some.inj hcb
  show s.nextCb∈s.owed++(s.requested++[s.nextCb])
  simp

theorem Owing.composite (hi : Owing s) (aw ah : Nat) (al co : Bool) : Owing (s.composite aw ah al co) := by
  simp only [Loop.composite]
  split
  · exact Owing.frame _
  · exact hi

theorem Owing.empty (hi : Owing s) (hok : SlotFree s .empty) : Owing s.empty := by
  simp only [Loop.empty]
  split
  · exact hi
  next hs =>
    split
    · exact Owing.frame _
    next hw => exact absurd (hok (Bool.eq_false_iff.mpr hs)) hw

theorem owing_step (hi : Owing s) (hok : SlotFree s a) (hs : step s a=some t) : Owing t := by
  cases a with
  | done cb =>
    simp only [step] at hs
    split at hs <;> cases hs
    intro cb hcb
    cases hcb
  | forward =>
    simp only [step] at hs
    split at hs <;> cases hs
    exact Owing.frame _
  | composite =>
    simp only [step] at hs
    split at hs <;> cases hs
    exact hi.composite _ _ _ _
  | empty =>
    simp only [step] at hs
    split at hs <;> cases hs
    exact hi.empty hok
  | _ =>
    simp only [step] at hs
    repeat' split at hs
    all_goals cases hs
    all_goals exact hi

theorem never_wedges (hr : Reach step SlotFree (start w h) s) : NeverWedged s := by
  have howe : Owing s := hr.keeps (fun _ hcb => by cases hcb) owing_step
  refine ⟨howe,fun hc _ hp => ?_⟩
  obtain ⟨cb,hcb⟩ := Option.isSome_iff_exists.mp hp
  have hmem:=howe cb hcb
  refine ⟨cb,{s with owed := s.owed.erase cb, pendingFrameCb := none, frameCallbackFired := true},?_,rfl⟩
  simp [step,hc,hmem]

structure Wedged (s : Loop) : Prop where
  awaited : s.pendingFrameCb.isSome
  owed : s.owed=[]
  fired : s.frameCallbackFired=false
  committing : s.committing=false

theorem Wedged.idle (hw : Wedged s) : s.shouldCommit=false := by
  obtain ⟨cb,hcb⟩ := Option.isSome_iff_exists.mp hw.awaited
  simp [Loop.shouldCommit,hw.fired,hcb]

theorem wedged_step (hw : Wedged s) (hs : step s a=some t) : Wedged t := by
  obtain ⟨h1,h2,h3,h4⟩ := hw
  have hidle:=Wedged.idle ⟨h1,h2,h3,h4⟩
  cases a with
  | done => simp [step,h2] at hs
  | slotReleased | observe =>
    simp only [step] at hs
    repeat' split at hs
    all_goals cases hs
    all_goals exact ⟨h1,h2,h3,h4⟩
  | begin => simp [step,hidle] at hs
  | _ => simp [step,h4] at hs

theorem wedged_forever (hw : Wedged s) (hr : Reach step Free s t) : Wedged t :=
  hr.keeps hw fun hi _ hs => wedged_step hi hs

instance : Decidable (SlotFree s a) := by
  unfold SlotFree
  split <;> infer_instance

def presented : List Act := [.observe 1,.begin,.composite 800 600 true true,.done 0]

def emptied : List Act := [.observe 2,.begin,.empty]

theorem never_wedges_emptied : ∃ s,Reach step SlotFree (start 800 600) s ∧ s.pendingFrameCb=some 1 ∧
    s.owed=[1] ∧ NeverWedged s := by
  have hr : Reach step SlotFree (start 800 600) _ :=
    reach_exec (presented++([.slotReleased 0] : List Act)++emptied)
      (meets_decided (by decide +kernel)) (by decide +kernel)
  refine ⟨_,hr,?_,?_,never_wedges hr⟩ <;> decide +kernel

/-- The outer compositor holds slot 0: the callback is requested, nothing committed, and the loop stands
still. -/
theorem emptied_while_held : ∃ s,Reach step Free (start 800 600) s ∧ s.pendingFrameCb=some 1 ∧
    s.owed=[] ∧ ¬NeverWedged s ∧ ∀ t,Reach step Free s t → t.shouldCommit=false := by
  have hr : Reach step Free (start 800 600) _ := reach_free (presented++emptied) (by decide +kernel)
  refine ⟨_,hr,?_,?_,fun hn => absurd (hn.owes 1 ?_) ?_,fun t ht => (wedged_forever ⟨?_,?_,?_,?_⟩ ht).idle⟩ <;>
    decide +kernel

end Waymux.Session.FrameLoop
