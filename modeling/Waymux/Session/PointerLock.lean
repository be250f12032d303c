import Waymux.Session.OuterInput

/-!
# The outer pointer lock

A seat change replaces the `wl_pointer` and leaves the lock and the relative pointer alone.
-/

namespace Waymux.Session.PointerLock
open OuterInput Interleave.Runs Option

/-- `cleanup` destroys the lock and keeps the state, so the state says something
only while the loop runs. -/
structure LockSound (v : View) : Prop where
  one : v.locks.length≤1
  state : v.closing=false → (v.input.lockState=.unlocked ↔ v.input.activeLock=none)
  lock : ∀ l,v.input.activeLock=some l → v.pointer=some l.pointer
  relative : ∀ r,v.input.activeRelative=some r → v.pointer=some r.pointer

def settled (v : View) : Act → Bool
  | .capabilities (some _) => v.input.activeLock.isNone && v.input.activeRelative.isNone
  | _ => true

def Settled (s : State) (a : Act) : Prop := s.view.all (settled · a)=true

/-- The held objects are the live ones, and the pointer is an object of the
connection. -/
structure LockInv (v : View) : Prop where
  locks : v.locks=v.input.activeLock.toList
  relatives : v.relatives=v.input.activeRelative.toList
  state : v.closing=false → (v.input.lockState=.unlocked ↔ v.input.activeLock=none)
  lock : ∀ l,v.input.activeLock=some l → v.pointer=some l.pointer
  relative : ∀ r,v.input.activeRelative=some r → v.pointer=some r.pointer
  fresh : ∀ p,v.pointer=some p → p<v.next

variable {v v' : View}

section
variable (h : LockInv v)
include h

theorem LockInv.sound : LockSound v := by
  refine ⟨?_,h.state,h.lock,h.relative⟩
  rw [h.locks]
  cases v.input.activeLock with
  | none => exact Nat.zero_le 1
  | some => exact Nat.le_refl 1

omit h in
theorem lockInv_new (seat im pc rm : Bool) : LockInv (.new seat im pc rm) := by
  refine ⟨rfl,rfl,fun _ => ⟨fun _ => rfl,fun _ => rfl⟩,nofun,nofun,fun p hp => ?_⟩
  obtain ⟨-,hp⟩ := ite_none_right_eq_some.mp hp
  have hp : 1=p := some.inj hp
  show p<2
  omega

structure SameLock (v v' : View) : Prop where
  closing : v'.closing=v.closing
  pointer : v'.pointer=v.pointer
  activeLock : v'.input.activeLock=v.input.activeLock
  activeRelative : v'.input.activeRelative=v.input.activeRelative
  lockState : v'.input.lockState=v.input.lockState
  locks : v'.locks=v.locks
  relatives : v'.relatives=v.relatives
  next : v.next≤v'.next

theorem LockInv.same (he : SameLock v v') : LockInv v' := by
  refine ⟨?_,?_,?_,?_,?_,fun p hp => ?_⟩
  · rw [he.locks,he.activeLock,h.locks]
  · rw [he.relatives,he.activeRelative,h.relatives]
  · rw [he.closing,he.lockState,he.activeLock]
    exact h.state
  · rw [he.activeLock,he.pointer]
    exact h.lock
  · rw [he.activeRelative,he.pointer]
    exact h.relative
  · rw [he.pointer] at hp
    have hlt:=h.fresh p hp
    have hle:=he.next
    omega

omit h in
theorem updateInhibitor_same (v : View) (want : Bool) : SameLock v (v.updateInhibitor want) := by
  have hv : SameLock v v := ⟨rfl,rfl,rfl,rfl,rfl,rfl,rfl,Nat.le_refl _⟩
  unfold View.updateInhibitor
  split
  · split
    · exact ⟨rfl,rfl,rfl,rfl,rfl,rfl,rfl,Nat.le_succ _⟩
    · exact hv
  · split
    · exact ⟨rfl,rfl,rfl,rfl,rfl,rfl,rfl,Nat.le_refl _⟩
    · exact hv

theorem LockInv.lockPointer {p : Nat} (hn : v.input.activeLock=none) (hp : v.pointer=some p) :
    LockInv (v.lockPointer p) := by
  have hlocks : v.locks=[] := by rw [h.locks,hn]; rfl
  refine ⟨?_,h.relatives,fun _ => ⟨nofun,nofun⟩,?_,h.relative,?_⟩
  · show v.locks++_=_
    rw [hlocks]
    rfl
  · intro l hl
    cases hl
    exact hp
  · intro q hq
    have hlt:=h.fresh q hq
    show q<v.next+1
    omega

theorem LockInv.destroyLock_locks : v.destroyLock.locks=[] := by
  show v.locks.filter _=[]
  rw [h.locks]
  cases hl : v.input.activeLock with
  | none => rfl
  | some => simp

theorem LockInv.releaseLock : LockInv v.releaseLock :=
  ⟨h.destroyLock_locks,h.relatives,fun _ => ⟨fun _ => rfl,fun _ => rfl⟩,nofun,h.relative,h.fresh⟩

theorem LockInv.updateLock (hc : v.closing=false) (want : Bool) : LockInv (v.updateLock want).1 := by
  unfold View.updateLock
  split
  · rename_i hstate
    have hnone : v.input.activeLock=none := (h.state hc).mp hstate
    split
    · rename_i p _ hp
      exact h.lockPointer hnone hp
    · exact h
  all_goals first
    | exact h.releaseLock
    | exact h

theorem LockInv.getRelativePointer : LockInv v.getRelativePointer := by
  unfold View.getRelativePointer
  split
  · rename_i p hnone _ hp
    have hrel : v.relatives=[] := by rw [h.relatives,hnone]; rfl
    refine ⟨h.locks,?_,h.state,h.lock,?_,?_⟩
    · rw [hrel]
      rfl
    · intro r hr
      cases hr
      exact hp
    · intro q hq
      have hlt:=h.fresh q hq
      show q<v.next+1
      omega
  · exact h

omit h in
theorem getRelativePointer_state (v : View) : v.getRelativePointer.input.lockState=v.input.lockState ∧
    v.getRelativePointer.closing=v.closing := by
  unfold View.getRelativePointer
  split <;> exact ⟨rfl,rfl⟩

theorem LockInv.activate (hs : v.closing=false → v.input.lockState≠.unlocked) : LockInv v.activate := by
  refine ⟨h.locks,h.relatives,fun hc => ⟨nofun,fun hn => ?_⟩,h.lock,h.relative,h.fresh⟩
  exact absurd ((h.state hc).mpr hn) (hs hc)

theorem LockInv.onNiriLocked : LockInv v.onNiriLocked := by
  unfold View.onNiriLocked
  split
  · rename_i hstate
    refine h.getRelativePointer.activate fun _ => ?_
    rw [(getRelativePointer_state v).1,hstate]
    nofun
  · rename_i hstate
    exact h.activate fun _ => by rw [hstate]; nofun
  · exact h

theorem LockInv.onNiriUnlocked : LockInv (v.withInput (v.input.onNiriUnlocked,[])).1 := by
  unfold InputBridge.onNiriUnlocked View.withInput
  split
  · rename_i hactive
    refine ⟨h.locks,h.relatives,fun hc => ⟨nofun,fun hn => ?_⟩,h.lock,h.relative,h.fresh⟩
    rw [(h.state hc).mpr hn] at hactive
    cases hactive
  · exact h

theorem LockInv.onCapabilities (keyboard pointer : Bool) (hl : v.input.activeLock=none)
    (hr : v.input.activeRelative=none) : LockInv (v.onCapabilities keyboard pointer) := by
  refine ⟨h.locks,h.relatives,h.state,fun l hl' => ?_,fun r hr' => ?_,fun p hp => ?_⟩
  · cases hl.symm.trans hl'
  · cases hr.symm.trans hr'
  · obtain ⟨-,hp⟩ := ite_none_right_eq_some.mp hp
    have hp : v.next+1=p := some.inj hp
    show p<v.next+2
    omega

theorem LockInv.destroyRelative_relatives : v.destroyRelative.relatives=[] := by
  show v.relatives.filter _=[]
  rw [h.relatives]
  cases hr : v.input.activeRelative with
  | none => rfl
  | some => simp

theorem LockInv.closed : LockInv {v.cleanup with closing := true} :=
  ⟨h.destroyLock_locks,h.destroyRelative_relatives,nofun,nofun,nofun,h.fresh⟩

end

variable {s t : State} {a : Act} {r : View × List Injected}

theorem LockInv.withInput (h : LockInv v) {p : InputBridge × List Injected}
    (hl : p.1.activeLock=v.input.activeLock) (hr : p.1.activeRelative=v.input.activeRelative)
    (hs : p.1.lockState=v.input.lockState) : LockInv (v.withInput p).1 :=
  h.same ⟨rfl,rfl,hl,hr,hs,rfl,rfl,Nat.le_refl _⟩

theorem leave_lock {b : InputBridge} {order : List Nat} {p : InputBridge × List Injected}
    (h : b.onKeyboardLeave order=some p ∨ b.onPointerLeave order=some p) :
    p.1.activeLock=b.activeLock ∧ p.1.activeRelative=b.activeRelative ∧ p.1.lockState=b.lockState := by
  rcases h with h | h
  · obtain ⟨-,hp⟩ := ite_none_right_eq_some.mp h
    exact some.inj hp ▸ ⟨rfl,rfl,rfl⟩
  · obtain ⟨-,hp⟩ := ite_none_right_eq_some.mp h
    exact some.inj hp ▸ ⟨rfl,rfl,rfl⟩

theorem LockInv.detach (h : LockInv v) {ks bs : List Nat} (hd : v.detach ks bs=some r) : LockInv r.1 := by
  obtain ⟨r₁,h₁,hd⟩ := bind_eq_some_iff.mp hd
  obtain ⟨r₂,h₂,rfl⟩ := map_eq_some_iff.mp hd
  obtain ⟨hl₁,hr₁,hs₁⟩ := leave_lock (.inl h₁)
  obtain ⟨hl₂,hr₂,hs₂⟩ := leave_lock (.inr h₂)
  have hin : LockInv (v.withInput r₂).1 := h.withInput (hl₂.trans hl₁) (hr₂.trans hr₁) (hs₂.trans hs₁)
  exact hin.closed

theorem handle_lock (h : LockInv v) (hok : settled v a=true) (hr : handle s v a=some r) : LockInv r.1 := by
  have now : ∀ {p : View × List Injected},LockInv p.1 → some p=some r → LockInv r.1 :=
    fun hp he => some.inj he ▸ hp
  have hsame : LockInv v → LockInv {v with configured := true} :=
    fun h => h.same ⟨rfl,rfl,rfl,rfl,rfl,rfl,rfl,Nat.le_refl _⟩
  cases a with
  | configure => exact now (hsame h) hr
  | updateInhibitor =>
    obtain ⟨-,hr⟩ := ite_none_left_eq_some.mp hr
    split at hr
    · exact now (h.same (updateInhibitor_same v _)) hr
    · exact now h hr
  | updateLock =>
    obtain ⟨hc,hr⟩ := ite_none_left_eq_some.mp hr
    split at hr
    · exact now (h.updateLock (Bool.eq_false_iff.mpr hc) _) hr
    · exact now h hr
  | capabilities caps =>
    cases caps with
    | none => exact now h hr
    | some c =>
      obtain ⟨hl,hrel⟩ : v.input.activeLock=none ∧ v.input.activeRelative=none := by
        simpa [settled] using hok
      exact now (h.onCapabilities c.1 c.2 hl hrel) hr
  | keyboardLeave =>
    obtain ⟨p,hp,rfl⟩ := map_eq_some_iff.mp hr
    obtain ⟨hl,hrel,hs⟩ := leave_lock (.inl hp)
    exact h.withInput hl hrel hs
  | pointerLeave =>
    obtain ⟨p,hp,rfl⟩ := map_eq_some_iff.mp hr
    obtain ⟨hl,hrel,hs⟩ := leave_lock (.inr hp)
    exact h.withInput hl hrel hs
  | pointerEnter | relativeMotion => exact now h hr
  | locked => exact now h.onNiriLocked hr
  | unlocked => exact now h.onNiriUnlocked hr
  | detach =>
    obtain ⟨-,hr⟩ := ite_none_left_eq_some.mp hr
    exact h.detach hr
  | attach | inner | gone => cases hr
  | _ => exact now (h.withInput rfl rfl rfl) hr

def Locked (s : State) : Prop := ∀ v,s.view=some v → LockInv v

theorem Settled.view (h : Settled s a) (hv : s.view=some v) : settled v a=true := by
  unfold Settled at h
  rwa [hv] at h

theorem locked_step (h : Locked s) (hok : Settled s a) (ht : step s a=some t) : Locked t := by
  intro w hw
  cases step_cases ht with
  | attached seat im pc rm =>
    cases hw
    exact lockInv_new seat im pc rm
  | inner => exact h w hw
  | gone => cases hw
  | handled v r hv hr =>
    cases hw
    exact handle_lock (h v hv) (hok.view hv) hr

theorem held_elsewhere (h : LockInv v) {keyboard pointer : Bool} {p : Nat} (hp : v.pointer=some p) :
    (v.onCapabilities keyboard pointer).pointer≠some p := by
  intro he
  obtain ⟨-,he⟩ := ite_none_right_eq_some.mp he
  have hq : v.next+1=p := some.inj he
  have hlt:=h.fresh p hp
  omega

theorem settled_of_sound (h : Locked s) (ht : step s a=some t) (hsound : ∀ w,t.view=some w → LockSound w) :
    Settled s a := by
  cases step_cases ht with
  | attached _ _ _ _ _ hv => rw [Settled,hv]; rfl
  | inner _ _ ha => subst ha; unfold Settled; cases s.view <;> rfl
  | gone v ha hv => subst ha; rw [Settled,hv]; rfl
  | handled v r hv hr =>
    rw [Settled,hv]
    show settled v a=true
    unfold settled
    split
    · cases hr
      have hs:=hsound _ rfl
      cases hl : v.input.activeLock with
      | some l => exact absurd (hs.lock l hl) (held_elsewhere (h v hv) ((h v hv).lock l hl))
      | none =>
        cases hrel : v.input.activeRelative with
        | some rel => exact absurd (hs.relative rel hrel) (held_elsewhere (h v hv) ((h v hv).relative rel hrel))
        | none => rfl
    · rfl

/-- The lock machine is sound as long as the seat changes only while nothing is held, and after no other
seat change. -/
theorem pointer_lock_sound (h : Reach step Settled start s) :
    (∀ v,s.view=some v → LockSound v) ∧
    ∀ a t,step s a=some t → (∀ w,t.view=some w → LockSound w) → Settled s a := by
  have hstart : Locked start := fun v hv => by cases hv
  have hlocked : Locked s := h.keeps hstart locked_step
  exact ⟨fun v hv => (hlocked v hv).sound,fun _ _ ht hs => settled_of_sound hlocked ht hs⟩

/-- A lock is asked for, granted, suspended when the pointer leaves and granted
again. -/
theorem pointer_lock_cycle : ∃ s v,Reach step Settled start s ∧ s.view=some v ∧
    (v.input.lockState=.active ∧ v.locks=[⟨2,1⟩] ∧ v.relatives=[⟨3,1⟩]) ∧ LockSound v := by
  obtain ⟨s,hs,v,hv,hp⟩ : ∃ s,Reach step Settled start s ∧ ∃ v∈s.view,
      v.input.lockState=.active ∧ v.locks=[⟨2,1⟩] ∧ v.relatives=[⟨3,1⟩] :=
    reach_observed [.attach true false true true,.capabilities none,.configure,.inner 1 false,.updateLock,.locked,
      .pointerLeave [],.unlocked,.pointerEnter,.locked] (meets_of_checked (fun _ _ h => h) (by decide +kernel))
      (by decide +kernel)
  exact ⟨s,v,hs,hv,hp,(pointer_lock_sound hs).1 v hv⟩

/-- The seat changes while the lock is pending: the lock was made for a pointer that has been released. -/
theorem lock_of_released_pointer : ∃ s,Reach step Free start s ∧ ∃ v∈s.view,
    v.input.lockState=.active ∧ v.input.activeLock=some ⟨2,1⟩ ∧ v.pointer=some 4 :=
  free_observed [.attach true false true true,.configure,.inner 1 false,.updateLock,
    .capabilities (some (true,true)),.locked] (by decide +kernel)

end Waymux.Session.PointerLock
