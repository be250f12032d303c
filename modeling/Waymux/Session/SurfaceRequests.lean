import Waymux.Session.Composite
import Mathlib.Data.Option.Basic

/-!
# The requests of one surface (`compositor.rs`)

`attach` and `commit` of `wl_surface`, and the explicit synchronisation that
`wp_linux_drm_syncobj_v1` adds to it.
-/

namespace Waymux.Session.SurfaceRequests
open Interleave.Runs Option

/-- `SurfaceSync`: points are numbered. -/
structure SurfaceSync where
  pendingAcquire : Option Nat
  pendingRelease : Option Nat
deriving DecidableEq

/-- `SurfaceData`, with the points that commits waited on and those they attached
to a buffer. `attached` and `applied` are not in the code: the last attach since
the last commit, and the last that a commit has applied. -/
structure Surface where
  pendingBuffer : Option Nat
  currentBuffer : Option Nat
  surfaceSync : Option SurfaceSync
  /-- the `wp_linux_drm_syncobj_surface_v1` is alive -/
  object : Bool
  waited : List Nat
  noted : List (Nat × Nat)
  attached : Option (Option Nat)
  applied : Option Nat
deriving DecidableEq

def start : Surface := ⟨none,none,none,false,[],[],none,none⟩

inductive Request
  | attach (buffer : Option Nat)
  | commit
  | getSurface
  | setAcquirePoint (point : Nat)
  | setReleasePoint (point : Nat)
  | destroySync
deriving DecidableEq

def SurfaceSync.taken : SurfaceSync := ⟨none,none⟩

/-- A release point of a commit without a buffer is dropped. -/
def releasePoints (buffer point : Option Nat) : List (Nat × Nat) :=
  match buffer,point with
  | some b,some p => [(b,p)]
  | _,_ => []

def Surface.commit (s : Surface) : Surface :=
  let pending:=s.surfaceSync.getD .taken
  {s with
    pendingBuffer := none
    currentBuffer := s.pendingBuffer <|> s.currentBuffer
    surfaceSync := s.surfaceSync.map fun _ => .taken
    waited := s.waited++pending.pendingAcquire.toList
    noted := s.noted++releasePoints s.pendingBuffer pending.pendingRelease
    attached := none
    applied := s.attached.getD s.applied}

/-- `none` is a protocol error, or a request to an object that is gone. -/
def step (s : Surface) : Request → Option Surface
  | .attach buffer => some {s with pendingBuffer := buffer,attached := some buffer}
  | .commit => some s.commit
  | .getSurface => if s.surfaceSync.isSome then none else some {s with surfaceSync := some .taken,object := true}
  | .setAcquirePoint point =>
    if s.object then some {s with surfaceSync := s.surfaceSync.map ({ · with pendingAcquire := some point})} else none
  | .setReleasePoint point =>
    if s.object then some {s with surfaceSync := s.surfaceSync.map ({ · with pendingRelease := some point})} else none
  | .destroySync => if s.object then some {s with object := false} else none

variable {s t : Surface} {a : Request} {rs : List Request}

/-- A null buffer is attached only where there is none. -/
abbrev Applied (s : Surface) (a : Request) : Prop := a=.commit → s.attached=some none → s.applied=none

structure Inv (s : Surface) : Prop where
  pending : s.pendingBuffer=s.attached.join
  current : s.currentBuffer=s.applied

theorem commit_follows (hi : Inv s) : s.commit.currentBuffer=s.commit.applied ↔ Applied s .commit := by
  obtain ⟨hp,hc⟩ := hi
  simp only [Surface.commit,Applied,hp,hc]
  rcases s.attached with _ | _ | b <;> simp

theorem inv_step (hi : Inv s) (hok : Applied s a) (h : step s a=some t) : Inv t := by
  obtain ⟨hp,hc⟩ := hi
  cases a with
  | attach =>
    cases h
    exact ⟨rfl,hc⟩
  | commit =>
    cases h
    exact ⟨rfl,(commit_follows ⟨hp,hc⟩).mpr hok⟩
  | getSurface =>
    obtain ⟨-,⟨⟩⟩ := ite_none_left_eq_some.mp h
    exact ⟨hp,hc⟩
  | _ =>
    obtain ⟨-,⟨⟩⟩ := ite_none_right_eq_some.mp h
    exact ⟨hp,hc⟩

/-- The content is that of the last attach that was applied, up to the first commit
that should take a buffer away; and a surface without one is not drawn. -/
theorem content_follows (h : Reach step Applied start s) : s.currentBuffer=s.applied ∧
    (s.commit.currentBuffer=s.commit.applied ↔ Applied s .commit) ∧
    (s.attached=none → s.commit.currentBuffer=s.currentBuffer) ∧
    ∀ t x y vp dst,Composite.draw t x y ⟨none,vp⟩ dst=some dst := by
  have hi : Inv s := h.keeps ⟨rfl,rfl⟩ inv_step
  refine ⟨hi.current,commit_follows hi,fun hn => ?_,fun _ _ _ _ _ => rfl⟩
  simp [Surface.commit,hi.pending,hn]

theorem content_follows_replaced : ∃ s,Reach step Applied start s ∧ s.currentBuffer=some 2 ∧
    s.currentBuffer=s.applied := by
  have hr : Reach step Applied start _ :=
    reach_exec [.attach (some 1),.commit,.attach none,.attach (some 2),.commit,.commit]
      (meets_decided (by decide +kernel)) (by decide +kernel)
  exact ⟨_,hr,by decide +kernel,(content_follows hr).1⟩

/-- A surface that is unmapped keeps its buffer. -/
theorem unmapped_kept : (exec step start [.attach (some 1),.commit,.attach none,.commit]).map
    (fun s => (s.currentBuffer,s.applied))=some (some 1,none) := by
  decide

/-- No point is pending, and the surface can get a new object. -/
def Clean (s : Surface) : Prop :=
  (∀ y,s.surfaceSync=some y → y=.taken) ∧ (step s .getSurface).isSome

theorem object_synced (h : Reach step Free start s) : s.object=true → s.surfaceSync.isSome=true := by
  refine h.keeps (I := fun s => s.object=true → s.surfaceSync.isSome=true) (fun h => absurd h (by decide)) ?_
  intro u v a hu _ hv
  cases a with
  | attach => cases hv; exact hu
  | commit => cases hv; simpa [Surface.commit] using hu
  | getSurface =>
    obtain ⟨-,⟨⟩⟩ := ite_none_left_eq_some.mp hv
    exact fun _ => rfl
  | destroySync =>
    obtain ⟨-,⟨⟩⟩ := ite_none_right_eq_some.mp hv
    exact fun h => absurd h Bool.false_ne_true
  | _ =>
    obtain ⟨-,⟨⟩⟩ := ite_none_right_eq_some.mp hv
    simpa using hu

/-- The slot of the surface is never emptied: only a run that destroys no object
leaves every surface clean. -/
theorem destroyed_clean_iff (h : exec step start rs=some t) :
    (∀ front back u v,rs=front++.destroySync::back → exec step start front=some u →
      step u .destroySync=some v → Clean v) ↔ .destroySync∉rs := by
  constructor
  · intro hclean hmem
    obtain ⟨front,back,rfl⟩ := List.append_of_mem hmem
    obtain ⟨u,hu,hback⟩ := exec_append h
    obtain ⟨v,hv,-⟩ := exec_cons hback
    have hget:=(hclean front back u v rfl hu hv).2
    obtain ⟨ho,⟨⟩⟩ := ite_none_right_eq_some.mp hv
    have hs:=object_synced (reach_of_exec hu) ho
    simp [step,hs] at hget
  · rintro hno front back u v rfl - -
    exact absurd (List.mem_append_right _ List.mem_cons_self) hno

theorem destroyed_clean_untouched :
    (∀ front back u v,[.getSurface,.setAcquirePoint 1,.commit]=front++.destroySync::back →
      exec step start front=some u → step u .destroySync=some v → Clean v) ↔
    Request.destroySync∉[.getSurface,.setAcquirePoint 1,.commit] :=
  destroyed_clean_iff (t := ⟨none,none,some .taken,true,[1],[],none,none⟩) rfl

/-- Points that were pending when the object was destroyed are waited on and noted
by the next commit, and a new object is refused. -/
theorem destroyed_points_stay :
    (exec step start [.getSurface,.setAcquirePoint 1,.setReleasePoint 2,.destroySync,.attach (some 7),.commit]).map
      (fun s => (s.waited,s.noted,(step s .getSurface).isSome))=some ([1],[(7,2)],false) := by
  decide

end Waymux.Session.SurfaceRequests
