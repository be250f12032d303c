import Waymux.Session.BufferRelease
import Waymux.Session.FrameLoop

/-!
# Presenting a session: commits, the outer view and the attach server

A buffer goes from its `wl_surface.commit` to the deferred releases, into an outer buffer, and back.
Every mutex section of `State` and every message to the outer compositor is a step.
-/

namespace Waymux.Session.Presentation
open BufferRelease FrameLoop

inductive BufferKind
  | shm
  | dmabuf
  | singlePixel
  | invalid
  deriving DecidableEq, Repr

def compositorThread : Nat := 0
def serverThread : Nat := 1
def viewThread : Nat := 2

/-- `SurfaceData`; of `SurfaceSync` only whether a release point was set. -/
structure Surface where
  pendingBuffer : Option Nat
  currentBuffer : Option Nat
  pendingRelease : Bool
  deriving DecidableEq, Repr

/-- Up to `tapping` it holds the surface's `current_buffer` lock; `tapping` has the buffer of
`pending_cur_release`. -/
inductive Compositor
  | idle
  | promoted (surface cur : Nat) (point : Option Nat)
  | noted (surface cur : Nat)
  | attached (surface cur : Nat)
  | tapping (surface : Nat) (release : Option Nat)
  | damaging
  deriving DecidableEq, Repr

def Compositor.locked : Compositor → Option Nat
  | .promoted x _ _ | .noted x _ | .attached x _ => some x
  | _ => none

/-- `InnerReleases` -/
inductive InnerReleases
  | direct (bufs : List Nat)
  | refcounted (holds : List Nat)
  deriving DecidableEq, Repr

/-- An outer dmabuf in flight; `freed` once the outer compositor has released it. -/
structure OuterBuffer where
  wraps : Nat
  releases : InnerReleases
  freed : Bool
  deriving DecidableEq, Repr

/-- Where a thread goes on after it has dropped holds. -/
inductive Next
  | loop
  | leave
  | gone
  deriving DecidableEq, Repr

/-- `outer_view::run` -/
inductive View
  | absent
  | starting
  | installed (announce : Bool)
  | looping
  | choosing
  | forwarding (b : Nat)
  | skipping (b : Nat) (deferred : List Nat)
  | wrapping (b : Nat) (left holds : List Nat)
  | committing (b : Nat) (deferred : List Nat)
  | pushing (holds : List Nat)
  | compositing
  | emptying
  | dropping (left : List Nat) (next : Next)
  | exiting
  | leaving
  deriving DecidableEq, Repr

/-- The attach server in a request, or behind a view that has stopped. -/
inductive Server
  | idle
  | joining (spawn : Bool)
  | unsetting
  | draining
  | announcing
  deriving DecidableEq, Repr

/-- Its buffer, its strong count, and whether the outer view made it of a deferred release. -/
structure Hold where
  buf : Nat
  refs : Nat
  wrapped : Bool
  deriving DecidableEq, Repr

/-- Was the buffer of a wrapped hold alive at its last drop and pinned by no other hold, and how much had
been sent. -/
structure Drop where
  buf : Nat
  alone : Bool
  sent : Nat
  deriving DecidableEq, Repr

structure State where
  surfaces : Nat → Surface
  compositor : Compositor
  api : Api
  recording : Bool
  lastDamage : Nat
  /-- `outer_wake_fd`; a view's fd is its number -/
  outerWake : Option Nat
  server : Server
  activeView : Bool
  stop : Bool
  views : Nat
  view : View
  loop : Loop
  inflight : List OuterBuffer
  holds : List Hold
  /-- the recorder's references -/
  recorder : List Nat
  -- observed only
  taken : Nat
  commits : List Nat
  forwarded : List Nat
  /-- committed and not released since -/
  lent : Nat → Bool
  /-- released while an outer buffer that wraps it was in flight -/
  torn : List Nat
  drops : List Drop
  occluded : List Bool

def init : State where
  surfaces _ := ⟨none,none,false⟩
  compositor := .idle
  api := BufferRelease.init
  recording := false
  lastDamage := 0
  outerWake := none
  server := .idle
  activeView := false
  stop := false
  views := 0
  view := .absent
  loop := FrameLoop.start 0 0
  inflight := []
  holds := []
  recorder := []
  taken := 0
  commits := []
  forwarded := []
  lent _ := false
  torn := []
  drops := []
  occluded := []

def State.setSurface (s : State) (x : Nat) (sf : Surface) : State :=
  {s with surfaces := Function.update s.surfaces x sf}

def State.dispatching (s : State) : Bool := s.compositor=.idle && s.api.idle compositorThread

def attach (x : Nat) (buffer : Option Nat) (s : State) : Option State :=
  if s.dispatching then some (s.setSurface x {s.surfaces x with pendingBuffer := buffer}) else none

def setReleasePoint (x : Nat) (s : State) : Option State :=
  if s.dispatching then some (s.setSurface x {s.surfaces x with pendingRelease := true}) else none

def destroyBuffer (b : Nat) (s : State) : Option State :=
  if s.dispatching then some {s with api := s.api.destroy b} else none

/- The release point of the commit, as its number among those taken. -/
def State.pendingPoint (s : State) (x : Nat) : Option Nat :=
  if (s.surfaces x).pendingRelease then some s.taken else none

def takenBy (point : Option Nat) : Nat := if point.isSome then 1 else 0

/- The previous buffer of a commit that has a new one, unless it is a dmabuf. -/
def replaced (kind : Nat → BufferKind) (sf : Surface) : List Nat :=
  match sf.currentBuffer with
  | some prev => if kind prev=.dmabuf then [] else [prev]
  | none => []

def releaseAll (api : Api) (t : Nat) (bufs : List Nat) : Api :=
  {api with jobs := api.jobs++bufs.map fun b => (t,.enter b)}

abbrev State.promote (kind : Nat → BufferKind) (s : State) (x nb : Nat) : State :=
  {s with
    surfaces := Function.update s.surfaces x ⟨none,some nb,false⟩
    api := releaseAll s.api compositorThread (replaced kind (s.surfaces x))
    compositor := .promoted x nb (s.pendingPoint x)
    taken := s.taken+takenBy (s.pendingPoint x)
    commits := s.commits++[nb]
    lent := Function.update s.lent nb true}

abbrev State.promoteNothing (s : State) (x : Nat) : State :=
  {s with
    surfaces := Function.update s.surfaces x {s.surfaces x with pendingRelease := false}
    compositor := .tapping x none
    taken := s.taken+takenBy (s.pendingPoint x)}

def commit (kind : Nat → BufferKind) (x : Nat) (s : State) : Option State :=
  if s.dispatching then
    match (s.surfaces x).pendingBuffer with
    | some nb => some (s.promote kind x nb)
    | none => some (s.promoteNothing x)
  else none

def notePoint (s : State) : Option State :=
  match s.compositor with
  | .promoted x cur point =>
      if s.api.idle compositorThread then
        some {s with
          api := match point with
            | some p => s.api.noteBufferReleasePoint cur p
            | none => s.api
          compositor := .noted x cur}
      else none
  | _ => none

/- `is_dmabuf && is_attached()` -/
def checkAttached (kind : Nat → BufferKind) (s : State) : Option State :=
  match s.compositor with
  | .noted x cur =>
      some {s with
        compositor := if kind cur=.dmabuf ∧ s.outerWake.isSome then .attached x cur else .tapping x (some cur)}
  | _ => none

def queueRelease (s : State) : Option State :=
  match s.compositor with
  | .attached x cur =>
      some {s with api := s.api.queueDeferredRelease cur, compositor := .tapping x none}
  | _ => none

/- A task with the buffer is put into an encoder's slot. -/
def State.pin (s : State) (b : Nat) : State :=
  {s with
    api := s.api.registerBufferHold b
    holds := s.holds++[⟨b,1,false⟩]
    recorder := s.recorder++[s.holds.length]}

/- One encoder of `maybe_tap_for_recording` pins the surface's buffer. -/
def tap (kind : Nat → BufferKind) (s : State) : Option State :=
  match s.compositor with
  | .tapping x _ =>
      match (s.surfaces x).currentBuffer with
      | some b => if kind b=.dmabuf then some (s.pin b) else none
      | none => none
  | _ => none

/- The same in `prime_recording_first_frame`, on a control connection's thread. -/
def prime (kind : Nat → BufferKind) (x : Nat) (s : State) : Option State :=
  match (s.surfaces x).currentBuffer with
  | some b => if kind b=.dmabuf ∧ s.compositor.locked≠some x then some (s.pin b) else none
  | none => none

def endTap (s : State) : Option State :=
  match s.compositor with
  | .tapping _ release =>
      some {s with api := releaseAll s.api compositorThread release.toList, compositor := .damaging}
  | _ => none

/- `record_damage` -/
def recordDamage (now : Nat) (s : State) : Option State :=
  if s.compositor=.damaging ∧ s.api.idle compositorThread then
    some {s with lastDamage := now, compositor := .idle}
  else none

/- A reference is dropped by thread `t`, the last one with the hold. -/
def State.unref (s : State) (t h : Nat) : State :=
  match s.holds[h]? with
  | some hold =>
      if hold.refs≤1 then
        {s with
          holds := s.holds.set h {hold with refs := 0}
          api := s.api.dropBufferHold t hold.buf
          drops := s.drops++if hold.wrapped then
            [⟨hold.buf,s.api.alive hold.buf && s.api.pinned.count hold.buf=1,s.api.log.length⟩] else []}
      else {s with holds := s.holds.set h {hold with refs := hold.refs-1}}
  | none => s

/- A task leaves the recorder's slot or has been encoded. -/
def recorderDrop (t h : Nat) (s : State) : Option State :=
  if viewThread<t ∧ s.api.idle t ∧ h∈s.recorder then
    some ({s with recorder := s.recorder.erase h}.unref t h)
  else none

def State.serving (s : State) : Bool := s.server=.idle && s.api.idle serverThread

/- `GetSurface` and `Detach` take the active view and stop it. -/
def request (spawn : Bool) (s : State) : Option State :=
  if s.serving then
    some {s with activeView := false, stop := s.stop || s.activeView, server := .joining spawn}
  else none

/- The active view has stopped by itself. -/
def sweep (s : State) : Option State :=
  if s.serving ∧ s.activeView ∧ s.stop then
    some {s with activeView := false, server := .joining false}
  else none

def join (s : State) : Option State :=
  match s.server, s.view with
  | .joining true, .absent =>
      some {s with server := .idle, activeView := true, stop := false, views := s.views+1, view := .starting}
  | .joining false, .absent => some {s with server := .unsetting}
  | _, _ => none

/- `set_outer_wake_fd(None)`: the swap, the flush and the event. -/
def unset (s : State) : Option State :=
  match s.server with
  | .unsetting => some {s with outerWake := none, server := if s.outerWake.isSome then .draining else .idle}
  | _ => none

def drain (s : State) : Option State :=
  match s.server with
  | .draining => some {s with api := s.api.flushPendingReleases serverThread, server := .announcing}
  | _ => none

def announceGone (s : State) : Option State :=
  if s.server=.announcing ∧ s.api.idle serverThread then
    some {s with occluded := s.occluded++[true], server := .idle}
  else none

/- An error before the wake fd is installed. -/
def fail (s : State) : Option State :=
  match s.view with
  | .starting => some {s with view := .absent}
  | _ => none

/- `set_outer_wake_fd(Some(..))`: the swap and the event. -/
def install (w h : Nat) (s : State) : Option State :=
  match s.view with
  | .starting =>
      some {s with
        outerWake := some s.views
        loop := FrameLoop.start w h
        view := .installed s.outerWake.isNone}
  | _ => none

def announce (s : State) : Option State :=
  match s.view with
  | .installed new =>
      some {s with occluded := s.occluded++(if new then [false] else []), view := .looping}
  | _ => none

/-- The view thread can take its next step at this place. -/
def State.viewAt (s : State) (v : View) : Bool := s.view=v && s.api.idle viewThread

/- An event for the loop, or its look at the damage. -/
def loopEvent (a : FrameLoop.Act) (s : State) : Option State :=
  if s.viewAt .looping then (FrameLoop.step s.loop a).map fun l => {s with loop := l} else none

def close (s : State) : Option State :=
  if s.viewAt .looping then some {s with stop := true} else none

/- The outer compositor is done with an outer buffer. -/
def freeOuter (k : Nat) (s : State) : Option State :=
  match s.inflight[k]? with
  | some o => some {s with inflight := s.inflight.set k {o with freed := true}}
  | none => none

def resumed : View → Next
  | .leaving => .leave
  | _ => .loop

/- Its release event, dispatched by the loop or by the last roundtrip. -/
def outerReleased (k : Nat) (s : State) : Option State :=
  match s.inflight[k]? with
  | some o =>
      if o.freed ∧ (s.viewAt .looping ∨ s.viewAt .leaving) then
        match o.releases with
        | .direct bufs =>
            some {s with api := releaseAll s.api viewThread bufs, inflight := s.inflight.eraseIdx k}
        | .refcounted holds =>
            some {s with view := .dropping holds (resumed s.view), inflight := s.inflight.eraseIdx k}
      else none
  | none => none

/- `if should_commit`; without damage the pending releases are flushed. -/
def begin (s : State) : Option State :=
  if s.viewAt .looping then
    (FrameLoop.step s.loop .begin).map fun l =>
      {s with
        loop := l
        api := if l.committing then s.api else s.api.flushPendingReleases viewThread
        view := if l.committing then .choosing else .looping}
  else none

/- `clone_focused_dmabuf` finds the buffer of surface `x`. -/
def cloneDmabuf (kind : Nat → BufferKind) (x : Nat) (s : State) : Option State :=
  match s.view, (s.surfaces x).currentBuffer with
  | .choosing, some b =>
      if kind b=.dmabuf ∧ s.compositor.locked≠some x then some {s with view := .forwarding b} else none
  | _, _ => none

def split (s : State) : Option State :=
  match s.view with
  | .forwarding b =>
      some {s with
        api := s.api.takePendingReleasesSplit viewThread b
        view := .skipping b (s.api.pending.filter (·=b))}
  | _ => none

/- `is_recording` once the skipped buffers are released. -/
def decideRecording (s : State) : Option State :=
  match s.view with
  | .skipping b deferred =>
      if s.api.idle viewThread then
        some {s with view := if s.recording then .wrapping b deferred [] else .committing b deferred}
      else none
  | _ => none

/- `InnerBufferHold::new`, for the outer compositor and for the recorder. -/
def wrap (s : State) : Option State :=
  match s.view with
  | .wrapping b (d::left) holds =>
      some {s with
        api := s.api.registerBufferHold d
        holds := s.holds++[⟨d,2,true⟩]
        view := .wrapping b left (holds++[s.holds.length])}
  | _ => none

def State.commitOuter (s : State) (b : Nat) (releases : InnerReleases) (holds : List Nat) (w h : Nat)
    (allocated : Bool) : State :=
  {s with
    inflight := s.inflight++[⟨b,releases,false⟩]
    loop := s.loop.forward w h allocated
    forwarded := s.forwarded++[b]
    view := .pushing holds}

def outerCommit (w h : Nat) (allocated : Bool) (s : State) : Option State :=
  match s.view with
  | .wrapping b [] holds => some (s.commitOuter b (.refcounted holds) holds w h allocated)
  | .committing b deferred => some (s.commitOuter b (.direct deferred) [] w h allocated)
  | _ => none

/- `try_push_recording_dmabuf`, with a second encoder or not. -/
def push (second : Bool) (s : State) : Option State :=
  match s.view with
  | .pushing holds =>
      some {s with
        holds := if second then
          holds.foldl (fun hs h => hs.modify h fun hold => {hold with refs := hold.refs+1}) s.holds
        else s.holds
        recorder := s.recorder++holds++if second then holds else []
        view := .looping}
  | _ => none

/- The shm path: a window without a dmabuf. -/
def window (s : State) : Option State :=
  match s.view with
  | .choosing => some {s with api := s.api.flushPendingReleases viewThread, view := .compositing}
  | _ => none

def composite (w h : Nat) (allocated composited : Bool) (s : State) : Option State :=
  if s.viewAt .compositing then
    some {s with loop := s.loop.composite w h allocated composited, view := .looping}
  else none

def noWindow (s : State) : Option State :=
  match s.view with
  | .choosing =>
      if s.loop.sessionEmpty then some {s with loop := s.loop.empty, view := .looping}
      else some {s with api := s.api.flushPendingReleases viewThread, view := .emptying}
  | _ => none

def placeholder (s : State) : Option State :=
  if s.viewAt .emptying then some {s with loop := s.loop.empty, view := .looping} else none

def Next.view : Next → View
  | .loop => .looping
  | .leave => .leaving
  | .gone => .absent

def dropNext (s : State) : Option State :=
  match s.view with
  | .dropping (h::left) next =>
      if s.api.idle viewThread then some ({s with view := .dropping left next}.unref viewThread h) else none
  | .dropping [] next => if s.api.idle viewThread then some {s with view := next.view} else none
  | _ => none

/- The loop is left because of `stop` or a broken connection. -/
def leave (s : State) : Option State :=
  if s.viewAt .looping then some {s with view := .exiting} else none

/- `clear_outer_wake_fd_if_mine` -/
def clear (s : State) : Option State :=
  match s.view with
  | .exiting =>
      some {s with outerWake := if s.outerWake=some s.views then none else s.outerWake, view := .leaving}
  | _ => none

def InnerReleases.directs : InnerReleases → List Nat
  | .direct bufs => bufs
  | .refcounted _ => []

def InnerReleases.held : InnerReleases → List Nat
  | .direct _ => []
  | .refcounted holds => holds

/- The queue goes with the outer buffers in flight: their holds are dropped. -/
def State.tearDown (s : State) : State :=
  {s with view := .dropping (s.inflight.flatMap (·.releases.held)) .gone, inflight := []}

def finish (s : State) : Option State := if s.viewAt .leaving then some s.tearDown else none

/- The thread unwinds out of its loop. -/
def panicked (s : State) : Option State := if s.viewAt .looping then some s.tearDown else none

def wrappedInFlight (os : List OuterBuffer) (b : Nat) : Bool := os.any fun o => o.wraps=b && !o.freed

/- Whom a step of a release gives its buffer back to. -/
def released (api : Api) : Job → Option Nat
  | .send b _ => if api.alive b then some b else none
  | _ => none

abbrev State.afterJob (s : State) (j : Job) (api : Api) : State :=
  {s with
    api := api
    lent := match released s.api j with
      | some b => Function.update s.lent b false
      | none => s.lent
    torn := s.torn++(released s.api j).toList.filter (wrappedInFlight s.inflight)}

def runRelease (i : Nat) (s : State) : Option State :=
  match s.api.jobs[i]? with
  | some (_,j) => (s.api.runJob i).map (s.afterJob j)
  | none => none

inductive Act
  | attach (x : Nat) (buffer : Option Nat)
  | setReleasePoint (x : Nat)
  | destroyBuffer (b : Nat)
  | commit (x : Nat)
  | notePoint
  | checkAttached
  | queueRelease
  | tap
  | prime (x : Nat)
  | endTap
  | recordDamage (now : Nat)
  | setRecording (on : Bool)
  | recorderDrop (t h : Nat)
  | request (spawn : Bool)
  | sweep
  | join
  | unset
  | drain
  | announceGone
  | fail
  | install (w h : Nat)
  | announce
  | frameDone (cb : Nat)
  | slotReleased (i : Fin 2)
  | observe
  | close
  | freeOuter (k : Nat)
  | outerReleased (k : Nat)
  | begin
  | cloneDmabuf (x : Nat)
  | split
  | decideRecording
  | wrap
  | outerCommit (w h : Nat) (allocated : Bool)
  | push (second : Bool)
  | window
  | composite (w h : Nat) (allocated composited : Bool)
  | noWindow
  | placeholder
  | dropNext
  | leave
  | clear
  | finish
  | panicked
  | job (i : Nat)

def step (kind : Nat → BufferKind) (s : State) : Act → Option State
  | .attach x buffer => attach x buffer s
  | .setReleasePoint x => setReleasePoint x s
  | .destroyBuffer b => destroyBuffer b s
  | .commit x => commit kind x s
  | .notePoint => notePoint s
  | .checkAttached => checkAttached kind s
  | .queueRelease => queueRelease s
  | .tap => tap kind s
  | .prime x => prime kind x s
  | .endTap => endTap s
  | .recordDamage now => recordDamage now s
  | .setRecording on => some {s with recording := on}
  | .recorderDrop t h => recorderDrop t h s
  | .request spawn => request spawn s
  | .sweep => sweep s
  | .join => join s
  | .unset => unset s
  | .drain => drain s
  | .announceGone => announceGone s
  | .fail => fail s
  | .install w h => install w h s
  | .announce => announce s
  | .frameDone cb => loopEvent (.done cb) s
  | .slotReleased i => loopEvent (.slotReleased i) s
  | .observe => loopEvent (.observe s.lastDamage) s
  | .close => close s
  | .freeOuter k => freeOuter k s
  | .outerReleased k => outerReleased k s
  | .begin => begin s
  | .cloneDmabuf x => cloneDmabuf kind x s
  | .split => split s
  | .decideRecording => decideRecording s
  | .wrap => wrap s
  | .outerCommit w h allocated => outerCommit w h allocated s
  | .push second => push second s
  | .window => window s
  | .composite w h allocated composited => composite w h allocated composited s
  | .noWindow => noWindow s
  | .placeholder => placeholder s
  | .dropNext => dropNext s
  | .leave => leave s
  | .clear => clear s
  | .finish => finish s
  | .panicked => panicked s
  | .job i => runRelease i s

end Waymux.Session.Presentation
