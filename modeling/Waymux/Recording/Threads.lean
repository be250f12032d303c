import Waymux.Interleave.Runs
import Waymux.Recording.Confinement

/-!
# Recording threads and their slot

A request works on a slot behind a lock; the slot is not told when a thread (`recording.rs`,
`viewer/encoder.rs`) ends.
-/

namespace Waymux.Recording.Threads
open Paths.Components Confinement Option
open Server.Messages (RecordingCodec)

/-- `waiting` and `taking` are the halves of the loop that waits for the first frame. From `created` to
`finishing` the output is open. -/
inductive Phase
  | waiting
  | taking
  | starting
  | created
  | looping
  | finishing
  | returned
deriving DecidableEq

structure Thread where
  path : Path
  codec : RecordingCodec
  stop : Bool
  phase : Phase
deriving DecidableEq

def Thread.isOpen (x : Thread) : Bool := x.phase=.created || x.phase=.looping || x.phase=.finishing

def Thread.isLive (x : Thread) : Bool := x.phase≠.returned

inductive Event
  /-- the stop flag and the deadline of the first frame -/
  | check (late : Bool)
  /-- the slot was waited for, with a usable frame or without -/
  | frame (usable : Bool)
  /-- the first frame was encoded already -/
  | encodedFrame
  /-- the encoder, the output or ffmpeg cannot be had -/
  | startFails
  | creates
  /-- no header, or the writer ended before the first frame -/
  | headerFails
  | begins
  | stopSeen
  | sizeChange
  | writeError
  | writerExit
  | closes
deriving DecidableEq

/-- Codecs that cannot use a frame encoded elsewhere. -/
def refusesEncoded : RecordingCodec → Bool
  | .ffv1Vulkan | .h264VulkanLossless | .hevcVulkanLossless => true
  | _ => false

/-- Codecs whose loop ends with a failed write. -/
def endsOnWriteError : RecordingCodec → Bool
  | .h264Vulkan | .h264VulkanLossless => true
  | _ => false

def Thread.next (x : Thread) : Event → Option Phase
  | .check late => if x.phase=.waiting then some (if x.stop || late then .returned else .taking) else none
  | .frame usable => if x.phase=.taking then some (if usable then .starting else .waiting) else none
  | .encodedFrame => if x.phase=.taking && refusesEncoded x.codec then some .returned else none
  | .startFails => if x.phase=.starting then some .returned else none
  | .creates => if x.phase=.starting then some .created else none
  | .headerFails => if x.phase=.created then some .returned else none
  | .begins => if x.phase=.created then some .looping else none
  | .stopSeen => if x.phase=.looping && x.stop then some .finishing else none
  | .sizeChange => if x.phase=.looping && runsFfmpeg x.codec then some .finishing else none
  | .writerExit => if x.phase=.looping && runsFfmpeg x.codec then some .finishing else none
  | .writeError => if x.phase=.looping && endsOnWriteError x.codec then some .finishing else none
  | .closes => if x.phase=.finishing then some .returned else none

/-- The thread goes, and nobody has told it to. -/
def Event.isOwnExit : Event → Bool
  | .check late => late
  | .encodedFrame | .startFails | .headerFails | .sizeChange | .writeError | .writerExit => true
  | .frame _ | .creates | .begins | .stopSeen | .closes => false

/-- The control reader runs beside a thread that streams. -/
inductive ViewerPhase
  | preparing
  | streaming
  | ending
  | returned
deriving DecidableEq

structure ViewerThread where
  stop : Bool
  reader : Bool
  phase : ViewerPhase
deriving DecidableEq

inductive ViewerEvent
  /-- first frame, encoder and socket are there; the reader is started -/
  | ready
  /-- no encoder or socket, a failed write, another resolution -/
  | fails
  | stopSeen
  | closes
deriving DecidableEq

def ViewerThread.next (x : ViewerThread) : ViewerEvent → Option ViewerThread
  | .ready => if x.phase=.preparing then some {x with phase := .streaming, reader := true} else none
  | .fails =>
    if x.phase=.preparing then some {x with phase := .returned}
    else if x.phase=.streaming then some {x with phase := .ending}
    else none
  | .stopSeen =>
    if x.stop && x.phase=.preparing then some {x with phase := .returned}
    else if x.stop && x.phase=.streaming then some {x with phase := .ending}
    else none
  | .closes => if x.phase=.ending then some {x with phase := .returned} else none

/-- `DualRecordingHandle`, by the numbers of its threads -/
structure Dual where
  primary : Nat
  secondary : Option Nat
deriving DecidableEq

/-- A `RecordStart` that has one thread and is about to start the other; it holds
the lock of the slot. -/
structure Starting where
  primary : Nat
  path : Path
  codec : RecordingCodec
deriving DecidableEq

structure ViewerHandle where
  url : String
  thread : Nat
deriving DecidableEq

/-- All threads in the order of their start. `stopping` are those whose handle was taken and whose flag is
about to be set. `refused` is not in the code: the thread of each `RecordStart` that failed. -/
structure State where
  seconds : Nat
  threads : List Thread
  recording : Option Dual
  starting : Option Starting
  stopping : List Nat
  refused : List (Option Nat)
  viewers : List ViewerThread
  viewer : Option ViewerHandle
deriving DecidableEq

def start : State := ⟨0,[],none,none,[],[],[],none⟩

structure Config where
  home : Path
  name : List Char

/-- Whether the probes pass, a thread can be spawned and the bridge comes up is part of the label. -/
inductive Act
  | second
  | recordStart (path : Option Path) (codec : RecordingCodec) (secondary : Option RecordingCodec)
      (probed spawned : Bool)
  | spawnSecondary (spawned : Bool)
  | recordStop
  | shutdownRecording
  | setStop (thread : Nat)
  | thread (thread : Nat) (event : Event)
  | viewerStart (url : String) (spawned : Bool)
  | viewerStop
  | shutdownViewer
  | viewerThread (thread : Nat) (event : ViewerEvent)
  | bridgeEnds (thread : Nat)
deriving DecidableEq

variable (cfg : Config)

def primaryPath (s : State) (path : Option Path) : Path :=
  path.getD (defaultRecordingPath cfg.home cfg.name s.seconds)

def accepted (s : State) (path : Option Path) (secondary : Option RecordingCodec) : Bool :=
  validatePaths (.ok (recordingsDir cfg.home)) (primaryPath cfg s path) secondary=.ok ()

def State.refuse (s : State) (started : Option Nat) : State := {s with refused := s.refused++[started]}

def State.spawn (s : State) (path : Path) (codec : RecordingCodec) : State :=
  {s with threads := s.threads++[⟨path,codec,false,.waiting⟩]}

def State.tellStop (s : State) (i : Nat) : State :=
  {s with threads := s.threads.modify i fun x => {x with stop := true}}

def recordStart (s : State) (path : Option Path) (codec : RecordingCodec) (secondary : Option RecordingCodec)
    (probed spawned : Bool) : Option State :=
  if !(probed && accepted cfg s path secondary) then some (s.refuse none)
  else if s.starting.isSome then none
  else if s.recording.isSome || !spawned then some (s.refuse none)
  else
    match secondary with
    | none =>
      some {s.spawn (primaryPath cfg s path) codec with recording := some ⟨s.threads.length,none⟩}
    | some sc =>
      some {s.spawn (primaryPath cfg s path) codec with
        starting := some ⟨s.threads.length,secondaryPath (primaryPath cfg s path),sc⟩}

def spawnSecondary (s : State) (st : Starting) (spawned : Bool) : State :=
  if spawned then
    {s.spawn st.path st.codec with
      recording := some ⟨st.primary,some s.threads.length⟩
      starting := none}
  else State.refuse {s.tellStop st.primary with starting := none} (some st.primary)

def takeRecording (s : State) : State :=
  match s.recording with
  | none => s
  | some d => {s with recording := none, stopping := s.stopping++d.primary::d.secondary.toList}

def takeViewer (s : State) : State :=
  match s.viewer with
  | none => s
  | some h => {s with viewer := none, viewers := s.viewers.modify h.thread fun x => {x with stop := true}}

def viewerStart (s : State) (url : String) (spawned : Bool) : State :=
  if s.viewer.isSome || !spawned then s
  else
    {s with
      viewers := s.viewers++[⟨false,false,.preparing⟩]
      viewer := some ⟨url,s.viewers.length⟩}

def step (s : State) : Act → Option State
  | .second => some {s with seconds := s.seconds+1}
  | .recordStart path codec secondary probed spawned => recordStart cfg s path codec secondary probed spawned
  | .spawnSecondary spawned => s.starting.map fun st => spawnSecondary s st spawned
  | .recordStop | .shutdownRecording => if s.starting.isSome then none else some (takeRecording s)
  | .setStop i => if i∈s.stopping then some {s.tellStop i with stopping := s.stopping.erase i} else none
  | .thread i e =>
    (s.threads[i]?.bind (·.next e)).map fun p =>
      {s with threads := s.threads.modify i fun x => {x with phase := p}}
  | .viewerStart url spawned => some (viewerStart s url spawned)
  | .viewerStop | .shutdownViewer => some (takeViewer s)
  | .viewerThread i e => (s.viewers[i]?.bind (·.next e)).map fun x => {s with viewers := s.viewers.set i x}
  | .bridgeEnds i =>
    if (s.viewers[i]?.any (·.reader)) then
      some {s with viewers := s.viewers.modify i fun x => {x with stop := true, reader := false}}
    else none

structure RecordStatus where
  recording : Bool
  path : Option Path
  secondaryPath : Option Path
  codec : Option RecordingCodec
deriving DecidableEq

/-- The handle knows the path and the codec it was started with. -/
def recordStatus (s : State) : RecordStatus :=
  match s.recording with
  | none => ⟨false,none,none,none⟩
  | some d =>
    ⟨true,s.threads[d.primary]?.map (·.path),(d.secondary.bind (s.threads[·]?)).map (·.path),
      s.threads[d.primary]?.map (·.codec)⟩

def viewerStatus (s : State) : Option String := s.viewer.map (·.url)

variable {cfg} {s t : State}

inductive StartCase (s : State) (path : Path) (codec : RecordingCodec) (secondary : Option RecordingCodec) :
    State → Prop
  | refused : StartCase s path codec secondary (s.refuse none)
  | alone : s.starting=none → s.recording=none → secondary=none →
      StartCase s path codec secondary {s.spawn path codec with recording := some ⟨s.threads.length,none⟩}
  | first (sc : RecordingCodec) : s.starting=none → s.recording=none → secondary=some sc →
      StartCase s path codec secondary
        {s.spawn path codec with starting := some ⟨s.threads.length,secondaryPath path,sc⟩}

theorem recordStart_cases {path : Option Path} {codec : RecordingCodec} {secondary : Option RecordingCodec}
    {probed spawned : Bool} (h : recordStart cfg s path codec secondary probed spawned=some t) :
    StartCase s (primaryPath cfg s path) codec secondary t := by
  unfold recordStart at h
  split at h
  · cases h
    exact .refused
  split at h
  · cases h
  rename_i hlock
  have hlock : s.starting=none := by simpa using hlock
  split at h
  · cases h
    exact .refused
  rename_i hslot
  have hslot : s.recording=none := by
    simp only [Bool.or_eq_true,not_or,not_isSome_iff_eq_none] at hslot
    exact hslot.1
  split at h
  · cases h
    exact .alone hlock hslot rfl
  · cases h
    exact .first _ hlock hslot rfl

theorem recordStart_accepted {path : Option Path} {codec : RecordingCodec} {secondary : Option RecordingCodec}
    {probed spawned : Bool} (h : recordStart cfg s path codec secondary probed spawned=some t)
    (hne : t≠s.refuse none) : accepted cfg s path secondary=true := by
  by_contra hacc
  refine hne ?_
  have hrefused : recordStart cfg s path codec secondary probed spawned=some (s.refuse none) := by
    simp [recordStart,hacc]
  exact Option.some.inj (h.symm.trans hrefused)

structure SameRecordings (s t : State) : Prop where
  threads : t.threads=s.threads
  recording : t.recording=s.recording
  starting : t.starting=s.starting
  stopping : t.stopping=s.stopping
  refused : t.refused=s.refused

theorem viewerStart_same (s : State) (url : String) (spawned : Bool) :
    SameRecordings s (viewerStart s url spawned) := by
  unfold viewerStart
  split <;> exact ⟨rfl,rfl,rfl,rfl,rfl⟩

theorem takeViewer_same (s : State) : SameRecordings s (takeViewer s) := by
  unfold takeViewer
  split <;> exact ⟨rfl,rfl,rfl,rfl,rfl⟩

/-- What a step does to the recordings. The clock and the viewers do nothing to
them. -/
inductive Turn (cfg : Config) (s : State) : Act → State → Prop
  | recordStart {path : Option Path} {codec : RecordingCodec} {secondary : Option RecordingCodec}
      {probed spawned : Bool} {t : State} : recordStart cfg s path codec secondary probed spawned=some t →
      Turn cfg s (.recordStart path codec secondary probed spawned) t
  | spawnSecondary (st : Starting) (spawned : Bool) : s.starting=some st →
      Turn cfg s (.spawnSecondary spawned) (spawnSecondary s st spawned)
  | taken {a : Act} : s.starting=none → Turn cfg s a (takeRecording s)
  | told (i : Nat) : i∈s.stopping → Turn cfg s (.setStop i) {s.tellStop i with stopping := s.stopping.erase i}
  | moved (i : Nat) (e : Event) (p : Phase) : s.threads[i]?.bind (·.next e)=some p →
      Turn cfg s (.thread i e) {s with threads := s.threads.modify i fun x => {x with phase := p}}
  | elsewhere {a : Act} {t : State} : SameRecordings s t → Turn cfg s a t

theorem step_turn {a : Act} (h : step cfg s a=some t) : Turn cfg s a t := by
  cases a with
  | recordStart => exact .recordStart h
  | spawnSecondary spawned =>
    obtain ⟨st,hst,rfl⟩ := map_eq_some_iff.mp h
    exact .spawnSecondary st spawned hst
  | setStop i =>
    obtain ⟨hi,⟨⟩⟩ := ite_none_right_eq_some.mp h
    exact .told i hi
  | thread i e =>
    obtain ⟨p,hp,rfl⟩ := map_eq_some_iff.mp h
    exact .moved i e p hp
  | second =>
    cases h
    exact .elsewhere ⟨rfl,rfl,rfl,rfl,rfl⟩
  | viewerStart url spawned =>
    cases h
    exact .elsewhere (viewerStart_same s url spawned)
  | viewerStop | shutdownViewer =>
    cases h
    exact .elsewhere (takeViewer_same s)
  | viewerThread =>
    obtain ⟨x,-,rfl⟩ := map_eq_some_iff.mp h
    exact .elsewhere ⟨rfl,rfl,rfl,rfl,rfl⟩
  | bridgeEnds =>
    obtain ⟨-,⟨⟩⟩ := ite_none_right_eq_some.mp h
    exact .elsewhere ⟨rfl,rfl,rfl,rfl,rfl⟩
  | _ =>
    obtain ⟨hlock,⟨⟩⟩ := ite_none_left_eq_some.mp h
    exact .taken (by simpa using hlock)

end Waymux.Recording.Threads
