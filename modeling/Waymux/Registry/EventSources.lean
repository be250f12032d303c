import Waymux.Registry.Schedules
import Waymux.Server.Messages

/-!
# Where forwarded events come from

`accept_and_forward_events` reads frames off whatever connects to the events socket, in the directory
that the clients get as XDG_RUNTIME_DIR. Nothing is assumed about what `rmp_serde` reads.
-/

namespace Waymux.Registry.EventSources
open HostResources StepCases TaskFrames Incarnations Option List Function
open TaskState hiding Event
open Framing.LengthPrefix Wire.FrameCodec Schedules Interleave.Runs
open Server.Messages (Event EventBody)

def session : EventBody → String
  | .sessionCreated name | .sessionDestroyed name _ | .childExited name _ _ | .sessionCrashed name _ _
  | .occluded name _ | .windowCreated name _ _ _ _ | .windowDestroyed name _ | .windowChanged name _ _
  | .damage name _ _ | .log name _ _ => name

/-- Whose socket it was made to, the bytes not read yet, and whether the other end is closed. -/
structure Peer where
  socket : Inc
  unread : Bytes
  hungUp : Bool
  deriving DecidableEq, Repr

/- `check` is the lookup that decides whether the task goes on. -/
inductive FwdPc
  | idle
  | accept
  | reading (k : Nat)
  | check
  | ended
  deriving DecidableEq, Repr

/-- Whose forwarder, the event, and whether its session had left the registry by then. -/
structure Broadcast where
  source : Inc
  event : Event
  gone : Bool
  deriving DecidableEq, Repr

structure State where
  daemon : Daemon
  fwd : Inc → FwdPc
  backlog : Inc → List Nat
  peers : Nat → Option Peer
  sent : List Broadcast

def init (metering : Bool) : State :=
  ⟨TaskSteps.init metering,fun _ => .idle,fun _ => [],fun _ => none,[]⟩

/- The listener is bound by the create call, and closed when the call fails or the task returns. -/
def listening (s : State) (i : Inc) : Bool :=
  match s.fwd i with
  | .idle => working (s.daemon.creates i).pc
  | .ended => false
  | _ => true

/- Whose socket the path `events.sock` of the session directory leads to. -/
def bound (s : State) (n : Name) : Option Inc :=
  (s.daemon.dirs n).visible.bind fun l => l.files .events

inductive Act
  | daemon (a : TaskSteps.Act)
  | connect (k : Nat) (i : Inc)
  | write (k : Nat) (bytes : Bytes)
  | hangUp (k : Nat)
  | accept (i : Inc)
  | acceptFails (i : Inc)
  | read (i : Inc)
  | check (i : Inc)
  deriving DecidableEq, Repr

def fwdAt (s : State) (i : Inc) (pc : FwdPc) : State := {s with fwd := Function.update s.fwd i pc}
def peerAt (s : State) (k : Nat) (p : Peer) : State := {s with peers := Function.update s.peers k (some p)}

/- The task starts right before the second locked section of create. -/
def advance (s : State) (d : Daemon) : State :=
  {s with
    daemon := d
    fwd := fun i => if s.fwd i=.idle ∧ (d.creates i).pc=.insert then .accept else s.fwd i}

/- One pass of the inner loop: a frame, or the end of the connection. -/
def readFrame (mp : Msgpack Event) (s : State) (i : Inc) (k : Nat) (p : Peer) : Option State :=
  match scan maxFrameSize p.unread with
  | .tooLong _ => some (fwdAt s i .check)
  | .short => if p.hungUp then some (fwdAt s i .check) else none
  | .whole f rest =>
      match decodeFrame mp f with
      | .error _ => some (fwdAt s i .check)
      | .ok e => some {peerAt s k {p with unread := rest} with
          sent := s.sent++[⟨i,e,(s.daemon.removed i).isSome⟩]}

def step (mp : Msgpack Event) (s : State) : Act → Option State
  | .daemon a => (TaskSteps.step s.daemon a).map (advance s)
  | .connect k i =>
      if s.peers k=none ∧ listening s i=true ∧ bound s (nameOf s.daemon i)=some i then
        some {peerAt s k ⟨i,[],false⟩ with backlog := Function.update s.backlog i (s.backlog i++[k])}
      else none
  | .write k bytes =>
      match s.peers k with
      | some p => if p.hungUp then none else some (peerAt s k {p with unread := p.unread++bytes})
      | none => none
  | .hangUp k => (s.peers k).map fun p => peerAt s k {p with hungUp := true}
  | .accept i =>
      match s.fwd i, s.backlog i with
      | .accept, k::rest =>
          some {fwdAt s i (.reading k) with backlog := Function.update s.backlog i rest}
      | _, _ => none
  | .acceptFails i => if s.fwd i=.accept then some (fwdAt s i .check) else none
  | .read i =>
      match s.fwd i with
      | .reading k => (s.peers k).bind (readFrame mp s i k)
      | _ => none
  | .check i =>
      if s.fwd i=.check then
        some (fwdAt s i (if (s.daemon.sessions (nameOf s.daemon i)).isSome then .accept else .ended))
      else none

variable {mp : Msgpack Event} {s t : State} {b : Act} {m : Bool}

/-- Every forwarded event names the session of its socket and was sent while
that session had not left the registry. -/
structure Provenance (s : State) : Prop where
  named : ∀ x∈s.sent,session x.event.body=nameOf s.daemon x.source
  inTime : ∀ x∈s.sent,x.gone=false

/-- The frames that stand complete in a stream decode to events of the session, if at all. -/
def OwnFrames (mp : Msgpack Event) (n : Name) (bytes : Bytes) : Prop :=
  ∀ f∈framesIn maxFrameSize bytes,∀ e,decodeFrame mp f=.ok e → session e.body=n

/-- Who writes to an events socket writes events of its session while it is registered; and when it leaves,
no frame is waiting. -/
def Trusted (mp : Msgpack Event) (s : State) : Act → Prop
  | .write k bytes => ∀ p,s.peers k=some p → s.daemon.removed p.socket=none ∧
      OwnFrames mp (nameOf s.daemon p.socket) (p.unread++bytes)
  | .daemon a => ∀ d,TaskSteps.step s.daemon a=some d → ∀ k p,s.peers k=some p →
      s.daemon.removed p.socket=none → d.removed p.socket≠none →
      framesIn maxFrameSize p.unread=[]
  | _ => True

inductive Turn (mp : Msgpack Event) (s : State) : Act → State → Prop
  | daemon (a : TaskSteps.Act) (d : Daemon) : TaskSteps.step s.daemon a=some d →
      Turn mp s (.daemon a) (advance s d)
  | connects (k : Nat) (i : Inc) : s.peers k=none → listening s i=true →
      Turn mp s (.connect k i)
        {peerAt s k ⟨i,[],false⟩ with backlog := Function.update s.backlog i (s.backlog i++[k])}
  | writes (k : Nat) (bytes : Bytes) (p : Peer) : s.peers k=some p →
      Turn mp s (.write k bytes) (peerAt s k {p with unread := p.unread++bytes})
  | hangsUp (k : Nat) (p : Peer) : s.peers k=some p →
      Turn mp s (.hangUp k) (peerAt s k {p with hungUp := true})
  | accepts (i : Inc) (k : Nat) (rest : List Nat) : s.fwd i=.accept → s.backlog i=k::rest →
      Turn mp s (.accept i) {fwdAt s i (.reading k) with backlog := Function.update s.backlog i rest}
  | moves {b : Act} (i : Inc) (pc : FwdPc) : s.fwd i≠.idle → (∀ k,pc≠.reading k) →
      Turn mp s b (fwdAt s i pc)
  | forwards (i : Inc) (k : Nat) (p : Peer) (f rest : Bytes) (e : Event) : s.fwd i=.reading k →
      s.peers k=some p → scan maxFrameSize p.unread=.whole f rest → decodeFrame mp f=.ok e →
      Turn mp s (.read i) {peerAt s k {p with unread := rest} with
        sent := s.sent++[⟨i,e,(s.daemon.removed i).isSome⟩]}

variable {i : Inc} {k : Nat} {p q : Peer}

theorem readFrame_turn (hf : s.fwd i=.reading k) (hp : s.peers k=some p) (h : readFrame mp s i k p=some t) :
    Turn mp s (.read i) t := by
  have closes : Turn mp s (.read i) (fwdAt s i .check) := .moves i .check (by simp [hf]) (by simp)
  unfold readFrame at h
  split at h
  case h_1 => cases h; exact closes
  case h_2 =>
    obtain ⟨_,ht⟩ := ite_none_right_eq_some.mp h
    cases ht
    exact closes
  case h_3 f rest hs =>
    split at h
    case h_1 => cases h; exact closes
    case h_2 e he => cases h; exact .forwards i k p f rest e hf hp hs he

theorem step_turn (h : step mp s b=some t) : Turn mp s b t := by
  cases b with
  | daemon a =>
    obtain ⟨d,hd,rfl⟩ := map_eq_some_iff.mp h
    exact .daemon a d hd
  | connect k i =>
    obtain ⟨⟨hp,hl,_⟩,⟨⟩⟩ := ite_none_right_eq_some.mp h
    exact .connects k i hp hl
  | write k bytes =>
    simp only [step] at h
    repeat' split at h
    all_goals cases h
    exact .writes k bytes _ ‹_›
  | hangUp k =>
    obtain ⟨p,hp,rfl⟩ := map_eq_some_iff.mp h
    exact .hangsUp k p hp
  | accept i =>
    simp only [step] at h
    split at h <;> cases h
    exact .accepts i _ _ ‹_› ‹_›
  | acceptFails i =>
    obtain ⟨hf,⟨⟩⟩ := ite_none_right_eq_some.mp h
    exact .moves i .check (by simp [hf]) (by simp)
  | read i =>
    simp only [step] at h
    split at h
    case h_1 k hf =>
      obtain ⟨p,hp,ht⟩ := bind_eq_some_iff.mp h
      exact readFrame_turn hf hp ht
    case h_2 => cases h
  | check i =>
    obtain ⟨hf,⟨⟩⟩ := ite_none_right_eq_some.mp h
    exact .moves i _ (by simp [hf]) (by split <;> simp)

def Begun (s : State) (i : Inc) : Prop := (s.daemon.creates i).pc≠.idle

structure Placed (s : State) : Prop where
  task : ∀ i,s.fwd i≠.idle → Begun s i
  peer : ∀ k p,s.peers k=some p → Begun s p.socket
  queued : ∀ i,∀ k∈s.backlog i,∃ p,s.peers k=some p ∧ p.socket=i
  reading : ∀ i k,s.fwd i=.reading k → ∃ p,s.peers k=some p ∧ p.socket=i
  source : ∀ x∈s.sent,Begun s x.source

theorem begun_step {a : TaskSteps.Act} {d d' : Daemon} (h : TaskSteps.step d a=some d')
    (hi : (d.creates i).pc≠.idle) : (d'.creates i).pc≠.idle := by
  rcases create_frame h i with hs | ⟨args,_,hpc,_⟩ | ⟨o,_,hc⟩
  · rwa [hs]
  · exact absurd hpc hi
  · rcases (create_phase hc).2 with ⟨_,hx⟩ | ⟨_,_,hx⟩ | ⟨_,hx | hx⟩ | ⟨_,hx⟩ | ⟨_,hx⟩
    · exact hx.not_idle
    · simp [hx]
    · exact hx.not_idle
    · exact hx.not_idle
    · simp [hx]
    · simp [hx]

theorem listening_begun (hp : Placed s) (h : listening s i=true) : Begun s i := by
  cases hf : s.fwd i with
  | idle =>
    intro hi
    simp [listening,hf,hi,working] at h
  | _ => exact hp.task i (by simp [hf])

/- A peer that is written to, read from or hung up keeps its socket. -/
theorem peer_kept (hk : s.peers k=some p) (hq : q.socket=p.socket) {j : Nat}
    (h : ∃ r,s.peers j=some r ∧ r.socket=i) : ∃ r,(peerAt s k q).peers j=some r ∧ r.socket=i := by
  obtain ⟨r,hr,hi⟩ := h
  by_cases hj : j=k
  · subst hj
    cases hk.symm.trans hr
    exact ⟨q,update_self ..,hq.trans hi⟩
  · exact ⟨r,(update_of_ne hj ..).trans hr,hi⟩

theorem peerAt_some {j : Nat} {r : Peer} (h : (peerAt s k q).peers j=some r) :
    j=k ∧ r=q ∨ s.peers j=some r := by
  by_cases hj : j=k
  · subst hj
    exact .inl ⟨rfl,by simpa [peerAt] using h.symm⟩
  · exact .inr (by simpa [peerAt,hj] using h)

theorem placed_peer (hp : Placed s) (hk : s.peers k=some p) (hq : q.socket=p.socket) : Placed (peerAt s k q) where
  task := hp.task
  peer := fun j r hr => by
    rcases peerAt_some hr with ⟨_,rfl⟩ | hr
    · exact hq ▸ hp.peer k p hk
    · exact hp.peer j r hr
  queued := fun i j hj => peer_kept hk hq (hp.queued i j hj)
  reading := fun i j hj => peer_kept hk hq (hp.reading i j hj)
  source := hp.source

theorem fwdAt_begun {j : Inc} {pc : FwdPc} (hp : Placed s) (hf : s.fwd i≠.idle) (hj : (fwdAt s i pc).fwd j≠.idle) :
    Begun s j := by
  by_cases hji : j=i
  · exact hp.task j (hji ▸ hf)
  · exact hp.task j (by simpa [fwdAt,hji] using hj)

theorem fwdAt_reading {j : Inc} {pc : FwdPc} (h : (fwdAt s i pc).fwd j=.reading k) :
    j=i ∧ pc=.reading k ∨ s.fwd j=.reading k := by
  by_cases hji : j=i
  · exact .inl ⟨hji,by simpa [fwdAt,hji] using h⟩
  · exact .inr (by simpa [fwdAt,hji] using h)

theorem placed_step (h : step mp s b=some t) (hp : Placed s) : Placed t := by
  cases step_turn h with
  | daemon a d hd =>
    refine ⟨fun i hi => ?_,fun k p hk => begun_step hd (hp.peer k p hk),hp.queued,fun i k hi => ?_,
      fun x hx => begun_step hd (hp.source x hx)⟩
    · simp only [advance] at hi
      split at hi
      · next hstart => simp [Begun,advance,hstart.2]
      · exact begun_step hd (hp.task i hi)
    · simp only [advance] at hi
      split at hi
      · cases hi
      · exact hp.reading i k hi
  | connects k i hk hl =>
    have hb:=listening_begun hp hl
    have kept {j : Nat} {i' : Inc} (hj : ∃ r,s.peers j=some r ∧ r.socket=i') :
        ∃ r,(peerAt s k ⟨i,[],false⟩).peers j=some r ∧ r.socket=i' := by
      obtain ⟨r,hr,hi⟩ := hj
      have hne : j≠k := fun he => by simp [he,hk] at hr
      exact ⟨r,(update_of_ne hne ..).trans hr,hi⟩
    refine ⟨hp.task,fun j r hr => ?_,fun i' j hj => ?_,fun i' j hj => kept (hp.reading i' j hj),hp.source⟩
    · rcases peerAt_some hr with ⟨_,rfl⟩ | hr
      · exact hb
      · exact hp.peer j r hr
    · by_cases hi : i'=i
      · subst hi
        have hj : j∈s.backlog i' ∨ j=k := by simpa using hj
        rcases hj with hj | rfl
        · exact kept (hp.queued i' j hj)
        · exact ⟨_,update_self ..,rfl⟩
      · exact kept (hp.queued i' j (by simpa [hi] using hj))
  | writes k bytes p hk | hangsUp k p hk => exact placed_peer hp hk rfl
  | accepts i k rest hf hb =>
    refine ⟨fun j => fwdAt_begun hp (by simp [hf]),hp.peer,fun j l hl => ?_,fun j l hj => ?_,hp.source⟩
    · by_cases hji : j=i
      · subst hji
        exact hp.queued j l (by simpa [hb] using .inr (by simpa using hl))
      · exact hp.queued j l (by simpa [hji] using hl)
    · rcases fwdAt_reading hj with ⟨rfl,hk⟩ | hj
      · cases hk
        exact hp.queued j k (by simp [hb])
      · exact hp.reading j l hj
  | moves i pc hf hpc =>
    refine ⟨fun j => fwdAt_begun hp hf,hp.peer,hp.queued,fun j l hj => ?_,hp.source⟩
    rcases fwdAt_reading hj with ⟨-,hk⟩ | hj
    · exact absurd hk (hpc l)
    · exact hp.reading j l hj
  | forwards i k p f rest e hf hk =>
    have hq:=placed_peer hp hk (q := {p with unread := rest}) rfl
    refine ⟨hq.task,hq.peer,hq.queued,hq.reading,fun x hx => ?_⟩
    rcases mem_append.mp hx with hx | hx
    · exact hp.source x hx
    · rw [mem_singleton.mp hx]
      exact hp.task i (by simp [hf])

theorem placed_reach {ok : State → Act → Prop} (hr : Reach (step mp) ok (init m) s) : Placed s :=
  hr.keeps ⟨by simp [init],by simp [init],by simp [init],by simp [init],by simp [init]⟩
    fun hp _ h => placed_step h hp

/-- Frames that are waiting are the session's own, and it has not left. -/
def Waiting (mp : Msgpack Event) (s : State) : Prop :=
  ∀ k p,s.peers k=some p → OwnFrames mp (nameOf s.daemon p.socket) p.unread ∧
    (framesIn maxFrameSize p.unread≠[] → s.daemon.removed p.socket=none)

theorem framesIn_nil (limit : Nat) : framesIn limit []=[] := framesIn_stuck (by simp [scan])

theorem waiting_step (h : step mp s b=some t) (hp : Placed s) (hc : Trusted mp s b)
    (hw : Waiting mp s) : Waiting mp t := by
  intro j r hr
  cases step_turn h with
  | daemon a d hd =>
    have hr : s.peers j=some r := hr
    have hn : nameOf d r.socket=nameOf s.daemon r.socket := name_stable hd (hp.peer j r hr)
    refine ⟨by simpa only [advance,hn] using (hw j r hr).1,fun hne => ?_⟩
    by_contra hgone
    exact hne (hc d hd j r hr ((hw j r hr).2 hne) hgone)
  | connects =>
    rcases peerAt_some hr with ⟨_,rfl⟩ | hr
    · simp [OwnFrames,framesIn_nil]
    · exact hw j r hr
  | writes k bytes p hk =>
    rcases peerAt_some hr with ⟨_,rfl⟩ | hr
    · exact ⟨(hc p hk).2,fun _ => (hc p hk).1⟩
    · exact hw j r hr
  | hangsUp k p hk =>
    rcases peerAt_some hr with ⟨_,rfl⟩ | hr
    · exact hw k p hk
    · exact hw j r hr
  | forwards i k p f rest e hf hk hs =>
    rcases peerAt_some hr with ⟨_,rfl⟩ | hr
    · -- the frame is gone from the head, the rest is as before
      have hframes:=framesIn_whole hs
      obtain ⟨hown,hleft⟩ := hw k p hk
      refine ⟨fun g hg => hown g ?_,fun _ => hleft ?_⟩
      · exact hframes ▸ mem_cons_of_mem f hg
      · simp [hframes]
    · exact hw j r hr
  | _ => exact hw j r hr

theorem waiting_reach (hr : Reach (step mp) (Trusted mp) (init m) s) : Waiting mp s :=
  hr.invariant (by simp [Waiting,init]) fun hu hw hc h => waiting_step h (placed_reach hu) hc hw

theorem forwarded_own {f rest : Bytes} {e : Event} (hp : Placed s) (hw : Waiting mp s) (hf : s.fwd i=.reading k)
    (hk : s.peers k=some p) (hs : scan maxFrameSize p.unread=.whole f rest) (he : decodeFrame mp f=.ok e) :
    session e.body=nameOf s.daemon i ∧ s.daemon.removed i=none := by
  obtain ⟨r,hr,rfl⟩ := hp.reading i k hf
  cases hk.symm.trans hr
  have hframes:=framesIn_whole hs
  obtain ⟨hown,hleft⟩ := hw k p hk
  exact ⟨hown f (by simp [hframes]) e he,hleft (by simp [hframes])⟩

theorem provenance_step (h : step mp s b=some t) (hp : Placed s) (hw : Waiting mp s)
    (hs : Provenance s) : Provenance t := by
  cases step_turn h with
  | daemon a d hd =>
    refine ⟨fun x hx => ?_,hs.inTime⟩
    exact (hs.named x hx).trans (name_stable hd (hp.source x hx)).symm
  | forwards i k p f rest e hf hk hscan he =>
    obtain ⟨hown,hleft⟩ := forwarded_own hp hw hf hk hscan he
    refine ⟨fun x hx => ?_,fun x hx => ?_⟩
    · rcases mem_append.mp hx with hx | hx
      · exact hs.named x hx
      · rw [mem_singleton.mp hx]
        exact hown
    · rcases mem_append.mp hx with hx | hx
      · exact hs.inTime x hx
      · rw [mem_singleton.mp hx]
        simp [hleft]
  | _ => exact ⟨hs.named,hs.inTime⟩

/-- In every run that meets the condition, whoever connects, each forwarded event names the session of its
socket, and none is sent after that session has left. -/
theorem events_from_own_session (hr : Reach (step mp) (Trusted mp) (init m) s) : Provenance s :=
  hr.invariant ⟨by simp [init],by simp [init]⟩ fun hu hs _ h =>
    provenance_step h (placed_reach hu) (waiting_reach hu) hs

def sample : Msgpack Event where
  write := fun _ => none
  read := fun bytes =>
    if bytes=[0] then some (.new (.windowDestroyed "b" 1))
    else if bytes=[1] then some (.new (.sessionDestroyed "a" 0)) else none

def sessions : List Act :=
  (createRun 0 10 (plain "a")++createRun 1 11 (plain "b")).map Act.daemon

def talk (k : Nat) (i : Inc) (payload : Bytes) : List Act :=
  [.connect k i,.accept i,.write k (frame payload),.read i]

def trusted (s : State) : Act → Bool
  | .write k bytes =>
      (s.peers k).all fun p => p.unread.isEmpty && (s.daemon.removed p.socket).isNone &&
        match scan maxFrameSize bytes with
        | .whole f [] => match decodeFrame sample f with
          | .ok e => session e.body=nameOf s.daemon p.socket
          | .error _ => true
        | _ => false
  | .daemon _ => (s.peers 0).all fun p => p.unread.isEmpty
  | _ => true

def firstOnly : Act → Bool
  | .connect k _ => k=0
  | _ => true

theorem others_none (h : step mp s b=some t) (hb : firstOnly b=true)
    (hs : ∀ k,k≠0 → s.peers k=none) (k : Nat) (hk : k≠0) : t.peers k=none := by
  -- a connection that exists and is changed is the one numbered 0
  have changed {j : Nat} {p q : Peer} (hj : s.peers j=some p) : (peerAt s j q).peers k=none := by
    have hne : k≠j := fun he => by simp [← he,hs k hk] at hj
    exact (update_of_ne hne ..).trans (hs k hk)
  cases step_turn h with
  | connects j =>
    have hj : j=0 := by simpa [firstOnly] using hb
    exact (update_of_ne (hj ▸ hk) ..).trans (hs k hk)
  | writes j bytes p hj | hangsUp j p hj | forwards i j p f rest e _ hj => exact changed hj
  | _ => exact hs k hk

theorem trusted_correct (hs : ∀ k,k≠0 → s.peers k=none) (h : trusted s b=true) : Trusted sample s b := by
  cases b with
  | write k bytes =>
    intro p hp
    simp only [trusted,hp,all_some,Bool.and_eq_true,List.isEmpty_iff,isNone_iff_eq_none] at h
    obtain ⟨⟨hu,hgone⟩,hf⟩ := h
    refine ⟨hgone,fun g hg e he => ?_⟩
    rw [hu,List.nil_append] at hg
    split at hf
    · next f hscan =>
      rw [framesIn_whole hscan,framesIn_nil,mem_singleton] at hg
      subst hg
      simpa [he] using hf
    · cases hf
  | daemon =>
    intro d _ k p hp _ _
    have hk : k=0 := by_contra fun hk => by simp [hs k hk] at hp
    subst hk
    have hu : p.unread=[] := by simpa [trusted,hp] using h
    rw [hu,framesIn_nil]
  | _ => trivial

def ownEvent : List Act := sessions++talk 0 1 [0]++(destroyRun 0 "b").map Act.daemon

theorem events_from_own_session_once : ∃ s,Reach (step sample) (Trusted sample) (init false) s ∧
    s.sent=[⟨1,.new (.windowDestroyed "b" 1),false⟩] ∧ s.daemon.removed 1≠none ∧ Provenance s := by
  have hothers : Meets (step sample) (fun u _ => ∀ k,k≠0 → u.peers k=none) (init false) ownEvent :=
    meets_of_invariant (L := fun b => firstOnly b=true) (by simp [init])
      (fun u v b hu hb h => others_none h hb hu) (fun u b hu _ => hu) (by decide)
  have htest : Meets (step sample) (fun u b => trusted u b=true) (init false) ownEvent :=
    meets_of_checked (fun _ _ h => h) (by decide +kernel)
  have hr : Reach (step sample) (Trusted sample) (init false) _ :=
    reach_exec ownEvent ((hothers.and htest).mono fun _ _ hok => trusted_correct hok.1 hok.2) (by decide +kernel)
  refine ⟨_,hr,?_,?_,events_from_own_session hr⟩ <;> decide +kernel

/-- A client of `"b"` connects to the socket in its runtime directory and says that `"a"` is gone. -/
def foreignEvent : List Act :=
  sessions++([.connect 0 1,.accept 1,.hangUp 0,.read 1,.check 1] : List Act)++talk 1 1 [1]

theorem foreign_event_forwarded : ∃ s,Reach (step sample) Free (init false) s ∧
    s.sent=[⟨1,.new (.sessionDestroyed "a" 0),false⟩] ∧ nameOf s.daemon 1 = "b" ∧
    s.daemon.sessions "a" ≠ none ∧ ¬Provenance s := by
  have hr : Reach (step sample) Free (init false) _ := reach_free foreignEvent (by decide +kernel)
  refine ⟨_,hr,?_,?_,?_,fun hp => absurd (hp.named ⟨1,.new (.sessionDestroyed "a" 0),false⟩ ?_) ?_⟩ <;>
    decide +kernel

end Waymux.Registry.EventSources
