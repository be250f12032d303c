import Waymux.Registry.Shutdown
import Mathlib.Data.List.ProdSigma
import Mathlib.Data.List.Perm.Subperm

/-!
# Background tasks and stored handles

The stored join handle, the task that forwards the session's events, and two log drainers per
process.
-/

namespace Waymux.Registry.Bookkeeping
open HostResources TaskState TaskSteps StepCases TaskFrames Incarnations Processes List
open LifecycleEvents (finished)
open Shutdown (keys registered_inserted)
open Schedules Interleave.Runs Interleave.Logs

/- `accept_and_forward_events`: in accept, reading a connection, or before the
lookup that decides whether it goes on. -/
inductive FwdPc
  | accept
  | reading
  | check
  deriving DecidableEq, Repr

inductive Stream
  | stdout
  | stderr
  deriving DecidableEq, Repr

/- `forwarders` are the tasks that have not returned, by incarnation; a drainer
is told by the process and the pipe it reads, and `closed` are the pipes without
a writer. -/
structure State where
  sys : Shutdown.State
  forwarders : List Inc
  fwd : Inc → FwdPc
  drainers : List (Proc × Stream)
  closed : List (Proc × Stream)

def init (metering : Bool) : State := ⟨Shutdown.init metering,[],fun _ => .accept,[],[]⟩

/- The forwarder is started right before the second locked section of create. -/
def started (a : Shutdown.Act) (u : Shutdown.State) : List Inc :=
  match a with
  | .task (.createStep i _) => if (u.daemon.creates i).pc=.insert then [i] else []
  | _ => []

def pipes (q : Proc) : List (Proc × Stream) := [(q,.stdout),(q,.stderr)]

/- The drainers of a client are started if its session is found again. -/
def clientPipes (d : Daemon) (a : Shutdown.Act) : List (Proc × Stream) :=
  match a with
  | .task (.spawnStep c .ok) =>
      match (d.spawns c).pc, d.sessions (d.spawns c).name with
      | .record _, some _ => pipes (.child c)
      | _, _ => []
  | _ => []

/- Those of a session while its create call holds the map. -/
def sessionPipes (s u : Shutdown.State) : List (Proc × Stream) :=
  (u.daemon.history.drop s.daemon.history.length).flatMap fun i => pipes (.session i)

inductive Act
  | sys (a : Shutdown.Act)
  | connect (i : Inc)
  | acceptFails (i : Inc)
  | hangUp (i : Inc)
  | check (i : Inc)
  | close (q : Proc × Stream)
  | drain (q : Proc × Stream)
  deriving DecidableEq, Repr

def running (s : State) (i : Inc) : Bool := s.sys.daemon.procs.running (.session i)

def fwdAt (s : State) (i : Inc) (pc : FwdPc) : State := {s with fwd := Function.update s.fwd i pc}

def advance (s : State) (a : Shutdown.Act) (u : Shutdown.State) : State :=
  {s with
    sys := u
    forwarders := started a u ∪ s.forwarders
    fwd := fun i => if i∈started a u then .accept else s.fwd i
    drainers := sessionPipes s.sys u ∪ (clientPipes s.sys.daemon a ∪ s.drainers)}

/- Whoever reaches the socket connects; a connection ends at EOF or at a bad
frame. The ends of a pipe are inherited, so that it may stay open when its
process has ended. -/
def step (s : State) : Act → Option State
  | .sys a => (Shutdown.step s.sys a).map (advance s a)
  | .connect i => if i∈s.forwarders ∧ s.fwd i=.accept then some (fwdAt s i .reading) else none
  | .acceptFails i => if i∈s.forwarders ∧ s.fwd i=.accept then some (fwdAt s i .check) else none
  | .hangUp i => if i∈s.forwarders ∧ s.fwd i=.reading then some (fwdAt s i .check) else none
  | .check i =>
      if i∈s.forwarders ∧ s.fwd i=.check then
        match s.sys.daemon.sessions (nameOf s.sys.daemon i) with
        | some _ => some (fwdAt s i .accept)
        | none => some {s with forwarders := s.forwarders.erase i}
      else none
  | .close q => some {s with closed := q::s.closed}
  | .drain q => if q∈s.drainers ∧ q∈s.closed then some {s with drainers := s.drainers.erase q} else none

variable {s t : State} {b : Act} {i : Inc} {d : Daemon}

inductive Turn (s : State) : Act → State → Prop
  | sys (a : Shutdown.Act) (u : Shutdown.State) : Shutdown.step s.sys a=some u → Turn s (.sys a) (advance s a u)
  | connects (i : Inc) : Turn s (.connect i) (fwdAt s i .reading)
  | looks {b : Act} (i : Inc) : Turn s b (fwdAt s i .check)
  | goesOn (i : Inc) (e : SessionEntry) : s.sys.daemon.sessions (nameOf s.sys.daemon i)=some e →
      Turn s (.check i) (fwdAt s i .accept)
  | ends (i : Inc) : Turn s (.check i) {s with forwarders := s.forwarders.erase i}
  | closes (q : Proc × Stream) : Turn s (.close q) {s with closed := q::s.closed}
  | drains (q : Proc × Stream) : Turn s (.drain q) {s with drainers := s.drainers.erase q}

theorem step_turn (h : step s b=some t) : Turn s b t := by
  cases b with
  | sys a =>
    obtain ⟨u,hu,rfl⟩ := Option.map_eq_some_iff.mp h
    exact .sys a u hu
  | connect | acceptFails | hangUp | drain =>
    obtain ⟨_,⟨⟩⟩ := Option.ite_none_right_eq_some.mp h
    constructor
  | close q =>
    cases h
    exact .closes q
  | check i =>
    obtain ⟨_,ht⟩ := Option.ite_none_right_eq_some.mp h
    split at ht <;> cases ht
    · exact .goesOn i _ ‹_›
    · exact .ends i

/-- A forwarder starts while its process runs and is reading when the process
ends; when it looks its name up after that, the name is free. -/
def Forwarded (s : State) : Act → Prop
  | .sys a => ∀ u∈Shutdown.step s.sys a,
      (∀ i∈started a u,u.daemon.procs.running (.session i)=true) ∧
      ∀ i∈s.forwarders,running s i=true → u.daemon.procs.running (.session i)=true ∨ s.fwd i=.reading
  | .check i => running s i=false → s.sys.daemon.sessions (nameOf s.sys.daemon i)=none
  | _ => True

/-- No session leaves the map while the handle of its supervisor is stored. -/
def HandleFirst (s : State) : Act → Prop
  | .sys a => ∀ u∈Shutdown.step s.sys a,∀ i∈s.sys.supervisorHandles,
      Registered s.sys.daemon i → Registered u.daemon i
  | _ => True

def Tidy (s : State) (b : Act) : Prop := Forwarded s b ∧ HandleFirst s b

instance : Decidable (Tidy s b) := by
  unfold Tidy
  cases b <;> simp only [Forwarded,HandleFirst] <;> infer_instance

/-- The supervisors of finished sessions have ended, no create call has a process it has not handed over, no
forwarder has anything to do but wait, and no pipe is at its end. -/
structure Settled (s : State) : Prop where
  supervisors : ∀ i∈s.sys.daemon.history,Registered s.sys.daemon i ∨ finished (s.sys.daemon.sups i)=true
  creates : ∀ x∈s.sys.daemon.procs,∀ i,x.proc=.session i → spawned (s.sys.daemon.creates i).pc=false
  forwarders : ∀ i∈s.forwarders,s.fwd i≠.check
  drainers : ∀ q∈s.drainers,q∉s.closed

/-- Nobody but a running process has its pipes or a connection for its events open. -/
structure Unshared (s : State) : Prop where
  connections : ∀ i∈s.forwarders,s.fwd i=.reading → running s i=true
  pipes : ∀ q∈s.drainers,s.sys.daemon.procs.running q.1=true ∨ q∈s.closed

variable {ok : State → Act → Prop} {m : Bool}

theorem daemon_reach (hr : Reach step ok (init m) s) : Reach TaskSteps.step Free (TaskSteps.init m) s.sys.daemon := by
  have hsys : Reach Shutdown.step Free (Shutdown.init m) s.sys := by
    induction hr with
    | start => exact .start
    | next _ _ h ih =>
      cases step_turn h with
      | sys a u hu => exact ih.next trivial hu
      | _ => exact ih
  exact Shutdown.daemon_reach hsys

def Accepts (s : State) : Prop := ∀ i∈s.forwarders,s.fwd i=.accept → running s i=true

theorem Accepts.moves {pc : FwdPc} (hi : Accepts s) (hpc : pc=.accept → running s i=true) : Accepts (fwdAt s i pc) := by
  intro j hj hacc
  by_cases hji : j=i
  · subst hji
    exact hpc (by simpa [fwdAt] using hacc)
  · exact hi j hj (by simpa [fwdAt,hji] using hacc)

theorem Settled.registered (hr : Reach step ok (init m) s) (hs : Settled s) (hrun : running s i=true) :
    Registered s.sys.daemon i := by
  have hd:=daemon_reach hr
  obtain ⟨x,hx,hxi⟩ := any_eq_true.mp hrun
  have hxi : x.proc=.session i := (of_decide_eq_true hxi).1
  have hhost:=((rows_reach hd).session_row x hx i hxi).2
  have hsup : s.sys.daemon.sups i=.wait ∨ s.sys.daemon.sups i=.term :=
    hhost.resolve_left (by simp [hs.creates x hx i hxi])
  have hins : Inserted s.sys.daemon i := by
    refine ((wf_reach hd).sup_iff i).mp ?_
    rcases hsup with h | h <;> simp [h]
  refine (hs.supervisors i (((history_reach hd).mem i).mpr hins)).resolve_right ?_
  rcases hsup with h | h <;> simp [h,finished]

def kept (s : State) : Nat := s.sys.supervisorHandles.length+s.forwarders.length+s.drainers.length

instance {P : Inc → Prop} [DecidablePred P] : ∀ q : Proc,Decidable (∀ i,q=.session i → P i)
  | .session i => decidable_of_iff (P i) ⟨fun h _ hj => Proc.session.inj hj ▸ h,fun h => h i rfl⟩
  | .child _ => isTrue nofun

instance : Decidable (Settled s) :=
  decidable_of_iff (_ ∧ _ ∧ _ ∧ _) ⟨fun ⟨h₁,h₂,h₃,h₄⟩ => ⟨h₁,h₂,h₃,h₄⟩,fun ⟨h₁,h₂,h₃,h₄⟩ => ⟨h₁,h₂,h₃,h₄⟩⟩

instance : Decidable (Unshared s) := decidable_of_iff (_ ∧ _) ⟨fun ⟨h₁,h₂⟩ => ⟨h₁,h₂⟩,fun ⟨h₁,h₂⟩ => ⟨h₁,h₂⟩⟩

def tasks (as : List TaskSteps.Act) : List Act := as.map fun a => .sys (.task a)

def endRun (i : Inc) (k : Nat) (n : Name) : List Act :=
  tasks (destroyRun k n++.supStep i .killed::exitRun i)++(pipes (.session i)).map .close ++
    (pipes (.session i)).map .drain

def oneSession : List Act :=
  tasks (createRun 1 100 (plain "a"))++([.connect 1] : List Act)++endRun 1 7 "a" ++
  ([.hangUp 1,.check 1] : List Act)

end Waymux.Registry.Bookkeeping
