import Mathlib.Logic.Function.Basic
import Mathlib.Data.List.Basic

/-!
# Host resources a session uses

`quota.rs`, `cgroup.rs` and the process table. An accepted name is one path component, so directory
and leaf are keyed by the name alone. The create call a resource was made for is seen by statements
only.
-/

namespace Waymux.Registry.HostResources

abbrev Name := String
abbrev Pid := Nat
/-- Number of a create call and name of the session it builds. -/
abbrev Inc := Nat

inductive Sock
  | wayland | control | attach | ready | events
  deriving DecidableEq, Repr

def Sock.file : Sock → String
  | .wayland => "wayland.sock"
  | .control => "control.sock"
  | .attach => "attach.sock"
  | .ready => "ready.sock"
  | .events => "events.sock"

/-- The create call it belongs to and, for every socket path, the one whose socket lies there. -/
structure Layer where
  maker : Inc
  files : Sock → Option Inc

def Layer.empty (i : Inc) : Layer := ⟨i,fun _ => none⟩
def Layer.put (l : Layer) (k : Sock) (f : Option Inc) : Layer :=
  {l with files := Function.update l.files k f}
def Layer.wipe (l : Layer) : Layer := {l with files := fun _ => none}

/-- `state_dir/<name>`: the directory and the tmpfs mounts over it, top first. Path operations reach the top
only. -/
structure SessionDir where
  base : Option Layer
  mounts : List Layer

namespace SessionDir

def absent : SessionDir := ⟨none,[]⟩

def visible (d : SessionDir) : Option Layer :=
  match d.mounts with
  | m::_ => some m
  | [] => d.base

def onVisible (d : SessionDir) (f : Layer → Layer) : SessionDir :=
  match d.mounts with
  | m::ms => {d with mounts := f m::ms}
  | [] => {d with base := d.base.map f}

/- `create_dir_all` succeeds on an existing directory and leaves its contents;
the caller takes it over. -/
def createDirAll (d : SessionDir) (i : Inc) : SessionDir :=
  match d.base with
  | none => {d with base := some (Layer.empty i)}
  | some b => {d with base := some {b with maker := i}}

/- mount(2) of a fresh tmpfs. ENOENT when the directory is gone. -/
def mount (d : SessionDir) (i : Inc) : Option SessionDir :=
  match d.visible with
  | none => none
  | some _ => some {d with mounts := Layer.empty i::d.mounts}

/- umount2(path, MNT_DETACH) takes the topmost mount, whoever made it. -/
def unmount (d : SessionDir) : SessionDir := {d with mounts := d.mounts.tail}

def removeFile (d : SessionDir) (k : Sock) : SessionDir := d.onVisible fun l => l.put k none

/- bind(2): EADDRINUSE on an existing path, ENOENT without a directory. -/
def bind (d : SessionDir) (i : Inc) (k : Sock) : Option SessionDir :=
  match d.visible with
  | none => none
  | some l => if l.files k=none then some (d.onVisible fun l => l.put k (some i)) else none

/- The session process removes a stale path before it binds its own socket
(`cleanup_stale` in the session's main). -/
def rebind (d : SessionDir) (i : Inc) (k : Sock) : SessionDir := d.onVisible fun l => l.put k (some i)

/- `remove_dir_all`: contents first, then the directory; a mount point stays
(EBUSY), its contents gone. -/
def removeDirAll (d : SessionDir) : SessionDir :=
  match d.mounts with
  | m::ms => {d with mounts := m.wipe::ms}
  | [] => {d with base := none}

end SessionDir

inductive ExitStatus
  | code (n : Int)
  | signal (n : Int)
  deriving DecidableEq, Repr

/- Shell convention: the exit code, or 128 + signal number. -/
def exitCodeOf : ExitStatus → Int
  | .code n => n
  | .signal n => 128+n

def sigkill : ExitStatus := .signal 9

/-- Whose process: the session process of a create call, or the client
started by a `spawn_child` call. -/
inductive Proc
  | session (i : Inc)
  | child (c : Nat)
  deriving DecidableEq, Repr

/-- Process-table row; `status` is set when the process has exited and nobody
has waited for it yet. `inc` is the incarnation it was started for. -/
structure Process where
  pid : Pid
  proc : Proc
  inc : Inc
  status : Option ExitStatus
  deriving DecidableEq, Repr

abbrev Table := List Process

namespace Table

def pidUsed (t : Table) (p : Pid) : Bool := t.any fun x => x.pid == p
def byPid (t : Table) (p : Pid) : Option Process := t.find? fun x => x.pid == p
def row (t : Table) (q : Proc) : Option Process := t.find? fun x => x.proc=q
def running (t : Table) (q : Proc) : Bool := t.any fun x => x.proc=q ∧ x.status=none
def reap (t : Table) (q : Proc) : Table := t.filter fun x => x.proc≠q

/- A process that is already a zombie keeps its status. -/
def exitWhen (t : Table) (f : Process → Bool) (st : ExitStatus) : Table :=
  t.map fun x => if f x ∧ x.status=none then {x with status := some st} else x

def exitOf (t : Table) (q : Proc) : Option ExitStatus :=
  (t.row q).bind Process.status

end Table

/-- cgroup-v2 leaf `waymux-<name>`: who made the directory, and its members. -/
structure Leaf where
  maker : Inc
  procs : List Proc

def Leaf.add (l : Leaf) (q : Proc) : Leaf := {l with procs := q::l.procs}

end Waymux.Registry.HostResources
