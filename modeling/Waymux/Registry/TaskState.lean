import Waymux.Registry.SessionNames
import Waymux.Wire.Mailbox

/-!
# State of the session registry and of its tasks

`Inner` of `registry.rs` and every task under way. A task is its program counter with the live locals.
-/

namespace Waymux.Registry.TaskState
open HostResources SessionNames

structure SessionMeta where
  name : Name
  pid : Pid
  width : Nat
  height : Nat
  scale : Nat
  deriving DecidableEq, Repr

/- `inc` stands for the identity of the entry. cgroup and tmpfs handles are derived from the name, so only
their presence is kept. -/
structure SessionEntry where
  inc : Inc
  info : SessionMeta
  kill : Bool
  childPids : List Pid
  compositorPid : Option Pid
  cgroup : Bool
  tmpfs : Bool
  apiKeyId : Option String
  deriving DecidableEq, Repr

/-- With the `tag_window` call that stored it and the incarnation in which it was validated. -/
structure Tag where
  labels : List String
  inc : Inc
  call : Nat
  deriving DecidableEq, Repr

inductive Event
  | sessionCreated (name : Name) (inc : Inc)
  | sessionDestroyed (name : Name) (exitCode : Int) (inc : Inc)
  | childExited (name : Name) (pid : Pid) (exitCode : Int) (call : Nat)
  | sessionCrashed (name : Name) (pid : Pid) (exitCode : Int) (call : Nat)
  deriving DecidableEq, Repr

/-- `inc` is the incarnation whose map entry was inserted or removed. -/
inductive UsageLine
  | start (session : Name) (apiKeyId : Option String) (inc : Inc)
  | stop (session : Name) (exitCode : Option Int) (inc : Inc)
  deriving DecidableEq, Repr

/-- A SIGTERM sent on the removal of `inc`, and the process that had the pid
at that moment. -/
structure Signal where
  inc : Inc
  pid : Pid
  hit : Option Proc
  deriving DecidableEq, Repr

structure WindowInfo where
  id : Nat
  tags : List String
  deriving DecidableEq, Repr

structure SessionView where
  width : Nat
  height : Nat
  windows : List WindowInfo
  deriving DecidableEq, Repr

inductive SessionCtlMethod
  | listWindows
  | resize (width height : Nat)
  | other (method : String)
  deriving DecidableEq, Repr

structure SessionCtlResponse where
  ok : Bool
  windows : List WindowInfo
  error : Option String
  deriving DecidableEq, Repr

/- `control::dispatch`. Methods outside this model leave size and windows alone. -/
def dispatch (v : SessionView) : SessionCtlMethod → SessionView × SessionCtlResponse
  | .listWindows => (v,⟨true,v.windows,none⟩)
  | .resize w h => ({v with width := w, height := h},⟨true,[],none⟩)
  | .other _ => (v,⟨true,[],none⟩)

abbrev Box := Wire.Mailbox.State SessionCtlMethod SessionCtlResponse SessionView
abbrev BoxAct := Wire.Mailbox.Act SessionCtlMethod

structure CreateArgs where
  name : Name
  width : Nat
  height : Nat
  scale : Nat
  memCapMb : Option Nat
  cpuCapPct : Option Nat
  diskQuotaMb : Option Nat
  apiKeyId : Option String
  deriving DecidableEq, Repr

def CreateArgs.wantsTmpfs (a : CreateArgs) : Bool := a.diskQuotaMb.getD 0>0
def CreateArgs.wantsCgroup (a : CreateArgs) : Bool :=
  a.memCapMb.getD 0>0 || a.cpuCapPct.getD 0>0

/- Steps of `Registry::create` in program order. `done none` is `Ok`. -/
inductive CreatePc
  | idle
  | lookup
  | mkdir
  | mount
  | clear (k : Sock)
  | bind (k : Sock)
  | spawn
  | wait
  | unlinkReady
  | cgroup
  | join
  | insert
  | announce
  | done (err : Option CreateError)
  deriving DecidableEq, Repr

structure CreateCall where
  args : CreateArgs
  pc : CreatePc
  tmpfs : Bool
  cgroup : Bool
  pid : Pid
  deriving DecidableEq, Repr

/- Steps of `Registry::destroy`; from the removal on, the entry it took. -/
inductive DestroyPc
  | idle
  | remove
  | emit (e : SessionEntry)
  | tags (e : SessionEntry)
  | kill (e : SessionEntry)
  | unmount (e : SessionEntry)
  | cleanup (e : SessionEntry)
  | done (found : Bool)
  deriving DecidableEq, Repr

structure DestroyCall where
  name : Name
  pc : DestroyPc
  deriving DecidableEq, Repr

/- `emit` and `unmount` carry what the map section took: the entry, its tmpfs handle. -/
inductive SupPc
  | none
  | wait
  | term
  | remove (code : Int)
  | emit (code : Int) (e : SessionEntry)
  | unmount (code : Int) (tmpfs : Bool)
  | tags (code : Int)
  | unlink (code : Int) (k : Sock)
  | rmdir (code : Int)
  | announce (code : Int)
  | done (code : Int)
  deriving DecidableEq, Repr

/- The task `destroy` spawns for the cgroup: `kill_all`, then ten tries of rmdir. -/
inductive CleanPc
  | none
  | kill
  | retry (attempt : Nat)
  | done
  deriving DecidableEq, Repr

inductive SpawnPc
  | idle
  | lookup
  | spawn (i : Inc)
  | record (i : Inc)
  | done (err : Option SpawnError)
  deriving DecidableEq, Repr

inductive ReapPc
  | none
  | wait (i : Inc)
  | prune (i : Inc) (code : Int)
  | report (i : Inc) (code : Int) (crashed : Bool)
  | crash (i : Inc) (code : Int)
  | done
  deriving DecidableEq, Repr

structure SpawnCall where
  name : Name
  compositor : Bool
  pc : SpawnPc
  pid : Pid
  reaper : ReapPc
  deriving DecidableEq, Repr

/-- `resize`, `list_windows`, `tag_window`, and the remaining wrappers of
`session_control`. -/
inductive ControlReq
  | resize (width height : Nat)
  | listWindows
  | tagWindow (window : Nat) (tags : List String)
  | other (method : String)
  deriving DecidableEq, Repr

def ControlReq.method : ControlReq → SessionCtlMethod
  | .resize w h => .resize w h
  | .listWindows | .tagWindow _ _ => .listWindows
  | .other m => .other m

/-- A window as returned by `list_windows`, with the tag record merged into it. -/
structure Listed where
  window : WindowInfo
  tag : Option Tag
  deriving DecidableEq, Repr

inductive ControlRes
  | ok
  | windows (ws : List Listed)
  | notFound
  | windowNotFound
  | rejected (text : String)
  | failed (text : String)
  | io
  deriving DecidableEq, Repr

inductive ControlPc
  | idle
  | lookup
  | rpc (i : Inc)
  | merge (i : Inc) (ws : List WindowInfo)
  | store (i : Inc)
  | record (i : Inc)
  | done (inc : Option Inc) (res : ControlRes)
  deriving DecidableEq, Repr

structure ControlCall where
  name : Name
  req : ControlReq
  pc : ControlPc
  deriving DecidableEq, Repr

/-- The oneshot behind `SessionEntry.kill`, as its receiver sees it. -/
inductive KillChan
  | waiting
  | sent
  | dropped
  deriving DecidableEq, Repr

structure Daemon where
  metering : Bool
  sessions : Name → Option SessionEntry
  tags : Name → Nat → Option Tag
  dirs : Name → SessionDir
  leaves : Name → Option Leaf
  procs : Table
  kills : Inc → KillChan
  boxes : Inc → Box
  creates : Nat → CreateCall
  destroys : Nat → DestroyCall
  sups : Inc → SupPc
  cleans : Inc → CleanPc
  spawns : Nat → SpawnCall
  controls : Nat → ControlCall
  events : List Event
  usage : List UsageLine
  signals : List Signal
  removed : Inc → Option SessionEntry
  history : List Inc

end Waymux.Registry.TaskState
