import Waymux.Registry.TaskState

/-!
# Atomic steps of the registry tasks (`registry.rs`)

One step is one locked section or one filesystem, cgroup or process call, with the code up to the
next await. The label names the task and what its surroundings answer.
-/

namespace Waymux.Registry.TaskSteps
open HostResources SessionNames TaskState Function

inductive Outcome
  | ok
  | fail
  | spawned (pid : Pid)
  | ready
  | readyFailed
  | exited
  | timedOut
  | killed
  deriving DecidableEq, Repr

def setCreate (s : Daemon) (i : Nat) (c : CreateCall) : Daemon :=
  {s with creates := update s.creates i c}
def createAt (s : Daemon) (i : Nat) (pc : CreatePc) : Daemon :=
  setCreate s i {s.creates i with pc := pc}
def destroyAt (s : Daemon) (d : Nat) (pc : DestroyPc) : Daemon :=
  {s with destroys := update s.destroys d {s.destroys d with pc := pc}}
def supAt (s : Daemon) (i : Inc) (pc : SupPc) : Daemon :=
  {s with sups := update s.sups i pc}
def cleanAt (s : Daemon) (i : Inc) (pc : CleanPc) : Daemon :=
  {s with cleans := update s.cleans i pc}
def setSpawn (s : Daemon) (c : Nat) (k : SpawnCall) : Daemon :=
  {s with spawns := update s.spawns c k}
def rpcAt (s : Daemon) (c : Nat) (pc : ControlPc) : Daemon :=
  {s with controls := update s.controls c {s.controls c with pc := pc}}
def setDir (s : Daemon) (n : Name) (d : SessionDir) : Daemon :=
  {s with dirs := update s.dirs n d}
def setLeaf (s : Daemon) (n : Name) (l : Option Leaf) : Daemon :=
  {s with leaves := update s.leaves n l}
def setEntry (s : Daemon) (n : Name) (e : Option SessionEntry) : Daemon :=
  {s with sessions := update s.sessions n e}
def setBox (s : Daemon) (i : Inc) (b : Box) : Daemon :=
  {s with boxes := update s.boxes i b}

/- `tags.retain(|(s, _), _| s != name)` -/
def forgetTags (s : Daemon) (n : Name) : Daemon :=
  {s with tags := update s.tags n fun _ => none}

/- SIGTERM to every recorded child; ESRCH is ignored. -/
def sigterm (s : Daemon) (e : SessionEntry) : Daemon :=
  {s with signals := s.signals ++
      e.childPids.map fun p => ⟨e.inc,p,(s.procs.byPid p).map Process.proc⟩}

def take (s : Daemon) (n : Name) (e : SessionEntry) : Daemon :=
  {setEntry s n none with removed := update s.removed e.inc (some e)}

/- Child::kill or a drop with kill_on_drop: SIGKILL, then reaped. -/
def killSession (s : Daemon) (i : Inc) : Daemon :=
  {s with procs := s.procs.reap (.session i)}

def afterClear : Sock → CreatePc
  | .wayland => .clear .control
  | .control => .clear .attach
  | .attach => .clear .ready
  | .ready => .bind .ready
  | .events => .bind .events

def afterBind : Sock → CreatePc
  | .ready => .clear .events
  | _ => .spawn

/- `status.code().unwrap_or(-1)`: death by signal has no code. -/
def codeOrMinusOne : ExitStatus → Int
  | .code n => n
  | .signal _ => -1

def newEntry (i : Inc) (c : CreateCall) : SessionEntry where
  inc := i
  info := ⟨c.args.name,c.pid,c.args.width,c.args.height,c.args.scale⟩
  kill := true
  childPids := []
  compositorPid := none
  cgroup := c.cgroup
  tmpfs := c.tmpfs
  apiKeyId := c.args.apiKeyId

/- The loser kills its child, the winner writes session_start, inserts and starts its supervisor. -/
def insertEntry (s : Daemon) (i : Inc) : Daemon :=
  let c:=s.creates i
  let n:=c.args.name
  match s.sessions n with
  | some _ => createAt (killSession s i) i (.done (some (.fault .alreadyExists)))
  | none =>
      {createAt (supAt (setEntry s n (some (newEntry i c))) i .wait) i .announce with
        usage := if s.metering then s.usage++[.start n c.args.apiKeyId i] else s.usage
        history := s.history++[i]}

def createStep (s : Daemon) (i : Inc) (o : Outcome) : Option Daemon :=
  let c:=s.creates i
  let n:=c.args.name
  match c.pc, o with
  | .lookup, .ok =>
      match s.sessions n with
      | some _ => some (createAt s i (.done (some (.fault .alreadyExists))))
      | none => some (createAt s i .mkdir)
  | .mkdir, .ok => some (createAt (setDir s n ((s.dirs n).createDirAll i)) i .mount)
  | .mkdir, .fail => some (createAt s i (.done (some .mkdir)))
  | .mount, .ok =>
      match c.args.wantsTmpfs, (s.dirs n).mount i with
      | true, some d =>
          some (setCreate (setDir s n d) i {c with pc := .clear .wayland, tmpfs := true})
      | _, _ => some (createAt s i (.clear .wayland))
  | .mount, .fail => some (createAt s i (.clear .wayland))
  | .clear k, .ok => some (createAt (setDir s n ((s.dirs n).removeFile k)) i (afterClear k))
  | .bind k, .ok =>
      match (s.dirs n).bind i k with
      | some d => some (createAt (setDir s n d) i (afterBind k))
      | none => some (createAt s i (.done (some (.bind k))))
  | .bind k, .fail => some (createAt s i (.done (some (.bind k))))
  | .spawn, .spawned p =>
      if s.procs.pidUsed p then none
      else some {setCreate s i {c with pc := .wait, pid := p} with
        procs := ⟨p,.session i,i,none⟩::s.procs
        boxes := update s.boxes i (Wire.Mailbox.init ⟨c.args.width,c.args.height,[]⟩)}
  | .spawn, .fail => some (createAt s i (.done (some .spawn)))
  | .wait, .ready => some (createAt s i .unlinkReady)
  | .wait, .readyFailed => some (createAt (killSession s i) i (.done (some .ready)))
  | .wait, .exited =>
      match s.procs.exitOf (.session i) with
      | some st => some (createAt (killSession s i) i
          (.done (some (.exitedBeforeReady (codeOrMinusOne st)))))
      | none => none
  | .wait, .timedOut => some (createAt (killSession s i) i (.done (some .timedOut)))
  | .unlinkReady, .ok => some (createAt (setDir s n ((s.dirs n).removeFile .ready)) i .cgroup)
  | .cgroup, .ok =>
      if c.args.wantsCgroup then
        some (setCreate (setLeaf s n (some ((s.leaves n).getD ⟨i,[]⟩))) i
          {c with pc := .join, cgroup := true})
      else some (createAt s i .insert)
  | .cgroup, .fail => some (createAt s i .insert)
  | .join, .ok => some (createAt (setLeaf s n ((s.leaves n).map (·.add (.session i)))) i .insert)
  | .insert, .ok => some (insertEntry s i)
  | .announce, .ok =>
      some {createAt s i (.done none) with events := s.events++[.sessionCreated n i]}
  | _, _ => none

/- Compiled only with the metering feature. -/
def emitStop (s : Daemon) (n : Name) (e : SessionEntry) : Daemon :=
  {s with usage := if s.metering then s.usage++[.stop n none e.inc] else s.usage}

/- The lock is given back between the removal and the SIGTERM loop. -/
def destroyStep (s : Daemon) (d : Nat) : Option Daemon :=
  let n:=(s.destroys d).name
  match (s.destroys d).pc with
  | .remove =>
      match s.sessions n with
      | none => some (destroyAt s d (.done false))
      | some e => some (destroyAt (take s n e) d (.emit e))
  | .emit e => some (destroyAt (sigterm (emitStop s n e) e) d (.tags e))
  | .tags e => some (destroyAt (forgetTags s n) d (.kill e))
  | .kill e =>
      some (destroyAt {s with kills := update s.kills e.inc .sent} d (.unmount e))
  | .unmount e =>
      some (destroyAt (if e.tmpfs then setDir s n (s.dirs n).unmount else s) d (.cleanup e))
  | .cleanup e =>
      some (destroyAt (if e.cgroup then cleanAt s e.inc .kill else s) d (.done true))
  | _ => none

def leafMember (s : Daemon) (n : Name) (q : Proc) : Bool :=
  match s.leaves n with
  | some l => l.procs.contains q
  | none => false

/- rmdir of the leaf needs it empty of running processes; it may stay busy
for a while after `cgroup.kill`. -/
def cleanStep (s : Daemon) (i : Inc) (o : Outcome) : Option Daemon :=
  let n:=(s.creates i).args.name
  match s.cleans i, o with
  | .kill, .ok =>
      some (cleanAt {s with procs := s.procs.exitWhen (fun x => leafMember s n x.proc) sigkill}
        i (.retry 0))
  | .retry _, .ok =>
      if s.procs.any fun x => leafMember s n x.proc ∧ x.status=none then none
      else some (cleanAt (setLeaf s n none) i .done)
  | .retry k, .fail =>
      if (s.leaves n).isSome then some (cleanAt s i (if k+1<10 then .retry (k+1) else .done))
      else none
  | _, _ => none

def afterUnlink (code : Int) : Sock → SupPc
  | .wayland => .unlink code .control
  | .control => .unlink code .events
  | .events => .unlink code .attach
  | _ => .rmdir code

/- The receiver half of the oneshot: a dropped sender resolves it as well. -/
def dropKill (k : KillChan) : KillChan :=
  match k with
  | .waiting => .dropped
  | k => k

def supStep (s : Daemon) (i : Inc) (o : Outcome) : Option Daemon :=
  let n:=(s.creates i).args.name
  match s.sups i, o with
  | .wait, .killed => if s.kills i=.waiting then none else some (supAt s i .term)
  | .wait, .exited | .term, .exited =>
      match s.procs.exitOf (.session i) with
      | some st => some (supAt (killSession s i) i (.remove (exitCodeOf st)))
      | none => none
  | .term, .timedOut => some (supAt (killSession s i) i
      (.remove (exitCodeOf ((s.procs.exitOf (.session i)).getD sigkill))))
  | .remove code, .ok =>
      match s.sessions n with
      | some e =>
          some (supAt {take s n e with
              kills := update s.kills e.inc (dropKill (s.kills e.inc))} i
            (if s.metering then .emit code e else .unmount code e.tmpfs))
      | none => some (supAt s i (.unmount code false))
  | .emit code e, .ok =>
      some (supAt {s with usage := s.usage++[.stop n (some code) e.inc]} i
        (.unmount code e.tmpfs))
  | .unmount code t, .ok =>
      some (supAt (if t then setDir s n (s.dirs n).unmount else s) i (.tags code))
  | .tags code, .ok => some (supAt (forgetTags s n) i (.unlink code .wayland))
  | .unlink code k, .ok =>
      some (supAt (setDir s n ((s.dirs n).removeFile k)) i (afterUnlink code k))
  | .rmdir code, .ok => some (supAt (setDir s n (s.dirs n).removeDirAll) i (.announce code))
  | .announce code, .ok =>
      some (supAt {s with events := s.events++[.sessionDestroyed n code i]} i (.done code))
  | _, _ => none

def addChild (e : SessionEntry) (p : Pid) (compositor : Bool) : SessionEntry :=
  {e with
    childPids := e.childPids++[p]
    compositorPid := if compositor then some p else e.compositorPid}

def pruneChild (e : SessionEntry) (p : Pid) : SessionEntry :=
  {e with
    childPids := e.childPids.filter (·≠p)
    compositorPid := if e.compositorPid=some p then none else e.compositorPid}

/- Second locked section: the session is looked up by name once more. -/
def recordChild (s : Daemon) (n : Name) (c : Nat) (p : Pid) (compositor : Bool) : Daemon :=
  match s.sessions n with
  | none => s
  | some e =>
      let t:=setEntry s n (some (addChild e p compositor))
      if e.cgroup then setLeaf t n ((s.leaves n).map (·.add (.child c))) else t

def spawnStep (s : Daemon) (c : Nat) (o : Outcome) : Option Daemon :=
  let k:=s.spawns c
  match k.pc, o with
  | .lookup, .ok =>
      match s.sessions k.name with
      | none => some (setSpawn s c {k with pc := .done (some (.fault .sessionNotFound))})
      | some e => some (setSpawn s c {k with pc := .spawn e.inc})
  | .spawn i, .spawned p =>
      if s.procs.pidUsed p then none
      else some {setSpawn s c {k with pc := .record i, pid := p} with
        procs := ⟨p,.child c,i,none⟩::s.procs}
  | .spawn _, .fail => some (setSpawn s c {k with pc := .done (some .spawn)})
  | .record i, .ok =>
      some (setSpawn (recordChild s k.name c k.pid k.compositor) c
        {k with pc := .done none, reaper := .wait i})
  | _, _ => none

def reapStep (s : Daemon) (c : Nat) : Option Daemon :=
  let k:=s.spawns c
  match k.reaper with
  | .wait i =>
      match s.procs.exitOf (.child c) with
      | some st => some {setSpawn s c {k with reaper := .prune i (exitCodeOf st)} with
          procs := s.procs.reap (.child c)}
      | none => none
  | .prune i code =>
      match s.sessions k.name with
      | some e =>
          some (setSpawn (setEntry s k.name (some (pruneChild e k.pid))) c
            {k with reaper := .report i code (e.compositorPid=some k.pid)})
      | none => some (setSpawn s c {k with reaper := .report i code false})
  | .report i code crashed =>
      some {setSpawn s c {k with reaper := if crashed then .crash i code else .done} with
        events := s.events++[.childExited k.name k.pid code c]}
  | .crash _ code =>
      some {setSpawn s c {k with reaper := .done} with
        events := s.events++[.sessionCrashed k.name k.pid code c]}
  | _ => none

def resizeRejection (w h : Nat) : String :=
  s!"width and height must each be between 1 and {maxOutputDimension} pixels (got {w}x{h})"

def mergeTags (s : Daemon) (n : Name) (w : WindowInfo) : Listed :=
  match s.tags n w.id with
  | some t => ⟨{w with tags := t.labels},some t⟩
  | none => ⟨w,none⟩

/- What a wrapper does with the response of `session_control`. -/
def afterRpc (i : Inc) (req : ControlReq) (r : SessionCtlResponse) : ControlPc :=
  match req with
  | .resize _ _ => if r.ok then .record i else .done (some i) (.rejected (r.error.getD "unknown"))
  | .listWindows | .tagWindow _ _ =>
      if r.ok then .merge i r.windows else .done (some i) (.failed (r.error.getD "unknown"))
  | .other _ => if r.ok then .done (some i) .ok else .done (some i) (.failed (r.error.getD "unknown"))

def afterMerge (s : Daemon) (i : Inc) (n : Name) (req : ControlReq) (ws : List WindowInfo) : ControlPc :=
  match req with
  | .tagWindow w _ =>
      if ws.any fun x => x.id == w then .store i else .done (some i) .windowNotFound
  | _ => .done (some i) (.windows (ws.map (mergeTags s n)))

def storeTags (s : Daemon) (n : Name) (c : Nat) (i : Inc) (w : Nat) (ls : List String) : Daemon :=
  {s with tags := update s.tags n (update (s.tags n) w (some ⟨ls,i,c⟩))}

def resized (e : SessionEntry) (w h : Nat) : SessionEntry :=
  {e with info := {e.info with width := w, height := h}}

def controlStep (s : Daemon) (c : Nat) : Option Daemon :=
  let k:=s.controls c
  match k.pc with
  | .lookup =>
      match s.sessions k.name with
      | none => some (rpcAt s c (.done none .notFound))
      | some e =>
          some (rpcAt (setBox s e.inc ((s.boxes e.inc).enter c k.req.method)) c (.rpc e.inc))
  | .rpc i =>
      match (s.boxes i).calls c with
      | .done none => some (rpcAt s c (.done (some i) .io))
      | .done (some r) => some (rpcAt s c (afterRpc i k.req r))
      | _ => none
  | .merge i ws => some (rpcAt s c (afterMerge s i k.name k.req ws))
  | .store i =>
      match k.req with
      | .tagWindow w ls => some (rpcAt (storeTags s k.name c i w ls) c (.done (some i) .ok))
      | _ => none
  | .record i =>
      match k.req, s.sessions k.name with
      | .resize w h, some e =>
          some (rpcAt (setEntry s k.name (some (resized e w h))) c (.done (some i) .ok))
      | .resize _ _, none => some (rpcAt s c (.done (some i) .ok))
      | _, _ => none
  | _ => none

/- The two ends of a session's control connections. The session's end moves
only while its process runs. The entry has the path of the socket: the session
that listens there is its own until a later one of the name has bound it. -/
def boxStep (s : Daemon) (i : Inc) (a : BoxAct) : Option Daemon :=
  match a with
  | .begin _ _ => none
  | .serve _ _ =>
      if s.procs.running (.session i) then
        (Wire.Mailbox.step dispatch (s.boxes i) a).map (setBox s i)
      else none
  | a => (Wire.Mailbox.step dispatch (s.boxes i) a).map (setBox s i)

inductive Act
  | create (i : Inc) (args : CreateArgs)
  | createStep (i : Inc) (o : Outcome)
  | destroy (d : Nat) (name : Name)
  | destroyStep (d : Nat)
  | supStep (i : Inc) (o : Outcome)
  | cleanStep (i : Inc) (o : Outcome)
  | spawnChild (c : Nat) (name : Name) (argv : List String) (compositor : Bool)
  | spawnStep (c : Nat) (o : Outcome)
  | reapStep (c : Nat)
  | control (c : Nat) (name : Name) (req : ControlReq)
  | controlStep (c : Nat)
  | box (i : Inc) (a : BoxAct)
  | exit (q : Proc) (st : ExitStatus)
  | sessionBind (i : Inc) (k : Sock)
  | windows (i : Inc) (ids : List Nat)
  deriving DecidableEq, Repr

def callCreate (args : CreateArgs) : CreatePc :=
  match validateSessionName args.name, validateOutputSize args.width args.height with
  | .error e, _ => .done (some (.fault e))
  | .ok _, .error e => .done (some (.fault e))
  | .ok _, .ok _ => .lookup

def callSpawn (argv : List String) : SpawnPc :=
  match validateArgv argv with
  | .error e => .done (some (.fault e))
  | .ok _ => .lookup

def callControl : ControlReq → ControlPc
  | .resize w h =>
      match validateOutputSize w h with
      | .error _ => .done none (.rejected (resizeRejection w h))
      | .ok _ => .lookup
  | _ => .lookup

def ownSock : Sock → Bool
  | .wayland | .control | .attach => true
  | _ => false

/- `add_window` leaves the tags of a `WindowInfo` empty. -/
def untagged (ids : List Nat) : List WindowInfo := ids.map fun id => ⟨id,[]⟩

def step (s : Daemon) : Act → Option Daemon
  | .create i args =>
      if (s.creates i).pc=.idle then some (setCreate s i ⟨args,callCreate args,false,false,0⟩)
      else none
  | .createStep i o => createStep s i o
  | .destroy d n =>
      if (s.destroys d).pc=.idle then
        some {s with destroys := update s.destroys d ⟨n,.remove⟩}
      else none
  | .destroyStep d => destroyStep s d
  | .supStep i o => supStep s i o
  | .cleanStep i o => cleanStep s i o
  | .spawnChild c n argv comp =>
      if (s.spawns c).pc=.idle then some (setSpawn s c ⟨n,comp,callSpawn argv,0,.none⟩)
      else none
  | .spawnStep c o => spawnStep s c o
  | .reapStep c => reapStep s c
  | .control c n req =>
      if (s.controls c).pc=.idle then
        some {s with controls := update s.controls c ⟨n,req,callControl req⟩}
      else none
  | .controlStep c => controlStep s c
  | .box i a => boxStep s i a
  | .exit q st =>
      if s.procs.running q then some {s with procs := s.procs.exitWhen (fun x => x.proc=q) st}
      else none
  | .sessionBind i k =>
      if ownSock k ∧ s.procs.running (.session i) then
        some (setDir s (s.creates i).args.name ((s.dirs (s.creates i).args.name).rebind i k))
      else none
  | .windows i ids =>
      if s.procs.running (.session i) then
        some (setBox s i {s.boxes i with sess := {(s.boxes i).sess with windows := untagged ids}})
      else none

def noArgs : CreateArgs := ⟨"",0,0,0,none,none,none,none⟩

def init (metering : Bool) : Daemon where
  metering := metering
  sessions _ := none
  tags _ _ := none
  dirs _ := .absent
  leaves _ := none
  procs := []
  kills _ := .waiting
  boxes _ := Wire.Mailbox.init ⟨0,0,[]⟩
  creates _ := ⟨noArgs,.idle,false,false,0⟩
  destroys _ := ⟨"",.idle⟩
  sups _ := .none
  cleans _ := .none
  spawns _ := ⟨"",false,.idle,0,.none⟩
  controls _ := ⟨"",.listWindows,.idle⟩
  events := []
  usage := []
  signals := []
  removed _ := none
  history := []

end Waymux.Registry.TaskSteps
