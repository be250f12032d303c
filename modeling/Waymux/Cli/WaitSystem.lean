import Waymux.Cli.Connection

/-!
# `waymux wait` (`wait_for_window`)

The client's loop, the daemon that answers it, and the session whose windows it waits for. No event
is dropped on the way; how long anything takes is left open.
-/

namespace Waymux.Cli.WaitForWindow
open Connection Server.Messages

structure WindowInfo where
  id : Nat
  appId : String
  title : String
  tags : List String
  pid : Int
  deriving DecidableEq, Repr

structure Selector where
  appId : Option String
  title : Option String
  tag : Option String
  pid : Option Int
  nth : Option Nat
  deriving DecidableEq, Repr

/- `matches` -/
def Selector.accepts (sel : Selector) (w : WindowInfo) : Bool :=
  (match sel.appId with | some a => w.appId == a | none => true) &&
  (match sel.title with | some t => w.title == t | none => true) &&
  (match sel.tag with | some t => w.tags.any (· == t) | none => true) &&
  (match sel.pid with | some p => w.pid == p | none => true)

def resolve (sel : Selector) (windows : List WindowInfo) : Option WindowInfo :=
  let filtered:=windows.filter sel.accepts
  match sel.nth with
  | none => filtered.head?
  | some n => filtered[n]?

/- `ev_session` -/
def evSession : EventBody → Option String
  | .windowCreated name .. | .windowDestroyed name _ | .windowChanged name .. => some name
  | _ => none

inductive Reply
  | unit
  | windows (ws : List WindowInfo)
  deriving DecidableEq, Repr

inductive Frame
  | response (id : Nat) (r : Reply)
  | event (body : EventBody)
  deriving DecidableEq, Repr

def answerOf : Frame → Option (Nat × Reply)
  | .response id r => some (id,r)
  | .event _ => none

/-- `list_windows` asks the session and then merges the tags. -/
inductive Serving
  | idle
  | subscribe (id : Nat)
  | opened (id : Nat)
  | list (id : Nat)
  | listed (id : Nat) (ws : List WindowInfo)
  | merged (id : Nat) (ws : List WindowInfo)
  deriving DecidableEq, Repr

inductive Outcome
  | found (w : WindowInfo)
  | deadline
  | readError
  | decodeError
  deriving DecidableEq, Repr

inductive Client
  | start
  | subscribing
  | listing
  | head
  | reading
  | done (o : Outcome)
  deriving DecidableEq, Repr

structure State where
  -- the session
  windows : List WindowInfo
  nextWindowId : Nat
  /-- changes made whose event has not been emitted yet -/
  emitting : List EventBody
  -- the daemon
  /-- from the session's channel to the daemon's broadcast -/
  pipe : List EventBody
  tags : Nat → Option (List String)
  /-- `tag_window` calls that have found their window -/
  tagging : List (Nat × List String)
  subscribed : Bool
  /-- broadcast and not yet forwarded -/
  live : List EventBody
  serving : Serving
  /-- on the way to the client -/
  socket : List Frame
  -- the client
  conn : Conn Frame
  client : Client
  timed : Bool
  expired : Bool
  /-- observed only: was there a match when the deadline passed -/
  atDeadline : Option Bool

def start : State where
  windows := []
  nextWindowId := 1
  emitting := []
  pipe := []
  tags := fun _ => none
  tagging := []
  subscribed := false
  live := []
  serving := .idle
  socket := []
  conn := .connect
  client := .start
  timed := false
  expired := false
  atDeadline := none

def withTags (tags : Nat → Option (List String)) (w : WindowInfo) : WindowInfo :=
  match tags w.id with
  | some t => {w with tags := t}
  | none => w

def mergeTags (tags : Nat → Option (List String)) (ws : List WindowInfo) : List WindowInfo :=
  ws.map (withTags tags)

def current (s : State) : List WindowInfo := mergeTags s.tags s.windows

def found (sel : Selector) (ws : List WindowInfo) : Bool := (resolve sel ws).isSome

def State.change (s : State) (ws : List WindowInfo) (e : EventBody) : State :=
  {s with windows := ws, emitting := s.emitting++[e]}

def addWindow (name : String) (pid : Int) (s : State) : State :=
  let id:=s.nextWindowId
  let others:=s.windows.filter fun w => w.id≠id
  {s with nextWindowId := (id+1)%2^32}.change
    (others++[({id := id, appId := "", title := "", tags := [], pid := pid} : WindowInfo)])
    (.windowCreated name id "" "" pid)

def removeWindow (name : String) (id : Nat) (s : State) : State :=
  if s.windows.any (·.id=id) then s.change (s.windows.filter (·.id≠id)) (.windowDestroyed name id) else s

def setAppId (name : String) (id : Nat) (appId : String) (s : State) : State :=
  if s.windows.any (fun w => w.id=id ∧ w.appId≠appId) then
    s.change (s.windows.map fun w => if w.id=id then {w with appId := appId} else w)
      (.windowChanged name id ⟨none,some appId,none,none⟩)
  else s

def setTitle (name : String) (id : Nat) (title : String) (s : State) : State :=
  if s.windows.any (fun w => w.id=id ∧ w.title≠title) then
    s.change (s.windows.map fun w => if w.id=id then {w with title := title} else w)
      (.windowChanged name id ⟨some title,none,none,none⟩)
  else s

def emit (k : Nat) (s : State) : Option State :=
  match s.emitting[k]? with
  | some e => some {s with emitting := s.emitting.eraseIdx k, pipe := s.pipe++[e]}
  | none => none

def State.publish (s : State) (e : EventBody) : State :=
  {s with live := if s.subscribed then s.live++[e] else s.live}

def broadcast (s : State) : Option State :=
  match s.pipe with
  | e::rest => some ({s with pipe := rest}.publish e)
  | [] => none

/- Events of other sessions and of the daemon itself. -/
def broadcastOther (name : String) (e : EventBody) (s : State) : Option State :=
  if evSession e=some name then none else some (s.publish e)

def forward (s : State) : Option State :=
  match s.live with
  | e::rest => some {s with
      live := rest
      socket := if topicMatches (.new e) ["windows"] then s.socket++[.event e] else s.socket}
  | [] => none

def openReceiver (s : State) : Option State :=
  match s.serving with
  | .subscribe id => some {s with subscribed := true, live := [], serving := .opened id}
  | _ => none

/- The map of the session has no order of its own. -/
def snapshot (order : List WindowInfo) (s : State) : Option State :=
  match s.serving with
  | .list id => if order.Perm s.windows then some {s with serving := .listed id order} else none
  | _ => none

def merge (s : State) : Option State :=
  match s.serving with
  | .listed id ws => some {s with serving := .merged id (mergeTags s.tags ws)}
  | _ => none

def respond (s : State) : Option State :=
  match s.serving with
  | .opened id => some {s with serving := .idle, socket := s.socket++[.response id .unit]}
  | .merged id ws => some {s with serving := .idle, socket := s.socket++[.response id (.windows ws)]}
  | _ => none

/- `tag_window`: the window is looked up in the session, the tags are stored later. -/
def tagLook (id : Nat) (tags : List String) (s : State) : Option State :=
  if s.windows.any (·.id=id) then some {s with tagging := s.tagging++[(id,tags)]} else none

def tagStore (k : Nat) (s : State) : Option State :=
  match s.tagging[k]? with
  | some (id,tags) => some {s with
      tags := Function.update s.tags id (some tags)
      tagging := s.tagging.eraseIdx k}
  | none => none

def begin (s : State) : Option State :=
  if s.client=.start then
    some {s with conn := s.conn.request true, serving := .subscribe s.conn.nextId, client := .subscribing}
  else none

def sendList (s : State) : State :=
  {s with conn := s.conn.request true, serving := .list s.conn.nextId, client := .listing}

/- A frame of `read_raw_frame`. -/
def process (name : String) (f : Frame) (s : State) : State :=
  match f with
  | .event e => if evSession e=some name then sendList s else {s with client := .head}
  | .response .. => {s with client := .head}

def answered (sel : Selector) (r : Reply) (s : State) : State :=
  match s.client, r with
  | .subscribing, _ => sendList s
  | _, .windows ws =>
      match resolve sel ws with
      | some w => {s with client := .done (.found w)}
      | none => {s with client := .head, timed := true}
  | _, .unit => {s with client := .done .decodeError}

def recv (name : String) (sel : Selector) (s : State) : Option State :=
  match s.socket with
  | f::rest =>
      match s.conn.take answerOf f with
      | some (.setAside,conn) => some {s with conn := conn, socket := rest}
      | some (.answer r,conn) => some (answered sel r {s with conn := conn, socket := rest})
      | some (.returned f,conn) => some (process name f {s with conn := conn, socket := rest})
      | none => none
  | [] => none

/- The read is dropped with the call it was made for. -/
def State.leave (s : State) (o : Outcome) : State :=
  {s with conn := {s.conn with call := .idle}, client := .done o}

/- The head of the loop, up to the await of `read_raw_frame`. -/
def loop (name : String) (s : State) : Option State :=
  if s.client≠.head then none
  else if s.expired then some (s.leave .deadline)
  else match s.conn.readRawFrame with
    | (some f,conn) => some (process name f {s with conn := conn})
    | (none,conn) => some {s with conn := conn, client := .reading}

def timeout (s : State) : Option State :=
  if s.client=.reading ∧ s.expired then some (s.leave .deadline) else none

def readError (s : State) : Option State :=
  if s.client=.reading then some (s.leave .readError) else none

def expire (sel : Selector) (s : State) : Option State :=
  if s.timed ∧ !s.expired then some {s with expired := true, atDeadline := some (found sel (current s))} else none

inductive Act
  | addWindow (pid : Int)
  | removeWindow (id : Nat)
  | setAppId (id : Nat) (appId : String)
  | setTitle (id : Nat) (title : String)
  | emit (k : Nat)
  | broadcast
  | broadcastOther (e : EventBody)
  | forward
  | openReceiver
  | snapshot (order : List WindowInfo)
  | merge
  | respond
  | tagLook (id : Nat) (tags : List String)
  | tagStore (k : Nat)
  | begin
  | recv
  | loop
  | timeout
  | readError
  | expire

def step (name : String) (sel : Selector) (s : State) : Act → Option State
  | .addWindow pid => some (addWindow name pid s)
  | .removeWindow id => some (removeWindow name id s)
  | .setAppId id appId => some (setAppId name id appId s)
  | .setTitle id title => some (setTitle name id title s)
  | .emit k => emit k s
  | .broadcast => broadcast s
  | .broadcastOther e => broadcastOther name e s
  | .forward => forward s
  | .openReceiver => openReceiver s
  | .snapshot order => snapshot order s
  | .merge => merge s
  | .respond => respond s
  | .tagLook id tags => tagLook id tags s
  | .tagStore k => tagStore k s
  | .begin => begin s
  | .recv => recv name sel s
  | .loop => loop name s
  | .timeout => timeout s
  | .readError => readError s
  | .expire => expire sel s

end Waymux.Cli.WaitForWindow
