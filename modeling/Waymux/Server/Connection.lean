import Waymux.Interleave.Channels
import Waymux.Interleave.Runs
import Waymux.Server.Dispatch

/-!
# One client connection of the daemon (`handle_connection`)

The reader task, the event forwarders it spawns, their bounded queue and the writer task; around
them the broadcast channel, the log rings and their drainers. Every await point and every mutex
section is a step.
-/

namespace Waymux.Server.Connection
open Framing.LengthPrefix Wire.FrameCodec Messages Dispatch Interleave.Channels

def outQueueCapacity : Nat := 1024
def eventChannelCapacity : Nat := 1024
def logHistoryCapacity : Nat := 1024

/-- `rmp_serde` at the types of the connection. -/
structure Coders where
  request : Msgpack Request
  response : Msgpack Response
  event : Msgpack Event
  hello : HelloResult → Except String Bytes
  /-- `UnitResult {}` -/
  unit : Except String Bytes

/-- The ring and the drainer that read it, and its number among all appends. The code never reads it. -/
structure Line where
  ring : Nat
  drainer : Nat
  serial : Nat
  deriving DecidableEq, Repr

structure LogEntry where
  stream : String
  text : String
  line : Line
  deriving DecidableEq, Repr

structure Ring where
  session : String
  entries : List LogEntry
  deriving DecidableEq, Repr

/- `push_back` after a `pop_front` when the ring is full. -/
def Ring.push (r : Ring) (e : LogEntry) : Ring :=
  {r with entries := (if logHistoryCapacity≤r.entries.length then r.entries.tail else r.entries)++[e]}

/-- `spawn_log_drainer`: `unsent` is the line that is in the ring and not yet broadcast. -/
structure Drainer where
  ring : Nat
  session : String
  stream : String
  unsent : Option LogEntry
  deriving DecidableEq, Repr

/-- An event sent into the broadcast channel, with the log line it carries. -/
structure Posted where
  event : Event
  line : Option Line
  deriving DecidableEq, Repr

inductive Outgoing
  | response (r : Response)
  | event (e : Event)
  deriving DecidableEq, Repr

/-- The reader as an answer, the reader from a ring, or a forwarder from a place of the channel. -/
inductive Origin
  | answer
  | replay (line : Line)
  | live (index : Nat)
  deriving DecidableEq, Repr

structure Item where
  msg : Outgoing
  origin : Origin
  deriving DecidableEq, Repr

inductive Status
  | running
  | aborted
  | ended
  deriving DecidableEq, Repr

/-- `event_forwarder`: `hand` is the event it is sending to the queue. -/
structure Forwarder where
  pos : Nat
  topics : List String
  hand : Option Item
  status : Status
  deriving DecidableEq, Repr

inductive Work
  | session (name : String)
  | every
  | clone (ring : Nat)
  | lines (session : String) (entries : List LogEntry)
  deriving DecidableEq, Repr

def workOf (topic : String) : List Work :=
  (match stripPrefix "logs:" topic with
    | some session => [.session session]
    | none => [])++if topic = "logs" then [.every] else []

inductive Reader
  | reading
  | calling (id : Nat) (op : Operation) (code : OpError → ErrorCode)
  | subscribing (id : Nat) (topics : List String)
  | replaying (id : Nat) (topics : List String) (rx : Nat) (work : List Work)
  | responding (r : Response)
  | closed

inductive Writer
  | idle
  | writing (item : Item) (left : Bytes)
  | closed
  deriving DecidableEq, Repr

inductive Mark
  | helloAccepted
  | executed (op : Operation)
  deriving DecidableEq, Repr

/-- A ring cloned for a subscription, and how many lines there were by then. -/
structure Shot where
  session : String
  ring : Nat
  lines : List Line
  upTo : Nat
  deriving DecidableEq, Repr

/-- What had been broadcast and queued when the receiver was opened, and the rings replayed to it. -/
structure Subscription where
  topics : List String
  openedAt : Nat
  sentAt : Nat
  shots : List Shot
  deriving DecidableEq, Repr

structure State where
  unread : Bytes
  eof : Bool
  reader : Reader
  negotiated : Bool
  /-- the reader's `forwarder` handle -/
  handle : Option Nat
  forwarders : List Forwarder
  queue : List Item
  writer : Writer
  wire : Bytes
  sessions : List (String × Nat)
  rings : List Ring
  drainers : List Drainer
  posted : List Posted
  -- observed only
  received : Bytes
  requests : List Request
  trace : List Mark
  sent : List Item
  written : List Item
  produced : List Line
  sub : Option Subscription

def init : State where
  unread := []
  eof := false
  reader := .reading
  negotiated := false
  handle := none
  forwarders := []
  queue := []
  writer := .idle
  wire := []
  sessions := []
  rings := []
  drainers := []
  posted := []
  received := []
  requests := []
  trace := []
  sent := []
  written := []
  produced := []
  sub := none

def State.enqueue (s : State) (i : Item) : State :=
  {s with queue := s.queue++[i], sent := s.sent++[i]}

def State.executed (s : State) (op : Operation) : State := {s with trace := s.trace++[.executed op]}

def abortForwarder (f : Forwarder) : Forwarder :=
  if f.status=.running then {f with status := .aborted} else f

/- `forwarder.take()` and `h.abort()`: the task ends when it is next cancelled. -/
def State.abort (s : State) : State :=
  {s with
    handle := none
    forwarders := match s.handle with
      | some k => s.forwarders.modify k abortForwarder
      | none => s.forwarders}

/- The loop of `reader_task` was left by `break`. -/
def State.hangUp (s : State) : State := {s.abort with reader := .closed}

def dispatched (request : Request) : Reader :=
  match dispatch request.method with
  | .reply e => .responding (.failure request.id e)
  | .call op code => .calling request.id op code
  | .subscribe topics => .subscribing request.id topics

def handleRequest (c : Coders) (request : Request) (s : State) : State :=
  if s.negotiated then {s with reader := dispatched request}
  else
    {s with
      reader := .responding (handleHelloGate c.hello request).1
      negotiated := (handleHelloGate c.hello request).2
      trace := if (handleHelloGate c.hello request).2 then s.trace++[.helloAccepted] else s.trace}

/- Up to the first await. An end of file inside the length is a clean end; inside the payload it is an
error, and the forwarder is not aborted. -/
def readRequest (c : Coders) (s : State) : Option State :=
  match s.reader with
  | .reading =>
      match scan maxFrameSize s.unread with
      | .whole frame rest =>
          match decodeFrame c.request frame with
          | .ok request =>
              some (handleRequest c request {s with unread := rest, requests := s.requests++[request]})
          | .error _ => some {s with unread := rest}.hangUp
      | .tooLong _ => some {s with reader := .closed}
      | .short =>
          if !s.eof then none
          else if s.unread.length<4 then some s.hangUp
          else some {s with reader := .closed}
  | _ => none

def readError (s : State) : Option State :=
  match s.reader with
  | .reading => some {s with reader := .closed}
  | _ => none

def operate (o : Outcome) (s : State) : Option State :=
  match s.reader with
  | .calling id op code => some {s.executed op with reader := .responding (answer id code o)}
  | _ => none

/- The old forwarder is aborted and the new receiver opened. -/
abbrev State.resubscribe (s : State) (id : Nat) (topics : List String) : State :=
  {s.abort.executed .subscribeEvents with
    reader := .replaying id topics s.posted.length (topics.flatMap workOf)
    sub := some ⟨topics,s.posted.length,s.sent.length,[]⟩}

def subscribe (s : State) : Option State :=
  match s.reader with
  | .subscribing id topics => some (s.resubscribe id topics)
  | _ => none

def lookup (sessions : List (String × Nat)) (name : String) : Option Nat :=
  (sessions.find? (·.1 == name)).map Prod.snd

def Subscription.shoot (u : Subscription) (x : Shot) : Subscription := {u with shots := u.shots++[x]}

def lineItem (session : String) (e : LogEntry) : Item :=
  ⟨.event (.new (.log session e.stream e.text)),.replay e.line⟩

abbrev State.cloneRing (s : State) (id : Nat) (topics : List String) (rx r : Nat) (ring : Ring) (rest : List Work) :
    State :=
  {s with
    reader := .replaying id topics rx (.lines ring.session ring.entries::rest)
    sub := s.sub.map (·.shoot ⟨ring.session,r,ring.entries.map LogEntry.line,s.produced.length⟩)}

/- `replay_logs` takes the sessions lock, then the ring's; a closed queue ends the inner loop only. -/
def replay (s : State) : Option State :=
  match s.reader with
  | .replaying id topics rx (.session name::rest) =>
      let work:=match lookup s.sessions name with
        | some r => .clone r::rest
        | none => rest
      some {s.executed (.replayLogs name) with reader := .replaying id topics rx work}
  | .replaying id topics rx (.clone r::rest) =>
      match s.rings[r]? with
      | some ring => some (s.cloneRing id topics rx r ring rest)
      | none => none
  | .replaying id topics rx (.lines _ []::rest) =>
      some {s with reader := .replaying id topics rx rest}
  | .replaying id topics rx (.lines session (e::es)::rest) =>
      if s.writer=.closed then some {s with reader := .replaying id topics rx rest}
      else if s.queue.length<outQueueCapacity then
        some {s.enqueue (lineItem session e) with
          reader := .replaying id topics rx (.lines session es::rest)}
      else none
  | _ => none

/- `registry.list()` for a bare `logs` topic; the map has no order of its own. -/
def list (order : List String) (s : State) : Option State :=
  match s.reader with
  | .replaying id topics rx (.every::rest) =>
      if order.Perm (s.sessions.map Prod.fst) then
        some {s.executed .list with reader := .replaying id topics rx (order.map .session++rest)}
      else none
  | _ => none

abbrev State.spawn (s : State) (topics : List String) (rx : Nat) (r : Response) : State :=
  {s with
    forwarders := s.forwarders++[⟨rx,topics,none,.running⟩]
    handle := some s.forwarders.length
    reader := .responding r}

def spawnForwarder (c : Coders) (s : State) : Option State :=
  match s.reader with
  | .replaying id topics rx [] => some (s.spawn topics rx (succeed id c.unit))
  | _ => none

def respond (s : State) : Option State :=
  match s.reader with
  | .responding r =>
      if s.writer=.closed then some s.hangUp
      else if s.queue.length<outQueueCapacity then
        some {s.enqueue ⟨.response r,.answer⟩ with reader := .reading}
      else none
  | _ => none

def State.setForwarder (s : State) (k : Nat) (f : Forwarder) : State :=
  {s with forwarders := s.forwarders.set k f}

def Forwarder.took (f : Forwarder) (p : Posted) : Forwarder :=
  {f with
    pos := f.pos+1
    hand := if topicMatches p.event f.topics then some ⟨.event p.event,.live f.pos⟩ else none}

/- `Closed` cannot be received: the reader's registry owns a sender. -/
def poll (k : Nat) (s : State) : Option State :=
  match s.forwarders[k]? with
  | some f =>
      if f.status=.ended ∨ f.hand.isSome then none
      else match recv eventChannelCapacity s.posted f.pos with
        | .item p => some (s.setForwarder k (f.took p))
        | .lagged _ => some (s.setForwarder k {f with status := .ended})
        | .empty => none
  | none => none

def forward (k : Nat) (s : State) : Option State :=
  match s.forwarders[k]? with
  | some f =>
      match f.hand with
      | some i =>
          if f.status=.ended then none
          else if s.writer=.closed then
            some (s.setForwarder k {f with status := .ended, hand := none})
          else if s.queue.length<outQueueCapacity then
            some ((s.enqueue i).setForwarder k {f with hand := none})
          else none
      | none => none
  | none => none

def cancel (k : Nat) (s : State) : Option State :=
  match s.forwarders[k]? with
  | some f =>
      if f.status=.aborted then some (s.setForwarder k {f with status := .ended, hand := none})
      else none
  | none => none

def frameOf (c : Coders) (i : Item) : Option Bytes :=
  match i.msg with
  | .response r => framed c.response r
  | .event e => framed c.event e

def take (c : Coders) (s : State) : Option State :=
  match s.writer, s.queue with
  | .idle, i::rest =>
      match frameOf c i with
      | some frame => some {s with queue := rest, writer := .writing i frame}
      | none => some {s with queue := [], writer := .closed}
  | _, _ => none

def write (n : Nat) (s : State) : Option State :=
  match s.writer with
  | .writing i left =>
      if n=0 ∨ left.length<n then none
      else if n=left.length then
        some {s with wire := s.wire++left, written := s.written++[i], writer := .idle}
      else some {s with wire := s.wire++left.take n, writer := .writing i (left.drop n)}
  | _ => none

def writeError (s : State) : Option State :=
  match s.writer with
  | .writing _ _ => some {s with queue := [], writer := .closed}
  | _ => none

def Reader.isClosed : Reader → Bool
  | .closed => true
  | _ => false

/- `recv` returns `None`: the queue is empty and every sender is gone. -/
def drained (s : State) : Option State :=
  if s.writer=.idle ∧ s.queue=[] ∧ s.reader.isClosed ∧ s.forwarders.all (·.status=.ended) then
    some {s with writer := .closed}
  else none

def openSession (name : String) (s : State) : Option State :=
  if (lookup s.sessions name).isSome then none
  else some {s with
    sessions := s.sessions++[(name,s.rings.length)]
    rings := s.rings++[⟨name,[]⟩]}

def closeSession (name : String) (s : State) : Option State :=
  some {s with sessions := s.sessions.filter (·.1 != name)}

def spawnDrainer (name stream : String) (s : State) : Option State :=
  match lookup s.sessions name with
  | some r => some {s with drainers := s.drainers++[⟨r,name,stream,none⟩]}
  | none => none

def append (d : Nat) (text : String) (s : State) : Option State :=
  match s.drainers[d]? with
  | some dr =>
      if dr.unsent.isSome then none
      else
        let e : LogEntry := ⟨dr.stream,text,⟨dr.ring,d,s.produced.length⟩⟩
        some {s with
          rings := s.rings.modify dr.ring (·.push e)
          drainers := s.drainers.set d {dr with unsent := some e}
          produced := s.produced++[e.line]}
  | none => none

def publish (d : Nat) (s : State) : Option State :=
  match s.drainers[d]? with
  | some dr =>
      match dr.unsent with
      | some e => some {s with
          drainers := s.drainers.set d {dr with unsent := none}
          posted := s.posted++[⟨.new (.log dr.session e.stream e.text),some e.line⟩]}
      | none => none
  | none => none

/- Events of the registry and of the sessions; `Log` comes from drainers only. -/
def post (body : EventBody) (s : State) : Option State :=
  if body.isLog then none else some {s with posted := s.posted++[⟨.new body,none⟩]}

inductive Act
  | arrive (bytes : Bytes)
  | finish
  | read
  | readError
  | operate (o : Outcome)
  | subscribe
  | replay
  | list (order : List String)
  | spawnForwarder
  | respond
  | poll (k : Nat)
  | forward (k : Nat)
  | cancel (k : Nat)
  | take
  | write (n : Nat)
  | writeError
  | drained
  | openSession (name : String)
  | closeSession (name : String)
  | spawnDrainer (name stream : String)
  | append (d : Nat) (text : String)
  | publish (d : Nat)
  | post (body : EventBody)

def step (c : Coders) (s : State) : Act → Option State
  | .arrive bytes =>
      if s.eof then none
      else some {s with unread := s.unread++bytes, received := s.received++bytes}
  | .finish => some {s with eof := true}
  | .read => readRequest c s
  | .readError => readError s
  | .operate o => operate o s
  | .subscribe => subscribe s
  | .replay => replay s
  | .list order => list order s
  | .spawnForwarder => spawnForwarder c s
  | .respond => respond s
  | .poll k => poll k s
  | .forward k => forward k s
  | .cancel k => cancel k s
  | .take => take c s
  | .write n => write n s
  | .writeError => writeError s
  | .drained => drained s
  | .openSession name => openSession name s
  | .closeSession name => closeSession name s
  | .spawnDrainer name stream => spawnDrainer name stream s
  | .append d text => append d text s
  | .publish d => publish d s
  | .post body => post body s

end Waymux.Server.Connection
