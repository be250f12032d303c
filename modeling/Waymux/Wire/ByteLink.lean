import Mathlib.Logic.Function.Basic
import Waymux.Wire.FrameCodec

/-!
# Control RPC byte by byte (`Registry::session_control`, session `control::handle`)

Both ends move bytes in pieces of any size. Any I/O error drops the daemon's stream, and only the
attempt on the cached connection is repeated. The session reads on after that.
-/

namespace Waymux.Wire.ByteLink
open Framing.LengthPrefix FrameCodec Function

variable {Method Resp Sess : Type}

structure SessionCtlRequest (Method : Type) where
  id : Nat
  method : Method
  deriving DecidableEq, Repr

/-- `up` and `down` hold what is not yet read, `out` the rest of the response being written. `asks` names
the complete request frames in `up`: their numbers and the calls that wrote them. -/
structure Conn where
  up : Bytes
  down : Bytes
  out : Bytes
  serving : Bool
  asks : List (Nat × Nat)
  deriving DecidableEq, Repr

/- `fresh` tells the stream opened by this call from the cached one. -/
inductive CallPc (Resp : Type)
  | idle
  | queued
  | writing (fresh : Bool) (conn : Nat) (rest : Bytes)
  | reading (fresh : Bool) (conn : Nat) (ask : Nat) (got : Bytes)
  | connecting
  | done (res : Option Resp)
  deriving DecidableEq, Repr

/-- A request the session executed, the call whose frame it was, and the response. -/
structure Execution (Method Resp : Type) where
  call : Option Nat
  req : SessionCtlRequest Method
  resp : Resp
  deriving DecidableEq, Repr

structure State (Method Resp Sess : Type) where
  sess : Sess
  holder : Option Nat
  slot : Option Nat
  conns : Nat → Conn
  opened : Nat
  methods : Nat → Option Method
  bufs : Nat → Bytes
  calls : Nat → CallPc Resp
  asked : Nat
  log : List (Execution Method Resp)

inductive Act (Method : Type)
  | begin (c : Nat) (method : Method)
  | acquire (c : Nat)
  | write (c n : Nat)
  | read (c n : Nat)
  | fail (c : Nat)
  | connect (c : Nat) (ok : Bool)
  | serve (k : Nat)
  | push (k n : Nat)
  | hangup (k : Nat)
  deriving DecidableEq, Repr

def closed : Conn := ⟨[],[],[],false,[]⟩
def accepted : Conn := ⟨[],[],[],true,[]⟩

def init (sess : Sess) : State Method Resp Sess where
  sess := sess
  holder := none
  slot := none
  conns _ := closed
  opened := 0
  methods _ := none
  bufs _ := []
  calls _ := .idle
  asked := 0
  log := []

/- `handle` returns and its stream is closed: what it has not read is lost,
what it has written stays readable. -/
def Conn.ended (x : Conn) : Conn := {x with up := [], out := [], serving := false, asks := []}

namespace State

def setCall (s : State Method Resp Sess) (c : Nat) (pc : CallPc Resp) : State Method Resp Sess :=
  {s with calls := update s.calls c pc}

def setConn (s : State Method Resp Sess) (k : Nat) (x : Conn) : State Method Resp Sess :=
  {s with conns := update s.conns k x}

/- The call returns and its mutex guard is dropped. -/
def finish (s : State Method Resp Sess) (c : Nat) (res : Option Resp) : State Method Resp Sess :=
  {s.setCall c (.done res) with holder := none}

/- `rpc` has returned an error: the stream is dropped, and a call that had
used the cached one goes on to reconnect. -/
def lose (s : State Method Resp Sess) (c : Nat) (fresh : Bool) : State Method Resp Sess :=
  if fresh then {s.finish c none with slot := none}
  else {s.setCall c .connecting with slot := none}

end State

variable (reqCoder : Msgpack (SessionCtlRequest Method)) (respCoder : Msgpack Resp)
  (dispatch : Sess → SessionCtlRequest Method → Sess × Resp)

/- write_all: the frame goes out in pieces; with its last byte the request is
complete on the wire. -/
def writeStep (s : State Method Resp Sess) (c n : Nat) : Option (State Method Resp Sess) :=
  match s.calls c with
  | .writing fresh k rest =>
      let x:=s.conns k
      if x.serving ∧ 0<n ∧ n≤rest.length then
        if n=rest.length then
          some {(s.setConn k {x with up := x.up++rest, asks := x.asks++[(s.asked,c)]}).setCall c
            (.reading fresh k s.asked []) with asked := s.asked+1}
        else some ((s.setConn k {x with up := x.up++rest.take n}).setCall c
          (.writing fresh k (rest.drop n)))
      else none
  | _ => none

/- Two read_exact calls: the length, then as many bytes as it says. -/
def readStep (s : State Method Resp Sess) (c n : Nat) : Option (State Method Resp Sess) :=
  match s.calls c with
  | .reading fresh k ask got =>
      let x:=s.conns k
      if 0<n ∧ n≤x.down.length ∧ n≤wanted got then
        let t:=s.setConn k {x with down := x.down.drop n}
        match scan maxFrameSize (got++x.down.take n) with
        | .short => some (t.setCall c (.reading fresh k ask (got++x.down.take n)))
        | .tooLong _ => some (t.lose c fresh)
        | .whole payload _ => some (t.finish c (decodeFrame respCoder payload).toOption)
      else none
  | _ => none

/- One turn of the loop in `handle`. -/
def serveStep (s : State Method Resp Sess) (k : Nat) : Option (State Method Resp Sess) :=
  let x:=s.conns k
  if x.serving ∧ x.out=[] then
    match scan maxFrameSize x.up with
    | .short => none
    | .tooLong _ => some (s.setConn k x.ended)
    | .whole frame rest =>
        match decodeFrame reqCoder frame with
        | .error _ => some (s.setConn k x.ended)
        | .ok req =>
            let r:=dispatch s.sess req
            let e : Execution Method Resp := ⟨x.asks.head?.map Prod.snd,req,r.2⟩
            let t:={s with sess := r.1, log := s.log++[e]}
            match framed respCoder r.2 with
            | none => some (t.setConn k x.ended)
            | some buf => some (t.setConn k {x with up := rest, asks := x.asks.tail, out := buf})
  else none

def step (s : State Method Resp Sess) : Act Method → Option (State Method Resp Sess)
  | .begin c method =>
      match s.calls c with
      | .idle => some {s.setCall c .queued with methods := update s.methods c (some method)}
      | _ => none
  | .acquire c =>
      match s.calls c, s.holder, s.methods c with
      | .queued, none, some method =>
          match framed reqCoder ⟨1,method⟩ with
          | none => some (s.setCall c (.done none))
          | some buf =>
              let pc:=match s.slot with
                | some k => .writing false k buf
                | none => .connecting
              some {s.setCall c pc with holder := some c, bufs := update s.bufs c buf}
      | _, _, _ => none
  | .write c n => writeStep s c n
  | .read c n => readStep respCoder s c n
  | .fail c =>
      match s.calls c with
      | .writing fresh _ _ | .reading fresh _ _ _ => some (s.lose c fresh)
      | _ => none
  | .connect c ok =>
      match s.calls c with
      | .connecting =>
          if ok then some {(s.setConn s.opened accepted).setCall c (.writing true s.opened (s.bufs c)) with
            slot := some s.opened, opened := s.opened+1}
          else some (s.finish c none)
      | _ => none
  | .serve k => serveStep reqCoder respCoder dispatch s k
  | .push k n =>
      let x:=s.conns k
      if x.serving ∧ 0<n ∧ n≤x.out.length then
        some (s.setConn k {x with down := x.down++x.out.take n, out := x.out.drop n})
      else none
  | .hangup k =>
      if (s.conns k).serving then some (s.setConn k (s.conns k).ended) else none

end Waymux.Wire.ByteLink
