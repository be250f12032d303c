import Mathlib.Logic.Function.Basic

/-!
# Control RPC at frame level (`Registry::session_control`, session `control::handle`)

Any number of calls share the mutex and the cached connection. An attempt is numbered when the
request frame has been written: from then on the session may execute it. `ByteLink` refines this
machine.
-/

namespace Waymux.Wire.Mailbox
open Function

/-- Where a call stands. `fresh` tells the connection opened by this call from
the cached one. -/
inductive CallPc (Resp : Type)
  | idle
  | queued
  | sending (fresh : Bool)
  | waiting (fresh : Bool) (attempt : Nat)
  | connecting
  | done (res : Option Resp)
  deriving DecidableEq, Repr

structure State (Req Resp Sess : Type) where
  sess : Sess
  holder : Option Nat
  slot : Bool
  reqs : Nat → Option Req
  calls : Nat → CallPc Resp
  next : Nat
  inbox : Nat → Option Nat
  replies : Nat → Option Resp
  log : List (Nat × Req × Resp)

inductive Act (Req : Type)
  | begin (c : Nat) (r : Req)
  | acquire (c : Nat) (encodes : Bool)
  | deliver (c : Nat)
  | serve (attempt : Nat) (answers : Bool)
  | hangup (attempt : Nat)
  | reply (c : Nat) (decodes : Bool)
  | lose (c : Nat)
  | connect (c : Nat) (ok : Bool)
  deriving DecidableEq, Repr

variable {Req Resp Sess : Type}

def init (sess : Sess) : State Req Resp Sess :=
  ⟨sess,none,false,fun _ => none,fun _ => .idle,0,fun _ => none,fun _ => none,[]⟩

namespace State

def setCall (s : State Req Resp Sess) (c : Nat) (pc : CallPc Resp) : State Req Resp Sess :=
  {s with calls := update s.calls c pc}

/- The call returns and its mutex guard is dropped. -/
def finish (s : State Req Resp Sess) (c : Nat) (res : Option Resp) : State Req Resp Sess :=
  {s.setCall c (.done res) with holder := none}

/- A call enters `session_control` with the entry's connection in hand. -/
def enter (s : State Req Resp Sess) (c : Nat) (r : Req) : State Req Resp Sess :=
  {s.setCall c .queued with reqs := update s.reqs c (some r)}

end State

variable (dispatch : Sess → Req → Sess × Resp)

/- A first copy may be executed after its attempt was given up: only the session empties the inbox. -/
def step (s : State Req Resp Sess) : Act Req → Option (State Req Resp Sess)
  | .begin c r =>
      match s.calls c with
      | .idle => some (s.enter c r)
      | _ => none
  | .acquire c encodes =>
      match s.calls c, s.holder with
      | .queued, none =>
          if encodes then
            some {s.setCall c (if s.slot then .sending false else .connecting) with
              holder := some c}
          else some (s.setCall c (.done none))
      | _, _ => none
  | .deliver c =>
      match s.calls c with
      | .sending fresh =>
          some {s.setCall c (.waiting fresh s.next) with
            next := s.next+1, inbox := update s.inbox s.next (some c)}
      | _ => none
  | .serve a answers =>
      match s.inbox a with
      | some c =>
          match s.reqs c with
          | some r =>
              some {s with
                sess := (dispatch s.sess r).1
                inbox := update s.inbox a none
                replies := update s.replies a
                  (if answers then some (dispatch s.sess r).2 else none)
                log := s.log++[(c,r,(dispatch s.sess r).2)]}
          | none => none
      | none => none
  | .hangup a => some {s with inbox := update s.inbox a none}
  | .reply c decodes =>
      -- an undecodable response is an error of the call, the stream stays cached
      match s.calls c with
      | .waiting _ a =>
          match s.replies a with
          | some resp => some (s.finish c (if decodes then some resp else none))
          | none => none
      | _ => none
  | .lose c =>
      match s.calls c with
      | .sending false | .waiting false _ => some {s.setCall c .connecting with slot := false}
      | .sending true | .waiting true _ => some {s.finish c none with slot := false}
      | _ => none
  | .connect c ok =>
      match s.calls c with
      | .connecting =>
          if ok then some {s.setCall c (.sending true) with slot := true}
          else some (s.finish c none)
      | _ => none

end Waymux.Wire.Mailbox
