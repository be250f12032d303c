import Waymux.Interleave.Runs
import Mathlib.Data.List.Infix

/-!
# Send queue of one viewer connection (`wsConn` in `server.go`)

A `select` is one step: it takes one of the cases that are ready, and its default only when none is.
The outcome of a socket write is part of the label.
-/

namespace Waymux.Bridge.SendQueue
open Interleave.Runs

variable {α : Type}

def wsSendBuffer : Nat := 64

/- wsWritePolicy -/
inductive Policy
  | dropOnFull
  | closeOnFull
  deriving DecidableEq, Repr

/- A call of `enqueue`: before its first select, before its second, in the
default case of a control message, and back at its caller. -/
inductive Call (α : Type)
  | idle
  | first (msg : α) (policy : Policy)
  | second (msg : α) (policy : Policy)
  | reaping (msg : α)
  | returned (msg : α) (policy : Policy) (delivered : Bool)
  deriving DecidableEq, Repr

/- `writeLoop`: at its select, in a socket write, and after its return with the
message whose write failed. The deferred functions close the socket, then `closed`. -/
inductive Writer (α : Type)
  | waiting
  | writing (msg : α)
  | returning (failed : Option α)
  | exited (failed : Option α)
  deriving DecidableEq, Repr

/- The code does not keep `accepted` and `written`, what went into the channel and what was written. -/
structure Conn (α : Type) where
  send : List α
  stopped : Bool
  writer : Writer α
  calls : Nat → Call α
  accepted : List α
  written : List α

def newWSConn : Conn α := ⟨[],false,.waiting,fun _ => .idle,[],[]⟩

def Conn.at (s : Conn α) (p : Nat) (c : Call α) : Conn α :=
  {s with calls := Function.update s.calls p c}

/- `once.Do(close(stopCh))` -/
def Conn.stop (s : Conn α) : Conn α := {s with stopped := true}

inductive Act (α : Type)
  | enqueue (p : Nat) (msg : α) (policy : Policy)
  | look (p : Nat)
  | accept (p : Nat)
  | leave (p : Nat)
  | full (p : Nat)
  | reap (p : Nat)
  | stop
  | take
  | quit
  | write (ok : Bool)
  | close
  deriving DecidableEq, Repr

/- The first select: a closed stopCh, or on to the second. -/
def look (s : Conn α) (p : Nat) : Option (Conn α) :=
  match s.calls p with
  | .first msg policy =>
      some (s.at p (if s.stopped then .returned msg policy false else .second msg policy))
  | _ => none

def accept (s : Conn α) (p : Nat) : Option (Conn α) :=
  match s.calls p with
  | .second msg policy =>
      if s.send.length<wsSendBuffer then
        some {s.at p (.returned msg policy true) with
          send := s.send++[msg]
          accepted := s.accepted++[msg]}
      else none
  | _ => none

def leave (s : Conn α) (p : Nat) : Option (Conn α) :=
  match s.calls p with
  | .second msg policy => if s.stopped then some (s.at p (.returned msg policy false)) else none
  | _ => none

def full (s : Conn α) (p : Nat) : Option (Conn α) :=
  match s.calls p with
  | .second msg policy =>
      if s.send.length<wsSendBuffer ∨ s.stopped then none
      else match policy with
        | .closeOnFull => some (s.at p (.reaping msg))
        | .dropOnFull => some (s.at p (.returned msg .dropOnFull false))
  | _ => none

def step (s : Conn α) : Act α → Option (Conn α)
  | .enqueue p msg policy =>
      match s.calls p with
      | .idle | .returned _ _ _ => some (s.at p (.first msg policy))
      | _ => none
  | .look p => look s p
  | .accept p => accept s p
  | .leave p => leave s p
  | .full p => full s p
  | .reap p =>
      match s.calls p with
      | .reaping msg => some (s.stop.at p (.returned msg .closeOnFull false))
      | _ => none
  | .stop => some s.stop
  | .take =>
      match s.writer, s.send with
      | .waiting, msg::rest => some {s with send := rest, writer := .writing msg}
      | _, _ => none
  | .quit =>
      match s.writer, s.stopped with
      | .waiting, true => some {s with writer := .returning none}
      | _, _ => none
  | .write ok =>
      match s.writer with
      | .writing msg =>
          if ok then some {s with writer := .waiting, written := s.written++[msg]}
          else some {s with writer := .returning (some msg)}
      | _ => none
  | .close =>
      match s.writer with
      | .returning failed => some {s with writer := .exited failed}
      | _ => none

variable {s t : Conn α} {a : Act α} {p : Nat}

inductive Turn (s : Conn α) : Act α → Conn α → Prop
  | enqueue (p : Nat) (msg : α) (policy : Policy) :
      s.calls p=.idle ∨ (∃ m q d,s.calls p=.returned m q d) →
      Turn s (.enqueue p msg policy) (s.at p (.first msg policy))
  | stopSeen (p : Nat) (msg : α) (policy : Policy) : s.calls p=.first msg policy → s.stopped=true →
      Turn s (.look p) (s.at p (.returned msg policy false))
  | onward (p : Nat) (msg : α) (policy : Policy) : s.calls p=.first msg policy → s.stopped=false →
      Turn s (.look p) (s.at p (.second msg policy))
  | accept (p : Nat) (msg : α) (policy : Policy) : s.calls p=.second msg policy →
      s.send.length<wsSendBuffer →
      Turn s (.accept p) {s.at p (.returned msg policy true) with
        send := s.send++[msg]
        accepted := s.accepted++[msg]}
  | leave (p : Nat) (msg : α) (policy : Policy) : s.calls p=.second msg policy → s.stopped=true →
      Turn s (.leave p) (s.at p (.returned msg policy false))
  | full (p : Nat) (msg : α) : s.calls p=.second msg .closeOnFull →
      wsSendBuffer ≤ s.send.length → s.stopped=false → Turn s (.full p) (s.at p (.reaping msg))
  | drop (p : Nat) (msg : α) : s.calls p=.second msg .dropOnFull →
      wsSendBuffer ≤ s.send.length → s.stopped=false →
      Turn s (.full p) (s.at p (.returned msg .dropOnFull false))
  | reap (p : Nat) (msg : α) : s.calls p=.reaping msg →
      Turn s (.reap p) (s.stop.at p (.returned msg .closeOnFull false))
  | stop : Turn s .stop s.stop
  | take (msg : α) (rest : List α) : s.writer=.waiting → s.send=msg::rest →
      Turn s .take {s with send := rest, writer := .writing msg}
  | quit : s.writer=.waiting → s.stopped=true → Turn s .quit {s with writer := .returning none}
  | wrote (msg : α) : s.writer=.writing msg →
      Turn s (.write true) {s with writer := .waiting, written := s.written++[msg]}
  | failed (msg : α) : s.writer=.writing msg →
      Turn s (.write false) {s with writer := .returning (some msg)}
  | close (failed : Option α) : s.writer=.returning failed →
      Turn s .close {s with writer := .exited failed}

theorem full_turn (h : full s p=some t) : Turn s (.full p) t := by
  unfold full at h
  split at h
  next msg policy hc =>
    obtain ⟨hfull,ht⟩ := Option.ite_none_left_eq_some.mp h
    rw [not_or,Nat.not_lt,Bool.not_eq_true] at hfull
    cases policy with
    | dropOnFull => cases ht; exact .drop p msg hc hfull.1 hfull.2
    | closeOnFull => cases ht; exact .full p msg hc hfull.1 hfull.2
  · cases h

theorem step_turn (h : step s a=some t) : Turn s a t := by
  cases a with
  | enqueue p msg policy =>
    simp only [step] at h
    split at h <;> cases h
    next hc => exact .enqueue p msg policy (.inl hc)
    next m q d hc => exact .enqueue p msg policy (.inr ⟨m,q,d,hc⟩)
  | look p =>
    simp only [step,look] at h
    split at h <;> cases h
    next msg policy hc =>
      cases hs : s.stopped with
      | true => exact .stopSeen p msg policy hc hs
      | false => exact .onward p msg policy hc hs
  | accept | leave =>
    simp only [step,accept,leave] at h
    repeat' split at h
    all_goals cases h
    constructor <;> assumption
  | full => exact full_turn h
  | reap | take | quit | close =>
    simp only [step] at h
    split at h <;> cases h
    constructor <;> assumption
  | stop => cases h; exact .stop
  | write ok =>
    simp only [step] at h
    split at h
    next msg hw => cases ok <;> cases h <;> constructor <;> exact hw
    · cases h

theorem calls_at (s : Conn α) (p : Nat) (c : Call α) (r : Nat) :
    (s.at p c).calls r=if r=p then c else s.calls r :=
  Function.update_apply ..

def Writer.held : Writer α → List α
  | .waiting => []
  | .writing msg => [msg]
  | .returning failed | .exited failed => failed.toList

def Balanced (s : Conn α) : Prop := s.written++s.writer.held++s.send=s.accepted

theorem step_balanced (hb : Balanced s) (h : Turn s a t) : Balanced t := by
  unfold Balanced at hb ⊢
  cases h with
  | accept p msg =>
    rw [← List.append_assoc]
    exact congrArg (·++[msg]) hb
  | take msg rest hw hq =>
    rw [hw,hq] at hb
    simpa [Writer.held] using hb
  | quit hw | wrote msg hw | failed msg hw | close failed hw =>
    rw [hw] at hb
    simpa [Writer.held] using hb
  | _ => exact hb

/-- A refused control message has found or made the connection stopping. -/
def Refused (s : Conn α) : Prop :=
  ∀ p msg,s.calls p=.returned msg .closeOnFull false → s.stopped=true

theorem Refused.at (hr : Refused s) {c : Call α}
    (hc : ∀ msg,c=.returned msg .closeOnFull false → s.stopped=true) : Refused (s.at p c) := by
  intro r msg hret
  rw [calls_at] at hret
  split at hret
  · exact hc msg hret
  · exact hr r msg hret

theorem step_refused (hr : Refused s) (h : Turn s a t) : Refused t := by
  cases h with
  | stopSeen _ _ _ _ hs | leave _ _ _ _ hs => exact hr.at fun _ _ => hs
  | accept => exact hr.at (s := s) nofun
  | reap | stop => exact fun _ _ _ => rfl
  | take | quit | wrote | failed | close => exact hr
  | _ => exact hr.at nofun

def Call.left : Call α → Nat
  | .idle | .returned _ _ _ => 0
  | .first _ _ => 3
  | .second _ _ => 2
  | .reaping _ => 1

def Act.caller : Act α → Option Nat
  | .look p | .accept p | .leave p | .full p | .reap p => some p
  | _ => none

/-- The call can always step, comes nearer to its return with each of its steps, and is changed by no step
of the others. -/
structure Nonblocking (s : Conn α) (p : Nat) : Prop where
  ready : 0<(s.calls p).left → ∃ a,a.caller=some p ∧ (step s a).isSome=true
  nearer : ∀ a t,step s a=some t → a.caller=some p → (t.calls p).left<(s.calls p).left
  kept : ∀ a t,step s a=some t → 0<(s.calls p).left → a.caller≠some p → t.calls p=s.calls p

theorem second_ready {msg : α} {policy : Policy} (hc : s.calls p=.second msg policy) :
    ∃ a,a.caller=some p ∧ (step s a).isSome=true := by
  by_cases hlt : s.send.length<wsSendBuffer
  · refine ⟨.accept p,rfl,?_⟩
    simp [step,accept,hc,hlt]
  cases hs : s.stopped with
  | true =>
    refine ⟨.leave p,rfl,?_⟩
    simp [step,leave,hc,hs]
  | false =>
    -- neither case is ready, so the default is
    refine ⟨.full p,rfl,?_⟩
    cases policy <;> simp [step,full,hc,hs,hlt]

theorem call_ready (h : 0<(s.calls p).left) : ∃ a,a.caller=some p ∧ (step s a).isSome=true := by
  cases hc : s.calls p with
  | first =>
    refine ⟨.look p,rfl,?_⟩
    simp [step,look,hc]
  | second => exact second_ready hc
  | reaping =>
    refine ⟨.reap p,rfl,?_⟩
    simp [step,hc]
  | _ => simp [hc,Call.left] at h

theorem turn_nearer (h : Turn s a t) (ha : a.caller=some p) : (t.calls p).left<(s.calls p).left := by
  cases h with
  | stopSeen q msg policy hc | onward q msg policy hc | accept q msg policy hc
  | leave q msg policy hc | full q msg hc | drop q msg hc | reap q msg hc =>
    cases ha
    simp [hc,Conn.at,Call.left]
  | _ => cases ha

theorem turn_kept (h : Turn s a t) (hp : 0<(s.calls p).left) (ha : a.caller≠some p) : t.calls p=s.calls p := by
  have other (q : Nat) (c : Call α) (hq : q≠p) : (s.at q c).calls p=s.calls p := by
    rw [calls_at,if_neg hq.symm]
  cases h with
  | enqueue q msg policy hc =>
    -- a producer that calls enqueue is not in the middle of a call
    refine other q _ ?_
    rintro rfl
    rcases hc with hc | ⟨m,r,d,hc⟩ <;> simp [hc,Call.left] at hp
  | stopSeen q | onward q | accept q | leave q | full q | drop q | reap q =>
    exact other q _ fun he => ha (congrArg some he)
  | _ => rfl

theorem nonblocking (s : Conn α) (p : Nat) : Nonblocking s p where
  ready := call_ready
  nearer _ _ h ha := turn_nearer (step_turn h) ha
  kept _ _ h hp ha := turn_kept (step_turn h) hp ha

structure Lawful (s : Conn α) : Prop where
  order : s.written <+: s.accepted ∧ s.written++s.writer.held <+: s.accepted
  control : ∀ p msg,s.calls p=.returned msg .closeOnFull false → s.stopped=true
  call : ∀ p,Nonblocking s p
  stop : ∃ t,step s .stop=some t ∧ t.stopped=true ∧ step t .stop=some t
  drop : ∀ p msg t,s.calls p=.second msg .dropOnFull → step s (.full p)=some t →
    t=s.at p (.returned msg .dropOnFull false)

theorem drop_untouched {msg : α} (hc : s.calls p=.second msg .dropOnFull)
    (h : step s (.full p)=some t) : t=s.at p (.returned msg .dropOnFull false) := by
  cases step_turn h with
  | full _ m hm => simp [hc] at hm
  | drop _ m hm =>
    obtain ⟨rfl,_⟩ := Call.second.inj (hc.symm.trans hm)
    rfl

/-- What reaches the socket is a first part of what was accepted, in order and each message once; a control
message is refused only by a stopping connection; calls never wait; and a cursor message that finds the
channel full changes nothing. -/
theorem send_queue {s : Conn α} (h : Reach step Free newWSConn s) : Lawful s := by
  have hb : Balanced s := h.keeps rfl fun hi _ ht => step_balanced hi (step_turn ht)
  have hstart : Refused (newWSConn : Conn α) := fun _ _ hc => by cases hc
  have hr : Refused s := h.keeps hstart fun hi _ ht => step_refused hi (step_turn ht)
  have hheld : s.written++s.writer.held <+: s.accepted := ⟨s.send,hb⟩
  refine ⟨⟨(List.prefix_append _ _).trans hheld,hheld⟩,hr,nonblocking s,?_,?_⟩
  · exact ⟨s.stop,rfl,rfl,rfl⟩
  · exact fun p msg t hc ht => drop_untouched hc ht

/- Two producers; the second write fails, and a call past its first select leaves when stop comes. -/
def failingWrite : List (Act Nat) :=
  [.enqueue 0 10 .closeOnFull,.look 0,.enqueue 1 11 .dropOnFull,.accept 0,.take,.look 1,.accept 1,
    .write true,.take,.enqueue 0 12 .closeOnFull,.look 0,.write false,.accept 0,.close,
    .enqueue 1 13 .closeOnFull,.look 1,.stop,.leave 1]

theorem send_queue_failing_write : ∃ s : Conn Nat,Reach step Free newWSConn s ∧
    s.accepted=[10,11,12] ∧ s.written=[10] ∧ s.calls 1=.returned 13 .closeOnFull false ∧
    Lawful s := by
  have hr : Reach step Free (newWSConn : Conn Nat) _ := reach_free failingWrite (by decide +kernel)
  refine ⟨_,hr,?_,?_,?_,send_queue hr⟩ <;> decide +kernel

end Waymux.Bridge.SendQueue
