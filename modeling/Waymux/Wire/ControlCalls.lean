import Waymux.Wire.Delivery

/-!
# What `session_control` promises

Which response a call returns, and how often the session executes its request, read off the frame
machine.
-/

namespace Waymux.Wire.ControlCalls
open Framing.LengthPrefix FrameCodec ByteLink Streams Delivery Interleave.Runs Interleave.Logs
open Interleave.Simulation

variable {Method Resp Sess : Type} {reqCoder : Msgpack (SessionCtlRequest Method)}
  {respCoder : Msgpack Resp} {dispatch : Sess → SessionCtlRequest Method → Sess × Resp}
  {s : State Method Resp Sess} {v : Sess}

theorem simulated : Simulates (step reqCoder respCoder dispatch) Free
    (Mailbox.step (frameDispatch reqCoder respCoder dispatch)) Free (Sim reqCoder respCoder) := by
  intro s t a m hs _ h
  refine (followed hs h).imp id ?_
  rintro ⟨x,m',hx,hs',_⟩
  exact ⟨x,m',trivial,hx,hs'⟩

/-- `InjectKey`, the session's answer to it, and the keys a session has seen. -/
structure InjectKey where
  keycode : Nat
  pressed : Bool
  modifiers : Nat
  deriving DecidableEq, Repr

structure Answer where
  id : Nat
  ok : Bool
  deriving DecidableEq, Repr

def pressA : InjectKey := ⟨30,true,0⟩

def deliverKey (keys : List InjectKey) (req : SessionCtlRequest InjectKey) : List InjectKey × Answer :=
  (keys++[req.method],⟨req.id,true⟩)

/- The map id, method, params as `write_named` lays it out for `pressA`. -/
def pressABytes : Bytes :=
  [0x83,0xa2,0x69,0x64,0x01,0xa6,0x6d,0x65,0x74,0x68,0x6f,0x64,0xaa,0x69,0x6e,0x6a,0x65,0x63,0x74,0x5f,0x6b,0x65,0x79,
   0xa6,0x70,0x61,0x72,0x61,0x6d,0x73,0x83,
   0xa7,0x6b,0x65,0x79,0x63,0x6f,0x64,0x65,0x1e,
   0xa5,0x73,0x74,0x61,0x74,0x65,0xa7,0x70,0x72,0x65,0x73,0x73,0x65,0x64,
   0xa9,0x6d,0x6f,0x64,0x69,0x66,0x69,0x65,0x72,0x73,0x00]

/- The map id, ok, result with an empty result. -/
def okBytes : Bytes :=
  [0x83,0xa2,0x69,0x64,0x01,0xa2,0x6f,0x6b,0xc3,0xa6,0x72,0x65,0x73,0x75,0x6c,0x74,0x80]

def keyCoder : Msgpack (SessionCtlRequest InjectKey) where
  write r := if r=⟨1,pressA⟩ then some pressABytes else none
  read b := if b=pressABytes then some ⟨1,pressA⟩ else none

def answerCoder : Msgpack Answer where
  write r := if r=⟨1,true⟩ then some okBytes else none
  read b := if b=okBytes then some ⟨1,true⟩ else none

abbrev keyStep := step keyCoder answerCoder deliverKey

/-- A request goes out on connection `k`, is executed and answered. -/
def served (c k : Nat) : List (Act InjectKey) :=
  [.write c 10,.write c 59,.serve k,.push k 21,.read c 4,.read c 17]

def firstCall : List (Act InjectKey) :=
  ([.begin 0 pressA,.acquire 0,.connect 0 true] : List (Act InjectKey))++served 0 0

/-- A call that returns `Ok` returns what arrives of the response the session
gave when it executed the frame of that call. -/
def OwnResponse (reqCoder : Msgpack (SessionCtlRequest Method)) (respCoder : Msgpack Resp)
    (s : State Method Resp Sess) : Prop :=
  ∀ c r,s.calls c=.done (some r) → ∃ method,s.methods c=some method ∧
    ∃ e∈s.log,e.call=some c ∧ Carried reqCoder ⟨1,method⟩ e.req ∧ Carried respCoder e.resp r

theorem decode_nil {α : Type} {mp : Msgpack α} {x : α} : decodeFrame mp []≠.ok x := by
  simp [decodeFrame]

theorem carried_of_getD {α : Type} {mp : Msgpack α} {x y : α}
    (h : decodeFrame mp ((framed mp x).getD [])=.ok y) : Carried mp x y := by
  cases hf : framed mp x with
  | none =>
    rw [hf] at h
    exact absurd h decode_nil
  | some f =>
    rw [hf] at h
    exact ⟨f,hf,h⟩

/-- For every interleaving of calls, I/O failures and reconnects, whatever the
msgpack coders do. -/
theorem response_matches_request (hr : Reach (step reqCoder respCoder dispatch) Free (init v) s) :
    OwnResponse reqCoder respCoder s := by
  intro c r hc
  obtain ⟨m,hm,hs⟩ := simulated.reach (sim_init v) hr
  obtain ⟨f,hf,hdec⟩ : ∃ f,m.calls c=.done (some f) ∧ decodeFrame respCoder f=.ok r := by
    have hp:=hs.calls c
    rw [hc] at hp
    revert hp
    generalize m.calls c=q
    rintro (_ | _ | _ | _ | _ | _ | ⟨_,f,hdec⟩)
    exact ⟨f,rfl,hdec⟩
  obtain ⟨g,hg,hlog⟩ := (Attempts.matched_reach hm).answered c f hf
  obtain ⟨e,he,hcall,hreq,hresp⟩ := exists_of_forall₂ hs.log hlog
  rw [hs.reqs c] at hg
  obtain ⟨method,hmeth,rfl⟩ := Option.map_eq_some_iff.mp hg
  exact ⟨method,hmeth,e,he,hcall,carried_of_getD hreq,carried_of_getD (hresp ▸ hdec)⟩

/-- A second call whose first copy goes down with the cached connection. -/
def lostBeforeReading : List (Act InjectKey) :=
  firstCall ++
  ([.begin 1 pressA,.acquire 1,.write 1 69,.hangup 0,.fail 1,.connect 1 true] : List (Act InjectKey)) ++
  served 1 1

theorem response_matches_request_two_calls : ∃ s,Reach keyStep Free (init []) s ∧
    s.calls 0=.done (some ⟨1,true⟩) ∧ s.calls 1=.done (some ⟨1,true⟩) ∧
    OwnResponse keyCoder answerCoder s := by
  have hr : Reach keyStep Free (init []) _ := reach_free lostBeforeReading (by decide +kernel)
  refine ⟨_,hr,?_,?_,response_matches_request hr⟩ <;> decide +kernel

def executions (s : State Method Resp Sess) (c : Nat) : Nat :=
  s.log.countP fun e => e.call=some c

def AtMostOnce (s : State Method Resp Sess) : Prop := ∀ c,executions s c≤1

/-- When the attempt on the cached connection fails with its request written,
the handler of that connection has ended without executing it. -/
def FailsUnseen (s : State Method Resp Sess) : Act Method → Prop
  | .fail c => match s.calls c with
    | .reading false k _ _ => (s.conns k).serving=false ∧ ∀ e∈s.log,e.call≠some c
    | _ => True
  | _ => True

theorem careful_of_unseen {m : Mailbox.State Bytes Bytes Sess} {c ask : Nat}
    (hs : Sim reqCoder respCoder s m) (hok : FailsUnseen s (.fail c))
    (hw : m.calls c=.waiting false ask) : m.inbox ask=none ∧ ∀ e∈m.log,e.1≠c := by
  obtain ⟨k,got,hc⟩ : ∃ k got,s.calls c=.reading false k ask got := by
    have hp:=hs.calls c
    rw [hw] at hp
    revert hp
    generalize s.calls c=q
    rintro (_ | _ | _ | ⟨_,k,_,got⟩)
    exact ⟨k,got,rfl⟩
  obtain ⟨hserv,hlog⟩ : (s.conns k).serving=false ∧ ∀ e∈s.log,e.call≠some c := by
    simpa [FailsUnseen,hc] using hok
  refine ⟨?_,fun y hy he => ?_⟩
  · have hh:=hs.ready.mutex c (by simp [hc,active])
    cases hin : m.inbox ask with
    | none => rfl
    | some d =>
      obtain ⟨j,hj⟩ := (hs.inbox ask d).mp hin
      rcases (hs.current.of_reading hh hc).2 with ⟨_,hone,_⟩ | ⟨_,_,_,_,_,hnone,_⟩
      · rw [hone j d hj] at hj
        rcases hs.parcels.parcel k with ⟨hasks,_⟩ | ⟨_,_,_,hserv',_⟩
        · simp [hasks] at hj
        · simp [hserv] at hserv'
      · exact absurd hj (hnone j d)
  · obtain ⟨e,hem,hcall,_⟩ := exists_of_forall₂ hs.log hy
    exact hlog e hem (he ▸ hcall)

theorem simulated_careful : Simulates (step reqCoder respCoder dispatch) FailsUnseen
    (Mailbox.step (frameDispatch reqCoder respCoder dispatch)) Attempts.Careful
    (Sim reqCoder respCoder) := by
  intro s t a m hs hok h
  refine (followed hs h).imp id ?_
  rintro ⟨x,m',hx,hs',hlose⟩
  refine ⟨x,m',fun c ask hl hw => ?_,hx,hs'⟩
  cases hlose c hl
  exact careful_of_unseen hs hok hw

theorem executions_eq {l : List (Execution Method Resp)} {l' : List (Nat × Bytes × Bytes)}
    (h : List.Forall₂ (SameExec reqCoder respCoder) l l') (c : Nat) :
    (l.countP fun e => e.call=some c)=(l'.map Prod.fst).count c := by
  induction h with
  | nil => rfl
  | cons hxy _ ih => simp [List.countP_cons,List.count_cons,hxy.1,ih]

/-- In every run that repeats a request only when its first copy was not
executed and never will be, no call is executed twice. -/
theorem executed_at_most_once
    (hr : Reach (step reqCoder respCoder dispatch) FailsUnseen (init v) s) : AtMostOnce s := by
  intro c
  obtain ⟨m,hm,hs⟩ := simulated_careful.reach (sim_init v) hr
  have hlog:=(Attempts.once_reach hm).log
  rw [executions,executions_eq hs.log c]
  exact List.nodup_iff_count_le_one.mp hlog c

instance : Decidable (FailsUnseen s a) := by
  unfold FailsUnseen
  repeat' split
  all_goals infer_instance

theorem executed_at_most_once_hangup : ∃ s,Reach keyStep FailsUnseen (init []) s ∧
    s.calls 1=.done (some ⟨1,true⟩) ∧ executions s 1=1 ∧ AtMostOnce s := by
  have hr : Reach keyStep FailsUnseen (init []) _ :=
    reach_exec lostBeforeReading (meets_decided (by decide +kernel)) (by decide +kernel)
  refine ⟨_,hr,?_,?_,executed_at_most_once hr⟩ <;> decide +kernel

/-- The session has executed the request when the cached connection breaks. -/
def lostAfterExecution : List (Act InjectKey) :=
  firstCall ++
    ([.begin 1 pressA,.acquire 1,.write 1 69,.serve 0,.hangup 0,.fail 1,.connect 1 true] : List (Act InjectKey)) ++
    served 1 1

theorem retry_executes_twice : ∃ s,Reach keyStep Free (init []) s ∧
    s.calls 1=.done (some ⟨1,true⟩) ∧ s.sess=[pressA,pressA,pressA] ∧ executions s 1=2 ∧
    ¬AtMostOnce s := by
  have hr : Reach keyStep Free (init []) _ := reach_free lostAfterExecution (by decide +kernel)
  refine ⟨_,hr,?_,?_,?_,fun honce => absurd (honce 1) ?_⟩ <;> decide +kernel

end Waymux.Wire.ControlCalls
