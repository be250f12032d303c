import Waymux.Bridge.SendQueue
import Waymux.Viewer.Protocol
import Mathlib.Data.List.Perm.Basic

/-!
# Cursor messages to the viewer connections (`server.go`)

The frame pump enqueues each cursor message to a snapshot of the connections, with `dropOnFull`.
-/

namespace Waymux.Bridge.CursorBroadcast
open Interleave.Runs List Function Option
open Viewer.Protocol (tagCursorImage tagCursorPos tagShutdown)
open Viewer.Socket (Frame CursorImageMessage CursorPosMessage cursorImageToWS cursorPosToWS)
open SendQueue (Conn Call Policy newWSConn)

/- A `wsOutMsg`. config, answer, ice and stats messages are `control`. -/
inductive Message
  | cursorImage (m : CursorImageMessage)
  | cursorPos (m : CursorPosMessage)
  | control (text : String)
  | ping
  deriving DecidableEq, Repr

def Message.image? : Message → Option CursorImageMessage
  | .cursorImage m => some m
  | _ => none

def Message.isControl : Message → Bool
  | .control _ | .ping => true
  | _ => false

/- `naluPumpLoop`: before ReadFrame, before snapshotConns, in the loop of
broadcastJSON, and in the call of writeJSON for `c`. -/
inductive Pump
  | reading
  | snapshot (msg : Message)
  | sending (msg : Message) (rest : List Nat)
  | inside (msg : Message) (c : Nat) (rest : List Nat)
  | ended
  deriving DecidableEq, Repr

/- `images` are the CursorImage messages received, `shown` counts those with a snapshot, `joinedAt` is that
count at a registration, `opened` lists all that ever were. The code has none of these. -/
structure State where
  conns : Nat → Conn Message
  wsConns : List Nat
  pump : Pump
  opened : List Nat
  images : List CursorImageMessage
  shown : Nat
  joinedAt : Nat → Nat

def start : State := ⟨fun _ => newWSConn,[],.reading,[],[],0,fun _ => 0⟩

def pumpId : Nat := 0

/- Steps on a connection that are not the pump's. -/
def foreign : SendQueue.Act Message → Bool
  | .enqueue p msg policy => p≠pumpId && msg.isControl && policy=.closeOnFull
  | .look p | .accept p | .leave p | .full p | .reap p => p≠pumpId
  | _ => true

inductive Act
  | register (c : Nat)
  | unregister (c : Nat)
  | queue (c : Nat) (a : SendQueue.Act Message)
  | receive (f : Frame)
  | hangUp
  | snapshot (order : List Nat)
  | send
  | call (a : SendQueue.Act Message)
  | next
  deriving DecidableEq, Repr

def setConn (s : State) (c : Nat) (q : Conn Message) : State :=
  {s with conns := update s.conns c q}

/- `switch f.Tag`; NALUs and hints do not reach the connections. -/
def receive (s : State) (f : Frame) : State :=
  if f.tag=tagCursorImage then
    {s with pump := .snapshot (.cursorImage (cursorImageToWS f)), images := s.images++[cursorImageToWS f]}
  else if f.tag=tagCursorPos then {s with pump := .snapshot (.cursorPos (cursorPosToWS f))}
  else if f.tag=tagShutdown then {s with pump := .ended}
  else s

def isReturned : Call Message → Bool
  | .returned _ _ _ => true
  | _ => false

/- The registry is a map, so its keys come in any order. -/
def step (s : State) : Act → Option State
  | .register c =>
      if c∈s.opened then none
      else some {setConn s c newWSConn with
        wsConns := s.wsConns++[c]
        opened := s.opened++[c]
        joinedAt := update s.joinedAt c s.shown}
  | .unregister c => some {s with wsConns := s.wsConns.filter (·≠c)}
  | .queue c a =>
      if c∈s.opened ∧ foreign a=true then (SendQueue.step (s.conns c) a).map (setConn s c) else none
  | .receive f =>
      match s.pump with
      | .reading => some (receive s f)
      | _ => none
  | .hangUp =>
      match s.pump with
      | .reading => some {s with pump := .ended}
      | _ => none
  | .snapshot order =>
      match s.pump with
      | .snapshot msg =>
          if order.Perm s.wsConns then
            some {s with
              pump := .sending msg order
              shown := if msg.image?.isSome then s.shown+1 else s.shown}
          else none
      | _ => none
  | .send =>
      match s.pump with
      | .sending msg (c::rest) =>
          (SendQueue.step (s.conns c) (.enqueue pumpId msg .dropOnFull)).map fun q =>
            {setConn s c q with pump := .inside msg c rest}
      | .sending _ [] => some {s with pump := .reading}
      | _ => none
  | .call a =>
      match s.pump with
      | .inside _ c _ =>
          if a.caller=some pumpId then (SendQueue.step (s.conns c) a).map (setConn s c) else none
      | _ => none
  | .next =>
      match s.pump with
      | .inside msg c rest =>
          if isReturned ((s.conns c).calls pumpId) then some {s with pump := .sending msg rest} else none
      | _ => none

/-- No message is dropped because a channel is full. -/
def NoDrop (_ : State) : Act → Prop
  | .queue _ (.full _) | .call (.full _) => False
  | _ => True

instance (s : State) (a : Act) : Decidable (NoDrop s a) := by
  unfold NoDrop
  split <;> infer_instance

def lastImage (l : List Message) : Option CursorImageMessage := (l.filterMap Message.image?).getLast?

def Open (s : State) (c : Nat) : Prop := c∈s.wsConns ∧ (s.conns c).stopped=false

/-! ### What a step can do -/

variable {s t : State} {a : Act} {c : Nat}

inductive Turn (s : State) : Act → State → Prop
  | register (c : Nat) : c∉s.opened → Turn s (.register c) {setConn s c newWSConn with
      wsConns := s.wsConns++[c]
      opened := s.opened++[c]
      joinedAt := update s.joinedAt c s.shown}
  | unregister (c : Nat) : Turn s (.unregister c) {s with wsConns := s.wsConns.filter (·≠c)}
  | queue (c : Nat) (a : SendQueue.Act Message) (q : Conn Message) : c∈s.opened → foreign a=true →
      SendQueue.step (s.conns c) a=some q → Turn s (.queue c a) (setConn s c q)
  | image (f : Frame) (m : CursorImageMessage) : s.pump=.reading →
      Turn s (.receive f) {s with pump := .snapshot (.cursorImage m), images := s.images++[m]}
  | pos (f : Frame) (m : CursorPosMessage) : s.pump=.reading →
      Turn s (.receive f) {s with pump := .snapshot (.cursorPos m)}
  | ignored (f : Frame) : s.pump=.reading → Turn s (.receive f) s
  | ended (a : Act) : s.pump=.reading → Turn s a {s with pump := .ended}
  | snapshot (order : List Nat) (msg : Message) : s.pump=.snapshot msg → order.Perm s.wsConns →
      Turn s (.snapshot order) {s with
        pump := .sending msg order
        shown := if msg.image?.isSome then s.shown+1 else s.shown}
  | send (msg : Message) (c : Nat) (rest : List Nat) (q : Conn Message) :
      s.pump=.sending msg (c::rest) →
      SendQueue.step (s.conns c) (.enqueue pumpId msg .dropOnFull)=some q →
      Turn s .send {setConn s c q with pump := .inside msg c rest}
  | finish (msg : Message) : s.pump=.sending msg [] → Turn s .send {s with pump := .reading}
  | call (a : SendQueue.Act Message) (msg : Message) (c : Nat) (rest : List Nat) (q : Conn Message) :
      s.pump=.inside msg c rest → a.caller=some pumpId → SendQueue.step (s.conns c) a=some q →
      Turn s (.call a) (setConn s c q)
  | next (msg : Message) (c : Nat) (rest : List Nat) : s.pump=.inside msg c rest →
      isReturned ((s.conns c).calls pumpId)=true → Turn s .next {s with pump := .sending msg rest}

theorem receive_turn (f : Frame) (hp : s.pump=.reading) : Turn s (.receive f) (receive s f) := by
  unfold receive
  split
  · exact .image f _ hp
  split
  · exact .pos f _ hp
  split
  · exact .ended _ hp
  · exact .ignored f hp

theorem step_turn (h : step s a=some t) : Turn s a t := by
  cases a with
  | register c =>
    obtain ⟨hc,⟨⟩⟩ := ite_none_left_eq_some.mp h
    exact .register c hc
  | unregister c =>
    cases h
    exact .unregister c
  | queue c a =>
    obtain ⟨⟨hc,hf⟩,ht⟩ := ite_none_right_eq_some.mp h
    obtain ⟨q,hq,rfl⟩ := map_eq_some_iff.mp ht
    exact .queue c a q hc hf hq
  | receive f =>
    simp only [step] at h
    split at h <;> cases h
    exact receive_turn f ‹_›
  | hangUp =>
    simp only [step] at h
    split at h <;> cases h
    exact .ended _ ‹_›
  | snapshot | next =>
    simp only [step] at h
    split at h
    · obtain ⟨hg,⟨⟩⟩ := ite_none_right_eq_some.mp h
      constructor <;> assumption
    · cases h
  | send =>
    simp only [step] at h
    split at h
    next msg c rest hp =>
      obtain ⟨q,hq,rfl⟩ := map_eq_some_iff.mp h
      exact .send msg c rest q hp hq
    next msg hp => cases h; exact .finish msg hp
    · cases h
  | call a =>
    simp only [step] at h
    split at h
    next msg c rest hp =>
      obtain ⟨ha,ht⟩ := ite_none_right_eq_some.mp h
      obtain ⟨q,hq,rfl⟩ := map_eq_some_iff.mp ht
      exact .call a msg c rest q hp ha hq
    · cases h

/-! ### The queues -/

def underway : Call Message → Option Message
  | .first msg _ | .second msg _ | .reaping msg => some msg
  | _ => none

def Controls (q : Conn Message) : Prop :=
  ∀ p msg,p≠pumpId → underway (q.calls p)=some msg → msg.image?=none

theorem lastImage_append (l : List Message) (msg : Message) :
    lastImage (l++[msg])=msg.image?.or (lastImage l) := by
  unfold lastImage
  cases hm : msg.image? with
  | none | some => simp [filterMap_append,hm]

variable {q q' : Conn Message} {p : Nat} {msg : Message} {rest : List Nat}

theorem Controls.at (hq : Controls q) {k : Call Message}
    (hk : ∀ msg,p≠pumpId → underway k=some msg → msg.image?=none) : Controls (q.at p k) := by
  intro r msg hr hu
  rw [SendQueue.calls_at] at hu
  split at hu
  next he => exact hk msg (he ▸ hr) hu
  · exact hq r msg hr hu

structure Apart (q q' : Conn Message) : Prop where
  own : q'.calls pumpId=q.calls pumpId
  image : lastImage q'.accepted=lastImage q.accepted
  stopped : q'.stopped=false → q.stopped=false
  controls : Controls q'

theorem apart_at (hq : Controls q) {k : Call Message} (hp : p≠pumpId)
    (hk : ∀ msg,underway k=some msg → msg.image?=none) : Apart q (q.at p k) where
  own := by rw [SendQueue.calls_at,if_neg hp.symm]
  image := rfl
  stopped := id
  controls := hq.at fun msg _ => hk msg

theorem control_no_image (h : msg.isControl=true) : msg.image?=none := by
  cases msg with
  | control | ping => rfl
  | _ => cases h

theorem foreign_step {a : SendQueue.Act Message} (hq : Controls q) (h : SendQueue.Turn q a q')
    (hf : foreign a=true) : Apart q q' := by
  cases h with
  | enqueue p msg policy =>
    obtain ⟨⟨hp,hm⟩,_⟩ : (p≠pumpId ∧ msg.isControl=true) ∧ policy=.closeOnFull := by
      simpa [foreign] using hf
    refine apart_at hq hp fun m hu => ?_
    cases hu
    exact control_no_image hm
  | stopSeen | leave | drop => exact apart_at hq (of_decide_eq_true hf) nofun
  | onward p msg policy hc | full p msg hc =>
    have hp : p≠pumpId := of_decide_eq_true hf
    exact apart_at hq hp fun m hu => hq p m hp (by rw [hc]; exact hu)
  | accept p msg policy hc =>
    have hp : p≠pumpId := of_decide_eq_true hf
    have hm : msg.image?=none := hq p msg hp (by rw [hc]; rfl)
    obtain ⟨hown,_,hst,hctl⟩ :=
      apart_at hq (k := Call.returned msg policy true) hp nofun
    exact ⟨hown,by rw [lastImage_append,hm]; rfl,hst,hctl⟩
  | reap p msg =>
    have hp : p≠pumpId := of_decide_eq_true hf
    obtain ⟨hown,himg,_,hctl⟩ :=
      apart_at hq (k := Call.returned msg Policy.closeOnFull false) hp nofun
    exact ⟨hown,himg,nofun,hctl⟩
  | stop => exact ⟨rfl,rfl,nofun,hq⟩
  | _ => exact ⟨rfl,rfl,id,hq⟩

/-! ### Who has the image -/

def Pump.ahead : Pump → List Nat
  | .sending _ rest => rest
  | .inside _ c rest => c::rest
  | _ => []

def Pump.image? : Pump → Option CursorImageMessage
  | .snapshot msg | .sending msg _ | .inside msg _ _ => msg.image?
  | _ => none

def Pump.unshown : Pump → Nat
  | .snapshot msg => if msg.image?.isSome then 1 else 0
  | _ => 0

def Waits (s : State) (c : Nat) : Prop :=
  match s.pump with
  | .sending msg rest => msg.image?.isSome=true ∧ c∈rest
  | .inside msg d rest => msg.image?.isSome=true ∧
      (c∈rest ∨ c=d ∧ isReturned ((s.conns d).calls pumpId)=false)
  | _ => False

def Own (s : State) (c : Nat) : Prop :=
  underway ((s.conns c).calls pumpId)=none ∨
    ∃ msg rest,s.pump=.inside msg c rest ∧
      ((s.conns c).calls pumpId=.first msg .dropOnFull ∨ (s.conns c).calls pumpId=.second msg .dropOnFull)

structure Inv (s : State) : Prop where
  registered : ∀ c∈s.wsConns,c∈s.opened
  ahead : ∀ c∈s.pump.ahead,c∈s.opened
  counted : s.images.length=s.shown+s.pump.unshown
  current : ∀ m,s.pump.image?=some m → s.images.getLast?=some m
  joined : ∀ c∈s.opened,s.joinedAt c ≤ s.shown
  early : s.pump.image?.isSome=true → ∀ c∈s.pump.ahead,s.joinedAt c<s.shown
  late : ∀ c∈s.opened,s.joinedAt c=s.shown → lastImage (s.conns c).accepted=none
  reached : s.pump.unshown=0 → ∀ c,Open s c → s.joinedAt c<s.shown →
    lastImage (s.conns c).accepted=s.images.getLast? ∨ Waits s c
  controls : ∀ c,Controls (s.conns c)
  own : ∀ c,Own s c

theorem start_inv : Inv start where
  registered _ hc := nomatch hc
  ahead _ hc := nomatch hc
  counted := rfl
  current _ hm := nomatch hm
  joined _ hc := nomatch hc
  early _ _ hc := nomatch hc
  late _ hc := nomatch hc
  reached _ _ hc := nomatch hc.1
  controls _ _ _ _ hu := nomatch hu
  own _ := .inl rfl

theorem conns_setConn (s : State) (c : Nat) (q : Conn Message) (d : Nat) :
    (setConn s c q).conns d=if d=c then q else s.conns d :=
  update_apply ..

theorem controls_changed (hi : ∀ d,Controls (s.conns d)) (hself : Controls (t.conns c))
    (hother : ∀ d,d≠c → t.conns d=s.conns d) (d : Nat) : Controls (t.conns d) := by
  by_cases hd : d=c
  · rw [hd]
    exact hself
  · rw [hother d hd]
    exact hi d

theorem Waits.congr (hw : Waits s c) (hp : t.pump=s.pump) (hq : ∀ msg d rest,s.pump=.inside msg d rest →
      isReturned ((t.conns d).calls pumpId)=isReturned ((s.conns d).calls pumpId)) : Waits t c := by
  unfold Waits at hw ⊢
  rw [hp]
  split at hw
  · exact hw
  next msg d rest hd =>
    rw [hq msg d rest hd]
    exact hw
  · exact hw.elim

theorem register_inv (hi : Inv s) (hc : c∉s.opened) (hpump : t.pump=s.pump)
    (himages : t.images=s.images) (hshown : t.shown=s.shown) (hws : t.wsConns=s.wsConns++[c])
    (hopened : t.opened=s.opened++[c]) (hself : t.conns c=newWSConn)
    (hconn : ∀ d,d≠c → t.conns d=s.conns d) (hnew : t.joinedAt c=s.shown)
    (hat : ∀ d,d≠c → t.joinedAt d=s.joinedAt d) : Inv t := by
  have hne (d : Nat) (hd : d∈s.opened) : d≠c := fun he => hc (he ▸ hd)
  have hold (d : Nat) (hd : d∈t.opened) (hdc : d≠c) : d∈s.opened := by
    simpa [hopened,hdc] using hd
  constructor
  · intro d hd
    rw [hws,mem_append] at hd
    rw [hopened,mem_append]
    exact hd.imp_left (hi.registered d)
  · intro d hd
    rw [hpump] at hd
    rw [hopened]
    exact mem_append_left _ (hi.ahead d hd)
  · rw [himages,hshown,hpump]
    exact hi.counted
  · rw [himages,hpump]
    exact hi.current
  · intro d hd
    rw [hshown]
    by_cases hdc : d=c
    · rw [hdc,hnew]
    · rw [hat d hdc]
      exact hi.joined d (hold d hd hdc)
  · rw [hpump,hshown]
    intro hp d hd
    rw [hat d (hne d (hi.ahead d hd))]
    exact hi.early hp d hd
  · intro d hd hj
    by_cases hdc : d=c
    · rw [hdc,hself]
      rfl
    · rw [hat d hdc,hshown] at hj
      rw [hconn d hdc]
      exact hi.late d (hold d hd hdc) hj
  · rw [hpump,hshown,himages]
    intro hu d ho hj
    -- the new connection has joined after the last snapshot
    have hdc : d≠c := by
      rintro rfl
      omega
    rw [hat d hdc] at hj
    have hopen : Open s d := by
      refine ⟨?_,hconn d hdc ▸ ho.2⟩
      simpa [hws,hdc] using ho.1
    rw [hconn d hdc]
    refine (hi.reached hu d hopen hj).imp id fun hw => hw.congr hpump fun msg e rest he => ?_
    rw [hconn e (hne e (hi.ahead e (by simp [he,Pump.ahead])))]
  · refine controls_changed hi.controls ?_ hconn
    rw [hself]
    exact fun _ _ _ hu => nomatch hu
  · intro d
    by_cases hdc : d=c
    · exact .inl (by rw [hdc,hself]; rfl)
    · unfold Own
      rw [hconn d hdc,hpump]
      exact hi.own d

theorem queue_inv (hi : Inv s) (hq : Apart (s.conns c) q) : Inv (setConn s c q) := by
  have hconn (d : Nat) : (setConn s c q).conns d=if d=c then q else s.conns d := conns_setConn s c q d
  have hown (d : Nat) : ((setConn s c q).conns d).calls pumpId=(s.conns d).calls pumpId := by
    rw [hconn]
    split
    next he => rw [he,hq.own]
    · rfl
  have himage (d : Nat) : lastImage ((setConn s c q).conns d).accepted=lastImage (s.conns d).accepted := by
    rw [hconn]
    split
    next he => rw [he,hq.image]
    · rfl
  refine ⟨hi.registered,hi.ahead,hi.counted,hi.current,hi.joined,hi.early,?_,?_,?_,?_⟩
  · intro d hd hj
    rw [himage]
    exact hi.late d hd hj
  · intro hu d ho hj
    have hopen : Open s d := by
      refine ⟨ho.1,?_⟩
      have hst:=ho.2
      rw [hconn] at hst
      split at hst
      next he => exact he ▸ hq.stopped hst
      · exact hst
    rw [himage]
    refine (hi.reached hu d hopen hj).imp id fun hw => hw.congr rfl fun msg e rest he => ?_
    rw [hown]
  · intro d
    rw [hconn]
    split
    · exact hq.controls
    · exact hi.controls d
  · intro d
    unfold Own
    rw [hown]
    exact hi.own d

theorem pump_inv (hi : Inv s) {pump : Pump} (hahead : ∀ c∈pump.ahead,c∈s.pump.ahead)
    (hun : pump.unshown=s.pump.unshown) (himage : ∀ m,pump.image?=some m → s.pump.image?=some m)
    (hw : ∀ c,Waits s c → Waits {s with pump := pump} c)
    (hown : ∀ c,underway ((s.conns c).calls pumpId)=none) : Inv {s with pump := pump} where
  registered := hi.registered
  ahead c hc := hi.ahead c (hahead c hc)
  counted := hun ▸ hi.counted
  current m hm := hi.current m (himage m hm)
  joined := hi.joined
  early hp c hc := by
    obtain ⟨m,hm⟩ := isSome_iff_exists.mp hp
    exact hi.early (isSome_iff_exists.mpr ⟨m,himage m hm⟩) c (hahead c hc)
  late := hi.late
  reached hu c ho hj := (hi.reached (hun ▸ hu) c ho hj).imp id (hw c)
  controls := hi.controls
  own c := .inl (hown c)

theorem own_none (hi : Inv s) (hp : ∀ msg rest,s.pump≠.inside msg c rest) :
    underway ((s.conns c).calls pumpId)=none := by
  rcases hi.own c with hu | ⟨msg,rest,he,_⟩
  · exact hu
  · exact absurd he (hp msg rest)

theorem image_inv (hi : Inv s) (hp : s.pump=.reading) (m : CursorImageMessage) :
    Inv {s with pump := .snapshot (.cursorImage m), images := s.images++[m]} where
  registered := hi.registered
  ahead _ hc := nomatch hc
  counted := by
    have := hi.counted
    simp only [hp,Pump.unshown] at this
    simp [this,Pump.unshown,Message.image?]
  current m' hm := by
    cases hm
    simp
  joined := hi.joined
  early _ _ hc := nomatch hc
  late := hi.late
  reached hu := by simp [Pump.unshown,Message.image?] at hu
  controls := hi.controls
  own c := .inl (own_none (s := s) hi (by simp [hp]))

theorem snapshot_inv (hi : Inv s) {order : List Nat} (hp : s.pump=.snapshot msg) (ho : order.Perm s.wsConns) :
    Inv {s with
      pump := .sending msg order
      shown := if msg.image?.isSome then s.shown+1 else s.shown} := by
  have hown (c : Nat) : underway ((s.conns c).calls pumpId)=none := own_none hi (by simp [hp])
  have hopened (c : Nat) (hc : c∈order) : c∈s.opened := hi.registered c (ho.mem_iff.mp hc)
  have hcount:=hi.counted
  simp only [hp,Pump.unshown] at hcount
  have hcur : ∀ m,msg.image?=some m → s.images.getLast?=some m := by
    have := hi.current
    simpa only [hp,Pump.image?] using this
  cases hm : msg.image? with
  | none =>
    have hkeep : Inv {s with pump := .sending msg order} := by
      refine ⟨hi.registered,hopened,?_,?_,hi.joined,?_,hi.late,?_,hi.controls,fun c => .inl (hown c)⟩
      · simpa [hm,Pump.unshown] using hcount
      · exact hcur
      · intro hs
        simp [Pump.image?,hm] at hs
      · intro _ c hc hj
        -- nobody waits for an image before the snapshot either
        have hr:=hi.reached (by simp [hp,Pump.unshown,hm]) c hc hj
        exact .inl (by simpa [Waits,hp] using hr)
    simpa using hkeep
  | some =>
    simp only [hm,isSome_some,if_true] at hcount ⊢
    refine ⟨hi.registered,hopened,hcount,hcur,?_,?_,?_,?_,hi.controls,fun c => .inl (hown c)⟩
    · exact fun c hc => Nat.le_succ_of_le (hi.joined c hc)
    · exact fun _ c hc => Nat.lt_succ_of_le (hi.joined c (hopened c hc))
    · intro c hc hj
      have := hi.joined c hc
      dsimp only at hj
      omega
    · intro _ c hc _
      exact .inr ⟨by simp [hm],ho.mem_iff.mpr hc.1⟩

theorem send_inv (hi : Inv s) (hp : s.pump=.sending msg (c::rest))
    (hq : q=(s.conns c).at pumpId (.first msg .dropOnFull)) :
    Inv {setConn s c q with pump := .inside msg c rest} := by
  have hself : (setConn s c q).conns c=(s.conns c).at pumpId (.first msg .dropOnFull) := by
    rw [conns_setConn,if_pos rfl,hq]
  have hother (d : Nat) (hd : d≠c) : (setConn s c q).conns d=s.conns d := by rw [conns_setConn,if_neg hd]
  -- nothing is accepted and nobody stops
  have hsame (d : Nat) : ((setConn s c q).conns d).accepted=(s.conns d).accepted ∧
      ((setConn s c q).conns d).stopped=(s.conns d).stopped := by
    by_cases hd : d=c
    · rw [hd,hself]
      exact ⟨rfl,rfl⟩
    · rw [hother d hd]
      exact ⟨rfl,rfl⟩
  have hown (d : Nat) : underway ((s.conns d).calls pumpId)=none := own_none hi (by simp [hp])
  obtain ⟨hregistered,hahead,hcounted,hcurrent,hjoined,hearly,hlate,hreached,hcontrols,-⟩ := hi
  rw [hp] at hahead hcounted hcurrent hearly hreached
  refine ⟨hregistered,hahead,hcounted,hcurrent,hjoined,hearly,fun d hd hj => ?_,fun hu d ho hj => ?_,?_,
    fun d => ?_⟩
  · rw [(hsame d).1]
    exact hlate d hd hj
  · rw [(hsame d).1]
    refine (hreached hu d ⟨ho.1,(hsame d).2 ▸ ho.2⟩ hj).imp id fun hw => ?_
    simp only [Waits,hp] at hw
    refine ⟨hw.1,(mem_cons.mp hw.2).symm.imp_right fun hd => ⟨hd,?_⟩⟩
    rw [hself,SendQueue.calls_at,if_pos rfl]
    rfl
  · refine controls_changed hcontrols ?_ hother
    rw [hself]
    exact (hcontrols c).at fun _ h => absurd rfl h
  · by_cases hd : d=c
    · refine .inr ⟨msg,rest,by rw [hd],.inl ?_⟩
      rw [hd,hself,SendQueue.calls_at,if_pos rfl]
    · refine .inl ?_
      rw [hother d hd]
      exact hown d

/-- The call goes on, ends at a stopping connection, or puts its message in. -/
inductive Calls (q : Conn Message) (msg : Message) : Conn Message → Prop
  | goes : Calls q msg (q.at pumpId (.second msg .dropOnFull))
  | ends : q.stopped=true → Calls q msg (q.at pumpId (.returned msg .dropOnFull false))
  | puts : Calls q msg {q.at pumpId (.returned msg .dropOnFull true) with
      send := q.send++[msg]
      accepted := q.accepted++[msg]}

theorem call_calls {a : SendQueue.Act Message} (h : SendQueue.Turn q a q') (ha : a.caller=some pumpId)
    (hfull : a≠.full pumpId)
    (hown : q.calls pumpId=.first msg .dropOnFull ∨ q.calls pumpId=.second msg .dropOnFull) : Calls q msg q' := by
  cases h with
  | stopSeen p m policy hc hs =>
    cases ha
    rw [hc] at hown
    obtain ⟨rfl,rfl⟩ := Call.first.inj (hown.resolve_right nofun)
    exact .ends hs
  | onward p m policy hc =>
    cases ha
    rw [hc] at hown
    obtain ⟨rfl,rfl⟩ := Call.first.inj (hown.resolve_right nofun)
    exact .goes
  | accept p m policy hc =>
    cases ha
    rw [hc] at hown
    obtain ⟨rfl,rfl⟩ := Call.second.inj (hown.resolve_left nofun)
    exact .puts
  | leave p m policy hc hs =>
    cases ha
    rw [hc] at hown
    obtain ⟨rfl,rfl⟩ := Call.second.inj (hown.resolve_left nofun)
    exact .ends hs
  | full | drop =>
    cases ha
    exact absurd rfl hfull
  | reap p m hc =>
    cases ha
    rw [hc] at hown
    exact (hown.elim nofun nofun)
  | _ => cases ha

theorem caller_underway {a : SendQueue.Act Message} (h : SendQueue.Turn q a q') (ha : a.caller=some p) :
    underway (q.calls p)≠none := by
  cases h with
  | stopSeen r m policy hc | onward r m policy hc | accept r m policy hc | leave r m policy hc
  | full r m hc | drop r m hc | reap r m hc =>
    cases ha
    simp [hc,underway]
  | _ => cases ha

theorem Calls.controls (h : Calls q msg q') (hq : Controls q) : Controls q' := by
  cases h with
  | goes | ends => exact hq.at fun _ hp => absurd rfl hp
  | puts => exact hq.at (k := Call.returned msg .dropOnFull true) fun _ hp => absurd rfl hp

theorem Calls.image (h : Calls q msg q') :
    lastImage q'.accepted=lastImage q.accepted ∨
      lastImage q'.accepted=msg.image? ∧ msg.image?.isSome=true := by
  cases h with
  | goes | ends => exact .inl rfl
  | puts =>
    rw [lastImage_append]
    cases hm : msg.image? with
    | none => exact .inl rfl
    | some => exact .inr ⟨rfl,rfl⟩

theorem call_reached (hi : Inv s) (hp : s.pump=.inside msg c rest) (hq : Calls (s.conns c) msg q)
    (hws : c∈s.wsConns) (hst : q.stopped=false) (hj : s.joinedAt c<s.shown) :
    lastImage q.accepted=s.images.getLast? ∨
      msg.image?.isSome=true ∧ isReturned (q.calls pumpId)=false := by
  have hbefore (hs : (s.conns c).stopped=false) : lastImage (s.conns c).accepted=s.images.getLast? ∨
      msg.image?.isSome=true := by
    refine (hi.reached (by rw [hp]; rfl) c ⟨hws,hs⟩ hj).imp id fun hw => ?_
    simp only [Waits,hp] at hw
    exact hw.1
  cases hq with
  | goes =>
    refine (hbefore hst).imp id fun hm => ⟨hm,?_⟩
    rfl
  | ends hs =>
    have hst : (s.conns c).stopped=false := hst
    rw [hs] at hst
    cases hst
  | puts =>
    rw [lastImage_append]
    cases hm : msg.image? with
    | none => exact .inl ((hbefore hst).resolve_right (by simp [hm]))
    | some m => exact .inl (hi.current m (by rw [hp]; exact hm)).symm

theorem call_inv (hi : Inv s) (hp : s.pump=.inside msg c rest) (hq : Calls (s.conns c) msg q) :
    Inv (setConn s c q) := by
  have hconn (d : Nat) : (setConn s c q).conns d=if d=c then q else s.conns d := conns_setConn s c q d
  have hself : (setConn s c q).conns c=q := by rw [hconn,if_pos rfl]
  have hother (d : Nat) (hd : d≠c) : (setConn s c q).conns d=s.conns d := by rw [hconn,if_neg hd]
  have hpump : (setConn s c q).pump=.inside msg c rest := hp
  refine ⟨hi.registered,hi.ahead,hi.counted,hi.current,hi.joined,hi.early,?_,?_,?_,?_⟩
  · intro d hd hj
    by_cases hdc : d=c
    · rw [hdc,hself]
      rcases hq.image with hsame | ⟨_,hm⟩
      · rw [hsame]
        exact hi.late c (hdc ▸ hd) (hdc ▸ hj)
      · have hlt:=hi.early (by rw [hp]; exact hm) c (by rw [hp]; exact mem_cons_self)
        have heq : s.joinedAt c=s.shown := hdc ▸ hj
        omega
    · rw [hother d hdc]
      exact hi.late d hd hj
  · intro hu d ho hj
    by_cases hdc : d=c
    · subst hdc
      have hst:=ho.2
      rw [hself] at hst ⊢
      refine (call_reached hi hp hq ho.1 hst hj).imp id fun hw => ?_
      simp only [Waits,hpump,hself]
      exact ⟨hw.1,.inr ⟨trivial,hw.2⟩⟩
    · have hst:=ho.2
      rw [hother d hdc] at hst ⊢
      refine (hi.reached hu d ⟨ho.1,hst⟩ hj).imp id fun hw => ?_
      simp only [Waits,hp] at hw
      simp only [Waits,hpump]
      exact ⟨hw.1,.inl (hw.2.resolve_right fun he => hdc he.1)⟩
  · refine controls_changed hi.controls ?_ hother
    rw [hself]
    exact hq.controls (hi.controls c)
  · intro d
    by_cases hdc : d=c
    · unfold Own
      rw [hdc,hself]
      cases hq with
      | goes => exact .inr ⟨msg,rest,hp,.inr (by rw [SendQueue.calls_at,if_pos rfl])⟩
      | ends => exact .inl (by rw [SendQueue.calls_at,if_pos rfl]; rfl)
      | puts =>
        have hret : ((s.conns c).at pumpId (.returned msg .dropOnFull true)).calls pumpId =
            .returned msg .dropOnFull true := by
          rw [SendQueue.calls_at,if_pos rfl]
        exact .inl (congrArg underway hret)
    · unfold Own
      rw [hother d hdc]
      exact hi.own d

theorem step_inv (hi : Inv s) (hok : NoDrop s a) (h : Turn s a t) : Inv t := by
  cases h with
  | register c hc =>
    refine register_inv hi hc rfl rfl rfl rfl rfl ?_ ?_ ?_ ?_
    · exact update_self ..
    · exact fun d hd => update_of_ne hd ..
    · exact update_self ..
    · exact fun d hd => update_of_ne hd ..
  | unregister c =>
    have hin (d : Nat) (hd : d∈s.wsConns.filter (·≠c)) : d∈s.wsConns := (mem_filter.mp hd).1
    exact {hi with
      registered := fun d hd => hi.registered d (hin d hd)
      reached := fun hu d ho hj => hi.reached hu d ⟨hin d ho.1,ho.2⟩ hj}
  | queue c a q hc hf hq => exact queue_inv hi (foreign_step (hi.controls c) (SendQueue.step_turn hq) hf)
  | image f m hp => exact image_inv hi hp m
  | ignored => exact hi
  | snapshot order msg hp ho => exact snapshot_inv hi hp ho
  | send msg c rest q hp hq =>
    refine send_inv hi hp ?_
    cases SendQueue.step_turn hq
    rfl
  | pos _ _ hp | ended _ hp | finish _ hp =>
    refine pump_inv hi nofun (by rw [hp]; rfl) nofun (fun c hw => ?_) fun c => own_none hi (by simp [hp])
    simp [Waits,hp] at hw
  | call a msg c rest q hp ha hq =>
    have hfull : a≠.full pumpId := by
      rintro rfl
      exact hok
    rcases hi.own c with hu | ⟨msg',rest',hp',hc⟩
    · exact absurd hu (caller_underway (SendQueue.step_turn hq) ha)
    · rw [hp] at hp'
      cases hp'
      exact call_inv hi hp (call_calls (SendQueue.step_turn hq) ha hfull hc)
  | next msg c rest hp hr =>
    refine pump_inv hi ?_ ?_ ?_ (fun d hw => ?_) fun d => ?_
    · rw [hp]
      exact fun d hd => mem_cons_of_mem _ hd
    · rw [hp]
      rfl
    · rw [hp]
      exact fun m hm => hm
    · simp only [Waits,hp] at hw
      refine ⟨hw.1,hw.2.resolve_right fun he => ?_⟩
      rw [hr] at he
      exact Bool.noConfusion he.2
    · by_cases hd : d=c
      · rw [hd]
        cases hc : (s.conns c).calls pumpId with
        | idle | returned => rfl
        | _ => simp [hc,isReturned] at hr
      · exact own_none hi (by simp [hp,Ne.symm hd])

theorem reach_inv (h : Reach step NoDrop start s) : Inv s :=
  h.keeps start_inv fun hi hok ht => step_inv hi hok (step_turn ht)

/-- No image is under way: the pump reads, has ended, or has a position to send. -/
theorem settled_of_image (hp : s.pump.image?=none) : s.pump.unshown=0 ∧ ∀ c,¬Waits s c := by
  cases hpump : s.pump with
  | reading | ended => exact ⟨rfl,fun c hw => by simp [Waits,hpump] at hw⟩
  | snapshot msg | sending msg | inside msg =>
    rw [hpump] at hp
    have hmsg : msg.image?=none := hp
    exact ⟨by simp [Pump.unshown,hmsg],fun c hw => by simp [Waits,hpump,hmsg] at hw⟩

/-- While no image is under way, with no message dropped at a full channel: an open connection has the last
image exactly if there was none yet or it was registered before the snapshot for it. -/
theorem cursor_agreement {s : State} {c : Nat} (h : Reach step NoDrop start s) (hp : s.pump.image?=none)
    (ho : Open s c) : lastImage (s.conns c).accepted=s.images.getLast? ↔
      s.images=[] ∨ s.joinedAt c<s.images.length := by
  have hi:=reach_inv h
  obtain ⟨hunshown,hwaits⟩ := settled_of_image hp
  have hshown : s.images.length=s.shown := by
    have := hi.counted
    rwa [hunshown] at this
  have hc:=hi.registered c ho.1
  rw [hshown]
  constructor
  · intro hsame
    by_contra hnot
    rw [not_or,Nat.not_lt] at hnot
    -- a late connection has no image at all
    have hnone:=hi.late c hc (Nat.le_antisymm (hi.joined c hc) hnot.2)
    rw [hnone] at hsame
    exact hnot.1 (List.getLast?_eq_none_iff.mp hsame.symm)
  · rintro (hnil | hlt)
    · have hzero : s.joinedAt c=s.shown := by
        have := hi.joined c hc
        simp [hnil] at hshown
        omega
      rw [hi.late c hc hzero,hnil]
      rfl
    · exact (hi.reached hunshown c ho hlt).resolve_right (hwaits c)

def cursorFrame (colour : UInt8) : Frame := ⟨tagCursorImage,[1,0,1,0,0,0,0,0,colour,colour,colour,255]⟩

/- A connection joins, gets an image, and a second one joins before the next; then a position is sent. -/
def twoImages : List Act :=
  [.register 1,.receive (cursorFrame 7),.snapshot [1],.send,.call (.look 0),.call (.accept 0),.next,
    .send,.register 2,.receive (cursorFrame 9),.queue 2 (.enqueue 1 .ping .closeOnFull),.snapshot [2,1],
    .send,.queue 2 (.look 1),.call (.look 0),.queue 2 (.accept 1),.call (.accept 0),.next,.send,
    .call (.look 0),.call (.accept 0),.next,.send,.receive ⟨tagCursorPos,[1,0,2,0]⟩,.snapshot [2,1]]

theorem cursor_agreement_two_connections : ∃ s,Reach step NoDrop start s ∧
    (s.pump≠.reading ∧ s.pump.image?=none) ∧
    s.images=[cursorImageToWS (cursorFrame 7),cursorImageToWS (cursorFrame 9)] ∧ Open s 2 ∧
    lastImage (s.conns 2).accepted=s.images.getLast? := by
  have hr : Reach step NoDrop start _ := reach_exec twoImages
    (meets_decided (by decide +kernel)) (by decide +kernel)
  refine ⟨_,hr,⟨?_,?_⟩,?_,⟨?_,?_⟩,(cursor_agreement hr ?_ ⟨?_,?_⟩).mpr (.inr ?_)⟩ <;> decide +kernel

/-- A viewer that connects after the image gets none. -/
theorem late_viewer_without_cursor : ∃ s,Reach step NoDrop start s ∧ s.pump=.reading ∧
    s.images=[cursorImageToWS (cursorFrame 7)] ∧ (1∈s.wsConns ∧ (s.conns 1).stopped=false) ∧
    lastImage (s.conns 1).accepted=none :=
  reach_observed
    [.receive (cursorFrame 7),.snapshot [],.send,.register 1,.receive ⟨Viewer.Protocol.tagNalu,[1]⟩]
    (meets_decided (by decide +kernel)) (by decide +kernel)

end Waymux.Bridge.CursorBroadcast
