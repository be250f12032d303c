import Mathlib.Algebra.Group.Int.Defs
import Mathlib.Algebra.Group.Nat.Defs
import Waymux.Bridge.ViewerList

/-!
# Connection handlers of the bridge (`handleWS` in `server.go`)

Every request to `/ws` runs one handler up to its last deferred function, and each viewer has a
goroutine that forwards its bandwidth estimate. A step is one locked section or one call that may
fail.
-/

namespace Waymux.Bridge.Handlers
open ViewerList (Caps Server)
open Function Option

/- The calls between registerConn and the commit that end in an early return. -/
inductive Setup
  | config
  | defaultCodecs
  | congestionControl
  | headerExtension
  | nack
  | reports
  | peerConnection
  | newTrack
  | addTrack
  deriving DecidableEq, Repr

/- `handleWS` in program order. `event`, `forward` and `write` are inside the
read loop; from `leave` on the deferred functions run, the last one first. -/
inductive Pc
  | idle
  | auth
  | acquire
  | reserve
  | upgrade
  | register
  | setup (k : Setup)
  | commit
  | adding
  | serve
  | event (raw : String)
  | forward (raw : String)
  | write (op : String)
  | leave
  | leaving
  | cancel
  | stop
  | unregister
  | release
  | releaseHandshake
  | done
  deriving DecidableEq, Repr

/- The goroutine of the bitrate: at its select, before the load of the primary
flag, behind it, and before the socket write. -/
inductive RatePc
  | absent
  | waiting
  | ticked
  | primary
  | sending (target : Int)
  | exited
  deriving DecidableEq, Repr

inductive SlotEvent
  | reserved
  | committed
  | released
  deriving DecidableEq, Repr

/- `once` is that of the reservation, `cancelled` says that statsCtx is done. The code does not keep `slot`,
what has happened to the reservation. -/
structure Handler where
  ip : String
  pc : Pc
  once : Bool
  cancelled : Bool
  rate : RatePc
  lastSent : Int
  slot : List SlotEvent
  deriving DecidableEq, Repr

def Handler.new (ip : String) (pc : Pc) : Handler := ⟨ip,pc,false,false,.absent,0,[]⟩

/- A frame on the session socket. The connection that wrote it is not in the frame. -/
inductive Sent
  | injectOp (conn : Nat) (op : String)
  | setBitrate (conn : Nat) (bps : Nat)
  | forceKeyframe (conn : Nat)
  deriving DecidableEq, Repr

/- `envBps` takes no value that is not positive. -/
structure Rates where
  minBitrate : Int
  maxBitrate : Int
  min_pos : 0 < minBitrate
  max_pos : 0 < maxBitrate

def defaultRates : Rates := ⟨400000,8000000,by decide,by decide⟩

/- The code keeps neither `started`, the handlers so far, nor `tick`, the last
completed tick of a connection that was the primary then. -/
structure State where
  rates : Rates
  list : Server
  handshakes : String → Nat
  wsConns : List Nat
  handlers : Nat → Handler
  started : List Nat
  socket : List Sent
  tick : Option (Nat × Int)

def init (cfg : Caps) (rates : Rates) : State where
  rates := rates
  list := ViewerList.init cfg
  handshakes _ := 0
  wsConns := []
  handlers _ := .new "" .idle
  started := []
  socket := []
  tick := none

def setHandler (s : State) (h : Nat) (x : Handler) : State := {s with handlers := update s.handlers h x}

def goTo (s : State) (h : Nat) (pc : Pc) : State := setHandler s h {s.handlers h with pc := pc}

def rateAt (s : State) (h : Nat) (rate : RatePc) : State := setHandler s h {s.handlers h with rate := rate}

def afterSetup : Setup → Pc
  | .config => .setup .defaultCodecs
  | .defaultCodecs => .setup .congestionControl
  | .congestionControl => .setup .headerExtension
  | .headerExtension => .setup .nack
  | .nack => .setup .reports
  | .reports => .setup .peerConnection
  | .peerConnection => .setup .newTrack
  | .newTrack => .setup .addTrack
  | .addTrack => .commit

/- Over the limit the handler answers 429. -/
def acquireHandshakeSlot (s : State) (h : Nat) : State :=
  let ip:=(s.handlers h).ip
  if s.list.cfg.handshakes ≤ s.handshakes ip then goTo s h .done
  else {goTo s h .reserve with handshakes := update s.handshakes ip (s.handshakes ip+1)}

/- Without room the handler answers 503. -/
def reserve (s : State) (h : Nat) : Option State :=
  let x:=s.handlers h
  if s.list.mu=none then
    match ViewerList.tryReserveViewerSlot s.list with
    | (true,l) => some {setHandler s h {x with pc := .upgrade, slot := x.slot++[SlotEvent.reserved]} with
        list := l}
    | (false,_) => some (goTo s h .releaseHandshake)
  else none

/- `viewerRes.commit` up to the loop of addViewer. With nil the handler ends. -/
def commit (s : State) (h : Nat) : Option State :=
  (ViewerList.step s.list (.addViewer h)).map fun l =>
    {setHandler s h {s.handlers h with pc := if l.mu=none then .cancel else .adding, once := true} with list := l}

/- The rest of addViewer. Behind it the goroutine of the bitrate starts. -/
def add (s : State) (h : Nat) : Option State :=
  let x:=s.handlers h
  match s.list.mu with
  | some (.demote v _) =>
      if v=h then (ViewerList.proceed s.list).map fun l => {s with list := l} else none
  | some (.append v) =>
      if v=h then (ViewerList.proceed s.list).map fun l =>
        {setHandler s h {x with pc := .serve, rate := .waiting, slot := x.slot++[SlotEvent.committed]} with
          list := l}
      else none
  | _ => none

def leave (s : State) (h : Nat) : Option State :=
  (ViewerList.step s.list (.removeViewer h)).map fun l => {goTo s h .leaving with list := l}

def handOver (s : State) (h : Nat) : Option State :=
  match s.list.mu with
  | some (.handOver v) =>
      if v=h then (ViewerList.proceed s.list).map fun l => {goTo s h .cancel with list := l} else none
  | _ => none

def release (s : State) (h : Nat) : Option State :=
  let x:=s.handlers h
  if x.once then some (goTo s h .releaseHandshake)
  else (ViewerList.step s.list .release).map fun l =>
    {setHandler s h {x with pc := .releaseHandshake, once := true, slot := x.slot++[SlotEvent.released]} with
      list := l}

def releaseHandshake (s : State) (h : Nat) : State :=
  let ip:=(s.handlers h).ip
  {goTo s h .done with handshakes := update s.handshakes ip (s.handshakes ip-1)}

/- `ok` is the outcome of the token check, the upgrade or the set-up call. -/
def handlerStep (s : State) (h : Nat) (ok : Bool) : Option State :=
  match (s.handlers h).pc with
  | .auth => some (goTo s h (if ok then .acquire else .done))
  | .acquire => some (acquireHandshakeSlot s h)
  | .reserve => reserve s h
  | .upgrade => some (goTo s h (if ok then .register else .release))
  | .register => some {goTo s h (.setup .config) with wsConns := s.wsConns++[h]}
  | .setup k => some (goTo s h (if ok then afterSetup k else .cancel))
  | .commit => commit s h
  | .adding => add s h
  | .leave => leave s h
  | .leaving => handOver s h
  | .cancel => some (setHandler s h {s.handlers h with pc := .stop, cancelled := true})
  | .stop => some (goTo s h .unregister)
  | .unregister => some {goTo s h .release with wsConns := s.wsConns.erase h}
  | .release => release s h
  | .releaseHandshake => some (releaseHandshake s h)
  | _ => none

/- What ReadMessage gives, an offer with the outcome of handleOffer. Bad JSON,
ICE candidates and unknown types leave the loop where it is. -/
inductive Incoming
  | closed
  | offer (ok : Bool)
  | event (raw : String)
  | other
  deriving DecidableEq, Repr

def read (s : State) (h : Nat) (m : Incoming) : Option State :=
  match (s.handlers h).pc with
  | .serve => match m with
    | .closed => some (goTo s h .leave)
    | .offer ok => some (if ok then s else goTo s h .leave)
    | .event raw => some (goTo s h (.event raw))
    | .other => some s
  | _ => none

def loadPrimary (s : State) (h : Nat) : Option State :=
  match (s.handlers h).pc with
  | .event raw => some (goTo s h (if s.list.primary h then .forward raw else .serve))
  | _ => none

/- `inputx.Translate` answers with an op or an error. -/
def translate (s : State) (h : Nat) (op : Option String) : Option State :=
  match (s.handlers h).pc with
  | .forward _ => some (goTo s h ((op.map Pc.write).getD .serve))
  | _ => none

def writeInput (s : State) (h : Nat) (ok : Bool) : Option State :=
  match (s.handlers h).pc with
  | .write op =>
      if ok then some {goTo s h .serve with socket := s.socket++[Sent.injectOp h op]}
      else some (goTo s h .serve)
  | _ => none

/- 85 percent of the estimate in 64-bit arithmetic, clamped. -/
def target (r : Rates) (estimate : Int) : Int :=
  let target:=Int.tdiv (Int.bmod (estimate*85) (2^64)) 100
  let target:=if target<r.minBitrate then r.minBitrate else target
  if r.maxBitrate<target then r.maxBitrate else target

def threshold (lastSent : Int) : Int :=
  let threshold:=Int.tdiv lastSent 10
  if threshold<150000 then 150000 else threshold

def delta (target lastSent : Int) : Int :=
  let delta:=target-lastSent
  if delta<0 then -delta else delta

/- The payload, `uint32(target)`. -/
def payload (target : Int) : Nat := (target%2^32).toNat

/- The end of a tick. It counts when the connection is registered and has the flag. -/
def complete (s : State) (h : Nat) (target : Int) : State :=
  if h∈s.list.viewers ∧ s.list.primary h=true then {s with tick := some (h,target)} else s

@[simp] theorem complete_list (s : State) (h : Nat) (r : Int) : (complete s h r).list=s.list := by
  unfold complete
  split <;> rfl

@[simp] theorem complete_rates (s : State) (h : Nat) (r : Int) : (complete s h r).rates=s.rates := by
  unfold complete
  split <;> rfl

@[simp] theorem complete_handlers (s : State) (h : Nat) (r : Int) : (complete s h r).handlers=s.handlers := by
  unfold complete
  split <;> rfl

@[simp] theorem complete_started (s : State) (h : Nat) (r : Int) : (complete s h r).started=s.started := by
  unfold complete
  split <;> rfl

@[simp] theorem complete_handshakes (s : State) (h : Nat) (r : Int) : (complete s h r).handshakes=s.handshakes := by
  unfold complete
  split <;> rfl

@[simp] theorem complete_wsConns (s : State) (h : Nat) (r : Int) : (complete s h r).wsConns=s.wsConns := by
  unfold complete
  split <;> rfl

@[simp] theorem complete_socket (s : State) (h : Nat) (r : Int) : (complete s h r).socket=s.socket := by
  unfold complete
  split <;> rfl

/- The ticker fires, or the select sees that the context is done. -/
def select (s : State) (h : Nat) (fires : Bool) : Option State :=
  let x:=s.handlers h
  match x.rate with
  | .waiting =>
      if fires then some (rateAt s h .ticked)
      else if x.cancelled then some (rateAt s h .exited) else none
  | _ => none

def checkPrimary (s : State) (h : Nat) : Option State :=
  match (s.handlers h).rate with
  | .ticked => some (rateAt s h (if s.list.primary h then .primary else .waiting))
  | _ => none

/- `est` is the answer of the estimator, if there is one. -/
def estimate (s : State) (h : Nat) (est : Option Int) : Option State :=
  let x:=s.handlers h
  match x.rate with
  | .primary => match est with
    | none => some (rateAt s h .waiting)
    | some est =>
      let t:=target s.rates est
      if x.lastSent≠0 ∧ delta t x.lastSent<threshold x.lastSent then
        some (complete (rateAt s h .waiting) h t)
      else some (rateAt s h (.sending t))
  | _ => none

def writeRate (s : State) (h : Nat) (ok : Bool) : Option State :=
  let x:=s.handlers h
  match x.rate with
  | .sending t =>
      if ok then
        some (complete {setHandler s h {x with rate := .waiting, lastSent := t} with
          socket := s.socket++[Sent.setBitrate h (payload t)]} h t)
      else some (complete (rateAt s h .waiting) h t)
  | _ => none

inductive Act
  | request (h : Nat) (ip : String)
  | handler (h : Nat) (ok : Bool)
  | read (h : Nat) (m : Incoming)
  | loadPrimary (h : Nat)
  | translate (h : Nat) (op : Option String)
  | writeInput (h : Nat) (ok : Bool)
  | keyframe (h : Nat)
  | select (h : Nat) (fires : Bool)
  | checkPrimary (h : Nat)
  | estimate (h : Nat) (est : Option Int)
  | writeRate (h : Nat) (ok : Bool)
  deriving DecidableEq, Repr

/- A packet that the RTCP reader of a viewer has read may be served when the handler is gone. -/
def step (s : State) : Act → Option State
  | .request h ip =>
      if h∈s.started then none
      else some {setHandler s h (.new ip .auth) with started := s.started++[h]}
  | .handler h ok => handlerStep s h ok
  | .read h m => read s h m
  | .loadPrimary h => loadPrimary s h
  | .translate h op => translate s h op
  | .writeInput h ok => writeInput s h ok
  | .keyframe h =>
      if (s.handlers h).rate=.absent then none
      else some {s with socket := s.socket++[Sent.forceKeyframe h]}
  | .select h fires => select s h fires
  | .checkPrimary h => checkPrimary s h
  | .estimate h est => estimate s h est
  | .writeRate h ok => writeRate s h ok

variable {s t : State} {a : Act} {h : Nat} {pc pc' : Pc}

/- The moves of a handler that touch nothing else. -/
inductive Flow (s : State) (h : Nat) : Pc → Pc → Prop
  | admitted : Flow s h .auth .acquire
  | unauthorized : Flow s h .auth .done
  | tooMany : Flow s h .acquire .done
  | full : Flow s h .reserve .releaseHandshake
  | upgraded : Flow s h .upgrade .register
  | notUpgraded : Flow s h .upgrade .release
  | setUp (k : Setup) : Flow s h (.setup k) (afterSetup k)
  | failed (k : Setup) : Flow s h (.setup k) .cancel
  | closed : Flow s h .serve .leave
  | received (raw : String) : Flow s h .serve (.event raw)
  | observer (raw : String) : Flow s h (.event raw) .serve
  | primary (raw : String) : s.list.primary h=true → Flow s h (.event raw) (.forward raw)
  | translated (raw op : String) : Flow s h (.forward raw) (.write op)
  | untranslated (raw : String) : Flow s h (.forward raw) .serve
  | notWritten (op : String) : Flow s h (.write op) .serve
  | stopped : Flow s h .stop .unregister

/- The moves of the other goroutine that touch nothing else. -/
inductive RateFlow (s : State) (h : Nat) : RatePc → RatePc → Prop
  | fires : RateFlow s h .waiting .ticked
  | exits : (s.handlers h).cancelled=true → RateFlow s h .waiting .exited
  | observer : RateFlow s h .ticked .waiting
  | noEstimate : RateFlow s h .primary .waiting
  | decides (est : Int) : RateFlow s h .primary (.sending (target s.rates est))

inductive Turn (s : State) : Act → State → Prop
  | stays {a : Act} : Turn s a s
  | requests (h : Nat) (ip : String) : h∉s.started →
      Turn s (.request h ip) {setHandler s h (.new ip .auth) with started := s.started++[h]}
  | flows {a : Act} (h : Nat) (pc pc' : Pc) : (s.handlers h).pc=pc → Flow s h pc pc' →
      Turn s a (goTo s h pc')
  | acquires {ok : Bool} (h : Nat) : (s.handlers h).pc=.acquire →
      s.handshakes (s.handlers h).ip<s.list.cfg.handshakes →
      Turn s (.handler h ok) {goTo s h .reserve with
        handshakes := update s.handshakes (s.handlers h).ip (s.handshakes (s.handlers h).ip+1)}
  | reserves {ok : Bool} (h : Nat) : (s.handlers h).pc=.reserve → s.list.mu=none →
      s.list.viewers.length+s.list.reservedViewers<s.list.cfg.viewers →
      Turn s (.handler h ok) {setHandler s h {s.handlers h with
          pc := .upgrade, slot := (s.handlers h).slot++[SlotEvent.reserved]} with
        list := {s.list with reservedViewers := s.list.reservedViewers+1}}
  | registers {ok : Bool} (h : Nat) : (s.handlers h).pc=.register →
      Turn s (.handler h ok) {goTo s h (.setup .config) with wsConns := s.wsConns++[h]}
  | enters {ok : Bool} (h : Nat) : (s.handlers h).pc=.commit → s.list.mu=none → h∉s.list.added →
      s.list.viewers.length<s.list.cfg.viewers →
      Turn s (.handler h ok) {setHandler s h {s.handlers h with pc := .adding, once := true} with
        list := {s.list with
          reservedViewers := s.list.reservedViewers-1
          mu := some (.demote h s.list.viewers)
          primary := update s.list.primary h false}}
  | refuses {ok : Bool} (h : Nat) : (s.handlers h).pc=.commit → s.list.mu=none →
      s.list.cfg.viewers ≤ s.list.viewers.length →
      Turn s (.handler h ok) {setHandler s h {s.handlers h with pc := .cancel, once := true} with
        list := {s.list with reservedViewers := s.list.reservedViewers-1}}
  | demotes {ok : Bool} (h : Nat) (rest : List Nat) (l : Server) : (s.handlers h).pc=.adding →
      s.list.mu=some (.demote h rest) → ViewerList.proceed s.list=some l →
      Turn s (.handler h ok) {s with list := l}
  | joins {ok : Bool} (h : Nat) : (s.handlers h).pc=.adding → s.list.mu=some (.append h) →
      Turn s (.handler h ok) {setHandler s h {s.handlers h with
          pc := .serve, rate := .waiting, slot := (s.handlers h).slot++[SlotEvent.committed]} with
        list := {s.list with viewers := s.list.viewers++[h], added := s.list.added++[h], mu := none}}
  | leaves {ok : Bool} (h : Nat) : (s.handlers h).pc=.leave → s.list.mu=none → h∈s.list.added →
      Turn s (.handler h ok) {goTo s h .leaving with
        list := {s.list with viewers := s.list.viewers.erase h, mu := some (.handOver h)}}
  | handsOver {ok : Bool} (h : Nat) : (s.handlers h).pc=.leaving → s.list.mu=some (.handOver h) →
      Turn s (.handler h ok) {goTo s h .cancel with
        list := {s.list with primary := ViewerList.promoteNewest s.list h, mu := none}}
  | cancels {ok : Bool} (h : Nat) : (s.handlers h).pc=.cancel →
      Turn s (.handler h ok) (setHandler s h {s.handlers h with pc := .stop, cancelled := true})
  | unregisters {ok : Bool} (h : Nat) : (s.handlers h).pc=.unregister →
      Turn s (.handler h ok) {goTo s h .release with wsConns := s.wsConns.erase h}
  | releases {ok : Bool} (h : Nat) : (s.handlers h).pc=.release → (s.handlers h).once=false →
      s.list.mu=none →
      Turn s (.handler h ok) {setHandler s h {s.handlers h with
          pc := .releaseHandshake, once := true, slot := (s.handlers h).slot++[SlotEvent.released]} with
        list := {s.list with reservedViewers := s.list.reservedViewers-1}}
  | consumed {ok : Bool} (h : Nat) : (s.handlers h).pc=.release → (s.handlers h).once=true →
      Turn s (.handler h ok) (goTo s h .releaseHandshake)
  | ends {ok : Bool} (h : Nat) : (s.handlers h).pc=.releaseHandshake →
      Turn s (.handler h ok) (releaseHandshake s h)
  | injects (h : Nat) (op : String) : (s.handlers h).pc=.write op →
      Turn s (.writeInput h true) {goTo s h .serve with socket := s.socket++[Sent.injectOp h op]}
  | keyframes (h : Nat) : Turn s (.keyframe h) {s with socket := s.socket++[Sent.forceKeyframe h]}
  | rates {a : Act} (h : Nat) (r r' : RatePc) : (s.handlers h).rate=r → RateFlow s h r r' →
      Turn s a (rateAt s h r')
  | loads (h : Nat) : (s.handlers h).rate=.ticked → s.list.primary h=true →
      Turn s (.checkPrimary h) (rateAt s h .primary)
  | keeps (h : Nat) (est : Int) : (s.handlers h).rate=.primary → (s.handlers h).lastSent≠0 →
      delta (target s.rates est) (s.handlers h).lastSent<threshold (s.handlers h).lastSent →
      Turn s (.estimate h (some est)) (complete (rateAt s h .waiting) h (target s.rates est))
  | sends (h : Nat) (r : Int) : (s.handlers h).rate=.sending r →
      Turn s (.writeRate h true) (complete {setHandler s h {s.handlers h with rate := .waiting, lastSent := r} with
        socket := s.socket++[Sent.setBitrate h (payload r)]} h r)
  | notSent (h : Nat) (r : Int) : (s.handlers h).rate=.sending r →
      Turn s (.writeRate h false) (complete (rateAt s h .waiting) h r)

variable {ok : Bool}

theorem acquire_turn (hpc : (s.handlers h).pc=.acquire) : Turn s (.handler h ok) (acquireHandshakeSlot s h) := by
  simp only [acquireHandshakeSlot]
  split
  · exact .flows h _ _ hpc .tooMany
  · exact .acquires h hpc (by omega)

theorem reserve_turn (hpc : (s.handlers h).pc=.reserve) (ht : reserve s h=some t) : Turn s (.handler h ok) t := by
  obtain ⟨hmu,ht⟩ := ite_none_right_eq_some.mp ht
  unfold ViewerList.tryReserveViewerSlot at ht
  by_cases hroom : s.list.cfg.viewers ≤ s.list.viewers.length+s.list.reservedViewers
  · rw [if_pos hroom] at ht
    cases ht
    exact .flows h _ _ hpc .full
  · rw [if_neg hroom] at ht
    cases ht
    exact .reserves h hpc hmu (by omega)

theorem commit_turn (hpc : (s.handlers h).pc=.commit) (ht : commit s h=some t) : Turn s (.handler h ok) t := by
  obtain ⟨l,hl,rfl⟩ := map_eq_some_iff.mp ht
  obtain ⟨⟨hmu,hnew⟩,⟨⟩⟩ := ite_none_right_eq_some.mp hl
  by_cases hroom : s.list.cfg.viewers ≤ s.list.viewers.length
  · have hl : ViewerList.addViewer s.list h =
        {s.list with reservedViewers := s.list.reservedViewers-1} := if_pos hroom
    rw [hl,if_pos hmu]
    exact .refuses h hpc hmu hroom
  · have hl : ViewerList.addViewer s.list h={s.list with
          reservedViewers := s.list.reservedViewers-1
          mu := some (.demote h s.list.viewers)
          primary := update s.list.primary h false} := if_neg hroom
    rw [hl,if_neg (some_ne_none _)]
    exact .enters h hpc hmu hnew (by omega)

theorem add_turn (hpc : (s.handlers h).pc=.adding) (ht : add s h=some t) : Turn s (.handler h ok) t := by
  simp only [add] at ht
  split at ht
  case h_1 v rest hmu =>
    obtain ⟨rfl,hadd⟩ := ite_none_right_eq_some.mp ht
    obtain ⟨l,hl,rfl⟩ := map_eq_some_iff.mp hadd
    exact .demotes v rest l hpc hmu hl
  case h_2 v hmu =>
    obtain ⟨rfl,hadd⟩ := ite_none_right_eq_some.mp ht
    simp only [ViewerList.proceed,hmu,map_some] at hadd
    cases hadd
    exact .joins v hpc hmu
  case h_3 => cases ht

theorem handOver_turn (hpc : (s.handlers h).pc=.leaving) (ht : handOver s h=some t) : Turn s (.handler h ok) t := by
  simp only [handOver] at ht
  split at ht
  case h_1 v hmu =>
    obtain ⟨rfl,hleft⟩ := ite_none_right_eq_some.mp ht
    simp only [ViewerList.proceed,hmu,map_some] at hleft
    cases hleft
    exact .handsOver v hpc hmu
  case h_2 => cases ht

theorem leave_turn (hpc : (s.handlers h).pc=.leave) (ht : leave s h=some t) : Turn s (.handler h ok) t := by
  obtain ⟨l,hl,rfl⟩ := map_eq_some_iff.mp ht
  obtain ⟨⟨hmu,hadd⟩,⟨⟩⟩ := ite_none_right_eq_some.mp hl
  exact .leaves h hpc hmu hadd

theorem release_turn (hpc : (s.handlers h).pc=.release) (ht : release s h=some t) : Turn s (.handler h ok) t := by
  simp only [release] at ht
  cases ho : (s.handlers h).once with
  | true =>
    rw [ho,if_pos rfl] at ht
    cases ht
    exact .consumed h hpc ho
  | false =>
    rw [ho,if_neg Bool.false_ne_true] at ht
    obtain ⟨l,hl,rfl⟩ := map_eq_some_iff.mp ht
    obtain ⟨hmu,⟨⟩⟩ := ite_none_right_eq_some.mp hl
    exact .releases h hpc ho hmu

theorem handlerStep_turn (ht : handlerStep s h ok=some t) : Turn s (.handler h ok) t := by
  unfold handlerStep at ht
  split at ht
  case h_1 hpc =>
    cases ok <;> cases ht
    · exact .flows h _ _ hpc .unauthorized
    · exact .flows h _ _ hpc .admitted
  case h_2 hpc => cases ht; exact acquire_turn hpc
  case h_3 hpc => exact reserve_turn hpc ht
  case h_4 hpc =>
    cases ok <;> cases ht
    · exact .flows h _ _ hpc .notUpgraded
    · exact .flows h _ _ hpc .upgraded
  case h_5 hpc => cases ht; exact .registers h hpc
  case h_6 k hpc =>
    cases ok <;> cases ht
    · exact .flows h _ _ hpc (.failed k)
    · exact .flows h _ _ hpc (.setUp k)
  case h_7 hpc => exact commit_turn hpc ht
  case h_8 hpc => exact add_turn hpc ht
  case h_9 hpc => exact leave_turn hpc ht
  case h_10 hpc => exact handOver_turn hpc ht
  case h_11 hpc => cases ht; exact .cancels h hpc
  case h_12 hpc => cases ht; exact .flows h _ _ hpc .stopped
  case h_13 hpc => cases ht; exact .unregisters h hpc
  case h_14 hpc => exact release_turn hpc ht
  case h_15 hpc => cases ht; exact .ends h hpc
  case h_16 => cases ht

theorem step_turn (ht : step s a=some t) : Turn s a t := by
  cases a with
  | request h ip =>
    obtain ⟨hnew,⟨⟩⟩ := ite_none_left_eq_some.mp ht
    exact .requests h ip hnew
  | keyframe h =>
    obtain ⟨_,⟨⟩⟩ := ite_none_left_eq_some.mp ht
    exact .keyframes h
  | handler => exact handlerStep_turn ht
  | read h m =>
    simp only [step,read] at ht
    split at ht
    next hpc =>
      cases m with
      | closed => cases ht; exact .flows h _ _ hpc .closed
      | offer ok =>
        cases ok <;> cases ht
        · exact .flows h _ _ hpc .closed
        · exact .stays
      | event raw => cases ht; exact .flows h _ _ hpc (.received raw)
      | other => cases ht; exact .stays
    · cases ht
  | loadPrimary h =>
    simp only [step,loadPrimary] at ht
    split at ht <;> cases ht
    split
    next raw hpc hp => exact .flows h _ _ hpc (.primary raw hp)
    next raw hpc _ => exact .flows h _ _ hpc (.observer raw)
  | translate h op =>
    simp only [step,translate] at ht
    split at ht <;> cases ht
    next raw hpc =>
      cases op with
      | none => exact .flows h _ _ hpc (.untranslated raw)
      | some op => exact .flows h _ _ hpc (.translated raw op)
  | writeInput h ok =>
    simp only [step,writeInput] at ht
    split at ht
    next op hpc =>
      cases ok <;> cases ht
      · exact .flows h _ _ hpc (.notWritten op)
      · exact .injects h op hpc
    · cases ht
  | select h =>
    simp only [step,select] at ht
    repeat' split at ht
    all_goals cases ht
    · exact .rates h _ _ ‹_› .fires
    · exact .rates h _ _ ‹_› (.exits ‹_›)
  | checkPrimary h =>
    simp only [step,checkPrimary] at ht
    split at ht <;> cases ht
    split
    next hr hp => exact .loads h hr hp
    next hr _ => exact .rates h _ _ hr .observer
  | estimate h est =>
    simp only [step,estimate] at ht
    repeat' split at ht
    all_goals cases ht
    · exact .rates h _ _ ‹_› .noEstimate
    next hr _ est hsame => exact .keeps h est hr hsame.1 hsame.2
    next hr _ est _ => exact .rates h _ _ hr (.decides est)
  | writeRate h ok =>
    simp only [step,writeRate] at ht
    split at ht
    next r hr =>
      cases ok <;> cases ht
      · exact .notSent h r hr
      · exact .sends h r hr
    · cases ht

theorem turn_rates (ht : Turn s a t) : t.rates=s.rates := by
  cases ht with
  | keeps | sends | notSent => exact complete_rates ..
  | _ => rfl

/- Who writes a frame, and where it is then. -/
inductive Written (s : State) : Sent → Prop
  | injectOp (h : Nat) (op : String) : (s.handlers h).pc=.write op → Written s (.injectOp h op)
  | forceKeyframe (h : Nat) : Written s (.forceKeyframe h)
  | setBitrate (h : Nat) (r : Int) : (s.handlers h).rate=.sending r → Written s (.setBitrate h (payload r))

theorem turn_written {x : Sent} (ht : Turn s a t) (hw : t.socket=s.socket++[x]) : Written s x := by
  have hne : s.socket≠s.socket++[x] := by simp
  cases ht with
  | injects h op hpc =>
    cases List.append_cancel_left hw
    exact .injectOp h op hpc
  | keyframes h =>
    cases List.append_cancel_left hw
    exact .forceKeyframe h
  | sends h r hr =>
    rw [complete_socket] at hw
    cases List.append_cancel_left hw
    exact .setBitrate h r hr
  | keeps | notSent =>
    rw [complete_socket] at hw
    exact absurd hw hne
  | _ => exact absurd hw hne

end Waymux.Bridge.Handlers
