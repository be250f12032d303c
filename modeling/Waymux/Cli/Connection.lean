import Waymux.Interleave.Runs
import Waymux.Server.Messages

/-!
# The client's end of a daemon connection (`connection.rs`)

Frames that a request does not recognise as its response are set aside for `read_raw_frame`.
-/

namespace Waymux.Cli.Connection
open Framing.LengthPrefix Wire.FrameCodec Server.Messages Interleave.Runs List Option

inductive Call
  | idle
  | request (id : Nat)
  | readRawFrame
  deriving DecidableEq, Repr

/-- `Connection` and the call that has borrowed it, over any type of frames. -/
structure Conn (F : Type) where
  nextId : Nat
  pendingEvents : List F
  call : Call
  deriving DecidableEq, Repr

variable {F R : Type}

def Conn.connect : Conn F := ⟨1,[],.idle⟩

/- `checked_add(1).unwrap_or(1)` -/
def succId (id : Nat) : Nat := if id+1<2^32 then id+1 else 1

/- `request` up to the write; the id is used up even when the encoding fails. -/
def Conn.request (c : Conn F) (encoded : Bool) : Conn F :=
  {c with nextId := succId c.nextId, call := if encoded then .request c.nextId else .idle}

/- `read_raw_frame` up to its first await. -/
def Conn.readRawFrame (c : Conn F) : Option F × Conn F :=
  match c.pendingEvents with
  | f::rest => (some f,{c with pendingEvents := rest})
  | [] => (none,{c with call := .readRawFrame})

inductive Taken (F R : Type)
  | answer (r : R)
  | returned (f : F)
  | setAside

/- `answer` is `decode_frame::<Response>` with the id of the response. -/
def Conn.take (answer : F → Option (Nat × R)) (c : Conn F) (f : F) : Option (Taken F R × Conn F) :=
  let aside:={c with pendingEvents := c.pendingEvents++[f]}
  match c.call with
  | .idle => none
  | .request id =>
      match answer f with
      | some (k,r) => if k=id then some (.answer r,{c with call := .idle}) else some (.setAside,aside)
      | none => some (.setAside,aside)
  | .readRawFrame => some (.returned f,{c with call := .idle})

structure Coders where
  request : Msgpack Request
  response : Msgpack Response

inductive Result
  | ok (r : Response)
  | failed (e : ResponseError)
  /-- `response not ok but no error body` -/
  | noErrorBody
  deriving DecidableEq, Repr

def settle (r : Response) : Result :=
  if r.ok then .ok r
  else match r.error with
    | some e => .failed e
    | none => .noErrorBody

def answerOf (c : Coders) (f : Bytes) : Option (Nat × Response) :=
  match decodeFrame c.response f with
  | .ok r => some (r.id,r)
  | .error _ => none

/- The length is a `u32` and is not checked further. -/
def frameLimit : Nat := 2^32-1

/-- A call that has returned, with the frames it read off the socket. -/
inductive Done
  | unsent (id : Nat)
  | request (id : Nat) (read : List Bytes) (result : Result)
  | readRawFrame (read : List Bytes) (frame : Bytes)
  deriving DecidableEq, Repr

structure State where
  conn : Conn Bytes
  inbound : Bytes
  outbound : Bytes
  -- observed only
  received : Bytes
  reading : List Bytes
  history : List Done
  deriving DecidableEq, Repr

def init : State := ⟨.connect,[],[],[],[],[]⟩

def request (c : Coders) (method : RequestMethod) (s : State) : Option State :=
  if s.conn.call≠.idle then none
  else match framed c.request ⟨s.conn.nextId,method⟩ with
    | some frame => some {s with conn := s.conn.request true, outbound := s.outbound++frame}
    | none => some {s with conn := s.conn.request false, history := s.history++[.unsent s.conn.nextId]}

def readRawFrame (s : State) : Option State :=
  if s.conn.call≠.idle then none
  else match s.conn.readRawFrame with
    | (some f,conn) => some {s with conn := conn, history := s.history++[.readRawFrame [] f]}
    | (none,conn) => some {s with conn := conn}

def finished (read : List Bytes) : Call → Taken Bytes Response → List Done
  | .request id, .answer r => [.request id read (settle r)]
  | _, .returned f => [.readRawFrame read f]
  | _, _ => []

/- `read_socket_frame` inside either call, once a whole frame is there. -/
def read (c : Coders) (s : State) : Option State :=
  match scan frameLimit s.inbound with
  | .whole f rest =>
      match s.conn.take (answerOf c) f with
      | some (taken,conn) => some {s with
          conn := conn
          inbound := rest
          reading := if conn.call=.idle then [] else s.reading++[f]
          history := s.history++finished (s.reading++[f]) s.conn.call taken}
      | none => none
  | _ => none

inductive Act
  | arrive (bytes : Bytes)
  | request (method : RequestMethod)
  | readRawFrame
  | read

def step (c : Coders) (s : State) : Act → Option State
  | .arrive bytes => some {s with inbound := s.inbound++bytes, received := s.received++bytes}
  | .request method => request c method s
  | .readRawFrame => readRawFrame s
  | .read => read c s

def Done.read : Done → List Bytes
  | .unsent _ => []
  | .request _ read _ => read
  | .readRawFrame read _ => read

def Done.others : Done → List Bytes
  | .unsent _ => []
  | .request _ read _ => read.dropLast
  | .readRawFrame read _ => read

def Done.returned : Done → List Bytes
  | .readRawFrame _ f => [f]
  | _ => []

def Answers (c : Coders) (id : Nat) (f : Bytes) (r : Response) : Prop := decodeFrame c.response f=.ok r ∧ r.id=id

/-- The response itself if it is ok, and its error otherwise. -/
def Outcome (r : Response) : Result → Prop
  | .ok r' => r.ok=true ∧ r'=r
  | .failed e => r.ok=false ∧ r.error=some e
  | .noErrorBody => r.ok=false ∧ r.error=none

/-- The last frame of `read` is the first one that is a response with this id, and the call returned it. -/
def FirstAnswer (c : Coders) (id : Nat) (read : List Bytes) (result : Result) : Prop :=
  ∃ skipped f r,read=skipped++[f] ∧ Answers c id f r ∧ (∀ g∈skipped,∀ r',¬Answers c id g r') ∧ Outcome r result

structure Demultiplexed (c : Coders) (s : State) : Prop where
  /-- what has been read is the stream, frame by frame -/
  stream : s.history.flatMap Done.read++s.reading++framesIn frameLimit s.inbound=framesIn frameLimit s.received
  /-- a request has taken the first frame it read that is a response with its id -/
  first : ∀ id read result,.request id read result∈s.history → FirstAnswer c id read result
  /-- and it goes on until there is one -/
  waiting : ∀ id,s.conn.call=.request id → ∀ g∈s.reading,∀ r,¬Answers c id g r
  enabled : s.conn.call≠.idle → framesIn frameLimit s.inbound≠[] → (step c s .read).isSome=true
  /-- the others come back once each and in order; those read and not yet returned are queued -/
  others : s.history.flatMap Done.returned++s.conn.pendingEvents=s.history.flatMap Done.others++s.reading
  /-- a call that read its frame off the socket leaves none behind -/
  caughtUp : ∀ earlier read f,s.history=earlier++[.readRawFrame read f] → read≠[] →
    s.history.flatMap Done.returned=s.history.flatMap Done.others

variable {c : Coders} {s t : State} {a : Act}

theorem settle_outcome (r : Response) : Outcome r (settle r) := by
  unfold settle
  cases hok : r.ok with
  | true => exact ⟨hok,rfl⟩
  | false => cases he : r.error <;> exact ⟨hok,he⟩

theorem answerOf_some {f : Bytes} {k : Nat} {r : Response} (h : answerOf c f=some (k,r)) : Answers c k f r := by
  unfold answerOf at h
  split at h
  next r' hr =>
    obtain ⟨rfl,rfl⟩ := h
    exact ⟨hr,rfl⟩
  · cases h

theorem answerOf_of_answers {f : Bytes} {id : Nat} {r : Response} (h : Answers c id f r) :
    answerOf c f=some (id,r) := by
  rw [answerOf,h.1,← h.2]

/-- It answers the request in progress, is set aside by it, or is what `read_raw_frame` waits for. -/
inductive Read (c : Coders) (s : State) (f rest : Bytes) : State → Prop
  | answered (id : Nat) (r : Response) (hc : s.conn.call=.request id) (hr : Answers c id f r) :
      Read c s f rest {s with
        conn := ⟨s.conn.nextId,s.conn.pendingEvents,.idle⟩
        inbound := rest
        reading := []
        history := s.history++[.request id (s.reading++[f]) (settle r)]}
  | setAside (id : Nat) (hc : s.conn.call=.request id) (hr : ∀ r,¬Answers c id f r) :
      Read c s f rest {s with
        conn := ⟨s.conn.nextId,s.conn.pendingEvents++[f],.request id⟩
        inbound := rest
        reading := s.reading++[f]}
  | returned (hc : s.conn.call=.readRawFrame) :
      Read c s f rest {s with
        conn := ⟨s.conn.nextId,s.conn.pendingEvents,.idle⟩
        inbound := rest
        reading := []
        history := s.history++[.readRawFrame (s.reading++[f]) f]}

theorem read_cases (h : read c s=some t) : ∃ f rest,scan frameLimit s.inbound=.whole f rest ∧
    Read c s f rest t := by
  unfold read at h
  split at h
  next f rest hscan =>
    refine ⟨f,rest,hscan,?_⟩
    cases hc : s.conn.call with
    | idle => simp [Conn.take,hc] at h
    | readRawFrame =>
      simp only [Conn.take,hc,finished,if_true,some.injEq] at h
      exact h ▸ .returned hc
    | request id =>
      have haside : ∀ r,answerOf c f=some (id,r) → Read c s f rest t := by
        intro r hr
        simp only [Conn.take,hc,hr,finished,if_true,some.injEq] at h
        exact h ▸ .answered id r hc (answerOf_some hr)
      cases hr : answerOf c f with
      | none =>
        simp only [Conn.take,hc,hr,finished,reduceCtorEq,if_false,append_nil,some.injEq] at h
        refine h ▸ .setAside id hc fun r hans => ?_
        rw [answerOf_of_answers hans] at hr
        cases hr
      | some x =>
        obtain ⟨k,r⟩ := x
        by_cases hk : k=id
        · exact haside r (hk ▸ hr)
        · simp only [Conn.take,hc,hr,hk,finished,reduceCtorEq,if_false,append_nil,some.injEq] at h
          refine h ▸ .setAside id hc fun r' hans => hk ?_
          rw [answerOf_of_answers hans] at hr
          cases hr
          rfl
  · cases h

theorem request_cases {method : RequestMethod} (h : request c method s=some t) : s.conn.call=.idle ∧
    ((∃ frame,t={s with conn := s.conn.request true, outbound := s.outbound++frame}) ∨
      t={s with conn := s.conn.request false, history := s.history++[.unsent s.conn.nextId]}) := by
  unfold request at h
  split at h
  · cases h
  next hc =>
    refine ⟨Decidable.not_not.mp hc,?_⟩
    split at h
    next frame _ => exact .inl ⟨frame,(some.inj h).symm⟩
    · exact .inr (some.inj h).symm

theorem readRawFrame_cases (h : readRawFrame s=some t) : s.conn.call=.idle ∧
    ((∃ f rest,s.conn.pendingEvents=f::rest ∧
        t={s with
          conn := ⟨s.conn.nextId,rest,.idle⟩
          history := s.history++[.readRawFrame [] f]}) ∨
      s.conn.pendingEvents=[] ∧ t={s with conn := ⟨s.conn.nextId,[],.readRawFrame⟩}) := by
  unfold readRawFrame Conn.readRawFrame at h
  split at h
  · cases h
  next hc =>
    have hidle:=Decidable.not_not.mp hc
    refine ⟨hidle,?_⟩
    cases hp : s.conn.pendingEvents with
    | nil =>
      simp only [hp,some.injEq] at h
      exact .inr ⟨rfl,h.symm⟩
    | cons f rest =>
      simp only [hp,hidle,some.injEq] at h
      exact .inl ⟨f,rest,rfl,h.symm⟩

def readSoFar (s : State) : List Bytes := s.history.flatMap Done.read++s.reading

structure Inv (c : Coders) (s : State) : Prop where
  bytes : (readSoFar s).flatten++s.inbound=s.received
  whole : ∀ f∈readSoFar s,∀ more,scan frameLimit (f++more)=.whole f more
  first : ∀ id read result,.request id read result∈s.history → FirstAnswer c id read result
  waiting : ∀ id,s.conn.call=.request id → ∀ g∈s.reading,∀ r,¬Answers c id g r
  others : s.history.flatMap Done.returned++s.conn.pendingEvents=s.history.flatMap Done.others++s.reading
  caughtUp : ∀ earlier read f,s.history=earlier++[.readRawFrame read f] → read≠[] →
    s.history.flatMap Done.returned=s.history.flatMap Done.others
  idle : s.conn.call=.idle → s.reading=[]
  raw : s.conn.call=.readRawFrame → s.reading=[] ∧ s.conn.pendingEvents=[]

theorem inv_init : Inv c init where
  bytes := rfl
  whole := nofun
  first := nofun
  waiting := nofun
  others := rfl
  caughtUp _ _ _ h := by simp [init] at h
  idle _ := rfl
  raw := nofun

theorem Inv.request {method : RequestMethod} (hi : Inv c s) (h : Connection.request c method s=some t) : Inv c t := by
  obtain ⟨hc,⟨frame,rfl⟩ | rfl⟩ := request_cases h
  · refine {hi with waiting := fun _ _ g hg => ?_, idle := nofun, raw := nofun}
    rw [hi.idle hc] at hg
    cases hg
  · refine ⟨?_,?_,fun id read result hm => ?_,nofun,?_,fun earlier read f he => ?_,fun _ => hi.idle hc,nofun⟩
    · simpa [readSoFar,Done.read] using hi.bytes
    · simpa [readSoFar,Done.read] using hi.whole
    · exact hi.first id read result (by simpa using hm)
    · simpa [Conn.request,Done.returned,Done.others] using hi.others
    · have := append_inj_right' he rfl
      simp at this

theorem Inv.readRawFrame (hi : Inv c s) (h : Connection.readRawFrame s=some t) : Inv c t := by
  obtain ⟨hc,⟨f,rest,hp,rfl⟩ | ⟨hp,rfl⟩⟩ := readRawFrame_cases h
  · refine ⟨?_,?_,fun id read result hm => ?_,nofun,?_,fun earlier read g he hne => ?_,
      fun _ => hi.idle hc,nofun⟩
    · simpa [readSoFar,Done.read] using hi.bytes
    · simpa [readSoFar,Done.read] using hi.whole
    · exact hi.first id read result (by simpa using hm)
    · have ho:=hi.others
      rw [hp] at ho
      simpa [Done.returned,Done.others] using ho
    · have := append_inj_right' he rfl
      simp only [List.cons.injEq,Done.readRawFrame.injEq,and_true] at this
      exact absurd this.1.symm hne
  · have ho:=hi.others
    rw [hp] at ho
    exact ⟨hi.bytes,hi.whole,hi.first,nofun,ho,hi.caughtUp,nofun,fun _ => ⟨hi.idle hc,rfl⟩⟩

theorem Inv.read (hi : Inv c s) (h : Connection.read c s=some t) : Inv c t := by
  obtain ⟨f,rest,hscan,hr⟩ := read_cases h
  obtain ⟨hin,-,hwhole⟩ := scan_whole hscan
  -- one more frame of the stream has been read
  have hbytes : (readSoFar s++[f]).flatten++rest=s.received := by
    rw [flatten_append,flatten_singleton,append_assoc,← hin]
    exact hi.bytes
  have hall : ∀ g∈readSoFar s++[f],∀ more,scan frameLimit (g++more)=.whole g more := by
    intro g hg
    rcases mem_append.mp hg with hg | hg
    · exact hi.whole g hg
    · rw [mem_singleton.mp hg]
      exact hwhole
  cases hr with
  | answered id r hc hans =>
    refine ⟨?_,?_,fun id' read result hm => ?_,nofun,?_,fun earlier read g he => ?_,fun _ => rfl,nofun⟩
    · simpa [readSoFar,Done.read] using hbytes
    · simpa [readSoFar,Done.read] using hall
    · rcases mem_append.mp hm with hm | hm
      · exact hi.first id' read result hm
      · simp only [mem_singleton,Done.request.injEq] at hm
        obtain ⟨rfl,rfl,rfl⟩ := hm
        exact ⟨s.reading,f,r,rfl,hans,hi.waiting _ hc,settle_outcome r⟩
    · simpa [Done.returned,Done.others] using hi.others
    · have := append_inj_right' he rfl
      simp at this
  | setAside id hc hno =>
    refine ⟨?_,?_,hi.first,fun id' hcall g hg r => ?_,?_,hi.caughtUp,nofun,nofun⟩
    · simpa [readSoFar] using hbytes
    · simpa [readSoFar] using hall
    · obtain rfl : id=id' := by simpa using hcall
      rcases mem_append.mp hg with hg | hg
      · exact hi.waiting id hc g hg r
      · rw [mem_singleton.mp hg]
        exact hno r
    · have ho:=hi.others
      rw [← append_assoc,ho,append_assoc]
  | returned hc =>
    obtain ⟨hreading,hp⟩ := hi.raw hc
    have ho : s.history.flatMap Done.returned=s.history.flatMap Done.others := by
      have ho:=hi.others
      rwa [hreading,hp,append_nil,append_nil] at ho
    refine ⟨?_,?_,fun id' read result hm => ?_,nofun,?_,fun earlier read g he hne => ?_,fun _ => rfl,nofun⟩
    · simpa [readSoFar,Done.read] using hbytes
    · simpa [readSoFar,Done.read] using hall
    · exact hi.first id' read result (by simpa using hm)
    · simp [Done.returned,Done.others,ho,hp,hreading]
    · simp [Done.returned,Done.others,ho,hreading]

theorem inv_step (hi : Inv c s) (h : step c s a=some t) : Inv c t := by
  cases a with
  | arrive bytes =>
    cases h
    refine {hi with bytes := ?_}
    show (readSoFar s).flatten++(s.inbound++bytes)=s.received++bytes
    rw [← append_assoc,hi.bytes]
  | request => exact hi.request h
  | readRawFrame => exact hi.readRawFrame h
  | read => exact hi.read h

theorem read_enabled (hc : s.conn.call≠.idle) (hf : framesIn frameLimit s.inbound≠[]) :
    (step c s .read).isSome=true := by
  have htake : ∀ f,(s.conn.take (answerOf c) f).isSome=true := by
    intro f
    unfold Conn.take
    cases hcall : s.conn.call with
    | idle => exact absurd hcall hc
    | readRawFrame => rfl
    | request id =>
      cases answerOf c f with
      | none => rfl
      | some x => by_cases hx : x.1=id <;> simp [hx]
  cases hs : scan frameLimit s.inbound with
  | whole f =>
    obtain ⟨x,hx⟩ := isSome_iff_exists.mp (htake f)
    simp [step,read,hs,hx]
  | _ =>
    refine absurd (framesIn_stuck fun f rest hw => ?_) hf
    rw [hs] at hw
    cases hw

/-- For every byte stream, in any chunks, and every sequence of calls. -/
theorem calls_demultiplexed (h : Reach (step c) Free init s) : Demultiplexed c s := by
  have hi : Inv c s := h.keeps inv_init fun hi _ ha => inv_step hi ha
  refine ⟨?_,hi.first,hi.waiting,read_enabled,hi.others,hi.caughtUp⟩
  rw [← hi.bytes,framesIn_append hi.whole]
  rfl

def okBytes (id : UInt8) : Bytes := [0x82,0xa2,0x69,0x64,id,0xa2,0x6f,0x6b,0xc3]

def failedBytes : Bytes := [0x82,0xa2,0x69,0x64,0x02,0xa2,0x6f,0x6b,0xc2]

def noSession : ResponseError := .new .notFound "session not found"

def eventBytes : Bytes := [0x81,0xa2,0x69,0x64,0x00]

def coders : Coders where
  request := ⟨fun r => some [0x81,0xa2,0x69,0x64,.ofNat r.id],fun _ => none⟩
  response := ⟨fun _ => none,fun b =>
    if b=okBytes 1 then some ⟨1,true,none,none⟩
    else if b=okBytes 7 then some ⟨7,true,none,none⟩
    else if b=failedBytes then some ⟨2,false,none,some noSession⟩
    else none⟩

/-- An event and a response with another id arrive before the response; a second request is refused. -/
theorem calls_demultiplexed_two_aside : ∃ s,Reach (step coders) Free init s ∧
    s.history=[.request 1 [frame eventBytes,frame (okBytes 7),frame (okBytes 1)] (.ok ⟨1,true,none,none⟩),
      .readRawFrame [] (frame eventBytes),.request 2 [frame failedBytes] (.failed noSession),
      .readRawFrame [] (frame (okBytes 7))] ∧ Demultiplexed coders s := by
  have hr : Reach (step coders) Free init _ :=
    reach_free ([.request .listSessions,.arrive (frame eventBytes),.arrive ((frame (okBytes 7)).take 3),.read,
      .arrive ((frame (okBytes 7)).drop 3++frame (okBytes 1)),.read,.read,.readRawFrame,.request .listSessions,
      .arrive (frame failedBytes),.read,.readRawFrame] : List Act) (by decide +kernel)
  exact ⟨_,hr,by decide +kernel,calls_demultiplexed hr⟩

end Waymux.Cli.Connection
