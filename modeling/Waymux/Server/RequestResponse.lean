import Waymux.Interleave.Logs
import Waymux.Server.ConnectionCases

/-!
# Requests and their responses on one connection

Nothing is executed before a hello was accepted, and the response frames answer the decoded requests
in order.
-/

namespace Waymux.Server.RequestResponse
open Framing.LengthPrefix Wire.FrameCodec Messages Dispatch Connection ConnectionCases List
open Interleave.Runs Interleave.Logs

variable {c : Coders} {s t : State} {a : Act}
variable {i : Item} {rest part left out got : Bytes} {fs : List Forwarder} {hd : Option Nat} {req : Request}

/-! ### The requests of a byte stream -/

def decoded {α : Type} (mp : Msgpack α) : List Bytes → List α
  | [] => []
  | f::fs => match decodeFrame mp f with
    | .ok v => v::decoded mp fs
    | .error _ => []

def requestsIn (c : Coders) (bytes : Bytes) : List Request :=
  decoded c.request (framesIn maxFrameSize bytes)

theorem requestsIn_ok {bytes frame : Bytes} {r : Request}
    (hs : scan maxFrameSize bytes=.whole frame rest) (hd : decodeFrame c.request frame=.ok r) :
    requestsIn c bytes=r::requestsIn c rest := by
  simp [requestsIn,framesIn_whole hs,decoded,hd]

theorem requestsIn_short {bytes : Bytes} (hs : scan maxFrameSize bytes=.short) : requestsIn c bytes=[] := by
  have hstuck : framesIn maxFrameSize bytes=[] := by
    apply framesIn_stuck
    intro f rest hw
    rw [hs] at hw
    cases hw
  simp [requestsIn,hstuck,decoded]

/-! ### The property -/

def Item.answerId (i : Item) : Option Nat :=
  match i.msg with
  | .response r => some r.id
  | .event _ => none

def answers (items : List Item) : List Nat := items.filterMap Item.answerId

def openId : Reader → List Nat
  | .calling id _ _ => [id]
  | .subscribing id _ => [id]
  | .replaying id _ _ _ => [id]
  | .responding r => [r.id]
  | .reading => []
  | .closed => []

def Mark.isHello (m : Mark) : Prop := m=.helloAccepted
def Mark.isOp (m : Mark) : Prop := ∃ op,m=.executed op

structure Quiet (s : State) : Prop where
  reader : openId s.reader=[]
  queue : s.queue=[]
  writer : s.writer=.idle

structure Conforms (c : Coders) (s : State) : Prop where
  /-- no operation before an accepted hello -/
  gated : Precedes Mark.isHello Mark.isOp s.trace
  /-- the connection is negotiated exactly when an acceptable hello was decoded -/
  negotiated : s.negotiated=s.requests.any fun r => acceptsHello r.method
  /-- the frames on the wire are those of the messages written -/
  frames : (framesIn maxFrameSize s.wire).map some=s.written.map (frameOf c)
  /-- what was decoded is what the client's bytes begin with -/
  requests : s.requests <+: requestsIn c s.received
  /-- all of it while the reader runs and waits for more bytes -/
  upToDate : s.reader.isClosed=false → scan maxFrameSize s.unread=.short →
    s.requests=requestsIn c s.received
  /-- responses in order, one a request -/
  inOrder : answers s.written <+: s.requests.map Request.id
  /-- and none missing unless the writer has closed the connection -/
  complete : Quiet s → answers s.written=s.requests.map Request.id

/-! ### What the client has sent and what was decoded -/

structure Parsed (c : Coders) (s : State) (got : Bytes) : Prop where
  split : s.received=got++s.unread
  decoded : ∀ more,s.requests <+: requestsIn c (got++more)
  exact : s.reader.isClosed=false → ∀ more,requestsIn c (got++more)=s.requests++requestsIn c more

theorem handleRequest_fields (r : Request) (s : State) :
    (handleRequest c r s).received=s.received ∧ (handleRequest c r s).unread=s.unread ∧
      (handleRequest c r s).requests=s.requests ∧ (handleRequest c r s).sent=s.sent ∧
      (handleRequest c r s).queue=s.queue ∧ (handleRequest c r s).writer=s.writer ∧
      (handleRequest c r s).written=s.written ∧ (handleRequest c r s).wire=s.wire ∧
      openId (handleRequest c r s).reader=[r.id] ∧ (handleRequest c r s).reader.isClosed=false := by
  unfold handleRequest
  split
  · refine ⟨rfl,rfl,rfl,rfl,rfl,rfl,rfl,rfl,?_,?_⟩ <;> unfold dispatched <;> split <;> rfl
  · exact ⟨rfl,rfl,rfl,rfl,rfl,rfl,rfl,rfl,by simp [openId,handleHelloGate_id],rfl⟩

theorem Parsed.request {frame : Bytes} (hp : Parsed c s got) (hr : s.reader=.reading)
    (hscan : scan maxFrameSize s.unread=.whole frame rest) (hdec : decodeFrame c.request frame=.ok req) :
    Parsed c (handleRequest c req {s with unread := rest, requests := s.requests++[req]}) (got++frame) := by
  have hopen : s.reader.isClosed=false := by rw [hr]; rfl
  obtain ⟨hsplit,-,hagain⟩ := scan_whole hscan
  obtain ⟨h1,h2,h3,-,-,-,-,-,-,-⟩ := handleRequest_fields (c := c) req
    {s with unread := rest, requests := s.requests++[req]}
  have hex (more : Bytes) : requestsIn c (got++frame++more) =
      s.requests++[req]++requestsIn c more := by
    rw [append_assoc,hp.exact hopen,requestsIn_ok (hagain more) hdec,append_assoc]
    rfl
  refine ⟨?_,fun more => ?_,fun _ more => ?_⟩
  · rw [h1,h2,append_assoc,← hsplit]
    exact hp.split
  · rw [h3,hex]
    exact prefix_append _ _
  · rw [h3,hex]

theorem Parsed.undecoded {frame : Bytes} (hp : Parsed c s got) (hr : s.reader=.reading)
    (hscan : scan maxFrameSize s.unread=.whole frame rest) :
    Parsed c {s with unread := rest}.hangUp (got++frame) := by
  have hopen : s.reader.isClosed=false := by rw [hr]; rfl
  refine ⟨?_,fun more => ?_,nofun⟩
  · show s.received=got++frame++rest
    rw [append_assoc,← (scan_whole hscan).1]
    exact hp.split
  · rw [append_assoc,hp.exact hopen]
    exact prefix_append _ _

/-! ### From the reader to the queue -/

/-- A response is dropped only when the queue is closed, and then the reader ends as well. -/
def Answered (s : State) : Prop :=
  answers s.sent++openId s.reader=s.requests.map Request.id ∨
    s.writer=.closed ∧ s.reader=.closed ∧ answers s.sent <+: s.requests.map Request.id

theorem Answered.listed (h : Answered s) : answers s.sent <+: s.requests.map Request.id := by
  rcases h with h | ⟨-,-,h⟩
  · exact ⟨_,h⟩
  · exact h

theorem Answered.running (h : Answered s) (hr : s.reader≠.closed) :
    answers s.sent++openId s.reader=s.requests.map Request.id := by
  rcases h with h | ⟨-,hc,-⟩
  · exact h
  · exact absurd hc hr

theorem Answered.move (h : Answered s) (hr : s.reader≠.closed) (hs : answers t.sent=answers s.sent)
    (hq : t.requests=s.requests) (ho : openId t.reader=openId s.reader) : Answered t := by
  refine .inl ?_
  rw [hs,ho,hq]
  exact h.running hr

theorem answers_event {items : List Item} {e : Event} (hi : i.msg=.event e) :
    answers (items++[i])=answers items := by
  simp [answers,Item.answerId,hi]

theorem answers_response {items : List Item} {r : Response} {o : Origin} :
    answers (items++[⟨.response r,o⟩])=answers items++[r.id] := by
  simp [answers,Item.answerId]

/-! ### From the queue to the wire -/

def inHand : Writer → List Item
  | .writing i _ => [i]
  | .idle => []
  | .closed => []

/-- The queue is first in, first out, and closing it drops what it holds. -/
structure Fifo (s : State) : Prop where
  written : s.written <+: s.sent
  running : s.writer≠.closed → s.sent=s.written++inHand s.writer++s.queue

def Begun (c : Coders) (part : Bytes) : Writer → Prop
  | .idle => part=[]
  | .writing i left => frameOf c i=some (part++left) ∧ left≠[]
  | .closed => part=[] ∨ ∃ i left,frameOf c i=some (part++left) ∧ left≠[]

structure Wired (c : Coders) (s : State) (part : Bytes) : Prop where
  wire : s.wire=(s.written.filterMap (frameOf c)).flatten++part
  framed : ∀ i∈s.written,∃ f,frameOf c i=some f
  begun : Begun c part s.writer

theorem frameOf_framed {f : Bytes} (h : frameOf c i=some f) :
    ∃ payload,payload.length ≤ maxFrameSize ∧ f=frame payload := by
  unfold frameOf at h
  split at h <;> exact framed_eq h

theorem frameOf_ne_nil {f : Bytes} (h : frameOf c i=some f) : f≠[] := by
  obtain ⟨payload,-,rfl⟩ := frameOf_framed h
  exact frame_ne_nil

theorem Wired.frames (hw : Wired c s part) :
    (framesIn maxFrameSize s.wire).map some=s.written.map (frameOf c) := by
  have hfs : ∀ f∈s.written.filterMap (frameOf c),∃ p,p.length ≤ maxFrameSize ∧ f=frame p := by
    intro f hf
    obtain ⟨i,-,hi⟩ := mem_filterMap.mp hf
    exact frameOf_framed hi
  have hsplit : framesIn maxFrameSize s.wire=s.written.filterMap (frameOf c) := by
    rw [hw.wire]
    -- the part on the wire, if there is one, belongs to a frame within the limit
    have torn : part=[] ∨ ∃ i left,frameOf c i=some (part++left) ∧ left≠[] := by
      have hb:=hw.begun
      revert hb
      cases s.writer with
      | idle => exact .inl
      | writing i left => exact fun hb => .inr ⟨i,left,hb⟩
      | closed => exact id
    rcases torn with rfl | ⟨i,left,hi,hl⟩
    · exact framesIn_flatten maxFrameSize_lt hfs (.inl rfl)
    · obtain ⟨payload,hp,hf⟩ := frameOf_framed hi
      exact framesIn_flatten maxFrameSize_lt hfs (.inr ⟨payload,left,hp,hf,hl⟩)
  rw [hsplit,map_filterMap]
  -- every written message has a frame
  have hall:=hw.framed
  revert hall
  generalize s.written=items
  intro hall
  induction items with
  | nil => rfl
  | cons i items ih =>
    obtain ⟨f,hf⟩ := hall i mem_cons_self
    simp only [filterMap_cons,hf,Option.map_some,map_cons]
    rw [ih fun j hj => hall j (mem_cons_of_mem _ hj)]

theorem Wired.wrote (hw : Wired c s part) (hwr : s.writer=.writing i left) :
    Wired c {s with wire := s.wire++left, written := s.written++[i], writer := .idle} [] := by
  have hb:=hw.begun
  rw [hwr] at hb
  refine ⟨?_,fun j hj => ?_,rfl⟩
  · simp [hw.wire,hb.1]
  · rcases mem_append.mp hj with hj | hj
    · exact hw.framed j hj
    · exact ⟨_,mem_singleton.mp hj ▸ hb.1⟩

theorem Wired.wrotePart {n : Nat} (hw : Wired c s part)
    (hwr : s.writer=.writing i left) (hn : n<left.length) :
    Wired c {s with wire := s.wire++left.take n, writer := .writing i (left.drop n)} (part++left.take n) := by
  have hb:=hw.begun
  rw [hwr] at hb
  refine ⟨?_,hw.framed,?_,fun hnil => ?_⟩
  · rw [hw.wire,append_assoc]
  · rw [hb.1,append_assoc,take_append_drop]
  · have := drop_eq_nil_iff.mp hnil
    omega

theorem Wired.take {frame : Bytes} {rest : List Item} (hw : Wired c s part)
    (hidle : s.writer=.idle) (hf : frameOf c i=some frame) :
    Wired c {s with queue := rest, writer := .writing i frame} part := by
  have hb:=hw.begun
  rw [hidle] at hb
  obtain rfl : part=[] := hb
  exact ⟨hw.wire,hw.framed,hf,frameOf_ne_nil hf⟩

theorem Wired.close (hw : Wired c s part) : Begun c part .closed := by
  have hb:=hw.begun
  revert hb
  cases s.writer with
  | idle => exact .inl
  | writing i left => exact fun hb => .inr ⟨i,left,hb⟩
  | closed => exact id

theorem Fifo.take {rest : List Item} {frame : Bytes} (hf : Fifo s) (hidle : s.writer=.idle)
    (hq : s.queue=i::rest) : Fifo {s with queue := rest, writer := .writing i frame} := by
  have hrun:=hf.running (by rw [hidle]; nofun)
  rw [hidle,hq] at hrun
  exact ⟨hf.written,fun _ => by simpa [inHand] using hrun⟩

theorem Fifo.wrote (hf : Fifo s) (hwr : s.writer=.writing i left) :
    Fifo {s with wire := out, written := s.written++[i], writer := .idle} := by
  have hrun:=hf.running (by rw [hwr]; nofun)
  rw [hwr] at hrun
  exact ⟨⟨s.queue,hrun.symm⟩,fun _ => by simpa [inHand] using hrun⟩

theorem Fifo.wrotePart {left' : Bytes} (hf : Fifo s) (hwr : s.writer=.writing i left) :
    Fifo {s with wire := out, writer := .writing i left'} := by
  have hrun:=hf.running (by rw [hwr]; nofun)
  rw [hwr] at hrun
  exact ⟨hf.written,fun _ => hrun⟩

theorem Fifo.enqueue (hf : Fifo s) (i : Item) : Fifo (s.enqueue i) := by
  refine ⟨hf.written.trans (prefix_append _ _),fun hne => ?_⟩
  show s.sent++[i]=s.written++inHand s.writer++(s.queue++[i])
  rw [hf.running hne,append_assoc]

/-! ### The gate -/

def inDispatch : Reader → Bool
  | .calling .. => true
  | .subscribing .. => true
  | .replaying .. => true
  | _ => false

structure Gated (s : State) : Prop where
  precedes : Precedes Mark.isHello Mark.isOp s.trace
  seen : s.negotiated=true → .helloAccepted∈s.trace
  working : inDispatch s.reader=true → s.negotiated=true
  negotiated : s.negotiated=s.requests.any fun r => acceptsHello r.method

theorem Gated.executed (hg : Gated s) (hw : inDispatch s.reader=true) (op : Operation) :
    Precedes Mark.isHello Mark.isOp (s.executed op).trace ∧
      (s.negotiated=true → .helloAccepted∈(s.executed op).trace) := by
  have hseen:=hg.seen (hg.working hw)
  refine ⟨hg.precedes.append fun _ => ⟨_,hseen,rfl⟩,fun _ => ?_⟩
  exact mem_append_left _ hseen

theorem Gated.handle {r : Request} (hg : Gated s) :
    Gated (handleRequest c r {s with unread := rest, requests := s.requests++[r]}) := by
  unfold handleRequest
  split
  next hn =>
    have hn : s.negotiated=true := hn
    refine ⟨hg.precedes,hg.seen,fun _ => hn,?_⟩
    rw [any_append,← hg.negotiated,hn,Bool.true_or]
  next hn =>
    have hn : s.negotiated=false := Bool.eq_false_iff.mpr hn
    have hacc:=handleHelloGate_negotiated c.hello r
    refine ⟨?_,fun hyes => ?_,fun hw => (by cases hw),?_⟩
    · split
      · exact hg.precedes.append fun ⟨op,hop⟩ => by cases hop
      · exact hg.precedes
    · have hyes : (handleHelloGate c.hello r).2=true := hyes
      rw [if_pos hyes]
      simp
    · rw [hacc,any_append,← hg.negotiated,hn]
      simp

/-! ### All steps -/

def Hands (fs : List Forwarder) : Prop :=
  ∀ (f : Forwarder) (i : Item),f∈fs → f.hand=some i → ∃ e n,i=⟨.event e,.live n⟩

theorem Hands.set {k : Nat} {f : Forwarder} (h : Hands fs)
    (hf : ∀ i,f.hand=some i → ∃ e n,i=⟨.event e,.live n⟩) : Hands (fs.set k f) := by
  intro g i hg hi
  rcases mem_or_eq_of_mem_set hg with hg | rfl
  · exact h g i hg hi
  · exact hf i hi

theorem abortForwarder_hand (f : Forwarder) : (abortForwarder f).hand=f.hand := by
  unfold abortForwarder
  split <;> rfl

theorem Hands.abort (h : Hands s.forwarders) : Hands s.abort.forwarders := by
  intro g i hg hi
  rcases abort_cases s with ⟨k,-,hfs⟩ | ⟨-,hfs⟩
  · rw [hfs] at hg
    obtain ⟨j,hj,rfl⟩ := mem_iff_getElem.mp hg
    rw [getElem_modify] at hi
    split at hi
    · rw [abortForwarder_hand] at hi
      exact h _ i (getElem_mem _) hi
    · exact h _ i (getElem_mem _) hi
  · rw [hfs] at hg
    exact h g i hg hi

theorem Forwarder.took_hand {f : Forwarder} {p : Posted} (h : (f.took p).hand=some i) :
    i=⟨.event p.event,.live f.pos⟩ := by
  have h : (if _ then _ else _)=some i := h
  split at h
  · exact (Option.some.inj h).symm
  · cases h

structure Inv (c : Coders) (s : State) : Prop where
  parsed : ∃ got,Parsed c s got
  answered : Answered s
  fifo : Fifo s
  wired : ∃ part,Wired c s part
  gated : Gated s
  hands : Hands s.forwarders

theorem inv_init : Inv c init where
  parsed := ⟨[],rfl,fun _ => nil_prefix,fun _ _ => by simp [init]⟩
  answered := .inl rfl
  fifo := ⟨prefix_refl _,fun _ => rfl⟩
  wired := ⟨[],rfl,(fun _ h => by cases h),rfl⟩
  gated := ⟨precedes_nil _ _,nofun,nofun,rfl⟩
  hands := by
    intro f i hf
    cases hf

/-! #### Reader -/

section
variable (hi : Inv c s)
include hi

theorem Inv.closed {u : Bytes} (hr : s.reader=.reading) (hf : Hands fs)
    (hp : ∃ got,Parsed c {s with unread := u, reader := .closed, handle := hd, forwarders := fs} got) :
    Inv c {s with unread := u, reader := .closed, handle := hd, forwarders := fs} where
  parsed := hp
  answered := by
    have hids:=hi.answered.running (by rw [hr]; nofun)
    rw [hr] at hids
    exact .inl hids
  fifo := ⟨hi.fifo.written,hi.fifo.running⟩
  wired := hi.wired.imp fun _ hw => ⟨hw.wire,hw.framed,hw.begun⟩
  gated := ⟨hi.gated.precedes,hi.gated.seen,nofun,hi.gated.negotiated⟩
  hands := hf

theorem Inv.handle (hr : s.reader=.reading) (hp : ∃ got,Parsed c
      (handleRequest c req {s with unread := rest, requests := s.requests++[req]}) got) :
    Inv c (handleRequest c req {s with unread := rest, requests := s.requests++[req]}) := by
  have hids:=hi.answered.running (by rw [hr]; nofun)
  rw [hr] at hids
  have hids : answers s.sent++[]=s.requests.map Request.id := hids
  refine ⟨hp,.inl ?_,?_,?_,hi.gated.handle,?_⟩
  · obtain ⟨-,-,h3,h4,-,-,-,-,h9,-⟩ := handleRequest_fields (c := c) req
      {s with unread := rest, requests := s.requests++[req]}
    rw [h3,h4,h9]
    rw [map_append,← hids,append_nil]
    rfl
  · unfold handleRequest
    split <;> exact ⟨hi.fifo.written,hi.fifo.running⟩
  · obtain ⟨part,hw⟩ := hi.wired
    unfold handleRequest
    split <;> exact ⟨part,hw.wire,hw.framed,hw.begun⟩
  · unfold handleRequest
    split <;> exact hi.hands

theorem Inv.move {r : Reader} {tr : List Mark}
    {u : Option Subscription} (hr : inDispatch s.reader=true) (ho : openId r=openId s.reader)
    (hg : Precedes Mark.isHello Mark.isOp tr ∧ (s.negotiated=true → .helloAccepted∈tr)) (hf : Hands fs) :
    Inv c {s with reader := r, trace := tr, handle := hd, forwarders := fs, sub := u} := by
  have hopen : s.reader≠.closed := by
    intro hc
    rw [hc] at hr
    cases hr
  have hopen' : s.reader.isClosed=false := by
    revert hr
    cases s.reader <;> simp [inDispatch,Reader.isClosed]
  obtain ⟨got,hp⟩ := hi.parsed
  refine ⟨⟨got,hp.split,hp.decoded,fun _ => hp.exact hopen'⟩,?_,⟨hi.fifo.written,hi.fifo.running⟩,
    hi.wired.imp fun _ hw => ⟨hw.wire,hw.framed,hw.begun⟩,
    ⟨hg.1,hg.2,fun _ => hi.gated.working hr,hi.gated.negotiated⟩,hf⟩
  exact hi.answered.move hopen rfl rfl ho

theorem Inv.executed {r : Reader} {u : Option Subscription}
    {op : Operation} (hr : inDispatch s.reader=true) (ho : openId r=openId s.reader) (hf : Hands fs) :
    Inv c {s.executed op with reader := r, handle := hd, forwarders := fs, sub := u} :=
  hi.move hr ho (hi.gated.executed hr op) hf

theorem Inv.enqueue {e : Event} (he : i.msg=.event e) : Inv c (s.enqueue i) := by
  obtain ⟨got,hp⟩ := hi.parsed
  refine ⟨⟨got,hp.split,hp.decoded,hp.exact⟩,?_,hi.fifo.enqueue i,
    hi.wired.imp fun _ hw => ⟨hw.wire,hw.framed,hw.begun⟩,
    ⟨hi.gated.precedes,hi.gated.seen,hi.gated.working,hi.gated.negotiated⟩,hi.hands⟩
  have hsent : answers (s.enqueue i).sent=answers s.sent := answers_event he
  unfold Answered
  rw [hsent]
  exact hi.answered

theorem Inv.replay {id rx : Nat} {topics : List String} {w : Work} {rest : List Work}
    (hr : s.reader=.replaying id topics rx (w::rest)) (hc : Replayed s id topics rx rest w t) : Inv c t := by
  have hd : inDispatch s.reader=true := by rw [hr]; rfl
  have hsame : Precedes Mark.isHello Mark.isOp s.trace ∧
      (s.negotiated=true → .helloAccepted∈s.trace) := ⟨hi.gated.precedes,hi.gated.seen⟩
  cases hc with
  | found | absent => exact hi.executed hd (by rw [hr]; rfl) hi.hands
  | line session e =>
    have hi' : Inv c (s.enqueue (lineItem session e)) := hi.enqueue rfl
    exact hi'.move hd (by show _=openId s.reader; rw [hr]; rfl) hsame hi.hands
  | _ => exact hi.move hd (by rw [hr]; rfl) hsame hi.hands

theorem Inv.unanswered (hw : s.writer=.closed) : Inv c s.hangUp := by
  obtain ⟨got,hp⟩ := hi.parsed
  exact ⟨⟨got,hp.split,hp.decoded,nofun⟩,.inr ⟨hw,rfl,hi.answered.listed⟩,
    ⟨hi.fifo.written,hi.fifo.running⟩,hi.wired.imp fun _ hw => ⟨hw.wire,hw.framed,hw.begun⟩,
    ⟨hi.gated.precedes,hi.gated.seen,nofun,hi.gated.negotiated⟩,hi.hands.abort⟩

theorem Inv.respond {r : Response} (hr : s.reader=.responding r) :
    Inv c {s.enqueue ⟨.response r,.answer⟩ with reader := .reading} := by
  obtain ⟨got,hp⟩ := hi.parsed
  have hids:=hi.answered.running (by rw [hr]; nofun)
  rw [hr] at hids
  have hopen : s.reader.isClosed=false := by rw [hr]; rfl
  have hfifo:=hi.fifo.enqueue ⟨.response r,.answer⟩
  refine ⟨⟨got,hp.split,hp.decoded,fun _ => hp.exact hopen⟩,.inl ?_,
    ⟨hfifo.written,hfifo.running⟩,hi.wired.imp fun _ hw => ⟨hw.wire,hw.framed,hw.begun⟩,
    ⟨hi.gated.precedes,hi.gated.seen,nofun,hi.gated.negotiated⟩,hi.hands⟩
  show answers (s.sent++[⟨.response r,.answer⟩])++[]=s.requests.map Request.id
  rw [answers_response,append_nil]
  exact hids

/-! #### Forwarders and writer -/

theorem Inv.setForwarders (hf : Hands fs) : Inv c {s with forwarders := fs} := by
  obtain ⟨got,hp⟩ := hi.parsed
  exact ⟨⟨got,hp.split,hp.decoded,hp.exact⟩,hi.answered,⟨hi.fifo.written,hi.fifo.running⟩,
    hi.wired.imp fun _ hw => ⟨hw.wire,hw.framed,hw.begun⟩,
    ⟨hi.gated.precedes,hi.gated.seen,hi.gated.working,hi.gated.negotiated⟩,hf⟩

theorem Inv.writer {q : List Item} {w : Writer} {ws : List Item}
    (hw : ∃ part,Wired c {s with queue := q, writer := w, written := ws, wire := out} part)
    (hf : Fifo {s with queue := q, writer := w, written := ws, wire := out})
    (hopen : s.writer≠.closed) :
    Inv c {s with queue := q, writer := w, written := ws, wire := out} := by
  obtain ⟨got,hp⟩ := hi.parsed
  refine ⟨⟨got,hp.split,hp.decoded,hp.exact⟩,?_,hf,hw,
    ⟨hi.gated.precedes,hi.gated.seen,hi.gated.working,hi.gated.negotiated⟩,hi.hands⟩
  rcases hi.answered with h | ⟨hc,-⟩
  · exact .inl h
  · exact absurd hc hopen

theorem Inv.writerClosed {q : List Item} (hopen : s.writer≠.closed) :
    Inv c {s with queue := q, writer := .closed} :=
  hi.writer (hi.wired.imp fun _ hw => ⟨hw.wire,hw.framed,hw.close⟩)
    ⟨hi.fifo.written,fun hne => absurd rfl hne⟩ hopen

/-! #### The rest -/

theorem Inv.around {ss : List (String × Nat)} {rs : List Ring} {ds : List Drainer} {ps : List Posted}
    {pr : List Line} {un rc : Bytes} {ef : Bool} (hp : ∀ got,Parsed c s got → rc=got++un) :
    Inv c {s with unread := un, received := rc, eof := ef, sessions := ss, rings := rs, drainers := ds, posted := ps,
                   produced := pr} := by
  obtain ⟨got,hgot⟩ := hi.parsed
  exact ⟨⟨got,hp got hgot,hgot.decoded,hgot.exact⟩,hi.answered,⟨hi.fifo.written,hi.fifo.running⟩,
    hi.wired.imp fun _ hw => ⟨hw.wire,hw.framed,hw.begun⟩,
    ⟨hi.gated.precedes,hi.gated.seen,hi.gated.working,hi.gated.negotiated⟩,hi.hands⟩

theorem inv_step (h : step c s a=some t) : Inv c t := by
  obtain ⟨got,hp⟩ := hi.parsed
  cases step_cases h with
  | arrive => exact hi.around fun got hp => by rw [hp.split,append_assoc]
  | finish | world => exact hi.around fun got hp => hp.split
  | request frame rest req hr hs hd => exact hi.handle hr ⟨_,hp.request hr hs hd⟩
  | undecoded frame rest hr hs => exact hi.closed hr hi.hands.abort ⟨_,hp.undecoded hr hs⟩
  | eof hr => exact hi.closed hr hi.hands.abort ⟨got,hp.split,hp.decoded,nofun⟩
  | tooLong _ hr | cut hr | readError hr => exact hi.closed hr hi.hands ⟨got,hp.split,hp.decoded,nofun⟩
  | operate o id op code hr => exact hi.executed (by rw [hr]; rfl) (by rw [hr]; simp [openId]) hi.hands
  | subscribe id topics hr => exact hi.executed (by rw [hr]; rfl) (by rw [hr]; rfl) hi.hands.abort
  | replay id topics rx w rest hr hc => exact hi.replay hr hc
  | list order id topics rx rest hr => exact hi.executed (by rw [hr]; rfl) (by rw [hr]; rfl) hi.hands
  | spawnForwarder id topics rx hr =>
    refine hi.move (by rw [hr]; rfl) (by rw [hr]; simp [openId])
      ⟨hi.gated.precedes,hi.gated.seen⟩ ?_
    intro f i hf hhand
    rcases mem_append.mp hf with hf | hf
    · exact hi.hands f i hf hhand
    · rw [mem_singleton.mp hf] at hhand
      cases hhand
  | unanswered r hr hw => exact hi.unanswered hw
  | respond r hr => exact hi.respond hr
  | poll k f p => exact hi.setForwarders (hi.hands.set fun i htook => ⟨p.event,f.pos,Forwarder.took_hand htook⟩)
  | lagged k f hf hh => exact hi.setForwarders (hi.hands.set fun i hhand => by rw [hh] at hhand; cases hhand)
  | forward k f i hf hh =>
    obtain ⟨e,n,rfl⟩ := hi.hands f i (mem_of_getElem? hf) hh
    exact (hi.enqueue rfl).setForwarders (hi.hands.set fun _ h => by cases h)
  | take i rest frame hw hq hf =>
    exact hi.writer (hi.wired.imp fun _ h => h.take hw hf) (hi.fifo.take hw hq) (by rw [hw]; nofun)
  | wrote n i left hw =>
    obtain ⟨part,hwired⟩ := hi.wired
    exact hi.writer ⟨_,hwired.wrote hw⟩ (hi.fifo.wrote hw) (by rw [hw]; nofun)
  | wrotePart n i left hw hn hl =>
    obtain ⟨part,hwired⟩ := hi.wired
    exact hi.writer ⟨_,hwired.wrotePart hw hl⟩ (hi.fifo.wrotePart hw) (by rw [hw]; nofun)
  | unencoded _ _ hw | writeError _ _ hw | drained hw => exact hi.writerClosed (by rw [hw]; nofun)
  | _ => exact hi.setForwarders (hi.hands.set fun _ h => by cases h)

end

theorem inv_reach (hr : Reach (step c) Free init s) : Inv c s :=
  hr.keeps inv_init fun hi _ hs => inv_step hi hs

/-! ### Conformance -/

/-- For every byte stream and every interleaving, whatever the coders do. -/
theorem requests_answered_in_order (hr : Reach (step c) Free init s) : Conforms c s := by
  have hi:=inv_reach hr
  obtain ⟨got,hp⟩ := hi.parsed
  obtain ⟨part,hw⟩ := hi.wired
  refine ⟨hi.gated.precedes,hi.gated.negotiated,hw.frames,?_,fun hopen hshort => ?_,?_,fun hq => ?_⟩
  · rw [hp.split]
    exact hp.decoded _
  · rw [hp.split,hp.exact hopen,requestsIn_short hshort,append_nil]
  · exact (hi.fifo.written.filterMap _).trans hi.answered.listed
  · have hopen : s.writer≠.closed := by rw [hq.writer]; nofun
    have hsent:=hi.fifo.running hopen
    rw [hq.writer,hq.queue] at hsent
    have hsent : s.sent=s.written := by simpa [inHand] using hsent
    rcases hi.answered with h | ⟨hc,-⟩
    · rw [hq.reader,hsent,append_nil] at h
      exact h
    · exact absurd hc hopen

/-! ### A short conversation -/

def tableCoder {α : Type} [DecidableEq α] (table : List (Bytes × α)) : Msgpack α where
  write v := (table.find? (·.2 == v)).map Prod.fst
  read b := (table.find? (·.1 == b)).map Prod.snd

/- The map id, method, params with a hello of protocol `v`. -/
def helloBytes (id v : UInt8) : Bytes :=
  [0x83,0xa2,0x69,0x64,id,0xa6,0x6d,0x65,0x74,0x68,0x6f,0x64,0xa5,0x68,0x65,0x6c,0x6c,0x6f,
   0xa6,0x70,0x61,0x72,0x61,0x6d,0x73,0x81,
   0xaf,0x63,0x6c,0x69,0x65,0x6e,0x74,0x5f,0x70,0x72,0x6f,0x74,0x6f,0x63,0x6f,0x6c,v]

def listBytes (id : UInt8) : Bytes :=
  [0x82,0xa2,0x69,0x64,id,0xa6,0x6d,0x65,0x74,0x68,0x6f,0x64,
   0xad,0x6c,0x69,0x73,0x74,0x5f,0x73,0x65,0x73,0x73,0x69,0x6f,0x6e,0x73]

/- The map id, method, params with a subscription to one topic of six characters. -/
def subscribeBytes (id : UInt8) (topic : Bytes) : Bytes :=
  [0x83,0xa2,0x69,0x64,id,0xa6,0x6d,0x65,0x74,0x68,0x6f,0x64,0xa9,0x73,0x75,0x62,0x73,0x63,0x72,0x69,0x62,0x65,
   0xa6,0x70,0x61,0x72,0x61,0x6d,0x73,0x81,0xa6,0x74,0x6f,0x70,0x69,0x63,0x73,0x91,0xa6]++topic

def logsA : Bytes := [0x6c,0x6f,0x67,0x73,0x3a,0x61]

/- Responses as the map id, ok; events as the map id. -/
def coders : Coders where
  request := tableCoder [(helloBytes 1 9,⟨1,.hello 9⟩),(helloBytes 2 4,⟨2,.hello 4⟩),
    (listBytes 3,⟨3,.listSessions⟩),(subscribeBytes 4 logsA,⟨4,.subscribe ["logs:a"]⟩)]
  response := ⟨fun r => some [0x82,0xa2,0x69,0x64,.ofNat r.id,0xa2,0x6f,0x6b,if r.ok then 0xc3 else 0xc2],
    fun _ => none⟩
  event := ⟨fun _ => some [0x81,0xa2,0x69,0x64,0x00],fun _ => none⟩
  hello _ := .ok [0x80]
  unit := .ok [0x80]

def asks (payload : Bytes) : List Act := [.arrive (frame payload),.read]

def answered : List Act := [.respond,.take,.write 5,.write 8]

def helloTwice : List Act := asks (helloBytes 1 9)++answered++asks (helloBytes 2 4)++answered

theorem requests_answered_in_order_three : ∃ s,Reach (step coders) Free init s ∧
    s.requests=[⟨1,.hello 9⟩,⟨2,.hello 4⟩,⟨3,.listSessions⟩] ∧
    s.trace=[.helloAccepted,.executed .list] ∧ answers s.written=[1,2,3] ∧ Conforms coders s := by
  have hr : Reach (step coders) Free init _ :=
    reach_free (helloTwice++asks (listBytes 3)++([.operate (.ok (.ok [0x90]))] : List Act) ++
      answered) (by decide +kernel)
  refine ⟨_,hr,?_,?_,?_,requests_answered_in_order hr⟩ <;> decide +kernel

end Waymux.Server.RequestResponse
