import Waymux.Interleave.Simulation
import Waymux.Wire.Attempts
import Waymux.Wire.LinkCases
import Waymux.Wire.Streams

/-!
# Bytes refine frames

`ByteLink` is simulated by `Mailbox`: the last byte of a request delivers it and the last byte of a
response returns it.
-/

namespace Waymux.Wire.Delivery
open Framing.LengthPrefix FrameCodec ByteLink LinkCases Streams List Function

variable {Method Resp Sess : Type} {reqCoder : Msgpack (SessionCtlRequest Method)}
  {respCoder : Msgpack Resp} {dispatch : Sess → SessionCtlRequest Method → Sess × Resp}
  {s t : State Method Resp Sess} {a : Act Method}

inductive PcSim (respCoder : Msgpack Resp) : CallPc Resp → Mailbox.CallPc Bytes → Prop
  | idle : PcSim respCoder .idle .idle
  | queued : PcSim respCoder .queued .queued
  | writing (fresh : Bool) (k : Nat) (rest : Bytes) :
      PcSim respCoder (.writing fresh k rest) (.sending fresh)
  | reading (fresh : Bool) (k ask : Nat) (got : Bytes) :
      PcSim respCoder (.reading fresh k ask got) (.waiting fresh ask)
  | connecting : PcSim respCoder .connecting .connecting
  | failed : PcSim respCoder (.done none) (.done none)
  | answered (v : Resp) (f : Bytes) : decodeFrame respCoder f=.ok v →
      PcSim respCoder (.done (some v)) (.done (some f))

def SameExec (reqCoder : Msgpack (SessionCtlRequest Method)) (respCoder : Msgpack Resp)
    (e : Execution Method Resp) (y : Nat × Bytes × Bytes) : Prop :=
  e.call=some y.1 ∧ decodeFrame reqCoder y.2.1=.ok e.req ∧
    y.2.2=(framed respCoder e.resp).getD []

def frameDispatch (reqCoder : Msgpack (SessionCtlRequest Method)) (respCoder : Msgpack Resp)
    (dispatch : Sess → SessionCtlRequest Method → Sess × Resp) (v : Sess) (f : Bytes) : Sess × Bytes :=
  match decodeFrame reqCoder f with
  | .error _ => (v,[])
  | .ok req => ((dispatch v req).1,(framed respCoder (dispatch v req).2).getD [])

def frameFor (reqCoder : Msgpack (SessionCtlRequest Method)) (method : Method) : Bytes :=
  (framed reqCoder ⟨1,method⟩).getD []

structure Sim (reqCoder : Msgpack (SessionCtlRequest Method)) (respCoder : Msgpack Resp)
    (s : State Method Resp Sess) (m : Mailbox.State Bytes Bytes Sess) : Prop where
  sess : m.sess=s.sess
  holder : m.holder=s.holder
  slot : m.slot=s.slot.isSome
  next : m.next=s.asked
  reqs : ∀ c,m.reqs c=(s.methods c).map (frameFor reqCoder)
  calls : ∀ c,PcSim respCoder (s.calls c) (m.calls c)
  log : List.Forall₂ (SameExec reqCoder respCoder) s.log m.log
  inbox : ∀ ask c,m.inbox ask=some c ↔ ∃ k,(ask,c)∈(s.conns k).asks
  ready : Calls reqCoder s.calls s.holder s.bufs s.methods
  parcels : Parcels s.conns s.bufs s.opened s.asked
  current : Current respCoder m.replies s

section Steps
variable {m : Mailbox.State Bytes Bytes Sess} {c k : Nat}
variable {fresh : Bool} {rest got : Bytes} {n ask : Nat} {p : CallPc Resp}

/-- The frame machine stays where it is or takes one step; it gives up an
attempt only when the byte machine fails. -/
def Followed (reqCoder : Msgpack (SessionCtlRequest Method)) (respCoder : Msgpack Resp)
    (dispatch : Sess → SessionCtlRequest Method → Sess × Resp) (m : Mailbox.State Bytes Bytes Sess)
    (a : Act Method) (t : State Method Resp Sess) : Prop :=
  Sim reqCoder respCoder t m ∨
  ∃ x m',Mailbox.step (frameDispatch reqCoder respCoder dispatch) m x=some m' ∧
    Sim reqCoder respCoder t m' ∧ ∀ c,x=.lose c → a=.fail c

theorem calls_moved {calls : Nat → CallPc Resp} {frames : Nat → Mailbox.CallPc Bytes}
    {q : Mailbox.CallPc Bytes} (h : ∀ d,PcSim respCoder (calls d) (frames d)) (hp : PcSim respCoder p q) (d : Nat) :
    PcSim respCoder (update calls c p d) (update frames c q d) := by
  by_cases he : d=c
  · subst he
    simpa using hp
  · simpa [he] using h d

theorem calls_stayed {calls : Nat → CallPc Resp} {frames : Nat → Mailbox.CallPc Bytes}
    (h : ∀ d,PcSim respCoder (calls d) (frames d)) (hp : PcSim respCoder p (frames c)) (d : Nat) :
    PcSim respCoder (update calls c p d) (frames d) := by
  simpa using calls_moved (c := c) h hp d

section
variable (h : Sim reqCoder respCoder s m)
include h

theorem frame_pc (hc : s.calls c=p) :
    match p with
    | .idle => m.calls c=.idle
    | .queued => m.calls c=.queued
    | .writing fresh _ _ => m.calls c=.sending fresh
    | .reading fresh _ ask _ => m.calls c=.waiting fresh ask
    | .connecting => m.calls c=.connecting
    | .done _ => True := by
  have hp:=h.calls c
  rw [hc] at hp
  revert hp
  generalize m.calls c=q
  rintro (_ | _ | _ | _ | _ | _ | _) <;> trivial

theorem begin_followed (method : Method) (hc : s.calls c=.idle) :
    Followed reqCoder respCoder dispatch m (.begin c method)
      {s.setCall c .queued with methods := update s.methods c (some method)} := by
  have hm : m.calls c=.idle := frame_pc h hc
  refine .inr ⟨.begin c (frameFor reqCoder method),m.enter c (frameFor reqCoder method),
    by simp [Mailbox.step,hm],?_,by simp⟩
  refine {h with
    reqs := fun d => ?_
    calls := calls_moved h.calls .queued
    ready := h.ready.begin hc method
    current := h.current.congr rfl rfl rfl rfl rfl fun d hd => ?_}
  · by_cases he : d=c
    · subst he
      simp [Mailbox.State.enter]
    · simpa [Mailbox.State.enter,Mailbox.State.setCall,he] using h.reqs d
  · refine update_of_ne ?_ ..
    rintro rfl
    simp [hc,active] at hd

theorem refuse_followed (hc : s.calls c=.queued) (hh : s.holder=none) :
    Followed reqCoder respCoder dispatch m (.acquire c) (s.setCall c (.done none)) := by
  have hm : m.calls c=.queued := frame_pc h hc
  refine .inr ⟨.acquire c false,m.setCall c (.done none),
    by simp [Mailbox.step,hm,h.holder,hh],?_,by simp⟩
  refine {h with
    calls := calls_moved h.calls .failed
    ready := h.ready.refuse none
    current := h.current.congr rfl rfl rfl rfl rfl fun d hd => ?_}
  refine update_of_ne ?_ ..
  rintro rfl
  simp [hc,active] at hd

theorem reuse_followed {method : Method} {buf : Bytes}
    (hc : s.calls c=.queued) (hh : s.holder=none) (hm : s.methods c=some method)
    (hf : framed reqCoder ⟨1,method⟩=some buf) (hs : s.slot=some k) :
    Followed reqCoder respCoder dispatch m (.acquire c) {s.setCall c (.writing false k buf) with
      holder := some c, bufs := update s.bufs c buf} := by
  have hq : m.calls c=.queued := frame_pc h hc
  obtain ⟨hasks,hup,hdown,hout⟩ := h.current.of_free hh hs
  have hbuf : (s.conns k).up++buf=update s.bufs c buf c := by simp [hup]
  refine .inr ⟨.acquire c true,{m.setCall c (.sending false) with holder := some c},
    by simp [Mailbox.step,hq,h.holder,hh,h.slot,hs],?_,by simp⟩
  exact {h with
    holder := rfl
    calls := calls_moved h.calls (.writing false k buf)
    ready := Calls.acquire (hh ▸ h.ready) hm hf rfl
    parcels := h.parcels.acquire (h.ready.buf_late c (by simp [hc,early])) buf
    current := .writing c false k buf rfl (update_self ..) hs
      ⟨hasks,hdown,hout,framed_ne_nil hf,fun _ => hbuf⟩}

theorem reconnect_followed {method : Method} {buf : Bytes}
    (hc : s.calls c=.queued) (hh : s.holder=none) (hm : s.methods c=some method)
    (hf : framed reqCoder ⟨1,method⟩=some buf) (hs : s.slot=none) :
    Followed reqCoder respCoder dispatch m (.acquire c) {s.setCall c .connecting with
      holder := some c, bufs := update s.bufs c buf} := by
  have hq : m.calls c=.queued := frame_pc h hc
  refine .inr ⟨.acquire c true,{m.setCall c .connecting with holder := some c},
    by simp [Mailbox.step,hq,h.holder,hh,h.slot,hs],?_,by simp⟩
  exact {h with
    holder := rfl
    calls := calls_moved h.calls .connecting
    ready := Calls.acquire (hh ▸ h.ready) hm hf rfl
    parcels := h.parcels.acquire (h.ready.buf_late c (by simp [hc,early])) buf
    current := .connecting c rfl (update_self ..) hs}

theorem inbox_kept {x : Conn} (hx : x.asks=(s.conns k).asks) (ask d : Nat) :
    m.inbox ask=some d ↔ ∃ l,(ask,d)∈(update s.conns k x l).asks := by
  simpa [update_same_asks hx] using h.inbox ask d

theorem inbox_delivered {x : Conn} (hx : x.asks=[(s.asked,c)]) (hk : (s.conns k).asks=[]) (ask d : Nat) :
    update m.inbox s.asked (some c) ask=some d ↔
      ∃ l,(ask,d)∈(update s.conns k x l).asks := by
  by_cases he : ask=s.asked
  · subst he
    rw [update_self]
    constructor
    · rintro hd
      cases hd
      exact ⟨k,by simp [hx]⟩
    · rintro ⟨l,hl⟩
      by_cases hlk : l=k
      · subst hlk
        simpa [hx,eq_comm] using hl
      · exact absurd (h.parcels.ask_lt l _ d (by simpa [hlk] using hl)) (Nat.lt_irrefl _)
  · rw [update_of_ne he,h.inbox ask d]
    refine exists_congr fun l => ?_
    by_cases hlk : l=k
    · subst hlk
      simp [hk,hx,he]
    · simp [hlk]

theorem write_ready (hc : s.calls c=.writing fresh k rest) :
    s.holder=some c ∧ s.slot=some k ∧ Sending (s.conns k) rest (s.bufs c) ∧
      ∃ method,framed reqCoder ⟨1,method⟩=some (s.bufs c) := by
  have ha : active (s.calls c)=true := by simp [hc,active]
  have hh:=h.ready.mutex c ha
  obtain ⟨hs,hx⟩ := h.current.of_writing hh hc
  obtain ⟨method,_,hf⟩ := h.ready.buf c (h.ready.buf_active c ha)
  exact ⟨hh,hs,hx,method,hf⟩

theorem writePart_followed
    (hc : s.calls c=.writing fresh k rest) (hserv : (s.conns k).serving=true) (hn : n<rest.length) :
    Followed reqCoder respCoder dispatch m (.write c n)
      ((s.setConn k {s.conns k with up := (s.conns k).up++rest.take n}).setCall c
        (.writing fresh k (rest.drop n))) := by
  have hm : m.calls c=.sending fresh := frame_pc h hc
  obtain ⟨hh,hs,⟨hasks,hdown,hout,_,hbuf⟩,method,hf⟩ := write_ready h hc
  have hrest : rest.drop n≠[] := by simpa using hn
  have hall : (s.conns k).up++rest.take n++rest.drop n=s.bufs c := by
    rw [append_assoc,take_append_drop,hbuf hserv]
  refine .inl {h with
    calls := calls_stayed h.calls (hm ▸ .writing fresh k _)
    inbox := inbox_kept h rfl
    ready := h.ready.move (by simp [hc,active]) rfl
    parcels := h.parcels.set (h.parcels.opened_of_serving hserv)
      (.inl ⟨hasks,scan_framed_part hf hall hrest⟩) fun _ hp => hp
    current := .writing c fresh k _ hh (update_self ..) hs ?_}
  simpa [State.setConn,State.setCall] using ⟨hasks,hdown,hout,hrest,fun _ => hall⟩

theorem writeLast_followed (n : Nat)
    (hc : s.calls c=.writing fresh k rest) (hserv : (s.conns k).serving=true) :
    Followed reqCoder respCoder dispatch m (.write c n) {(s.setConn k {s.conns k with
          up := (s.conns k).up++rest, asks := (s.conns k).asks++[(s.asked,c)]}).setCall c
        (.reading fresh k s.asked []) with asked := s.asked+1} := by
  have hm : m.calls c=.sending fresh := frame_pc h hc
  obtain ⟨hh,hs,⟨hasks,hdown,hout,_,hbuf⟩,method,hf⟩ := write_ready h hc
  have ha : active (s.calls c)=true := by simp [hc,active]
  refine .inr ⟨.deliver c,{m.setCall c (.waiting fresh s.asked) with
    next := s.asked+1, inbox := update m.inbox s.asked (some c)},
    by simp [Mailbox.step,hm,h.next],?_,by simp⟩
  refine {h with
    next := rfl
    calls := calls_moved h.calls (.reading fresh k s.asked [])
    inbox := fun ask d => ?_
    ready := h.ready.move ha rfl
    parcels := h.parcels.deliver (h.parcels.opened_of_serving hserv) (by simp [hasks]) hserv
      (hbuf hserv) (h.ready.buf_active c ha)
    current := .asking c fresh k s.asked hh (update_self ..) hs (fun j d hd => ?_) ?_}
  · exact inbox_delivered h (by simp [hasks]) hasks ask d
  · by_contra hj
    have hold : (s.asked,d)∈(s.conns j).asks := by simpa [State.setConn,State.setCall,hj] using hd
    exact Nat.lt_irrefl _ (h.parcels.ask_lt j _ d hold)
  · simpa [State.setConn,State.setCall,hasks] using ⟨hdown,hout,.inl rfl⟩

theorem read_ready
    (hc : s.calls c=.reading fresh k ask got) (h0 : 0<n) (hn : n≤(s.conns k).down.length) :
    s.holder=some c ∧ s.slot=some k ∧ ∃ f resp lost,m.replies ask=some f ∧
      framed respCoder resp=some f ∧ ask<s.asked ∧ (∀ j d,(ask,d)∉(s.conns j).asks) ∧
      (s.conns k).asks=[] ∧ (s.conns k).up=[] ∧ ((s.conns k).serving=true → lost=[]) ∧
      got++(s.conns k).down.take n++((s.conns k).down.drop n++((s.conns k).out++lost))=f := by
  have hh:=h.ready.mutex c (by simp [hc,active])
  obtain ⟨hs,⟨_,_,hx⟩ | ⟨f,resp,ha,hf,hlt,hnone,hx⟩⟩ := h.current.of_reading hh hc
  · simp [hx.1] at hn
    omega
  · obtain ⟨hasks,hup,_,lost,hall,hlost⟩ := hx
    refine ⟨hh,hs,f,resp,lost,ha,hf,hlt,hnone,hasks,hup,hlost,?_⟩
    rw [append_assoc,← append_assoc (List.take n _),take_append_drop,hall]

theorem readPart_followed
    (hc : s.calls c=.reading fresh k ask got) (h0 : 0<n) (hn : n≤(s.conns k).down.length)
    (hscan : scan maxFrameSize (got++(s.conns k).down.take n)=.short) :
    Followed reqCoder respCoder dispatch m (.read c n)
      ((s.setConn k {s.conns k with down := (s.conns k).down.drop n}).setCall c
        (.reading fresh k ask (got++(s.conns k).down.take n))) := by
  have hm : m.calls c=.waiting fresh ask := frame_pc h hc
  obtain ⟨hh,hs,f,resp,lost,ha,hf,hlt,hnone,hasks,hup,hlost,hall⟩ := read_ready h hc h0 hn
  have hpart : got++(s.conns k).down.take n≠f := by
    intro he
    have hwhole:=scan_framed hf []
    simp [← he,hscan] at hwhole
  refine .inl {h with
    calls := calls_stayed h.calls (hm ▸ .reading fresh k ask _)
    inbox := inbox_kept h rfl
    ready := h.ready.move (by simp [hc,active]) rfl
    parcels := h.parcels.set (h.parcels.opened_of_down h0 hn) (h.parcels.parcel k) fun _ hp => hp
    current := .answering c fresh k ask _ f resp hh (update_self ..) hs ha hf hlt ?_ ?_}
  · have hsub : ∀ p∈({s.conns k with down := (s.conns k).down.drop n} : Conn).asks,
        p∈(s.conns k).asks := fun _ hp => hp
    exact fun j d hd => hnone j d (update_asks hsub hd)
  · refine ⟨?_,?_,hpart,lost,?_,?_⟩ <;> simp only [State.setCall,State.setConn,update_self]
    · exact hasks
    · exact hup
    · exact hall
    · exact hlost

theorem readWhole_followed
    {payload : Bytes} (hc : s.calls c=.reading fresh k ask got) (h0 : 0<n)
    (hn : n≤(s.conns k).down.length)
    (hscan : scan maxFrameSize (got++(s.conns k).down.take n)=.whole payload rest) :
    Followed reqCoder respCoder dispatch m (.read c n)
      ((s.setConn k {s.conns k with down := (s.conns k).down.drop n}).finish c
        (decodeFrame respCoder payload).toOption) := by
  have hm : m.calls c=.waiting fresh ask := frame_pc h hc
  obtain ⟨hh,hs,f,resp,lost,ha,hf,hlt,hnone,hasks,hup,hlost,hall⟩ := read_ready h hc h0 hn
  -- a whole frame has been read, so it is the response and nothing is left of it
  have hleft : (s.conns k).down.drop n++((s.conns k).out++lost)=[] := by
    by_contra hne
    simp [scan_framed_part hf hall hne] at hscan
  have hgot : got++(s.conns k).down.take n=f := by
    rw [hleft,append_nil] at hall
    exact hall
  have hpay : payload=f := by
    have hwhole:=scan_framed hf []
    rw [append_nil,← hgot,hscan] at hwhole
    rw [← hgot]
    exact (Scan.whole.inj hwhole).1
  obtain ⟨hdown,hrest⟩ := append_eq_nil_iff.mp hleft
  obtain ⟨hout,_⟩ := append_eq_nil_iff.mp hrest
  refine .inr ⟨.reply c (decodeFrame respCoder f).isOk,
    m.finish c (if (decodeFrame respCoder f).isOk then some f else none),
    by simp [Mailbox.step,hm,ha],?_,by simp⟩
  refine {h with
    holder := rfl
    calls := calls_moved h.calls ?_
    inbox := inbox_kept h rfl
    ready := h.ready.release (by simp [hc,active]) _
    parcels := h.parcels.set (h.parcels.opened_of_down h0 hn) (h.parcels.parcel k) fun _ hp => hp
    current := .free rfl fun l hl => ?_}
  · subst hpay
    cases hd : decodeFrame respCoder payload with
    | error => exact .failed
    | ok v => exact .answered v payload hd
  · cases hs.symm.trans hl
    simpa [State.finish,State.setCall,State.setConn] using ⟨hasks,hup,hdown,hout⟩

theorem readLong_absent {len : Nat}
    (hc : s.calls c=.reading fresh k ask got) (h0 : 0<n) (hn : n≤(s.conns k).down.length) :
    scan maxFrameSize (got++(s.conns k).down.take n)≠.tooLong len := by
  obtain ⟨_,_,f,resp,lost,_,hf,_,_,_,_,_,hall⟩ := read_ready h hc h0 hn
  by_cases hleft : (s.conns k).down.drop n++((s.conns k).out++lost)=[]
  · rw [hleft,append_nil] at hall
    have hwhole:=scan_framed hf []
    rw [append_nil,← hall] at hwhole
    simp [hwhole]
  · simp [scan_framed_part hf hall hleft]

theorem fail_followed
    (hc : (∃ rest,s.calls c=.writing fresh k rest) ∨ ∃ ask got,s.calls c=.reading fresh k ask got) :
    Followed reqCoder respCoder dispatch m (.fail c) (s.lose c fresh) := by
  have hact : active (s.calls c)=true := by
    rcases hc with ⟨rest,hc⟩ | ⟨ask,got,hc⟩ <;> simp [hc,active]
  have hm : m.calls c=.sending fresh ∨ ∃ ask,m.calls c=.waiting fresh ask := by
    rcases hc with ⟨rest,hc⟩ | ⟨ask,got,hc⟩
    · exact .inl (frame_pc h hc)
    · exact .inr ⟨ask,frame_pc h hc⟩
  have hh:=h.ready.mutex c hact
  cases fresh with
  | true =>
    refine .inr ⟨.lose c,{m.finish c none with slot := false},?_,?_,by simp⟩
    · rcases hm with hm | ⟨ask,hm⟩ <;> simp [Mailbox.step,hm]
    · exact {h with
        holder := rfl
        slot := rfl
        calls := calls_moved h.calls .failed
        ready := h.ready.release hact none
        current := .free rfl (by simp [State.lose])}
  | false =>
    refine .inr ⟨.lose c,{m.setCall c .connecting with slot := false},?_,?_,by simp⟩
    · rcases hm with hm | ⟨ask,hm⟩ <;> simp [Mailbox.step,hm]
    · exact {h with
        slot := rfl
        calls := calls_moved h.calls .connecting
        ready := h.ready.move hact rfl
        current := .connecting c hh (update_self ..) rfl}

theorem connect_followed (hc : s.calls c=.connecting) :
    Followed reqCoder respCoder dispatch m (.connect c true)
      {(s.setConn s.opened accepted).setCall c (.writing true s.opened (s.bufs c)) with
        slot := some s.opened, opened := s.opened+1} := by
  have hm : m.calls c=.connecting := frame_pc h hc
  have hact : active (s.calls c)=true := by simp [hc,active]
  have hbuf:=h.ready.buf_active c hact
  have hasks : accepted.asks=(s.conns s.opened).asks := by
    rw [h.parcels.unopened s.opened (Nat.le_refl _)]
    rfl
  refine .inr ⟨.connect c true,{m.setCall c (.sending true) with slot := true},
    by simp [Mailbox.step,hm],?_,by simp⟩
  refine {h with
    slot := rfl
    calls := calls_moved h.calls (.writing true s.opened (s.bufs c))
    inbox := inbox_kept h hasks
    ready := h.ready.move hact rfl
    parcels := h.parcels.connect
    current := .writing c true s.opened (s.bufs c) (h.ready.mutex c hact) (update_self ..) rfl ?_}
  simpa [State.setCall,State.setConn] using ⟨rfl,rfl,rfl,hbuf,fun _ => rfl⟩

theorem refused_followed (hc : s.calls c=.connecting) :
    Followed reqCoder respCoder dispatch m (.connect c false) (s.finish c none) := by
  have hm : m.calls c=.connecting := frame_pc h hc
  have hact : active (s.calls c)=true := by simp [hc,active]
  have hslot:=h.current.of_connecting (h.ready.mutex c hact) hc
  refine .inr ⟨.connect c false,m.finish c none,by simp [Mailbox.step,hm],?_,by simp⟩
  exact {h with
    holder := rfl
    calls := calls_moved h.calls .failed
    ready := h.ready.release hact none
    current := .free rfl fun k hk => by simp [State.finish,State.setCall,hslot] at hk}

theorem inbox_cleared {x : Conn} {num d : Nat} (hk : (s.conns k).asks=[(num,d)]) (hx : x.asks=[]) (ask e : Nat) :
    update m.inbox num none ask=some e ↔
      ∃ l,(ask,e)∈(update s.conns k x l).asks := by
  by_cases he : ask=num
  · subst he
    simp only [update_self,reduceCtorEq,false_iff,not_exists]
    intro l hl
    by_cases hlk : l=k
    · subst hlk
      simp [hx] at hl
    · exact hlk (h.parcels.ask_once l k ask e d (by simpa [hlk] using hl) (by simp [hk]))
  · rw [update_of_ne he,h.inbox ask e]
    refine exists_congr fun l => ?_
    by_cases hlk : l=k
    · subst hlk
      simp [hk,hx,he]
    · simp [hlk]

theorem ended_followed (hserv : (s.conns k).serving=true) :
    Followed reqCoder respCoder dispatch m a (s.setConn k (s.conns k).ended) := by
  have hsub : ∀ p∈(s.conns k).ended.asks,p∈(s.conns k).asks := by simp [Conn.ended]
  have hparcels:=h.parcels.set (h.parcels.opened_of_serving hserv)
    (.inl ⟨rfl,rfl⟩ : ((s.conns k).ended.asks=[] ∧ scan maxFrameSize (s.conns k).ended.up=.short) ∨ _)
    hsub
  have hcur:=h.current.setConn (keeps_ended (s.conns k)) hsub
  rcases h.parcels.parcel k with ⟨hasks,_⟩ | ⟨ask,c,hasks,_⟩
  · exact .inl {h with
      inbox := inbox_kept h (by simp [Conn.ended,hasks])
      parcels := hparcels
      current := hcur}
  · refine .inr ⟨.hangup ask,{m with inbox := update m.inbox ask none},rfl,?_,by simp⟩
    exact {h with
      inbox := inbox_cleared h hasks rfl
      parcels := hparcels
      current := hcur}

theorem push_followed (hserv : (s.conns k).serving=true) (h0 : 0<n) (hn : n≤(s.conns k).out.length) :
    Followed reqCoder respCoder dispatch m (.push k n) (s.setConn k {s.conns k with
      down := (s.conns k).down++(s.conns k).out.take n, out := (s.conns k).out.drop n}) :=
  .inl {h with
    inbox := inbox_kept h rfl
    parcels := h.parcels.set (h.parcels.opened_of_serving hserv) (h.parcels.parcel k) fun _ hp => hp
    current := h.current.setConn (keeps_push _ h0 hn) fun _ hp => hp}

theorem request_whole {f : Bytes} (hscan : scan maxFrameSize (s.conns k).up=.whole f rest) :
    ∃ ask c method,(s.conns k).asks=[(ask,c)] ∧ s.methods c=some method ∧
      framed reqCoder ⟨1,method⟩=some (s.conns k).up ∧ f=(s.conns k).up ∧ rest=[] := by
  rcases h.parcels.parcel k with ⟨_,hshort⟩ | ⟨ask,c,hasks,_,hup,hb⟩
  · simp [hshort] at hscan
  · obtain ⟨method,hmeth,hf⟩ := h.ready.buf c hb
    have hwhole:=scan_framed hf []
    rw [append_nil,← hup,hscan] at hwhole
    obtain ⟨hfront,hrest⟩ := Scan.whole.inj hwhole
    exact ⟨ask,c,method,hasks,hmeth,hup ▸ hf,hfront,hrest⟩

theorem serve_followed {f : Bytes}
    {req : SessionCtlRequest Method} {x : Conn} (hserv : (s.conns k).serving=true)
    (hscan : scan maxFrameSize (s.conns k).up=.whole f rest) (hd : decodeFrame reqCoder f=.ok req)
    (hx : (framed respCoder (dispatch s.sess req).2=none ∧ x=(s.conns k).ended) ∨
      ∃ buf,framed respCoder (dispatch s.sess req).2=some buf ∧
        x={s.conns k with up := rest, asks := (s.conns k).asks.tail, out := buf}) :
    Followed reqCoder respCoder dispatch m (.serve k) {s.setConn k x with
      sess := (dispatch s.sess req).1
      log := s.log++[⟨(s.conns k).asks.head?.map Prod.snd,req,(dispatch s.sess req).2⟩]} := by
  obtain ⟨ask,c,method,hasks,hmeth,hf,rfl,rfl⟩ := request_whole h hscan
  have hinbox : m.inbox ask=some c := (h.inbox ask c).mpr ⟨k,by simp [hasks]⟩
  have hreq : m.reqs c=some (s.conns k).up := by simp [h.reqs,hmeth,frameFor,hf]
  have hfd : frameDispatch reqCoder respCoder dispatch m.sess (s.conns k).up =
      ((dispatch s.sess req).1,(framed respCoder (dispatch s.sess req).2).getD []) := by
    simp [frameDispatch,hd,h.sess]
  have hlog : List.Forall₂ (SameExec reqCoder respCoder)
      (s.log++[⟨(s.conns k).asks.head?.map Prod.snd,req,(dispatch s.sess req).2⟩])
      (m.log++[(c,(s.conns k).up,(framed respCoder (dispatch s.sess req).2).getD [])]) :=
    rel_append h.log (.cons ⟨by simp [hasks],hd,rfl⟩ .nil)
  have hxa : x.asks=[] := by
    rcases hx with ⟨_,rfl⟩ | ⟨buf,_,rfl⟩
    · rfl
    · simp [hasks]
  have hxu : x.up=[] := by
    rcases hx with ⟨_,rfl⟩ | ⟨buf,_,rfl⟩ <;> rfl
  have hparcels:=h.parcels.set (h.parcels.opened_of_serving hserv)
    (.inl ⟨hxa,by rw [hxu]; rfl⟩ : (x.asks=[] ∧ scan maxFrameSize x.up=.short) ∨ _) (by simp [hxa])
  refine .inr ⟨.serve ask (framed respCoder (dispatch s.sess req).2).isSome,{m with
    sess := (dispatch s.sess req).1
    inbox := update m.inbox ask none
    replies := update m.replies ask (framed respCoder (dispatch s.sess req).2)
    log := m.log++[(c,(s.conns k).up,(framed respCoder (dispatch s.sess req).2).getD [])]},
    ?_,?_,by simp⟩
  · simp only [Mailbox.step,hinbox,hreq,hfd]
    cases framed respCoder (dispatch s.sess req).2 <;> rfl
  · refine {h with
      sess := rfl
      log := hlog
      inbox := inbox_cleared h hasks hxa
      parcels := hparcels
      current := ?_}
    rcases hx with ⟨hn,rfl⟩ | ⟨buf,hn,rfl⟩
    · have hcur:=(h.current.answer (framed respCoder (dispatch s.sess req).2) hasks).setConn
        (keeps_ended (s.conns k)) (by simp [Conn.ended])
      exact hcur.congr rfl rfl rfl rfl rfl fun _ _ => rfl
    · have hcur:=h.current.serve (x := {s.conns k with up := [], asks := (s.conns k).asks.tail, out := buf})
        h.parcels hasks hn (by simp [hasks]) rfl rfl rfl
      rw [hn]
      exact hcur.congr rfl rfl rfl rfl rfl fun _ _ => rfl

theorem followed
    (hstep : step reqCoder respCoder dispatch s a=some t) : Followed reqCoder respCoder dispatch m a t := by
  cases step_cases hstep with
  | begin c method hc => exact begin_followed h method hc
  | refuse c method hc hh => exact refuse_followed h hc hh
  | reuse c method buf k hc hh hm hf hs => exact reuse_followed h hc hh hm hf hs
  | reconnect c method buf hc hh hm hf hs => exact reconnect_followed h hc hh hm hf hs
  | writePart c n fresh k rest hc hserv hn => exact writePart_followed h hc hserv hn
  | writeLast c n fresh k rest hc hserv => exact writeLast_followed h n hc hserv
  | readPart c n fresh k ask got hc h0 hn hscan => exact readPart_followed h hc h0 hn hscan
  | readLong c n fresh k ask got len hc h0 hn hscan => exact absurd hscan (readLong_absent h hc h0 hn)
  | readWhole c n fresh k ask got payload rest hc h0 hn hscan =>
    exact readWhole_followed h hc h0 hn hscan
  | fail c fresh k hc => exact fail_followed h hc
  | connect c hc => exact connect_followed h hc
  | refused c hc => exact refused_followed h hc
  | serveEnd _ hserv | hangup _ hserv => exact ended_followed h hserv
  | serve k f rest req x hserv hout hscan hd hx => exact serve_followed h hserv hscan hd hx
  | push k n hserv h0 hn => exact push_followed h hserv h0 hn

end

theorem sim_init (v : Sess) :
    Sim reqCoder respCoder (init v : State Method Resp Sess) (Mailbox.init v) where
  sess := rfl
  holder := rfl
  slot := rfl
  next := rfl
  reqs _ := rfl
  calls _ := .idle
  log := .nil
  inbox ask c := by simp [init,Mailbox.init,closed]
  ready := ⟨by simp [init,active],by simp [init],by simp [init],by simp [init,active]⟩
  parcels := ⟨by simp [init],fun k => .inl ⟨rfl,rfl⟩,by simp [init,closed],by simp [init,closed]⟩
  current := .free rfl (by simp [init])

end Steps

end Waymux.Wire.Delivery
