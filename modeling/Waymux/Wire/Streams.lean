import Waymux.Wire.ByteLink

/-!
# What the streams hold

With the mutex free the cached stream is drained, so the next request never meets earlier bytes.
-/

namespace Waymux.Wire.Streams
open Framing.LengthPrefix FrameCodec ByteLink Function

variable {Method Resp Sess : Type} {reqCoder : Msgpack (SessionCtlRequest Method)}
  {respCoder : Msgpack Resp} {s t : State Method Resp Sess}

def Drained (x : Conn) : Prop := x.asks=[] ∧ x.up=[] ∧ x.down=[] ∧ x.out=[]

def Sending (x : Conn) (rest buf : Bytes) : Prop :=
  x.asks=[] ∧ x.down=[] ∧ x.out=[] ∧ rest≠[] ∧ (x.serving=true → x.up++rest=buf)

/- The request is complete; either it waits to be read or nobody will read it. -/
def Asking (x : Conn) (ask c : Nat) : Prop :=
  x.down=[] ∧ x.out=[] ∧ (x.asks=[(ask,c)] ∨ x.asks=[] ∧ x.serving=false)

/- The response `f` is under way; a connection that has ended may have lost its tail. -/
def Answering (x : Conn) (f got : Bytes) : Prop :=
  x.asks=[] ∧ x.up=[] ∧ got≠f ∧
    ∃ lost,got++(x.down++(x.out++lost))=f ∧ (x.serving=true → lost=[])

/-- What the session does to a connection leaves it in order, unless it serves a request. -/
structure Keeps (x y : Conn) : Prop where
  drained : Drained x → Drained y
  sending : ∀ rest buf,Sending x rest buf → Sending y rest buf
  asking : ∀ ask c,Asking x ask c → Asking y ask c
  answering : ∀ f got,Answering x f got → Answering y f got

theorem keeps_ended (x : Conn) : Keeps x x.ended where
  drained h := ⟨rfl,rfl,h.2.2.1,rfl⟩
  sending rest buf h := ⟨rfl,h.2.1,rfl,h.2.2.2.1,by simp [Conn.ended]⟩
  asking ask c h := ⟨h.1,rfl,.inr ⟨rfl,rfl⟩⟩
  answering f got h := by
    obtain ⟨_,_,hne,lost,hf,_⟩ := h
    exact ⟨rfl,rfl,hne,x.out++lost,by simpa [Conn.ended] using hf,by simp [Conn.ended]⟩

theorem keeps_push (x : Conn) {n : Nat} (h0 : 0<n) (hn : n≤x.out.length) :
    Keeps x {x with down := x.down++x.out.take n, out := x.out.drop n} := by
  have hout : x.out≠[] := List.ne_nil_of_length_pos (by omega)
  refine ⟨fun h => absurd h.2.2.2 hout,fun _ _ h => absurd h.2.2.1 hout,
    fun _ _ h => absurd h.2.1 hout,fun f got h => ?_⟩
  obtain ⟨ha,hu,hne,lost,hf,hl⟩ := h
  refine ⟨ha,hu,hne,lost,?_,hl⟩
  rw [← hf]
  simp only [List.append_assoc]
  rw [← List.append_assoc (x.out.take n),List.take_append_drop]

/- `answers` gives the response frame of a request number. -/
inductive Current (respCoder : Msgpack Resp) (answers : Nat → Option Bytes)
    (s : State Method Resp Sess) : Prop
  | free : s.holder=none → (∀ k,s.slot=some k → Drained (s.conns k)) → Current respCoder answers s
  | writing (c : Nat) (fresh : Bool) (k : Nat) (rest : Bytes) : s.holder=some c →
      s.calls c=.writing fresh k rest → s.slot=some k → Sending (s.conns k) rest (s.bufs c) →
      Current respCoder answers s
  | asking (c : Nat) (fresh : Bool) (k ask : Nat) : s.holder=some c →
      s.calls c=.reading fresh k ask [] → s.slot=some k →
      (∀ j d,(ask,d)∈(s.conns j).asks → j=k) → Asking (s.conns k) ask c →
      Current respCoder answers s
  | answering (c : Nat) (fresh : Bool) (k ask : Nat) (got f : Bytes) (resp : Resp) :
      s.holder=some c → s.calls c=.reading fresh k ask got → s.slot=some k →
      answers ask=some f → framed respCoder resp=some f → ask<s.asked →
      (∀ j d,(ask,d)∉(s.conns j).asks) → Answering (s.conns k) f got →
      Current respCoder answers s
  | connecting (c : Nat) : s.holder=some c → s.calls c=.connecting → s.slot=none →
      Current respCoder answers s

def active : CallPc Resp → Bool
  | .writing .. | .reading .. | .connecting => true
  | _ => false

def early : CallPc Resp → Bool
  | .idle | .queued => true
  | _ => false

structure Calls (reqCoder : Msgpack (SessionCtlRequest Method)) (calls : Nat → CallPc Resp)
    (holder : Option Nat) (bufs : Nat → Bytes) (methods : Nat → Option Method) : Prop where
  mutex : ∀ c,active (calls c)=true → holder=some c
  buf : ∀ c,bufs c≠[] →
    ∃ method,methods c=some method ∧ framed reqCoder ⟨1,method⟩=some (bufs c)
  buf_late : ∀ c,early (calls c)=true → bufs c=[]
  buf_active : ∀ c,active (calls c)=true → bufs c≠[]

structure Parcels (conns : Nat → Conn) (bufs : Nat → Bytes) (opened asked : Nat) : Prop where
  unopened : ∀ k,opened≤k → conns k=closed
  parcel : ∀ k,((conns k).asks=[] ∧ scan maxFrameSize (conns k).up=.short) ∨
    ∃ ask c,(conns k).asks=[(ask,c)] ∧ (conns k).serving=true ∧ (conns k).up=bufs c ∧ bufs c≠[]
  ask_lt : ∀ k ask c,(ask,c)∈(conns k).asks → ask<asked
  ask_once : ∀ k l ask c d,(ask,c)∈(conns k).asks → (ask,d)∈(conns l).asks → k=l

section Calls
variable {calls : Nat → CallPc Resp} {holder : Option Nat} {bufs : Nat → Bytes}
  {methods : Nat → Option Method} {c : Nat} {pc : CallPc Resp}

section
variable (h : Calls reqCoder calls holder bufs methods)
include h

theorem Calls.put {holder' : Option Nat} (hm : active pc=true → holder'=some c)
    (ho : ∀ d,d≠c → active (calls d)=true → holder'=some d) (he : early pc=true → bufs c=[])
    (ha : active pc=true → bufs c≠[]) : Calls reqCoder (update calls c pc) holder' bufs methods := by
  refine ⟨fun d hd => ?_,h.buf,fun d hd => ?_,fun d hd => ?_⟩ <;> by_cases hdc : d=c
  · subst hdc
    exact hm (by simpa using hd)
  · exact ho d hdc (by simpa [hdc] using hd)
  · subst hdc
    exact he (by simpa using hd)
  · exact h.buf_late d (by simpa [hdc] using hd)
  · subst hdc
    exact ha (by simpa using hd)
  · exact h.buf_active d (by simpa [hdc] using hd)

theorem Calls.move (hc : active (calls c)=true) (hp : active pc=true) :
    Calls reqCoder (update calls c pc) holder bufs methods := by
  refine h.put (fun _ => h.mutex c hc) (fun d _ => h.mutex d) (fun he => ?_) fun _ => h.buf_active c hc
  cases pc <;> simp_all [active,early]

theorem Calls.release (hc : active (calls c)=true) (res : Option Resp) :
    Calls reqCoder (update calls c (.done res)) none bufs methods := by
  refine h.put nofun (fun d hd ha => ?_) nofun nofun
  exact absurd (Option.some.inj ((h.mutex d ha).symm.trans (h.mutex c hc))) hd

theorem Calls.begin (hc : calls c=.idle) (method : Method) :
    Calls reqCoder (update calls c .queued) holder bufs (update methods c (some method)) := by
  have hb : bufs c=[] := h.buf_late c (by simp [hc,early])
  have hput : Calls reqCoder (update calls c .queued) holder bufs methods :=
    h.put nofun (fun d _ => h.mutex d) (fun _ => hb) nofun
  refine {hput with buf := fun d hd => ?_}
  have hdc : d≠c := fun he => hd (he ▸ hb)
  simpa [hdc] using h.buf d hd

theorem Calls.refuse (res : Option Resp) : Calls reqCoder (update calls c (.done res)) holder bufs methods :=
  h.put nofun (fun d _ => h.mutex d) nofun nofun

end

theorem Calls.acquire (h : Calls reqCoder calls none bufs methods) {method : Method} {buf : Bytes}
    (hm : methods c=some method) (hf : framed reqCoder ⟨1,method⟩=some buf)
    (hp : active pc=true) : Calls reqCoder (update calls c pc) (some c) (update bufs c buf) methods := by
  refine ⟨fun d hd => ?_,fun d hd => ?_,fun d hd => ?_,fun d hd => ?_⟩ <;> by_cases he : d=c
  · rw [he]
  · exact absurd (h.mutex d (by simpa [he] using hd)) (by simp)
  · exact ⟨method,he ▸ hm,by rw [he,update_self,hf]⟩
  · simpa [he] using h.buf d (by simpa [he] using hd)
  · cases pc <;> simp_all [active,early]
  · simpa [he] using h.buf_late d (by simpa [he] using hd)
  · rw [he,update_self]
    exact framed_ne_nil hf
  · simpa [he] using h.buf_active d (by simpa [he] using hd)

end Calls

section Parcels
variable {conns : Nat → Conn} {bufs : Nat → Bytes} {opened asked : Nat} {k c : Nat} {x : Conn}

theorem update_asks {l ask d : Nat} (hsub : ∀ p∈x.asks,p∈(conns k).asks)
    (h : (ask,d)∈(update conns k x l).asks) : (ask,d)∈(conns l).asks := by
  by_cases he : l=k
  · subst he
    exact hsub _ (by simpa using h)
  · simpa [he] using h

theorem update_same_asks {l : Nat} (hx : x.asks=(conns k).asks) : (update conns k x l).asks=(conns l).asks := by
  by_cases he : l=k
  · subst he
    simpa using hx
  · simp [he]

section
variable (h : Parcels conns bufs opened asked)
include h

theorem Parcels.set (hk : k<opened) (hx : (x.asks=[] ∧ scan maxFrameSize x.up=.short) ∨
      ∃ ask c,x.asks=[(ask,c)] ∧ x.serving=true ∧ x.up=bufs c ∧ bufs c≠[])
    (hsub : ∀ p∈x.asks,p∈(conns k).asks) :
    Parcels (update conns k x) bufs opened asked where
  unopened l hl := by
    rw [update_of_ne (by omega)]
    exact h.unopened l hl
  parcel l := by
    by_cases he : l=k
    · subst he
      simpa using hx
    · simpa [he] using h.parcel l
  ask_lt l ask d hd := h.ask_lt l ask d (update_asks hsub hd)
  ask_once l j ask d e hd he := h.ask_once l j ask d e (update_asks hsub hd) (update_asks hsub he)

theorem Parcels.acquire (hc : bufs c=[]) (buf : Bytes) :
    Parcels conns (update bufs c buf) opened asked where
  unopened := h.unopened
  parcel l := by
    refine (h.parcel l).imp id ?_
    rintro ⟨ask,d,ha,hs,hu,hb⟩
    have hd : d≠c := fun he => hb (he ▸ hc)
    exact ⟨ask,d,ha,hs,by simpa [hd] using hu,by simpa [hd] using hb⟩
  ask_lt := h.ask_lt
  ask_once := h.ask_once

theorem Parcels.connect : Parcels (update conns opened accepted) bufs (opened+1) asked := by
  have hsub : ∀ p∈accepted.asks,p∈(conns opened).asks := by simp [accepted]
  refine ⟨fun l hl => ?_,fun l => ?_,fun l ask d hd => h.ask_lt l ask d (update_asks hsub hd),
    fun l j ask d e hd he => h.ask_once l j ask d e (update_asks hsub hd) (update_asks hsub he)⟩
  · rw [update_of_ne (by omega)]
    exact h.unopened l (by omega)
  · by_cases he : l=opened
    · subst he
      exact .inl (by simp [accepted,scan])
    · simpa [he] using h.parcel l

theorem Parcels.deliver (hk : k<opened)
    (hx : x.asks=[(asked,c)]) (hs : x.serving=true) (hu : x.up=bufs c) (hb : bufs c≠[]) :
    Parcels (update conns k x) bufs opened (asked+1) := by
  have old {l ask d : Nat} (hd : (ask,d)∈(update conns k x l).asks) :
      l=k ∧ ask=asked ∨ l≠k ∧ (ask,d)∈(conns l).asks := by
    by_cases he : l=k
    · subst he
      simp only [update_self,hx,List.mem_singleton,Prod.mk.injEq] at hd
      exact .inl ⟨rfl,hd.1⟩
    · exact .inr ⟨he,by simpa [he] using hd⟩
  refine ⟨fun l hl => ?_,fun l => ?_,fun l ask d hd => ?_,fun l j ask d e hd he => ?_⟩
  · rw [update_of_ne (by omega)]
    exact h.unopened l hl
  · by_cases he : l=k
    · subst he
      exact .inr ⟨asked,c,by simpa using ⟨hx,hs,hu,hb⟩⟩
    · simpa [he] using h.parcel l
  · rcases old hd with ⟨_,rfl⟩ | ⟨_,hd⟩
    · exact Nat.lt_succ_self _
    · exact Nat.lt_succ_of_lt (h.ask_lt l ask d hd)
  · rcases old hd with ⟨hl,rfl⟩ | ⟨_,hld⟩ <;> rcases old he with ⟨hj,hq⟩ | ⟨_,hje⟩
    · exact hl.trans hj.symm
    · exact absurd (h.ask_lt j _ e hje) (Nat.lt_irrefl _)
    · exact absurd (hq ▸ h.ask_lt l ask d hld) (Nat.lt_irrefl _)
    · exact h.ask_once l j ask d e hld hje

theorem Parcels.opened_of_down {n : Nat} (h0 : 0<n) (hn : n≤(conns k).down.length) : k<opened := by
  by_contra hk
  simp [h.unopened k (by omega),closed] at hn
  omega

theorem Parcels.opened_of_serving
    (hs : (conns k).serving=true) : k<opened := by
  by_contra hn
  simp [h.unopened k (by omega),closed] at hs

end

end Parcels

section Current
variable {answers : Nat → Option Bytes} {c k : Nat} {fresh : Bool}

section
variable (h : Current respCoder answers s)
include h

theorem Current.of_free (hh : s.holder=none) (hs : s.slot=some k) : Drained (s.conns k) := by
  cases h with
  | free _ hd => exact hd k hs
  | writing _ _ _ _ hh' | asking _ _ _ _ hh' | answering _ _ _ _ _ _ _ hh' | connecting _ hh' =>
    simp [hh] at hh'

theorem Current.of_writing {rest : Bytes} (hh : s.holder=some c)
    (hc : s.calls c=.writing fresh k rest) : s.slot=some k ∧ Sending (s.conns k) rest (s.bufs c) := by
  cases h with
  | free hh' => simp [hh] at hh'
  | writing d _ _ _ hh' hd hs hx =>
    cases hh.symm.trans hh'
    cases hc.symm.trans hd
    exact ⟨hs,hx⟩
  | asking d _ _ _ hh' hd | answering d _ _ _ _ _ _ hh' hd | connecting d hh' hd =>
    cases hh.symm.trans hh'
    simp [hc] at hd

theorem Current.of_reading {ask : Nat} {got : Bytes}
    (hh : s.holder=some c) (hc : s.calls c=.reading fresh k ask got) :
    s.slot=some k ∧ (got=[] ∧ (∀ j d,(ask,d)∈(s.conns j).asks → j=k) ∧
        Asking (s.conns k) ask c ∨
      ∃ f resp,answers ask=some f ∧ framed respCoder resp=some f ∧ ask<s.asked ∧
        (∀ j d,(ask,d)∉(s.conns j).asks) ∧ Answering (s.conns k) f got) := by
  cases h with
  | free hh' => simp [hh] at hh'
  | asking d _ _ _ hh' hd hs hj hx =>
    cases hh.symm.trans hh'
    cases hc.symm.trans hd
    exact ⟨hs,.inl ⟨rfl,hj,hx⟩⟩
  | answering d _ _ _ _ f resp hh' hd hs ha hf hlt hn hx =>
    cases hh.symm.trans hh'
    cases hc.symm.trans hd
    exact ⟨hs,.inr ⟨f,resp,ha,hf,hlt,hn,hx⟩⟩
  | writing d _ _ _ hh' hd | connecting d hh' hd =>
    cases hh.symm.trans hh'
    simp [hc] at hd

theorem Current.of_connecting (hh : s.holder=some c) (hc : s.calls c=.connecting) : s.slot=none := by
  cases h with
  | free hh' => simp [hh] at hh'
  | connecting d hh' hd hs => exact hs
  | writing d _ _ _ hh' hd | asking d _ _ _ hh' hd | answering d _ _ _ _ _ _ hh' hd =>
    cases hh.symm.trans hh'
    simp [hc] at hd

theorem Current.setConn {x : Conn} (hk : Keeps (s.conns k) x)
    (hsub : ∀ p∈x.asks,p∈(s.conns k).asks) : Current respCoder answers (s.setConn k x) := by
  have keep {P : Conn → Prop} (hP : P (s.conns k) → P x) {l : Nat} (hl : P (s.conns l)) :
      P ((s.setConn k x).conns l) := by
    by_cases he : l=k
    · subst he
      simpa [State.setConn] using hP hl
    · simpa [State.setConn,he] using hl
  cases h with
  | free hh hd => exact .free hh fun l hl => keep hk.drained (hd l hl)
  | writing c f l rest hh hc hs hx =>
    exact .writing c f l rest hh hc hs
      (keep (P := fun y => Sending y rest (s.bufs c)) (hk.sending _ _) hx)
  | asking c f l ask hh hc hs hj hx =>
    exact .asking c f l ask hh hc hs (fun j d hm => hj j d (update_asks hsub hm))
      (keep (P := fun y => Asking y ask c) (hk.asking _ _) hx)
  | answering c f l ask got g resp hh hc hs ha hf hlt hn hx =>
    exact .answering c f l ask got g resp hh hc hs ha hf hlt
      (fun j d hm => hn j d (update_asks hsub hm))
      (keep (P := fun y => Answering y g got) (hk.answering _ _) hx)
  | connecting c hh hc hs => exact .connecting c hh hc hs

theorem Current.answer {ask d : Nat} (v : Option Bytes)
    (hask : (s.conns k).asks=[(ask,d)]) : Current respCoder (update answers ask v) s := by
  cases h with
  | free hh hd => exact .free hh hd
  | writing c f l rest hh hc hs hx => exact .writing c f l rest hh hc hs hx
  | asking c f l ask' hh hc hs hj hx => exact .asking c f l ask' hh hc hs hj hx
  | answering c f l ask' got g resp hh hc hs ha hf hlt hn hx =>
    have hne : ask'≠ask := by
      rintro rfl
      exact hn k d (by simp [hask])
    exact .answering c f l ask' got g resp hh hc hs (by rwa [update_of_ne hne]) hf hlt hn hx
  | connecting c hh hc hs => exact .connecting c hh hc hs

theorem Current.serve {x : Conn} {ask d : Nat} {f : Bytes} {resp : Resp} (hp : Parcels s.conns s.bufs s.opened s.asked)
    (hask : (s.conns k).asks=[(ask,d)]) (hf : framed respCoder resp=some f)
    (hxa : x.asks=[]) (hxu : x.up=[]) (hxd : x.down=(s.conns k).down) (hxo : x.out=f) :
    Current respCoder (update answers ask (some f)) (s.setConn k x) := by
  have away {l : Nat} (hl : (s.conns l).asks=[]) : (s.setConn k x).conns l=s.conns l := by
    refine update_of_ne ?_ ..
    rintro rfl
    simp [hask] at hl
  have hsub : ∀ p∈x.asks,p∈(s.conns k).asks := by simp [hxa]
  cases h with
  | free hh hd => exact .free hh fun l hl => by rw [away (hd l hl).1]; exact hd l hl
  | writing c g l rest hh hc hs hx =>
    exact .writing c g l rest hh hc hs (by rw [away hx.1]; exact hx)
  | asking c g l ask' hh hc hs hj hx =>
    by_cases he : l=k
    · subst he
      obtain ⟨hdown,_,hx | hx⟩ := hx
      · cases hask.symm.trans hx
        refine .answering d g l ask [] f resp hh hc hs (update_self ..) hf
          (hp.ask_lt l ask d (by simp [hask])) (fun j e hm => ?_) ?_
        · by_cases hj : j=l
          · subst hj
            simp [State.setConn,hxa] at hm
          · refine hj (hp.ask_once j l ask e d ?_ (by simp [hask]))
            simpa [State.setConn,hj] using hm
        · refine ⟨by simpa [State.setConn] using hxa,by simpa [State.setConn] using hxu,
            (framed_ne_nil hf).symm,[],?_,fun _ => rfl⟩
          simp [State.setConn,hxd,hdown,hxo]
      · simp [hask] at hx
    · exact .asking c g l ask' hh hc hs (fun j e hm => hj j e (update_asks hsub hm))
        (by simpa [State.setConn,he] using hx)
  | answering c g l ask' got f' resp' hh hc hs ha hf' hlt hn hx =>
    have hne : ask'≠ask := by
      rintro rfl
      exact hn k d (by simp [hask])
    exact .answering c g l ask' got f' resp' hh hc hs (by rwa [update_of_ne hne]) hf' hlt
      (fun j e hm => hn j e (update_asks hsub hm)) (by rw [away hx.1]; exact hx)
  | connecting c hh hc hs => exact .connecting c hh hc hs

theorem Current.congr (hh : t.holder=s.holder)
    (hs : t.slot=s.slot) (hk : t.conns=s.conns) (hb : t.bufs=s.bufs) (ha : t.asked=s.asked)
    (hc : ∀ d,active (s.calls d)=true → t.calls d=s.calls d) : Current respCoder answers t := by
  cases h with
  | free hh' hd => exact .free (hh.trans hh') fun k hk' => hk ▸ hd k (hs ▸ hk')
  | writing c f k rest hh' hc' hs' hx =>
    exact .writing c f k rest (hh.trans hh') ((hc c (by simp [hc',active])).trans hc')
      (hs.trans hs') (by rw [hk,hb]; exact hx)
  | asking c f k ask hh' hc' hs' hj hx =>
    exact .asking c f k ask (hh.trans hh') ((hc c (by simp [hc',active])).trans hc')
      (hs.trans hs') (by rw [hk]; exact hj) (by rw [hk]; exact hx)
  | answering c f k ask got g resp hh' hc' hs' han hf hlt hn hx =>
    exact .answering c f k ask got g resp (hh.trans hh')
      ((hc c (by simp [hc',active])).trans hc') (hs.trans hs') han hf (ha ▸ hlt)
      (by rw [hk]; exact hn) (by rw [hk]; exact hx)
  | connecting c hh' hc' hs' =>
    exact .connecting c (hh.trans hh') ((hc c (by simp [hc',active])).trans hc') (hs.trans hs')

end

end Current

end Waymux.Wire.Streams
