import Waymux.Wire.ByteLink

/-! # What one step of the byte machine can do -/

namespace Waymux.Wire.LinkCases
open Framing.LengthPrefix FrameCodec ByteLink

variable {Method Resp Sess : Type} {reqCoder : Msgpack (SessionCtlRequest Method)}
  {respCoder : Msgpack Resp} {dispatch : Sess → SessionCtlRequest Method → Sess × Resp}
  {s t : State Method Resp Sess} {a : Act Method}

inductive StepCase (reqCoder : Msgpack (SessionCtlRequest Method)) (respCoder : Msgpack Resp)
    (dispatch : Sess → SessionCtlRequest Method → Sess × Resp) (s : State Method Resp Sess) :
    Act Method → State Method Resp Sess → Prop
  | begin (c : Nat) (method : Method) : s.calls c=.idle →
      StepCase reqCoder respCoder dispatch s (.begin c method)
        {s.setCall c .queued with methods := Function.update s.methods c (some method)}
  | refuse (c : Nat) (method : Method) : s.calls c=.queued → s.holder=none →
      s.methods c=some method → framed reqCoder ⟨1,method⟩=none →
      StepCase reqCoder respCoder dispatch s (.acquire c) (s.setCall c (.done none))
  | reuse (c : Nat) (method : Method) (buf : Bytes) (k : Nat) : s.calls c=.queued →
      s.holder=none → s.methods c=some method → framed reqCoder ⟨1,method⟩=some buf →
      s.slot=some k → StepCase reqCoder respCoder dispatch s (.acquire c)
        {s.setCall c (.writing false k buf) with
          holder := some c, bufs := Function.update s.bufs c buf}
  | reconnect (c : Nat) (method : Method) (buf : Bytes) : s.calls c=.queued → s.holder=none →
      s.methods c=some method → framed reqCoder ⟨1,method⟩=some buf → s.slot=none →
      StepCase reqCoder respCoder dispatch s (.acquire c)
        {s.setCall c .connecting with holder := some c, bufs := Function.update s.bufs c buf}
  | writePart (c n : Nat) (fresh : Bool) (k : Nat) (rest : Bytes) :
      s.calls c=.writing fresh k rest → (s.conns k).serving=true → n<rest.length →
      StepCase reqCoder respCoder dispatch s (.write c n)
        ((s.setConn k {s.conns k with up := (s.conns k).up++rest.take n}).setCall c
          (.writing fresh k (rest.drop n)))
  | writeLast (c n : Nat) (fresh : Bool) (k : Nat) (rest : Bytes) :
      s.calls c=.writing fresh k rest → (s.conns k).serving=true →
      StepCase reqCoder respCoder dispatch s (.write c n)
        {(s.setConn k {s.conns k with
            up := (s.conns k).up++rest, asks := (s.conns k).asks++[(s.asked,c)]}).setCall c
          (.reading fresh k s.asked []) with asked := s.asked+1}
  | readPart (c n : Nat) (fresh : Bool) (k ask : Nat) (got : Bytes) :
      s.calls c=.reading fresh k ask got → 0<n → n≤(s.conns k).down.length →
      scan maxFrameSize (got++(s.conns k).down.take n)=.short →
      StepCase reqCoder respCoder dispatch s (.read c n)
        ((s.setConn k {s.conns k with down := (s.conns k).down.drop n}).setCall c
          (.reading fresh k ask (got++(s.conns k).down.take n)))
  | readLong (c n : Nat) (fresh : Bool) (k ask : Nat) (got : Bytes) (len : Nat) :
      s.calls c=.reading fresh k ask got → 0<n → n≤(s.conns k).down.length →
      scan maxFrameSize (got++(s.conns k).down.take n)=.tooLong len →
      StepCase reqCoder respCoder dispatch s (.read c n)
        ((s.setConn k {s.conns k with down := (s.conns k).down.drop n}).lose c fresh)
  | readWhole (c n : Nat) (fresh : Bool) (k ask : Nat) (got payload rest : Bytes) :
      s.calls c=.reading fresh k ask got → 0<n → n≤(s.conns k).down.length →
      scan maxFrameSize (got++(s.conns k).down.take n)=.whole payload rest →
      StepCase reqCoder respCoder dispatch s (.read c n)
        ((s.setConn k {s.conns k with down := (s.conns k).down.drop n}).finish c
          (decodeFrame respCoder payload).toOption)
  | fail (c : Nat) (fresh : Bool) (k : Nat) : (∃ rest,s.calls c=.writing fresh k rest) ∨
      (∃ ask got,s.calls c=.reading fresh k ask got) →
      StepCase reqCoder respCoder dispatch s (.fail c) (s.lose c fresh)
  | connect (c : Nat) : s.calls c=.connecting →
      StepCase reqCoder respCoder dispatch s (.connect c true)
        {(s.setConn s.opened accepted).setCall c (.writing true s.opened (s.bufs c)) with
          slot := some s.opened, opened := s.opened+1}
  | refused (c : Nat) : s.calls c=.connecting →
      StepCase reqCoder respCoder dispatch s (.connect c false) (s.finish c none)
  | serveEnd (k : Nat) : (s.conns k).serving=true → (s.conns k).out=[] →
      (∃ len,scan maxFrameSize (s.conns k).up=.tooLong len) ∨
        (∃ f rest err,scan maxFrameSize (s.conns k).up=.whole f rest ∧
          decodeFrame reqCoder f=.error err) →
      StepCase reqCoder respCoder dispatch s (.serve k) (s.setConn k (s.conns k).ended)
  | serve (k : Nat) (f rest : Bytes) (req : SessionCtlRequest Method) (x : Conn) :
      (s.conns k).serving=true → (s.conns k).out=[] →
      scan maxFrameSize (s.conns k).up=.whole f rest → decodeFrame reqCoder f=.ok req →
      (framed respCoder (dispatch s.sess req).2=none ∧ x=(s.conns k).ended) ∨
        (∃ buf,framed respCoder (dispatch s.sess req).2=some buf ∧
          x={s.conns k with up := rest, asks := (s.conns k).asks.tail, out := buf}) →
      StepCase reqCoder respCoder dispatch s (.serve k)
        {s.setConn k x with
          sess := (dispatch s.sess req).1
          log := s.log++[⟨(s.conns k).asks.head?.map Prod.snd,req,(dispatch s.sess req).2⟩]}
  | push (k n : Nat) : (s.conns k).serving=true → 0<n → n≤(s.conns k).out.length →
      StepCase reqCoder respCoder dispatch s (.push k n) (s.setConn k {s.conns k with
        down := (s.conns k).down++(s.conns k).out.take n, out := (s.conns k).out.drop n})
  | hangup (k : Nat) : (s.conns k).serving=true →
      StepCase reqCoder respCoder dispatch s (.hangup k) (s.setConn k (s.conns k).ended)

theorem step_cases (h : step reqCoder respCoder dispatch s a=some t) :
    StepCase reqCoder respCoder dispatch s a t := by
  cases a with
  | begin | hangup =>
    simp only [step] at h
    split at h <;> cases h
    constructor
    assumption
  | push k n =>
    simp only [step] at h
    split at h <;> cases h
    next hg => exact .push k n hg.1 hg.2.1 hg.2.2
  | acquire c =>
    simp only [step] at h
    split at h
    next method hc hh hm =>
      split at h <;> cases h
      next hf => exact .refuse c method hc hh hm hf
      next buf hf =>
        cases hs : s.slot with
        | some k => exact .reuse c method buf k hc hh hm hf hs
        | none => exact .reconnect c method buf hc hh hm hf hs
    · cases h
  | write c n =>
    simp only [step,writeStep] at h
    repeat' split at h
    all_goals cases h
    next fresh k rest hc hg _ => exact .writeLast c n fresh k rest hc hg.1
    next fresh k rest hc hg hn => exact .writePart c n fresh k rest hc hg.1 (by omega)
  | read c n =>
    simp only [step,readStep] at h
    repeat' split at h
    all_goals cases h
    next hc hg _ hs => exact .readPart c n _ _ _ _ hc hg.1 hg.2.1 hs
    next hc hg _ _ hs => exact .readLong c n _ _ _ _ _ hc hg.1 hg.2.1 hs
    next hc hg _ _ _ hs => exact .readWhole c n _ _ _ _ _ _ hc hg.1 hg.2.1 hs
  | fail c =>
    simp only [step] at h
    split at h <;> cases h
    next fresh k rest hc => exact .fail c fresh k (.inl ⟨rest,hc⟩)
    next fresh k ask got hc => exact .fail c fresh k (.inr ⟨ask,got,hc⟩)
  | connect c ok =>
    simp only [step] at h
    split at h
    next hc => cases ok <;> cases h <;> constructor <;> exact hc
    · cases h
  | serve k =>
    simp only [step,serveStep] at h
    repeat' split at h
    all_goals cases h
    next hg _ len hs => exact .serveEnd k hg.1 hg.2 (.inl ⟨len,hs⟩)
    next hg _ f rest hs _ err hd => exact .serveEnd k hg.1 hg.2 (.inr ⟨f,rest,err,hs,hd⟩)
    next hg _ f rest hs _ req hd _ hn => exact .serve k f rest req _ hg.1 hg.2 hs hd (.inl ⟨hn,rfl⟩)
    next hg _ f rest hs _ req hd _ buf hn => exact .serve k f rest req _ hg.1 hg.2 hs hd (.inr ⟨buf,hn,rfl⟩)

end Waymux.Wire.LinkCases
