import Waymux.Interleave.Runs
import Waymux.Wire.FrameCodec

/-!
# Writing frames into a buffer and reading them off a stream

`rmp_serde` may have written part of a value before it fails. The `read_frame` loops are those of
the daemon (`server.rs`) and the session (`control.rs`).
-/

namespace Waymux.Wire.FrameReads
open Framing.LengthPrefix Interleave.Runs FrameCodec List

variable {α : Type}

/-- `rmp_serde`: what `write_named` appends and whether it succeeds. -/
structure RmpSerde (α : Type) where
  writeNamed : α → Bytes × Bool
  fromSlice : Bytes → Option α

def RmpSerde.coder (rmp : RmpSerde α) : Msgpack α where
  write value := if (rmp.writeNamed value).2 then some (rmp.writeNamed value).1 else none
  read := rmp.fromSlice

def RmpSerde.Faithful (rmp : RmpSerde α) : Prop :=
  ∀ value,(rmp.writeNamed value).2=true → rmp.fromSlice (rmp.writeNamed value).1=some value

def encodeInto (rmp : RmpSerde α) (value : α) (out : Bytes) : Except EncodeError Unit × Bytes :=
  let frameStart:=out.length
  let out:=out++[0,0,0,0]
  let payloadStart:=out.length
  let out:=out++(rmp.writeNamed value).1
  if (rmp.writeNamed value).2 then
    let len:=out.length-payloadStart
    if maxFrameSize<len then (.error (.tooLarge len),out.take frameStart)
    else (.ok (),out.take frameStart++be32 len++out.drop (frameStart+4))
  else (.error .msgpack,out.take frameStart)

theorem encodeInto_eq (rmp : RmpSerde α) (value : α) (out : Bytes) :
    encodeInto rmp value out=encodeFrame rmp.coder value out := by
  have hcut : (out++[0,0,0,0]++(rmp.writeNamed value).1).take out.length=out := by
    rw [append_assoc,take_left]
  have hpayload : (out++[0,0,0,0]++(rmp.writeNamed value).1).drop (out.length+4) =
      (rmp.writeNamed value).1 := by
    have hhead : out.length+4=(out++[0,0,0,0]).length := by
      rw [length_append]
      rfl
    rw [hhead,drop_left]
  have hlen : (out++[0,0,0,0]++(rmp.writeNamed value).1).length-(out++[0,0,0,0]).length =
      (rmp.writeNamed value).1.length := by
    rw [length_append]
    omega
  unfold encodeInto encodeFrame
  simp only [hcut,hpayload,hlen]
  cases hok : (rmp.writeNamed value).2 with
  | true => simp only [RmpSerde.coder,hok,if_true]
  | false => simp [RmpSerde.coder,hok]

def IsFrame (f : Bytes) : Prop := ∃ payload,payload.length ≤ maxFrameSize ∧ f=frame payload

variable {value : α} {rmp : RmpSerde α} {out lenBuf : Bytes} {todo : List Bytes}

theorem decodeFrame_frame {mp : Msgpack α} {payload : Bytes} (hlen : payload.length ≤ maxFrameSize)
    (hread : mp.read payload=some value) : decodeFrame mp (frame payload)=.ok value := by
  have hlimit:=maxFrameSize_lt
  have h32 : payload.length<2^32 := by omega
  have hbig : ¬maxFrameSize<payload.length := by omega
  simp only [frame,be32,cons_append,nil_append,decodeFrame,ofBe32_be32 h32,if_neg hbig,
    ne_eq,not_true_eq_false,if_false,hread]

theorem encodeInto_ok (hrmp : rmp.Faithful) {out' : Bytes} (h : encodeInto rmp value out=(.ok (),out')) :
    ∃ f,out'=out++f ∧ IsFrame f ∧ decodeFrame rmp.coder f=.ok value := by
  rw [encodeInto_eq,encodeFrame] at h
  repeat' split at h
  all_goals cases h
  next payload hw hsmall =>
    have hbound : payload.length ≤ maxFrameSize := by omega
    have hread : rmp.coder.read payload=some value := by
      obtain ⟨hok,⟨⟩⟩ := Option.ite_none_right_eq_some.mp hw
      exact hrmp value hok
    refine ⟨frame payload,?_,⟨payload,hbound,rfl⟩,decodeFrame_frame hbound hread⟩
    rw [frame,append_assoc]

theorem encodeInto_error {out' : Bytes} {e : EncodeError} (h : encodeInto rmp value out=(.error e,out')) :
    out'=out := by
  rw [encodeInto_eq,encodeFrame] at h
  repeat' split at h
  all_goals cases h
  all_goals rfl

def encodeAll (rmp : RmpSerde α) : List α → Bytes → Option Bytes
  | [], out => some out
  | value::values, out =>
      match encodeInto rmp value out with
      | (.ok _,out') => encodeAll rmp values out'
      | (.error _,_) => none

theorem encodeAll_frames (hrmp : rmp.Faithful) {values : List α} {stream : Bytes}
    (h : encodeAll rmp values out=some stream) :
    ∃ frames : List Bytes,stream=out++frames.flatten ∧ (∀ f∈frames,IsFrame f) ∧
      frames.map (decodeFrame rmp.coder)=values.map .ok := by
  induction values generalizing out with
  | nil =>
    cases h
    exact ⟨[],(append_nil _).symm,fun f hf => absurd hf not_mem_nil,rfl⟩
  | cons value values ih =>
    rw [encodeAll] at h
    split at h
    next u out' hv =>
      obtain ⟨f,hout,hframe,hdecode⟩ := encodeInto_ok hrmp hv
      obtain ⟨frames,hstream,hframes,hvalues⟩ := ih h
      refine ⟨f::frames,?_,?_,?_⟩
      · rw [hstream,hout,flatten_cons,append_assoc]
      · exact forall_mem_cons.mpr ⟨hframe,hframes⟩
      · rw [map_cons,map_cons,hvalues,hdecode]
    · cases h

/-- The two readers differ in their messages. -/
structure Texts where
  tooLarge : Nat → String
  payload : String

def daemonTexts : Texts where
  tooLarge len := s!"frame length {len} exceeds {maxFrameSize}"
  payload := "read frame payload"

def sessionTexts : Texts where
  tooLarge len := s!"session-ctl frame too large: {len}"
  payload := "read session-ctl frame"

/-- Inside the first `read_exact`, inside the second, or the loop has ended:
with `Ok(None)` or an error. -/
inductive Pc
  | header (lenBuf : Bytes)
  | payload (lenBuf got : Bytes) (len : Nat)
  | ended
  | failed (error : String)
  deriving DecidableEq, Repr

structure State where
  stream : Bytes
  pc : Pc
  frames : List Bytes
  deriving DecidableEq, Repr

inductive Act
  | read (n : Nat)
  | eof
  deriving DecidableEq, Repr

def start (stream : Bytes) : State := ⟨stream,.header [],[]⟩

/- How many bytes `read_exact` still asks for. -/
def Pc.wants : Pc → Nat
  | .header lenBuf => 4-lenBuf.length
  | .payload _ got len => len-got.length
  | .ended => 0
  | .failed _ => 0

/- `Ok(Some(payload))`, and the loop calls `read_frame` again. -/
def State.deliver (s : State) (f : Bytes) : State := {s with pc := .header [], frames := s.frames++[f]}

/- The header is complete; `read_exact` of an empty slice reads nothing. -/
def State.afterHeader (s : State) (lenBuf : Bytes) (len : Nat) (texts : Texts) : State :=
  if maxFrameSize<len then {s with pc := .failed (texts.tooLarge len)}
  else if len=0 then s.deliver lenBuf
  else {s with pc := .payload lenBuf [] len}

def State.receive (s : State) (texts : Texts) (bytes : Bytes) : State :=
  match s.pc with
  | .header lenBuf =>
      match lenBuf++bytes with
      | [a,b,c,d] => s.afterHeader [a,b,c,d] (ofBe32 a b c d) texts
      | lenBuf => {s with pc := .header lenBuf}
  | .payload lenBuf got len =>
      if (got++bytes).length=len then s.deliver (lenBuf++(got++bytes))
      else {s with pc := .payload lenBuf (got++bytes) len}
  | _ => s

/- A read returns some of the bytes asked for, or nothing at the end of the stream. -/
def step (texts : Texts) (s : State) : Act → Option State
  | .read n =>
      if 1≤n ∧ n ≤ s.pc.wants ∧ n ≤ s.stream.length then
        some ({s with stream := s.stream.drop n}.receive texts (s.stream.take n))
      else none
  | .eof =>
      if s.stream=[] ∧ 0<s.pc.wants then
        match s.pc with
        | .header _ => some {s with pc := .ended}
        | _ => some {s with pc := .failed texts.payload}
      else none

def Pc.part : Pc → Bytes
  | .header lenBuf => lenBuf
  | .payload lenBuf got _ => lenBuf++got
  | .ended => []
  | .failed _ => []

def Inv (all : List Bytes) (s : State) : Prop :=
  match s.pc with
  | .header lenBuf => ∃ todo,s.frames++todo=all ∧ lenBuf++s.stream=todo.flatten ∧ lenBuf.length<4
  | .payload lenBuf got len => ∃ p todo,s.frames++frame p::todo=all ∧ lenBuf=be32 p.length ∧
      len=p.length ∧ got++s.stream=p++todo.flatten ∧ got.length<p.length
  | .ended => s.frames=all ∧ s.stream=[]
  | .failed _ => False

variable {texts : Texts} {all : List Bytes} {s t : State}

theorem frame_length (p : Bytes) : (frame p).length=4+p.length := by
  rw [frame,length_append]
  rfl

theorem header_of_todo {rest : Bytes} (hall : ∀ f∈todo,IsFrame f) (hne : lenBuf++rest≠[])
    (h : lenBuf++rest=todo.flatten) :
    ∃ p todo',p.length ≤ maxFrameSize ∧ todo=frame p::todo' ∧ lenBuf++rest=frame p++todo'.flatten := by
  cases todo with
  | nil => exact absurd h hne
  | cons f todo' =>
    obtain ⟨p,hp,rfl⟩ := hall f mem_cons_self
    exact ⟨p,todo',hp,rfl,h⟩

theorem inv_deliver {p : Bytes} (hall : s.frames++frame p::todo=all) (hstream : s.stream=todo.flatten) :
    Inv all (s.deliver (frame p)) := by
  refine ⟨todo,?_,hstream,by decide⟩
  rw [State.deliver,append_assoc]
  exact hall

theorem inv_afterHeader {p : Bytes} (hp : p.length ≤ maxFrameSize) (hall : s.frames++frame p::todo=all)
    (hstream : s.stream=p++todo.flatten) : Inv all (s.afterHeader (be32 p.length) p.length texts) := by
  rw [State.afterHeader,if_neg (by omega)]
  split
  next h0 =>
    have hnil : p=[] := length_eq_zero_iff.mp h0
    have hframe : be32 p.length=frame p := by rw [frame,hnil,append_nil]
    rw [hnil,nil_append] at hstream
    rw [hframe]
    exact inv_deliver hall hstream
  next h0 => exact ⟨p,todo,hall,rfl,rfl,hstream,by rw [length_nil]; omega⟩

theorem inv_header {bytes : Bytes} (hframes : ∀ f∈all,IsFrame f) (hpc : s.pc=.header lenBuf)
    (hinv : ∃ todo,s.frames++todo=all ∧ lenBuf++(bytes++s.stream)=todo.flatten) (hb : bytes≠[])
    (hlen : (lenBuf++bytes).length≤4) : Inv all (s.receive texts bytes) := by
  obtain ⟨todo,hall,hflat⟩ := hinv
  rw [State.receive,hpc]
  simp only
  split
  next a b c d h4 =>
    -- the four bytes are the length of the next frame
    have hne : lenBuf++(bytes++s.stream)≠[] := by
      intro hnil
      rw [append_eq_nil_iff,append_eq_nil_iff] at hnil
      exact hb hnil.2.1
    have htodo : ∀ f∈todo,IsFrame f := fun f hf => hframes f (hall ▸ mem_append_right _ hf)
    obtain ⟨p,todo',hp,rfl,hfirst⟩ := header_of_todo htodo hne hflat
    rw [← append_assoc,h4,frame,append_assoc] at hfirst
    obtain ⟨hhead,hrest⟩ := append_inj hfirst rfl
    have hlimit:=maxFrameSize_lt
    have h32 : p.length<2^32 := by omega
    have hof : ofBe32 a b c d=p.length := by
      rw [be32] at hhead
      simp only [List.cons.injEq] at hhead
      rw [hhead.1,hhead.2.1,hhead.2.2.1,hhead.2.2.2.1]
      exact ofBe32_be32 h32
    rw [hhead,hof]
    exact inv_afterHeader hp hall hrest
  next lenBuf' hother =>
    refine ⟨todo,hall,by rw [← hflat,← append_assoc],?_⟩
    refine Nat.lt_of_le_of_ne hlen ?_
    intro h4
    obtain ⟨a,b,c,d,he⟩ := length_eq_four.mp h4
    exact hother a b c d he

theorem inv_payload {got bytes : Bytes} {len : Nat} (hpc : s.pc=.payload lenBuf got len)
    (hinv : ∃ p todo,s.frames++frame p::todo=all ∧ lenBuf=be32 p.length ∧ len=p.length ∧
      got++(bytes++s.stream)=p++todo.flatten)
    (hlen : (got++bytes).length≤len) : Inv all (s.receive texts bytes) := by
  obtain ⟨p,todo,hall,hbuf,rfl,hflat⟩ := hinv
  rw [State.receive,hpc]
  simp only
  rw [← append_assoc] at hflat
  split
  next hfull =>
    obtain ⟨hp,hrest⟩ := append_inj hflat hfull
    rw [hbuf,hp]
    exact inv_deliver hall hrest
  next hfull => exact ⟨p,todo,hall,hbuf,rfl,hflat,by omega⟩

theorem inv_step (hframes : ∀ f∈all,IsFrame f) (hinv : Inv all s) {a : Act} (h : step texts s a=some t) :
    Inv all t := by
  unfold Inv at hinv
  cases a with
  | read n =>
    obtain ⟨⟨h1,hwant,havail⟩,⟨⟩⟩ := Option.ite_none_right_eq_some.mp h
    have hbytes : s.stream.take n++s.stream.drop n=s.stream := take_append_drop n s.stream
    have hlen : (s.stream.take n).length=n := length_take_of_le havail
    have hb : s.stream.take n≠[] := by
      intro hnil
      rw [hnil,length_nil] at hlen
      omega
    cases hpc : s.pc with
    | header =>
      rw [hpc] at hinv hwant
      obtain ⟨todo,hall,hflat,hshort⟩ := hinv
      rw [Pc.wants] at hwant
      refine inv_header hframes rfl ⟨todo,hall,by rw [hbytes]; exact hflat⟩ hb ?_
      rw [length_append,hlen]
      omega
    | payload =>
      rw [hpc] at hinv hwant
      obtain ⟨p,todo,hall,hbuf,hl,hflat,hshort⟩ := hinv
      rw [Pc.wants] at hwant
      refine inv_payload rfl ⟨p,todo,hall,hbuf,hl,by rw [hbytes]; exact hflat⟩ ?_
      rw [length_append,hlen]
      omega
    | ended | failed =>
      rw [hpc,Pc.wants] at hwant
      omega
  | eof =>
    obtain ⟨⟨hend,hwant⟩,h⟩ := Option.ite_none_right_eq_some.mp h
    cases hpc : s.pc with
    | header =>
      rw [hpc] at hinv h
      cases h
      obtain ⟨todo,hall,hflat,hshort⟩ := hinv
      rw [hend,append_nil] at hflat
      -- a further frame would be longer than what is left
      cases todo with
      | nil =>
        rw [append_nil] at hall
        exact ⟨hall,hend⟩
      | cons f =>
        obtain ⟨p,-,rfl⟩ := hframes f (hall ▸ mem_append_right _ mem_cons_self)
        have hlength:=congrArg List.length hflat
        rw [flatten_cons,length_append,frame_length] at hlength
        omega
    | payload =>
      rw [hpc] at hinv
      obtain ⟨p,todo,-,-,-,hflat,hshort⟩ := hinv
      have hlength:=congrArg List.length hflat
      rw [hend,append_nil,length_append] at hlength
      omega
    | ended | failed =>
      rw [hpc,Pc.wants] at hwant
      omega

theorem inv_reach (hframes : ∀ f∈all,IsFrame f) (h : Reach (step texts) Free (start all.flatten) s) : Inv all s :=
  h.keeps ⟨all,rfl,rfl,by decide⟩ fun hinv _ ht => inv_step hframes hinv ht

/-- The first frames are delivered, part of the next one is held, and no byte behind it is asked for. -/
def WithinFrame (all : List Bytes) (s : State) : Prop :=
  s.frames <+: all ∧ s.frames.flatten++s.pc.part++s.stream=all.flatten ∧
    ∀ f,all[s.frames.length]?=some f →
      s.pc.part.length<f.length ∧ s.pc.part++s.stream.take s.pc.wants <+: f

theorem next_frame (hall : s.frames++todo=all) : all[s.frames.length]?=todo.head? := by
  rw [← hall,List.getElem?_append_right (Nat.le_refl _),Nat.sub_self]
  cases todo <;> rfl

theorem prefix_frame {part rest f tail : Bytes} {n : Nat} (h : part++rest=f++tail)
    (hlen : part.length+n≤f.length) : part++rest.take n <+: f := by
  have hleft : part++rest.take n <+: f++tail := by
    rw [← h]
    rw [prefix_append_right_inj]
    exact take_prefix n rest
  apply prefix_of_prefix_length_le hleft (prefix_append f tail)
  rw [length_append,length_take]
  omega

theorem within_of_inv (hframes : ∀ f∈all,IsFrame f) (hinv : Inv all s) : WithinFrame all s := by
  unfold Inv at hinv
  cases hpc : s.pc with
  | header =>
    rw [hpc] at hinv
    obtain ⟨todo,hall,hflat,hshort⟩ := hinv
    refine ⟨⟨todo,hall⟩,?_,?_⟩
    · rw [hpc,Pc.part,append_assoc,hflat,← hall,flatten_append]
    · intro f hf
      rw [next_frame hall] at hf
      obtain ⟨todo',rfl⟩ := List.head?_eq_some_iff.mp hf
      obtain ⟨p,-,rfl⟩ := hframes f (hall ▸ mem_append_right _ mem_cons_self)
      have hlen:=frame_length p
      rw [hpc,Pc.part,Pc.wants]
      exact ⟨by omega,prefix_frame hflat (by omega)⟩
  | payload lenBuf got =>
    rw [hpc] at hinv
    obtain ⟨p,todo,hall,hbuf,hl,hflat,hshort⟩ := hinv
    have hwhole : lenBuf++got++s.stream=frame p++todo.flatten := by
      rw [hbuf,append_assoc,hflat,frame,append_assoc]
    have hlen:=frame_length p
    have hpart : (lenBuf++got).length=4+got.length := by
      rw [length_append,hbuf]
      rfl
    refine ⟨⟨frame p::todo,hall⟩,?_,?_⟩
    · rw [hpc,Pc.part,append_assoc,hwhole,← hall,flatten_append,flatten_cons]
    · intro f hf
      rw [next_frame hall,List.head?_cons] at hf
      cases hf
      rw [hpc,Pc.part,Pc.wants]
      exact ⟨by omega,prefix_frame hwhole (by omega)⟩
  | ended =>
    rw [hpc] at hinv
    obtain ⟨hall,hend⟩ := hinv
    refine ⟨⟨[],by rw [append_nil,hall]⟩,?_,?_⟩
    · rw [hpc,Pc.part,hend,append_nil,append_nil,hall]
    · intro f hf
      rw [hall,List.getElem?_eq_none (Nat.le_refl _)] at hf
      cases hf
  | failed =>
    rw [hpc] at hinv
    exact hinv.elim

theorem ended_of_stuck (hinv : Inv all s) (hstuck : ∀ a,step texts s a=none) : s.pc=.ended := by
  have hstop : s.pc.wants=0 := by
    refine Nat.eq_zero_of_not_pos ?_
    intro hwant
    cases hstream : s.stream with
    | nil =>
      have heof:=hstuck .eof
      rw [step,if_pos ⟨hstream,hwant⟩] at heof
      split at heof <;> cases heof
    | cons =>
      have hread:=hstuck (.read 1)
      rw [step,if_pos ⟨Nat.le_refl 1,hwant,by rw [hstream,length_cons]; omega⟩] at hread
      cases hread
  unfold Inv at hinv
  cases hpc : s.pc with
  | ended => rfl
  | failed =>
    rw [hpc] at hinv
    exact hinv.elim
  | _ =>
    rw [hpc] at hinv hstop
    rw [Pc.wants] at hstop
    omega

def Pc.running : Pc → Nat
  | .header _ => 1
  | .payload _ _ _ => 1
  | .ended => 0
  | .failed _ => 0

theorem running_le (pc : Pc) : pc.running≤1 := by
  cases pc with
  | ended | failed => exact Nat.zero_le 1
  | _ => exact Nat.le_refl 1

theorem running_of_wants {pc : Pc} (h : 0<pc.wants) : pc.running=1 := by
  cases pc with
  | ended | failed => exact absurd h (Nat.lt_irrefl 0)
  | _ => rfl

theorem receive_stream (s : State) (bytes : Bytes) : (s.receive texts bytes).stream=s.stream := by
  unfold State.receive
  split
  · split
    · unfold State.afterHeader State.deliver
      split
      · rfl
      · split <;> rfl
    · rfl
  · split <;> rfl
  · rfl

theorem step_shorter {a : Act} (h : step texts s a=some t) :
    t.stream.length+t.pc.running<s.stream.length+s.pc.running := by
  cases a with
  | read n =>
    obtain ⟨⟨h1,hwant,havail⟩,⟨⟩⟩ := Option.ite_none_right_eq_some.mp h
    have hold:=running_of_wants (Nat.lt_of_lt_of_le h1 hwant)
    have hnew:=running_le ({s with stream := s.stream.drop n}.receive texts (s.stream.take n)).pc
    rw [receive_stream,length_drop]
    omega
  | eof =>
    obtain ⟨⟨-,hwant⟩,h⟩ := Option.ite_none_right_eq_some.mp h
    rw [running_of_wants hwant]
    split at h <;> cases h <;> exact Nat.lt_succ_self _

theorem exec_length {as : List Act} (h : exec (step texts) s as=some t) :
    as.length+(t.stream.length+t.pc.running) ≤ s.stream.length+s.pc.running := by
  induction as generalizing s with
  | nil =>
    cases h
    rw [length_nil]
    omega
  | cons a as ih =>
    obtain ⟨u,hu,hrest⟩ := exec_cons h
    have hfirst:=step_shorter hu
    have hlater:=ih hrest
    rw [length_cons]
    omega

/-- Encoding appends one frame or nothing, the frame decodes to the value, and both loops take the frames
off the stream however it is cut, in at most one read a byte. -/
theorem rpc_frames_round_trip (rmp : RmpSerde α) (hrmp : rmp.Faithful) :
    (∀ value out out',encodeInto rmp value out=(.ok (),out') →
      ∃ f,out'=out++f ∧ IsFrame f ∧ decodeFrame rmp.coder f=.ok value) ∧
    (∀ value out out' e,encodeInto rmp value out=(.error e,out') → out'=out) ∧
    ∀ values stream,encodeAll rmp values []=some stream →
      ∃ frames,stream=frames.flatten ∧ frames.map (decodeFrame rmp.coder)=values.map .ok ∧
        ∀ texts∈[daemonTexts,sessionTexts],∀ as s,exec (step texts) (start stream) as=some s →
          WithinFrame frames s ∧ (∀ e,s.pc≠.failed e) ∧ (s.pc=.ended → s.frames=frames) ∧
            ((∀ a,step texts s a=none) → s.pc=.ended) ∧ as.length ≤ stream.length+1 := by
  refine ⟨fun _ _ _ h => encodeInto_ok hrmp h,fun _ _ _ _ h => encodeInto_error h,?_⟩
  intro values stream henc
  obtain ⟨frames,hstream,hframes,hvalues⟩ := encodeAll_frames hrmp henc
  refine ⟨frames,hstream,hvalues,?_⟩
  intro texts _ as s hrun
  have hlen:=exec_length hrun
  have hreach:=reach_of_exec hrun
  rw [hstream] at hreach
  have hinv:=inv_reach hframes hreach
  refine ⟨within_of_inv hframes hinv,?_,?_,ended_of_stuck hinv,?_⟩
  · intro e he
    rw [Inv,he] at hinv
    exact hinv
  · intro he
    rw [Inv,he] at hinv
    exact hinv.1
  · exact Nat.le_trans (Nat.le_add_right _ _) hlen

def byteCoder : RmpSerde UInt8 where
  writeNamed b := ([b],true)
  fromSlice
    | [b] => some b
    | _ => none

theorem rpc_frames_two_bytes :
    encodeAll byteCoder [7,8] []=some [0,0,0,1,7,0,0,0,1,8] ∧
      ∃ frames : List Bytes,[0,0,0,1,7,0,0,0,1,8]=frames.flatten ∧
        frames.map (decodeFrame byteCoder.coder)=[.ok 7,.ok 8] := by
  have hfaithful : byteCoder.Faithful := fun _ _ => rfl
  have henc : encodeAll byteCoder [7,8] []=some [0,0,0,1,7,0,0,0,1,8] := by decide
  obtain ⟨frames,hstream,hvalues,-⟩ := (rpc_frames_round_trip byteCoder hfaithful).2.2 [7,8] _ henc
  exact ⟨henc,frames,hstream,hvalues⟩

end Waymux.Wire.FrameReads
