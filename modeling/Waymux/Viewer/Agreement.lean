import Waymux.Viewer.Protocol

/-!
# What one side writes the other reads

The writer takes any payload below 4 GiB and any picture; both readers stop at 1 MiB, and the
session's wants a cursor picture to have the size it announces.
-/

namespace Waymux.Viewer.Agreement
open Framing.LengthPrefix Framing.Integers Viewer.Protocol List

def writeFrames : List Frame → Except String Bytes
  | [] => .ok []
  | f::fs => do
      let bytes ← writeFrame f
      let rest ← writeFrames fs
      return bytes++rest

def readFrames {α : Type} (read : Bytes → Except String (α × Bytes)) : Nat → Bytes → Except String (List α × Bytes)
  | 0, bytes => .ok ([],bytes)
  | n+1, bytes => do
      let (f,rest) ← read bytes
      let (fs,rest) ← readFrames read n rest
      return (f::fs,rest)

inductive Seen
  | payload (tag : UInt8) (bytes : Bytes)
  | cursorImage (w h hotX hotY : UInt16) (rgba : Bytes)
  | cursorPos (x y seq : UInt32)
  deriving DecidableEq, Repr

def seen : Frame → Seen
  | .cursorImage w h hotX hotY rgba => .cursorImage w h hotX hotY rgba
  | .cursorPos x y seq => .cursorPos x y seq
  | f => .payload f.tag f.payload

def seenImage (m : Socket.CursorImageMessage) : Option Seen := do
  let hotX ← m.hotspotX
  let hotY ← m.hotspotY
  let text ← m.rgba
  let rgba ← Framing.Base64.decode text.toList
  return .cursorImage m.w m.h hotX hotY rgba

def bridgeSeen (f : Socket.Frame) : Option Seen :=
  if f.tag=tagCursorImage then seenImage (Socket.cursorImageToWS f)
  else if f.tag=tagCursorPos then
    let m:=Socket.cursorPosToWS f
    some (.cursorPos m.x m.y m.seq)
  else some (.payload f.tag f.payload)

/-- Both readers get every frame of the stream, with the same tags and contents. -/
def ReadAlike (frames : List Frame) (stream : Bytes) : Prop :=
  readFrames readFrame frames.length stream=.ok (frames,[]) ∧
    ∃ gs,readFrames Socket.readFrame frames.length stream=.ok (gs,[]) ∧
      gs.map Socket.Frame.tag=frames.map Frame.tag ∧ gs.map bridgeSeen=frames.map fun f => some (seen f)

def PictureFits : Frame → Prop
  | .cursorImage w h _ _ rgba => rgba.length=w.toNat*h.toNat*4
  | _ => True

def Readable (f : Frame) : Prop := f.payload.length≤Protocol.maxPayloadBytes ∧ PictureFits f

theorem ofNat16 (n : UInt16) : UInt16.ofNat (ofLe (leBytes 2 n.toNat))=n := by
  rw [ofLe_leBytes n.toNat_lt,UInt16.ofNat_toNat]

theorem ofNat32 (n : UInt32) : UInt32.ofNat (ofLe (leBytes 4 n.toNat))=n := by
  rw [ofLe_leBytes n.toNat_lt,UInt32.ofNat_toNat]

theorem ofNat64 (n : UInt64) : UInt64.ofNat (ofLe (leBytes 8 n.toNat))=n := by
  rw [ofLe_leBytes n.toNat_lt,UInt64.ofNat_toNat]

variable {tag : UInt8} {payload bytes stream : Bytes} {f : Frame} {frames : List Frame}

theorem written_header {rest : Bytes} (h : payload.length<2^32) : ∃ a b c d,
    tag::leBytes 4 payload.length++payload++rest=tag::a::b::c::d::(payload++rest) ∧
      ofLe [a,b,c,d]=payload.length := by
  have hlen:=@ofLe_leBytes 4 payload.length h
  exact ⟨_,_,_,_,rfl,hlen⟩

section CursorImage
variable (w h hotX hotY : UInt16) (rgba : Bytes)

theorem payload_cursorImage_length : (Frame.payload (.cursorImage w h hotX hotY rgba)).length=8+rgba.length := by
  simp only [Frame.payload,length_append,leBytes_length]
  omega

theorem payload_cursorImage_fields :
    UInt16.ofNat (leAt (Frame.payload (.cursorImage w h hotX hotY rgba)) 0 2)=w ∧
    UInt16.ofNat (leAt (Frame.payload (.cursorImage w h hotX hotY rgba)) 2 2)=h ∧
    UInt16.ofNat (leAt (Frame.payload (.cursorImage w h hotX hotY rgba)) 4 2)=hotX ∧
    UInt16.ofNat (leAt (Frame.payload (.cursorImage w h hotX hotY rgba)) 6 2)=hotY ∧
    (Frame.payload (.cursorImage w h hotX hotY rgba)).drop 8=rgba :=
  ⟨ofNat16 w,ofNat16 h,ofNat16 hotX,ofNat16 hotY,rfl⟩

theorem parseCursorImage_iff :
    parseCursorImage (Frame.payload (.cursorImage w h hotX hotY rgba))=.ok (.cursorImage w h hotX hotY rgba) ↔
      rgba.length=w.toNat*h.toNat*4 := by
  have hlen:=payload_cursorImage_length w h hotX hotY rgba
  obtain ⟨hw,hh,hx,hy,hrgba⟩ := payload_cursorImage_fields w h hotX hotY rgba
  have hlong : ¬8+rgba.length<8 := by omega
  simp only [parseCursorImage,hw,hh,hx,hy,hrgba,hlen,if_neg hlong]
  constructor
  · intro hok
    split at hok
    · cases hok
    next heq => omega
  · intro heq
    rw [if_neg (by omega)]

end CursorImage

theorem payload_cursorPos_fields (x y seq : UInt32) :
    UInt32.ofNat (leAt (Frame.payload (.cursorPos x y seq)) 0 4)=x ∧
    UInt32.ofNat (leAt (Frame.payload (.cursorPos x y seq)) 4 4)=y ∧
    UInt32.ofNat (leAt (Frame.payload (.cursorPos x y seq)) 8 4)=seq :=
  ⟨ofNat32 x,ofNat32 y,ofNat32 seq⟩

theorem parsePayload_cursorPos (payload : Bytes) : parsePayload tagCursorPos payload=parseCursorPos payload := rfl

theorem parsePayload_iff (f : Frame) : parsePayload f.tag f.payload=.ok f ↔ PictureFits f := by
  cases f with
  | ptsHint ms =>
    refine iff_true_intro ?_
    have hlen : (leBytes 8 ms.toNat).length=8 := leBytes_length 8 _
    simp only [Frame.payload,Frame.tag,parsePayload,hlen,ofNat64]
    rfl
  | setBitrate bps =>
    refine iff_true_intro ?_
    have hlen : (leBytes 4 bps.toNat).length=4 := leBytes_length 4 _
    simp only [Frame.payload,Frame.tag,parsePayload,hlen,ofNat32]
    rfl
  | cursorImage w h hotX hotY rgba =>
    exact parseCursorImage_iff w h hotX hotY rgba
  | cursorPos x y seq =>
    refine iff_true_intro ?_
    have hlen : (Frame.payload (.cursorPos x y seq)).length=12 := rfl
    obtain ⟨hx,hy,hseq⟩ := payload_cursorPos_fields x y seq
    rw [Frame.tag,parsePayload_cursorPos,parseCursorPos,hlen,if_neg (by decide),hx,hy,hseq]
  | _ => exact iff_true_intro rfl

theorem readFrame_payload (h32 : payload.length<2^32) (rest : Bytes) :
    readFrame (tag::leBytes 4 payload.length++payload++rest) =
      if Protocol.maxPayloadBytes<payload.length then
        let len:=payload.length
        .error s!"payload {len} exceeds {Protocol.maxPayloadBytes}"
      else (parsePayload tag payload).map fun frame => (frame,rest) := by
  obtain ⟨a,b,c,d,hbytes,hlen⟩ := @written_header tag payload rest h32
  rw [hbytes,readFrame,hlen]
  have hshort : ¬(payload++rest).length<payload.length := by
    rw [length_append]
    omega
  simp

theorem socketReadFrame_payload (htag : tag∈Socket.knownTags) (hlen : payload.length≤Socket.maxPayloadBytes)
    (rest : Bytes) :
    Socket.readFrame (tag::leBytes 4 payload.length++payload++rest)=.ok (⟨tag,payload⟩,rest) := by
  have h32 : payload.length<2^32 := Nat.lt_of_le_of_lt hlen (by decide)
  obtain ⟨a,b,c,d,hbytes,hof⟩ := @written_header tag payload rest h32
  rw [hbytes,Socket.readFrame,if_pos htag,hof]
  have hbig : ¬Socket.maxPayloadBytes<payload.length := by omega
  simp [if_neg hbig]

theorem writeFrame_ok (h : writeFrame f=.ok bytes) :
    f.payload.length<2^32 ∧ bytes=f.tag::leBytes 4 f.payload.length++f.payload := by
  rw [writeFrame,writePayload] at h
  split at h
  next h32 =>
    cases h
    exact ⟨h32,rfl⟩
  · cases h

theorem readFrame_iff {rest rest' : Bytes} (h : writeFrame f=.ok bytes) :
    readFrame (bytes++rest)=.ok (f,rest') ↔ Readable f ∧ rest'=rest := by
  obtain ⟨h32,rfl⟩ := writeFrame_ok h
  rw [readFrame_payload h32]
  have hparse:=parsePayload_iff f
  split
  next hbig =>
    constructor
    · intro hok
      cases hok
    · intro hok
      have := hok.1.1
      omega
  next hsmall =>
    rw [Readable,← hparse]
    constructor
    · intro hok
      cases hp : parsePayload f.tag f.payload <;> rw [hp] at hok <;> cases hok
      exact ⟨⟨by omega,rfl⟩,rfl⟩
    · intro hok
      rw [hok.1.2,hok.2]
      rfl

theorem tag_known (f : Frame) : f.tag∈Socket.knownTags := by
  cases f <;> exact contains_iff_mem.mp rfl

theorem bridgeSeen_frame (f : Frame) : bridgeSeen ⟨f.tag,f.payload⟩=some (seen f) := by
  cases f with
  | cursorImage w h hotX hotY rgba =>
    have hlen:=payload_cursorImage_length w h hotX hotY rgba
    obtain ⟨hw,hh,hx,hy,hrgba⟩ := payload_cursorImage_fields w h hotX hotY rgba
    have hlong : ¬8+rgba.length<8 := by omega
    have harm : bridgeSeen ⟨Frame.tag (.cursorImage w h hotX hotY rgba),
        Frame.payload (.cursorImage w h hotX hotY rgba)⟩ =
        seenImage (Socket.cursorImageToWS ⟨Frame.tag (.cursorImage w h hotX hotY rgba),
          Frame.payload (.cursorImage w h hotX hotY rgba)⟩) := rfl
    rw [harm,Socket.cursorImageToWS]
    simp only [hlen,if_neg hlong,hw,hh,hx,hy,hrgba,seenImage,Option.bind_eq_bind,Option.bind_some,
      String.toList_ofList,Framing.Base64.decode_encode]
    rfl
  | cursorPos x y seq =>
    have hlen : (Frame.payload (.cursorPos x y seq)).length=12 := rfl
    obtain ⟨hx,hy,hseq⟩ := payload_cursorPos_fields x y seq
    have harm : bridgeSeen ⟨Frame.tag (.cursorPos x y seq),Frame.payload (.cursorPos x y seq)⟩ =
        (let m:=Socket.cursorPosToWS ⟨Frame.tag (.cursorPos x y seq),Frame.payload (.cursorPos x y seq)⟩
         some (.cursorPos m.x m.y m.seq)) := rfl
    rw [harm,Socket.cursorPosToWS]
    simp only [hlen,hx,hy,hseq]
    rfl
  | _ => rfl

theorem readFrames_cons_iff {α : Type} {read : Bytes → Except String (α × Bytes)} {n : Nat} {tail : Bytes} {f : α}
    {fs : List α} : readFrames read (n+1) bytes=.ok (f::fs,tail) ↔
      ∃ rest,read bytes=.ok (f,rest) ∧ readFrames read n rest=.ok (fs,tail) := by
  rw [readFrames]
  cases hr : read bytes with
  | error =>
    constructor
    · intro h
      cases h
    · rintro ⟨rest,h,-⟩
      cases h
  | ok p =>
    obtain ⟨g,rest⟩ := p
    cases hrest : readFrames read n rest with
    | error =>
      constructor
      · intro h
        simp only [bind,Except.bind,hrest] at h
        cases h
      · rintro ⟨rest',h,h'⟩
        cases h
        rw [hrest] at h'
        cases h'
    | ok =>
      constructor
      · intro h
        simp only [bind,Except.bind,hrest] at h
        cases h
        exact ⟨rest,rfl,hrest⟩
      · rintro ⟨rest',h,h'⟩
        cases h
        rw [hrest] at h'
        cases h'
        simp only [bind,Except.bind,hrest]
        rfl

theorem writeFrames_cons {fs : List Frame} (h : writeFrames (f::fs)=.ok stream) :
    ∃ bytes rest,writeFrame f=.ok bytes ∧ writeFrames fs=.ok rest ∧ stream=bytes++rest := by
  rw [writeFrames] at h
  cases hf : writeFrame f <;> cases hfs : writeFrames fs <;> rw [hf,hfs] at h <;> cases h
  exact ⟨_,_,rfl,rfl,rfl⟩

theorem readFrames_iff (h : writeFrames frames=.ok stream) :
    readFrames readFrame frames.length stream=.ok (frames,[]) ↔ ∀ f∈frames,Readable f := by
  induction frames generalizing stream with
  | nil =>
    cases h
    exact iff_of_true rfl fun f hf => absurd hf not_mem_nil
  | cons f fs ih =>
    obtain ⟨bytes,rest,hf,hfs,rfl⟩ := writeFrames_cons h
    rw [length_cons,readFrames_cons_iff,forall_mem_cons,← ih hfs]
    constructor
    · rintro ⟨rest',hread,hrest⟩
      obtain ⟨hok,rfl⟩ := (readFrame_iff hf).mp hread
      exact ⟨hok,hrest⟩
    · rintro ⟨hok,hrest⟩
      exact ⟨rest,(readFrame_iff hf).mpr ⟨hok,rfl⟩,hrest⟩

theorem socketReadFrames (h : writeFrames frames=.ok stream)
    (hlen : ∀ f∈frames,f.payload.length≤Socket.maxPayloadBytes) :
    readFrames Socket.readFrame frames.length stream =
      .ok (frames.map fun f => ⟨f.tag,f.payload⟩,[]) := by
  induction frames generalizing stream with
  | nil =>
    cases h
    rfl
  | cons f fs ih =>
    obtain ⟨bytes,rest,hf,hfs,rfl⟩ := writeFrames_cons h
    obtain ⟨-,rfl⟩ := writeFrame_ok hf
    rw [forall_mem_cons] at hlen
    exact readFrames_cons_iff.mpr ⟨rest,socketReadFrame_payload (tag_known f) hlen.1 rest,ih hfs hlen.2⟩

theorem readAlike_iff (h : writeFrames frames=.ok stream) : ReadAlike frames stream ↔ ∀ f∈frames,Readable f := by
  rw [ReadAlike,readFrames_iff h]
  constructor
  · exact fun hread => hread.1
  · intro hall
    refine ⟨hall,_,socketReadFrames h fun f hf => (hall f hf).1,?_,?_⟩
    · rw [map_map]
      rfl
    · rw [map_map]
      exact map_congr_left fun f _ => bridgeSeen_frame f

def Prescribed (f : Socket.Frame) : Prop :=
  f.tag=tagNalu ∨ f.tag=tagInjectOp ∨ (f.tag=tagPts ∧ f.payload.length=8) ∨
    (f.tag=tagForceKeyframe ∧ f.payload.length=0) ∨ (f.tag=tagSetBitrate ∧ f.payload.length=4) ∨
    (f.tag=tagShutdown ∧ f.payload.length=1) ∨ (f.tag=tagCursorPos ∧ f.payload.length=12) ∨
    (f.tag=tagCursorImage ∧ 8≤f.payload.length ∧
      f.payload.length=8+leAt f.payload 0 2*leAt f.payload 2 2*4)

theorem payload_of_le {k n : Nat} (hlen : payload.length=k) (hn : n=ofLe payload) : leBytes k n=payload := by
  rw [← hlen,hn]
  exact leBytes_ofLe payload

theorem ofLe_lt_of_length {k : Nat} (hlen : payload.length=k) : ofLe payload<256^k :=
  hlen ▸ ofLe_lt payload

theorem leBytes_leAt {offset width : Nat} (h : offset+width≤payload.length) :
    leBytes width (leAt payload offset width)=(payload.drop offset).take width ∧
      leAt payload offset width<256^width := by
  have hlen : ((payload.drop offset).take width).length=width := by
    rw [length_take,length_drop]
    omega
  exact ⟨payload_of_le hlen rfl,ofLe_lt_of_length hlen⟩

theorem take_append_take (payload : Bytes) (i k : Nat) :
    (payload.drop i).take k++payload.drop (i+k)=payload.drop i := by
  rw [← drop_drop,take_append_drop]

theorem parseCursorPos_prescribed (hlen : payload.length=12) :
    ∃ frame,parseCursorPos payload=.ok frame ∧ frame.tag=tagCursorPos ∧ frame.payload=payload := by
  obtain ⟨hx,hx'⟩ := @leBytes_leAt payload 0 4 (by omega)
  obtain ⟨hy,hy'⟩ := @leBytes_leAt payload 4 4 (by omega)
  obtain ⟨hs,hs'⟩ := @leBytes_leAt payload 8 4 (by omega)
  have hend : (payload.drop 8).take 4=payload.drop 8 := by
    rw [take_of_length_le]
    rw [length_drop]
    omega
  refine ⟨_,by rw [parseCursorPos,if_neg (by omega)],rfl,?_⟩
  rw [Frame.payload,UInt32.toNat_ofNat_of_lt' hx',UInt32.toNat_ofNat_of_lt' hy',UInt32.toNat_ofNat_of_lt' hs',
    hx,hy,hs,hend,take_append_take,take_append_take,drop_zero]

theorem parseCursorImage_prescribed (h8 : 8≤payload.length)
    (hlen : payload.length=8+leAt payload 0 2*leAt payload 2 2*4) :
    ∃ frame,parseCursorImage payload=.ok frame ∧ frame.tag=tagCursorImage ∧ frame.payload=payload := by
  obtain ⟨hw,hw'⟩ := @leBytes_leAt payload 0 2 (by omega)
  obtain ⟨hh,hh'⟩ := @leBytes_leAt payload 2 2 (by omega)
  obtain ⟨hx,hx'⟩ := @leBytes_leAt payload 4 2 (by omega)
  obtain ⟨hy,hy'⟩ := @leBytes_leAt payload 6 2 (by omega)
  have hwn : (UInt16.ofNat (leAt payload 0 2)).toNat=leAt payload 0 2 := UInt16.toNat_ofNat_of_lt' hw'
  have hhn : (UInt16.ofNat (leAt payload 2 2)).toNat=leAt payload 2 2 := UInt16.toNat_ofNat_of_lt' hh'
  have hxn : (UInt16.ofNat (leAt payload 4 2)).toNat=leAt payload 4 2 := UInt16.toNat_ofNat_of_lt' hx'
  have hyn : (UInt16.ofNat (leAt payload 6 2)).toNat=leAt payload 6 2 := UInt16.toNat_ofNat_of_lt' hy'
  refine ⟨.cursorImage (UInt16.ofNat (leAt payload 0 2)) (UInt16.ofNat (leAt payload 2 2))
    (UInt16.ofNat (leAt payload 4 2)) (UInt16.ofNat (leAt payload 6 2)) (payload.drop 8),?_,rfl,?_⟩
  · rw [parseCursorImage]
    simp only
    rw [if_neg (by omega),hwn,hhn,if_neg (by omega)]
  · rw [Frame.payload,hwn,hhn,hxn,hyn,hw,hh,hx,hy,take_append_take,take_append_take,take_append_take,
      take_append_take,drop_zero]

theorem parsePayload_prescribed {f : Socket.Frame} (h : Prescribed f) :
    ∃ frame,parsePayload f.tag f.payload=.ok frame ∧ frame.tag=f.tag ∧ frame.payload=f.payload := by
  obtain ⟨tag,payload⟩ := f
  simp only [Prescribed] at h
  rcases h with rfl | rfl | ⟨rfl,hlen⟩ | ⟨rfl,hlen⟩ | ⟨rfl,hlen⟩ | ⟨rfl,hlen⟩ | ⟨rfl,hlen⟩ | ⟨rfl,h8,hlen⟩
  · exact ⟨.nalu payload,rfl,rfl,rfl⟩
  · exact ⟨.injectOp payload,rfl,rfl,rfl⟩
  · have harm : parsePayload tagPts payload =
        if payload.length≠8 then .error "PtsHint must be 8 bytes"
        else .ok (.ptsHint (UInt64.ofNat (ofLe payload))) := rfl
    refine ⟨_,by rw [harm,if_neg (by omega)],rfl,?_⟩
    exact payload_of_le hlen (UInt64.toNat_ofNat_of_lt' (ofLe_lt_of_length hlen))
  · exact ⟨.forceKeyframe,rfl,rfl,(length_eq_zero_iff.mp hlen).symm⟩
  · have harm : parsePayload tagSetBitrate payload =
        if payload.length≠4 then .error "SetBitrate must be 4 bytes"
        else .ok (.setBitrate (UInt32.ofNat (ofLe payload))) := rfl
    refine ⟨_,by rw [harm,if_neg (by omega)],rfl,?_⟩
    exact payload_of_le hlen (UInt32.toNat_ofNat_of_lt' (ofLe_lt_of_length hlen))
  · obtain ⟨reason,rfl⟩ := length_eq_one_iff.mp hlen
    exact ⟨.shutdown reason,rfl,rfl,rfl⟩
  · exact parseCursorPos_prescribed hlen
  · exact parseCursorImage_prescribed h8 hlen

theorem readFrame_of_socket {f : Socket.Frame} (h : Socket.writeFrame f=.ok bytes) (hp : Prescribed f)
    (rest : Bytes) :
    ∃ frame,readFrame (bytes++rest)=.ok (frame,rest) ∧ frame.tag=f.tag ∧ frame.payload=f.payload := by
  rw [Socket.writeFrame] at h
  split at h
  · cases h
  next hsmall =>
    cases h
    obtain ⟨frame,hparse,htag,hpayload⟩ := parsePayload_prescribed hp
    have h32 : f.payload.length<2^32 := by
      have : Socket.maxPayloadBytes<2^32 := by decide
      omega
    have hlimit : Protocol.maxPayloadBytes=Socket.maxPayloadBytes := rfl
    refine ⟨frame,?_,htag,hpayload⟩
    rw [readFrame_payload h32,hlimit,if_neg hsmall,hparse]
    rfl

/-- What the session wrote is read alike by both sides exactly when every payload is within a mebibyte and
every cursor picture has its size; what the bridge writes, the session reads. -/
theorem viewer_wire_agreement (frames : List Frame) (stream : Bytes) (h : writeFrames frames=.ok stream) :
    (ReadAlike frames stream ↔ ∀ f∈frames,Readable f) ∧
    ∀ f bytes rest,Socket.writeFrame f=.ok bytes → Prescribed f →
      ∃ frame,readFrame (bytes++rest)=.ok (frame,rest) ∧ frame.tag=f.tag ∧ frame.payload=f.payload :=
  ⟨readAlike_iff h,fun _ _ rest hw hp => readFrame_of_socket hw hp rest⟩

/-- A cursor of one pixel and a last frame; and a bitrate from the bridge. -/
theorem viewer_wire_agreement_cursor :
    ReadAlike [.cursorImage 1 1 0 0 [9,8,7,255],.shutdown 3]
      [3,12,0,0,0,1,0,1,0,0,0,0,0,9,8,7,255,0xF0,1,0,0,0,3] ∧
    ∃ frame,readFrame [0x12,4,0,0,0,1,2,3,0]=.ok (frame,[]) ∧ frame.tag=0x12 ∧
      frame.payload=[1,2,3,0] := by
  have hagree:=viewer_wire_agreement [.cursorImage 1 1 0 0 [9,8,7,255],.shutdown 3]
    [3,12,0,0,0,1,0,1,0,0,0,0,0,9,8,7,255,0xF0,1,0,0,0,3] rfl
  constructor
  · refine hagree.1.mpr ?_
    intro f hf
    rcases mem_cons.mp hf with rfl | hf
    · exact ⟨by decide,rfl⟩
    · rw [mem_singleton.mp hf]
      exact ⟨by decide,trivial⟩
  · have hbitrate : Prescribed ⟨0x12,[1,2,3,0]⟩ := .inr (.inr (.inr (.inr (.inl ⟨rfl,rfl⟩))))
    exact hagree.2 ⟨0x12,[1,2,3,0]⟩ [0x12,4,0,0,0,1,2,3,0] [] rfl hbitrate

theorem writeFrames_nalu (h : bytes.length<2^32) :
    writeFrames [.nalu bytes]=.ok (tagNalu::leBytes 4 bytes.length++bytes++[]) := by
  have hframe : writeFrame (.nalu bytes)=.ok (tagNalu::leBytes 4 bytes.length++bytes) := by
    rw [writeFrame,writePayload,Frame.payload,if_pos h]
    rfl
  rw [writeFrames,hframe]
  rfl

/-- An encoded picture of one byte more than a mebibyte is written and not read. -/
theorem large_nalu_not_read_alike :
    ∃ stream,writeFrames [.nalu (List.replicate (2^20+1) 0)]=.ok stream ∧
      ¬ReadAlike [.nalu (List.replicate (2^20+1) 0)] stream := by
  have hlen : (List.replicate (2^20+1) (0 : UInt8)).length=2^20+1 := length_replicate
  have hstream:=@writeFrames_nalu (List.replicate (2^20+1) 0) (by rw [hlen]; decide)
  refine ⟨_,hstream,?_⟩
  intro halike
  have hread:=(readAlike_iff hstream).mp halike _ (mem_singleton_self _)
  have hbound : (List.replicate (2^20+1) (0 : UInt8)).length≤Protocol.maxPayloadBytes := hread.1
  rw [hlen] at hbound
  exact absurd hbound (by decide)

end Waymux.Viewer.Agreement
