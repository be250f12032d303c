import Waymux.Mkv.Ebml

/-!
# The streaming muxer (`waymux-mux-mkv/src/lib.rs`)

A sink is its bytes and a position, as a `Cursor<Vec<u8>>` or a file is.
-/

namespace Waymux.Mkv.Writer
open Framing.LengthPrefix Framing.Integers Framing.Ebml Mkv.Ebml

structure Sink where
  data : Bytes
  pos : Nat
  deriving Repr

def Sink.empty : Sink := ⟨[],0⟩

/- Overwrites from the position on and extends at the end. -/
def Sink.writeAll (w : Sink) (bytes : Bytes) : Sink :=
  ⟨w.data.take w.pos++bytes++w.data.drop (w.pos+bytes.length),w.pos+bytes.length⟩

def Sink.seekStart (w : Sink) (offset : Nat) : Sink := {w with pos := offset}

def Sink.seekEnd (w : Sink) : Sink := {w with pos := w.data.length}

def idEbml : Nat := 0x1A45DFA3
def idEbmlVersion : Nat := 0x4286
def idEbmlReadVersion : Nat := 0x42F7
def idEbmlMaxIdLength : Nat := 0x42F2
def idEbmlMaxSizeLength : Nat := 0x42F3
def idDocType : Nat := 0x4282
def idDocTypeVersion : Nat := 0x4287
def idDocTypeReadVersion : Nat := 0x4285

def idSegment : Nat := 0x18538067
def idInfo : Nat := 0x1549A966
def idTimecodeScale : Nat := 0x2AD7B1
def idMuxingApp : Nat := 0x4D80
def idWritingApp : Nat := 0x5741
def idDuration : Nat := 0x4489

def idTracks : Nat := 0x1654AE6B
def idTrackEntry : Nat := 0xAE
def idTrackNumber : Nat := 0xD7
def idTrackUid : Nat := 0x73C5
def idTrackType : Nat := 0x83
def idFlagLacing : Nat := 0x9C
def idCodecId : Nat := 0x86
def idCodecPrivate : Nat := 0x63A2
def idVideo : Nat := 0xE0
def idPixelWidth : Nat := 0xB0
def idPixelHeight : Nat := 0xBA

def idCluster : Nat := 0x1F43B675
def idTimecode : Nat := 0xE7
def idSimpleBlock : Nat := 0xA3

def trackTypeVideo : Nat := 1
def trackNumber : Nat := 1
def timecodeScaleNs : Nat := 1000000
def clusterDurationMs : Int64 := 1000

def ebmlBody : Bytes :=
  writeElementU64 idEbmlVersion 1 ++
  (writeElementU64 idEbmlReadVersion 1 ++
  (writeElementU64 idEbmlMaxIdLength 4 ++
  (writeElementU64 idEbmlMaxSizeLength 8 ++
  (writeElementStr idDocType "matroska" ++
  (writeElementU64 idDocTypeVersion 4 ++
  writeElementU64 idDocTypeReadVersion 2)))))

def writeEbmlHeader (w : Sink) : Sink :=
  ((w.writeAll (writeElementId idEbml)).writeAll (writeElementSize ebmlBody.length)).writeAll ebmlBody

def writeSegmentStart (w : Sink) : Sink :=
  (w.writeAll (writeElementId idSegment)).writeAll (writeElementSize unknownSize)

/- The part of the Info body in front of the Duration element. -/
def infoHead : Bytes :=
  writeElementU64 idTimecodeScale timecodeScaleNs ++
  (writeElementStr idMuxingApp "waymux-mux-mkv" ++
  writeElementStr idWritingApp "waymux-mux-mkv")

def infoBody (duration : Float) : Bytes := infoHead++writeElementF64 idDuration duration

/- The Duration value stands three bytes into its element. -/
def durationValueOffsetInBody : Nat := infoHead.length+3

def writeInfo (w : Sink) : Sink × Nat :=
  let body:=infoBody 0.0
  let w:=(w.writeAll (writeElementId idInfo)).writeAll (writeElementSize body.length)
  (w.writeAll body,w.pos+durationValueOffsetInBody)

def videoBody (width height : UInt32) : Bytes :=
  writeElementU64 idPixelWidth width.toNat++writeElementU64 idPixelHeight height.toNat

def trackBody (width height : UInt32) (codecPrivate : Bytes) (codecId : String) : Bytes :=
  writeElementU64 idTrackNumber trackNumber ++
  (writeElementU64 idTrackUid 0xDEADBEEF ++
  (writeElementU64 idTrackType trackTypeVideo ++
  (writeElementU64 idFlagLacing 0 ++
  (writeElementStr idCodecId codecId ++
  (writeElementBytes idCodecPrivate codecPrivate ++
  writeElementBytes idVideo (videoBody width height))))))

def tracksBody (width height : UInt32) (codecPrivate : Bytes) (codecId : String) : Bytes :=
  writeElementBytes idTrackEntry (trackBody width height codecPrivate codecId)

def writeTracks (w : Sink) (width height : UInt32) (codecPrivate : Bytes) (codecId : String) : Sink :=
  let body:=tracksBody width height codecPrivate codecId
  ((w.writeAll (writeElementId idTracks)).writeAll (writeElementSize body.length)).writeAll body

/- `timecode_ms.max(0) as u64` -/
def writeClusterStart (w : Sink) (timecodeMs : Int64) : Sink :=
  ((w.writeAll (writeElementId idCluster)).writeAll (writeElementSize unknownSize)).writeAll
    (writeElementU64 idTimecode timecodeMs.toInt.toNat)

def blockHeader (track : Nat) (ptsDelta : Int16) (isKeyframe : Bool) : Bytes :=
  writeVint track++beBytes 2 ptsDelta.toUInt16.toNat++[if isKeyframe then 0x80 else 0x00]

def writeSimpleBlock (w : Sink) (track : Nat) (ptsDelta : Int16) (isKeyframe : Bool) (payload : Bytes) :
    Sink :=
  let header:=blockHeader track ptsDelta isKeyframe
  let bodyLen:=header.length+payload.length
  (((w.writeAll (writeElementId idSimpleBlock)).writeAll (writeElementSize bodyLen)).writeAll header).writeAll
    payload

structure MkvWriter where
  inner : Sink
  clusterOpen : Bool
  clusterBaseMs : Int64
  framesTotal : Nat
  lastPtsMs : Int64
  durationValueOffset : Nat

def newForCodec (inner : Sink) (width height : UInt32) (codecPrivate : Bytes) (codecId : String) : MkvWriter :=
  let (w,offset) := writeInfo (writeSegmentStart (writeEbmlHeader inner))
  { inner := writeTracks w width height codecPrivate codecId
    clusterOpen := false
    clusterBaseMs := 0
    framesTotal := 0
    lastPtsMs := 0
    durationValueOffset := offset}

def new (inner : Sink) (width height : UInt32) (codecPrivate : Bytes) : MkvWriter :=
  newForCodec inner width height codecPrivate "V_MPEG4/ISO/AVC"

structure Frame where
  nalData : Bytes
  ptsMs : Int64
  isKeyframe : Bool
  deriving DecidableEq, Repr

def MkvWriter.needNewCluster (m : MkvWriter) (f : Frame) : Bool :=
  !m.clusterOpen || decide (clusterDurationMs<f.ptsMs-m.clusterBaseMs) ||
    (f.isKeyframe && decide (50<f.ptsMs-m.clusterBaseMs))

def MkvWriter.openCluster (m : MkvWriter) (f : Frame) : MkvWriter :=
  if m.needNewCluster f then
    {m with
      inner := writeClusterStart m.inner f.ptsMs
      clusterOpen := true
      clusterBaseMs := f.ptsMs}
  else m

def MkvWriter.writeFrame (m : MkvWriter) (f : Frame) : MkvWriter :=
  let m:=m.openCluster f
  let delta:=(f.ptsMs-m.clusterBaseMs).toInt16
  {m with
    inner := writeSimpleBlock m.inner trackNumber delta f.isKeyframe f.nalData
    framesTotal := m.framesTotal+1
    lastPtsMs := f.ptsMs}

/- `last_pts_ms.max(0) as f64 + 16.0` -/
def MkvWriter.durationMs (m : MkvWriter) : Float :=
  (UInt64.ofNat m.lastPtsMs.toInt.toNat).toFloat+16.0

def MkvWriter.finish (m : MkvWriter) : Sink :=
  ((m.inner.seekStart m.durationValueOffset).writeAll (beBytes 8 m.durationMs.toBits.toNat)).seekEnd

def recorded (width height : UInt32) (codecPrivate : Bytes) (codecId : String) (frames : List Frame) : MkvWriter :=
  frames.foldl MkvWriter.writeFrame (newForCodec Sink.empty width height codecPrivate codecId)

def mux (width height : UInt32) (codecPrivate : Bytes) (codecId : String) (frames : List Frame) : Bytes :=
  (recorded width height codecPrivate codecId frames).finish.data

/-! ## Elements one after another -/

theorem fromUTF8_utf8 (s : String) : String.fromUTF8? ⟨(utf8 s).toArray⟩=some s := by
  have hbytes : (⟨(utf8 s).toArray⟩ : ByteArray)=s.toByteArray := rfl
  rw [hbytes,String.fromUTF8?,dif_pos s.isValidUTF8]
  rfl

inductive Element
  | u64 (id val : Nat)
  | str (id : Nat) (val : String)
  | bytes (id : Nat) (data : Bytes)

namespace Element

def id : Element → Nat
  | u64 id _ | str id _ | bytes id _ => id

def body : Element → Bytes
  | u64 _ val => uintBody val
  | str _ val => utf8 val
  | bytes _ data => data

def write : Element → Bytes
  | u64 id val => writeElementU64 id val
  | str id val => writeElementStr id val
  | bytes id data => writeElementBytes id data

/-- A 64-bit number, or a body whose length has an encoding. -/
def Fits : Element → Prop
  | u64 _ val => val<2^64
  | str _ val => (utf8 val).length<sizeLimit
  | bytes _ data => data.length<sizeLimit

instance : (e : Element) → Decidable e.Fits
  | u64 _ _ | str _ _ | bytes _ _ => inferInstanceAs (Decidable (_<_))

/-- What a reader takes from the body is the value written. -/
def Holds : Element → Prop
  | u64 _ val => ofBe (uintBody val)=val
  | str _ val => String.fromUTF8? ⟨(utf8 val).toArray⟩=some val
  | bytes _ _ => True

theorem holds {e : Element} (h : e.Fits) : e.Holds := by
  cases e with
  | u64 => exact ofBe_uintBody h
  | str id val => exact fromUTF8_utf8 val
  | bytes => trivial

end Element

def muxerIds : List Nat :=
  [idEbml,idEbmlVersion,idEbmlReadVersion,idEbmlMaxIdLength,idEbmlMaxSizeLength,idDocType,idDocTypeVersion,
   idDocTypeReadVersion,idSegment,idInfo,idTimecodeScale,idMuxingApp,idWritingApp,idDuration,idTracks,idTrackEntry,
   idTrackNumber,idTrackUid,idTrackType,idFlagLacing,idCodecId,idCodecPrivate,idVideo,idPixelWidth,idPixelHeight,
   idCluster,idTimecode,idSimpleBlock]

theorem muxerIds_isId : ∀ id∈muxerIds,IsId id := by decide

variable {opens : Nat → Bool}

theorem tokens_write {e : Element} (hid : e.id∈muxerIds) (h : e.Fits) (rest : Bytes) :
    tokens opens (e.write++rest)=(tokens opens rest).map (.element e.id e.body::·) := by
  have hid:=muxerIds_isId _ hid
  cases e with
  | u64 => exact tokens_u64 hid h
  | _ => exact tokens_bytes hid h

theorem tokens_elements (es : List Element) (h : ∀ e∈es,e.id∈muxerIds ∧ e.Fits) :
    tokens opens (es.flatMap Element.write)=some (es.map fun e => .element e.id e.body) := by
  induction es with
  | nil => exact tokens_nil
  | cons e es ih =>
    rw [List.forall_mem_cons] at h
    rw [List.flatMap_cons,tokens_write h.1.1 h.1.2,ih h.2]
    rfl

/-- A size takes the least length that leaves one of its data bits clear, its first byte tells
that length and it is read back; so elements written one after another are read back. -/
theorem element_sizes :
    (∀ n<sizeLimit,
      (∃ b tl,writeElementSize n=b::tl ∧ (b::tl).length=vintLen n ∧ vintLen n=8-b.toNat.log2) ∧
      n+1<2^(7*vintLen n) ∧ (∀ k,1≤k → n+1<2^(7*k) → vintLen n≤k) ∧
      ∀ rest,readSize (writeElementSize n++rest)=some (some n,rest)) ∧
    ∀ (es : List Element),(∀ e∈es,e.id∈muxerIds ∧ e.Fits) → ∀ opens,
      tokens opens (es.flatMap Element.write)=some (es.map fun e => .element e.id e.body) ∧ ∀ e∈es,e.Holds := by
  constructor
  · intro n hn
    obtain ⟨-,-,hlt,hleast⟩ := vintLen_spec hn
    exact ⟨writeElementSize_lead hn,hlt,hleast,readSize_writeElementSize hn⟩
  · intro es hes opens
    exact ⟨tokens_elements es hes,fun e he => Element.holds (hes e he).2⟩

theorem element_sizes_pair : readSize (writeElementSize 127)=some (some 127,[]) ∧ ofBe (uintBody 300)=300 ∧
    tokens (fun _ => false) (writeElementU64 idTrackNumber 300++writeElementStr idDocType "matroska") =
      some [.element idTrackNumber (uintBody 300),.element idDocType (utf8 "matroska")] := by
  have hfits : ∀ e∈[Element.u64 idTrackNumber 300,.str idDocType "matroska"],e.id∈muxerIds ∧ e.Fits := by
    decide
  obtain ⟨htokens,hvalues⟩ := element_sizes.2 _ hfits fun _ => false
  exact ⟨(element_sizes.1 127 (by decide)).2.2.2 [],hvalues _ List.mem_cons_self,htokens⟩

end Waymux.Mkv.Writer
