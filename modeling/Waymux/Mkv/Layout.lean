import Waymux.Mkv.Writer

/-!
# The bytes of a recording

The sink holds a preamble with the Duration value at a fixed place, then what each frame appended.
-/

namespace Waymux.Mkv.Layout
open Framing.LengthPrefix Framing.Integers Mkv.Ebml Mkv.Writer List

def atEnd (data : Bytes) : Sink := ⟨data,data.length⟩

@[simp] theorem atEnd_writeAll (data bytes : Bytes) : (atEnd data).writeAll bytes=atEnd (data++bytes) := by
  have hbehind : data.length≤data.length+bytes.length := Nat.le_add_right _ _
  rw [Sink.writeAll,atEnd,atEnd,take_length,drop_eq_nil_of_le hbehind,append_nil,length_append]

theorem overwrite {head old tail new : Bytes} (hlen : new.length=old.length) :
    ((atEnd (head++old++tail)).seekStart head.length).writeAll new =
      ⟨head++new++tail,head.length+new.length⟩ := by
  have htake : (head++old++tail).take head.length=head := by
    rw [append_assoc,take_left]
  have hdrop : (head++old++tail).drop (head.length+new.length)=tail := by
    rw [hlen,← length_append,drop_left]
  rw [Sink.seekStart,Sink.writeAll,atEnd]
  rw [htake,hdrop]

def segmentStart : Bytes := writeElementId idSegment++writeElementSize unknownSize

def preamble (duration : Float) (width height : UInt32) (codecPrivate : Bytes) (codecId : String) : Bytes :=
  writeElementBytes idEbml ebmlBody ++
  (segmentStart ++
  (writeElementBytes idInfo (infoBody duration) ++
  writeElementBytes idTracks (tracksBody width height codecPrivate codecId)))

def durationHead : Bytes :=
  writeElementBytes idEbml ebmlBody++segmentStart++writeElementId idInfo ++
    writeElementSize (infoBody 0.0).length++infoHead++writeElementId idDuration++writeElementSize 8

theorem infoBody_length (duration : Float) : (infoBody duration).length=infoHead.length+11 := by
  have hid : (writeElementId idDuration).length=2 := by decide
  have hsize : (writeElementSize 8).length=1 := by decide
  rw [infoBody,writeElementF64,length_append,length_append,length_append,beBytes_length,hid,hsize]

theorem preamble_split (duration : Float) (width height : UInt32) (codecPrivate : Bytes) (codecId : String) :
    preamble duration width height codecPrivate codecId =
      durationHead++beBytes 8 duration.toBits.toNat ++
        writeElementBytes idTracks (tracksBody width height codecPrivate codecId) := by
  have hlen : (infoBody duration).length=(infoBody 0.0).length := by
    rw [infoBody_length,infoBody_length]
  rw [preamble,writeElementBytes.eq_1 idInfo,hlen,durationHead,infoBody.eq_1 duration,writeElementF64]
  simp

theorem newForCodec_inner (width height : UInt32) (codecPrivate : Bytes) (codecId : String) :
    (newForCodec Sink.empty width height codecPrivate codecId).inner =
      atEnd (preamble 0.0 width height codecPrivate codecId) := by
  have hempty : Sink.empty=atEnd [] := rfl
  rw [newForCodec,hempty,writeEbmlHeader,writeSegmentStart,writeInfo]
  simp [writeTracks,preamble,segmentStart,writeElementBytes]

theorem newForCodec_offset (width height : UInt32) (codecPrivate : Bytes) (codecId : String) :
    (newForCodec Sink.empty width height codecPrivate codecId).durationValueOffset=durationHead.length := by
  have hempty : Sink.empty=atEnd [] := rfl
  have hid : (writeElementId idDuration).length=2 := by decide
  have hsize : (writeElementSize 8).length=1 := by decide
  rw [newForCodec,hempty,writeEbmlHeader,writeSegmentStart,writeInfo]
  simp only [atEnd_writeAll,durationValueOffsetInBody,durationHead,segmentStart,writeElementBytes,
    length_append,hid,hsize]
  rw [atEnd]
  simp only [length_append,length_nil]
  omega

def clusterStart (timecodeMs : Int64) : Bytes :=
  writeElementId idCluster++writeElementSize unknownSize++writeElementU64 idTimecode timecodeMs.toInt.toNat

def baseFor (m : MkvWriter) (f : Frame) : Int64 := if m.needNewCluster f then f.ptsMs else m.clusterBaseMs

def blockBody (m : MkvWriter) (f : Frame) : Bytes :=
  blockHeader trackNumber (f.ptsMs-baseFor m f).toInt16 f.isKeyframe++f.nalData

def frameBytes (m : MkvWriter) (f : Frame) : Bytes :=
  (if m.needNewCluster f then clusterStart f.ptsMs else [])++writeElementBytes idSimpleBlock (blockBody m f)

def written (m : MkvWriter) : List Frame → Bytes
  | [] => []
  | f::fs => frameBytes m f++written (m.writeFrame f) fs

theorem writeFrame_base (m : MkvWriter) (f : Frame) : (m.writeFrame f).clusterBaseMs=baseFor m f := by
  unfold MkvWriter.writeFrame MkvWriter.openCluster baseFor
  split <;> rfl

theorem writeFrame_offset (m : MkvWriter) (f : Frame) :
    (m.writeFrame f).durationValueOffset=m.durationValueOffset := by
  unfold MkvWriter.writeFrame MkvWriter.openCluster
  split <;> rfl

theorem writeFrame_inner {m : MkvWriter} {data : Bytes} (h : m.inner=atEnd data) (f : Frame) :
    (m.writeFrame f).inner=atEnd (data++frameBytes m f) := by
  rw [MkvWriter.writeFrame,frameBytes]
  unfold MkvWriter.openCluster
  cases hn : m.needNewCluster f with
  | true =>
    simp only [if_true,h,writeClusterStart,writeSimpleBlock,atEnd_writeAll,blockBody,baseFor,hn,
      clusterStart,writeElementBytes,length_append,append_assoc]
  | false =>
    simp only [Bool.false_eq_true,if_false,h,writeSimpleBlock,atEnd_writeAll,blockBody,baseFor,hn,
      writeElementBytes,length_append,append_assoc,nil_append]

theorem writeFrames_inner {m : MkvWriter} {data : Bytes} (h : m.inner=atEnd data) (fs : List Frame) :
    (fs.foldl MkvWriter.writeFrame m).inner=atEnd (data++written m fs) := by
  induction fs generalizing m data with
  | nil => rw [foldl_nil,written,append_nil,h]
  | cons f fs ih => rw [foldl_cons,written,← append_assoc,ih (writeFrame_inner h f)]

theorem writeFrames_offset (m : MkvWriter) (fs : List Frame) :
    (fs.foldl MkvWriter.writeFrame m).durationValueOffset=m.durationValueOffset := by
  induction fs generalizing m with
  | nil => rfl
  | cons f fs ih => rw [foldl_cons,ih,writeFrame_offset]

variable (width height : UInt32) (codecPrivate : Bytes) (codecId : String) (frames : List Frame)

def durationTail : Bytes :=
  writeElementBytes idTracks (tracksBody width height codecPrivate codecId) ++
    written (newForCodec Sink.empty width height codecPrivate codecId) frames

theorem recorded_inner :
    (recorded width height codecPrivate codecId frames).inner =
      atEnd (durationHead++beBytes 8 (0.0 : Float).toBits.toNat ++
        durationTail width height codecPrivate codecId frames) := by
  rw [recorded,writeFrames_inner (newForCodec_inner width height codecPrivate codecId),preamble_split,
    durationTail,append_assoc,append_assoc]

theorem mux_split :
    mux width height codecPrivate codecId frames =
      durationHead++beBytes 8 (recorded width height codecPrivate codecId frames).durationMs.toBits.toNat ++
        durationTail width height codecPrivate codecId frames := by
  have hoffset : (recorded width height codecPrivate codecId frames).durationValueOffset=durationHead.length := by
    rw [recorded,writeFrames_offset,newForCodec_offset]
  have hlen : (beBytes 8 (recorded width height codecPrivate codecId frames).durationMs.toBits.toNat).length =
      (beBytes 8 (0.0 : Float).toBits.toNat).length := by
    rw [beBytes_length,beBytes_length]
  rw [mux,MkvWriter.finish,recorded_inner,hoffset,overwrite hlen]
  rfl

theorem mux_eq :
    mux width height codecPrivate codecId frames =
      preamble (recorded width height codecPrivate codecId frames).durationMs width height codecPrivate codecId ++
        written (newForCodec Sink.empty width height codecPrivate codecId) frames := by
  rw [mux_split,preamble_split,durationTail]
  simp

end Waymux.Mkv.Layout
