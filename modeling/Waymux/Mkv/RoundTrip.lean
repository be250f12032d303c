import Waymux.Mkv.Layout
import Waymux.Mkv.Reader

/-!
# What the muxer writes is read back

The preamble gives the header, the Duration and the track; every frame gives one block, after a
Cluster when the writer opened one.
-/

namespace Waymux.Mkv.RoundTrip
open Framing.LengthPrefix Framing.Integers Framing.Ebml Mkv.Ebml Mkv.Writer Mkv.Layout Mkv.Reader List Option

theorem readString_utf8 (s : String) : readString (utf8 s)=some s := fromUTF8_utf8 s

theorem acceptsHeader_ebmlBody : acceptsHeader ebmlBody=true := by
  have hfields : fields ebmlBody=some [.element 0x4286 (uintBody 1),.element 0x42F7 (uintBody 1),
      .element 0x42F2 (uintBody 4),.element 0x42F3 (uintBody 8),.element 0x4282 (utf8 "matroska"),
      .element 0x4287 (uintBody 4),.element 0x4285 (uintBody 2)] := by
    have hlast : writeElementU64 idDocTypeReadVersion 2=writeElementU64 idDocTypeReadVersion 2++[] := by
      rw [append_nil]
    have hname : (utf8 "matroska").length<sizeLimit := by decide
    rw [fields,ebmlBody,hlast,tokens_u64 (by decide) (by decide),tokens_u64 (by decide) (by decide),
      tokens_u64 (by decide) (by decide),tokens_u64 (by decide) (by decide),writeElementStr,
      tokens_bytes (by decide) hname,tokens_u64 (by decide) (by decide),tokens_u64 (by decide) (by decide),
      tokens_nil]
    rfl
  simp [acceptsHeader,hfields,field,readUint,readString_utf8,ofBe_uintBody]

theorem readDuration_infoBody (duration : Float) :
    readDuration (infoBody duration)=some (some duration.toBits.toNat) := by
  have hfields : fields (infoBody duration)=some [.element 0x2AD7B1 (uintBody 1000000),
      .element 0x4D80 (utf8 "waymux-mux-mkv"),.element 0x5741 (utf8 "waymux-mux-mkv"),
      .element 0x4489 (beBytes 8 duration.toBits.toNat)] := by
    have hname : (utf8 "waymux-mux-mkv").length<sizeLimit := by decide
    rw [fields,infoBody,infoHead,append_assoc,append_assoc,
      ← append_nil (writeElementF64 idDuration duration),tokens_u64 (by decide) (by decide),
      writeElementStr,writeElementStr,tokens_bytes (by decide) hname,tokens_bytes (by decide) hname,
      tokens_f64 (by decide),tokens_nil]
    rfl
  have hbits : ofBe (beBytes 8 duration.toBits.toNat)=duration.toBits.toNat :=
    ofBe_beBytes_of_lt duration.toBits.toNat_lt
  simp [readDuration,hfields,field,hbits]

def trackOf (width height : UInt32) (codecPrivate : Bytes) (codecId : String) : Track :=
  ⟨trackNumber,codecId,codecPrivate,width.toNat,height.toNat⟩

theorem readVideo_videoBody (width height : UInt32) :
    readVideo (videoBody width height)=some (width.toNat,height.toNat) := by
  have hw : width.toNat<2^64 := by have := width.toNat_lt; omega
  have hh : height.toNat<2^64 := by have := height.toNat_lt; omega
  have hfields : fields (videoBody width height) =
      some [.element 0xB0 (uintBody width.toNat),.element 0xBA (uintBody height.toNat)] := by
    rw [fields,videoBody,← append_nil (writeElementU64 idPixelHeight height.toNat),
      tokens_u64 (by decide) hw,tokens_u64 (by decide) hh,tokens_nil]
    rfl
  simp [readVideo,hfields,field,ofBe_uintBody hw,ofBe_uintBody hh]

theorem readTracks_tracksBody {width height : UInt32} {codecPrivate : Bytes} {codecId : String}
    (hfit : (tracksBody width height codecPrivate codecId).length<sizeLimit) :
    readTracks (tracksBody width height codecPrivate codecId) =
      some (trackOf width height codecPrivate codecId) := by
  -- every body inside is shorter than the one around it
  have hentry:=(writeElementBytes_length idTrackEntry (trackBody width height codecPrivate codecId)).1
  have hcodec:=(writeElementBytes_length idCodecId (utf8 codecId)).1
  have hprivate:=(writeElementBytes_length idCodecPrivate codecPrivate).1
  have hvideo:=(writeElementBytes_length idVideo (videoBody width height)).1
  have hparts : (trackBody width height codecPrivate codecId).length ≥
      (writeElementBytes idCodecId (utf8 codecId)).length+(writeElementBytes idCodecPrivate codecPrivate).length +
        (writeElementBytes idVideo (videoBody width height)).length := by
    simp only [trackBody,writeElementStr,length_append]
    omega
  rw [tracksBody] at hfit
  have hfields : fields (trackBody width height codecPrivate codecId)=some [.element 0xD7 (uintBody 1),
      .element 0x73C5 (uintBody 0xDEADBEEF),.element 0x83 (uintBody 1),.element 0x9C (uintBody 0),
      .element 0x86 (utf8 codecId),.element 0x63A2 codecPrivate,.element 0xE0 (videoBody width height)] := by
    rw [fields,trackBody,← append_nil (writeElementBytes idVideo (videoBody width height)),
      tokens_u64 (by decide) (by decide),tokens_u64 (by decide) (by decide),tokens_u64 (by decide) (by decide),
      tokens_u64 (by decide) (by decide),writeElementStr,tokens_bytes (by decide) (by omega),
      tokens_bytes (by decide) (by omega),tokens_bytes (by decide) (by omega),tokens_nil]
    rfl
  have hentries : fields (tracksBody width height codecPrivate codecId) =
      some [.element 0xAE (trackBody width height codecPrivate codecId)] := by
    rw [fields,tracksBody,← append_nil (writeElementBytes idTrackEntry (trackBody width height codecPrivate codecId)),
      tokens_bytes (by decide) (by omega),tokens_nil]
    rfl
  simp [readTracks,hentries,field,readTrackEntry,hfields,readString_utf8,readVideo_videoBody,readUint,
    ofBe_uintBody,trackOf,trackNumber]

theorem signed16_toUInt16 (d : Int16) : signed16 d.toUInt16.toNat=d.toInt := by
  have hbits : d.toInt=d.toBitVec.toInt := rfl
  have hnat : d.toUInt16.toNat=d.toBitVec.toNat := rfl
  rw [signed16,hbits,hnat,BitVec.toInt_eq_toNat_cond]
  split <;> split <;> omega

theorem readBlock_header (timecode : Nat) (d : Int16) (isKeyframe : Bool) (payload : Bytes) :
    readBlock trackNumber timecode (blockHeader trackNumber d isKeyframe++payload) =
      some ⟨payload,timecode+d.toInt,isKeyframe⟩ := by
  have htrack : writeVint trackNumber=beBytes 1 (2^7+1) := by decide
  have hmarked : Marked 1 (2^7+1) := by decide
  have hdelta : ofBe (beBytes 2 d.toUInt16.toNat)=d.toUInt16.toNat :=
    ofBe_beBytes_of_lt d.toUInt16.toNat_lt
  rw [readBlock,blockHeader,htrack,append_assoc,append_assoc,takeVint_beBytes hmarked]
  rw [beBytes,beBytes,beBytes] at hdelta ⊢
  simp only [cons_append,nil_append,hdelta,signed16_toUInt16]
  cases isKeyframe <;> rfl

theorem blockHeader_length (d : Int16) (isKeyframe : Bool) : (blockHeader trackNumber d isKeyframe).length=4 := by
  rfl

def clusterTokens (timecodeMs : Int64) : List Token :=
  [.opened idCluster,.element idTimecode (uintBody timecodeMs.toInt.toNat)]

def frameTokens (m : MkvWriter) (f : Frame) : List Token :=
  (if m.needNewCluster f then clusterTokens f.ptsMs else [])++[.element idSimpleBlock (blockBody m f)]

def writtenTokens (m : MkvWriter) : List Frame → List Token
  | [] => []
  | f::fs => frameTokens m f++writtenTokens (m.writeFrame f) fs

theorem toNat_lt (t : Int64) : t.toInt.toNat<2^64 := by
  have := t.toInt_lt
  omega

theorem tokens_clusterStart (t : Int64) (rest : Bytes) :
    tokens opens (clusterStart t++rest)=(tokens opens rest).map (clusterTokens t++·) := by
  rw [clusterStart,append_assoc,tokens_open (by decide) (by decide),tokens_u64 (by decide) (toNat_lt t),
    Option.map_map]
  rfl

theorem tokens_frameBytes (m : MkvWriter) (f : Frame) (rest : Bytes) (hfit : 4+f.nalData.length<sizeLimit) :
    tokens opens (frameBytes m f++rest)=(tokens opens rest).map (frameTokens m f++·) := by
  have hbody : (blockBody m f).length<sizeLimit := by
    rw [blockBody,length_append,blockHeader_length]
    exact hfit
  rw [frameBytes,frameTokens,append_assoc]
  split
  · rw [tokens_clusterStart,tokens_bytes (by decide) hbody,Option.map_map]
    rfl
  · rw [nil_append,tokens_bytes (by decide) hbody]
    rfl

theorem tokens_written (m : MkvWriter) (fs : List Frame) (hfit : ∀ f∈fs,4+f.nalData.length<sizeLimit) :
    tokens opens (written m fs)=some (writtenTokens m fs) := by
  induction fs generalizing m with
  | nil => exact tokens_nil
  | cons f fs ih =>
    have hf:=hfit f mem_cons_self
    have hrest:=ih (m.writeFrame f) fun g hg => hfit g (mem_cons_of_mem f hg)
    rw [written,tokens_frameBytes m f _ hf,hrest]
    rfl

def storedBlock (m : MkvWriter) (f : Frame) : Block :=
  ⟨f.nalData,(baseFor m f).toInt.toNat+(f.ptsMs-baseFor m f).toInt16.toInt,f.isKeyframe⟩

def storedBlocks (m : MkvWriter) : List Frame → List Block
  | [] => []
  | f::fs => storedBlock m f::storedBlocks (m.writeFrame f) fs

structure Follows (s : Scanner) (m : MkvWriter) : Prop where
  track : ∃ t,s.track=some t ∧ t.number=trackNumber
  cluster : m.clusterOpen=true → s.cluster=some (some m.clusterBaseMs.toInt.toNat)

theorem scan_cluster (s : Scanner) (t : Int64) :
    (clusterTokens t).foldlM Scanner.token s=some {s with cluster := some (some t.toInt.toNat)} := by
  have htime : ofBe (uintBody t.toInt.toNat)=t.toInt.toNat := ofBe_uintBody (toNat_lt t)
  rw [← htime]
  rfl

variable {s : Scanner} {m : MkvWriter}

theorem scan_block {f : Frame} {t : Track} (ht : s.track=some t) (hnum : t.number=trackNumber)
    (hc : s.cluster=some (some (baseFor m f).toInt.toNat)) :
    s.token (.element idSimpleBlock (blockBody m f))=some {s with blocks := s.blocks++[storedBlock m f]} := by
  have hblock:=readBlock_header (baseFor m f).toInt.toNat (f.ptsMs-baseFor m f).toInt16 f.isKeyframe f.nalData
  rw [Scanner.token,if_neg (by decide),hc]
  simp only
  rw [Scanner.inCluster,if_neg (by decide),if_pos (by decide),ht]
  simp only [bind_eq_bind,bind_some]
  rw [hnum,blockBody,hblock,hc]
  rfl

theorem scan_frame (h : Follows s m) (f : Frame) :
    (frameTokens m f).foldlM Scanner.token s =
      some {s with
        cluster := some (some (baseFor m f).toInt.toNat)
        blocks := s.blocks++[storedBlock m f]} := by
  obtain ⟨t,ht,hnum⟩ := h.track
  rw [frameTokens,foldlM_append]
  cases hn : m.needNewCluster f with
  | true =>
    have hbase : baseFor m f=f.ptsMs := by rw [baseFor,hn,if_pos rfl]
    have hblock:=@scan_block {s with cluster := some (some f.ptsMs.toInt.toNat)} m f t ht hnum (by rw [hbase])
    rw [if_pos rfl,scan_cluster,hbase]
    simp only [bind_eq_bind,bind_some,foldlM_cons,hblock]
    rfl
  | false =>
    have hbase : baseFor m f=m.clusterBaseMs := by rw [baseFor,hn,if_neg (by decide)]
    have hopen : m.clusterOpen=true := by
      rw [MkvWriter.needNewCluster] at hn
      simp only [Bool.or_eq_false_iff,Bool.not_eq_false'] at hn
      exact hn.1.1
    have hc : s.cluster=some (some (baseFor m f).toInt.toNat) := by rw [hbase,h.cluster hopen]
    rw [if_neg (by decide),← hc]
    simp [scan_block ht hnum hc]

theorem scan_written (h : Follows s m) (fs : List Frame) :
    ∃ cluster,(writtenTokens m fs).foldlM Scanner.token s =
      some {s with cluster := cluster, blocks := s.blocks++storedBlocks m fs} := by
  induction fs generalizing s m with
  | nil => exact ⟨s.cluster,by rw [storedBlocks,append_nil]; rfl⟩
  | cons f fs ih =>
    have hnext : Follows {s with
        cluster := some (some (baseFor m f).toInt.toNat)
        blocks := s.blocks++[storedBlock m f]} (m.writeFrame f) :=
      ⟨h.track,fun _ => by rw [writeFrame_base]⟩
    obtain ⟨cluster,hrest⟩ := ih hnext
    refine ⟨cluster,?_⟩
    rw [writtenTokens,foldlM_append,scan_frame h f,storedBlocks]
    rw [append_assoc] at hrest
    exact hrest

theorem sub_toInt {a b : Int64} (ha : 0≤a.toInt) (hb : 0≤b.toInt) : (a-b).toInt=a.toInt-b.toInt := by
  have := a.toInt_lt
  have := b.toInt_lt
  rw [Int64.toInt_sub]
  exact Int.bmod_eq_of_le (by omega) (by omega)

theorem storedBlock_time {f : Frame} (hpos : 0≤f.ptsMs.toInt)
    (hbase : m.clusterOpen=true → 0 ≤ m.clusterBaseMs.toInt ∧ m.clusterBaseMs.toInt≤f.ptsMs.toInt) :
    (storedBlock m f).timecode=f.ptsMs.toInt := by
  cases hn : m.needNewCluster f with
  | true =>
    have hown : baseFor m f=f.ptsMs := by rw [baseFor,hn,if_pos rfl]
    have hzero : (f.ptsMs-f.ptsMs).toInt=0 := by
      rw [sub_toInt hpos hpos]
      omega
    rw [storedBlock,hown]
    rw [Int64.toInt_toInt16,hzero,Int.toNat_of_nonneg hpos]
    exact Int.add_zero _
  | false =>
    have hown : baseFor m f=m.clusterBaseMs := by rw [baseFor,hn,if_neg (by decide)]
    rw [MkvWriter.needNewCluster] at hn
    simp only [Bool.or_eq_false_iff,Bool.not_eq_false',decide_eq_false_iff_not] at hn
    obtain ⟨hb,hle⟩ := hbase hn.1.1
    have hsub:=sub_toInt hpos hb
    have hnear : (f.ptsMs-m.clusterBaseMs).toInt≤1000 := by
      have hlt:=hn.1.2
      rw [Int64.lt_iff_toInt_lt] at hlt
      have hmax : clusterDurationMs.toInt=1000 := by decide
      omega
    have hdelta : (f.ptsMs-m.clusterBaseMs).toInt16.toInt=f.ptsMs.toInt-m.clusterBaseMs.toInt := by
      rw [Int64.toInt_toInt16,Int.bmod_eq_of_le (by omega) (by omega),hsub]
    rw [storedBlock,hown]
    simp only
    omega

def blockOf (f : Frame) : Block := ⟨f.nalData,f.ptsMs.toInt,f.isKeyframe⟩

theorem storedBlocks_eq {fs : List Frame} (hpos : ∀ f∈fs,0≤f.ptsMs)
    (hmono : fs.Pairwise fun f g => f.ptsMs≤g.ptsMs)
    (hbase : m.clusterOpen=true → 0 ≤ m.clusterBaseMs.toInt ∧ ∀ f∈fs,m.clusterBaseMs.toInt≤f.ptsMs.toInt) :
    storedBlocks m fs=fs.map blockOf := by
  induction fs generalizing m with
  | nil => rfl
  | cons f fs ih =>
    rw [pairwise_cons] at hmono
    have hf : 0≤f.ptsMs.toInt := by
      have := Int64.le_iff_toInt_le.mp (hpos f mem_cons_self)
      simpa using this
    have htime:=@storedBlock_time m f hf fun ho => ⟨(hbase ho).1,(hbase ho).2 f mem_cons_self⟩
    have hrest : storedBlocks (m.writeFrame f) fs=fs.map blockOf := by
      apply ih (fun g hg => hpos g (mem_cons_of_mem f hg)) hmono.2
      intro _
      rw [writeFrame_base]
      have hlater : ∀ g∈fs,f.ptsMs.toInt≤g.ptsMs.toInt := fun g hg =>
        Int64.le_iff_toInt_le.mp (hmono.1 g hg)
      -- the cluster started at this frame or at an earlier one
      cases hn : m.needNewCluster f with
      | true =>
        rw [baseFor,hn,if_pos rfl]
        exact ⟨hf,hlater⟩
      | false =>
        rw [baseFor,hn,if_neg (by decide)]
        rw [MkvWriter.needNewCluster] at hn
        simp only [Bool.or_eq_false_iff,Bool.not_eq_false'] at hn
        obtain ⟨hb,hall⟩ := hbase hn.1.1
        exact ⟨hb,fun g hg => hall g (mem_cons_of_mem f hg)⟩
    rw [storedBlocks,map_cons,hrest]
    rw [storedBlock,blockOf,← htime]
    rfl

def Representable (width height : UInt32) (codecPrivate : Bytes) (codecId : String) (frames : List Frame) : Prop :=
  (tracksBody width height codecPrivate codecId).length<sizeLimit ∧
    ∀ f∈frames,4+f.nalData.length<sizeLimit

section File
variable (width height : UInt32) (codecPrivate : Bytes) (codecId : String)

theorem tokens_preamble (duration : Float) (rest : Bytes)
    (hfit : (tracksBody width height codecPrivate codecId).length<sizeLimit) :
    tokens opens (preamble duration width height codecPrivate codecId++rest) =
      (tokens opens rest).map ([.element idEbml ebmlBody,.opened idSegment,.element idInfo (infoBody duration),
        .element idTracks (tracksBody width height codecPrivate codecId)]++·) := by
  have hu64:=writeElementU64_length_le
  have hmatroska : (utf8 "matroska").length=8 := by decide
  have hwaymux : (utf8 "waymux-mux-mkv").length=14 := by decide
  have hheader : ebmlBody.length<sizeLimit := by
    have hname:=(writeElementBytes_length idDocType (utf8 "matroska")).2
    have h1:=hu64 idEbmlVersion 1
    have h2:=hu64 idEbmlReadVersion 1
    have h3:=hu64 idEbmlMaxIdLength 4
    have h4:=hu64 idEbmlMaxSizeLength 8
    have h5:=hu64 idDocTypeVersion 4
    have h6:=hu64 idDocTypeReadVersion 2
    simp only [ebmlBody,writeElementStr,length_append,sizeLimit]
    omega
  have hinfo : (infoBody duration).length<sizeLimit := by
    have h1:=hu64 idTimecodeScale timecodeScaleNs
    have h2:=(writeElementBytes_length idMuxingApp (utf8 "waymux-mux-mkv")).2
    have h3:=(writeElementBytes_length idWritingApp (utf8 "waymux-mux-mkv")).2
    simp only [infoBody_length,infoHead,writeElementStr,length_append,sizeLimit]
    omega
  rw [preamble,append_assoc,append_assoc,append_assoc,tokens_bytes (by decide) hheader,
    segmentStart,tokens_open (by decide) (by decide),tokens_bytes (by decide) hinfo,
    tokens_bytes (by decide) hfit]
  simp only [Option.map_map]
  rfl

theorem read_preamble {duration : Float} {rest : Bytes} {ts : List Token}
    (hfit : (tracksBody width height codecPrivate codecId).length<sizeLimit) (hts : tokens opens rest=some ts) :
    Reader.read (preamble duration width height codecPrivate codecId++rest) =
      (ts.foldlM Scanner.token ⟨some (trackOf width height codecPrivate codecId),some duration.toBits.toNat,none,
        []⟩).bind
        fun s => s.track.bind fun track => some ⟨track,s.duration,s.blocks⟩ := by
  rw [Reader.read,tokens_preamble width height codecPrivate codecId duration rest hfit,hts]
  simp [acceptsHeader_ebmlBody,readSegment,Scanner.token,Scanner.start,idEbml,idSegment,idInfo,idTracks,
    readDuration_infoBody,readTracks_tracksBody hfit]

theorem read_mux {frames : List Frame} (hfit : Representable width height codecPrivate codecId frames) :
    Reader.read (mux width height codecPrivate codecId frames) =
      some ⟨trackOf width height codecPrivate codecId,
        some (recorded width height codecPrivate codecId frames).durationMs.toBits.toNat,
        storedBlocks (newForCodec Sink.empty width height codecPrivate codecId) frames⟩ := by
  have hstart : Follows ⟨some (trackOf width height codecPrivate codecId),
      some (recorded width height codecPrivate codecId frames).durationMs.toBits.toNat,none,[]⟩
      (newForCodec Sink.empty width height codecPrivate codecId) :=
    ⟨⟨_,rfl,rfl⟩,fun h => by cases h⟩
  obtain ⟨cluster,hscan⟩ := scan_written hstart frames
  rw [mux_eq,read_preamble width height codecPrivate codecId hfit.1 (tokens_written _ frames hfit.2),hscan]
  rfl

theorem tracksBody_length_le :
    (tracksBody width height codecPrivate codecId).length≤codecPrivate.length+(utf8 codecId).length+168 := by
  have hu64:=writeElementU64_length_le
  have hentry:=(writeElementBytes_length idTrackEntry (trackBody width height codecPrivate codecId)).2
  have hcodec:=(writeElementBytes_length idCodecId (utf8 codecId)).2
  have hprivate:=(writeElementBytes_length idCodecPrivate codecPrivate).2
  have hvideo:=(writeElementBytes_length idVideo (videoBody width height)).2
  have hbody : (trackBody width height codecPrivate codecId).length ≤
      codecPrivate.length+(utf8 codecId).length+156 := by
    have h1:=hu64 idTrackNumber trackNumber
    have h2:=hu64 idTrackUid 0xDEADBEEF
    have h3:=hu64 idTrackType trackTypeVideo
    have h4:=hu64 idFlagLacing 0
    have h5:=hu64 idPixelWidth width.toNat
    have h6:=hu64 idPixelHeight height.toNat
    have hpixels : (videoBody width height).length≤40 := by
      rw [videoBody,length_append]
      omega
    simp only [trackBody,writeElementStr,length_append]
    omega
  rw [tracksBody]
  omega

end File

/-- The file is accepted and gives back what was written, and `finish` changed
nothing but the Duration value. -/
theorem mux_round_trip (width height : UInt32) (codecPrivate : Bytes) (codecId : String) (frames : List Frame)
    (hfit : Representable width height codecPrivate codecId frames) (hpos : ∀ f∈frames,0≤f.ptsMs)
    (hmono : frames.Pairwise fun f g => f.ptsMs≤g.ptsMs) :
    (∃ movie,Reader.read (mux width height codecPrivate codecId frames)=some movie ∧
      movie.track=⟨trackNumber,codecId,codecPrivate,width.toNat,height.toNat⟩ ∧
      movie.blocks=frames.map fun f => ⟨f.nalData,f.ptsMs.toInt,f.isKeyframe⟩) ∧
    ∃ head old new tail,old.length=8 ∧ new.length=8 ∧
      (recorded width height codecPrivate codecId frames).inner.data =
        head++(writeElementId idDuration++writeElementSize 8++old)++tail ∧
      mux width height codecPrivate codecId frames =
        head++(writeElementId idDuration++writeElementSize 8++new)++tail := by
  constructor
  · refine ⟨_,read_mux width height codecPrivate codecId hfit,rfl,?_⟩
    exact storedBlocks_eq hpos hmono fun h => by cases h
  · refine ⟨writeElementBytes idEbml ebmlBody++segmentStart++writeElementId idInfo ++
      writeElementSize (infoBody 0.0).length++infoHead,beBytes 8 (0.0 : Float).toBits.toNat,
      beBytes 8 (recorded width height codecPrivate codecId frames).durationMs.toBits.toNat,
      durationTail width height codecPrivate codecId frames,beBytes_length _ _,beBytes_length _ _,?_,?_⟩
    · rw [recorded_inner,durationHead]
      simp [atEnd]
    · rw [mux_split,durationHead]
      simp

/-- Two frames, the second one second and a bit later, so in a cluster of its own. -/
theorem mux_round_trip_two_frames :
    ∃ movie,Reader.read (mux 640 480 [1,2] "V_AV1" [⟨[9,8],0,true⟩,⟨[7],1200,false⟩])=some movie ∧
      movie.track=⟨1,"V_AV1",[1,2],640,480⟩ ∧ movie.blocks=[⟨[9,8],0,true⟩,⟨[7],1200,false⟩] := by
  have hfit : Representable 640 480 [1,2] "V_AV1" [⟨[9,8],0,true⟩,⟨[7],1200,false⟩] := by
    have htracks:=tracksBody_length_le 640 480 [1,2] "V_AV1"
    exact ⟨htracks.trans_lt (by decide),by decide⟩
  exact (mux_round_trip 640 480 [1,2] "V_AV1" _ hfit (by decide) (by decide)).1

/-- A block of the size that no size field can hold is written as one of unknown size. -/
theorem tokens_block_limit {body : Bytes} (hlen : body.length=sizeLimit) (rest : Bytes) :
    tokens opens (writeElementBytes idSimpleBlock body++rest)=none := by
  have hnext : next opens (writeElementBytes idSimpleBlock body++rest)=none := by
    have hclosed : opens idSimpleBlock=false := by decide
    rw [writeElementBytes,append_assoc,append_assoc,Framing.Ebml.next,readId_writeElementId (by decide),hlen]
    simp only
    rw [readSize_limit]
    simp [hclosed]
  apply tokens_stuck _ hnext
  intro hnil
  have hbody:=(writeElementBytes_length idSimpleBlock body).1
  have hempty:=congrArg List.length hnil
  rw [length_append,length_nil] at hempty
  unfold sizeLimit at hlen
  omega

theorem read_mux_limit {payload : Bytes} (hlen : 4+payload.length=sizeLimit) :
    Reader.read (mux 640 480 [] "V_AV1" [⟨payload,0,true⟩])=none := by
  have htracks : (tracksBody 640 480 [] "V_AV1").length<sizeLimit := by
    have hle:=tracksBody_length_le 640 480 [] "V_AV1"
    exact hle.trans_lt (by decide)
  have hnew : (newForCodec Sink.empty 640 480 [] "V_AV1").needNewCluster ⟨payload,0,true⟩=true := rfl
  have hbody : (blockBody (newForCodec Sink.empty 640 480 [] "V_AV1") ⟨payload,0,true⟩).length=sizeLimit := by
    rw [blockBody,length_append,blockHeader_length]
    exact hlen
  rw [Reader.read,mux_eq,tokens_preamble _ _ _ _ _ _ htracks,written,frameBytes,hnew,if_pos rfl,
    append_assoc,tokens_clusterStart,tokens_block_limit hbody]
  rfl

theorem mux_round_trip_fails_at_limit :
    (∀ f∈([⟨List.replicate (2^56-5) 0,0,true⟩] : List Frame),0≤f.ptsMs) ∧
    ([⟨List.replicate (2^56-5) 0,0,true⟩] : List Frame).Pairwise (fun f g => f.ptsMs≤g.ptsMs) ∧
    Reader.read (mux 640 480 [] "V_AV1" [⟨List.replicate (2^56-5) 0,0,true⟩])=none := by
  refine ⟨?_,pairwise_singleton _ _,?_⟩
  · intro f hf
    rw [mem_singleton] at hf
    rw [hf]
    exact Int64.le_refl 0
  · apply read_mux_limit
    rw [length_replicate,sizeLimit]
    omega

end Waymux.Mkv.RoundTrip
