import Mathlib.Data.List.Infix
import Waymux.Mkv.RoundTrip

/-!
# H.264 recordings: the declared and the stored NAL framing

The fifth byte of CodecPrivate says how many bytes of length stand in front of a NAL unit;
`write_frame` stores the Annex-B stream as it is.
-/

namespace Waymux.Mkv.NalFraming
open Framing.LengthPrefix Framing.Integers Mkv.Ebml Mkv.Writer Mkv.Reader Mkv.RoundTrip List

/- The loop of `split_annexb_nalus` that collects where NAL units start;
each round moves `i` on. -/
def startsFrom (data : Bytes) : Nat → Nat → List Nat
  | 0, _ => []
  | fuel+1, i =>
      if i+3<data.length then
        if (data.drop i).take 4=[0,0,0,1] then (i+4)::startsFrom data fuel (i+4)
        else if (data.drop i).take 3=[0,0,1] then (i+3)::startsFrom data fuel (i+3)
        else startsFrom data fuel (i+1)
      else []

/- Where the unit in front of the start `n` ends. -/
def endBefore (data : Bytes) (n : Nat) : Nat :=
  if 4≤n ∧ data[n-4]?=some 0 then n-4 else n-3

def slices (data : Bytes) : List Nat → List Bytes
  | [] => []
  | [start] => [data.drop start]
  | start::n::starts => (data.take (endBefore data n)).drop start::slices data (n::starts)

def splitAnnexbNalus (data : Bytes) : List Bytes := slices data (startsFrom data data.length 0)

def nalUnitType (nal : Bytes) : Option UInt8 := nal.head?.map (· &&& 0x1F)

def parameterSet (nal : Bytes) : Bytes := beBytes 2 nal.length++nal

def buildAvcDecoderConfigRecord (nalus : List Bytes) : Except String Bytes :=
  let spsNals:=nalus.filter fun n => nalUnitType n=some 7
  let ppsNals:=nalus.filter fun n => nalUnitType n=some 8
  match spsNals with
  | [] => .error s!"missing SPS/PPS from driver: sps={spsNals.length} pps={ppsNals.length}"
  | sps::_ =>
      if ppsNals=[] then
        .error s!"missing SPS/PPS from driver: sps={spsNals.length} pps={ppsNals.length}"
      else
        match sps with
        | _::profileByte::_::levelByte::_ =>
            .ok ([1,profileByte,0,levelByte,0xFF,0xE0 ||| (UInt8.ofNat spsNals.length &&& 0x1F)] ++
              spsNals.flatMap parameterSet++[UInt8.ofNat ppsNals.length]++ppsNals.flatMap parameterSet)
        | _ => .error "SPS too short to read level_idc"

inductive LevelIdc
  | l10 | l11 | l12 | l13 | l20 | l21 | l22 | l30 | l31 | l32
  | l40 | l41 | l42 | l50 | l51 | l52 | l60 | l61 | l62 | invalid
  deriving DecidableEq, Repr

def levelByte : LevelIdc → UInt8
  | .l40 => 40
  | .l41 => 41
  | .l42 => 42
  | .l50 => 50
  | .l51 => 51
  | .l52 => 52
  | _ => 41

def buildSyntheticAvcc (profileIdc : Nat) (levelIdc : LevelIdc) : Bytes :=
  [1,UInt8.ofNat profileIdc,0,levelByte levelIdc,0xFF,0xE0,0]

/-- What the driver answers when asked for its parameter sets. -/
inductive DriverAnswer
  | sizeFailed (result : String)
  | dataFailed (result : String)
  | annexb (buf : Bytes)

/- `create_parameters` from the first question to the driver on. -/
def createParameters (hi444 : Bool) (profileIdc : Nat) (levelIdc : LevelIdc) : DriverAnswer → Except String Bytes
  | .sizeFailed result =>
      if hi444 then .ok (buildSyntheticAvcc profileIdc levelIdc)
      else .error s!"vkGetEncodedVideoSessionParametersKHR(size): {result}"
  | .dataFailed result => .error s!"vkGetEncodedVideoSessionParametersKHR(data): {result}"
  | .annexb buf => buildAvcDecoderConfigRecord (splitAnnexbNalus buf)

def lengthSize (codecPrivate : Bytes) : Option Nat := codecPrivate[4]?.map fun b => (b &&& 0x03).toNat+1

theorem lengthSize_record {nalus : List Bytes} {codecPrivate : Bytes}
    (h : buildAvcDecoderConfigRecord nalus=.ok codecPrivate) : lengthSize codecPrivate=some 4 := by
  unfold buildAvcDecoderConfigRecord at h
  simp only at h
  repeat' split at h
  all_goals cases h
  rfl

theorem lengthSize_createParameters {hi444 : Bool} {profileIdc : Nat} {levelIdc : LevelIdc} {answer : DriverAnswer}
    {codecPrivate : Bytes} (h : createParameters hi444 profileIdc levelIdc answer=.ok codecPrivate) :
    lengthSize codecPrivate=some 4 := by
  cases answer with
  | sizeFailed =>
    rw [createParameters] at h
    split at h
    · cases h
      rfl
    · cases h
  | dataFailed => cases h
  | annexb => exact lengthSize_record h

/-- The payload is exactly these units, each behind its length in `k` bytes. -/
def LengthPrefixed (k : Nat) : Bytes → List Bytes → Prop
  | payload, [] => payload=[]
  | payload, n::ns =>
      ∃ rest,payload=beBytes k n.length++n++rest ∧ n.length<256^k ∧ LengthPrefixed k rest ns

def SelfConsistent (movie : Movie) (outputs : List (List Bytes)) : Prop :=
  ∃ k,lengthSize movie.track.codecPrivate=some k ∧
    List.Forall₂ (fun block nals => LengthPrefixed k block.payload nals) movie.blocks outputs

/-- A NAL unit with emulation prevention: no start code and nothing like one
inside, and no zero byte at its end. -/
structure Nal where
  bytes : Bytes
  nonempty : bytes≠[]
  last_ne_zero : bytes.getLast?≠some 0
  no_code : ∀ b∈([0,1,2] : List UInt8),¬[0,0,b] <:+: bytes

/-- A unit behind its start code of `zeros` zero bytes and a one. -/
structure StreamUnit where
  zeros : Nat
  two_le_zeros : 2≤zeros
  nal : Nal

def StreamUnit.bytes (u : StreamUnit) : Bytes := List.replicate u.zeros 0++1::u.nal.bytes

structure AnnexB where
  units : List StreamUnit
  /-- trailing zero bytes -/
  trailing : Nat

def streamBytes (trailing : Nat) (units : List StreamUnit) : Bytes :=
  units.flatMap StreamUnit.bytes++List.replicate trailing 0

def AnnexB.bytes (o : AnnexB) : Bytes := streamBytes o.trailing o.units

def AnnexB.nals (o : AnnexB) : List Bytes := o.units.map fun u => u.nal.bytes

def AnnexB.ReadsAsLengths (o : AnnexB) : Prop :=
  o.trailing=0 ∧ ∀ u∈o.units,u.zeros=3 ∧ u.nal.bytes.length=1

theorem streamBytes_head {trailing : Nat} {units : List StreamUnit} {b : UInt8} {rest : Bytes}
    (h : streamBytes trailing units=b::rest) : b=0 := by
  cases units with
  | nil =>
    cases trailing with
    | zero => cases h
    | succ => exact (cons.inj h).1.symm
  | cons u =>
    obtain ⟨z,hz⟩ : ∃ z,u.zeros=z+1 := ⟨u.zeros-1,by have := u.two_le_zeros; omega⟩
    rw [streamBytes,flatMap_cons,StreamUnit.bytes,hz] at h
    exact (cons.inj h).1.symm

theorem shifted {n a c : Bytes} {b : UInt8} (h : n++a=b::(n++c)) : (∀ x∈n,x=b) ∧ a=b::c := by
  induction n generalizing b with
  | nil => exact ⟨fun x hx => absurd hx not_mem_nil,h⟩
  | cons x n ih =>
    obtain ⟨hx,htail⟩ := cons.inj h
    obtain ⟨hall,ha⟩ := ih htail
    rw [hx] at hall ha
    refine ⟨?_,ha⟩
    intro y hy
    cases mem_cons.mp hy with
    | inl hy => rw [hy,hx]
    | inr hy => exact hall y hy

theorem Nal.not_all_zero (n : Nal) : ¬∀ x∈n.bytes,x=0 := by
  intro hall
  have hlast:=n.last_ne_zero
  rw [getLast?_eq_some_getLast n.nonempty] at hlast
  exact hlast (congrArg some (hall _ (getLast_mem n.nonempty)))

theorem unit_prefix {u : StreamUnit} {stream rest : Bytes} (hhead : ∀ b tl,stream=b::tl → b=0)
    (hlt : u.nal.bytes.length<256^4)
    (h : u.bytes++stream=beBytes 4 u.nal.bytes.length++u.nal.bytes++rest) :
    u.zeros=3 ∧ u.nal.bytes.length=1 ∧ stream=rest := by
  have hlen:=ofBe_beBytes_of_lt hlt
  have hne : u.nal.bytes.length≠0 := fun h0 => u.nal.nonempty (length_eq_zero_iff.mp h0)
  rw [beBytes,beBytes,beBytes,beBytes,beBytes] at h hlen
  obtain ⟨z,hz⟩ : ∃ z,u.zeros=z+2 := ⟨u.zeros-2,by have := u.two_le_zeros; omega⟩
  rw [StreamUnit.bytes,hz,replicate_succ,replicate_succ] at h
  simp only [cons_append,nil_append,cons.injEq] at h
  obtain ⟨h3,h2,h⟩ := h
  obtain _ | _ | z := z
  case zero =>
    -- three bytes of start code: the unit would be itself moved by one byte
    obtain ⟨-,h⟩ := cons.inj h
    obtain ⟨hall,hstream⟩ := shifted h
    rw [hhead _ _ hstream] at hall
    exact absurd hall u.nal.not_all_zero
  case succ.zero =>
    obtain ⟨h1,h⟩ := cons.inj h
    obtain ⟨h0,h⟩ := cons.inj h
    rw [← h3,← h2,← h1,← h0] at hlen
    exact ⟨hz,hlen.symm,append_cancel_left h⟩
  case succ.succ =>
    -- longer start codes begin with the length zero
    obtain ⟨h1,h⟩ := cons.inj h
    obtain ⟨h0,h⟩ := cons.inj h
    rw [← h3,← h2,← h1,← h0] at hlen
    exact absurd hlen.symm hne

theorem streamBytes_cons (trailing : Nat) (u : StreamUnit) (us : List StreamUnit) :
    streamBytes trailing (u::us)=u.bytes++streamBytes trailing us := by
  rw [streamBytes,streamBytes,flatMap_cons,append_assoc]

theorem prefixed_stream_iff (trailing : Nat) (units : List StreamUnit) :
    LengthPrefixed 4 (streamBytes trailing units) (units.map fun u => u.nal.bytes) ↔
      trailing=0 ∧ ∀ u∈units,u.zeros=3 ∧ u.nal.bytes.length=1 := by
  induction units with
  | nil =>
    rw [map_nil,LengthPrefixed,streamBytes,flatMap_nil,nil_append,replicate_eq_nil_iff]
    exact ⟨fun h => ⟨h,fun u hu => absurd hu not_mem_nil⟩,fun h => h.1⟩
  | cons u us ih =>
    rw [map_cons,LengthPrefixed,streamBytes_cons,forall_mem_cons]
    constructor
    · intro h
      obtain ⟨rest,hbytes,hlt,hrest⟩ := h
      obtain ⟨hz,hone,heq⟩ := unit_prefix (fun b tl hs => streamBytes_head hs) hlt hbytes
      rw [← heq] at hrest
      obtain ⟨ht,hall⟩ := ih.mp hrest
      exact ⟨ht,⟨hz,hone⟩,hall⟩
    · intro h
      obtain ⟨ht,⟨hz,hone⟩,hall⟩ := h
      refine ⟨streamBytes trailing us,?_,?_,ih.mpr ⟨ht,hall⟩⟩
      · have hcode : beBytes 4 1=[0,0,0,1] := by decide
        rw [StreamUnit.bytes,hz,hone,hcode]
        rfl
      · rw [hone]
        decide

structure Output where
  stream : AnnexB
  ptsMs : Int64
  isKeyframe : Bool

def Output.frame (o : Output) : Frame := ⟨o.stream.bytes,o.ptsMs,o.isKeyframe⟩

def h264File (width height : UInt32) (codecPrivate : Bytes) (outputs : List Output) : Bytes :=
  ((outputs.map Output.frame).foldl MkvWriter.writeFrame (new Sink.empty width height codecPrivate)).finish.data

def SizesFit (width height : UInt32) (codecPrivate : Bytes) (outputs : List Output) : Prop :=
  Representable width height codecPrivate "V_MPEG4/ISO/AVC" (outputs.map Output.frame)

theorem forall₂_stored {P : Bytes → List Bytes → Prop} (m : MkvWriter) (outputs : List Output) :
    List.Forall₂ (fun block nals => P block.payload nals) (storedBlocks m (outputs.map Output.frame))
        (outputs.map fun o => o.stream.nals) ↔
      ∀ o∈outputs,P o.stream.bytes o.stream.nals := by
  induction outputs generalizing m with
  | nil => exact ⟨fun _ o ho => absurd ho not_mem_nil,fun _ => .nil⟩
  | cons o os ih =>
    rw [map_cons,map_cons,storedBlocks,forall₂_cons,ih,forall_mem_cons]
    rfl

theorem selfConsistent_iff {width height : UInt32} {codecPrivate : Bytes} {outputs : List Output}
    (hsize : lengthSize codecPrivate=some 4) (hfit : SizesFit width height codecPrivate outputs) :
    (∃ movie,Reader.read (h264File width height codecPrivate outputs)=some movie ∧
      SelfConsistent movie (outputs.map fun o => o.stream.nals)) ↔ ∀ o∈outputs,o.stream.ReadsAsLengths := by
  have hread:=read_mux width height codecPrivate "V_MPEG4/ISO/AVC" hfit
  have hblocks:=@forall₂_stored (LengthPrefixed 4)
    (newForCodec Sink.empty width height codecPrivate "V_MPEG4/ISO/AVC") outputs
  have hstreams : (∀ o∈outputs,LengthPrefixed 4 o.stream.bytes o.stream.nals) ↔
      ∀ o∈outputs,o.stream.ReadsAsLengths :=
    forall₂_congr fun o _ => prefixed_stream_iff o.stream.trailing o.stream.units
  rw [← hstreams,← hblocks]
  constructor
  · intro h
    obtain ⟨movie,hmovie,k,hk,hall⟩ := h
    rw [show h264File width height codecPrivate outputs =
      mux width height codecPrivate "V_MPEG4/ISO/AVC" (outputs.map Output.frame) from rfl,hread] at hmovie
    cases hmovie
    rw [show lengthSize (trackOf width height codecPrivate "V_MPEG4/ISO/AVC").codecPrivate =
      lengthSize codecPrivate from rfl,hsize] at hk
    cases hk
    exact hall
  · intro h
    exact ⟨_,hread,4,hsize,h⟩

/-- A recording is self-consistent exactly when every start code has four bytes
and every NAL unit is a single byte. -/
theorem h264_self_consistent_iff (hi444 : Bool) (profileIdc : Nat) (levelIdc : LevelIdc) (answer : DriverAnswer)
    (codecPrivate : Bytes) (hcp : createParameters hi444 profileIdc levelIdc answer=.ok codecPrivate)
    (width height : UInt32) (outputs : List Output) (hfit : SizesFit width height codecPrivate outputs) :
    (∃ movie,Reader.read (h264File width height codecPrivate outputs)=some movie ∧
      SelfConsistent movie (outputs.map fun o => o.stream.nals)) ↔ ∀ o∈outputs,o.stream.ReadsAsLengths :=
  selfConsistent_iff (lengthSize_createParameters hcp) hfit

theorem no_code_of_nonzero {bytes : Bytes} (h : 0∉bytes) : ∀ b∈([0,1,2] : List UInt8),¬[0,0,b] <:+: bytes := by
  intro b _ hin
  exact h (List.IsInfix.subset hin mem_cons_self)

/-- An end-of-stream unit, the one kind of a single byte that occurs. -/
def endOfStream : Output :=
  ⟨⟨[⟨3,by decide,[0x0B],by decide,by decide,no_code_of_nonzero (by decide)⟩],0⟩,0,true⟩

def idrSlice : Output :=
  ⟨⟨[⟨3,by decide,[0x65,0x88,0x84],by decide,by decide,no_code_of_nonzero (by decide)⟩],0⟩,0,true⟩

theorem sizesFit_one {o : Output} (h : o.stream.bytes.length<100) :
    SizesFit 640 480 (buildSyntheticAvcc 244 .l52) [o] := by
  have htracks:=tracksBody_length_le 640 480 (buildSyntheticAvcc 244 .l52) "V_MPEG4/ISO/AVC"
  refine ⟨htracks.trans_lt (by decide),?_⟩
  intro f hf
  rw [map_singleton,mem_singleton] at hf
  rw [hf,sizeLimit]
  exact Nat.lt_trans (Nat.add_lt_add_left h 4) (by decide)

theorem h264_self_consistent_end_of_stream :
    ∃ movie,Reader.read (h264File 640 480 (buildSyntheticAvcc 244 .l52) [endOfStream])=some movie ∧
      SelfConsistent movie [[[0x0B]]] := by
  have hunits : ∀ o∈[endOfStream],o.stream.ReadsAsLengths := by
    intro o ho
    rw [mem_singleton.mp ho]
    exact ⟨rfl,by decide⟩
  exact (h264_self_consistent_iff true 244 .l52 (.sizeFailed "ERROR_OUT_OF_HOST_MEMORY") _ rfl 640 480
    [endOfStream] (sizesFit_one (by decide))).mpr hunits

/-- The slice's block is read, but not as a unit of three bytes. -/
theorem h264_idr_not_self_consistent :
    createParameters true 244 .l52 (.sizeFailed "ERROR_OUT_OF_HOST_MEMORY") =
        .ok (buildSyntheticAvcc 244 .l52) ∧
      SizesFit 640 480 (buildSyntheticAvcc 244 .l52) [idrSlice] ∧
      ¬∃ movie,Reader.read (h264File 640 480 (buildSyntheticAvcc 244 .l52) [idrSlice])=some movie ∧
        SelfConsistent movie [[[0x65,0x88,0x84]]] := by
  have hfit : SizesFit 640 480 (buildSyntheticAvcc 244 .l52) [idrSlice] := sizesFit_one (by decide)
  refine ⟨rfl,hfit,?_⟩
  intro h
  have hall:=(selfConsistent_iff rfl hfit).mp h
  have hone:=(hall idrSlice (mem_singleton_self _)).2 _ (mem_singleton_self _)
  exact absurd hone.2 (by decide)

end Waymux.Mkv.NalFraming
