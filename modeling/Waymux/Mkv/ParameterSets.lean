import Waymux.Mkv.NalFraming

/-! # The parameter sets of a recording (`vulkan_record.rs`) -/

namespace Waymux.Mkv.ParameterSets
open Framing.LengthPrefix Framing.Integers NalFraming Option List

/-- So many units, each behind its length in two bytes, and the bytes after them. -/
def takeUnits : Nat → Bytes → Option (List Bytes × Bytes)
  | 0, bytes => some ([],bytes)
  | n+1, hi::lo::bytes =>
      let len:=ofBe [hi,lo]
      if len≤bytes.length then
        (takeUnits n (bytes.drop len)).map fun (units,rest) => (bytes.take len::units,rest)
      else none
  | _+1, _ => none

structure ConfigRecord where
  profile : UInt8
  compatibility : UInt8
  level : UInt8
  sps : List Bytes
  pps : List Bytes

def readConfigRecord : Bytes → Option ConfigRecord
  | _::profile::compatibility::level::_::n::bytes => do
      let (sps,bytes) ← takeUnits (n &&& 0x1F).toNat bytes
      let k ← bytes.head?
      let (pps,_) ← takeUnits k.toNat bytes.tail
      some ⟨profile,compatibility,level,sps,pps⟩
  | _ => none

def unitsOf (type : UInt8) (nalus : List Bytes) : List Bytes := nalus.filter fun n => nalUnitType n=some type

/-- The sets of the list, the profile and the level of the first SPS, and no compatibility flag. -/
structure ConfigRecord.Of (r : ConfigRecord) (nalus : List Bytes) : Prop where
  sps : r.sps=unitsOf 7 nalus
  pps : r.pps=unitsOf 8 nalus
  header : ∃ first,(unitsOf 7 nalus).head?=some first ∧ first[1]?=some r.profile ∧ first[3]?=some r.level
  compatibility : r.compatibility=0

/-- Counts and lengths fit their fields. -/
structure Fits (nalus : List Bytes) : Prop where
  sps : (unitsOf 7 nalus).length<32 ∧ ∀ u∈unitsOf 7 nalus,u.length<0x10000
  pps : (unitsOf 8 nalus).length<256 ∧ ∀ u∈unitsOf 8 nalus,u.length<0x10000

theorem takeUnits_set (n : Nat) (u bytes : Bytes) : takeUnits (n+1) (parameterSet u++bytes) =
    (takeUnits n ((u++bytes).drop (u.length%0x10000))).map fun (units,rest) =>
      (u.take (u.length%0x10000)::units,rest) := by
  obtain ⟨hi,lo,hlen⟩ : ∃ hi lo,beBytes 2 u.length=[hi,lo] := ⟨_,_,rfl⟩
  have hof : ofBe [hi,lo]=u.length%0x10000 := by rw [← hlen,ofBe_beBytes]; rfl
  have hle:=Nat.mod_le u.length 0x10000
  rw [parameterSet,hlen,append_assoc]
  simp only [cons_append,nil_append,takeUnits,hof]
  rw [if_pos (by rw [length_append]; omega),take_append_of_le_length hle]

theorem takeUnits_length {k : Nat} {bytes rest : Bytes} {units : List Bytes}
    (h : takeUnits k bytes=some (units,rest)) : units.length=k := by
  induction k generalizing bytes units with
  | zero =>
    cases h
    rfl
  | succ k ih =>
    obtain _ | ⟨hi,_ | ⟨lo,bytes⟩⟩ := bytes
    · cases h
    · cases h
    · obtain ⟨-,h⟩ := ite_none_right_eq_some.mp h
      obtain ⟨⟨us,r⟩,hr,he⟩ := map_eq_some_iff.mp h
      cases he
      rw [length_cons,ih hr]

theorem takeUnits_sets {units : List Bytes} (h : ∀ u∈units,u.length<0x10000) (bytes : Bytes) :
    takeUnits units.length (units.flatMap parameterSet++bytes)=some (units,bytes) := by
  induction units with
  | nil => rfl
  | cons u us ih =>
    obtain ⟨hu,hus⟩ := forall_mem_cons.mp h
    rw [flatMap_cons,append_assoc,length_cons,takeUnits_set,Nat.mod_eq_of_lt hu,drop_left,
      ih hus,take_length]
    rfl

theorem sets_of_takeUnits {units : List Bytes} {k : Nat} {bytes rest : Bytes}
    (h : takeUnits k (units.flatMap parameterSet++bytes)=some (units,rest)) :
    ∀ u∈units,u.length<0x10000 := by
  induction units generalizing k with
  | nil => exact fun u hu => absurd hu not_mem_nil
  | cons u us ih =>
    have hk:=takeUnits_length h
    subst hk
    rw [flatMap_cons,append_assoc,length_cons,takeUnits_set] at h
    obtain ⟨⟨us',r⟩,hr,he⟩ := map_eq_some_iff.mp h
    obtain ⟨⟨htake,rfl⟩,rfl⟩ : (u.take (u.length%0x10000)=u ∧ us'=us) ∧ r=rest := by simpa using he
    have hlen:=congrArg length htake
    rw [length_take] at hlen
    have hmod : u.length%0x10000=u.length := by omega
    rw [hmod,drop_left] at hr
    exact forall_mem_cons.mpr ⟨by omega,ih hr⟩

theorem spsCount (n : Nat) : ((0xE0 ||| (UInt8.ofNat n &&& 0x1F)) &&& 0x1F : UInt8).toNat=n%32 := by
  have hlow : ∀ m,m &&& 0x1F=m%32 := fun m => Nat.and_two_pow_sub_one_eq_mod m 5
  simp only [UInt8.toNat_and,UInt8.toNat_or,UInt8.toNat_ofNat',UInt8.reduceToNat,hlow]
  rw [Nat.or_mod_two_pow (n := 5)]
  simp

theorem build_ok {nalus : List Bytes} {bytes : Bytes} (h : buildAvcDecoderConfigRecord nalus=.ok bytes) :
    ∃ first profile level,(unitsOf 7 nalus).head?=some first ∧ first[1]?=some profile ∧ first[3]?=some level ∧
      bytes=1::profile::0::level::0xFF::(0xE0 ||| (UInt8.ofNat (unitsOf 7 nalus).length &&& 0x1F)) ::
        ((unitsOf 7 nalus).flatMap parameterSet++UInt8.ofNat (unitsOf 8 nalus).length ::
          (unitsOf 8 nalus).flatMap parameterSet) := by
  unfold buildAvcDecoderConfigRecord at h
  simp only at h
  split at h
  · cases h
  · rename_i sps rest hsps
    split at h
    · cases h
    · split at h
      · cases h
        have hsps : unitsOf 7 nalus=_ := hsps
        exact ⟨_,_,_,by rw [hsps]; rfl,rfl,rfl,by simp [unitsOf]⟩
      · cases h

/-- The record reads back as the units just when they fit its fields. -/
theorem config_record_iff {nalus : List Bytes} {bytes : Bytes} (h : buildAvcDecoderConfigRecord nalus=.ok bytes) :
    (∃ r,readConfigRecord bytes=some r ∧ r.Of nalus) ↔ Fits nalus := by
  obtain ⟨first,profile,level,hfirst,hprofile,hlevel,rfl⟩ := build_ok h
  constructor
  · rintro ⟨r,hr,hof⟩
    obtain ⟨⟨sps,rest⟩,hsps,hr⟩ := bind_eq_some_iff.mp hr
    obtain ⟨k,hk,hr⟩ := bind_eq_some_iff.mp hr
    obtain ⟨⟨pps,rest'⟩,hpps,hr⟩ := bind_eq_some_iff.mp hr
    cases hr
    obtain ⟨rfl,rfl,-,-⟩ := hof
    have hn:=takeUnits_length hsps
    have hslen:=sets_of_takeUnits hsps
    rw [← hn,takeUnits_sets hslen] at hsps
    cases hsps
    cases hk
    have hm:=takeUnits_length hpps
    rw [spsCount] at hn
    rw [UInt8.toNat_ofNat'] at hm
    rw [← append_nil (flatMap _ _)] at hpps
    exact ⟨⟨by omega,hslen⟩,by omega,sets_of_takeUnits hpps⟩
  · intro hf
    refine ⟨⟨profile,0,level,unitsOf 7 nalus,unitsOf 8 nalus⟩,?_,rfl,rfl,⟨first,hfirst,hprofile,hlevel⟩,rfl⟩
    have hpps:=takeUnits_sets hf.pps.2 []
    rw [append_nil] at hpps
    have hk : (UInt8.ofNat (unitsOf 8 nalus).length).toNat=(unitsOf 8 nalus).length :=
      UInt8.toNat_ofNat_of_lt' hf.pps.1
    simp only [readConfigRecord,spsCount,Nat.mod_eq_of_lt hf.sps.1,takeUnits_sets hf.sps.2]
    simp [hk,hpps]

/-- An SPS of the constrained baseline profile, which has two flags, and a PPS. -/
def baseline : List Bytes := [[0x67,66,0xC0,30],[0x68,1]]

def baselineRecord : Bytes := [1,66,0,30,0xFF,0xE1,0,4,0x67,66,0xC0,30,1,0,2,0x68,1]

theorem config_record_baseline : buildAvcDecoderConfigRecord baseline=.ok baselineRecord ∧
    ∃ r,readConfigRecord baselineRecord=some r ∧ r.Of baseline :=
  ⟨rfl,(config_record_iff rfl).mpr ⟨by decide,by decide⟩⟩

/-- The record says nothing of the flags. -/
theorem flags_dropped : buildAvcDecoderConfigRecord baseline=.ok baselineRecord ∧
    (readConfigRecord baselineRecord).map ConfigRecord.compatibility=some 0 ∧
    (unitsOf 7 baseline).head?.bind (·[2]?)=some 0xC0 :=
  ⟨rfl,by decide,by decide⟩

inductive EncodeKind
  | main420
  | hi444Lossless
  deriving DecidableEq

def chromaFormatIdc : EncodeKind → Nat
  | .main420 => 1
  | .hi444Lossless => 3

/- What a decoder takes the size of the picture from. -/
structure SequenceParameterSet where
  frameMbsOnly : Bool
  frameCropping : Bool
  chromaFormatIdc : Nat
  picWidthInMbsMinus1 : UInt32
  picHeightInMapUnitsMinus1 : UInt32
  cropLeft : UInt32
  cropRight : UInt32
  cropTop : UInt32
  cropBottom : UInt32

def buildH264Sps (width height : UInt32) (kind : EncodeKind) : SequenceParameterSet :=
  let mbW:=divCeil width 16
  let mbH:=divCeil height 16
  let cropRight:=mbW*16-width
  let cropBottom:=mbH*16-height
  ⟨true,cropRight≠0 ∨ cropBottom≠0,chromaFormatIdc kind,mbW-1,mbH-1,0,cropRight/2,0,cropBottom/2⟩

/-- Frame cropping in H.264, in units of chroma samples. -/
def SequenceParameterSet.displaySize (s : SequenceParameterSet) : Int × Int :=
  let field:=if s.frameMbsOnly then 1 else 2
  let unit:=if s.chromaFormatIdc=3 then 1 else 2
  let cropped (n a b u : Nat) : Int := if s.frameCropping then n-u*(a+b) else n
  (cropped (16*(s.picWidthInMbsMinus1.toNat+1)) s.cropLeft.toNat s.cropRight.toNat unit,
    cropped (field*(16*(s.picHeightInMapUnitsMinus1.toNat+1))) s.cropTop.toNat s.cropBottom.toNat (unit*field))

def cropUnit : EncodeKind → Nat
  | .main420 => 2
  | .hi444Lossless => 1

def displaySide (x : UInt32) (kind : EncodeKind) : Int :=
  16*((divCeil x 16-1).toNat+1)-cropUnit kind*((divCeil x 16*16-x)/2).toNat

theorem displaySize_build (width height : UInt32) (kind : EncodeKind) :
    (buildH264Sps width height kind).displaySize=(displaySide width kind,displaySide height kind) := by
  by_cases hcrop : divCeil width 16*16-width≠0 ∨ divCeil height 16*16-height≠0
  · cases kind <;> simp [SequenceParameterSet.displaySize,buildH264Sps,chromaFormatIdc,displaySide,cropUnit,hcrop]
  · -- without the flag both offsets are zero
    obtain ⟨hright,hbottom⟩ := not_or.mp hcrop
    rw [not_not] at hright hbottom
    simp [SequenceParameterSet.displaySize,buildH264Sps,displaySide,hright,hbottom]

theorem crop_toNat (x : UInt32) : (divCeil x 16*16-x).toNat=(16-x.toNat%16)%16 := by
  have hx:=x.toNat_lt
  have hmbs:=divCeil_toNat x 16 (by decide)
  rw [UInt32.toNat_sub,UInt32.toNat_mul,hmbs,show (16 : UInt32).toNat=16 from rfl]
  omega

theorem minus_one_toNat {n : UInt32} (h : 0<n.toNat) : (n-1).toNat=n.toNat-1 := by
  rw [UInt32.toNat_sub,show (1 : UInt32).toNat=1 from rfl]
  have := n.toNat_lt
  omega

theorem displaySide_eq_iff {x : UInt32} (heven : x%2=0) (kind : EncodeKind) :
    displaySide x kind=x.toNat ↔ 0<x.toNat ∧ (kind=.hi444Lossless → x.toNat%16=0) := by
  have heven' : x.toNat%2=0 := by
    have h2:=congrArg UInt32.toNat heven
    rwa [UInt32.toNat_mod] at h2
  have hmbs:=divCeil_toNat x 16 (by decide)
  rw [show (16 : UInt32).toNat=16 from rfl] at hmbs
  rw [displaySide,UInt32.toNat_div,crop_toNat,show (2 : UInt32).toNat=2 from rfl]
  rcases Nat.eq_zero_or_pos x.toNat with hzero | hpos
  · -- the macroblock count wraps below zero
    have hx0 : x=0 := UInt32.toNat_inj.mp hzero
    subst hx0
    cases kind <;> decide
  · rw [minus_one_toNat (by omega),hmbs]
    cases kind with
    | main420 =>
      simp only [cropUnit,reduceCtorEq,false_implies,and_true]
      omega
    | hi444Lossless =>
      simp only [cropUnit,true_implies]
      omega

/-- In 4:2:0 the size declared is the size asked for; in 4:4:4 only in whole macroblocks. -/
theorem declared_size_iff (width height : UInt32) (kind : EncodeKind) (hw : width%2=0) (hh : height%2=0) :
    (buildH264Sps width height kind).displaySize=((width.toNat : Int),(height.toNat : Int)) ↔
      (0<width.toNat ∧ 0<height.toNat) ∧
        (kind=.hi444Lossless → width.toNat%16=0 ∧ height.toNat%16=0) := by
  rw [displaySize_build,Prod.mk.injEq,displaySide_eq_iff hw,displaySide_eq_iff hh]
  tauto

theorem declared_size_full_hd :
    (buildH264Sps 1920 1080 .main420).displaySize=(((1920 : UInt32).toNat : Int),((1080 : UInt32).toNat : Int)) :=
  (declared_size_iff 1920 1080 .main420 (by decide) (by decide)).mpr ⟨by decide,by decide⟩

/-- Full HD has 68 rows of macroblocks, and half of the eight lines too many stay. -/
theorem lossless_full_hd :
    (buildH264Sps 1920 1080 .hi444Lossless).displaySize=(1920,1084) := by decide

end Waymux.Mkv.ParameterSets
