import Waymux.Framing.Integers
import Mathlib.Algebra.Group.Nat.Defs
import Mathlib.Tactic.SplitIfs

/-!
# The CUDA recorder and its size guard (`cuda_nvenc_record.rs`)

What the driver answers is an argument of each call.
-/

namespace Waymux.Viewer.CudaEncoder
open Framing.Integers (divCeil divCeil_toNat)

/- The row pitch of the NV12 buffer; the product wraps. -/
def nv12PitchOf (width : UInt32) : UInt32 := divCeil width 256*256

def safeEncodeDims (reqW reqH reqStride maxW maxH maxPitch : UInt32) : Option (UInt32 × UInt32 × UInt32) :=
  if reqW>maxW ∨ reqH>maxH then none
  else if reqStride≠0 ∧ reqStride>maxPitch then none
  else some (reqW,reqH,reqStride)

structure Recorder where
  width : UInt32
  height : UInt32
  nv12Pitch : UInt32
  /-- the size of the allocation behind `nv12_devptr` -/
  nv12Bytes : Nat
  cscLoaded : Bool
  hasInput : Bool
  hasEncoded : Bool
  oversizeRejectedLogged : Bool
  pitch_eq : nv12Pitch=nv12PitchOf width
  bytes_eq : nv12Bytes=nv12Pitch.toNat*(height.toNat+(height.toNat+1)/2)
  deriving DecidableEq

/-- What there is to open: EGL, CUDA, the kernel's module, an NVENC session of
that size, and memory. -/
structure Driver where
  egl : Bool
  cuda : Bool
  csc : Bool
  nvenc : UInt32 → UInt32 → Bool
  memAlloc : Nat → Bool

def tryNew (d : Driver) (width height : UInt32) : Option Recorder :=
  if !d.egl then none
  else if !d.cuda then none
  else if !d.nvenc width height then none
  else
    let pitch:=nv12PitchOf width
    let bytes:=pitch.toNat*(height.toNat+(height.toNat+1)/2)
    if !d.memAlloc bytes then none
    else some ⟨width,height,pitch,bytes,d.csc,false,false,false,rfl,rfl⟩

structure Dmabuf where
  fd : Int
  modifier : UInt64
  width : UInt32
  height : UInt32
  stride : UInt32
  deriving DecidableEq, Repr

structure EncodedNal where
  data : List UInt8
  ptsUs : Int
  isKeyframe : Bool
  deriving DecidableEq, Repr

/-- Grid and arguments of a launch of `argb_to_nv12_bt709`. -/
structure Launch where
  gx : UInt32
  gy : UInt32
  width : UInt32
  height : UInt32
  pitch : UInt32
  deriving DecidableEq, Repr

inductive Call
  | createImage (frame : Dmabuf)
  | destroyImage
  | registerImage
  | unregister
  | getMappedFrame
  | arrayCreate (width height : UInt32)
  | memcpy (width height stride : UInt32)
  | texObjectCreate
  | texObjectDestroy
  | launchKernel (l : Launch)
  | streamSynchronize
  | nvRegister (width height pitch : UInt32)
  | nvUnregister
  | nvMap
  | nvUnmap
  | nvEncode (forceIdr : Bool)
  | nvLock
  | nvUnlock
  deriving DecidableEq, Repr

/-- Which of the driver calls of one frame succeed. -/
structure Answers where
  createImage : Bool
  registerImage : Bool
  getMappedFrame : Bool
  arrayMapped : Bool
  arrayCreate : Bool
  memcpy : Bool
  texObjectCreate : Bool
  launchKernel : Bool
  streamSynchronize : Bool
  nvSlots : Bool
  nvRegister : Bool
  nvMap : Bool
  nvEncode : Bool
  nvLock : Option (List UInt8)

/-- The picture, if there is one, the recorder after it and the calls made. -/
structure Encoded where
  nal : Option EncodedNal
  recorder : Recorder
  calls : List Call

def nvencEncodeCurrentNv12 (a : Answers) (r : Recorder) (width height : UInt32) (forceIdr : Bool) (ptsUs : Int) :
    Option EncodedNal × List Call :=
  let register : Call := .nvRegister width height r.nv12Pitch
  if !a.nvSlots then (none,[])
  else if !a.nvRegister then (none,[register])
  else if !a.nvMap then (none,[register,.nvMap,.nvUnregister])
  else if !a.nvEncode then (none,[register,.nvMap,.nvEncode forceIdr,.nvUnmap,.nvUnregister])
  else match a.nvLock with
    | none => (none,[register,.nvMap,.nvEncode forceIdr,.nvLock,.nvUnmap,.nvUnregister])
    | some data =>
        (some ⟨data,ptsUs,forceIdr⟩,
          [register,.nvMap,.nvEncode forceIdr,.nvLock,.nvUnlock,.nvUnmap,.nvUnregister])

def frameLaunch (width height pitch : UInt32) : Launch :=
  ⟨divCeil (width/2) 16,divCeil (height/2) 16,width,height,pitch⟩

def launchFor (r : Recorder) (width height : UInt32) : Launch := frameLaunch width height r.nv12Pitch

def encodeFromCuarray (a : Answers) (r : Recorder) (width height : UInt32) (ptsUs : Int) (forceIdr : Bool) :
    Encoded :=
  let launch : Call := .launchKernel (launchFor r width height)
  if !r.cscLoaded then ⟨none,r,[]⟩
  else if (safeEncodeDims width height 0 r.width r.height r.nv12Pitch).isNone then
    ⟨none,{r with oversizeRejectedLogged := true},[]⟩
  else if !a.texObjectCreate then ⟨none,r,[.texObjectCreate]⟩
  else if !a.launchKernel then ⟨none,r,[.texObjectCreate,launch,.texObjectDestroy]⟩
  else if !a.streamSynchronize then
    ⟨none,r,[.texObjectCreate,launch,.streamSynchronize,.texObjectDestroy]⟩
  else
    let (result,calls) := nvencEncodeCurrentNv12 a r width height forceIdr ptsUs
    ⟨result,{r with hasEncoded := r.hasEncoded || result.isSome},
      [.texObjectCreate,launch,.streamSynchronize]++calls++[.texObjectDestroy]⟩

def encodeDmabuf (a : Answers) (r : Recorder) (frame : Dmabuf) (ptsUs : Int) (forceIdr : Bool) : Encoded :=
  if (safeEncodeDims frame.width frame.height frame.stride r.width r.height r.nv12Pitch).isNone then
    ⟨none,{r with oversizeRejectedLogged := true},[]⟩
  else if !a.createImage then ⟨none,r,[.createImage frame]⟩
  else if !a.registerImage then ⟨none,r,[.createImage frame,.registerImage,.destroyImage]⟩
  else if !a.getMappedFrame || !a.arrayMapped then
    ⟨none,r,[.createImage frame,.registerImage,.getMappedFrame,.unregister,.destroyImage]⟩
  else
    let tail:=encodeFromCuarray a r frame.width frame.height ptsUs forceIdr
    ⟨tail.nal,tail.recorder,[.createImage frame,.registerImage,.getMappedFrame]++tail.calls ++
      [.unregister,.destroyImage]⟩

def encodePixels (a : Answers) (r : Recorder) (width height stride : UInt32) (ptsUs : Int) (forceIdr : Bool) :
    Encoded :=
  let created : List Call := if r.hasInput then [] else [.arrayCreate r.width r.height]
  if !r.hasInput && !a.arrayCreate then ⟨none,r,created⟩
  else
    let copyW:=min width r.width
    let copyH:=min height r.height
    let r':={r with hasInput := true}
    let copied:=created++[.memcpy copyW copyH stride]
    if !a.memcpy then ⟨none,r',copied⟩
    else
      let tail:=encodeFromCuarray a r' copyW copyH ptsUs forceIdr
      ⟨tail.nal,tail.recorder,copied++tail.calls⟩

def reencodeLast (a : Answers) (r : Recorder) (ptsUs : Int) (forceIdr : Bool) : Encoded :=
  if !r.hasEncoded then ⟨none,r,[]⟩
  else
    let (result,calls) := nvencEncodeCurrentNv12 a r r.width r.height forceIdr ptsUs
    ⟨result,r,calls⟩

/-- The frame of a tick of `run_cuda_nvenc_encoder`. -/
inductive Task
  | dmabuf (frame : Dmabuf)
  | pixels (width height : UInt32)
  | again

structure Tick where
  task : Task
  answers : Answers
  ptsUs : Int
  forceIdr : Bool

def Tick.encode (r : Recorder) (t : Tick) : Encoded :=
  match t.task with
  | .dmabuf frame => encodeDmabuf t.answers r frame t.ptsUs t.forceIdr
  | .pixels width height => encodePixels t.answers r width height (width*4) t.ptsUs t.forceIdr
  | .again => reencodeLast t.answers r t.ptsUs t.forceIdr

def after (r : Recorder) (ticks : List Tick) : Recorder := ticks.foldl (fun r t => (t.encode r).recorder) r

variable {a : Answers} {r : Recorder} {w ht stride : UInt32} {pts : Int} {idr : Bool}

def Recorder.SameSize (r r' : Recorder) : Prop :=
  r'.width=r.width ∧ r'.height=r.height

theorem encodeFromCuarray_size : r.SameSize (encodeFromCuarray a r w ht pts idr).recorder := by
  unfold encodeFromCuarray
  split_ifs <;> exact ⟨rfl,rfl⟩

theorem Tick.encode_size (t : Tick) : r.SameSize (t.encode r).recorder := by
  unfold Tick.encode
  cases t.task with
  | dmabuf =>
    simp only [encodeDmabuf,apply_ite Encoded.recorder]
    split_ifs
    · exact ⟨rfl,rfl⟩
    · exact ⟨rfl,rfl⟩
    · exact ⟨rfl,rfl⟩
    · exact ⟨rfl,rfl⟩
    · exact encodeFromCuarray_size
  | pixels =>
    simp only [encodePixels,apply_ite Encoded.recorder]
    split_ifs
    · exact ⟨rfl,rfl⟩
    · exact ⟨rfl,rfl⟩
    · exact encodeFromCuarray_size (r := {r with hasInput := true})
  | again =>
    simp only [reencodeLast,apply_ite Encoded.recorder]
    split_ifs <;> exact ⟨rfl,rfl⟩

theorem after_size (ticks : List Tick) : r.SameSize (after r ticks) := by
  induction ticks generalizing r with
  | nil => exact ⟨rfl,rfl⟩
  | cons t ticks ih =>
    have h1:=t.encode_size (r := r)
    have h2:=ih (r := (t.encode r).recorder)
    exact ⟨h2.1.trans h1.1,h2.2.trans h1.2⟩

theorem tryNew_size {d : Driver} {width height : UInt32} (hr : tryNew d width height=some r) :
    r.width=width ∧ r.height=height := by
  unfold tryNew at hr
  extract_lets pitch bytes at hr
  split_ifs at hr
  obtain rfl := Option.some.inj hr
  exact ⟨rfl,rfl⟩

theorem nv12PitchOf_toNat (x : UInt32) : (nv12PitchOf x).toNat=(x.toNat+255)/256*256%2^32 := by
  rw [nv12PitchOf,UInt32.toNat_mul,divCeil_toNat x 256 (by decide)]
  rfl

theorem safeEncodeDims_isNone {maxW maxH maxPitch : UInt32} :
    (safeEncodeDims w ht stride maxW maxH maxPitch).isNone=true ↔
      maxW<w ∨ maxH<ht ∨ stride≠0 ∧ maxPitch<stride := by
  unfold safeEncodeDims
  split_ifs with h1 h2
  · simp only [Option.isNone_none,true_iff]
    exact h1.elim .inl (fun h => .inr (.inl h))
  · simp only [Option.isNone_none,true_iff]
    exact .inr (.inr h2)
  · simp only [Option.isNone_some,Bool.false_eq_true,false_iff]
    rintro (h | h | h)
    · exact h1 (.inl h)
    · exact h1 (.inr h)
    · exact h2 h

/-- The bounds check of `encode_dmabuf` lets the frame through: its import is attempted. -/
def Passes (e : Encoded) (frame : Dmabuf) : Prop := Call.createImage frame∈e.calls

theorem passes_iff {frame : Dmabuf} : Passes (encodeDmabuf a r frame pts idr) frame ↔
    (safeEncodeDims frame.width frame.height frame.stride r.width r.height r.nv12Pitch).isNone=false := by
  unfold encodeDmabuf Passes
  split_ifs with h1 <;> simp [h1]

/-- A frame of the recorder's size or less with a stride of its own passes just when its stride, in bytes of
four-byte pixels, is no more than the pitch of the one-byte luma plane. -/
theorem dmabuf_passes_iff {d : Driver} {width height : UInt32} {r₀ : Recorder} (hnew : tryNew d width height=some r₀)
    (ticks : List Tick) (a : Answers) (pts : Int) (idr : Bool) (frame : Dmabuf)
    (hw : 1≤frame.width ∧ frame.width≤width) (hh : 1≤frame.height ∧ frame.height≤height)
    (hs : 4*frame.width.toNat≤frame.stride.toNat) :
    (Passes (encodeDmabuf a (after r₀ ticks) frame pts idr) frame ↔ frame.stride≤nv12PitchOf width) ∧
      (frame.width=width → frame.height=height → frame.stride.toNat=4*width.toNat →
        (Passes (encodeDmabuf a (after r₀ ticks) frame pts idr) frame ↔ width.toNat≤64)) := by
  obtain ⟨hsw,hsh⟩ := after_size (r := r₀) ticks
  obtain ⟨hnw,hnh⟩ := tryNew_size hnew
  have hwidth : (after r₀ ticks).width=width := hsw.trans hnw
  have hheight : (after r₀ ticks).height=height := hsh.trans hnh
  have hpos : 1≤frame.width.toNat := UInt32.le_iff_toNat_le.mp hw.1
  have hne : frame.stride≠0 := by
    intro h0
    rw [h0,UInt32.toNat_zero] at hs
    omega
  have hiff : Passes (encodeDmabuf a (after r₀ ticks) frame pts idr) frame ↔ frame.stride≤nv12PitchOf width := by
    rw [passes_iff,← Bool.not_eq_true,safeEncodeDims_isNone,(after r₀ ticks).pitch_eq,hwidth,hheight]
    constructor
    · intro hn
      exact UInt32.not_lt.mp fun hlt => hn (.inr (.inr ⟨hne,hlt⟩))
    · rintro hle (hlt | hlt | ⟨-,hlt⟩)
      · exact UInt32.not_lt.mpr hw.2 hlt
      · exact UInt32.not_lt.mpr hh.2 hlt
      · exact UInt32.not_lt.mpr hle hlt
  refine ⟨hiff,fun hfw _ hfs => ?_⟩
  rw [hiff,UInt32.le_iff_toNat_le,nv12PitchOf_toNat,hfs]
  omega

def willing : Driver := ⟨true,true,true,fun _ _ => true,fun _ => true⟩

def obliging : Answers :=
  ⟨true,true,true,true,true,true,true,true,true,true,true,true,true,some [0,0,0,1]⟩

/-- A recorder of 64 columns and its own tightly packed frame. -/
theorem dmabuf_passes_iff_64 : ∃ r₀,tryNew willing 64 48=some r₀ ∧
    Passes (encodeDmabuf obliging (after r₀ []) ⟨7,0,64,48,256⟩ 0 true) ⟨7,0,64,48,256⟩ := by
  refine ⟨_,rfl,?_⟩
  exact ((@dmabuf_passes_iff willing 64 48 _ rfl [] obliging 0 true ⟨7,0,64,48,256⟩
    (by decide) (by decide) (by decide)).2 rfl rfl (by decide)).mpr (by decide)

/-- A frame of exactly the encoder's size, as the driver lays it out. -/
theorem full_hd_dropped : ∃ r₀,tryNew willing 1920 1080=some r₀ ∧
    ¬Passes (encodeDmabuf obliging (after r₀ []) ⟨7,0,1920,1080,7680⟩ 0 true) ⟨7,0,1920,1080,7680⟩ := by
  refine ⟨_,rfl,?_⟩
  rw [passes_iff]
  decide +kernel

end Waymux.Viewer.CudaEncoder
