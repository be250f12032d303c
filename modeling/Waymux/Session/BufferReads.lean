import Waymux.Server.Messages
import Waymux.Framing.Rows
import Mathlib.Data.List.Sort

/-!
# How the recording tap reads a client's buffer

`buffer.rs`, `shm.rs`, `dmabuf.rs`, `recording.rs`, `finalize_params` (`compositor.rs`) and the two
readers of `state.rs`. The four numbers of a shared memory buffer are not checked when it is made.
-/

namespace Waymux.Session.BufferReads
open Framing.Rows Option
open Server.Messages (RecordingCodec)

abbrev Byte := UInt8

inductive Crash
  /-- arithmetic overflow, in a build that checks for it -/
  | overflow
  /-- an index or a range outside the slice -/
  | slice
  /-- `Vec::with_capacity` beyond `isize::MAX` -/
  | capacity
  /-- a write past the end of a heap buffer -/
  | heap
deriving DecidableEq

abbrev Run (α : Type) := Except Crash α

def orCrash {α : Type} (c : Crash) : Option α → Run α
  | some a => .ok a
  | none => .error c

/-! ### Casts and arithmetic -/

def asU32 (i : Int32) : Nat := (i.toInt%0x100000000).toNat

/-- `i as usize`: the sign is extended. -/
def asUsize (i : Int32) : Nat := (i.toInt%0x10000000000000000).toNat

/-- `n as i32 as usize` for a `u32` -/
def signExtended (n : Nat) : Nat :=
  if n<0x80000000 then n else n+0xFFFFFFFF00000000

/-- `a * b` in `u32`: checked in some builds, wrapped in the others. -/
def mulU32 (checks : Bool) (a b : Nat) : Run Nat :=
  if a*b<0x100000000 then .ok (a*b)
  else if checks then .error .overflow
  else .ok (a*b%0x100000000)

def checkedMul (a b : Nat) : Option Nat := if a*b<0x10000000000000000 then some (a*b) else none

def checkedAdd (a b : Nat) : Option Nat := if a+b<0x10000000000000000 then some (a+b) else none

/-! ### `destride_bgra` -/

def destrideBgra (checks : Bool) (src : List Byte) (width height stride : Nat) : Run (List Byte) := do
  let rowBytes ← mulU32 checks width 4
  let total:=height*rowBytes
  if stride=rowBytes then orCrash .slice (slice src 0 total)
  else if 0x8000000000000000≤total then .error .capacity
  else orCrash .slice (copyRows src stride rowBytes height 0)

/-! ### Shared memory -/

inductive ShmFormat
  | argb8888
  | xrgb8888
  | other
deriving DecidableEq

/-- The mapping of a pool. Its size came as an `i32`. -/
structure Mapping where
  len : Nat
  mem : Nat → Byte
  small : len<0x80000000

/-- `ShmPoolData`: a pool that could not be mapped has no bytes. -/
structure Pool where
  size : Nat
  mmap : Option Mapping

def mapPool (fd : Option (Nat → Byte)) (size : Int32) : Option Mapping :=
  if h : 0<size.toInt then
    fd.map fun mem => ⟨size.toInt.toNat,mem,by have hs:=size.toInt_lt; omega⟩
  else none

def Pool.new (fd : Option (Nat → Byte)) (size : Int32) : Pool := ⟨size.toInt.toNat,mapPool fd size⟩

def Pool.resize (p : Pool) (fd : Option (Nat → Byte)) (size : Int32) : Pool :=
  if p.size<size.toInt.toNat then ⟨size.toInt.toNat,mapPool fd size⟩ else p

def Pool.withBytes (p : Pool) (offset : Int32) (len : Nat) : Option (List Byte) := do
  if offset.toInt<0 then none
  else
    let m ← p.mmap
    let stop ← checkedAdd offset.toInt.toNat len
    if m.len<stop then none else some (region m.mem offset.toInt.toNat len)

/-- `ShmBufferData`, as the client named it. -/
structure ShmBuffer where
  pool : Pool
  offset : Int32
  width : Int32
  height : Int32
  stride : Int32
  format : ShmFormat

def ShmBuffer.bytes (b : ShmBuffer) : Option (List Byte) := do
  let len ← checkedMul (asUsize b.height) (asUsize b.stride)
  b.pool.withBytes b.offset len

/-! ### Dmabufs -/

inductive DrmFormat
  | argb8888
  | xrgb8888
deriving DecidableEq

def drmFormat (code : Nat) : Option DrmFormat :=
  if code=0x34325241 then some .argb8888 else if code=0x34325258 then some .xrgb8888 else none

structure Plane where
  offset : UInt32
  stride : UInt32
  modifier : UInt64
deriving DecidableEq

structure Params where
  planes : List (Nat × Plane)
  used : Bool

/-- `DmabufBufferData`: plane 0 and what the client said of the picture. -/
structure Dmabuf where
  offset : UInt32
  stride : UInt32
  modifier : UInt64
  width : Int32
  height : Int32
  format : DrmFormat
deriving DecidableEq

def maxDmabufDim : Int := 16384

def hex (n : Nat) : String := "0x" ++ String.ofList (Nat.toDigits 16 n)

def finalizeParams (params : Params) (width height : Int32) (format : Nat) : Except String Dmabuf :=
  if params.used then .error "params already used"
  else if width.toInt≤0 ∨ height.toInt≤0 then .error s!"bad dimensions {width}x{height}"
  else if maxDmabufDim<width.toInt ∨ maxDmabufDim<height.toInt then
    .error s!"dmabuf dimensions {width}x{height} exceed max {maxDmabufDim}x{maxDmabufDim}"
  else match drmFormat format with
    | none => .error s!"unsupported format {hex format}"
    | some fmt => match params.planes.insertionSort (fun p q => p.1≤q.1) with
      | (0,plane)::_ => .ok ⟨plane.offset,plane.stride,plane.modifier,width,height,fmt⟩
      | _ => .error "no plane 0 supplied"

structure Readback where
  /-- the plain mapping of the fd -/
  map : Option (Nat → Byte)
  /-- `amdgpu_gem_mmap` -/
  gem : Option (Nat → Byte)
  /-- `drm_readback` -/
  dumb : Option (Nat → Byte)
  /-- the mapping of `gbm_bo_map`, with its stride -/
  gbm : Option (UInt32 × (Nat → Byte))
  /-- the imported image: pixel `(x, y)` as red, green, blue and alpha -/
  egl : Option (Nat → Nat → Byte × Byte × Byte × Byte)

inductive Source
  | memory (mem : Nat → Byte) (start pitch : Nat)
  | image (pixel : Nat → Nat → Byte × Byte × Byte × Byte)

def bgra : Byte × Byte × Byte × Byte → List Byte
  | (r,g,b,a) => [b,g,r,a]

def imageRow (pixel : Nat → Nat → Byte × Byte × Byte × Byte) (width y : Nat) : List Byte :=
  (List.range width).flatMap fun x => bgra (pixel x y)

def Source.row (width : Nat) : Source → Nat → List Byte
  | .memory mem start pitch, y => region mem (start+y*pitch) (width*4)
  | .image pixel, y => imageRow pixel width y

def maxDmabufLen : Nat := 0x10000000

/-- Computed from the stride as an `i32`, with the limit of the GBM and the EGL fallback. -/
def Dmabuf.readLen (d : Dmabuf) (stride : Nat) : Option Nat := do
  let n ← checkedMul (asUsize d.height) stride
  if n ≤ maxDmabufLen then some n else none

def Dmabuf.gbmReadback (d : Dmabuf) (r : Readback) : Run (Option (Source × List Byte)) :=
  match d.readLen (signExtended d.stride.toNat), r.gbm with
  | some len, some (pitch,mem) =>
    match d.readLen pitch.toNat with
    | none => .ok none
    | some mapLen => do
      let src:=region mem 0 mapLen
      let out ← orCrash .slice (if pitch=d.stride then slice src 0 len
        else copyRows src pitch.toNat d.stride.toNat (asUsize d.height) 0)
      .ok (some (.memory mem 0 pitch.toNat,out))
  | _, _ => .ok none

/-- `glReadPixels` packs the rows, whatever the stride. -/
def packedImage (pixel : Nat → Nat → Byte × Byte × Byte × Byte) (width height : Nat) : List Byte :=
  (List.range height).flatMap (imageRow pixel width)

/-- The buffer is sized by the stride and starts out zero. -/
def Dmabuf.eglReadback (d : Dmabuf) (r : Readback) : Run (Option (Source × List Byte)) :=
  match d.readLen (signExtended d.stride.toNat), r.egl with
  | some len, some pixel =>
    if len<(packedImage pixel (asUsize d.width) (asUsize d.height)).length then .error .heap
    else .ok (some (.image pixel,packedImage pixel (asUsize d.width) (asUsize d.height) ++
      List.replicate (len-(packedImage pixel (asUsize d.width) (asUsize d.height)).length) 0))
  | _, _ => .ok none

def nonzero (bytes : List Byte) : Bool := bytes.any (·≠0)

/-- Bytes that are all zero do not count: some drivers map a buffer so. -/
def unlessZero (v : Option (Source × List Byte)) (otherwise : Run (Option (Source × List Byte))) :
    Run (Option (Source × List Byte)) :=
  match v with
  | some v => if nonzero v.2 then .ok (some v) else otherwise
  | none => otherwise

def Dmabuf.gbmThenEgl (d : Dmabuf) (r : Readback) : Run (Option (Source × List Byte)) := do
  unlessZero (← d.gbmReadback r) (d.eglReadback r)

def Dmabuf.view (d : Dmabuf) (len : Nat) (mem : Nat → Byte) : Source × List Byte :=
  (.memory mem d.offset.toNat d.stride.toNat,region mem d.offset.toNat len)

def Dmabuf.drmThenGbm (d : Dmabuf) (r : Readback) (len : Nat) : Run (Option (Source × List Byte)) :=
  match r.dumb with
  | some mem => .ok (some (d.view len mem))
  | none => d.gbmThenEgl r

/-- `DmabufBufferData::with_bytes`: the bytes that the closure is given. -/
def Dmabuf.bytes (d : Dmabuf) (r : Readback) : Run (Option (Source × List Byte)) :=
  match checkedMul (asUsize d.height) d.stride.toNat with
  | none => .ok none
  | some len =>
    if d.modifier≠0 then d.eglReadback r
    else match checkedAdd d.offset.toNat len, r.map with
      | none, _ => .ok none
      | some _, none => d.drmThenGbm r len
      | some _, some mem =>
        unlessZero (some (d.view len mem)) (unlessZero (r.gem.map (d.view len)) (d.drmThenGbm r len))

/-! ### The tap -/

inductive BufferKind
  | shm (buffer : ShmBuffer)
  | dmabuf (buffer : Dmabuf)
  | singlePixel (bgra : Byte × Byte × Byte × Byte)
  | invalid

inductive RecordingTask
  | pixels (pixels : List Byte) (width height : Nat)
  | dmabuf
deriving DecidableEq

/-- A shared memory buffer is read as four bytes a pixel in the two formats only. -/
def ShmBuffer.readable (b : ShmBuffer) : Option (List Byte) :=
  if b.format=.other then none else b.bytes

/-- `read_surface_buffer_for_recording` for the two kinds it is called for. -/
def readSurfaceBufferForRecording (checks : Bool) : BufferKind → Run (Option RecordingTask)
  | .shm b => match b.readable with
    | none => .ok none
    | some bytes => do
      let pixels ← destrideBgra checks bytes (asU32 b.width) (asU32 b.height) (asU32 b.stride)
      .ok (some (.pixels pixels (asU32 b.width) (asU32 b.height)))
  | .singlePixel (r,g,b,a) => do
    let pixels ← destrideBgra checks [r,g,b,a] 1 1 4
    .ok (some (.pixels pixels 1 1))
  | .dmabuf _ | .invalid => .ok none

def needsNv12 : RecordingCodec → Bool
  | .h264Nvenc | .h264Vaapi => true
  | _ => false

/-- Codecs whose encoder imports the dmabuf itself. -/
def wantsDmabuf : RecordingCodec → Bool
  | .h264Vulkan | .ffv1Vulkan | .h264VulkanLossless | .cudaNvenc | .h264Vaapi => true
  | _ => false

def Dmabuf.cpuReadback (checks : Bool) (r : Readback) (d : Dmabuf) : Run (Option RecordingTask) := do
  match ← d.bytes r with
  | none => .ok none
  | some (_,raw) =>
    let pixels ← destrideBgra checks raw (asU32 d.width) (asU32 d.height) d.stride.toNat
    .ok (some (.pixels pixels (asU32 d.width) (asU32 d.height)))

/-- `push_focused_buffer_to_recording`: the task that is put into the slot. -/
def pushFocusedBuffer (checks : Bool) (codec : RecordingCodec) (fenceReady : Bool) (r : Readback) :
    BufferKind → Run (Option RecordingTask)
  | .dmabuf d =>
    if wantsDmabuf codec ∨ d.modifier≠0 then .ok (some .dmabuf)
    else if ¬ needsNv12 codec ∧ ¬ fenceReady then .ok none
    else d.cpuReadback checks r
  | kind => readSurfaceBufferForRecording checks kind

/-! ### What `destride_bgra` does -/

theorem bind_ok {α β : Type} {x : Run α} {f : α → Run β} {b : β} (h : x >>= f=.ok b) :
    ∃ a,x=.ok a ∧ f a=.ok b := by
  cases x with
  | error => cases h
  | ok a => exact ⟨a,rfl,h⟩

variable {a b width height stride n len : Nat} {src bytes raw : List Byte} {i : Int32} {v : Source × List Byte}
  {source : Source}

theorem mulU32_fits (checks : Bool) (h : a*b<0x100000000) : mulU32 checks a b=.ok (a*b) :=
  if_pos h

theorem destride_run {checks : Bool} (h : mulU32 checks width 4=.ok n) :
    destrideBgra checks src width height stride =
      if stride=n then orCrash .slice (slice src 0 (height*n))
      else if 0x8000000000000000≤height*n then .error .capacity
      else orCrash .slice (copyRows src stride n height 0) := by
  rw [destrideBgra,h]
  rfl

theorem slice_take (h : n ≤ src.length) : slice src 0 n=some (src.take n) := by
  rw [slice,if_pos ⟨Nat.zero_le n,h⟩]
  rfl

theorem orCrash_ok {α : Type} {c : Crash} {x : Option α} {a : α} (h : orCrash c x=.ok a) : x=some a := by
  cases x with
  | none => cases h
  | some => exact congrArg some (Except.ok.inj h)

theorem slice_ok {out : List Byte} (h : orCrash .slice (slice src 0 n)=.ok out) :
    n ≤ src.length ∧ out=src.take n := by
  obtain ⟨hb,⟨⟩⟩ := ite_none_right_eq_some.mp (orCrash_ok h)
  exact ⟨hb.2,rfl⟩

theorem destride_packed (checks : Bool) (hsrc : src.length=height*stride) (hlen : src.length<0x8000000000000000)
    (hw : width*4<0x100000000) (hrow : height=0 ∨ width*4 ≤ stride) :
    ∃ out,destrideBgra checks src width height stride=.ok out ∧
      IsPacked out (width*4) height (rowAt src stride (width*4)) := by
  rw [destride_run (mulU32_fits checks hw)]
  have htotal : height*(width*4) ≤ src.length := by
    rcases hrow with rfl | hrow
    · simp
    · exact hsrc ▸ Nat.mul_le_mul_left height hrow
  by_cases he : stride=width*4
  · subst he
    rw [if_pos rfl,slice_take htotal]
    exact ⟨_,rfl,take_packed htotal⟩
  · rw [if_neg he,if_neg (by omega)]
    have hbounds : ∀ y<height,(0+y)*stride+width*4 ≤ src.length := by
      intro y hy
      have hle : (y+1)*stride≤height*stride := Nat.mul_le_mul_right stride hy
      rw [Nat.succ_mul] at hle
      rw [Nat.zero_add]
      omega
    obtain ⟨out,hout,hpacked⟩ := copyRows_packed height 0 hbounds
    rw [hout]
    refine ⟨out,rfl,?_⟩
    simpa only [Nat.zero_add] using hpacked

/-- A row longer than the stride ends in a panic at the last row. -/
theorem destride_crash (checks : Bool) (hsrc : src.length=height*stride) (hw : width*4<0x100000000)
    (hh : 0<height) (hs : stride<width*4) : ∃ c,destrideBgra checks src width height stride=.error c := by
  rw [destride_run (mulU32_fits checks hw),if_neg (by omega)]
  by_cases hcap : 0x8000000000000000≤height*(width*4)
  · exact ⟨.capacity,if_pos hcap⟩
  · rw [if_neg hcap]
    have hlast : src.length<(0+(height-1))*stride+width*4 := by
      have hsplit : (height-1+1)*stride=(height-1)*stride+stride := Nat.succ_mul _ _
      rw [Nat.sub_add_cancel hh] at hsplit
      rw [Nat.zero_add]
      omega
    rw [copyRows_none height 0 (height-1) (by omega) hlast]
    exact ⟨.slice,rfl⟩

theorem destride_shows_iff (checks : Bool) {row : Nat → List Byte} (hsrc : src.length=height*stride)
    (hlen : src.length<0x8000000000000000) (hw : width*4<0x100000000) :
    (∃ out,destrideBgra checks src width height stride=.ok out ∧ IsPacked out (width*4) height row) ↔
      (height=0 ∨ width*4 ≤ stride) ∧ ∀ y<height,rowAt src stride (width*4) y=row y := by
  constructor
  · rintro ⟨out,hout,hpacked⟩
    have hrow : height=0 ∨ width*4 ≤ stride := by
      by_contra hlong
      obtain ⟨c,hc⟩ := destride_crash checks hsrc hw (by omega) (by omega)
      cases hc.symm.trans hout
    obtain ⟨out',hout',hpacked'⟩ := destride_packed checks hsrc hlen hw hrow
    cases hout.symm.trans hout'
    exact ⟨hrow,fun y hy => (hpacked'.row_eq y hy).symm.trans (hpacked.row_eq y hy)⟩
  · rintro ⟨hrow,hrows⟩
    obtain ⟨out,hout,hpacked⟩ := destride_packed checks hsrc hlen hw hrow
    exact ⟨out,hout,hpacked.congr hrows⟩

theorem mulU32_wraps (h : ¬ a*b<0x100000000) : mulU32 false a b=.ok (a*b%0x100000000) := if_neg h

theorem destride_wrapped_short {out : List Byte} (hw : ¬ width*4<0x100000000) (hh : 0<height)
    (h : destrideBgra false src width height stride=.ok out) : out.length≠height*(width*4) := by
  have hlt : width*4%0x100000000<width*4 := by omega
  have hlen : out.length=height*(width*4%0x100000000) := by
    rw [destride_run (mulU32_wraps hw)] at h
    repeat' split at h
    · obtain ⟨hb,hs⟩ := slice_ok h
      exact hs ▸ List.length_take_of_le hb
    · cases h
    · exact (copyRows_some (orCrash_ok h)).2.length
  have hmul:=Nat.mul_lt_mul_of_pos_left hlt hh
  omega

/-! ### Shared memory buffers -/

theorem asU32_of_nonneg (h : 0 ≤ i.toInt) : asU32 i=i.toInt.toNat := by
  have hi:=i.toInt_lt
  unfold asU32
  omega

theorem asUsize_of_nonneg (h : 0 ≤ i.toInt) : asUsize i=i.toInt.toNat := by
  have hi:=i.toInt_lt
  unfold asUsize
  omega

theorem asUsize_of_neg (h : i.toInt<0) : 0xFFFFFFFF80000000≤asUsize i := by
  have hi:=i.le_toInt
  unfold asUsize
  omega

theorem asUsize_zero (h : asUsize i=0) : asU32 i=0 := by
  unfold asUsize at h
  unfold asU32
  omega

theorem product_small (ha : 0xFFFFFFFF80000000≤a) (h : a*b<0x80000000) : b=0 := by
  by_contra hb
  have hle : a≤a*b := Nat.le_mul_of_pos_right a (Nat.pos_of_ne_zero hb)
  omega

theorem asUsize_product {h s : Int32} (hlt : asUsize h*asUsize s<0x80000000) :
    asUsize h*asUsize s=asU32 h*asU32 s := by
  by_cases hh : 0≤h.toInt
  · by_cases hs : 0 ≤ s.toInt
    · rw [asUsize_of_nonneg hh,asUsize_of_nonneg hs,asU32_of_nonneg hh,asU32_of_nonneg hs]
    · have hz:=product_small (asUsize_of_neg (by omega)) (Nat.mul_comm _ _ ▸ hlt)
      rw [hz,asUsize_zero hz,Nat.zero_mul,Nat.zero_mul]
  · have hz:=product_small (asUsize_of_neg (by omega)) hlt
    rw [hz,asUsize_zero hz,Nat.mul_zero,Nat.mul_zero]

theorem checkedMul_some (h : checkedMul a b=some n) : n=a*b := by
  obtain ⟨_,⟨⟩⟩ := ite_none_right_eq_some.mp h
  rfl

theorem withBytes_some {p : Pool} {offset : Int32} (h : p.withBytes offset len=some bytes) :
    ∃ m,p.mmap=some m ∧ offset.toInt.toNat+len ≤ m.len ∧ bytes=region m.mem offset.toInt.toNat len := by
  obtain ⟨_,h⟩ := ite_none_left_eq_some.mp h
  obtain ⟨m,hm,h⟩ := bind_eq_some_iff.mp h
  obtain ⟨stop,hstop,h⟩ := bind_eq_some_iff.mp h
  obtain ⟨_,⟨⟩⟩ := ite_none_right_eq_some.mp hstop
  obtain ⟨hle,⟨⟩⟩ := ite_none_left_eq_some.mp h
  exact ⟨m,hm,Nat.le_of_not_lt hle,rfl⟩

def ShmBuffer.row (b : ShmBuffer) (y : Nat) : List Byte :=
  match b.pool.mmap with
  | some m => region m.mem (b.offset.toInt.toNat+y*asU32 b.stride) (asU32 b.width*4)
  | none => []

theorem shm_bytes {b : ShmBuffer} (h : b.bytes=some bytes) :
    bytes.length=asU32 b.height*asU32 b.stride ∧ bytes.length<0x80000000 ∧
    ∃ m,b.pool.mmap=some m ∧ bytes=region m.mem b.offset.toInt.toNat bytes.length := by
  obtain ⟨len,hlen,h⟩ := bind_eq_some_iff.mp h
  obtain ⟨m,hm,hle,rfl⟩ := withBytes_some h
  have hsmall:=m.small
  have hprod:=checkedMul_some hlen
  rw [region_length]
  refine ⟨?_,by omega,m,hm,rfl⟩
  rw [hprod]
  exact asUsize_product (by omega)

theorem shm_row {b : ShmBuffer} (h : b.bytes=some bytes)
    (hrow : asU32 b.height=0 ∨ asU32 b.width*4≤asU32 b.stride) (y : Nat) (hy : y<asU32 b.height) :
    rowAt bytes (asU32 b.stride) (asU32 b.width*4) y=b.row y := by
  obtain ⟨hlen,_,m,hm,hbytes⟩ := shm_bytes h
  have hle : (y+1)*asU32 b.stride≤asU32 b.height*asU32 b.stride := Nat.mul_le_mul_right _ hy
  rw [Nat.succ_mul] at hle
  rw [hbytes,rowAt_region _ _ _ _ (by omega),ShmBuffer.row,hm]

/-! ### The condition -/

/-- The task shows the rows of the buffer, if it carries pixels. -/
def RecordingTask.Shows (row : Nat → List Byte) : RecordingTask → Prop
  | .pixels out width height => IsPacked out (width*4) height row
  | .dmabuf => True

/-- The tap returns, and what it puts into the slot shows the buffer. -/
def Safe (run : Run (Option RecordingTask)) (row : Nat → List Byte) : Prop :=
  ∃ task,run=.ok task ∧ ∀ t∈task,t.Shows row

/-- Not read at all, or: the bytes of a row fit into 32 bits (in a build without
checks an empty picture will do) and into the stride. -/
def ShmBuffer.Sound (checks : Bool) (b : ShmBuffer) : Prop :=
  b.readable=none ∨
    ((asU32 b.width*4<0x100000000 ∨ (checks=false ∧ asU32 b.height=0)) ∧
      (asU32 b.height=0 ∨ asU32 b.width*4≤asU32 b.stride))

theorem safe_none (row : Nat → List Byte) : Safe (.ok none) row := ⟨none,rfl,fun _ ht => by cases ht⟩

theorem shm_run {checks : Bool} {b : ShmBuffer} (h : b.readable=some bytes) :
    readSurfaceBufferForRecording checks (.shm b) =
      (destrideBgra checks bytes (asU32 b.width) (asU32 b.height) (asU32 b.stride)).map fun pixels =>
        some (.pixels pixels (asU32 b.width) (asU32 b.height)) := by
  simp only [readSurfaceBufferForRecording,h]
  cases destrideBgra checks bytes (asU32 b.width) (asU32 b.height) (asU32 b.stride) <;> rfl

theorem safe_pixels {run : Run (List Byte)} {row : Nat → List Byte} :
    Safe (run.map fun pixels => some (.pixels pixels width height)) row ↔
      ∃ out,run=.ok out ∧ IsPacked out (width*4) height row := by
  constructor
  · rintro ⟨task,h,hshows⟩
    cases run with
    | error => cases h
    | ok out =>
      cases h
      exact ⟨out,rfl,hshows _ rfl⟩
  · rintro ⟨out,rfl,hpacked⟩
    refine ⟨_,rfl,fun t ht => ?_⟩
    cases ht
    exact hpacked

theorem shm_safe_iff (checks : Bool) (b : ShmBuffer) :
    Safe (readSurfaceBufferForRecording checks (.shm b)) b.row ↔ b.Sound checks := by
  cases hr : b.readable with
  | none =>
    simp only [readSurfaceBufferForRecording,hr]
    exact ⟨fun _ => .inl hr,fun _ => safe_none _⟩
  | some =>
    obtain ⟨_,hb⟩ := ite_none_left_eq_some.mp hr
    obtain ⟨hlen,hsmall,_⟩ := shm_bytes hb
    rw [shm_run hr,safe_pixels]
    have hsound : b.Sound checks ↔ ((asU32 b.width*4<0x100000000 ∨ (checks=false ∧ asU32 b.height=0)) ∧
        (asU32 b.height=0 ∨ asU32 b.width*4≤asU32 b.stride)) := by
      simp [ShmBuffer.Sound,hr]
    rw [hsound]
    by_cases hw : asU32 b.width*4<0x100000000
    · rw [destride_shows_iff checks hlen (by omega) hw]
      exact ⟨fun h => ⟨.inl hw,h.1⟩,fun h => ⟨h.2,shm_row hb h.2⟩⟩
    · cases checks with
      | true =>
        rw [destrideBgra,mulU32,if_neg hw]
        simp [hw,bind,Except.bind]
      | false =>
        constructor
        · rintro ⟨out,hout,hpacked⟩
          have hz : asU32 b.height=0 := by
            by_contra hh
            exact destride_wrapped_short hw (Nat.pos_of_ne_zero hh) hout hpacked.length
          exact ⟨.inr ⟨rfl,hz⟩,.inl hz⟩
        · rintro ⟨hz,_⟩
          have hz:=(hz.resolve_left hw).2
          refine ⟨[],?_,?_⟩
          · rw [destride_run (mulU32_wraps hw),hz,Nat.zero_mul,slice_take (Nat.zero_le _),copyRows]
            split <;> simp [orCrash]
          · rw [hz]
            exact .nil _ _

/-! ### Dmabufs -/

variable {d : Dmabuf} {r : Readback}

structure Dmabuf.Sized (d : Dmabuf) : Prop where
  width : 0<d.width.toInt ∧ d.width.toInt≤16384
  height : 0<d.height.toInt ∧ d.height.toInt≤16384

theorem finalizeParams_sized {params : Params} {width height : Int32} {format : Nat}
    (h : finalizeParams params width height format=.ok d) : d.Sized := by
  unfold finalizeParams at h
  repeat' split at h
  all_goals cases h
  next hlow hhigh _ _ _ _ _ _ _ =>
    unfold maxDmabufDim at hhigh
    have hw : 0<width.toInt ∧ width.toInt≤16384 := by omega
    have hh : 0<height.toInt ∧ height.toInt≤16384 := by omega
    exact ⟨hw,hh⟩

theorem Dmabuf.Sized.asU32_height (hd : d.Sized) : asUsize d.height=asU32 d.height := by
  have hh:=hd.height
  rw [asUsize_of_nonneg (by omega),asU32_of_nonneg (by omega)]

theorem Dmabuf.Sized.bounds (hd : d.Sized) :
    0<asU32 d.height ∧ asU32 d.height≤16384 ∧ asU32 d.width*4<0x100000000 := by
  have hw:=hd.width
  have hh:=hd.height
  rw [asU32_of_nonneg (by omega),asU32_of_nonneg (by omega)]
  omega

/-- It has the length that `destride_bgra` counts on, and, unless it came from EGL, row `y` starts at `y *
stride`. -/
structure Dmabuf.IsView (d : Dmabuf) (v : Source × List Byte) : Prop where
  length : v.2.length=asU32 d.height*d.stride.toNat
  rows : ∀ mem start pitch,v.1=.memory mem start pitch → asU32 d.width*4≤d.stride.toNat →
    ∀ y<asU32 d.height,rowAt v.2 d.stride.toNat (asU32 d.width*4) y=v.1.row (asU32 d.width) y

theorem memory_isView (mem : Nat → Byte) (start : Nat) (hlen : len=asU32 d.height*d.stride.toNat) :
    d.IsView (.memory mem start d.stride.toNat,region mem start len) where
  length := (region_length _ _ _).trans hlen
  rows := by
    intro mem' start' pitch' hsrc hw y hy
    have hle : (y+1)*d.stride.toNat≤asU32 d.height*d.stride.toNat := Nat.mul_le_mul_right _ hy
    rw [Nat.succ_mul] at hle
    exact rowAt_region mem start len y (by omega)

theorem readLen_some (h : d.readLen stride=some n) : n=asUsize d.height*stride ∧ n ≤ maxDmabufLen := by
  obtain ⟨m,hm,h⟩ := bind_eq_some_iff.mp h
  obtain ⟨hle,⟨⟩⟩ := ite_none_right_eq_some.mp h
  exact ⟨checkedMul_some hm,hle⟩

theorem readLen_stride (hd : d.Sized) (h : d.readLen (signExtended d.stride.toNat)=some n) :
    n=asU32 d.height*d.stride.toNat := by
  obtain ⟨hn,hle⟩ := readLen_some h
  rw [hd.asU32_height] at hn
  have hfactor : signExtended d.stride.toNat≤n := hn ▸ Nat.le_mul_of_pos_left _ hd.bounds.1
  have hsame : signExtended d.stride.toNat=d.stride.toNat := by
    by_cases hs : d.stride.toNat<0x80000000
    · exact if_pos hs
    · have hneg : signExtended d.stride.toNat=d.stride.toNat+0xFFFFFFFF00000000 := if_neg hs
      unfold maxDmabufLen at hle
      omega
  rw [hn,hsame]

theorem gbm_isView (hd : d.Sized) (h : d.gbmReadback r=.ok (some v)) : d.IsView v := by
  unfold Dmabuf.gbmReadback at h
  split at h
  · rename_i len pitch mem hlen _
    have hlen:=readLen_stride hd hlen
    split at h
    · cases h
    · rename_i mapLen hmap
      have hmap:=(readLen_some hmap).1
      rw [hd.asU32_height] at hmap
      obtain ⟨out,hout,h⟩ := bind_ok h
      cases h
      have hout:=orCrash_ok hout
      by_cases hpitch : pitch=d.stride
      · subst hpitch
        have hsame : mapLen=len := hmap.trans hlen.symm
        subst hsame
        rw [if_pos rfl,slice_take (region_length _ _ _).ge,List.take_of_length_le (region_length _ _ _).le] at hout
        cases hout
        exact memory_isView mem 0 hmap
      · rw [if_neg hpitch,hd.asU32_height] at hout
        obtain ⟨hb,hpacked⟩ := copyRows_some hout
        refine ⟨hpacked.length,?_⟩
        intro mem' start' pitch' hsrc hw y hy
        have hrow:=hpacked.row_eq y hy
        have hin:=hb y hy
        rw [region_length] at hin
        rw [Nat.zero_add] at hrow hin
        rw [rowAt_narrow hw,hrow,← rowAt_narrow hw]
        exact rowAt_region mem 0 mapLen y (by omega)
  · cases h

theorem egl_isView (hd : d.Sized) (h : d.eglReadback r=.ok (some v)) :
    d.IsView v ∧ ∃ pixel,v.1=.image pixel := by
  unfold Dmabuf.eglReadback at h
  repeat' split at h
  all_goals cases h
  next len pixel hlen _ hle =>
    have hlen:=readLen_stride hd hlen
    refine ⟨⟨?_,fun _ _ _ hsrc => by cases hsrc⟩,pixel,rfl⟩
    rw [List.length_append,List.length_replicate]
    omega

theorem unlessZero_isView {x : Option (Source × List Byte)} {y : Run (Option (Source × List Byte))}
    (h : unlessZero x y=.ok (some v)) (hx : ∀ w,x=some w → d.IsView w) (hy : y=.ok (some v) → d.IsView v) :
    d.IsView v := by
  unfold unlessZero at h
  repeat' split at h
  · cases h
    exact hx _ rfl
  · exact hy h
  · exact hy h

theorem gbmThenEgl_isView (hd : d.Sized) (h : d.gbmThenEgl r=.ok (some v)) : d.IsView v := by
  obtain ⟨w,hw,h⟩ := bind_ok h
  refine unlessZero_isView h (fun u hu => ?_) fun he => (egl_isView hd he).1
  exact gbm_isView hd (hu ▸ hw)

theorem drmThenGbm_isView (hd : d.Sized) (hlen : len=asU32 d.height*d.stride.toNat)
    (h : d.drmThenGbm r len=.ok (some v)) : d.IsView v := by
  unfold Dmabuf.drmThenGbm at h
  split at h
  · cases h
    exact memory_isView _ _ hlen
  · exact gbmThenEgl_isView hd h

theorem bytes_isView (hd : d.Sized) (h : d.bytes r=.ok (some v)) : d.IsView v := by
  unfold Dmabuf.bytes at h
  split at h
  · cases h
  rename_i len hlen
  have hlen:=checkedMul_some hlen
  rw [hd.asU32_height] at hlen
  split at h
  · exact (egl_isView hd h).1
  split at h
  · cases h
  · exact drmThenGbm_isView hd hlen h
  · refine unlessZero_isView h (fun w hw => ?_) fun h => unlessZero_isView h (fun w hw => ?_) ?_
    · cases hw
      exact memory_isView _ _ hlen
    · obtain ⟨mem,_,rfl⟩ := map_eq_some_iff.mp hw
      exact memory_isView _ _ hlen
    · exact drmThenGbm_isView hd hlen

def Dmabuf.row (d : Dmabuf) (r : Readback) (y : Nat) : List Byte :=
  match d.bytes r with
  | .ok (some (source,_)) => source.row (asU32 d.width) y
  | _ => []

/-- Nothing is read, or a row fits into the stride, and bytes from EGL have their rows where the stride has
them. -/
def Dmabuf.ReadSound (r : Readback) (d : Dmabuf) : Prop :=
  d.bytes r=.ok none ∨
    ∃ source raw,d.bytes r=.ok (some (source,raw)) ∧ asU32 d.width*4≤d.stride.toNat ∧
      ∀ pixel,source=.image pixel → ∀ y<asU32 d.height,
        rowAt raw d.stride.toNat (asU32 d.width*4) y=imageRow pixel (asU32 d.width) y

/-- The dmabuf goes to the encoder unread, or is dropped because of its fence, or
its readback is sound. -/
def Dmabuf.Sound (codec : RecordingCodec) (fenceReady : Bool) (r : Readback) (d : Dmabuf) : Prop :=
  (wantsDmabuf codec=true ∨ d.modifier≠0) ∨ (¬ needsNv12 codec=true ∧ ¬ fenceReady=true) ∨ d.ReadSound r

theorem view_rows (hv : d.IsView (source,raw)) (hw : asU32 d.width*4≤d.stride.toNat)
    (himage : ∀ pixel,source=.image pixel → ∀ y<asU32 d.height,
      rowAt raw d.stride.toNat (asU32 d.width*4) y=imageRow pixel (asU32 d.width) y) :
    ∀ y<asU32 d.height,rowAt raw d.stride.toNat (asU32 d.width*4) y=source.row (asU32 d.width) y := by
  intro y hy
  cases source with
  | memory mem start pitch => exact hv.rows mem start pitch rfl hw y hy
  | image pixel => exact himage pixel rfl y hy

theorem view_length_lt (hd : d.Sized) (hv : d.IsView v) : v.2.length<0x8000000000000000 := by
  have hle : asU32 d.height*d.stride.toNat≤16384*d.stride.toNat := Nat.mul_le_mul_right _ hd.bounds.2.1
  have hs:=d.stride.toNat_lt
  have heq:=hv.length
  omega

theorem cpuReadback_some {checks : Bool} (h : d.bytes r=.ok (some (source,raw))) :
    d.cpuReadback checks r =
      (destrideBgra checks raw (asU32 d.width) (asU32 d.height) d.stride.toNat).map fun pixels =>
        some (.pixels pixels (asU32 d.width) (asU32 d.height)) := by
  unfold Dmabuf.cpuReadback
  rw [h]
  show (destrideBgra checks raw (asU32 d.width) (asU32 d.height) d.stride.toNat >>= fun pixels => _)=_
  cases destrideBgra checks raw (asU32 d.width) (asU32 d.height) d.stride.toNat <;> rfl

theorem readSound_some (h : d.bytes r=.ok (some (source,raw))) :
    d.ReadSound r ↔ asU32 d.width*4≤d.stride.toNat ∧
      ∀ pixel,source=.image pixel → ∀ y<asU32 d.height,
        rowAt raw d.stride.toNat (asU32 d.width*4) y=imageRow pixel (asU32 d.width) y := by
  constructor
  · rintro (hn | ⟨source',raw',hs,hsound⟩)
    · rw [h] at hn
      cases hn
    · rw [h] at hs
      cases hs
      exact hsound
  · exact fun hsound => .inr ⟨source,raw,h,hsound⟩

theorem cpuReadback_safe_iff (checks : Bool) (hd : d.Sized) :
    Safe (d.cpuReadback checks r) (d.row r) ↔ d.ReadSound r := by
  cases hb : d.bytes r with
  | error c =>
    have hrun : d.cpuReadback checks r=.error c := by rw [Dmabuf.cpuReadback,hb]; rfl
    rw [hrun]
    constructor
    · rintro ⟨task,h,_⟩
      cases h
    · rintro (h | ⟨_,_,h,_⟩) <;> rw [hb] at h <;> cases h
  | ok v =>
    cases v with
    | none =>
      have hrun : d.cpuReadback checks r=.ok none := by rw [Dmabuf.cpuReadback,hb]; rfl
      rw [hrun]
      exact ⟨fun _ => .inl hb,fun _ => safe_none _⟩
    | some v =>
      obtain ⟨source,raw⟩ := v
      have hv:=bytes_isView hd hb
      have hlt : raw.length<0x8000000000000000 := view_length_lt hd hv
      obtain ⟨hpos,_,hwidth⟩ := hd.bounds
      have hrow : d.row r=source.row (asU32 d.width) := by
        funext y
        rw [Dmabuf.row,hb]
      rw [hrow,cpuReadback_some hb,safe_pixels,readSound_some hb,destride_shows_iff checks hv.length hlt hwidth]
      constructor
      · rintro ⟨hfits,hrows⟩
        refine ⟨hfits.resolve_left hpos.ne',?_⟩
        rintro pixel rfl
        exact hrows
      · rintro ⟨hfits,himage⟩
        exact ⟨.inr hfits,view_rows hv hfits himage⟩

theorem push_dmabuf (checks : Bool) (codec : RecordingCodec) (fenceReady : Bool) :
    pushFocusedBuffer checks codec fenceReady r (.dmabuf d) =
      if wantsDmabuf codec=true ∨ d.modifier≠0 then .ok (some .dmabuf)
      else if ¬ needsNv12 codec=true ∧ ¬ fenceReady=true then .ok none
      else d.cpuReadback checks r := rfl

theorem dmabuf_safe_iff (checks : Bool) (codec : RecordingCodec) (fenceReady : Bool) (hd : d.Sized) :
    Safe (pushFocusedBuffer checks codec fenceReady r (.dmabuf d)) (d.row r) ↔ d.Sound codec fenceReady r := by
  rw [push_dmabuf,Dmabuf.Sound]
  by_cases hwants : wantsDmabuf codec=true ∨ d.modifier≠0
  · rw [if_pos hwants]
    refine ⟨fun _ => .inl hwants,fun _ => ⟨_,rfl,fun t ht => ?_⟩⟩
    cases ht
    trivial
  rw [if_neg hwants]
  by_cases hgate : ¬ needsNv12 codec=true ∧ ¬ fenceReady=true
  · rw [if_pos hgate]
    exact ⟨fun _ => .inr (.inl hgate),fun _ => safe_none _⟩
  rw [if_neg hgate,cpuReadback_safe_iff checks hd]
  exact ⟨fun h => .inr (.inr h),fun h => (h.resolve_left hwants).resolve_left hgate⟩

theorem singlePixel_safe (checks : Bool) (b g r a : Byte) :
    Safe (readSurfaceBufferForRecording checks (.singlePixel (b,g,r,a))) fun _ => [b,g,r,a] := by
  obtain ⟨out,hout,hpacked⟩ : ∃ out,destrideBgra checks [b,g,r,a] 1 1 4=.ok out ∧
      IsPacked out (1*4) 1 (rowAt [b,g,r,a] 4 (1*4)) :=
    destride_packed checks rfl (by simp) (by decide) (.inr (Nat.le_refl _))
  refine ⟨some (.pixels out 1 1),?_,?_⟩
  · simp only [readSurfaceBufferForRecording,hout]
    rfl
  · intro t ht
    cases ht
    refine hpacked.congr fun y hy => ?_
    have hy : y=0 := by omega
    subst hy
    rfl

/-- The tap returns and shows the picture exactly for the buffers whose rows fit: of shared memory buffers,
and of the dmabufs that `finalize_params` accepts. The other two kinds are harmless. -/
theorem tap_reads_iff (checks : Bool) (codec : RecordingCodec) (fenceReady : Bool) (r : Readback) :
    (∀ b : ShmBuffer,Safe (pushFocusedBuffer checks codec fenceReady r (.shm b)) b.row ↔ b.Sound checks) ∧
    (∀ params width height format d,finalizeParams params width height format=.ok d →
      (Safe (pushFocusedBuffer checks codec fenceReady r (.dmabuf d)) (d.row r) ↔ d.Sound codec fenceReady r)) ∧
    (∀ blue green red alpha,Safe (pushFocusedBuffer checks codec fenceReady r
      (.singlePixel (blue,green,red,alpha))) fun _ => [blue,green,red,alpha]) ∧
    ∀ row,Safe (pushFocusedBuffer checks codec fenceReady r .invalid) row :=
  ⟨shm_safe_iff checks,fun _ _ _ _ _ h => dmabuf_safe_iff checks codec fenceReady (finalizeParams_sized h),
    singlePixel_safe checks,safe_none⟩

def silent : Readback := ⟨none,none,none,none,none⟩

def numbered (size : Int32) : Pool := Pool.new (some fun i => UInt8.ofNat i) size

/-- Two rows of one pixel, with four bytes between them. -/
theorem tap_reads_padded :
    Safe (pushFocusedBuffer true .ffv1 true silent (.shm ⟨numbered 16,0,1,2,8,.argb8888⟩))
      (ShmBuffer.row ⟨numbered 16,0,1,2,8,.argb8888⟩) ∧
    ∃ d,finalizeParams ⟨[(0,⟨0,8,0⟩)],false⟩ 1 2 0x34325241=.ok d ∧
      Safe (pushFocusedBuffer true .h264Vulkan true silent (.dmabuf d)) (d.row silent) :=
  ⟨((tap_reads_iff true .ffv1 true silent).1 _).mpr (.inr ⟨.inl (by decide),.inr (by decide)⟩),
    ⟨0,8,0,1,2,.argb8888⟩,rfl,
    ((tap_reads_iff true .h264Vulkan true silent).2.1 ⟨[(0,⟨0,8,0⟩)],false⟩ 1 2 0x34325241 _ rfl).mpr
      (.inl (.inl rfl))⟩

/-- Two pixels in a row and a stride of one: the copy leaves the slice in every build. A width of 2^30 is
checked in some builds only, and in the others gives a task without pixels. -/
theorem short_stride_crashes :
    pushFocusedBuffer false .ffv1 true silent (.shm ⟨numbered 16,0,2,1,4,.argb8888⟩)=.error .slice ∧
    (∃ d,finalizeParams ⟨[(0,⟨0,4,0⟩)],false⟩ 2 1 0x34325241=.ok d ∧
      pushFocusedBuffer false .ffv1 true {silent with map := some fun _ => 1} (.dmabuf d)=.error .slice) ∧
    pushFocusedBuffer true .ffv1 true silent (.shm ⟨numbered 16,0,0x40000000,1,0,.argb8888⟩) =
      .error .overflow ∧
    pushFocusedBuffer false .ffv1 true silent (.shm ⟨numbered 16,0,0x40000000,1,0,.argb8888⟩) =
      .ok (some (.pixels [] 0x40000000 1)) := by
  refine ⟨?_,⟨⟨0,4,0,2,1,.argb8888⟩,rfl,?_⟩,?_,?_⟩ <;> decide +kernel

end Waymux.Session.BufferReads
