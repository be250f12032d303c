import Waymux.Viewer.CudaEncoder

/-!
# The colour conversion kernel (`cuda_nv12_csc.cu`)

The stores of its threads, and where the launches of the recorder put them.
-/

namespace Waymux.Viewer.Nv12Kernel
open CudaEncoder List
open Framing.Integers (divCeil divCeil_toNat)

structure Rgb where
  r : UInt8
  g : UInt8
  b : UInt8
  deriving DecidableEq

/- A texel as `tex2D` gives it: the bytes of a pixel in their order. -/
structure Uchar4 where
  x : UInt8
  y : UInt8
  z : UInt8
  w : UInt8
  deriving DecidableEq

/- How the kernel reads a texel. -/
def Uchar4.rgb (p : Uchar4) : Rgb := ⟨p.z,p.y,p.x⟩

/- `as i32` -/
def asI32 (n : UInt32) : Int := if n.toNat<0x80000000 then n.toNat else n.toNat-0x100000000

/- An offset in the arithmetic of `size_t`. -/
def sizeT (i : Int) : Nat := (i%0x10000000000000000).toNat

def clampb (v : Int) : UInt8 := UInt8.ofNat (if v<0 then 0 else if v>255 then 255 else v).toNat

/- The pixels of a thread's block that are in the frame. -/
def blockAt (width height : Int) (bx row : Nat) : List (Nat × Nat) :=
  [(2*bx,2*row),(2*bx+1,2*row),(2*bx,2*row+1),(2*bx+1,2*row+1)].filter
    fun p => p.1<width ∧ p.2<height

def lumaByte (p : Rgb) : UInt8 :=
  clampb (((47*p.r.toNat+157*p.g.toNat+16*p.b.toNat+128 : Int) >>> (8 : Nat))+16)

def average (ps : List Rgb) (c : Rgb → UInt8) : Int :=
  (ps.foldl (fun s p => s+(c p).toNat) 0+ps.length/2)/ps.length

def cbByte (ps : List Rgb) : UInt8 :=
  clampb (((-26*average ps Rgb.r-87*average ps Rgb.g+112*average ps Rgb.b+128) >>> (8 : Nat))+128)

def crByte (ps : List Rgb) : UInt8 :=
  clampb (((112*average ps Rgb.r-102*average ps Rgb.g-10*average ps Rgb.b+128) >>> (8 : Nat))+128)

/- One thread: what it stores, by the offset from `dst`. -/
def argbToNv12Bt709 (src : Nat → Nat → Rgb) (width height pitch : Int) (bx row : Nat) : List (Nat × UInt8) :=
  if 2*bx≥width ∨ 2*row≥height then []
  else
    let block:=blockAt width height bx row
    let pixels:=block.map fun p => src p.1 p.2
    let uvrow:=pitch*height+row*pitch+bx*2
    block.map (fun p => (sizeT (p.2*pitch+p.1),lumaByte (src p.1 p.2))) ++
      [(sizeT uvrow,cbByte pixels),(sizeT (uvrow+1),crByte pixels)]

/-- Some thread of the launch, in blocks of sixteen by sixteen, stores the byte. -/
def Stores (l : Launch) (src : Nat → Nat → Rgb) (i : Nat) (v : UInt8) : Prop :=
  ∃ bx row,bx<16*l.gx.toNat ∧ row<16*l.gy.toNat ∧
    (i,v)∈argbToNv12Bt709 src (asI32 l.width) (asI32 l.height) (asI32 l.pitch) bx row

theorem mem_blockAt {width height : Int} {bx row : Nat} {p : Nat × Nat} :
    p∈blockAt width height bx row ↔ p.1/2=bx ∧ p.2/2=row ∧ p.1<width ∧ p.2<height := by
  obtain ⟨x,y⟩ := p
  simp only [blockAt,mem_filter,mem_cons,not_mem_nil,or_false,Prod.mk.injEq,decide_eq_true_eq]
  omega

def chromaByte (ps : List Rgb) (e : Nat) : UInt8 := if e=0 then cbByte ps else crByte ps

/-- What a thread stores: the luma of its pixels and the chroma of its block. -/
theorem mem_thread {src : Nat → Nat → Rgb} {width height pitch : Int} {bx row i : Nat} {v : UInt8} :
    (i,v)∈argbToNv12Bt709 src width height pitch bx row ↔
      (∃ x y : Nat,x/2=bx ∧ y/2=row ∧ x<width ∧ y<height ∧ i=sizeT (y*pitch+x) ∧
          v=lumaByte (src x y)) ∨
        2*bx<width ∧ 2*row<height ∧ ∃ e<2,i=sizeT ((height+row)*pitch+(2*bx+e : Nat)) ∧
          v=chromaByte ((blockAt width height bx row).map fun p => src p.1 p.2) e := by
  have hpos : ∀ e : Nat,pitch*height+row*pitch+bx*2+e=(height+row)*pitch+(2*bx+e : Nat) := by
    intro e
    rw [Int.add_mul,Int.mul_comm pitch]
    omega
  unfold argbToNv12Bt709
  split
  next hout =>
    simp only [not_mem_nil,false_iff]
    rintro (⟨x,y,hx,hy,hxw,hyh,-⟩ | ⟨hbx,hrow,-⟩) <;> omega
  next hin =>
    have h0:=hpos 0
    have h1:=hpos 1
    simp only [Int.natCast_zero,Int.add_zero,Int.natCast_one] at h0 h1
    simp only [h1]
    simp only [h0,mem_append,mem_map,mem_cons,not_mem_nil,or_false,Prod.mk.injEq,
      mem_blockAt,Prod.exists]
    refine or_congr ?_ ?_
    · constructor
      · rintro ⟨x,y,⟨hx,hy,hxw,hyh⟩,rfl,rfl⟩
        exact ⟨x,y,hx,hy,hxw,hyh,rfl,rfl⟩
      · rintro ⟨x,y,hx,hy,hxw,hyh,rfl,rfl⟩
        exact ⟨x,y,⟨hx,hy,hxw,hyh⟩,rfl,rfl⟩
    · constructor
      · rintro (⟨rfl,rfl⟩ | ⟨rfl,rfl⟩)
        · exact ⟨by omega,by omega,0,by omega,rfl,rfl⟩
        · exact ⟨by omega,by omega,1,by omega,rfl,rfl⟩
      · rintro ⟨-,-,e,he,rfl,rfl⟩
        obtain rfl | rfl : e=0 ∨ e=1 := by omega
        · exact .inl ⟨rfl,rfl⟩
        · exact .inr ⟨rfl,rfl⟩

theorem asI32_small {u : UInt32} (h : u.toNat<0x80000000) : asI32 u=u.toNat := if_pos h

theorem lt_asI32 {n : Nat} {u : UInt32} (h : (n : Int)<asI32 u) : n<u.toNat ∧ asI32 u=u.toNat := by
  have hu:=u.toNat_lt
  unfold asI32 at h ⊢
  split <;> split at h <;> omega

theorem asI32_lt {n : Nat} {u : UInt32} (h : asI32 u=n) : n<0x80000000 := by
  have hu:=u.toNat_lt
  unfold asI32 at h
  split at h <;> omega

theorem sizeT_le (n : Nat) : sizeT n≤n := by
  unfold sizeT
  omega

theorem sizeT_row {k p c : Nat} (hk : k<0x100000000) (hp : p<0x80000000) (hc : c<p) :
    sizeT (k*p+c)=k*p+c := by
  have hle : k*p≤0x100000000*0x80000000 := Nat.mul_le_mul (Nat.le_of_lt hk) (Nat.le_of_lt hp)
  unfold sizeT
  omega

theorem row_div {k c p : Nat} (hc : c<p) : (k*p+c)/p=k ∧ (k*p+c)%p=c := by
  rw [Nat.mul_add_mod_self_right,Nat.mod_eq_of_lt hc,Nat.add_comm,Nat.add_mul_div_right _ _ (by omega),
    Nat.div_eq_of_lt hc,Nat.zero_add]
  exact ⟨rfl,rfl⟩

theorem row_unique {a b c d p : Nat} (hb : b<p) (hd : d<p) (h : a*p+b=c*p+d) : a=c ∧ b=d := by
  obtain ⟨hdiv,hmod⟩ := row_div (k := a) hb
  rw [h,(row_div hd).1] at hdiv
  rw [h,(row_div hd).2] at hmod
  exact ⟨hdiv.symm,hmod.symm⟩

/-- The kernel is given these sizes, and threads for half of them in blocks of
sixteen, the halves rounded down. -/
structure Fits (l : Launch) (w h p : Nat) : Prop where
  width : asI32 l.width=w
  height : asI32 l.height=h
  pitch : asI32 l.pitch=p
  wide : 2*((w+1)/2)≤p
  gx : l.gx.toNat=(w/2+15)/16
  gy : l.gy.toNat=(h/2+15)/16

/-- What is stored in column `c` of row `k`: the luma of the pixel there, or a
chroma byte of a block. -/
theorem stores_iff {l : Launch} {src : Nat → Nat → Rgb} {w h p k c : Nat} {v : UInt8} (hl : Fits l w h p)
    (hc : c<p) : Stores l src (k*p+c) v ↔
      (c/2<16*((w/2+15)/16) ∧ k/2<16*((h/2+15)/16) ∧ c<w ∧ k<h ∧
          v=lumaByte (src c k)) ∨
        ∃ row,k=h+row ∧ c/2<16*((w/2+15)/16) ∧ row<16*((h/2+15)/16) ∧
          2*(c/2)<w ∧ 2*row<h ∧
          v=chromaByte ((blockAt w h (c/2) row).map fun p => src p.1 p.2) (c%2) := by
  obtain ⟨hw,hh,hp,hwide,hgx,hgy⟩ := hl
  have hhlt:=asI32_lt hh
  have hplt:=asI32_lt hp
  simp only [Stores,hw,hh,hp,hgx,hgy,mem_thread]
  constructor
  · rintro ⟨bx,row,hbx,hrow,⟨x,y,rfl,rfl,hx,hy,hi,rfl⟩ | ⟨hx,hy,e,he,hi,rfl⟩⟩
    · rw [sizeT_row (by omega) hplt (by omega)] at hi
      obtain ⟨rfl,rfl⟩ := row_unique hc (by omega) hi
      exact .inl ⟨hbx,hrow,by omega,by omega,rfl⟩
    · rw [← Int.natCast_add,sizeT_row (by omega) hplt (by omega)] at hi
      obtain ⟨rfl,rfl⟩ := row_unique hc (by omega) hi
      have hdiv : (2*bx+e)/2=bx := by omega
      have hmod : (2*bx+e)%2=e := by omega
      rw [hdiv,hmod]
      exact .inr ⟨row,rfl,hbx,hrow,by omega,by omega,rfl⟩
  · rintro (⟨hbx,hrow,hx,hy,rfl⟩ | ⟨row,rfl,hbx,hrow,hx,hy,rfl⟩)
    · refine ⟨c/2,k/2,hbx,hrow,.inl ⟨c,k,rfl,rfl,by omega,by omega,?_,rfl⟩⟩
      rw [sizeT_row (by omega) hplt hc]
    · refine ⟨c/2,row,hbx,hrow,.inr ⟨by omega,by omega,c%2,by omega,?_,rfl⟩⟩
      rw [Nat.div_add_mod c 2,← Int.natCast_add,sizeT_row (by omega) hplt hc]

variable {a : Answers} {r r' : Recorder} {l : Launch} {t : Tick} {w ht h : UInt32} {pts : Int} {idr : Bool}

theorem nvenc_no_launch : Call.launchKernel l∉(nvencEncodeCurrentNv12 a r w ht idr pts).2 := by
  unfold nvencEncodeCurrentNv12
  extract_lets register
  cases a.nvLock <;> split_ifs <;> simp [register]

/-- The size of the frame that is converted. -/
def size (r : Recorder) : Task → Option (UInt32 × UInt32)
  | .dmabuf frame => some (frame.width,frame.height)
  | .pixels width height => some (min width r.width,min height r.height)
  | .again => none

theorem encodeFromCuarray_launch
    (hl : Call.launchKernel l∈(encodeFromCuarray a r w ht pts idr).calls) :
    l=launchFor r w ht ∧ r.cscLoaded=true ∧ w≤r.width ∧ ht≤r.height := by
  unfold encodeFromCuarray at hl
  extract_lets launch at hl
  by_cases hcsc : (!r.cscLoaded)=true
  · rw [if_pos hcsc] at hl
    cases hl
  rw [if_neg hcsc] at hl
  by_cases hsafe : (safeEncodeDims w ht 0 r.width r.height r.nv12Pitch).isNone=true
  · rw [if_pos hsafe] at hl
    cases hl
  have heq : l=launchFor r w ht := by
    have hno:=@nvenc_no_launch a r l w ht pts idr
    split_ifs at hl
    · simp at hl
    all_goals simpa [launch,hno] using hl
  rw [safeEncodeDims_isNone,not_or,not_or] at hsafe
  exact ⟨heq,by simpa using hcsc,UInt32.not_lt.mp hsafe.1,UInt32.not_lt.mp hsafe.2.1⟩

theorem grid_toNat (n : UInt32) : (divCeil (n/2) 16).toNat=(n.toNat/2+15)/16 := by
  rw [divCeil_toNat _ _ (by decide),UInt32.toNat_div]
  rfl

theorem launchFor_grid (r : Recorder) (w h : UInt32) : (launchFor r w h).gx.toNat=(w.toNat/2+15)/16 ∧
    (launchFor r w h).gy.toNat=(h.toNat/2+15)/16 := ⟨grid_toNat w,grid_toNat h⟩

/-- A launch is for the frame of its tick, which is within the recorder's size. -/
theorem encode_launch (hl : Call.launchKernel l∈(t.encode r).calls) :
    ∃ w h,size r t.task=some (w,h) ∧ l=launchFor r w h ∧ r.cscLoaded=true ∧ w≤r.width ∧ h≤r.height := by
  unfold Tick.encode at hl
  cases ht : t.task with
  | dmabuf =>
    simp only [ht,encodeDmabuf,apply_ite Encoded.calls] at hl
    split_ifs at hl
    · cases hl
    · simp at hl
    · simp at hl
    · simp at hl
    · exact ⟨_,_,rfl,encodeFromCuarray_launch (by simpa using hl)⟩
  | pixels =>
    simp only [ht,encodePixels,apply_ite Encoded.calls] at hl
    split_ifs at hl
    · cases hl
    · simp at hl
    · simp at hl
    · simp at hl
    · exact ⟨_,_,rfl,encodeFromCuarray_launch (r := {r with hasInput := true}) (by simpa using hl)⟩
    · exact ⟨_,_,rfl,encodeFromCuarray_launch (r := {r with hasInput := true}) (by simpa using hl)⟩
  | again =>
    simp only [ht,reencodeLast,apply_ite Encoded.calls] at hl
    split_ifs at hl
    · cases hl
    · exact absurd hl nvenc_no_launch

theorem encodeFromCuarray_success (h : (encodeFromCuarray a r w ht pts idr).nal.isSome=true) :
    Call.launchKernel (launchFor r w ht)∈(encodeFromCuarray a r w ht pts idr).calls ∧
      (encodeFromCuarray a r w ht pts idr).recorder.hasEncoded=true := by
  unfold encodeFromCuarray at h ⊢
  split_ifs at h ⊢
  all_goals first | cases h | skip
  exact ⟨by simp,by simp [h]⟩

/-- A frame that was encoded was converted by a launch of its own. -/
theorem encode_success (hsize : size r t.task=some (w,h))
    (hs : (t.encode r).nal.isSome=true) :
    Call.launchKernel (launchFor r w h)∈(t.encode r).calls ∧ (t.encode r).recorder.hasEncoded=true := by
  unfold Tick.encode at hs ⊢
  cases ht : t.task with
  | dmabuf =>
    rw [ht] at hsize
    cases hsize
    simp only [ht,encodeDmabuf] at hs ⊢
    split_ifs at hs ⊢
    all_goals first | cases hs | skip
    obtain ⟨hl,he⟩ := encodeFromCuarray_success hs
    exact ⟨by simp [hl],he⟩
  | pixels =>
    rw [ht] at hsize
    cases hsize
    simp only [ht,encodePixels] at hs ⊢
    split_ifs at hs ⊢
    all_goals first | cases hs | skip
    all_goals
      obtain ⟨hl,he⟩ := encodeFromCuarray_success (r := {r with hasInput := true}) hs
      exact ⟨mem_append_right _ hl,he⟩
  | again =>
    rw [ht] at hsize
    cases hsize

/-- Rows of `pitch` bytes: a place in one of the first `n` is inside `n` rows. -/
theorem row_inside {row col pitch n : Nat} (hr : row<n) (hc : col<pitch) : row*pitch+col<pitch*n := by
  calc row*pitch+col<(row+1)*pitch := by rw [Nat.succ_mul]; omega
    _≤n*pitch := Nat.mul_le_mul_right pitch hr
    _=pitch*n := Nat.mul_comm n pitch

theorem pitch_le (hr : r.width.toNat≤0xFFFFFF00) :
    ∃ q,r.nv12Pitch.toNat=256*q ∧ r.width.toNat≤256*q ∧ 256*q<r.width.toNat+256 := by
  refine ⟨(r.width.toNat+255)/256,?_,by omega,by omega⟩
  rw [r.pitch_eq,nv12PitchOf_toNat]
  omega

theorem stores_inside (hr : r.width.toNat≤0x7FFFFF00) (hw : w≤r.width) (hh : h≤r.height)
    {src : Nat → Nat → Rgb} {i : Nat} {v : UInt8} (hi : Stores (launchFor r w h) src i v) : i<r.nv12Bytes := by
  have hw:=UInt32.le_iff_toNat_le.mp hw
  have hh:=UInt32.le_iff_toNat_le.mp hh
  obtain ⟨q,hq,hle,hlt⟩ := pitch_le (r := r) (by omega)
  have hpitch:=asI32_small (u := r.nv12Pitch) (by omega)
  rw [r.bytes_eq]
  obtain ⟨bx,row,-,-,hst⟩ := hi
  simp only [launchFor,frameLaunch,hpitch] at hst
  obtain ⟨x,y,-,-,hx,hy,rfl,-⟩ | ⟨hx,hy,e,he,rfl,-⟩ := mem_thread.mp hst
  · have hx:=lt_asI32 hx
    have hy:=lt_asI32 hy
    have hin:=@row_inside y x r.nv12Pitch.toNat (r.height.toNat+(r.height.toNat+1)/2) (by omega) (by omega)
    have hat:=sizeT_le (y*r.nv12Pitch.toNat+x)
    push_cast at hat
    omega
  · have hx:=lt_asI32 (n := 2*bx) (by push_cast; omega)
    have hy:=lt_asI32 (n := 2*row) (by push_cast; omega)
    have hin:=@row_inside (h.toNat+row) (2*bx+e) r.nv12Pitch.toNat
      (r.height.toNat+(r.height.toNat+1)/2) (by omega) (by omega)
    have hat:=sizeT_le ((h.toNat+row)*r.nv12Pitch.toNat+(2*bx+e))
    rw [hy.2]
    push_cast at hat ⊢
    omega

theorem SameSize.pitch (h : r.SameSize r') : r'.nv12Pitch=r.nv12Pitch := by
  rw [r'.pitch_eq,r.pitch_eq,h.1]

theorem SameSize.bytes (h : r.SameSize r') : r'.nv12Bytes=r.nv12Bytes := by
  rw [r'.bytes_eq,r.bytes_eq,SameSize.pitch h,h.2]

/-- NVENC opens no session beyond the largest picture it encodes (`NV_ENC_CAPS_WIDTH_MAX` and
`NV_ENC_CAPS_HEIGHT_MAX`, not above 8192 on any card). -/
def Driver.Bounded (d : Driver) : Prop := ∀ w h,d.nvenc w h=true → w.toNat≤8192 ∧ h.toNat≤8192

theorem tryNew_bounded {d : Driver} (hd : Driver.Bounded d) {width height : UInt32}
    (hnew : tryNew d width height=some r) : r.width.toNat≤8192 ∧ r.height.toNat≤8192 := by
  obtain ⟨hw,hh⟩ := tryNew_size hnew
  rw [hw,hh]
  refine hd width height ?_
  cases hopen : d.nvenc width height with
  | true => rfl
  | false => simp [tryNew,hopen] at hnew

/-- Whatever the recorder's size and the frames before, the launch for a frame that passes the checks stores only
inside the buffer, also for odd sizes. -/
theorem launches_inside {d : Driver} (hd : Driver.Bounded d) {width height : UInt32} {r₀ : Recorder}
    (hnew : tryNew d width height=some r₀) (ticks : List Tick) (t : Tick) (l : Launch)
    (hl : Call.launchKernel l∈(t.encode (after r₀ ticks)).calls) (src : Nat → Nat → Rgb) (i : Nat) (v : UInt8)
    (hst : Stores l src i v) : i<r₀.nv12Bytes := by
  obtain ⟨hwidth,-⟩ := tryNew_bounded hd hnew
  have hsame:=after_size (r := r₀) ticks
  rw [← SameSize.bytes hsame]
  rw [← hsame.1] at hwidth
  obtain ⟨w,h,-,rfl,-,hw,hh⟩ := encode_launch hl
  exact stores_inside (by omega) hw hh hst

def granting : Driver := ⟨true,true,true,fun w h => w≤4096 && h≤4096,fun n => n<0x10000000000⟩

def frameOf (width height : UInt32) : Tick := ⟨.dmabuf ⟨7,0,width,height,4*width⟩,obliging,0,true⟩

/-- An odd frame, whose last blocks are cut off. -/
theorem launches_inside_full_hd : Driver.Bounded granting ∧ ∃ r₀,tryNew granting 1919 1079=some r₀ ∧
    Call.launchKernel (launchFor r₀ 3 3)∈((frameOf 3 3).encode (after r₀ [])).calls ∧
    (∃ v,Stores (launchFor r₀ 3 3) (fun _ _ => ⟨0,0,0⟩) 0 v) ∧
    ∀ src i v,Stores (launchFor r₀ 3 3) src i v → i<r₀.nv12Bytes := by
  have hd : Driver.Bounded granting := by
    intro w h hwh
    have hsmall : w≤4096 ∧ h≤4096 := by simpa [granting] using hwh
    have hw:=UInt32.le_iff_toNat_le.mp hsmall.1
    have hh:=UInt32.le_iff_toNat_le.mp hsmall.2
    simp only [UInt32.reduceToNat] at hw hh
    omega
  refine ⟨hd,_,rfl,by decide,⟨16,0,0,by decide,by decide,by decide⟩,fun src i v hst => ?_⟩
  exact @launches_inside granting hd 1919 1079 _ rfl [] (frameOf 3 3) _ (by decide) src i v hst

/-- Every byte of the frame, where an encoder that reads it with this pitch finds
it, was stored by the launch. -/
structure Covers (l : Launch) (pitch w h : Nat) : Prop where
  luma : ∀ src,∀ x<w,∀ y<h,x<pitch ∧ ∃ v,Stores l src (y*pitch+x) v
  chroma : ∀ src,∀ bx<(w+1)/2,∀ row<(h+1)/2,∀ e<2,∃ v,
    Stores l src ((h+row)*pitch+(2*bx+e)) v

/-- Every block of the frame has a thread. -/
def Whole (w h : UInt32) : Prop := 0<w.toNat → 0<h.toNat → w.toNat%32≠1 ∧ h.toNat%32≠1

theorem launchFor_fits (hr : r.width.toNat≤0x7FFFFF00) (hw : w.toNat≤r.width.toNat)
    (hh : h.toNat<0x80000000) : Fits (launchFor r w h) w.toNat h.toNat r.nv12Pitch.toNat := by
  obtain ⟨hgx,hgy⟩ := launchFor_grid r w h
  obtain ⟨q,hq,hle,hlt⟩ := pitch_le (r := r) (by omega)
  have hwl : w.toNat<0x80000000 := by omega
  have hpl : r.nv12Pitch.toNat<0x80000000 := by omega
  exact ⟨asI32_small hwl,asI32_small hh,asI32_small hpl,by omega,hgx,hgy⟩

theorem covers_iff (hr : r.width.toNat≤0x7FFFFF00) (hw : w.toNat≤r.width.toNat)
    (hh : h.toNat<0x80000000) : Covers (launchFor r w h) r.nv12Pitch.toNat w.toNat h.toNat ↔ Whole w h := by
  have hfits:=launchFor_fits hr hw hh
  have hwide:=hfits.wide
  constructor
  · intro hc hw0 hh0
    obtain ⟨-,v,hv⟩ := hc.luma (fun _ _ => ⟨0,0,0⟩) (w.toNat-1) (by omega) 0 hh0
    obtain ⟨-,v',hv'⟩ := hc.luma (fun _ _ => ⟨0,0,0⟩) 0 hw0 (h.toNat-1) (by omega)
    obtain ⟨hx,-⟩ | ⟨row,hrow,-⟩ := (stores_iff hfits (by omega)).mp hv
    · obtain ⟨-,hy,-⟩ | ⟨row,hrow,-⟩ := (stores_iff hfits (by omega)).mp hv' <;> omega
    · omega
  · intro hwhole
    constructor
    · intro src x hx y hy
      obtain ⟨hmw,hmh⟩ := hwhole (by omega) (by omega)
      exact ⟨by omega,_,(stores_iff hfits (by omega)).mpr (.inl ⟨by omega,by omega,hx,hy,rfl⟩)⟩
    · intro src bx hbx row hrow e he
      obtain ⟨hmw,hmh⟩ := hwhole (by omega) (by omega)
      exact ⟨_,(stores_iff hfits (by omega)).mpr (.inr ⟨row,rfl,by omega,by omega,by omega,by omega,rfl⟩)⟩

/-- Frames encoded one after the other, each with success. -/
def Successful : Recorder → List Tick → Prop
  | _, [] => True
  | r, t::ts => (size r t.task).isSome=true ∧ (t.encode r).nal.isSome=true ∧ Successful (t.encode r).recorder ts

/-- Each frame is converted whole by its own launch. -/
def Drawn : Recorder → List Tick → Prop
  | _, [] => True
  | r, t::ts => (∃ l w h,Call.launchKernel l∈(t.encode r).calls ∧ size r t.task=some (w,h) ∧
      Covers l r.nv12Pitch.toNat w.toNat h.toNat) ∧ Drawn (t.encode r).recorder ts

theorem size_congr (h : r.SameSize r') : size r'=size r := by
  funext task
  cases task <;> simp [size,h.1,h.2]

theorem drawn_iff (hr : r.width.toNat≤0x7FFFFF00) (hrh : r.height.toNat<0x80000000) {ts : List Tick}
    (hs : Successful r ts) : Drawn r ts ↔ ∀ u∈ts,∀ w h,size r u.task=some (w,h) → Whole w h := by
  induction ts generalizing r with
  | nil => exact ⟨fun _ u hu => absurd hu not_mem_nil,fun _ => trivial⟩
  | cons t ts ih =>
    obtain ⟨hsize,hnal,hs⟩ := hs
    obtain ⟨⟨w,h⟩,hsize⟩ := Option.isSome_iff_exists.mp hsize
    have hsame:=t.encode_size (r := r)
    have hl:=(encode_success hsize hnal).1
    obtain ⟨w₁,h₁,hsize₁,-,-,hw,hh⟩ := encode_launch hl
    cases hsize.symm.trans hsize₁
    have hw:=UInt32.le_iff_toNat_le.mp hw
    have hh:=UInt32.le_iff_toNat_le.mp hh
    have hcovers:=covers_iff hr hw (by omega : h.toNat<0x80000000)
    have hhead : (∃ l w h,Call.launchKernel l∈(t.encode r).calls ∧ size r t.task=some (w,h) ∧
        Covers l r.nv12Pitch.toNat w.toNat h.toNat) ↔ ∀ w h,size r t.task=some (w,h) → Whole w h := by
      constructor
      · rintro ⟨l,w',h',hl',hsize',hc⟩ w'' h'' hsize''
        obtain ⟨w₁,h₁,hsize₁,rfl,-⟩ := encode_launch hl'
        cases hsize.symm.trans hsize'
        cases hsize.symm.trans hsize''
        cases hsize.symm.trans hsize₁
        exact hcovers.mp hc
      · intro hwhole
        exact ⟨_,w,h,hl,hsize,hcovers.mpr (hwhole w h hsize)⟩
    rw [Drawn,hhead,ih (hsame.1 ▸ hr) (hsame.2 ▸ hrh) hs,size_congr hsame,forall_mem_cons]

theorem successful_last {ts : List Tick} (hs : Successful r (ts++[t])) :
    (size (after r ts) t.task).isSome=true ∧ (t.encode (after r ts)).nal.isSome=true := by
  induction ts generalizing r with
  | nil => exact ⟨hs.1,hs.2.1⟩
  | cons u ts ih => exact ih hs.2.2

theorem mem_registered {w' h' p' : UInt32} (ha : a.nvSlots=true) :
    Call.nvRegister w' h' p'∈(nvencEncodeCurrentNv12 a r w h idr pts).2 ↔
      w'=w ∧ h'=h ∧ p'=r.nv12Pitch := by
  unfold nvencEncodeCurrentNv12
  extract_lets register
  cases a.nvLock <;> split_ifs <;> simp_all [register]

/-- The encoder is given the picture just when every frame was converted whole and the last one has the size
of the recorder. -/
theorem encoder_input_iff (r : Recorder) (hr : r.width.toNat≤0x7FFFFF00) (hrh : r.height.toNat<0x80000000)
    (ticks : List Tick) (t : Tick) (hs : Successful r (ticks++[t])) (a : Answers) (ha : a.nvSlots=true) (pts : Int)
    (idr : Bool) :
    (Drawn r (ticks++[t]) ∧ ∃ l,Call.launchKernel l∈(t.encode (after r ticks)).calls ∧
      Call.nvRegister l.width l.height l.pitch∈(reencodeLast a (after r (ticks++[t])) pts idr).calls) ↔
    (∀ u∈ticks++[t],∀ w h,size r u.task=some (w,h) → Whole w h) ∧
      size r t.task=some (r.width,r.height) := by
  have hafter : after r (ticks++[t])=(t.encode (after r ticks)).recorder := by
    rw [CudaEncoder.after,foldl_append]
    rfl
  have hsame:=after_size (r := r) ticks
  have hsame':=(t.encode_size (r := after r ticks))
  obtain ⟨hsize,hnal⟩ := successful_last hs
  obtain ⟨⟨w,h⟩,hsize⟩ := Option.isSome_iff_exists.mp hsize
  obtain ⟨hl,henc⟩ := encode_success hsize hnal
  rw [drawn_iff hr hrh hs,hafter,reencodeLast,henc]
  rw [size_congr hsame] at hsize
  simp only [Bool.not_true,Bool.false_eq_true,↓reduceIte,mem_registered ha,hsize,hsame'.1,hsame'.2,hsame.1,
    hsame.2]
  refine and_congr_right fun _ => ?_
  constructor
  · rintro ⟨l,hl',hw,hh,-⟩
    obtain ⟨w',h',hsize',rfl,-⟩ := encode_launch hl'
    rw [size_congr hsame,hsize] at hsize'
    cases hsize'
    rw [← hw,← hh]
    rfl
  · intro heq
    cases heq
    exact ⟨_,hl,rfl,rfl,(SameSize.pitch hsame').symm⟩

def recorder64 : Recorder := ⟨64,48,256,18432,true,false,false,false,by decide,by decide⟩

/-- A small frame, then one of the recorder's size, which is encoded again. -/
theorem encoder_input_full_size :
    tryNew granting 64 48=some recorder64 ∧ Drawn recorder64 [frameOf 34 20,frameOf 64 48] ∧
    ∃ l,Call.launchKernel l∈((frameOf 64 48).encode (after recorder64 [frameOf 34 20])).calls ∧
      Call.nvRegister l.width l.height l.pitch ∈
        (reencodeLast obliging (after recorder64 [frameOf 34 20,frameOf 64 48]) 0 true).calls := by
  have hsuccess : Successful recorder64 [frameOf 34 20,frameOf 64 48] := ⟨rfl,rfl,rfl,rfl,trivial⟩
  have hiff:=encoder_input_iff recorder64 (by decide) (by decide) [frameOf 34 20] _ hsuccess obliging rfl 0 true
  refine ⟨by decide,hiff.mpr ⟨?_,rfl⟩⟩
  intro u hu w h hsize
  rcases mem_cons.mp hu with rfl | hu
  · cases hsize
    exact fun _ _ => by decide
  · cases mem_singleton.mp hu
    cases hsize
    exact fun _ _ => by decide

/-- The last of 33 columns has no thread, and the frame is encoded again as one of 64. -/
theorem last_column_left_out :
    tryNew granting 64 48=some recorder64 ∧ Successful recorder64 [frameOf 33 48] ∧
    ¬Drawn recorder64 [frameOf 33 48] ∧
    Call.launchKernel (launchFor recorder64 33 48)∈((frameOf 33 48).encode recorder64).calls ∧
    Call.nvRegister 33 48 256∉(reencodeLast obliging (after recorder64 [frameOf 33 48]) 0 true).calls := by
  have hsuccess : Successful recorder64 [frameOf 33 48] := ⟨rfl,rfl,trivial⟩
  refine ⟨by decide,hsuccess,fun hdrawn => ?_,by decide,by decide⟩
  have hwhole:=(drawn_iff (by decide) (by decide) hsuccess).mp hdrawn _ mem_cons_self 33 48 rfl (by decide) (by decide)
  exact hwhole.1 (by decide)

end Waymux.Viewer.Nv12Kernel
