import Waymux.Viewer.Nv12Kernel

/-!
# BGRA to NV12 on the CPU (`bgra_to_nv12`, `recording.rs`)
-/

namespace Waymux.Recording.Nv12
open Viewer.CudaEncoder Viewer.Nv12Kernel List

/- A pixel of an image with `w` pixels of four bytes in a row. -/
def pixelAt (src : List UInt8) (w x y : Nat) : Rgb :=
  let i:=(y*w+x)*4
  ⟨src.getD (i+2) 0,src.getD (i+1) 0,src.getD i 0⟩

/- `clamp(0, 255) as u8` -/
def clampU8 (v : Int) : UInt8 := UInt8.ofNat (min (max v 0) 255).toNat

def yByte (p : Rgb) : UInt8 :=
  clampU8 (((47*p.r.toNat+157*p.g.toNat+16*p.b.toNat+128 : Int) >>> (8 : Nat))+16)

def blockSum (src : List UInt8) (w bx row : Nat) (c : Rgb → UInt8) : Nat :=
  (c (pixelAt src w (2*bx) (2*row))).toNat+(c (pixelAt src w (2*bx+1) (2*row))).toNat +
    (c (pixelAt src w (2*bx) (2*row+1))).toNat+(c (pixelAt src w (2*bx+1) (2*row+1))).toNat

def uvByte (src : List UInt8) (w bx row e : Nat) : UInt8 :=
  let r : Int := blockSum src w bx row Rgb.r/4
  let g : Int := blockSum src w bx row Rgb.g/4
  let b : Int := blockSum src w bx row Rgb.b/4
  if e=0 then clampU8 (((-26*r-87*g+112*b+128) >>> (8 : Nat))+128)
  else clampU8 (((112*r-102*g-10*b+128) >>> (8 : Nat))+128)

/- The planes are cut into rows of `w` bytes. A cut into empty rows panics, and so does an image that is too
short. -/
def bgraToNv12 (src : List UInt8) (width height : UInt32) : Option (List UInt8) :=
  let w:=width.toNat
  let ySize:=w*height.toNat
  let uvSize:=w*height.toNat/2
  if w=0 ∨ src.length<ySize*4 then none
  else some ((List.range ySize).map (fun i => yByte (pixelAt src w (i%w) (i/w))) ++
    (List.range uvSize).map fun i =>
      if i/w<uvSize/w ∧ i%w<2*(w/2) then uvByte src w (i%w/2) (i/w) (i%w%2) else 0)

variable {src nv12 : List UInt8} {width height : UInt32}

theorem nv12_luma (h : bgraToNv12 src width height=some nv12) {x y : Nat} (hx : x<width.toNat)
    (hy : y<height.toNat) : nv12[y*width.toNat+x]?=some (yByte (pixelAt src width.toNat x y)) := by
  have hlt:=row_inside hy hx
  obtain ⟨hdiv,hmod⟩ := row_div (k := y) hx
  obtain ⟨-,⟨⟩⟩ := Option.ite_none_left_eq_some.mp h
  rw [List.getElem?_append_left (by simpa using hlt)]
  simp [hlt,hdiv,hmod]

theorem nv12_chroma (h : bgraToNv12 src width height=some nv12) {bx row e : Nat} (hbx : 2*bx+1<width.toNat)
    (hrow : 2*row+1<height.toNat) (he : e<2) :
    nv12[width.toNat*height.toNat+(row*width.toNat+(2*bx+e))]? =
      some (uvByte src width.toNat bx row e) := by
  obtain ⟨hdiv,hmod⟩ := row_div (k := row) (c := 2*bx+e) (p := width.toNat) (by omega)
  have hrows : width.toNat*height.toNat/2/width.toNat=height.toNat/2 := by
    rw [Nat.div_div_eq_div_mul,Nat.mul_comm 2,Nat.mul_div_mul_left _ _ (by omega)]
  have hlt : row*width.toNat+(2*bx+e)<width.toNat*height.toNat/2 := by
    have hin:=@row_inside row (2*bx+e) width.toNat (height.toNat/2) (by omega) (by omega)
    have hle:=Nat.mul_div_le_mul_div_assoc width.toNat height.toNat 2
    omega
  obtain ⟨-,⟨⟩⟩ := Option.ite_none_left_eq_some.mp h
  have hbx2 : (2*bx+e)/2=bx := by omega
  have he2 : (2*bx+e)%2=e := by omega
  have hin : row<height.toNat/2 ∧ 2*bx+e<2*(width.toNat/2) := by omega
  simp [hlt,hdiv,hmod,hrows,hbx2,he2,hin]

theorem clampU8_toNat (v : Int) : ((clampU8 v).toNat : Int)=min (max v 0) 255 := by
  rw [clampU8,UInt8.toNat_ofNat']
  omega

theorem clampb_eq (v : Int) : clampb v=clampU8 v := by
  unfold clampb clampU8
  congr 2
  split_ifs <;> omega

theorem lumaByte_eq (p : Rgb) : lumaByte p=yByte p := clampb_eq _

theorem blockSum_le (src : List UInt8) (w bx row : Nat) (c : Rgb → UInt8) : blockSum src w bx row c≤1020 := by
  have hlt:=fun p => (c p).toNat_lt
  have h1:=hlt (pixelAt src w (2*bx) (2*row))
  have h2:=hlt (pixelAt src w (2*bx+1) (2*row))
  have h3:=hlt (pixelAt src w (2*bx) (2*row+1))
  have h4:=hlt (pixelAt src w (2*bx+1) (2*row+1))
  unfold blockSum
  omega

def Close (a b : UInt8) : Prop := a.toNat≤b.toNat+1 ∧ b.toNat≤a.toNat+1

section Block
variable {w h bx row : Nat} (hbx : 2*bx+1<w) (hrow : 2*row+1<h)
include hbx hrow

theorem blockAt_full : blockAt w h bx row =
    [(2*bx,2*row),(2*bx+1,2*row),(2*bx,2*row+1),(2*bx+1,2*row+1)] := by
  rw [blockAt,filter_eq_self]
  simp only [mem_cons,not_mem_nil,or_false,decide_eq_true_eq]
  rintro p (rfl | rfl | rfl | rfl) <;> simp only <;> omega

/-- The kernel rounds the average of a block where the CPU cuts it off. -/
theorem average_eq (c : Rgb → UInt8) :
    average ((blockAt w h bx row).map fun p => pixelAt src w p.1 p.2) c=(blockSum src w bx row c+2)/4 := by
  simp [blockAt_full hbx hrow,average,blockSum]

theorem chroma_close (e : Nat) :
    Close (chromaByte ((blockAt w h bx row).map fun p => pixelAt src w p.1 p.2) e) (uvByte src w bx row e) := by
  unfold Close chromaByte uvByte
  rw [← Int.ofNat_le,← Int.ofNat_le]
  push_cast
  split
  all_goals
    simp only [cbByte,crByte,clampb_eq,clampU8_toNat,average_eq hbx hrow,Int.shiftRight_eq_div_pow]
    omega

end Block

theorem toNat_of_asI32 {u : UInt32} {n : Nat} (h : asI32 u=n) (hn : 0<n) : u.toNat=n := by
  have hlt:=@lt_asI32 0 u (by omega)
  omega

/- The same pixel in the texture that is made of the image. -/
def texelAt (src : List UInt8) (w x y : Nat) : Uchar4 :=
  let i:=(y*w+x)*4
  ⟨src.getD i 0,src.getD (i+1) 0,src.getD (i+2) 0,src.getD (i+3) 0⟩

/-- Both readers take the channels from the same bytes. -/
theorem texelAt_rgb (src : List UInt8) (w : Nat) : (fun x y => (texelAt src w x y).rgb)=pixelAt src w := rfl

/-- The luma is the same and the chroma at most one step apart, for all sizes the kernel's integers can be. -/
theorem conversions_agree {width height pitch : UInt32} {w h p : Nat} (hw : asI32 width=w) (hh : asI32 height=h)
    (hp : asI32 pitch=p) (hsize : 2≤w ∧ w%2=0 ∧ 2≤h ∧ h%2=0) (hpitch : w≤p) (src : List UInt8)
    (hsrc : src.length=w*h*4) : ∃ nv12,bgraToNv12 src width height=some nv12 ∧
      (∀ x<w,∀ y<h,∃ v,nv12[y*w+x]?=some v ∧
        ∀ u,Stores (frameLaunch width height pitch) (fun x y => (texelAt src w x y).rgb) (y*p+x) u ↔ u=v) ∧
      ∀ bx<w/2,∀ row<h/2,∀ e<2,∃ v u,nv12[w*h+(row*w+(2*bx+e))]?=some v ∧ Close u v ∧
        ∀ u',Stores (frameLaunch width height pitch) (fun x y => (texelAt src w x y).rgb)
          ((h+row)*p+(2*bx+e)) u' ↔ u'=u := by
  rw [texelAt_rgb]
  have hwn:=toNat_of_asI32 hw (by omega)
  have hhn:=toNat_of_asI32 hh (by omega)
  have hfits : Fits (frameLaunch width height pitch) w h p :=
    ⟨hw,hh,hp,by omega,hwn ▸ grid_toNat width,hhn ▸ grid_toNat height⟩
  obtain ⟨nv12,hnv⟩ : ∃ nv12,bgraToNv12 src width height=some nv12 :=
    ⟨_,if_neg (by rw [hwn,hhn]; omega)⟩
  refine ⟨nv12,hnv,?_,?_⟩
  · intro x hx y hy
    have hluma:=nv12_luma hnv (hwn.symm ▸ hx) (hhn.symm ▸ hy)
    rw [hwn] at hluma
    refine ⟨_,hluma,fun u => ?_⟩
    rw [stores_iff hfits (by omega),lumaByte_eq]
    constructor
    · rintro (⟨-,-,-,-,hu⟩ | ⟨row,hk,-⟩)
      · exact hu
      · omega
    · intro hu
      exact .inl ⟨by omega,by omega,hx,hy,hu⟩
  · intro bx hbx row hrow e he
    have hchroma:=@nv12_chroma src nv12 width height hnv bx row e (by omega) (by omega) he
    rw [hwn,hhn] at hchroma
    refine ⟨_,_,hchroma,chroma_close (h := h) (by omega) (by omega) e,fun u => ?_⟩
    have hbx2 : (2*bx+e)/2=bx := by omega
    have he2 : (2*bx+e)%2=e := by omega
    rw [stores_iff hfits (by omega),hbx2,he2]
    constructor
    · rintro (⟨-,-,-,hk,-⟩ | ⟨row',hk,-,-,-,-,hu⟩)
      · omega
      · obtain rfl : row=row' := by omega
        exact hu
    · intro hu
      exact .inr ⟨row,rfl,by omega,by omega,by omega,by omega,hu⟩

def red : List UInt8 := (replicate 4 [0,0,255,255]).flatten

theorem conversions_agree_red : ∃ nv12,bgraToNv12 red 2 2=some nv12 ∧ ∀ x<2,∀ y<2,∃ v,
    nv12[y*2+x]?=some v ∧
    ∀ u,Stores (frameLaunch 2 2 256) (fun x y => (texelAt red 2 x y).rgb) (y*256+x) u ↔ u=v := by
  obtain ⟨nv12,hnv,hluma,-⟩ := @conversions_agree 2 2 256 2 2 256 rfl rfl rfl (by decide) (by decide) red rfl
  exact ⟨nv12,hnv,hluma⟩

/-- The test of `to_wire` in front of the conversion. -/
def Passed (src : List UInt8) (width height : UInt32) : Prop :=
  src.length≠width.toNat*height.toNat*3/2 ∧ src.length=width.toNat*height.toNat*4

def Grey (src : List UInt8) (w h bx row : Nat) : Prop :=
  ∀ p∈blockAt w h bx row,(pixelAt src w p.1 p.2).r=(pixelAt src w p.1 p.2).g ∧
    (pixelAt src w p.1 p.2).g=(pixelAt src w p.1 p.2).b

def chromaAt (w h bx row : Nat) : Nat := w*h+(row*(2*((w+1)/2))+2*bx)

structure LimitedRange (src nv12 : List UInt8) (w h : Nat) : Prop where
  complete : nv12.length=w*h+2*((w+1)/2)*((h+1)/2)
  luma : ∀ i<w*h,∃ v,nv12[i]?=some v ∧ 16≤v.toNat ∧ v.toNat≤235
  chroma : ∀ bx<(w+1)/2,∀ row<(h+1)/2,∀ e<2,∃ v,nv12[chromaAt w h bx row+e]?=some v ∧
    16≤v.toNat ∧ v.toNat≤240
  grey : ∀ bx<(w+1)/2,∀ row<(h+1)/2,Grey src w h bx row → ∀ e<2,
    nv12[chromaAt w h bx row+e]?=some 128

/-- Both sizes are even, no block is of saturated yellow, and no grey one is
lighter than the middle. -/
structure Plain (src : List UInt8) (w h : Nat) : Prop where
  even : w%2=0 ∧ h%2=0
  yellow : ∀ bx<w/2,∀ row<h/2,¬(blockSum src w bx row Rgb.r=1020 ∧
    blockSum src w bx row Rgb.g=1020 ∧ blockSum src w bx row Rgb.b<4)
  light : ∀ bx<w/2,∀ row<h/2,Grey src w h bx row → blockSum src w bx row Rgb.r<516

theorem yByte_range (p : Rgb) : 16≤(yByte p).toNat ∧ (yByte p).toNat≤235 := by
  have hr:=p.r.toNat_lt
  have hg:=p.g.toNat_lt
  have hb:=p.b.toNat_lt
  rw [← Int.ofNat_le,← Int.ofNat_le,yByte,clampU8_toNat,Int.shiftRight_eq_div_pow]
  omega

theorem uvByte_range (src : List UInt8) (w bx row e : Nat) :
    (16≤(uvByte src w bx row e).toNat ∧ (uvByte src w bx row e).toNat≤240) ↔
      ¬(e=0 ∧ blockSum src w bx row Rgb.r=1020 ∧ blockSum src w bx row Rgb.g=1020 ∧
        blockSum src w bx row Rgb.b<4) := by
  have hr:=blockSum_le src w bx row Rgb.r
  have hg:=blockSum_le src w bx row Rgb.g
  have hb:=blockSum_le src w bx row Rgb.b
  unfold uvByte
  rw [← Int.ofNat_le,← Int.ofNat_le]
  split
  all_goals
    simp only [clampU8_toNat,Int.shiftRight_eq_div_pow]
    omega

theorem uvByte_grey {w h bx row e : Nat} (hbx : 2*bx+1<w) (hrow : 2*row+1<h)
    (hgrey : Grey src w h bx row) : uvByte src w bx row e=128 ↔ e=0 → blockSum src w bx row Rgb.r<516 := by
  have hsum : blockSum src w bx row Rgb.g=blockSum src w bx row Rgb.r ∧
      blockSum src w bx row Rgb.b=blockSum src w bx row Rgb.r := by
    unfold Grey at hgrey
    simp only [blockAt_full hbx hrow,forall_mem_cons] at hgrey
    simp only [blockSum,hgrey]
    trivial
  have hmiddle : ((128 : UInt8).toNat : Int)=128 := rfl
  rw [← UInt8.toNat_inj,← Int.ofNat_inj,uvByte,hsum.1,hsum.2,hmiddle]
  split
  all_goals
    simp only [clampU8_toNat,Int.shiftRight_eq_div_pow]
    omega

theorem complete_iff {w h : Nat} (hw : 0<w) (hh : 0<h) :
    w*h/2=2*((w+1)/2)*((h+1)/2) ↔ w%2=0 ∧ h%2=0 := by
  obtain ⟨a,rfl | rfl⟩ : ∃ a,w=2*a ∨ w=2*a+1 := ⟨w/2,by omega⟩
  · have hhalf : (2*a+1)/2=a := by omega
    rw [hhalf,Nat.mul_assoc,Nat.mul_div_cancel_left _ (by decide),Nat.mul_assoc,Nat.mul_left_comm,
      Nat.mul_left_cancel_iff (by omega)]
    omega
  · obtain ⟨b,rfl | rfl⟩ : ∃ b,h=2*b ∨ h=2*b+1 := ⟨h/2,by omega⟩
    · have hhalf : (2*b+1)/2=b ∧ (2*a+1+1)/2=a+1 := by omega
      rw [hhalf.1,hhalf.2,Nat.mul_left_comm,Nat.mul_div_cancel_left _ (by decide),Nat.mul_right_cancel_iff (by omega)]
      omega
    · have hhalf : (2*b+1+1)/2=b+1 ∧ (2*a+1+1)/2=a+1 := by omega
      rw [hhalf.1,hhalf.2]
      simp only [Nat.add_mul,Nat.mul_add,Nat.mul_assoc,Nat.mul_left_comm _ 2]
      omega

theorem chroma_of_even (hnv : bgraToNv12 src width height=some nv12)
    (heven : width.toNat%2=0 ∧ height.toNat%2=0) {bx row e : Nat} (hbx : bx<(width.toNat+1)/2)
    (hrow : row<(height.toNat+1)/2) (he : e<2) :
    nv12[chromaAt width.toNat height.toNat bx row+e]?=some (uvByte src width.toNat bx row e) := by
  have hhalf : 2*((width.toNat+1)/2)=width.toNat := by omega
  rw [chromaAt,hhalf,Nat.add_assoc,Nat.add_assoc]
  exact nv12_chroma hnv (by omega) (by omega) he

/-- The conversion keeps to the limited range just for the images that are plain. -/
theorem limited_range_iff (hpass : Passed src width height) :
    (∃ nv12,bgraToNv12 src width height=some nv12 ∧ LimitedRange src nv12 width.toNat height.toNat) ↔
      Plain src width.toNat height.toNat := by
  obtain ⟨hne,hlen⟩ := hpass
  have hpos : 0<width.toNat*height.toNat := by omega
  have hw:=Nat.pos_of_mul_pos_right hpos
  have hh:=Nat.pos_of_mul_pos_left hpos
  obtain ⟨nv12,hnv,hsize⟩ : ∃ nv12,bgraToNv12 src width height=some nv12 ∧
      nv12.length=width.toNat*height.toNat+width.toNat*height.toNat/2 :=
    ⟨_,if_neg (by omega),by simp⟩
  simp only [hnv,Option.some.injEq,exists_eq_left']
  have hiff:=complete_iff hw hh
  constructor
  · intro hl
    have hcomplete:=hl.complete
    have heven:=hiff.mp (by omega)
    refine ⟨heven,?_,?_⟩
    · intro bx hbx row hrow hyellow
      obtain ⟨v,hv,hrange⟩ := hl.chroma bx (by omega) row (by omega) 0 (by decide)
      rw [chroma_of_even hnv heven (by omega) (by omega) (by decide)] at hv
      cases hv
      exact (uvByte_range src _ bx row 0).mp hrange ⟨rfl,hyellow⟩
    · intro bx hbx row hrow hgrey
      have hv:=hl.grey bx (by omega) row (by omega) hgrey 0 (by decide)
      rw [chroma_of_even hnv heven (by omega) (by omega) (by decide)] at hv
      exact (uvByte_grey (by omega) (by omega) hgrey).mp (Option.some.inj hv) rfl
  · intro hp
    have heven:=hp.even
    refine ⟨by rw [hsize,hiff.mpr heven],?_,?_,?_⟩
    · intro i hi
      have hluma:=nv12_luma hnv (Nat.mod_lt i hw) (Nat.div_lt_of_lt_mul hi)
      rw [Nat.div_add_mod'] at hluma
      exact ⟨_,hluma,yByte_range _⟩
    · intro bx hbx row hrow e he
      refine ⟨_,chroma_of_even hnv heven hbx hrow he,(uvByte_range src _ bx row e).mpr fun hy => ?_⟩
      exact hp.yellow bx (by omega) row (by omega) hy.2
    · intro bx hbx row hrow hgrey e he
      rw [chroma_of_even hnv heven hbx hrow he]
      exact congrArg some ((uvByte_grey (by omega) (by omega) hgrey).mpr fun _ =>
        hp.light bx (by omega) row (by omega) hgrey)

theorem limited_range_black :
    ∃ nv12,bgraToNv12 (replicate 16 0) 2 2=some nv12 ∧ LimitedRange (replicate 16 0) nv12 2 2 := by
  refine (@limited_range_iff _ 2 2 ⟨by decide,by decide⟩).mpr ⟨by decide,?_,?_⟩
  · intro bx hbx row hrow
    obtain ⟨rfl,rfl⟩ : bx=0 ∧ row=0 := ⟨by simpa using hbx,by simpa using hrow⟩
    decide
  · intro bx hbx row hrow _
    obtain ⟨rfl,rfl⟩ : bx=0 ∧ row=0 := ⟨by simpa using hbx,by simpa using hrow⟩
    decide

/-- White has a blue difference of 127. -/
theorem white_not_neutral : Passed (replicate 16 255) 2 2 ∧
    bgraToNv12 (replicate 16 255) 2 2=some [235,235,235,235,127,128] ∧
    ¬∃ nv12,bgraToNv12 (replicate 16 255) 2 2=some nv12 ∧ LimitedRange (replicate 16 255) nv12 2 2 := by
  refine ⟨⟨by decide,by decide⟩,by decide,?_⟩
  rintro ⟨nv12,hnv,hrange⟩
  cases hnv
  have hgrey : Grey (replicate 16 255) 2 2 0 0 := by
    unfold Grey
    decide
  exact absurd (hrange.grey 0 (by decide) 0 (by decide) hgrey 0 (by decide)) (by decide)

end Waymux.Recording.Nv12
