import Waymux.Session.Subsurfaces
import Waymux.Session.BufferReads
import Waymux.Framing.Pixels

/-!
# Compositing a surface tree (`composite.rs`)

In the release build: `i32` and `usize` arithmetic wraps. `none` is a panic, or a walk that does not end.
-/

namespace Waymux.Session.Composite
open Framing.Pixels Subsurfaces Option List
open BufferReads (Byte)
open Windows (Resource)

def wrap (i : Int) : Int := i.bmod 0x100000000

/-- `i as usize`, and arithmetic in `usize` -/
def usize (i : Int) : Nat := (i%0x10000000000000000).toNat

/-- What `with_bytes` hands to the blitters. -/
structure View where
  bytes : List Byte
  width : Int
  height : Int
  stride : Int
  argb : Bool

structure Target where
  width : Int
  height : Int
  stride : Int

/-- The fourth byte of XRGB is not read. -/
def source (argb : Bool) (s : Pixel Byte) : Pixel Byte := if argb then s else {s with a := 0xFF}

def channel (alpha s d : Byte) : Byte := UInt8.ofNat (min (s.toNat+d.toNat*(255-alpha.toNat)/255) 255)

def sourceOver (s d : Pixel Byte) : Pixel Byte :=
  ⟨channel s.a s.b d.b,channel s.a s.g d.g,channel s.a s.r d.r,channel s.a s.a d.a⟩

def store (dst : List Byte) (di : Nat) (p : Pixel Byte) : Option (List Byte) :=
  if di+4≤dst.length then some (put dst di p) else none

/-- The body of both loops. -/
def plot (argb : Bool) (src dst : List Byte) (si di : Nat) : Option (List Byte) :=
  if usize (si+4)>src.length ∨ usize (di+4)>dst.length then some dst
  else do
    let s:=source argb (← pixelAt src si)
    if s.a=0xFF then store dst di s
    else if s.a≠0 then
      let d ← pixelAt dst di
      store dst di (sourceOver s d)
    else some dst

def plots (argb : Bool) (src dst : List Byte) (ps : List (Nat × Nat)) : Option (List Byte) :=
  ps.foldlM (fun dst p => plot argb src dst p.1 p.2) dst

def span (a b : Int) : List Int := (List.range (b-a).toNat).map fun k : Nat => a+k

/-- The iterations of two nested loops. -/
def block (y0 y1 x0 x1 : Int) : List (Int × Int) := span y0 y1 ×ˢ span x0 x1

def offset (stride x y : Int) : Nat := usize (usize y*usize stride+usize x*4)

def blitOver (t : Target) (offX offY : Int) (v : View) (dst : List Byte) : Option (List Byte) :=
  if v.width≤0 ∨ v.height≤0 then some dst
  else
    let x0:=max offX 0
    let y0:=max offY 0
    let x1:=min (wrap (offX+v.width)) t.width
    let y1:=min (wrap (offY+v.height)) t.height
    if x1≤x0 ∨ y1≤y0 then some dst
    else plots v.argb v.bytes dst ((block y0 y1 x0 x1).map fun p =>
      (offset v.stride (wrap (p.2-offX)) (wrap (p.1-offY)),offset t.stride p.2 p.1))

/-- Crop and size of a viewport, as `i32` -/
structure Crop where
  sx : Int
  sy : Int
  sw : Int
  sh : Int
  dw : Int
  dh : Int

/-- No scaling is needed. -/
def Crop.plain (c : Crop) : Bool := c.sw=c.dw && c.sh=c.dh && c.sx=0 && c.sy=0

def Crop.srcX (c : Crop) (dx : Int) : Int := wrap (c.sx+(wrap (dx*c.sw)).tdiv c.dw)

def Crop.srcY (c : Crop) (dy : Int) : Int := wrap (c.sy+(wrap (dy*c.sh)).tdiv c.dh)

/-- Those that are not left by `continue` -/
def iterations (t : Target) (offX offY : Int) (c : Crop) : List (Int × Int) :=
  (block 0 c.dh 0 c.dw).filter fun p =>
    0≤wrap (offY+p.1) ∧ wrap (offY+p.1)<t.height ∧ 0≤wrap (offX+p.2) ∧ wrap (offX+p.2)<t.width

def blitViewport (t : Target) (offX offY : Int) (v : View) (c : Crop) (dst : List Byte) : Option (List Byte) :=
  if c.sw≤0 ∨ c.sh≤0 ∨ c.dw≤0 ∨ c.dh≤0 then some dst
  else
    plots v.argb v.bytes dst ((iterations t offX offY c).map fun p =>
      (offset v.stride (c.srcX p.2) (c.srcY p.1),offset t.stride (wrap (offX+p.2)) (wrap (offY+p.1))))

/-- `ViewportData`: the source as `wl_fixed`, in units of 1/256. -/
structure Viewport where
  src : Option (Int × Int × Int × Int)
  dst : Option (Int × Int)

inductive ViewportRequest
  | setSource (x y width height : Int)
  | setDestination (width height : Int)
  | destroy

def Viewport.handle (vp : Viewport) : ViewportRequest → Viewport
  | .setSource x y width height => {vp with src := if x<0 then none else some (x,y,width,height)}
  | .setDestination width height => {vp with dst := if width<0 then none else some (width,height)}
  | .destroy => ⟨none,none⟩

/-- The committed buffer of a surface, with its bytes if they can be read. -/
structure Buffer where
  width : Int
  height : Int
  stride : Int
  argb : Bool
  bytes : Option (List Byte)

structure Content where
  current : Option Buffer
  viewport : Viewport

def Buffer.view (b : Buffer) : Option View := b.bytes.map fun bytes => ⟨bytes,b.width,b.height,b.stride,b.argb⟩

def Content.view (c : Content) : Option View := c.current.bind Buffer.view

def Viewport.crop (vp : Viewport) (v : View) : Crop :=
  let (sx,sy,sw,sh) := match vp.src with
    | some (x,y,w,h) => (x.tdiv 256,y.tdiv 256,w.tdiv 256,h.tdiv 256)
    | none => (0,0,v.width,v.height)
  let (dw,dh) := vp.dst.getD (sw,sh)
  ⟨sx,sy,sw,sh,dw,dh⟩

/-- The part of `composite_into` that draws the surface itself. -/
def draw (t : Target) (offX offY : Int) (c : Content) (dst : List Byte) : Option (List Byte) :=
  match c.view with
  | none => some dst
  | some v =>
    let crop:=c.viewport.crop v
    if crop.plain then blitOver t offX offY v dst
    else blitViewport t offX offY v crop dst

def compositeInto (s : State) (content : Resource → Content) (t : Target) (fuel : Nat) (dst : List Byte)
    (root : Resource) (off : Int × Int) : Option (List Byte) :=
  (s.compositeInto (fun dst r off => dst.bind (draw t off.1 off.2 (content r))) fuel (some dst) root off).join

/-! ### What is drawn, in exact integers -/

/-- How the code mixes: a fully transparent pixel leaves what is below it. -/
def blend (s d : Pixel Byte) : Pixel Byte := if s.a=0 then d else sourceOver s d

def onto (mix : Pixel Byte → Pixel Byte → Pixel Byte) : Option (Pixel Byte) → Pixel Byte → Pixel Byte
  | some s,d => mix s d
  | none,d => d

def View.at (v : View) (x y : Int) : Option (Pixel Byte) :=
  if 0≤x ∧ x<v.width ∧ 0≤y ∧ y<v.height then (pixelAt v.bytes (y*v.stride+4*x).toNat).map (source v.argb) else none

def Target.place (t : Target) (x y : Int) : Nat := (y*t.stride+4*x).toNat

def Target.Has (t : Target) (x y : Int) : Prop := 0≤x ∧ x<t.width ∧ 0≤y ∧ y<t.height

/-- The destination has its rows. -/
structure Target.Sized (t : Target) (dst : List Byte) : Prop where
  wide : 4*t.width≤t.stride
  stride : 0≤t.stride ∧ t.stride<0x80000000
  height : 0≤t.height ∧ t.height<0x80000000
  length : (dst.length : Int)=t.height*t.stride

/-- `out` is `dst` with these pixels mixed into it, and no other byte changed. -/
structure Drawn (t : Target) (mix : Pixel Byte → Pixel Byte → Pixel Byte)
    (pix : Int → Int → Option (Pixel Byte)) (dst out : List Byte) : Prop where
  length : out.length=dst.length
  pixels : ∀ x y,t.Has x y → pixelAt out (t.place x y)=(pixelAt dst (t.place x y)).map (onto mix (pix x y))
  others : ∀ i,(∀ x y,t.Has x y → pix x y≠none → i<t.place x y ∨ t.place x y+4 ≤ i) → out[i]?=dst[i]?

variable {t : Target} {dst src out : List Byte} {argb : Bool} {si di n : Nat} {x y offX offY : Int} {v : View}
  {s d : Pixel Byte} {pix : Int → Int → Option (Pixel Byte)} {mix mix' : Pixel Byte → Pixel Byte → Pixel Byte}

theorem channel_solid (s d : Byte) : channel 0xFF s d=s := by
  have hs : s.toNat<256 := s.toNat_lt
  simp only [channel,show (0xFF : Byte).toNat=255 from rfl]
  rw [show min (s.toNat+d.toNat*(255-255)/255) 255=s.toNat by omega]
  exact UInt8.ofNat_toNat

theorem sourceOver_solid (h : s.a=0xFF) : sourceOver s d=s := by
  simp only [sourceOver,h,channel_solid]
  rw [← h]

theorem update_none : update dst (di,onto mix none)=dst :=
  ext_getElem? fun _ => update_frame (.inl rfl)

def shade (argb : Bool) (src : List Byte) (si : Nat) : Pixel Byte → Pixel Byte :=
  onto blend ((pixelAt src si).map (source argb))

theorem plot_eq (hsi : si+4<0x10000000000000000) (hdi : di+4<0x10000000000000000) :
    plot argb src dst si di=some (update dst (di,shade argb src si)) := by
  have hs : usize (si+4)=si+4 := by unfold usize; omega
  have hd : usize (di+4)=di+4 := by unfold usize; omega
  unfold plot shade
  rw [hs,hd]
  by_cases hg : si+4>src.length ∨ di+4>dst.length
  · rw [if_pos hg]
    rcases hg with hg | hg
    · rw [pixelAt_eq_none (by omega),map_none,update_none]
    · rw [update,pixelAt_eq_none (l := dst) (by omega)]
      rfl
  · obtain ⟨p,hp⟩ := pixelAt_of_le (l := src) (i := si) (by omega)
    obtain ⟨d,hd⟩ := pixelAt_of_le (l := dst) (i := di) (by omega)
    have hst : ∀ q,store dst di q=some (put dst di q) := fun q => if_pos (by omega)
    rw [if_neg hg,hp,update,hd]
    simp only [bind_eq_bind,bind_some,map_some,getD_some,onto,blend,hst]
    by_cases h255 : (source argb p).a=0xFF
    · rw [if_pos h255,if_neg (by rw [h255]; decide),sourceOver_solid h255]
    · rw [if_neg h255]
      by_cases h0 : (source argb p).a=0
      · rw [if_neg (not_not.mpr h0),if_pos h0,put_self hd]
      · rw [if_pos h0,if_neg h0]

theorem plots_eq (ps : List (Nat × Nat))
    (h : ∀ p∈ps,p.1+4<0x10000000000000000 ∧ p.2+4<0x10000000000000000) :
    plots argb src dst ps=some (puts dst (ps.map fun p => (p.2,shade argb src p.1))) := by
  induction ps generalizing dst with
  | nil => rfl
  | cons p ps ih =>
    obtain ⟨hsi,hdi⟩ := h p mem_cons_self
    rw [plots,foldlM_cons,plot_eq hsi hdi]
    exact ih fun q hq => h q (mem_cons_of_mem _ hq)

abbrev I32 (i : Int) : Prop := -0x80000000 ≤ i ∧ i<0x80000000

theorem wrap_eq (h : -0x80000000≤x) (h' : x<0x80000000) : wrap x=x := by
  exact Int.bmod_eq_of_le (by omega) (by omega)

theorem mem_span {a b : Int} : x∈span a b ↔ a≤x ∧ x<b := by
  simp only [span,List.mem_map,List.mem_range]
  constructor
  · rintro ⟨k,hk,rfl⟩
    omega
  · rintro ⟨ha,hb⟩
    exact ⟨(x-a).toNat,by omega,by omega⟩

theorem nodup_span (a b : Int) : (span a b).Nodup :=
  nodup_range.map fun i j (h : a+(i : Int)=a+(j : Int)) => by omega

theorem nodup_block (y0 y1 x0 x1 : Int) : (block y0 y1 x0 x1).Nodup := (nodup_span y0 y1).product (nodup_span x0 x1)

theorem mem_block {y0 y1 x0 x1 : Int} {q : Int × Int} :
    q∈block y0 y1 x0 x1 ↔ (y0≤q.1 ∧ q.1<y1) ∧ x0≤q.2 ∧ q.2<x1 := by
  rw [← mem_span,← mem_span]
  exact mem_product

theorem offset_eq {stride : Int} (hx : 0≤x ∧ x<0x80000000) (hy : 0≤y ∧ y<0x80000000)
    (hs : 0 ≤ stride ∧ stride<0x80000000) :
    offset stride x y=(y*stride+4*x).toNat ∧ offset stride x y+4<0x10000000000000000 := by
  lift x to Nat using hx.1
  lift y to Nat using hy.1
  lift stride to Nat using hs.1
  have hmul : y*stride≤0x80000000*0x80000000 := Nat.mul_le_mul (by omega) (by omega)
  have hcast : (y : Int)*stride=(y*stride : Nat) := by push_cast; rfl
  have hu : ∀ k : Nat,k<0x80000000 → usize k=k := fun k hk => by unfold usize; omega
  unfold offset
  rw [hu x (by omega),hu y (by omega),hu stride (by omega),hcast,usize]
  omega

theorem row_le {a b stride : Int} (hs : 0 ≤ stride) (h : a<b) : a*stride+stride≤b*stride := by
  have hle:=Int.mul_le_mul_of_nonneg_right (show a+1≤b by omega) hs
  rwa [Int.add_mul,Int.one_mul] at hle

theorem Target.Sized.place_le (ht : t.Sized dst) (h : t.Has x y) : t.place x y+4≤dst.length := by
  obtain ⟨hx,hxw,hy,hyh⟩ := h
  have hrow:=row_le ht.stride.1 hyh
  have hpos:=Int.mul_nonneg hy ht.stride.1
  have hlen:=ht.length
  have hwide:=ht.wide
  unfold Target.place
  omega

theorem Target.Sized.place_apart (ht : t.Sized dst) {x' y' : Int} (h : t.Has x y) (h' : t.Has x' y')
    (hne : ¬ (x=x' ∧ y=y')) : Apart (t.place x y) (t.place x' y') := by
  obtain ⟨hx,hxw,hy,_⟩ := h
  obtain ⟨hx',hxw',hy',_⟩ := h'
  obtain ⟨hs,_⟩ := ht.stride
  have hwide:=ht.wide
  have hp:=Int.mul_nonneg hy hs
  have hp':=Int.mul_nonneg hy' hs
  unfold Apart Target.place
  rcases Int.lt_trichotomy y y' with hlt | rfl | hlt
  · have hrow:=row_le hs hlt
    omega
  · omega
  · have hrow:=row_le hs hlt
    omega

theorem pixelAt_replicate {i : Nat} (h : i+4≤n) (a : Byte) : pixelAt (List.replicate n a) i=some ⟨a,a,a,a⟩ := by
  rw [pixelAt_eq_some]
  simp only [getElem?_replicate]
  exact ⟨if_pos (by omega),if_pos (by omega),if_pos (by omega),if_pos (by omega)⟩

/-- A list of plots that names every pixel to be drawn once. -/
theorem plots_drawn {κ : Type} (qs : List κ) (X Y : κ → Int) (σ : κ → Nat)
    (pix : Int → Int → Option (Pixel Byte)) (ht : t.Sized dst)
    (hin : ∀ q∈qs,t.Has (X q) (Y q)) (hnd : qs.Nodup) (hinj : ∀ q∈qs,∀ q'∈qs,X q=X q' → Y q=Y q' → q=q')
    (hσ : ∀ q∈qs,σ q+4<0x10000000000000000)
    (hpix : ∀ q∈qs,pix (X q) (Y q)=(pixelAt src (σ q)).map (source argb))
    (hall : ∀ x y,t.Has x y → pix x y≠none → ∃ q∈qs,X q=x ∧ Y q=y) :
    ∃ out,plots argb src dst (qs.map fun q => (σ q,offset t.stride (X q) (Y q)))=some out ∧
      Drawn t blend pix dst out := by
  have hplace : ∀ q∈qs,offset t.stride (X q) (Y q)=t.place (X q) (Y q) ∧
      offset t.stride (X q) (Y q)+4<0x10000000000000000 := by
    intro q hq
    obtain ⟨hx,hxw,hy,hyh⟩ := hin q hq
    have hw:=ht.wide
    have hs:=ht.stride
    have hh:=ht.height
    exact offset_eq ⟨hx,by omega⟩ ⟨hy,by omega⟩ hs
  have hplots : plots argb src dst (qs.map fun q => (σ q,offset t.stride (X q) (Y q)))=some _ := plots_eq _
    (forall_mem_map.mpr fun q hq => ⟨hσ q hq,(hplace q hq).2⟩)
  have hus : (qs.map fun q => (σ q,offset t.stride (X q) (Y q))).map (fun p => (p.2,shade argb src p.1)) =
      qs.map fun q => (t.place (X q) (Y q),onto blend (pix (X q) (Y q))) := by
    rw [List.map_map]
    refine map_congr_left fun q hq => ?_
    simp [Function.comp,(hplace q hq).1,hpix q hq,shade]
  rw [hus] at hplots
  have hframe : ∀ i,(∀ x y,t.Has x y → pix x y≠none → i<t.place x y ∨ t.place x y+4 ≤ i) →
      (puts dst (qs.map fun q => (t.place (X q) (Y q),onto blend (pix (X q) (Y q)))))[i]?=dst[i]? := by
    intro i hi
    refine puts_frame (forall_mem_map.mpr fun q hq => ?_)
    cases hp : pix (X q) (Y q) with
    | none => exact .inl rfl
    | some s => exact .inr (hi _ _ (hin q hq) (by rw [hp]; exact some_ne_none s))
  refine ⟨_,hplots,length_puts _ _,fun x y hxy => ?_,hframe⟩
  cases hp : pix x y with
  | none =>
    have hid : ∀ o : Option (Pixel Byte),o.map (onto blend none)=o := fun o => by cases o <;> rfl
    rw [hid]
    apply pixelAt_congr
    intro k hk hk'
    apply hframe
    intro x' y' hxy' hp'
    have hfar:=ht.place_apart hxy hxy' fun he => hp' (by rw [← he.1,← he.2,hp])
    unfold Apart at hfar
    omega
  | some s =>
    obtain ⟨q,hq,rfl,rfl⟩ := hall x y hxy (by rw [hp]; exact some_ne_none s)
    rw [← hp]
    refine pixelAt_puts (pairwise_map.mpr ?_) (mem_map.mpr ⟨q,hq,rfl⟩)
    refine hnd.imp_of_mem fun {a b} ha hb hne => ?_
    exact ht.place_apart (hin a ha) (hin b hb) fun he => hne (hinj a ha b hb he.1 he.2)

/-- The numbers of a buffer that is read. -/
structure View.Sized (v : View) : Prop where
  stride : 0≤v.stride ∧ v.stride<0x80000000
  width : v.width<0x80000000
  height : v.height<0x80000000

theorem View.Sized.at_offset (hv : v.Sized) (h : 0≤x ∧ x<v.width ∧ 0≤y ∧ y<v.height) :
    v.at x y=(pixelAt v.bytes (offset v.stride (wrap x) (wrap y))).map (source v.argb) ∧
    offset v.stride (wrap x) (wrap y)+4<0x10000000000000000 := by
  obtain ⟨hs,hw,hh⟩ := hv
  rw [View.at,if_pos h,wrap_eq (x := x) (by omega) (by omega),wrap_eq (x := y) (by omega) (by omega)]
  obtain ⟨hoff,hlt⟩ := offset_eq (x := x) (y := y) ⟨h.1,by omega⟩ ⟨h.2.2.1,by omega⟩ hs
  exact ⟨by rw [hoff],hlt⟩

/-- The edges of the source do not wrap, or it is off the target. -/
structure Reaches (t : Target) (offX offY : Int) (v : View) : Prop where
  right : offX+v.width<0x80000000 ∨ t.width≤offX
  bottom : offY+v.height<0x80000000 ∨ t.height≤offY

theorem wrap_edge {a b k : Int} (ha : -0x80000000≤a) (hk : 0<k) (h : a+k<0x80000000 ∨ b≤a) :
    wrap (a+k)=a+k ∨ b≤a :=
  h.imp_left fun h => wrap_eq (by omega) h

theorem drawn_empty (h : ∀ x y,t.Has x y → pix x y=none) : Drawn t mix pix dst dst := by
  refine ⟨rfl,fun x y hxy => ?_,fun _ _ => rfl⟩
  rw [h x y hxy]
  cases pixelAt dst (t.place x y) <;> rfl

/-- A picture drawn in one way is drawn in another if the two agree on its pixels, and only then. -/
theorem Drawn.mix_iff (hd : Drawn t mix pix dst out) : Drawn t mix' pix dst out ↔
    ∀ x y,t.Has x y → ∀ s d,pix x y=some s → pixelAt dst (t.place x y)=some d → mix s d=mix' s d := by
  constructor
  · intro hd' x y hxy s d hs hdst
    have heq:=(hd.pixels x y hxy).symm.trans (hd'.pixels x y hxy)
    simpa [hs,hdst,onto] using heq
  · intro heq
    refine ⟨hd.length,fun x y hxy => ?_,hd.others⟩
    rw [hd.pixels x y hxy]
    cases hs : pix x y with
    | none => rfl
    | some s =>
      cases hdst : pixelAt dst (t.place x y) with
      | none => rfl
      | some d => exact congrArg some (heq x y hxy s d hs hdst)

theorem blitOver_drawn (ht : t.Sized dst) (hv : v.Sized) (hX : I32 offX) (hY : I32 offY) (h : Reaches t offX offY v) :
    ∃ out,blitOver t offX offY v dst=some out ∧ Drawn t blend (fun x y => v.at (x-offX) (y-offY)) dst out := by
  obtain ⟨hr,hb⟩ := h
  simp only [blitOver]
  by_cases hsize : v.width≤0 ∨ v.height≤0
  · rw [if_pos hsize]
    exact ⟨dst,rfl,drawn_empty fun x y _ => if_neg (by omega)⟩
  have hwx:=wrap_edge hX.1 (by omega) hr
  have hwy:=wrap_edge hY.1 (by omega) hb
  split_ifs with hclip
  · refine ⟨dst,rfl,drawn_empty fun x y hxy => if_neg ?_⟩
    obtain ⟨_,_,_,_⟩ := hxy
    omega
  have hmem : ∀ q,q∈block (max offY 0) (min (wrap (offY+v.height)) t.height) (max offX 0)
      (min (wrap (offX+v.width)) t.width) ↔
      t.Has q.2 q.1 ∧ 0≤q.2-offX ∧ q.2-offX<v.width ∧ 0≤q.1-offY ∧ q.1-offY<v.height := by
    intro q
    rw [mem_block,Target.Has]
    omega
  refine plots_drawn _ Prod.snd Prod.fst (fun q => offset v.stride (wrap (q.2-offX)) (wrap (q.1-offY)))
    (fun x y => v.at (x-offX) (y-offY)) ht (fun q hq => ((hmem q).mp hq).1) (nodup_block _ _ _ _)
    (fun q _ q' _ hx hy => Prod.ext hy hx) (fun q hq => ?_) (fun q hq => ?_) fun x y hxy hp => ?_
  · exact (hv.at_offset ((hmem q).mp hq).2).2
  · exact (hv.at_offset ((hmem q).mp hq).2).1
  · refine ⟨(y,x),(hmem _).mpr ⟨hxy,?_⟩,rfl,rfl⟩
    by_contra hout
    exact hp (if_neg hout)

/-- Past the largest row number the lower edge wraps and nothing is drawn. -/
theorem blitOver_wrapped (hY : I32 offY) (hh : 1≤v.height ∧ v.height≤16384) (hb : 0x80000000≤offY+v.height) :
    blitOver t offX offY v dst=some dst := by
  have hwrap : wrap (offY+v.height)=offY+v.height-0x100000000 := by
    unfold wrap Int.bmod
    dsimp only
    split <;> omega
  simp only [blitOver]
  split_ifs
  · rfl
  · rfl
  · omega

/-- A blit meets its per-pixel reference exactly if that leaves what the code does: below a transparent pixel, and
below all of them when the lower edge does not fit in `i32`. -/
theorem blitOver_reference_iff (ht : t.Sized dst) (hX : I32 offX) (hY : I32 offY) (hw : 1≤v.width ∧ v.width≤16384)
    (hh : 1≤v.height ∧ v.height≤16384) (hs : 0<v.stride ∧ v.stride<0x80000000) :
    ∃ out,blitOver t offX offY v dst=some out ∧
      (Drawn t sourceOver (fun x y => v.at (x-offX) (y-offY)) dst out ↔
        ∀ x y,t.Has x y → ∀ s d,v.at (x-offX) (y-offY)=some s → pixelAt dst (t.place x y)=some d →
          s.a=0 ∨ 0x80000000≤offY+v.height → sourceOver s d=d) := by
  by_cases hb : 0x80000000≤offY+v.height
  · have hkept : Drawn t (fun _ d => d) (fun x y => v.at (x-offX) (y-offY)) dst dst := by
      refine ⟨rfl,fun x y _ => ?_,fun _ _ => rfl⟩
      cases v.at (x-offX) (y-offY) <;> cases pixelAt dst (t.place x y) <;> rfl
    refine ⟨dst,blitOver_wrapped hY hh hb,hkept.mix_iff.trans ?_⟩
    simp [hb,eq_comm]
  · have hwide:=ht.wide
    have hst:=ht.stride
    obtain ⟨out,hout,hdrawn⟩ := blitOver_drawn ht ⟨by omega,by omega,by omega⟩ hX hY
      (⟨by omega,by omega⟩ : Reaches t offX offY v)
    refine ⟨out,hout,hdrawn.mix_iff.trans ?_⟩
    simp only [hb,or_false]
    refine forall₅_congr fun x y _ s d => forall₂_congr fun _ _ => ?_
    unfold blend
    by_cases ha : s.a=0
    · simp [ha,eq_comm]
    · simp [ha]

def dot : View := ⟨[9,9,9,255],1,1,4,true⟩

theorem blitOver_reference_dot :
    ∃ out,blitOver ⟨2,1,8⟩ 1 0 dot [0,0,0,0,1,1,1,1]=some out ∧
      Drawn ⟨2,1,8⟩ sourceOver (fun x y => dot.at (x-1) (y-0)) [0,0,0,0,1,1,1,1] out := by
  obtain ⟨out,hout,hiff⟩ := @blitOver_reference_iff ⟨2,1,8⟩ [0,0,0,0,1,1,1,1] 1 0 dot
    ⟨by decide,by decide,by decide,by decide⟩ (by decide) (by decide) (by decide) (by decide) (by decide)
  refine ⟨out,hout,hiff.mpr fun x y hxy s d hs _ hclear => ?_⟩
  have hsolid : s.a=255 := by
    obtain ⟨_,_,_,_⟩ := hxy
    obtain ⟨hin,hs⟩ := Option.ite_none_right_eq_some.mp hs
    obtain ⟨rfl,rfl⟩ : x=1 ∧ y=0 := by
      simp only [dot] at hin
      omega
    cases hs
    rfl
  rcases hclear with hclear | hclear
  · rw [hsolid] at hclear
    cases hclear
  · cases hclear

/-- A colour without alpha; and a picture of two rows that begins in the last of the largest number of rows. -/
theorem last_row_lost :
    blitOver ⟨1,1,4⟩ 0 0 ⟨[10,20,30,0],1,1,4,true⟩ [1,1,1,1]=some [1,1,1,1] ∧
    ¬ Drawn ⟨1,1,4⟩ sourceOver (fun x y => (⟨[10,20,30,0],1,1,4,true⟩ : View).at (x-0) (y-0)) [1,1,1,1] [1,1,1,1] ∧
    ∃ dst,(⟨1,0x7FFFFFFF,4⟩ : Target).Sized dst ∧
    blitOver ⟨1,0x7FFFFFFF,4⟩ 0 0x7FFFFFFE {dot with height := 2} dst=some dst ∧
    ¬ Drawn ⟨1,0x7FFFFFFF,4⟩ sourceOver (fun x y => {dot with height := 2}.at (x-0) (y-0x7FFFFFFE)) dst dst := by
  refine ⟨by decide,fun h => ?_,?_⟩
  · have hpix:=h.pixels 0 0 (by unfold Target.Has; decide)
    revert hpix
    decide
  have ht : (⟨1,0x7FFFFFFF,4⟩ : Target).Sized (replicate (0x7FFFFFFF*4) 0) :=
    ⟨by decide,by decide,by decide,by rw [length_replicate]; rfl⟩
  refine ⟨_,ht,?_,fun h => ?_⟩
  · simp only [blitOver]
    rw [if_neg (by decide),if_pos (by decide)]
  · have hin : (⟨1,0x7FFFFFFF,4⟩ : Target).Has 0 0x7FFFFFFE := by unfold Target.Has; decide
    have hle:=ht.place_le hin
    rw [length_replicate] at hle
    have hpix:=h.pixels _ _ hin
    rw [pixelAt_replicate hle] at hpix
    revert hpix
    decide

end Waymux.Session.Composite
