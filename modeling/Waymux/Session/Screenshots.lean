import Waymux.Session.Composite

/-!
# Screenshots and screen capture

`State::capture_desktop` (`state.rs`), the copies of `zwlr_screencopy_v1`
(`compositor.rs`, `shm.rs`) and `encode_png` (`control.rs`).
-/

namespace Waymux.Session.Screenshots
open Framing.Pixels Subsurfaces Composite List
open BufferReads (Byte ShmFormat ShmBuffer)
open Windows (Resource Window)

structure Capture where
  pixels : List Byte
  width : Int
  height : Int
  stride : Int
deriving DecidableEq

/-- What is painted at which column, in order: regular windows are tiled, layer surfaces go over them. The windows
come in the order in which the map is iterated. -/
def placements (layer : Resource → Bool) (w : Int) (windows : List Window) : List (Resource × Int) :=
  let surfaces:=windows.map (·.surface)
  let regular:=surfaces.filter fun r => !layer r
  let tile:=w.tdiv (wrap (max regular.length 1))
  regular.zipIdx.map (fun u => (u.1,wrap (u.2*tile)))++(surfaces.filter layer).map fun r => (r,0)

def paint (s : State) (content : Resource → Content) (fuel : Nat) (t : Target) (buf : List Byte)
    (ps : List (Resource × Int)) : Option (List Byte) :=
  ps.foldlM (fun buf p => compositeInto s content t fuel buf p.1 (p.2,0)) buf

/-- `layer` is `is_layer_surface` of the surface's data. -/
def captureDesktop (s : State) (content : Resource → Content) (layer : Resource → Bool) (fuel : Nat)
    (size : Nat × Nat) (windows : List Window) : Option (Option Capture) :=
  if size.1=0 ∨ size.2=0 then some none
  else
    let w:=wrap size.1
    let h:=wrap size.2
    let stride:=wrap (w*4)
    let len:=usize (usize h*usize stride)
    if len≥0x8000000000000000 then none
    else do
      let buf ← paint s content fuel ⟨w,h,stride⟩ (List.replicate len 0) (placements layer w windows)
      some (if windows.isEmpty then none else some ⟨buf,w,h,stride⟩)

/-- A size whose rows fit in `i32`; `validate_output_size` lets through less. -/
structure Fits (size : Nat × Nat) : Prop where
  width : 0<size.1 ∧ size.1<0x20000000
  height : 0<size.2 ∧ size.2<0x80000000

def targetOf (size : Nat × Nat) : Target := ⟨size.1,size.2,4*size.1⟩

def blank (size : Nat × Nat) : List Byte := List.replicate (size.2*(4*size.1)) 0

section Desktop

variable {s : State} {content : Resource → Content} {layer : Resource → Bool} {fuel : Nat} {size : Nat × Nat}
  {windows windows' : List Window} {t : Target} {buf dst out : List Byte} {c : Capture}

theorem captureDesktop_eq (hs : Fits size) : captureDesktop s content layer fuel size windows =
    (paint s content fuel (targetOf size) (blank size) (placements layer size.1 windows)).map fun buf =>
      if windows.isEmpty then none else some ⟨buf,size.1,size.2,4*size.1⟩ := by
  obtain ⟨⟨hw0,hw⟩,⟨hh0,hh⟩⟩ := hs
  have hstride : wrap (size.1*4)=4*size.1 := by
    rw [wrap_eq (by omega) (by omega)]
    omega
  have hrow : usize (4*size.1)=4*size.1 := by unfold usize; omega
  have hrows : usize size.2=size.2 := by unfold usize; omega
  have hlt : size.2*(4*size.1)<0x80000000*0x80000000 := Nat.mul_lt_mul'' hh (by omega)
  have hlen : usize (size.2*(4*size.1) : Nat)=size.2*(4*size.1) := by unfold usize; omega
  simp only [captureDesktop]
  rw [if_neg (by omega),wrap_eq (x := size.1) (by omega) (by omega),wrap_eq (x := size.2) (by omega) (by omega),
    hstride,hrow,hrows,← Int.natCast_mul,hlen,if_neg (by omega)]
  exact (Option.map_eq_bind ..).symm

theorem targetOf_sized (hs : Fits size) (hlen : dst.length=size.2*(4*size.1)) : (targetOf size).Sized dst := by
  obtain ⟨hw,hh⟩ := hs
  refine ⟨Int.le_refl _,?_,?_,?_⟩
  · simp only [targetOf]
    omega
  · simp only [targetOf]
    omega
  · rw [hlen]
    rfl

/-! ### The order of the windows -/

/-- Layer surfaces over the regular windows, and of each kind the later id over the earlier. -/
def byRole (layer : Resource → Bool) (u v : Window) : Bool :=
  if layer u.surface=layer v.surface then u.id ≤ v.id else layer v.surface

theorem perm_few {α : Type} {l l' : List α} (h : l.Perm l') (hl : l.length≤1) : l=l' := by
  match l,hl with
  | [],_ => exact (nil_perm.mp h).symm
  | [a],_ => exact singleton_perm.mp h

def grey (g : Byte) : Pixel Byte := ⟨g,g,g,0xFF⟩

/-- Contents of one solid pixel, for the surfaces that have a shade. -/
def tinted (shade : Resource → Option Byte) (r : Resource) : Content :=
  ⟨(shade r).map fun g => ⟨1,1,4,true,some [g,g,g,0xFF]⟩,⟨none,none⟩⟩

/-- What the upper left corner shows after each of them. -/
def corner (shade : Resource → Option Byte) (p : Pixel Byte) (ps : List (Resource × Int)) : Pixel Byte :=
  ps.foldl (fun p q => if q.2=0 then ((shade q.1).map grey).getD p else p) p

variable {shade : Resource → Option Byte} {p : Pixel Byte}

theorem corner_drawn (hs : Fits size) (hlen : dst.length=size.2*(4*size.1)) (r : Resource) {x : Int} (hx : I32 x)
    (hp : pixelAt dst 0=some p) : ∃ out,compositeInto start (tinted shade) (targetOf size) 1 dst r (x,0)=some out ∧
      out.length=size.2*(4*size.1) ∧ pixelAt out 0=some (if x=0 then ((shade r).map grey).getD p else p) := by
  show ∃ out,draw (targetOf size) x 0 (tinted shade r) dst=some out ∧ _
  cases hc : shade r with
  | none =>
    refine ⟨dst,by simp [draw,Content.view,tinted,hc],hlen,?_⟩
    simpa using hp
  | some g =>
    have ht:=targetOf_sized hs hlen
    obtain ⟨⟨hw0,hw⟩,⟨hh0,hh⟩⟩ := hs
    let v : View := ⟨[g,g,g,0xFF],1,1,4,true⟩
    have hdraw : draw (targetOf size) x 0 (tinted shade r) dst=blitOver (targetOf size) x 0 v dst := by
      simp [draw,Content.view,tinted,hc,Buffer.view,Viewport.crop,Crop.plain,v]
    have hreach : Reaches (targetOf size) x 0 v := by
      refine ⟨?_,?_⟩ <;> simp only [targetOf,v] <;> omega
    obtain ⟨out,hout,hdrawn⟩ := blitOver_drawn ht (v := v) ⟨by simp [v],by simp [v],by simp [v]⟩ hx (by decide) hreach
    have hin : (targetOf size).Has 0 0 := by
      simp only [Target.Has,targetOf]
      omega
    have hplace : (targetOf size).place 0 0=0 := by simp [Target.place]
    have hpix:=hdrawn.pixels 0 0 hin
    rw [hplace,hp] at hpix
    refine ⟨out,hdraw.trans hout,hdrawn.length.trans hlen,hpix.trans ?_⟩
    by_cases hx0 : x=0
    · have hat : v.at (0-x) (0-0)=some (grey g) := by
        subst hx0
        rfl
      have hblend : blend (grey g) p=grey g := (if_neg (by simp [grey])).trans (sourceOver_solid rfl)
      rw [hat,if_pos hx0]
      exact congrArg some hblend
    · have hat : v.at (0-x) (0-0)=none := if_neg (by simp only [v]; omega)
      rw [hat,if_neg hx0]
      rfl

theorem paint_corner (hs : Fits size) (ps : List (Resource × Int)) (hps : ∀ q∈ps,I32 q.2)
    (hlen : dst.length=size.2*(4*size.1)) (hp : pixelAt dst 0=some p) :
    ∃ out,paint start (tinted shade) 1 (targetOf size) dst ps=some out ∧
      pixelAt out 0=some (corner shade p ps) := by
  induction ps generalizing dst p with
  | nil => exact ⟨dst,rfl,hp⟩
  | cons q ps ih =>
    obtain ⟨mid,hmid,hmlen,hmp⟩ := corner_drawn hs hlen q.1 (hps q mem_cons_self) hp
    obtain ⟨out,hout,hop⟩ := ih (fun q' hq' => hps q' (mem_cons_of_mem _ hq')) hmlen hmp
    refine ⟨out,?_,hop⟩
    rw [paint,foldlM_cons,hmid]
    exact hout

theorem placements_i32 (w : Int) : ∀ q∈placements layer w windows,I32 q.2 := by
  have hwrap : ∀ i,I32 (wrap i) := by
    intro i
    have hlo:=Int.le_bmod (x := i) (m := 0x100000000) (by decide)
    have hhi:=Int.bmod_lt (x := i) (m := 0x100000000) (by decide)
    exact ⟨by unfold wrap; omega,by unfold wrap; omega⟩
  intro q hq
  rcases mem_append.mp hq with hq | hq
  · obtain ⟨u,-,rfl⟩ := mem_map.mp hq
    exact hwrap _
  · obtain ⟨r,-,rfl⟩ := mem_map.mp hq
    exact (by decide : I32 0)

/-- Pictures that are the same show the same corner. -/
theorem corner_eq (hs : Fits size) (hne : windows≠[]) (hne' : windows'≠[])
    (h : captureDesktop start (tinted shade) layer 1 size windows =
      captureDesktop start (tinted shade) layer 1 size windows') :
    corner shade ⟨0,0,0,0⟩ (placements layer size.1 windows) =
      corner shade ⟨0,0,0,0⟩ (placements layer size.1 windows') := by
  have hlen : (blank size).length=size.2*(4*size.1) := length_replicate
  have hp : pixelAt (blank size) 0=some ⟨0,0,0,0⟩ := by
    refine pixelAt_replicate ?_ 0
    have hrow : 1*(4*1) ≤ size.2*(4*size.1) := Nat.mul_le_mul hs.height.1 (Nat.mul_le_mul_left 4 hs.width.1)
    omega
  have hpainted : ∀ windows,∃ out,paint start (tinted shade) 1 (targetOf size) (blank size)
      (placements layer size.1 windows)=some out ∧
        pixelAt out 0=some (corner shade ⟨0,0,0,0⟩ (placements layer size.1 windows)) :=
    fun _ => paint_corner hs _ (placements_i32 _) hlen hp
  obtain ⟨out,hout,hc⟩ := hpainted windows
  obtain ⟨out',hout',hc'⟩ := hpainted windows'
  rw [captureDesktop_eq hs,captureDesktop_eq hs,hout,hout'] at h
  have heq : out=out' := by simpa [hne,hne'] using h
  rw [heq,hc'] at hc
  exact (Option.some.inj hc).symm

theorem corner_pair {a b : Byte} {u v : Resource} {y : Int} {ps qs : List (Resource × Int)} (hu : shade u=some a)
    (hv : shade v=some b) (hps : ∀ q∈ps++qs,shade q.1=none) :
    corner shade p (ps++(u,0)::(v,y)::qs)=if y=0 then grey b else grey a := by
  have hskip : ∀ (l : List (Resource × Int)) p,(∀ q∈l,shade q.1=none) → corner shade p l=p := by
    intro l p hl
    induction l with
    | nil => rfl
    | cons q l ih =>
      have hq : (if q.2=0 then ((shade q.1).map grey).getD p else p)=p := by rw [hl q mem_cons_self]; simp
      rw [corner,foldl_cons,hq]
      exact ih fun q' hq' => hl q' (mem_cons_of_mem _ hq')
  rw [corner,foldl_append,foldl_cons,foldl_cons,hv]
  have hfront:=hskip ps p fun q hq => hps q (mem_append_left _ hq)
  rw [corner] at hfront
  rw [hfront,if_pos rfl,hu]
  exact hskip qs _ fun q hq => hps q (mem_append_right _ hq)

/-- Where two windows of one role come first, their columns do not depend on them. -/
theorem placements_pair (layer : Resource → Bool) (role : Bool) (w : Int) (rest : List Window) :
    ∃ y,∀ u v : Window,layer u.surface=role → layer v.surface=role → ∃ ps qs,
      placements layer w (u::v::rest)=ps++(u.surface,0)::(v.surface,y)::qs ∧
      ∀ q∈ps++qs,q.1∈rest.map (·.surface) := by
  have htail : ∀ k (f : Resource × Nat → Int),∀ q∈(((rest.map (·.surface)).filter fun r => !layer r).zipIdx k).map
      (fun u => (u.1,f u))++((rest.map (·.surface)).filter layer).map (fun r => (r,(0 : Int))),
      q.1∈rest.map (·.surface) := by
    intro k f q hq
    rcases mem_append.mp hq with hq | hq
    · obtain ⟨u,hu,rfl⟩ := mem_map.mp hq
      exact (mem_filter.mp (fst_mem_of_mem_zipIdx hu)).1
    · obtain ⟨r,hr,rfl⟩ := mem_map.mp hq
      exact (mem_filter.mp hr).1
  cases role with
  | true =>
    let tile:=w.tdiv (wrap (max ((rest.map (·.surface)).filter fun r => !layer r).length 1))
    refine ⟨0,fun u v hu hv => ⟨_,_,?_,htail 0 fun u => wrap (u.2*tile)⟩⟩
    simp only [placements,map_cons,filter_cons,hu,hv,Bool.not_true,Bool.false_eq_true,if_false,if_true]
    rfl
  | false =>
    let tile:=w.tdiv (wrap (max ((rest.map (·.surface)).filter fun r => !layer r).length.succ.succ 1))
    refine ⟨wrap ((1 : Nat)*tile),fun u v hu hv => ⟨[],_,?_,htail 2 fun u => wrap (u.2*tile)⟩⟩
    simp only [placements,map_cons,filter_cons,hu,hv,Bool.not_false,Bool.false_eq_true,if_false,if_true,
      zipIdx_cons,cons_append,nil_append,Int.natCast_zero,Int.zero_mul,Nat.zero_add]
    rfl

theorem two_of_role {role : Bool} (h : 1<(windows.filter fun u => layer u.surface=role).length) :
    ∃ u v rest,windows.Perm (u::v::rest) ∧ layer u.surface=role ∧ layer v.surface=role := by
  match hf : windows.filter fun u => layer u.surface=role with
  | [] => simp [hf] at h
  | [_] => simp [hf] at h
  | u::v::l =>
    have hmem : ∀ x∈u::v::l,layer x.surface=role := by
      intro x hx
      rw [← hf] at hx
      exact of_decide_eq_true (mem_filter.mp hx).2
    have hperm:=(filter_append_perm (fun u : Window => layer u.surface=role) windows).symm
    rw [hf] at hperm
    exact ⟨u,v,_,hperm,hmem u (by simp),hmem v (by simp)⟩

/-- Two windows of one role can change places in the picture. -/
theorem two_seen {role : Bool} (hs : Fits size) (hn : (windows.map (·.surface)).Nodup)
    (h : 1<(windows.filter fun u => layer u.surface=role).length) : ∃ shade l l',windows.Perm l ∧ windows.Perm l' ∧
      captureDesktop start (tinted shade) layer 1 size l≠captureDesktop start (tinted shade) layer 1 size l' := by
  obtain ⟨u,v,rest,hperm,hu,hv⟩ := two_of_role h
  have hn:=(hperm.map (·.surface)).nodup_iff.mp hn
  simp only [map_cons,nodup_cons,mem_cons,not_or] at hn
  obtain ⟨⟨huv,hur⟩,hvr,-⟩ := hn
  obtain ⟨y,hy⟩ := placements_pair layer role size.1 rest
  let shade : Resource → Option Byte := fun r =>
    if r=u.surface then some 1 else if r=v.surface then some 2 else none
  have hcu : shade u.surface=some 1 := if_pos rfl
  have hcv : shade v.surface=some 2 := (if_neg (Ne.symm huv)).trans (if_pos rfl)
  have hrest : ∀ r∈rest.map (·.surface),shade r=none := by
    intro r hr
    have hne : r≠u.surface ∧ r≠v.surface := ⟨fun he => hur (he ▸ hr),fun he => hvr (he ▸ hr)⟩
    simp [shade,hne]
  refine ⟨shade,u::v::rest,v::u::rest,hperm,hperm.trans (.swap _ _ _),fun he => ?_⟩
  have hcorner:=corner_eq hs (by simp) (by simp) he
  obtain ⟨ps,qs,hp,hrest₁⟩ := hy u v hu hv
  obtain ⟨ps',qs',hp',hrest₂⟩ := hy v u hv hu
  rw [hp,hp',corner_pair hcu hcv fun q hq => hrest _ (hrest₁ q hq),
    corner_pair hcv hcu fun q hq => hrest _ (hrest₂ q hq)] at hcorner
  by_cases h0 : y=0 <;> simp [h0,grey] at hcorner

theorem filter_surfaces (role : Bool) : (windows.map (·.surface)).filter (fun r => layer r=role) =
    (windows.filter fun u => layer u.surface=role).map (·.surface) := by
  rw [filter_map]
  rfl

/-- For every content the picture is the one that ids and roles give, whatever the order of the map, exactly if no
two windows have the same role. -/
theorem capture_ordered_iff (hs : Fits size) (hn : (windows.map (·.surface)).Nodup) :
    (∀ s content fuel windows',windows.Perm windows' → captureDesktop s content layer fuel size windows' =
      captureDesktop s content layer fuel size (windows.mergeSort (byRole layer))) ↔
    ∀ role,(windows.filter fun u => layer u.surface=role).length≤1 := by
  constructor
  · intro h role
    by_contra hlen
    obtain ⟨shade,l,l',hl,hl',hne⟩ := two_seen hs hn (Nat.lt_of_not_le hlen)
    exact hne ((h start (tinted shade) 1 l hl).trans (h start (tinted shade) 1 l' hl').symm)
  · intro h s content fuel windows' hperm
    have hp : windows'.Perm (windows.mergeSort (byRole layer)) := hperm.symm.trans (mergeSort_perm _ _).symm
    have hrole : ∀ role,(windows'.map (·.surface)).filter (fun r => layer r=role) =
        ((windows.mergeSort (byRole layer)).map (·.surface)).filter fun r => layer r=role := by
      intro role
      refine perm_few ((hp.map _).filter _) ?_
      rw [filter_surfaces,length_map,(hperm.filter _).length_eq.symm]
      exact h role
    have hregular:=hrole false
    have hlayers:=hrole true
    simp only [Bool.decide_eq_false,Bool.decide_eq_true] at hregular hlayers
    have hplace : placements layer size.1 windows'=placements layer size.1 (windows.mergeSort (byRole layer)) := by
      simp only [placements,hregular,hlayers]
    have hempty : windows'.isEmpty=(windows.mergeSort (byRole layer)).isEmpty := by
      rw [Bool.eq_iff_iff,isEmpty_iff_length_eq_zero,isEmpty_iff_length_eq_zero,hp.length_eq]
    rw [captureDesktop_eq hs,captureDesktop_eq hs,hplace,hempty]

def panel (r : Resource) : Bool := r=⟨1,2⟩

def shades : Resource → Content := tinted fun r => some (if r=⟨1,1⟩ then 1 else 2)

theorem capture_ordered_panel :
    captureDesktop start shades panel 3 (2,1) [⟨1,⟨1,1⟩,true⟩,⟨2,⟨1,2⟩,true⟩] =
      captureDesktop start shades panel 3 (2,1) [⟨2,⟨1,2⟩,true⟩,⟨1,⟨1,1⟩,true⟩] := by
  have hiff:=@capture_ordered_iff panel (2,1) [⟨1,⟨1,1⟩,true⟩,⟨2,⟨1,2⟩,true⟩] ⟨by decide,by decide⟩ (by decide)
  have hsame:=hiff.mpr (by decide) start shades 3
  exact (hsame _ (.refl _)).trans (hsame _ (.swap _ _ _)).symm

/-- Two windows change places with the order of the map, and of two layers the last one is seen. -/
theorem capture_order_shown :
    let first : Window := ⟨1,⟨1,1⟩,true⟩
    let second : Window := ⟨2,⟨1,2⟩,true⟩
    captureDesktop start shades (fun _ => false) 3 (2,1) [first,second]=some (some ⟨[1,1,1,255,2,2,2,255],2,1,8⟩) ∧
    captureDesktop start shades (fun _ => false) 3 (2,1) [second,first]=some (some ⟨[2,2,2,255,1,1,1,255],2,1,8⟩) ∧
    captureDesktop start shades (fun _ => true) 3 (1,1) [first,second]=some (some ⟨[2,2,2,255],1,1,4⟩) ∧
    captureDesktop start shades (fun _ => true) 3 (1,1) [second,first]=some (some ⟨[1,1,1,255],1,1,4⟩) := by
  decide +kernel

/-! ### Screencopy -/

structure Region where
  x : Int
  y : Int
  width : Int
  height : Int

structure Frame where
  width : Int
  height : Int
  stride : Int
  used : Bool

inductive Answer
  | alreadyUsed
  | failed
  | ready (mem : Nat → Byte)

/-- Size, stride and format are those that were advertised. -/
def Frame.Matches (f : Frame) (b : ShmBuffer) : Prop :=
  b.width.toInt=f.width ∧ b.height.toInt=f.height ∧ b.stride.toInt=f.stride ∧
    (b.format=.argb8888 ∨ b.format=.xrgb8888)

instance (f : Frame) (b : ShmBuffer) : Decidable (f.Matches b) := inferInstanceAs (Decidable (_ ∧ _))

def Region.left (r : Region) : Nat := r.x.toNat

def Region.top (r : Region) : Nat := r.y.toNat

def Region.columns (r : Region) (size : Nat × Nat) : Nat := (min (r.x+r.width) size.1-max r.x 0).toNat

def Region.rows (r : Region) (size : Nat × Nat) : Nat := (min (r.y+r.height) size.2-max r.y 0).toNat

def TooSmall (b : ShmBuffer) : Prop :=
  b.offset.toInt<0 ∨ b.pool.size<b.offset.toInt.toNat+b.height.toInt.toNat*b.stride.toInt.toNat

/-- Row by row at the stride of the buffer, and nothing else is written. -/
structure Shown (c : Capture) (r : Region) (size : Nat × Nat) (b : ShmBuffer) (mem out : Nat → Byte) : Prop where
  inside : ∀ y<r.rows size,∀ i<4*r.columns size,
    c.pixels[(r.top+y)*c.stride.toNat+4*r.left+i]?=some (out (b.offset.toInt.toNat+y*b.stride.toInt.toNat+i))
  outside : ∀ k,(∀ y<r.rows size,k<b.offset.toInt.toNat+y*b.stride.toInt.toNat ∨
    b.offset.toInt.toNat+y*b.stride.toInt.toNat+4*r.columns size≤k) → out k=mem k

/-- The region is shown, or the copy fails for one of the three reasons. -/
def Faithful (capture : Option Capture) (r : Region) (size : Nat × Nat) (mem : Nat → Byte) (f : Frame)
    (b : ShmBuffer) : Answer → Prop
  | .alreadyUsed => False
  | .failed => capture=none ∨ ¬ f.Matches b ∨ TooSmall b
  | .ready out => ∃ c,capture=some c ∧ Shown c r size b mem out

/-- The region contains the whole output. -/
def Region.Whole (r : Region) (size : Nat × Nat) : Prop :=
  (r.x≤0 ∧ size.1≤r.x+r.width) ∧ r.y≤0 ∧ size.2≤r.y+r.height

variable {r : Region} {b : ShmBuffer} {mem : Nat → Byte} {capture : Option Capture}

end Desktop

def desk : Capture := ⟨[1,1,1,255,2,2,2,255],2,1,8⟩

/-- A buffer of one row with nothing around it -/
def row (width : Int32) : ShmBuffer := ⟨⟨(4*width).toInt.toNat,none⟩,0,width,1,4*width,.argb8888⟩

/-- The image data that the encoder is given -/
structure Png where
  width : Nat
  height : Nat
  alpha : Bool
  data : List Byte
deriving DecidableEq

def swizzle (alpha : Bool) (p : Pixel Byte) : List Byte := if alpha then [p.r,p.g,p.b,p.a] else [p.r,p.g,p.b]

def encodeRows (pixels : List Byte) (width height stride : Int) (alpha : Bool) : Except String Png := do
  let rows ← (block 0 height 0 width).mapM fun q =>
    match pixelAt pixels (q.1*stride+q.2*4).toNat with
    | none => .error "shm buffer shorter than declared geometry"
    | some p => .ok (swizzle alpha p)
  -- `write_header` makes no file without pixels
  if width=0 then .error "Zero width not allowed"
  else if height=0 then .error "Zero height not allowed"
  else .ok ⟨width.toNat,height.toNat,alpha,rows.flatten⟩

def encodePng (pixels : List Byte) (width height stride : Int) (format : ShmFormat) : Except String Png :=
  if width<0 then .error "negative width"
  else if height<0 then .error "negative height"
  else if stride<0 then .error "negative stride"
  else match format with
    | .argb8888 => encodeRows pixels width height stride true
    | .xrgb8888 => encodeRows pixels width height stride false
    | .other => .error "unsupported shm format"

/-- A channel of straight alpha, premultiplied with rounding -/
def premultiplied (alpha c : Byte) : Nat := (2*c.toNat*alpha.toNat+255)/510

/-- Read as straight alpha and premultiplied again, no channel is off by more than one. -/
def Kept (p : Pixel Byte) : Prop :=
  ∀ c∈[p.b,p.g,p.r],c.toNat≤premultiplied p.a c+1 ∧ premultiplied p.a c≤c.toNat+1

theorem kept_iff (p : Pixel Byte) : Kept p ↔ ∀ c∈[p.b,p.g,p.r],c.toNat*(255-p.a.toNat)≤382 := by
  have ha : p.a.toNat<256 := p.a.toNat_lt
  refine forall₂_congr fun c _ => ?_
  have hsplit : c.toNat*p.a.toNat+c.toNat*(255-p.a.toNat)=c.toNat*255 := by
    rw [← Nat.mul_add,Nat.add_sub_cancel' (by omega)]
  have hdouble : 2*c.toNat*p.a.toNat=2*(c.toNat*p.a.toNat) := Nat.mul_assoc ..
  unfold premultiplied
  omega

variable {pixels : List Byte} {width height stride : Int} {px : Int → Int → Pixel Byte}

/-- The rows are taken at the stride, and the colours are kept exactly where no
channel times the missing alpha is over 382. -/
theorem png_kept_iff (hw : 0<width) (hh : 0<height) (hs : 0 ≤ stride)
    (hpx : ∀ q∈block 0 height 0 width,pixelAt pixels (q.1*stride+q.2*4).toNat=some (px q.2 q.1)) :
    encodePng pixels width height stride .argb8888=.ok ⟨width.toNat,height.toNat,true,
      (block 0 height 0 width).flatMap fun q => [(px q.2 q.1).r,(px q.2 q.1).g,(px q.2 q.1).b,(px q.2 q.1).a]⟩ ∧
    ((∀ q∈block 0 height 0 width,Kept (px q.2 q.1)) ↔ ∀ q∈block 0 height 0 width,
      ∀ c∈[(px q.2 q.1).b,(px q.2 q.1).g,(px q.2 q.1).r],c.toNat*(255-(px q.2 q.1).a.toNat)≤382) := by
  refine ⟨?_,forall₂_congr fun q _ => kept_iff _⟩
  have hrows : ∀ qs : List (Int × Int),(∀ q∈qs,pixelAt pixels (q.1*stride+q.2*4).toNat=some (px q.2 q.1)) →
      qs.mapM (m := Except String) (fun q => match pixelAt pixels (q.1*stride+q.2*4).toNat with
        | none => .error "shm buffer shorter than declared geometry"
        | some p => .ok (swizzle true p))=.ok (qs.map fun q => swizzle true (px q.2 q.1)) := by
    intro qs hqs
    induction qs with
    | nil => rfl
    | cons q qs ih =>
      rw [mapM_cons,ih fun q' hq' => hqs q' (mem_cons_of_mem _ hq'),hqs q mem_cons_self]
      rfl
  rw [encodePng,if_neg (by omega),if_neg (by omega),if_neg (by omega)]
  simp only [encodeRows]
  rw [hrows _ hpx]
  show (if width=0 then _ else if height=0 then _ else _)=_
  rw [if_neg (by omega),if_neg (by omega)]
  rfl

theorem png_kept_solid :
    encodePng [1,2,3,255,0,0,4,5,6,255] 1 2 6 .argb8888=.ok ⟨1,2,true,[3,2,1,255,6,5,4,255]⟩ ∧
    ∀ q∈block 0 2 0 1,Kept (if q.1=0 then ⟨1,2,3,255⟩ else ⟨4,5,6,255⟩) := by
  have h:=@png_kept_iff [1,2,3,255,0,0,4,5,6,255] 1 2 6 (fun _ y => if y=0 then ⟨1,2,3,255⟩ else ⟨4,5,6,255⟩)
    (by decide) (by decide) (by decide) (by decide)
  exact ⟨h.1,h.2.mpr (by decide +kernel)⟩

/-- Half transparent white comes back half as bright. -/
theorem png_darkened : encodePng [128,128,128,128] 1 1 4 .argb8888=.ok ⟨1,1,true,[128,128,128,128]⟩ ∧
    premultiplied 128 128=64 := by
  decide

end Waymux.Session.Screenshots
