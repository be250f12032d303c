import Waymux.Session.BufferReads

/-!
# The picture of a cursor

How `note_cursor_dirty` (`state.rs`) reads a buffer into packed RGBA (`viewer/cursor.rs`), and the
picture that the buffer shows.
-/

namespace Waymux.Viewer.CursorPicture
open Session.BufferReads Framing.Rows List

def maxCursorDim : Nat := 256

/-- `a + b` in `u32` -/
def addU32 (checks : Bool) (a b : Nat) : Run Nat :=
  if a+b<0x100000000 then .ok (a+b)
  else if checks then .error .overflow
  else .ok ((a+b)%0x100000000)

def sourceOffset (checks : Bool) (stride x y : Nat) : Run Nat := do
  addU32 checks (← mulU32 checks y stride) (← mulU32 checks x 4)

def targetOffset (checks : Bool) (w x y : Nat) : Run Nat := do
  mulU32 checks (← addU32 checks (← mulU32 checks y w) x) 4

/-- The pixel at an offset, red first. Where the bytes end before it, it is transparent. -/
def pixelFrom (src : List Byte) (i : Nat) : List Byte :=
  if i+3<src.length then [src.getD (i+2) 0,src.getD (i+1) 0,src.getD i 0,src.getD (i+3) 0]
  else List.replicate 4 0

def putPixel (checks : Bool) (src : List Byte) (w stride y : Nat) (out : List Byte) (x : Nat) : Run (List Byte) := do
  let si ← sourceOffset checks stride x y
  let di ← targetOffset checks w x y
  if src.length ≤ si+3 then .ok out
  else if di+3<out.length then .ok (paste out di (pixelFrom src si))
  else .error .slice

def argb8888BytesToRgba (checks : Bool) (src : List Byte) (w h stride : Nat) : Run (List Byte) := do
  let len ← mulU32 checks (← mulU32 checks w h) 4
  (List.range h).foldlM (fun out y => (List.range w).foldlM (putPixel checks src w stride y) out)
    (List.replicate len 0)

def forceAlpha : List Byte → List Byte
  | r::g::b::_::rest => r::g::b::0xFF::forceAlpha rest
  | rest => rest

def flipRow (src : List Byte) (row h : Nat) (out : List Byte) (y : Nat) : List Byte :=
  let sy:=(h-1-y)*row
  let dy:=y*row
  if sy+row ≤ src.length ∧ dy+row≤out.length then paste out dy ((src.drop sy).take row) else out

def flipRowsRgba (src : List Byte) (w h : Nat) : List Byte :=
  (List.range h).foldl (flipRow src (w*4) h) (List.replicate src.length 0)

/-- In one of the two formats, with width, height and stride, and whether the fourth byte means nothing. -/
def cursorShmArgbBytes (b : ShmBuffer) : Option (Nat × Nat × Nat × List Byte × Bool) :=
  b.readable.map fun bytes => (asU32 b.width,asU32 b.height,asU32 b.stride,bytes,b.format=.xrgb8888)

abbrev Rgba := Byte × Byte × Byte × Byte

def rgbaBytes : Rgba → List Byte
  | (r,g,b,a) => [r,g,b,a]

def packed (pixel : Nat → Nat → List Byte) (w h : Nat) : List Byte :=
  (List.range h).flatMap fun y => (List.range w).flatMap fun x => pixel x y

/-- `egl` is the imported image of a dmabuf, if it can be read. -/
structure Content where
  kind : BufferKind
  egl : Option (Nat → Nat → Rgba)

/-- `glReadPixels` from a texture gives the rows of the buffer in their order, as
`egl_readback` has it. -/
def readRgba (egl : Option (Nat → Nat → Rgba)) (w h : Nat) : Option (List Byte) :=
  egl.map fun pixel => flipRowsRgba (packed (fun x y => rgbaBytes (pixel x y)) w h) w h

structure Picture where
  width : Nat
  height : Nat
  rgba : List Byte
deriving DecidableEq

def fits (w h : Nat) : Bool := w ≤ maxCursorDim && h ≤ maxCursorDim

def Content.read (c : Content) : Option Picture :=
  match c.kind with
  | .shm b =>
    (cursorShmArgbBytes b).bind fun (w,h,stride,bytes,solid) =>
      if !fits w h then none
      else
        -- the bytes of a readable buffer have 31-bit offsets, so no build fails here
        (argb8888BytesToRgba false bytes w h stride).toOption.map fun rgba =>
          ⟨w,h,if solid then forceAlpha rgba else rgba⟩
  | .dmabuf d =>
    if !fits (asU32 d.width) (asU32 d.height) then none
    else (readRgba c.egl (asU32 d.width) (asU32 d.height)).map (⟨asU32 d.width,asU32 d.height,·⟩)
  | .singlePixel _ | .invalid => none

/-- A pixel of shared memory, at the offset without any wrapping. -/
def pixelAt (src : List Byte) (stride x y : Nat) : List Byte := pixelFrom src (y*stride+x*4)

/-- Without an alpha channel a pixel is solid. -/
def shmPixel (b : ShmBuffer) (bytes : List Byte) (x y : Nat) : List Byte :=
  if b.format=.xrgb8888 then (pixelAt bytes (asU32 b.stride) x y).set 3 0xFF else pixelAt bytes (asU32 b.stride) x y

/-- The picture in a buffer that can be read and is not too large. -/
def Content.picture (c : Content) : Option Picture :=
  match c.kind with
  | .shm b =>
    if fits (asU32 b.width) (asU32 b.height) then
      b.readable.map fun bytes =>
        ⟨asU32 b.width,asU32 b.height,packed (shmPixel b bytes) (asU32 b.width) (asU32 b.height)⟩
    else none
  | .dmabuf d =>
    if fits (asU32 d.width) (asU32 d.height) then
      c.egl.map fun pixel =>
        ⟨asU32 d.width,asU32 d.height,packed (fun x y => rgbaBytes (pixel x y)) (asU32 d.width) (asU32 d.height)⟩
    else none
  | .singlePixel (b,g,r,a) => some ⟨1,1,[r,g,b,a]⟩
  | .invalid => none

/-- A dmabuf whose picture is the same upside down; the buffer of a single pixel is
not read at all. -/
def Content.isTaken (c : Content) : Bool :=
  match c.kind, c.egl with
  | .dmabuf d, some pixel =>
    decide (∀ y<asU32 d.height,∀ x<asU32 d.width,pixel x (asU32 d.height-1-y)=pixel x y)
  | .singlePixel _, _ => false
  | _, _ => true

theorem pixelFrom_length (src : List Byte) (i : Nat) : (pixelFrom src i).length=4 := by
  unfold pixelFrom
  split <;> rfl

variable {src done rest : List Byte} {checks : Bool} {w h stride x y i : Nat}

theorem fits_iff : fits w h=true ↔ w≤256 ∧ h≤256 := by
  rw [fits,Bool.and_eq_true,decide_eq_true_eq,decide_eq_true_eq]
  rfl

theorem sourceOffset_eq (hx : x<256) : sourceOffset checks stride x y =
    if y*stride+x*4<0x100000000 then .ok (y*stride+x*4)
    else if checks then .error .overflow
    else .ok ((y*stride+x*4)%0x100000000) := by
  rw [sourceOffset,mulU32_fits checks (a := x) (by omega)]
  by_cases hrow : y*stride<0x100000000
  · rw [mulU32_fits checks hrow]
    rfl
  rw [if_neg (by omega),mulU32,if_neg hrow]
  cases checks with
  | true => rfl
  | false =>
    show addU32 false (y*stride%0x100000000) (x*4)=_
    unfold addU32
    split
    · exact congrArg Except.ok (by omega)
    · exact congrArg Except.ok (by omega)

/-- The offset in 32 bits, in a build that does not check or where it fits. -/
theorem sourceOffset_ok (hx : x<256) (h : 0x100000000≤y*stride+x*4 → checks=false) :
    sourceOffset checks stride x y=.ok ((y*stride+x*4)%0x100000000) := by
  rw [sourceOffset_eq hx]
  split
  next hlt => rw [Nat.mod_eq_of_lt hlt]
  next hge =>
    rw [h (by omega)]
    rfl

theorem targetOffset_eq (hw : w≤256) (hx : x<w) (hy : y<256) :
    targetOffset checks w x y=.ok ((y*w+x)*4) := by
  have hrow : y*w≤256*256 := Nat.mul_le_mul (by omega) hw
  have hsum : addU32 checks (y*w) x=.ok (y*w+x) := if_pos (by omega)
  rw [targetOffset,mulU32_fits checks (by omega)]
  show (addU32 checks (y*w) x >>= fun n => mulU32 checks n 4)=_
  rw [hsum]
  exact mulU32_fits checks (by omega)

theorem putPixel_fills (hw : w≤256) (hx : x<w) (hy : y<256) (hsrc : sourceOffset checks stride x y=.ok i)
    (hdone : done.length=(y*w+x)*4) :
    putPixel checks src w stride y (done++(List.replicate 4 0++rest)) x =
      .ok (done++(pixelFrom src i++rest)) := by
  rw [putPixel,hsrc,targetOffset_eq hw hx hy,← hdone]
  show (if src.length ≤ i+3 then _ else _)=_
  split
  next hend => rw [pixelFrom,if_neg (by omega)]
  next hin =>
    rw [if_pos (by simp only [length_append,length_replicate]; omega)]
    exact congrArg Except.ok (paste_blank (pixelFrom_length src i).symm)

theorem argb8888BytesToRgba_run (hfit : fits w h=true) :
    argb8888BytesToRgba checks src w h stride =
      (List.range h).foldlM (fun out y => (List.range w).foldlM (putPixel checks src w stride y) out)
        (List.replicate (h*(w*4)) 0) := by
  obtain ⟨hw,hh⟩ := fits_iff.mp hfit
  have harea : w*h≤256*256 := Nat.mul_le_mul hw hh
  have hlen : w*h*4=h*(w*4) := by rw [Nat.mul_comm w h,Nat.mul_assoc]
  rw [argb8888BytesToRgba,mulU32_fits checks (a := w) (by omega),← hlen]
  show (mulU32 checks (w*h) 4 >>= _)=_
  rw [mulU32_fits checks (by omega)]
  rfl

theorem argb8888BytesToRgba_ok (hfit : fits w h=true)
    (hnarrow : ∀ y<h,∀ x<w,0x100000000≤y*stride+x*4 → checks=false) :
    argb8888BytesToRgba checks src w h stride =
      .ok (packed (fun x y => pixelFrom src ((y*stride+x*4)%0x100000000)) w h) := by
  obtain ⟨hw,hh⟩ := fits_iff.mp hfit
  let pixel:=fun x y => pixelFrom src ((y*stride+x*4)%0x100000000)
  have hpixels : ∀ x y,(pixel x y).length=4 := fun x y => pixelFrom_length src _
  -- a round of the outer loop fills a row, each of its inner rounds a pixel
  have hrows : ∀ y<h,∀ done rest : List Byte,done.length=(0+y)*(w*4) →
      (range w).foldlM (putPixel checks src w stride y) (done++(replicate (w*4) 0++rest)) =
        .ok (done++((range w).flatMap (pixel · y)++rest)) := by
    intro y hy done rest hdone
    have hstart : done.length=y*w*4 := by rw [hdone,Nat.zero_add,Nat.mul_assoc]
    refine foldlM_fills (y*w) done hstart (hpixels · y) w rest fun x hx done rest hdone => ?_
    exact putPixel_fills hw hx (by omega) (sourceOffset_ok (by omega) (hnarrow y hy x hx)) hdone
  have hlen : ∀ y,((range w).flatMap (pixel · y)).length=w*4 :=
    fun y => (flatMap_packed w (hpixels · y)).length
  have hfill:=foldlM_fills (g := fun out y => (range w).foldlM (putPixel checks src w stride y) out) 0 []
    (by simp) hlen h [] hrows
  simp only [nil_append,append_nil] at hfill
  rw [argb8888BytesToRgba_run hfit]
  exact hfill

/-- In a build that checks, no offset was too large if the conversion ends. -/
theorem argb8888BytesToRgba_narrow {out : List Byte} (hfit : fits w h=true)
    (hrun : argb8888BytesToRgba checks src w h stride=.ok out) (hy : y<h) (hx : x<w)
    (hwide : 0x100000000≤y*stride+x*4) : checks=false := by
  obtain ⟨hw,-⟩ := fits_iff.mp hfit
  rw [argb8888BytesToRgba_run hfit] at hrun
  obtain ⟨_,_,hrow⟩ := foldlM_round _ _ hrun (mem_range.mpr hy)
  obtain ⟨_,_,hput⟩ := foldlM_round _ _ hrow (mem_range.mpr hx)
  obtain ⟨_,hsrc,-⟩ := bind_ok hput
  rw [sourceOffset_eq (by omega),if_neg (by omega)] at hsrc
  cases checks with
  | true => cases hsrc
  | false => rfl

theorem packed_congr {p q : Nat → Nat → List Byte} (hpq : ∀ y<h,∀ x<w,p x y=q x y) :
    packed p w h=packed q w h := by
  refine flatMap_congr fun y hy => flatMap_congr fun x hx => ?_
  exact hpq y (mem_range.mp hy) x (mem_range.mp hx)

theorem argb8888BytesToRgba_exact (hfit : fits w h=true) (hbytes : h*stride<0x80000000) :
    argb8888BytesToRgba checks src w h stride=.ok (packed (pixelAt src stride) w h) := by
  obtain ⟨hw,-⟩ := fits_iff.mp hfit
  have hlt : ∀ y<h,∀ x<w,y*stride+x*4<0x100000000 := by
    intro y hy x hx
    have hle : y*stride≤h*stride := Nat.mul_le_mul_right stride (Nat.le_of_lt hy)
    omega
  rw [argb8888BytesToRgba_ok hfit fun y hy x hx hge => absurd (hlt y hy x hx) (by omega)]
  refine congrArg Except.ok (packed_congr fun y hy x hx => ?_)
  rw [Nat.mod_eq_of_lt (hlt y hy x hx)]
  rfl

/-- Pixel `(x, y)` of a picture without gaps. -/
def outputPixel (out : List Byte) (w x y : Nat) : List Byte := (out.drop ((y*w+x)*4)).take 4

theorem outputPixel_packed {pixel : Nat → Nat → List Byte} (hp : ∀ x y,(pixel x y).length=4) (hx : x<w) (hy : y<h) :
    outputPixel (packed pixel w h) w x y=pixel x y := by
  have hrow:=(flatMap_packed h fun y => (flatMap_packed w fun x => hp x y).length).row_eq y hy
  have hpixel:=(flatMap_packed w fun x => hp x y).row_eq x hx
  rw [← hrow] at hpixel
  rw [← hpixel,outputPixel,rowAt,rowAt,drop_take,drop_drop,take_take,← Nat.mul_assoc,← Nat.add_mul]
  congr 1
  omega

theorem forceAlpha_flatMap {f g : Nat → List Byte}
    (h : ∀ k rest,forceAlpha (f k++rest)=g k++forceAlpha rest) (ks : List Nat) (rest : List Byte) :
    forceAlpha (ks.flatMap f++rest)=ks.flatMap g++forceAlpha rest := by
  induction ks with
  | nil => rfl
  | cons k ks ih => rw [flatMap_cons,flatMap_cons,append_assoc,append_assoc,h,ih]

theorem forceAlpha_pixel {p : List Byte} (hp : p.length=4) (rest : List Byte) :
    forceAlpha (p++rest)=p.set 3 0xFF++forceAlpha rest := by
  match p, hp with
  | [r,g,b,a], _ => rfl

theorem forceAlpha_packed {pixel : Nat → Nat → List Byte} (hp : ∀ x y,(pixel x y).length=4) (w h : Nat) :
    forceAlpha (packed pixel w h)=packed (fun x y => (pixel x y).set 3 0xFF) w h := by
  have hrow:=forceAlpha_flatMap (fun y => forceAlpha_flatMap (fun x => forceAlpha_pixel (hp x y)) (range w))
    (range h) []
  simpa [packed,forceAlpha] using hrow

theorem read_shm {c : Content} {b : ShmBuffer} (hc : c.kind=.shm b) : c.read=c.picture := by
  unfold Content.read Content.picture
  rw [hc]
  cases hb : b.readable with
  | none => simp [cursorShmArgbBytes,hb]
  | some bytes =>
    by_cases hfit : fits (asU32 b.width) (asU32 b.height)=true
    · have hbytes : b.bytes=some bytes := (Option.ite_none_left_eq_some.mp hb).2
      obtain ⟨hlen,hsmall,-⟩ := shm_bytes hbytes
      have hpacked : argb8888BytesToRgba false bytes (asU32 b.width) (asU32 b.height) (asU32 b.stride) =
          .ok (packed (pixelAt bytes (asU32 b.stride)) (asU32 b.width) (asU32 b.height)) :=
        argb8888BytesToRgba_exact hfit (by omega)
      simp only [cursorShmArgbBytes,hb,hfit,hpacked,Option.map_some,Option.bind_some,Bool.not_true,
        Bool.false_eq_true,if_false,if_true,decide_eq_true_eq,Except.toOption]
      by_cases hx : b.format=.xrgb8888
      · have hpixel : shmPixel b bytes=fun x y => (pixelAt bytes (asU32 b.stride) x y).set 3 0xFF := by
          funext x y
          exact if_pos hx
        have hlen : ∀ x y,(pixelAt bytes (asU32 b.stride) x y).length=4 := fun _ _ => pixelFrom_length bytes _
        rw [if_pos hx,forceAlpha_packed hlen,hpixel]
      · have hpixel : shmPixel b bytes=pixelAt bytes (asU32 b.stride) := by
          funext x y
          exact if_neg hx
        rw [if_neg hx,hpixel]
    · simp [cursorShmArgbBytes,hb,hfit]

theorem flipRowsRgba_rows {row : Nat → List Byte} (hrow : ∀ y,(row y).length=w*4) (h : Nat) :
    flipRowsRgba ((List.range h).flatMap row) w h=(List.range h).flatMap fun y => row (h-1-y) := by
  have hsrc:=flatMap_packed h hrow
  have hlen : ((range h).flatMap row).length=h*(w*4) := hsrc.length
  have hround : ∀ y<h,∀ done rest : List Byte,done.length=(0+y)*(w*4) →
      flipRow ((range h).flatMap row) (w*4) h (done++(replicate (w*4) 0++rest)) y =
        done++(row (h-1-y)++rest) := by
    intro y hy done rest hdone
    have hfrom : (h-1-y)*(w*4)+w*4≤((range h).flatMap row).length := by
      rw [hlen,← Nat.succ_mul]
      exact Nat.mul_le_mul_right _ (by omega)
    have hto : y*(w*4)+w*4≤(done++(replicate (w*4) 0++rest)).length := by
      simp only [length_append,length_replicate,hdone,Nat.zero_add]
      omega
    have hpiece : (((range h).flatMap row).drop ((h-1-y)*(w*4))).take (w*4)=row (h-1-y) :=
      hsrc.row_eq (h-1-y) (by omega)
    have hat : y*(w*4)=done.length := by rw [hdone,Nat.zero_add]
    unfold flipRow
    rw [if_pos ⟨hfrom,hto⟩,hpiece,hat]
    exact paste_blank (by rw [hrow,length_replicate])
  have hfill:=foldlM_fills (m := Id) (z := 0) 0 [] (by simp) (fun y => hrow (h-1-y)) h [] hround
  unfold flipRowsRgba
  rw [hlen,foldl_eq_foldlM]
  simp only [nil_append,append_nil] at hfill
  exact hfill

theorem flipRowsRgba_packed {pixel : Nat → Nat → List Byte} (hp : ∀ x y,(pixel x y).length=4) (w h : Nat) :
    flipRowsRgba (packed pixel w h) w h=packed (fun x y => pixel x (h-1-y)) w h :=
  flipRowsRgba_rows (fun y => (flatMap_packed w fun x => hp x y).length) h

theorem flipRowsRgba_twice (hsrc : src.length=w*h*4) : flipRowsRgba (flipRowsRgba src w h) w h=src := by
  -- the rows below the picture do not matter, so they may have the width of the others
  let row:=fun y => if y<h then rowAt src (w*4) (w*4) y else replicate (w*4) 0
  have harea : w*h*4=h*(w*4) := by rw [Nat.mul_comm w h,Nat.mul_assoc]
  have hrow : ∀ y,(row y).length=w*4 := by
    intro y
    dsimp only [row]
    split
    next hy =>
      have hle : (y+1)*(w*4)≤h*(w*4) := Nat.mul_le_mul_right _ hy
      rw [Nat.succ_mul] at hle
      rw [rowAt,length_take,length_drop]
      omega
    · exact length_replicate
  have hall : (range h).flatMap row=src := by
    have htake:=flatMap_rowAt src (w*4) h
    rw [take_of_length_le (by omega)] at htake
    rw [← htake]
    exact flatMap_congr fun y hy => if_pos (mem_range.mp hy)
  have hback : ((range h).flatMap fun y => row (h-1-(h-1-y)))=(range h).flatMap row := by
    refine flatMap_congr fun y hy => ?_
    have := mem_range.mp hy
    rw [show h-1-(h-1-y)=y by omega]
  rw [← hall,flipRowsRgba_rows hrow,flipRowsRgba_rows fun y => hrow (h-1-y)]
  exact hback

theorem read_eq_picture {c : Content} (hc : c.isTaken=true) : c.read=c.picture := by
  cases hk : c.kind with
  | shm => exact read_shm hk
  | dmabuf d =>
    unfold Content.read Content.picture
    rw [hk]
    dsimp only
    cases he : c.egl with
    | none => cases fits (asU32 d.width) (asU32 d.height) <;> rfl
    | some pixel =>
      have hsym : ∀ y<asU32 d.height,∀ x<asU32 d.width,pixel x (asU32 d.height-1-y)=pixel x y := by
        simpa [Content.isTaken,hk,he] using hc
      have hsame:=packed_congr (p := fun x y => rgbaBytes (pixel x (asU32 d.height-1-y)))
        (q := fun x y => rgbaBytes (pixel x y)) fun y hy x hx => congrArg rgbaBytes (hsym y hy x hx)
      have hlen : ∀ x y,(rgbaBytes (pixel x y)).length=4 := fun _ _ => rfl
      have hflip:=(flipRowsRgba_packed hlen (asU32 d.width) (asU32 d.height)).trans hsame
      simp only [readRgba,Option.map_some,hflip]
      cases fits (asU32 d.width) (asU32 d.height) <;> rfl
  | singlePixel => simp [Content.isTaken,hk] at hc
  | invalid => simp [Content.read,Content.picture,hk]

/-- The conversion ends with every pixel the one its stride gives exactly if each offset too large for 32 bits
is in a build that wraps, and leads to a pixel like the one at the offset itself. Turning the rows twice
always gives the image back. -/
theorem cursor_pixels (checks : Bool) (src : List Byte) (w h stride : Nat) (hfit : fits w h=true) :
    ((∃ out,argb8888BytesToRgba checks src w h stride=.ok out ∧ out.length=w*h*4 ∧
        ∀ y<h,∀ x<w,outputPixel out w x y=pixelAt src stride x y) ∧
      ∀ image : List Byte,image.length=w*h*4 → flipRowsRgba (flipRowsRgba image w h) w h=image) ↔
    ∀ y<h,∀ x<w,0x100000000≤y*stride+x*4 →
      checks=false ∧ pixelFrom src ((y*stride+x*4)%0x100000000)=pixelFrom src (y*stride+x*4) := by
  have hpixels:=fun x y => pixelFrom_length src ((y*stride+x*4)%0x100000000)
  constructor
  · intro ⟨⟨out,hout,_,hpixel⟩,_⟩ y hy x hx hwide
    have hnarrow : ∀ y<h,∀ x<w,0x100000000≤y*stride+x*4 → checks=false :=
      fun y hy x hx => argb8888BytesToRgba_narrow hfit hout hy hx
    refine ⟨hnarrow y hy x hx hwide,?_⟩
    have hp:=hpixel y hy x hx
    rw [argb8888BytesToRgba_ok hfit hnarrow] at hout
    cases hout
    rwa [outputPixel_packed hpixels hx hy] at hp
  · intro hcond
    refine ⟨⟨_,argb8888BytesToRgba_ok hfit fun y hy x hx hge => (hcond y hy x hx hge).1,?_,?_⟩,
      fun image himage => flipRowsRgba_twice himage⟩
    · rw [Nat.mul_comm w h,Nat.mul_assoc]
      exact (flatMap_packed h fun y => (flatMap_packed w fun x => hpixels x y).length).length
    · intro y hy x hx
      rw [outputPixel_packed hpixels hx hy]
      by_cases hlt : y*stride+x*4<0x100000000
      · rw [Nat.mod_eq_of_lt hlt]
        rfl
      · exact (hcond y hy x hx (by omega)).2

/-- Padded rows in a build that checks, and a stride that wraps to a place past the end as well. -/
theorem cursor_pixels_pair : fits 1 2=true ∧ fits 1 3=true ∧
    (∃ out,argb8888BytesToRgba true [1,2,3,4,0,0,0,0,5,6,7,8] 1 2 8=.ok out ∧ outputPixel out 1 0 1=[7,6,5,8]) ∧
    ∃ out,argb8888BytesToRgba false [1,2,3,4] 1 3 0x80000001=.ok out ∧ outputPixel out 1 0 2=[0,0,0,0] := by
  obtain ⟨⟨out,hout,-,hpixel⟩,-⟩ :=
    (cursor_pixels true [1,2,3,4,0,0,0,0,5,6,7,8] 1 2 8 (by decide)).mpr (by decide)
  obtain ⟨⟨far,hfar,-,hzero⟩,-⟩ := (cursor_pixels false [1,2,3,4] 1 3 0x80000001 (by decide)).mpr (by decide)
  refine ⟨by decide,by decide,⟨out,hout,?_⟩,⟨far,hfar,?_⟩⟩
  · exact hpixel 1 (by decide) 0 (by decide)
  · exact hzero 2 (by decide) 0 (by decide)

/-- Two rows down the product has wrapped to 0 and the row past the end shows the first one; a build that checks
panics. -/
theorem wrapped_pixel : fits 1 3=true ∧
    argb8888BytesToRgba false [1,2,3,4] 1 3 0x80000000=.ok [3,2,1,4,0,0,0,0,3,2,1,4] ∧
    argb8888BytesToRgba true [1,2,3,4] 1 3 0x80000000=.error .overflow ∧
    outputPixel [3,2,1,4,0,0,0,0,3,2,1,4] 1 0 2=[3,2,1,4] ∧ pixelAt [1,2,3,4] 0x80000000 0 2=[0,0,0,0] := by
  decide +kernel

end Waymux.Viewer.CursorPicture
