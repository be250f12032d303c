import Waymux.Interleave.Runs
import Waymux.Viewer.CursorPicture

/-!
# The cursor of the viewer

`note_cursor_dirty` (`state.rs`) pushes an image into the `CursorChannel` (`viewer/cursor.rs`)
unless the `CursorShapeTracker` has seen the buffer.
-/

namespace Waymux.Viewer.CursorMirror
open CursorPicture Interleave.Runs Option
open Session.BufferReads (Byte)

structure CursorImage where
  w : UInt16
  h : UInt16
  hotX : UInt16
  hotY : UInt16
  rgba : List Byte
deriving DecidableEq

structure CursorPos where
  x : UInt32
  y : UInt32
  seq : UInt32
deriving DecidableEq

inductive CursorUpdate
  | image (image : CursorImage)
  | pos (pos : CursorPos)
deriving DecidableEq

structure CursorChannel where
  latestImage : Option CursorImage
  latestPos : Option CursorPos

def CursorChannel.pushImage (c : CursorChannel) (image : CursorImage) : CursorChannel :=
  {c with latestImage := some image}

def CursorChannel.pushPos (c : CursorChannel) (pos : CursorPos) : CursorChannel := {c with latestPos := some pos}

/-- The image comes first. -/
def CursorChannel.drain (c : CursorChannel) : CursorChannel × List CursorUpdate :=
  (⟨none,none⟩,(c.latestImage.map .image).toList++(c.latestPos.map .pos).toList)

structure CursorShapeTracker where
  last : Option Nat

def CursorShapeTracker.changed (t : CursorShapeTracker) (id : Nat) : Bool × CursorShapeTracker :=
  if t.last=some id then (false,t) else (true,⟨some id⟩)

/-- An object of a client. The serial number tells it from others that had the same
id. -/
structure ObjectId where
  client : Nat
  protocolId : Nat
  serial : Nat
deriving DecidableEq

structure SurfaceData where
  pendingBuffer : Option ObjectId
  currentBuffer : Option ObjectId

structure Cursor where
  surface : ObjectId
  hotX : Int32
  hotY : Int32
deriving DecidableEq

structure Reading where
  picture : Option Picture
  hotX : Int32
  hotY : Int32
deriving DecidableEq

/-- `pushed` and `reading` are not in the code: all updates, and what the last buffer was read as, unless
the cursor was hidden since. -/
structure State where
  surfaces : ObjectId → SurfaceData
  buffers : ObjectId → Option Content
  cursor : Option Cursor
  tracker : CursorShapeTracker
  channel : CursorChannel
  pushed : List CursorUpdate
  reading : Option Reading

def start : State := ⟨fun _ => ⟨none,none⟩,fun _ => none,none,⟨none⟩,⟨none,none⟩,[],none⟩

/-- `content` is a buffer that is made, or memory that its client writes to at any
time. -/
inductive Act
  | content (buffer : ObjectId) (content : Content)
  | attach (surface : ObjectId) (buffer : Option ObjectId)
  | commit (surface : ObjectId)
  | setCursor (cursor : Option Cursor)
  | pos (pos : CursorPos)
  | drain

def hidden : CursorImage := ⟨0,0,0,0,[]⟩

/-- `hot.max(0) as u16` -/
def hot (i : Int32) : UInt16 := UInt16.ofNat i.toInt.toNat

def image (p : Picture) (hotX hotY : Int32) : CursorImage :=
  ⟨UInt16.ofNat p.width,UInt16.ofNat p.height,hot hotX,hot hotY,p.rgba⟩

def State.pushImage (s : State) (image : CursorImage) : State :=
  {s with channel := s.channel.pushImage image, pushed := s.pushed++[.image image]}

def State.target (s : State) : Option (Cursor × ObjectId × Content) := do
  let c ← s.cursor
  let b ← (s.surfaces c.surface).currentBuffer
  let content ← s.buffers b
  some (c,b,content)

/-- The buffer is read if its id is not the last one seen. -/
def State.noteBuffer (s : State) (c : Cursor) (b : ObjectId) (content : Content) : State :=
  match s.tracker.changed b.protocolId with
  | (false,_) => s
  | (true,tracker) =>
    let noted:={s with tracker, reading := some ⟨content.read,c.hotX,c.hotY⟩}
    match content.read with
    | some p => noted.pushImage (image p c.hotX c.hotY)
    | none => noted

def State.noteCursorDirty (s : State) : State :=
  match s.cursor with
  | none => State.pushImage {s with reading := none} hidden
  | some _ =>
    match s.target with
    | none => s
    | some (c,b,content) => s.noteBuffer c b content

/-- A commit without a new buffer leaves the current one. -/
def SurfaceData.promote (d : SurfaceData) : SurfaceData := ⟨none,d.pendingBuffer <|> d.currentBuffer⟩

def State.setSurface (s : State) (surface : ObjectId) (f : SurfaceData → SurfaceData) : State :=
  {s with surfaces := Function.update s.surfaces surface (f (s.surfaces surface))}

def called (s : State) : Act → Option State
  | .setCursor cursor => some {s with cursor}
  | .commit surface =>
    if s.cursor.any (·.surface=surface) then some (s.setSurface surface .promote) else none
  | .content _ _ | .attach _ _ | .pos _ | .drain => none

def step (s : State) : Act → Option State
  | .content b content => some {s with buffers := Function.update s.buffers b (some content)}
  | .attach surface buffer => some (s.setSurface surface ({ · with pendingBuffer := buffer}))
  | .commit surface =>
    some (((called s (.commit surface)).map State.noteCursorDirty).getD (s.setSurface surface .promote))
  | .setCursor cursor => some (State.noteCursorDirty {s with cursor})
  | .pos pos => some {s with channel := s.channel.pushPos pos, pushed := s.pushed++[.pos pos]}
  | .drain => some {s with channel := s.channel.drain.1}

def CursorUpdate.image? : CursorUpdate → Option CursorImage
  | .image im => some im
  | .pos _ => none

/-- The most recent update that is not a position. -/
def State.lastImage (s : State) : Option CursorImage := (s.pushed.filterMap CursorUpdate.image?).getLast?

/-- The current cursor and its picture, if the buffer can be read. -/
def State.shown (s : State) : Option (Cursor × Picture) :=
  s.target.bind fun (c,_,content) => content.picture.map (c,·)

structure CursorImage.Describes (image : CursorImage) (c : Cursor) (p : Picture) : Prop where
  width : image.w.toNat=p.width
  height : image.h.toNat=p.height
  hotX : image.hotX.toNat=c.hotX.toInt
  hotY : image.hotY.toNat=c.hotY.toInt
  rgba : image.rgba=p.rgba

structure Mirrored (s : State) : Prop where
  hides : (s.cursor≠none → s.shown≠none) → (s.lastImage=some hidden ↔ s.cursor=none)
  shown : ∀ c p,s.shown=some (c,p) → ∃ image,s.lastImage=some image ∧ image.Describes c p
  drained : ∀ image,s.channel.latestImage=some image → s.lastImage=some image

def hotFits (i : Int32) : Bool := 0 ≤ i.toInt && i.toInt<0x10000

/-- A buffer with the id seen last is read as it was, with the same hotspot, and the
cursor has not been hidden since. -/
def unmistakable (s : State) (c : Cursor) (b : ObjectId) (content : Content) : Bool :=
  s.tracker.last≠some b.protocolId || s.reading=some ⟨content.read,c.hotX,c.hotY⟩

/-- The picture is not empty and is taken as it is, and the hotspot is in the range
of the message. -/
def plain (s : State) (a : Act) : Bool :=
  match (called s a).bind State.target with
  | none => true
  | some (c,b,content) =>
    hotFits c.hotX && hotFits c.hotY && content.isTaken && content.picture.all (0<·.width) &&
      unmistakable s c b content

variable {s t u : State} {a : Act}

/-- The last image is what the last buffer was read as, and it is what the channel
holds. -/
structure Kept (s : State) : Prop where
  reading : ∀ p hotX hotY,s.reading=some ⟨some p,hotX,hotY⟩ → s.lastImage=some (image p hotX hotY)
  drained : ∀ image,s.channel.latestImage=some image → s.lastImage=some image

@[simp] theorem lastImage_pushImage (s : State) (image : CursorImage) : (s.pushImage image).lastImage=some image := by
  simp [State.lastImage,State.pushImage,CursorUpdate.image?]

theorem Kept.pushImage {image : CursorImage}
    (h : ∀ p hotX hotY,s.reading=some ⟨some p,hotX,hotY⟩ → image=CursorMirror.image p hotX hotY) :
    Kept (s.pushImage image) := by
  refine ⟨fun p hotX hotY hr => ?_,fun im him => ?_⟩
  · rw [lastImage_pushImage,h p hotX hotY hr]
  · rw [lastImage_pushImage]
    exact him

theorem Kept.noteBuffer (h : Kept s) (c : Cursor) (b : ObjectId) (content : Content) :
    Kept (s.noteBuffer c b content) := by
  unfold State.noteBuffer
  split
  · exact h
  · split
    · rename_i p hp
      refine .pushImage fun q hotX hotY hr => ?_
      obtain ⟨hq,rfl,rfl⟩ := (Reading.mk.injEq ..).mp (Option.some.inj hr)
      rw [hp] at hq
      cases hq
      rfl
    · rename_i hp
      refine ⟨fun q hotX hotY hr => ?_,h.drained⟩
      obtain ⟨hq,-,-⟩ := (Reading.mk.injEq ..).mp (Option.some.inj hr)
      cases hp.symm.trans hq

theorem Kept.noteCursorDirty (h : Kept s) : Kept s.noteCursorDirty := by
  unfold State.noteCursorDirty
  split
  · exact .pushImage nofun
  · split
    · exact h
    · exact h.noteBuffer _ _ _

structure SameKnown (s t : State) : Prop where
  tracker : t.tracker=s.tracker
  channel : t.channel=s.channel
  pushed : t.pushed=s.pushed
  reading : t.reading=s.reading

theorem Kept.same (h : Kept s) (he : SameKnown s t) : Kept t := by
  have hlast : t.lastImage=s.lastImage := by rw [State.lastImage,he.pushed]; rfl
  refine ⟨?_,?_⟩
  · rw [he.reading,hlast]
    exact h.reading
  · rw [he.channel,hlast]
    exact h.drained

theorem called_same (hu : called s a=some u) : SameKnown s u := by
  cases a with
  | setCursor =>
    cases hu
    exact ⟨rfl,rfl,rfl,rfl⟩
  | commit =>
    obtain ⟨-,hu⟩ := ite_none_right_eq_some.mp hu
    cases hu
    exact ⟨rfl,rfl,rfl,rfl⟩
  | _ => cases hu

theorem SameKnown.unmistakable (he : SameKnown s u) (c : Cursor) (b : ObjectId) (content : Content) :
    unmistakable u c b content=unmistakable s c b content := by
  rw [CursorMirror.unmistakable,he.tracker,he.reading]
  rfl

theorem step_called (hu : called s a=some u) (ht : step s a=some t) : t=u.noteCursorDirty := by
  cases a with
  | setCursor =>
    cases hu
    cases ht
    rfl
  | commit surface =>
    have ht : some (((called s (.commit surface)).map State.noteCursorDirty).getD _)=some t := ht
    rw [hu] at ht
    exact (Option.some.inj ht).symm
  | _ => cases hu

theorem kept_step (h : Kept s) (ht : step s a=some t) : Kept t := by
  cases hu : called s a with
  | some =>
    rw [step_called hu ht]
    exact (h.same (called_same hu)).noteCursorDirty
  | none =>
    cases a with
    | commit surface =>
      have ht : some (((called s (.commit surface)).map State.noteCursorDirty).getD _)=some t := ht
      rw [hu] at ht
      cases ht
      exact h.same ⟨rfl,rfl,rfl,rfl⟩
    | setCursor => cases hu
    | pos =>
      have hlast : t.lastImage=s.lastImage := by
        cases ht
        simp [State.lastImage,CursorUpdate.image?]
      cases ht
      refine ⟨fun p hotX hotY hr => ?_,fun im him => ?_⟩
      · rw [hlast]
        exact h.reading p hotX hotY hr
      · rw [hlast]
        exact h.drained im him
    | drain =>
      cases ht
      exact ⟨h.reading,nofun⟩
    | _ =>
      cases ht
      exact h.same ⟨rfl,rfl,rfl,rfl⟩

theorem kept_reach (h : Reach step Free start s) : Kept s :=
  h.keeps ⟨nofun,nofun⟩ fun hi _ ht => kept_step hi ht

theorem target_noteBuffer (s : State) (c : Cursor) (b : ObjectId) (content : Content) :
    (s.noteBuffer c b content).cursor=s.cursor ∧ (s.noteBuffer c b content).target=s.target := by
  unfold State.noteBuffer
  split
  · exact ⟨rfl,rfl⟩
  · split <;> exact ⟨rfl,rfl⟩

theorem target_noteCursorDirty (s : State) :
    s.noteCursorDirty.cursor=s.cursor ∧ s.noteCursorDirty.target=s.target := by
  unfold State.noteCursorDirty
  split
  · exact ⟨rfl,rfl⟩
  · split
    · exact ⟨rfl,rfl⟩
    · exact target_noteBuffer s _ _ _

theorem shown_noteCursorDirty (s : State) : s.noteCursorDirty.shown=s.shown := by
  rw [State.shown,(target_noteCursorDirty s).2]
  rfl

variable {c : Cursor} {b : ObjectId} {content : Content} {p : Picture}

theorem lastImage_noteBuffer (h : Kept s) (hread : content.read=some p) (hok : unmistakable s c b content=true) :
    (s.noteBuffer c b content).lastImage=some (image p c.hotX c.hotY) := by
  unfold State.noteBuffer CursorShapeTracker.changed
  by_cases hsame : s.tracker.last=some b.protocolId
  · rw [if_pos hsame]
    have hreading : s.reading=some ⟨content.read,c.hotX,c.hotY⟩ := by
      simpa [unmistakable,hsame] using hok
    rw [hread] at hreading
    exact h.reading p c.hotX c.hotY hreading
  · rw [if_neg hsame]
    simp only [hread,lastImage_pushImage]

theorem hot_toNat {i : Int32} (h : hotFits i=true) : ((hot i).toNat : Int)=i.toInt := by
  obtain ⟨hlo,hhi⟩ : 0 ≤ i.toInt ∧ i.toInt<0x10000 := by simpa [hotFits] using h
  have hmod : (hot i).toNat=i.toInt.toNat%0x10000 := UInt16.toNat_ofNat ..
  omega

theorem picture_le (h : content.picture=some p) : p.width ≤ maxCursorDim ∧ p.height ≤ maxCursorDim := by
  have hfit : ∀ {w h : Nat},fits w h=true → w ≤ maxCursorDim ∧ h ≤ maxCursorDim := by
    intro w h hf
    simpa [fits] using hf
  unfold Content.picture at h
  split at h
  · obtain ⟨hf,h⟩ := ite_none_right_eq_some.mp h
    obtain ⟨bytes,-,rfl⟩ := map_eq_some_iff.mp h
    exact hfit hf
  · obtain ⟨hf,h⟩ := ite_none_right_eq_some.mp h
    obtain ⟨pixel,-,rfl⟩ := map_eq_some_iff.mp h
    exact hfit hf
  · cases h
    exact hfit rfl
  · cases h

theorem ofNat_dim {n : Nat} (h : n ≤ maxCursorDim) : (UInt16.ofNat n).toNat=n := by
  have h : n≤256 := h
  have hmod : (UInt16.ofNat n).toNat=n%0x10000 := UInt16.toNat_ofNat ..
  omega

theorem image_describes (hp : content.picture=some p) (hx : hotFits c.hotX=true) (hy : hotFits c.hotY=true) :
    (image p c.hotX c.hotY).Describes c p := by
  obtain ⟨hw,hh⟩ := picture_le hp
  exact ⟨ofNat_dim hw,ofNat_dim hh,hot_toNat hx,hot_toNat hy,rfl⟩

theorem noteCursorDirty_hidden (h : s.cursor=none) : s.noteCursorDirty.lastImage=some hidden := by
  unfold State.noteCursorDirty
  rw [h]
  exact lastImage_pushImage _ _

theorem noteCursorDirty_target (h : s.target=some (c,b,content)) :
    s.noteCursorDirty=s.noteBuffer c b content := by
  obtain ⟨c',hc,-⟩ := bind_eq_some_iff.mp h
  unfold State.noteCursorDirty
  rw [hc,h]

theorem image_ne_hidden {hotX hotY : Int32} (hw : p.width ≤ maxCursorDim) (hpos : 0<p.width) :
    image p hotX hotY≠hidden := by
  intro h
  have hzero : UInt16.ofNat p.width=0 := congrArg CursorImage.w h
  have hdim:=ofNat_dim hw
  rw [hzero] at hdim
  have hdim : 0=p.width := hdim
  omega

theorem mirrored_target (h : Kept s) (htarget : s.target=some (c,b,content)) (hp : content.picture=some p)
    (htaken : content.isTaken=true) (hok : unmistakable s c b content=true) :
    s.noteCursorDirty.lastImage=some (image p c.hotX c.hotY) := by
  rw [noteCursorDirty_target htarget]
  exact lastImage_noteBuffer h ((read_eq_picture htaken).trans hp) hok

/-- The last image tells of the current cursor if a buffer with the id seen last is the buffer last read,
unchanged and with the same hotspot, the cursor has not been hidden since, the hotspot fits, and the buffer
is taken as it is. -/
theorem cursor_mirrored (h : Reach step Free start s) (hcall : called s a=some u) (hok : plain s a=true)
    (ht : step s a=some t) : Mirrored t := by
  have hsame:=called_same hcall
  have hkept : Kept u := (kept_reach h).same hsame
  have hlast : t=u.noteCursorDirty := step_called hcall ht
  subst hlast
  -- what the cursor shows when it is looked at is what the last image tells
  have htold : ∀ c p,u.shown=some (c,p) → u.noteCursorDirty.lastImage=some (image p c.hotX c.hotY) ∧
      (image p c.hotX c.hotY).Describes c p ∧ image p c.hotX c.hotY≠hidden := by
    intro c p hshown
    obtain ⟨⟨c',b,content⟩,htarget,hp⟩ := bind_eq_some_iff.mp hshown
    obtain ⟨p',hp,heq⟩ := map_eq_some_iff.mp hp
    cases heq
    obtain ⟨⟨⟨⟨hx,hy⟩,htaken⟩,hpos⟩,hid⟩ : (((hotFits c.hotX=true ∧ hotFits c.hotY=true) ∧
        content.isTaken=true) ∧ 0<p.width) ∧ unmistakable s c b content=true := by
      simpa [plain,hcall,htarget,hp] using hok
    have hid : unmistakable u c b content=true := (hsame.unmistakable c b content).trans hid
    exact ⟨mirrored_target hkept htarget hp htaken hid,image_describes hp hx hy,
      image_ne_hidden (picture_le hp).1 hpos⟩
  refine ⟨fun hread => ?_,fun c p hshown => ?_,hkept.noteCursorDirty.drained⟩
  · rw [(target_noteCursorDirty u).1,shown_noteCursorDirty] at hread
    rw [(target_noteCursorDirty u).1]
    constructor
    · intro hhidden
      by_contra hcursor
      obtain ⟨⟨c,p⟩,hshown⟩ := ne_none_iff_exists'.mp (hread hcursor)
      obtain ⟨hlast,-,hne⟩ := htold c p hshown
      exact hne (Option.some.inj (hlast.symm.trans hhidden))
    · exact noteCursorDirty_hidden
  · rw [shown_noteCursorDirty] at hshown
    obtain ⟨hlast,hdesc,-⟩ := htold c p hshown
    exact ⟨_,hlast,hdesc⟩

/-- A buffer of one pixel, in the order of `wl_shm`. -/
def dot (b g r a : Byte) : Content :=
  ⟨.shm ⟨⟨4,some ⟨4,fun i => [b,g,r,a].getD i 0,by decide⟩⟩,0,1,1,4,.argb8888⟩,none⟩

def arrow : ObjectId := ⟨1,3,0⟩

def beam : ObjectId := ⟨2,3,1⟩

/-- A buffer is made, attached and committed, and its surface becomes the cursor. -/
def shows (surface buffer : ObjectId) (content : Content) (hotX hotY : Int32) : List Act :=
  [.content buffer content,.attach surface (some buffer),.commit surface,.setCursor (some ⟨surface,hotX,hotY⟩)]

/-- Red, then hidden, then green with another hotspot. -/
theorem cursor_mirrored_green : ∃ s t,Reach step Free start s ∧
    step s (.setCursor (some ⟨beam,2,1⟩))=some t ∧ Mirrored t ∧
    t.lastImage=some ⟨1,1,2,1,[0,255,0,255]⟩ := by
  obtain ⟨s,hs,hok,hlast⟩ := @reach_observed State Act step Free start
    (shows arrow ⟨1,9,0⟩ (dot 0 0 255 255) 0 0 ++
      ([.setCursor none,.drain,.content ⟨2,8,0⟩ (dot 0 255 0 255),.attach beam (some ⟨2,8,0⟩),
        .commit beam] : List Act))
    (fun s => plain s (.setCursor (some ⟨beam,2,1⟩))=true ∧
      (step s (.setCursor (some ⟨beam,2,1⟩))).map (·.lastImage)=some (some ⟨1,1,2,1,[0,255,0,255]⟩))
    (fun _ => inferInstance) (meets_free _) (by decide +kernel)
  obtain ⟨t,ht,hlast⟩ := map_eq_some_iff.mp hlast
  exact ⟨s,t,hs,ht,cursor_mirrored hs rfl hok ht,hlast⟩

/-- It is shown again after it was hidden; it gets another hotspot; another client's buffer has the same id;
the buffer is written to and committed again. -/
theorem stale_cursor :
    (∃ s,Reach step Free start s ∧
      (step s (.setCursor (some ⟨arrow,0,0⟩))).map (fun t => (t.lastImage,t.shown)) =
        some (some hidden,some (⟨arrow,0,0⟩,⟨1,1,[255,0,0,255]⟩))) ∧
    (∃ s,Reach step Free start s ∧
      (step s (.setCursor (some ⟨arrow,4,4⟩))).map (fun t => (t.lastImage,t.shown)) =
        some (some ⟨1,1,0,0,[255,0,0,255]⟩,some (⟨arrow,4,4⟩,⟨1,1,[255,0,0,255]⟩))) ∧
    (∃ s,Reach step Free start s ∧
      (step s (.setCursor (some ⟨beam,0,0⟩))).map (fun t => (t.lastImage,t.shown)) =
        some (some ⟨1,1,0,0,[255,0,0,255]⟩,some (⟨beam,0,0⟩,⟨1,1,[0,255,0,255]⟩))) ∧
    (∃ s,Reach step Free start s ∧
      (step s (.commit arrow)).map (fun t => (t.lastImage,t.shown)) =
        some (some ⟨1,1,0,0,[255,0,0,255]⟩,some (⟨arrow,0,0⟩,⟨1,1,[0,255,0,255]⟩))) := by
  refine ⟨?_,?_,?_,?_⟩
  · exact free_observed (shows arrow ⟨1,9,0⟩ (dot 0 0 255 255) 0 0++([.setCursor none] : List Act)) (by decide +kernel)
  · exact free_observed (shows arrow ⟨1,9,0⟩ (dot 0 0 255 255) 0 0) (by decide +kernel)
  · exact free_observed (shows arrow ⟨1,9,0⟩ (dot 0 0 255 255) 0 0 ++
      ([.content ⟨2,9,0⟩ (dot 0 255 0 255),.attach beam (some ⟨2,9,0⟩),.commit beam] : List Act)) (by decide +kernel)
  · exact free_observed (shows arrow ⟨1,9,0⟩ (dot 0 0 255 255) 0 0 ++
      ([.content ⟨1,9,0⟩ (dot 0 255 0 255),.attach arrow (some ⟨1,9,0⟩)] : List Act)) (by decide +kernel)

end Waymux.Viewer.CursorMirror
