import Waymux.Interleave.Runs

/-!
# Reference pictures of the Vulkan stream

`VkRecorder::next_pic_params` (`vulkan_record.rs`) and the loop of `run_vulkan_encoder`: the
pictures attempted, the two DPB slots and what goes to the socket.
-/

namespace Waymux.Viewer.PictureChain
open Interleave.Runs

structure PicParams where
  isIdr : Bool
  frameNum : Nat
  refSlot : Int
  setupSlot : Int
  deriving DecidableEq, Repr

/-- A DPB slot holds the reconstruction of a picture, or nothing usable. -/
structure Recorder where
  frameNum : Nat
  refSlot : Int
  slot0 : Option Nat
  slot1 : Option Nat
  deriving DecidableEq, Repr

def tryNew : Recorder := ⟨0,-1,none,none⟩

def nextPicParams (r : Recorder) (isIdr : Bool) : PicParams × Recorder :=
  if isIdr ∨ r.refSlot<0 then
    (⟨true,0,-1,0⟩,{r with refSlot := 0, frameNum := 1})
  else
    let setupSlot:=if r.refSlot=0 then 1 else 0
    (⟨false,r.frameNum,r.refSlot,setupSlot⟩,
      {r with refSlot := setupSlot, frameNum := (r.frameNum+1)%0x100000000%16})

/- The slots as `view_for` binds them. -/
def Recorder.held (r : Recorder) (slot : Int) : Option Nat := if slot=1 then r.slot1 else r.slot0

def Recorder.reconstruct (r : Recorder) (slot : Int) (content : Option Nat) : Recorder :=
  if slot=1 then {r with slot1 := content} else {r with slot0 := content}

/-- How the GPU work ends; a failure may come before or after the setup slot
was written to. -/
inductive Outcome
  | ok
  | failed (touched : Bool)
  deriving DecidableEq, Repr

/-- An encoded picture and what its reference slot held. -/
structure Nal where
  pic : Nat
  params : PicParams
  reference : Option Nat
  deriving DecidableEq, Repr

/- `encode_dmabuf` and `encode_bgra`; `pic` numbers the picture. -/
def encode (r : Recorder) (pic : Nat) (isIdr : Bool) : Outcome → Option Nal × Recorder
  | .ok =>
      let (params,r') := nextPicParams r isIdr
      (some ⟨pic,params,r.held params.refSlot⟩,r'.reconstruct params.setupSlot (some pic))
  | .failed touched =>
      let (params,r') := nextPicParams r isIdr
      (none,if touched then r'.reconstruct params.setupSlot none else r')

def gopLen : Nat := 12

def maxConsecFail : Nat := 90

inductive Phase
  | starting
  | running
  | stopped
  deriving DecidableEq, Repr

/-- `written` has the newest picture first. -/
structure State where
  phase : Phase
  recorder : Recorder
  gopPos : Nat
  lastDmabuf : Bool
  lastBgra : Bool
  consecFail : Nat
  pics : Nat
  written : List Nal
  deriving DecidableEq, Repr

def start : State := ⟨.starting,tryNew,0,false,false,0,0,[]⟩

/-- What the frame slot gave: sizes and lengths compared, fences asked. -/
inductive Task
  | dmabuf (sizeOk ready : Bool)
  | pixels (sizeOk lenOk : Bool)
  | nal
  | timeout
  deriving DecidableEq, Repr

inductive Act
  | firstPixels (outcome : Outcome) (writeOk : Bool)
  | firstDmabuf (ready : Bool) (outcome : Outcome) (writeOk : Bool)
  | tick (task : Task) (forced lastReady : Bool) (outcome : Outcome) (writeOk : Bool)
  | stop
  deriving DecidableEq, Repr

/- Whether a tick comes to an encode, and the sources it keeps. -/
def source (s : State) (lastReady : Bool) : Task → Bool × State
  | .dmabuf false _ => (false,s)
  | .dmabuf true false => (s.lastDmabuf || s.lastBgra,s)
  | .dmabuf true true => (true,{s with lastDmabuf := true, lastBgra := false})
  | .pixels false _ => (false,s)
  | .pixels true true => (true,{s with lastDmabuf := false, lastBgra := true})
  | .pixels true false => (false,s)
  | .nal => (if s.lastDmabuf then lastReady else s.lastBgra,s)
  | .timeout => (if s.lastDmabuf then lastReady else s.lastBgra,s)

/- `nal_opt` is `None`. -/
def State.nothing (s : State) : State :=
  if maxConsecFail ≤ s.consecFail+1 then {s with consecFail := s.consecFail+1, phase := .stopped}
  else {s with consecFail := s.consecFail+1}

/- The write of an encoded picture; a failed one ends the thread. -/
def State.send (s : State) (nal : Nal) (writeOk : Bool) : State :=
  if writeOk then {s with written := nal::s.written} else {s with phase := .stopped}

def State.first (s : State) (outcome : Outcome) (writeOk : Bool) : State :=
  match encode s.recorder s.pics true outcome with
  | (some nal,r) => {s with recorder := r, pics := s.pics+1, gopPos := 1}.send nal writeOk
  | (none,r) => {s with recorder := r, pics := s.pics+1}

def State.encodeTick (s : State) (isIdr : Bool) (outcome : Outcome) (writeOk : Bool) : State :=
  match encode s.recorder s.pics isIdr outcome with
  | (some nal,r) =>
      {s with
        recorder := r
        pics := s.pics+1
        consecFail := 0
        gopPos := if nal.params.isIdr then 1 else s.gopPos+1}.send nal writeOk
  | (none,r) => {s with recorder := r, pics := s.pics+1}.nothing

def wantsIdr (s : State) (forced : Bool) : Bool := forced || s.gopPos=0 || gopLen ≤ s.gopPos

def step (s : State) : Act → Option State
  | .firstPixels outcome writeOk =>
      if s.phase=.starting then
        some ({s with phase := .running, lastBgra := true}.first outcome writeOk)
      else none
  | .firstDmabuf ready outcome writeOk =>
      if s.phase=.starting then
        let s:={s with phase := .running, lastDmabuf := true}
        some (if ready then s.first outcome writeOk else s)
      else none
  | .tick task forced lastReady outcome writeOk =>
      if s.phase=.running then
        let (attempt,s') := source s lastReady task
        some (if attempt then s'.encodeTick (wantsIdr s forced) outcome writeOk else s'.nothing)
      else none
  | .stop => if s.phase=.running then some {s with phase := .stopped} else none

/-- The encode a label comes to, if any: whether it asks for an IDR, and how it
ends. -/
def attempt (s : State) : Act → Option (Bool × Outcome)
  | .firstPixels outcome _ => some (true,outcome)
  | .firstDmabuf ready outcome _ => if ready then some (true,outcome) else none
  | .tick task forced lastReady outcome _ =>
      if (source s lastReady task).1 then some (wantsIdr s forced,outcome) else none
  | .stop => none

def Follows (nal : Nal) (before : List Nal) : Prop :=
  if nal.params.isIdr then nal.params.frameNum=0
  else
    ∃ prev,before.head?=some prev ∧ nal.reference=some prev.pic ∧
      nal.params.setupSlot≠nal.params.refSlot ∧ nal.params.frameNum=prev.params.frameNum+1 ∧
      nal.params.frameNum<16

def Consistent : List Nal → Prop
  | [] => True
  | nal::before => Follows nal before ∧ Consistent before

/-- A failed encode finds the recorder right behind an IDR, asks for another
one and does not get as far as the DPB. -/
def Unmoved (s : State) (a : Act) : Prop :=
  ∀ isIdr touched,attempt s a=some (isIdr,.failed touched) →
    isIdr=true ∧ touched=false ∧ s.recorder.refSlot=0 ∧ s.recorder.frameNum=1

instance (s : State) (a : Act) : Decidable (Unmoved s a) := inferInstanceAs (Decidable (∀ _ _ : Bool,_ → _))

/-- Or the next encode asks for an IDR whatever comes. -/
def StreamSafe (s : State) (a : Act) : Prop :=
  s.gopPos=0 ∨ gopLen ≤ s.gopPos ∨ Unmoved s a

theorem encode_idr_failed (r : Recorder) (pic : Nat) (touched : Bool) :
    encode r pic true (.failed touched) =
      (none,⟨1,0,if touched then none else r.slot0,r.slot1⟩) := by
  cases touched <;> rfl

variable {r : Recorder} {isIdr writeOk : Bool} {outcome : Outcome}

theorem encode_p (pic : Nat) (h : r.refSlot=0 ∨ r.refSlot=1) : ∃ nal r',
    encode r pic false .ok=(some nal,r') ∧ nal.pic=pic ∧ nal.params.isIdr=false ∧
      nal.params.frameNum=r.frameNum ∧ nal.reference=r.held r.refSlot ∧
      nal.params.setupSlot≠nal.params.refSlot ∧ r'.held r'.refSlot=some pic ∧
      r'.frameNum=(r.frameNum+1)%0x100000000%16 ∧ (r'.refSlot=0 ∨ r'.refSlot=1) := by
  obtain ⟨frameNum,refSlot,slot0,slot1⟩ := r
  rcases h with rfl | rfl
  · exact ⟨_,_,rfl,rfl,rfl,rfl,rfl,Int.one_ne_zero,rfl,rfl,Or.inr rfl⟩
  · exact ⟨_,_,rfl,rfl,rfl,rfl,rfl,Int.zero_ne_one,rfl,rfl,Or.inl rfl⟩

variable {s t : State} {a : Act}

inductive StepCase (s : State) (a : Act) : State → Prop
  | first (dmabuf bgra : Bool) (outcome : Outcome) (writeOk : Bool) (hp : s.phase=.starting)
      (ha : attempt s a=some (true,outcome)) :
      StepCase s a ({s with phase := .running, lastDmabuf := dmabuf, lastBgra := bgra}.first outcome writeOk)
  | notReady (hp : s.phase=.starting) (ha : attempt s a=none) :
      StepCase s a {s with phase := .running, lastDmabuf := true}
  | encode (dmabuf bgra isIdr : Bool) (outcome : Outcome) (writeOk : Bool) (hp : s.phase=.running)
      (ha : attempt s a=some (isIdr,outcome)) (hidr : isIdr=false → 1 ≤ s.gopPos ∧ s.gopPos<gopLen) :
      StepCase s a ({s with lastDmabuf := dmabuf, lastBgra := bgra}.encodeTick isIdr outcome writeOk)
  | nothing (dmabuf bgra : Bool) (hp : s.phase=.running) (ha : attempt s a=none) :
      StepCase s a {s with lastDmabuf := dmabuf, lastBgra := bgra}.nothing
  | stop (ha : attempt s a=none) : StepCase s a {s with phase := .stopped}

theorem source_frame (s : State) (lastReady : Bool) (task : Task) : ∃ dmabuf bgra,
    (source s lastReady task).2={s with lastDmabuf := dmabuf, lastBgra := bgra} := by
  unfold source
  split <;> exact ⟨_,_,rfl⟩

theorem wantsIdr_false {forced : Bool} (h : wantsIdr s forced=false) : 1 ≤ s.gopPos ∧ s.gopPos<gopLen := by
  rw [wantsIdr] at h
  simp only [Bool.or_eq_false_iff,decide_eq_false_iff_not] at h
  omega

theorem step_cases (ht : step s a=some t) : StepCase s a t := by
  cases a with
  | firstPixels outcome writeOk =>
    obtain ⟨hp,⟨⟩⟩ := Option.ite_none_right_eq_some.mp ht
    exact .first _ _ outcome writeOk hp rfl
  | firstDmabuf ready outcome writeOk =>
    obtain ⟨hp,⟨⟩⟩ := Option.ite_none_right_eq_some.mp ht
    cases ready with
    | true => exact .first _ _ outcome writeOk hp rfl
    | false => exact .notReady hp rfl
  | tick task forced lastReady outcome writeOk =>
    obtain ⟨dmabuf,bgra,hsource⟩ := source_frame s lastReady task
    simp only [step,Option.ite_none_right_eq_some,Option.some.injEq,hsource] at ht
    obtain ⟨hp,rfl⟩ := ht
    split
    next hattempt => exact .encode dmabuf bgra _ outcome writeOk hp (if_pos hattempt) wantsIdr_false
    next hattempt => exact .nothing dmabuf bgra hp (if_neg hattempt)
  | stop =>
    obtain ⟨-,⟨⟩⟩ := Option.ite_none_right_eq_some.mp ht
    exact .stop rfl

def Ready (r : Recorder) (gopPos : Nat) (written : List Nal) : Prop :=
  ∃ prev,written.head?=some prev ∧ r.held r.refSlot=some prev.pic ∧
    r.frameNum=prev.params.frameNum+1 ∧ r.frameNum=gopPos ∧ (r.refSlot=0 ∨ r.refSlot=1)

structure Inv (s : State) : Prop where
  chain : Consistent s.written
  gop : s.gopPos≤gopLen
  ready : s.phase≠.stopped → 1 ≤ s.gopPos → s.gopPos<gopLen → Ready s.recorder s.gopPos s.written

theorem inv_start : Inv start where
  chain := trivial
  gop := by decide
  ready _ h := absurd h (by decide)

theorem inv_running (h : Inv s) (hg : s.gopPos=0) (hw : t.written=s.written) (hgop : t.gopPos=s.gopPos) :
    Inv t := by
  refine ⟨hw ▸ h.chain,hgop ▸ h.gop,?_⟩
  intro _ hlow
  rw [hgop,hg] at hlow
  exact absurd hlow (by decide)

theorem inv_nothing (h : Inv s) : Inv s.nothing := by
  unfold State.nothing
  split
  · exact ⟨h.chain,h.gop,fun hp => absurd rfl hp⟩
  · exact ⟨h.chain,h.gop,h.ready⟩

theorem inv_send {nal : Nal} (hf : Follows nal s.written) (hc : Consistent s.written) (hg : s.gopPos≤gopLen)
    (hr : Ready s.recorder s.gopPos (nal::s.written)) (writeOk : Bool) : Inv (s.send nal writeOk) := by
  unfold State.send
  split
  · exact ⟨⟨hf,hc⟩,hg,fun _ _ _ => hr⟩
  · exact ⟨hc,hg,fun hp => absurd rfl hp⟩

theorem inv_send_idr {pic : Nat} {held slot1 : Option Nat} (hc : Consistent s.written)
    (hr : s.recorder=⟨1,0,some pic,slot1⟩) (hg : s.gopPos=1) (writeOk : Bool) :
    Inv (s.send ⟨pic,⟨true,0,-1,0⟩,held⟩ writeOk) := by
  have hf : Follows ⟨pic,⟨true,0,-1,0⟩,held⟩ s.written := by rw [Follows,if_pos rfl]
  refine inv_send hf hc (by rw [hg]; decide) ?_ writeOk
  rw [hr,hg]
  exact ⟨_,rfl,rfl,rfl,rfl,Or.inl rfl⟩

theorem ready_failed_idr {gopPos : Nat} {written : List Nal} {touched : Bool} (h : Ready r gopPos written)
    (ht : touched=false) (hslot : r.refSlot=0) (hnum : r.frameNum=1) :
    Ready ⟨1,0,if touched then none else r.slot0,r.slot1⟩ gopPos written := by
  obtain ⟨prev,hprev,hheld,hnext,hgop,-⟩ := h
  rw [hslot] at hheld
  rw [ht]
  exact ⟨prev,hprev,hheld,by rw [← hnext,hnum],by rw [← hgop,hnum],Or.inl rfl⟩

theorem inv_encodeTick (h : Inv s) (hp : s.phase=.running) (hidr : isIdr=false → 1 ≤ s.gopPos ∧ s.gopPos<gopLen)
    (hsafe : ∀ touched,outcome=.failed touched → s.gopPos=0 ∨ gopLen ≤ s.gopPos ∨
      (isIdr=true ∧ touched=false ∧ s.recorder.refSlot=0 ∧ s.recorder.frameNum=1)) :
    Inv (s.encodeTick isIdr outcome writeOk) := by
  have hrun : s.phase≠.stopped := by
    rw [hp]
    decide
  cases isIdr with
  | true =>
    cases outcome with
    | ok =>
      refine inv_send_idr ?_ rfl rfl writeOk
      exact h.chain
    | failed touched =>
      rw [State.encodeTick,encode_idr_failed]
      apply inv_nothing
      refine ⟨h.chain,h.gop,?_⟩
      intro _ hlow hhigh
      rcases hsafe touched rfl with h0 | h12 | ⟨-,ht,hslot,hnum⟩
      · exact absurd hlow (by rw [h0]; decide)
      · exact absurd hhigh (Nat.not_lt.mpr h12)
      · exact ready_failed_idr (h.ready hrun hlow hhigh) ht hslot hnum
  | false =>
    obtain ⟨hlow,hhigh⟩ := hidr rfl
    obtain ⟨prev,hprev,hheld,hnext,hgop,hslot⟩ := h.ready hrun hlow hhigh
    cases outcome with
    | ok =>
      obtain ⟨nal,r,henc,hpic,hkind,hnum,href,hsetup,hheld',hnum',hslot'⟩ := encode_p s.pics hslot
      have hsmall : s.recorder.frameNum+1<16 := by
        unfold gopLen at hhigh
        omega
      have hnumEq : r.frameNum=s.recorder.frameNum+1 := by
        omega
      rw [State.encodeTick,henc]
      simp only [hkind,Bool.false_eq_true,if_false]
      apply inv_send
      · rw [Follows,hkind]
        refine ⟨prev,hprev,by rw [href,hheld],hsetup,by rw [hnum,hnext],?_⟩
        omega
      · exact h.chain
      · exact hhigh
      · refine ⟨nal,rfl,by rw [hheld',hpic],by rw [hnumEq,hnum],?_,hslot'⟩
        rw [hnumEq,hgop]
    | failed touched =>
      rcases hsafe touched rfl with h0 | h12 | ⟨hfalse,-⟩
      · exact absurd hlow (by rw [h0]; decide)
      · exact absurd hhigh (Nat.not_lt.mpr h12)
      · cases hfalse

theorem inv_first (h : Inv s) (hg : s.gopPos=0) : Inv (s.first outcome writeOk) := by
  cases outcome with
  | ok =>
    refine inv_send_idr ?_ rfl rfl writeOk
    exact h.chain
  | failed =>
    exact inv_running h hg rfl rfl

def Fresh (s : State) : Prop := s.phase=.starting → s.gopPos=0

theorem inv_step (hfresh : Fresh s) (h : Inv s) (hok : StreamSafe s a) (ht : step s a=some t) : Inv t := by
  cases step_cases ht with
  | first dmabuf bgra outcome writeOk hp =>
    exact inv_first (inv_running h (hfresh hp) rfl rfl) (hfresh hp)
  | notReady hp => exact inv_running h (hfresh hp) rfl rfl
  | encode dmabuf bgra isIdr outcome writeOk hp ha hidr =>
    refine inv_encodeTick ⟨h.chain,h.gop,h.ready⟩ hp hidr fun touched hout => ?_
    rcases hok with h0 | h12 | hun
    · exact Or.inl h0
    · exact Or.inr (Or.inl h12)
    · exact Or.inr (Or.inr (hun isIdr touched (hout ▸ ha)))
  | nothing => exact inv_nothing ⟨h.chain,h.gop,h.ready⟩
  | stop => exact ⟨h.chain,h.gop,fun hp => absurd rfl hp⟩

theorem send_phase {nal : Nal} (h : s.phase≠.starting) : (s.send nal writeOk).phase≠.starting := by
  unfold State.send
  split
  · exact h
  · exact (by decide : Phase.stopped≠.starting)

theorem nothing_phase (h : s.phase≠.starting) : s.nothing.phase≠.starting := by
  unfold State.nothing
  split
  · exact (by decide : Phase.stopped≠.starting)
  · exact h

theorem first_phase (h : s.phase≠.starting) : (s.first outcome writeOk).phase≠.starting := by
  unfold State.first
  split
  · exact send_phase h
  · exact h

theorem encodeTick_phase (h : s.phase≠.starting) : (s.encodeTick isIdr outcome writeOk).phase≠.starting := by
  unfold State.encodeTick
  split
  · exact send_phase h
  · exact nothing_phase h

theorem step_phase (ht : step s a=some t) : t.phase≠.starting := by
  cases step_cases ht with
  | first => exact first_phase (by decide : Phase.running≠.starting)
  | encode dmabuf bgra isIdr outcome writeOk hp =>
    refine encodeTick_phase ?_
    simp [hp]
  | nothing dmabuf bgra hp =>
    refine nothing_phase ?_
    simp [hp]
  | _ => nofun

theorem consistent_of_streamSafe (h : Reach step StreamSafe start s) : Consistent s.written := by
  have hinv : Inv s ∧ Fresh s := by
    refine h.keeps (I := fun u => Inv u ∧ Fresh u) ⟨inv_start,fun _ => rfl⟩ ?_
    intro u v a hu hok ht
    exact ⟨inv_step hu.2 hu.1 hok ht,fun hp => absurd hp (step_phase ht)⟩
  exact hinv.1.chain

theorem recorder_nothing (s : State) : s.nothing.recorder=s.recorder := by
  unfold State.nothing
  split <;> rfl

theorem encode_unmoved (pic : Nat) (hslot : r.refSlot=0) (hnum : r.frameNum=1) :
    encode r pic true (.failed false)=(none,r) := by
  obtain ⟨frameNum,refSlot,slot0,slot1⟩ := r
  simp only at hslot hnum
  rw [hslot,hnum]
  rfl

theorem recorder_unmoved {touched : Bool} (hok : Unmoved s a) (ht : step s a=some t)
    (hfail : attempt s a=some (isIdr,.failed touched)) : t.recorder=s.recorder := by
  obtain ⟨rfl,rfl,hslot,hnum⟩ := hok isIdr touched hfail
  have henc:=encode_unmoved s.pics hslot hnum
  cases step_cases ht with
  | first dmabuf bgra outcome writeOk hp ha =>
    cases ha.symm.trans hfail
    rw [State.first,henc]
  | encode dmabuf bgra isIdr outcome writeOk hp ha =>
    cases ha.symm.trans hfail
    rw [State.encodeTick,henc,recorder_nothing]
  | notReady _ ha | nothing _ _ _ ha | stop ha => cases ha.symm.trans hfail

/-- In a run whose failed encodes come right behind an IDR, ask for one and stop short of the DPB, the
written pictures refer to each other as they should and a failure leaves the recorder as it was. -/
theorem written_pictures_consistent (s : State) (h : Reach step Unmoved start s) :
    Consistent s.written ∧ ∀ a t isIdr touched,Unmoved s a → step s a=some t →
      attempt s a=some (isIdr,.failed touched) → t.recorder=s.recorder :=
  ⟨consistent_of_streamSafe (h.mono fun _ _ hun => Or.inr (Or.inr hun)),
    fun _ _ _ _ hok ht hfail => recorder_unmoved hok ht hfail⟩

/-- An IDR, a failed second one, two P pictures. -/
theorem written_pictures_consistent_after_failed_idr :
    ∃ s,(Reach step Unmoved start s ∧ s.written.length=3) ∧ Consistent s.written := by
  have hr : Reach step Unmoved start _ := reach_exec
    [.firstPixels .ok true,.tick .timeout true true (.failed false) true,.tick .timeout false true .ok true,
      .tick .timeout false true .ok true] (meets_decided (by decide +kernel)) (by decide +kernel)
  exact ⟨_,⟨hr,by decide +kernel⟩,(written_pictures_consistent _ hr).1⟩

/-- The picture after a failed P is numbered two past the last one written and refers to an empty slot. -/
theorem failed_p_breaks_chain : ∃ s,Reach step Free start s ∧ ¬Consistent s.written := by
  have hr : Reach step Free start _ := reach_free
    [.firstPixels .ok true,.tick .timeout false true (.failed false) true,.tick .timeout false true .ok true]
    (by decide +kernel)
  refine ⟨_,hr,fun hc => ?_⟩
  obtain ⟨prev,hprev,href,-⟩ := hc.1
  cases href

end Waymux.Viewer.PictureChain
