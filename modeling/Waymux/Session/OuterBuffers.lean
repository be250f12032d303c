import Waymux.Session.FrameLoop
import Mathlib.Data.List.Nodup
import Mathlib.Data.List.Chain

/-!
# The buffers the outer view commits (`outer_view.rs`)

Iterations of the loop, in any order, between the releases the outer compositor sends and their dispatch. A
slot is named by its framebuffer and its index.
-/

namespace Waymux.Session.OuterBuffers
open Interleave.Runs FrameLoop List

abbrev Slot := Nat × Fin 2

/-- How `Framebuffer::new` ends: the second slot may fail when the objects of the first exist. -/
inductive Alloc
  | ok
  | half
  | failed
deriving DecidableEq

def Alloc.objects : Alloc → Nat
  | .ok => 4
  | .half => 2
  | .failed => 0

/-- `held` are the slots with the outer compositor, `releases` those it gave back by an event not yet
dispatched, `fresh` those written in full since their last commit, `turns` the commits. Slots written while
held are in `torn`, commits of a slot held or not written in `unfit`. `objects` counts pools, buffers and
params; `inFlight` has the flags of forwarded dmabufs. -/
structure State where
  fb : Framebuffer
  made : Nat
  held : List Slot
  releases : List Slot
  fresh : Fin 2 → Bool
  turns : List (Fin 2)
  torn : List Slot
  unfit : List Slot
  objects : Nat
  inFlight : List Bool

namespace State

def slot (s : State) : Slot := (s.made,s.fb.writeIdx)

/- All of the mapping is filled or painted. -/
def write (s : State) : State :=
  {s with
    torn := s.torn++(if s.slot∈s.held then [s.slot] else [])
    fresh := Function.update s.fresh s.fb.writeIdx true}

def commit (s : State) : State :=
  {s with
    unfit := s.unfit++(if s.slot∈s.held ∨ s.fresh s.fb.writeIdx=false then [s.slot] else [])
    held := s.slot::s.held
    fresh := Function.update s.fresh s.fb.writeIdx false
    turns := s.turns++[s.fb.writeIdx]
    fb := s.fb.commit}

/- The old proxies are dropped; their objects stay. -/
def resize (s : State) (w h : Nat) (alloc : Alloc) : State :=
  if w=s.fb.width ∧ h=s.fb.height then s
  else
    let s:={s with objects := s.objects+alloc.objects}
    if alloc=.ok then {s with fb := .new w h, made := s.made+1, fresh := fun _ => false, turns := []} else s

def unreleased (s : State) : Nat := s.inFlight.countP (!·)

/- Forwards a dmabuf of that size: released ones are destroyed, and its params as soon as it exists. -/
def forward (s : State) (w h : Nat) (alloc : Alloc) : State :=
  let s:=s.resize w h alloc
  {s with objects := s.objects-s.inFlight.countP (·)+1, inFlight := s.inFlight.filter (!·)++[false]}

/- `composite_focused_direct` writes nothing when it fails. -/
def composite (s : State) (w h : Nat) (alloc : Alloc) (composited : Bool) : State :=
  let s:=s.resize w h alloc
  if s.fb.writable && composited then s.write.commit else s

def placeholder (s : State) : State := if s.fb.writable then s.write.commit else s

end State

/- Both slots are painted and the first is committed. -/
def start (w h : Nat) : State :=
  State.commit ⟨.new w h,0,[],[],fun _ => true,[],[],[],4,[]⟩

inductive Act
  | forward (w h : Nat) (alloc : Alloc)
  | composite (w h : Nat) (alloc : Alloc) (composited : Bool)
  | placeholder
  | release (x : Slot)
  | dispatch
  | dmabufReleased (k : Nat)

def step (s : State) : Act → Option State
  | .forward w h alloc => some (s.forward w h alloc)
  | .composite w h alloc composited => some (s.composite w h alloc composited)
  | .placeholder => some s.placeholder
  | .release x => if x∈s.held then some {s with held := s.held.erase x, releases := s.releases++[x]} else none
  | .dispatch => match s.releases with
    | x::rest =>
      let fb := if x.1=s.made then {s.fb with released := Function.update s.fb.released x.2 true} else s.fb
      some {s with releases := rest, fb := fb}
    | [] => none
  | .dmabufReleased k => if k<s.inFlight.length then some {s with inFlight := s.inFlight.set k true} else none

variable {s t : State} {a : Act} {w h : Nat}

/-- A slot is at the outer compositor at most once, and not while its flag says it is free. -/
structure Inv (s : State) : Prop where
  nodup : (s.held++s.releases).Nodup
  busy : ∀ x∈s.held++s.releases,x.1 ≤ s.made ∧ (x.1=s.made → s.fb.released x.2=false)
  torn : s.torn=[]
  unfit : s.unfit=[]
  turns : s.turns.IsChain (· ≠ ·)
  turn : ∀ i∈s.turns.getLast?,i≠s.fb.writeIdx

theorem Inv.free (hi : Inv s) (hw : s.fb.writable=true) : s.slot∉s.held++s.releases := by
  intro hx
  have := (hi.busy _ hx).2 rfl
  rw [show s.fb.released s.slot.2=true from hw] at this
  cases this

theorem other_slot (i : Fin 2) : i≠1-i := by
  decide +revert

theorem Inv.write (hi : Inv s) (hw : s.fb.writable=true) : Inv s.write := by
  refine ⟨hi.nodup,hi.busy,?_,hi.unfit,hi.turns,hi.turn⟩
  show s.torn++(if s.slot∈s.held then [s.slot] else [])=[]
  rw [if_neg fun hx => hi.free hw (mem_append_left _ hx),hi.torn]
  rfl

theorem Inv.commit (hi : Inv s) (hw : s.fb.writable=true) (hf : s.fresh s.fb.writeIdx=true) : Inv s.commit := by
  have hfree:=hi.free hw
  refine ⟨nodup_cons.mpr ⟨hfree,hi.nodup⟩,fun x hx => ?_,hi.torn,?_,?_,?_⟩
  · rcases mem_cons.mp hx with rfl | hx
    · exact ⟨Nat.le_refl _,fun _ => Function.update_self ..⟩
    · refine ⟨(hi.busy x hx).1,fun hm => ?_⟩
      show Function.update s.fb.released s.fb.writeIdx false x.2=false
      rw [Function.update_apply]
      split
      · rfl
      · exact (hi.busy x hx).2 hm
  · show s.unfit++(if s.slot∈s.held ∨ s.fresh s.fb.writeIdx=false then [s.slot] else [])=[]
    have hheld : s.slot∉s.held := fun hx => hfree (mem_append_left _ hx)
    rw [if_neg (by simp [hf,hheld]),hi.unfit]
    rfl
  · refine isChain_append.mpr ⟨hi.turns,.singleton _,fun i hl j hj => ?_⟩
    obtain rfl : s.fb.writeIdx=j := Option.some.inj hj
    exact hi.turn i hl
  · intro i hl
    have : i=s.fb.writeIdx := by simpa [State.commit] using hl.symm
    exact this ▸ other_slot _

theorem Inv.present (hi : Inv s) (hw : s.fb.writable=true) : Inv s.write.commit :=
  (hi.write hw).commit hw (Function.update_self ..)

theorem Inv.resize (hi : Inv s) (w h : Nat) (alloc : Alloc) : Inv (s.resize w h alloc) := by
  unfold State.resize
  split
  · exact hi
  · dsimp only
    split
    · refine ⟨hi.nodup,fun x hx => ?_,hi.torn,hi.unfit,.nil,nofun⟩
      have hle:=(hi.busy x hx).1
      exact ⟨Nat.le_succ_of_le hle,fun hm => absurd hm (Nat.ne_of_lt (Nat.lt_succ_of_le hle))⟩
    · exact ⟨hi.1,hi.2,hi.3,hi.4,hi.5,hi.6⟩

theorem inv_step (hi : Inv s) (ht : step s a=some t) : Inv t := by
  cases a with
  | forward w h alloc =>
    cases ht
    have hr:=hi.resize w h alloc
    exact ⟨hr.1,hr.2,hr.3,hr.4,hr.5,hr.6⟩
  | composite w h alloc composited =>
    cases ht
    have hr:=hi.resize w h alloc
    unfold State.composite
    dsimp only
    split
    next hc => exact hr.present (Bool.and_eq_true_iff.mp hc).1
    · exact hr
  | placeholder =>
    cases ht
    unfold State.placeholder
    split
    next hw => exact hi.present hw
    · exact hi
  | release x =>
    obtain ⟨hx,⟨⟩⟩ := Option.ite_none_right_eq_some.mp ht
    have hperm : s.held.erase x++(s.releases++[x]) ~ s.held++s.releases := by
      have hback:=(perm_cons_erase hx).symm.append_right s.releases
      rw [← append_assoc]
      exact perm_append_singleton _ _ |>.trans hback
    exact ⟨hperm.nodup_iff.mpr hi.nodup,fun y hy => hi.busy y (hperm.mem_iff.mp hy),hi.3,hi.4,hi.5,hi.6⟩
  | dispatch =>
    simp only [step] at ht
    split at ht <;> cases ht
    next x rest hr =>
      obtain ⟨hnodup,hbusy,h3,h4,h5,h6⟩ := hi
      rw [hr] at hnodup hbusy
      obtain ⟨hx,hnodup⟩ := nodup_cons.mp (nodup_middle.mp hnodup)
      refine ⟨hnodup,fun y hy => ?_,h3,h4,h5,?_⟩
      · obtain ⟨hle,hflag⟩ := hbusy y (perm_middle.mem_iff.mpr (mem_cons_of_mem x hy))
        refine ⟨hle,fun hm => ?_⟩
        dsimp only
        split
        next hxm =>
          have hne : y.2≠x.2 := fun he => hx (Prod.ext (hm.trans hxm.symm) he ▸ hy)
          exact (Function.update_of_ne hne _ _).trans (hflag hm)
        · exact hflag hm
      · dsimp only
        split <;> exact h6
  | dmabufReleased =>
    obtain ⟨-,⟨⟩⟩ := Option.ite_none_right_eq_some.mp ht
    exact ⟨hi.1,hi.2,hi.3,hi.4,hi.5,hi.6⟩

/-- No slot is written while the outer compositor has it, each commit is of a slot that it does not have and that was
written since, and the slots take turns. -/
theorem no_tearing (hr : Reach step Free (start w h) s) :
    s.torn=[] ∧ s.unfit=[] ∧ s.turns.IsChain (· ≠ ·) := by
  have hstart : Inv (start w h) := Inv.commit ⟨nodup_nil,nofun,rfl,rfl,.nil,nofun⟩ rfl rfl
  have hi : Inv s := hr.keeps hstart fun hi _ ht => inv_step hi ht
  exact ⟨hi.torn,hi.unfit,hi.turns⟩

theorem no_tearing_resized : ∃ s,Reach step Free (start 8 6) s ∧ s.made=1 ∧ s.held=[(1,0),(1,1),(0,1)] ∧ s.torn=[] ∧
    s.unfit=[] ∧ s.turns.IsChain (· ≠ ·) := by
  have hr : Reach step Free (start 8 6) _ := reach_free
    [.composite 8 6 .failed true,.release (0,0),.composite 8 6 .ok true,.dispatch,.composite 9 6 .ok true,
      .composite 9 6 .ok true,.placeholder,.release (1,0),.dispatch,.placeholder] (by decide +kernel)
  refine ⟨_,hr,?_,?_,no_tearing hr⟩ <;> decide +kernel

/-- Frames have the size of the framebuffer. -/
def SameSize (s : State) : Act → Prop
  | .forward w h _ | .composite w h _ _ => w=s.fb.width ∧ h=s.fb.height
  | _ => True

instance (s : State) : ∀ a,Decidable (SameSize s a)
  | .forward w h _ | .composite w h _ _ => inferInstanceAs (Decidable (w=s.fb.width ∧ h=s.fb.height))
  | .placeholder | .release _ | .dispatch | .dmabufReleased _ => isTrue trivial

theorem resize_same (hs : w=s.fb.width ∧ h=s.fb.height) (alloc : Alloc) : s.resize w h alloc=s := if_pos hs

def Counted (s : State) : Prop := s.objects=4+s.inFlight.length

theorem forward_objects (hc : Counted s) {alloc : Alloc} (hs : SameSize s (.forward w h alloc)) :
    (s.forward w h alloc).objects=4+(s.forward w h alloc).unreleased ∧ Counted (s.forward w h alloc) := by
  have hlen : s.inFlight.length=s.inFlight.countP (·)+s.inFlight.countP (!·) := by
    simpa using length_eq_countP_add_countP (·) (l := s.inFlight)
  have hc : s.objects=4+s.inFlight.length := hc
  rw [Counted,State.forward,resize_same hs]
  simp only [State.unreleased,countP_append,countP_filter,length_append,← countP_eq_length_filter]
  simp
  omega

theorem counted_step (hc : Counted s) (hok : SameSize s a) (ht : step s a=some t) : Counted t := by
  cases a with
  | forward =>
    cases ht
    exact (forward_objects hc hok).2
  | composite =>
    cases ht
    unfold State.composite
    rw [resize_same hok]
    dsimp only
    split <;> exact hc
  | placeholder =>
    cases ht
    unfold State.placeholder
    split <;> exact hc
  | release =>
    obtain ⟨-,⟨⟩⟩ := Option.ite_none_right_eq_some.mp ht
    exact hc
  | dispatch =>
    simp only [step] at ht
    split at ht <;> cases ht
    exact hc
  | dmabufReleased =>
    obtain ⟨-,⟨⟩⟩ := Option.ite_none_right_eq_some.mp ht
    simpa [Counted] using hc

/-- While the size stays, only forwarded dmabufs come on top of the framebuffer; when one is forwarded, those that
were released are gone. -/
theorem objects_bounded (hr : Reach step SameSize (start w h) s) : s.objects=4+s.inFlight.length ∧
    ∀ w' h' alloc t,SameSize s (.forward w' h' alloc) → step s (.forward w' h' alloc)=some t →
      t.objects=4+t.unreleased := by
  have hc : Counted s := hr.keeps (I := Counted) rfl counted_step
  refine ⟨hc,fun w' h' alloc t hs ht => ?_⟩
  cases ht
  exact (forward_objects hc hs).1

theorem objects_bounded_one : ∃ s,Reach step SameSize (start 8 6) s ∧ s.inFlight=[true] ∧ s.objects=5 ∧
    (s.forward 8 6 .ok).objects=4+(s.forward 8 6 .ok).unreleased := by
  have hr : Reach step SameSize (start 8 6) _ := reach_exec [.forward 8 6 .ok,.dmabufReleased 0]
    (meets_decided (by decide +kernel)) (by decide +kernel)
  exact ⟨_,hr,rfl,rfl,(objects_bounded hr).2 8 6 .ok _ ⟨rfl,rfl⟩ rfl⟩

theorem composite_wider (s : State) (h : Nat) : let t:=s.composite (s.fb.width+1) h .ok true
    t.objects=s.objects+4 ∧ t.inFlight=s.inFlight ∧ t.turns=[0] := by
  simp [State.composite,State.resize,State.write,State.commit,Alloc.objects,Framebuffer.new,Framebuffer.writable]

theorem resized_often (n : Nat) : ∃ s,Reach step Free (start w h) s ∧ s.objects=4+4*n ∧ s.inFlight=[] := by
  induction n with
  | zero => exact ⟨start w h,.start,rfl,rfl⟩
  | succ n ih =>
    obtain ⟨s,hr,ho,hf⟩ := ih
    obtain ⟨ho',hf',-⟩ := composite_wider s h
    exact ⟨_,hr.next (a := .composite (s.fb.width+1) h .ok true) trivial rfl,by omega,hf'.trans hf⟩

/-- Every change of size leaves the objects of a framebuffer behind. -/
theorem objects_leak : ¬∃ bound,∀ s w t,Reach step Free (start 8 6) s → step s (.composite w 6 .ok true)=some t →
    t.turns=[0] → t.objects≤bound+t.unreleased := by
  rintro ⟨bound,hbound⟩
  obtain ⟨s,hr,ho,hf⟩ := resized_often (w := 8) (h := 6) bound
  obtain ⟨ho',hf',ht⟩ := composite_wider s 6
  have hle:=hbound s _ _ hr rfl ht
  rw [State.unreleased,hf',hf,countP_nil] at hle
  omega

end Waymux.Session.OuterBuffers
