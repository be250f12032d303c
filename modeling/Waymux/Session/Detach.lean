import Mathlib.Data.List.Chain
import Waymux.Session.Tearing

/-!
# Detaching

The `Occluded` events against `is_attached`, and the clients' buffers once there is no view.
-/

namespace Waymux.Session.Detach
open BufferRelease Presentation Obligations Effects Attachment Function
open Interleave.Runs CommitReleases RecordingHolds Tearing

variable {kind : Nat → BufferKind} {s t : State} {a : Presentation.Act} {b : Nat}

/-- No request, view or commit is half way, no release is in progress, and no
stopped view waits to be joined. -/
structure Finished (s : State) : Prop where
  server : s.server=.idle
  view : s.view=.absent ∨ s.view=.looping
  compositor : s.compositor=.idle
  jobs : s.api.jobs=[]
  swept : ¬(s.activeView=true ∧ s.stop=true)

/-- Before the first event nobody is watching. -/
def lastOccluded (es : List Bool) : Bool := es.getLast?.getD true

structure NothingLeft (s : State) : Prop where
  alternate : s.occluded.IsChain (·≠·)
  last : Finished s → lastOccluded s.occluded = !s.outerWake.isSome
  pending : Finished s → s.outerWake=none → s.api.pending=[]
  released : Finished s → s.outerWake=none → ∀ b∈s.forwarded,s.api.alive b=true → s.lent b=false

/-- A view that ends does not find its own fd; the outer buffers that end with it carry no release of a live
buffer; the list is not drained while a commit is about to queue; and no live buffer is wrapped or found
held. -/
def Tidy (s : State) : Presentation.Act → Prop
  | .clear => s.outerWake≠some s.views
  | .finish | .panicked => ∀ o∈s.inflight,∀ c∈o.releases.directs,s.api.alive c=false
  | .drain => queues s.compositor=false
  | .wrap => match s.view with
    | .wrapping _ (d::_) _ => s.api.alive d=false
    | _ => True
  | .job i => match s.api.jobs[i]? with
    | some (_,.gate c) => isHeld (s.api.holds c)=false
    | _ => True
  | _ => True

/-- Between a swap of the wake fd and its event the last event is behind. -/
def behind (p : Phase) (sv : Server) : Bool := p=.installed true || sv=.draining || sv=.announcing

structure Linked (p : Phase) (sv : Server) (wake last : Bool) : Prop where
  last : last=if behind p sv then wake else !wake
  attached : p≠.absent → p≠.starting → wake=true
  served : sv=.unsetting ∨ sv=.draining ∨ sv=.announcing → p=.absent
  detached : sv=.draining ∨ sv=.announcing → wake=false

section
variable {p : Phase} {sv : Server} {wake l : Bool}

theorem Linked.unserved (h : Linked p sv wake l) (hp : p≠.absent) :
    sv≠.unsetting ∧ sv≠.draining ∧ sv≠.announcing :=
  ⟨fun hs => hp (h.served (.inl hs)),fun hs => hp (h.served (.inr (.inl hs))),
    fun hs => hp (h.served (.inr (.inr hs)))⟩

theorem behind_of_unserved (hs : sv≠.unsetting ∧ sv≠.draining ∧ sv≠.announcing) :
    behind p sv=decide (p=.installed true) := by
  simp [behind,hs.2.1,hs.2.2]

theorem Linked.enter {p' : Phase} {wake' l' : Bool} (h : Linked p sv wake l) (hp : p≠.absent)
    (hl : l'=if p'=.installed true then wake' else !wake') (hw : p'≠.absent → p'≠.starting → wake'=true) :
    Linked p' sv wake' l' := by
  have hs:=h.unserved hp
  refine ⟨?_,hw,fun hsv => ?_,fun hsv => ?_⟩
  · rw [behind_of_unserved hs,hl]
    simp only [decide_eq_true_eq]
  · rcases hsv with hsv | hsv | hsv
    · exact absurd hsv hs.1
    · exact absurd hsv hs.2.1
    · exact absurd hsv hs.2.2
  · rcases hsv with hsv | hsv
    · exact absurd hsv hs.2.1
    · exact absurd hsv hs.2.2

theorem Linked.last_of (h : Linked p sv wake l) (hp : p≠.absent) :
    l=if p=.installed true then wake else !wake := by
  have hl:=h.last
  rw [behind_of_unserved (h.unserved hp)] at hl
  simpa only [decide_eq_true_eq] using hl

theorem Linked.waits (h : Linked p .idle wake l) (spawn : Bool) : Linked p (.joining spawn) wake l :=
  ⟨h.last,h.attached,nofun,nofun⟩

theorem Linked.spawned (h : Linked .absent (.joining true) wake l) : Linked .starting .idle wake l :=
  ⟨h.last,fun _ hp => absurd rfl hp,nofun,nofun⟩

theorem Linked.joined (h : Linked .absent (.joining false) wake l) : Linked .absent .unsetting wake l :=
  ⟨h.last,h.attached,fun _ => rfl,nofun⟩

theorem Linked.unset (h : Linked p .unsetting wake l) : Linked p (if wake then .draining else .idle) false l := by
  obtain rfl : p=.absent := h.served (.inl rfl)
  have hl:=h.last
  cases wake with
  | true => exact ⟨hl,fun hp => absurd rfl hp,fun _ => rfl,fun _ => rfl⟩
  | false => exact ⟨hl,fun hp => absurd rfl hp,nofun,nofun⟩

theorem Linked.drained (h : Linked p .draining wake l) : Linked p .announcing wake l := by
  obtain rfl : p=.absent := h.served (.inr (.inl rfl))
  exact ⟨h.last,h.attached,fun _ => rfl,fun _ => h.detached (.inl rfl)⟩

theorem Linked.announcedGone (h : Linked p .announcing wake l) : Linked p .idle wake true ∧ l=false := by
  obtain rfl : p=.absent := h.served (.inr (.inr rfl))
  obtain rfl : wake=false := h.detached (.inr rfl)
  exact ⟨⟨rfl,h.attached,nofun,nofun⟩,h.last⟩

end

structure Announced (s : State) : Prop where
  alternate : s.occluded.IsChain (·≠·)
  linked : Linked (phase s.view) s.server s.outerWake.isSome (lastOccluded s.occluded)

theorem lastOccluded_snoc (es : List Bool) (e : Bool) : lastOccluded (es++[e])=e := by
  rw [lastOccluded,List.getLast?_concat]
  rfl

theorem alternate_snoc {es : List Bool} {e : Bool} (h : es.IsChain (·≠·)) (hl : lastOccluded es = !e) :
    (es++[e]).IsChain (·≠·) := by
  refine List.isChain_append.mpr ⟨h,.singleton e,fun x hx y hy => ?_⟩
  obtain rfl : e=y := Option.some.inj hy
  have hx : es.getLast?=some x := hx
  rw [lastOccluded,hx] at hl
  rintro rfl
  revert hl
  cases x <;> decide

theorem Announced.turned (hi : Announced s) (ho : t.occluded=s.occluded)
    (hl : Linked (phase t.view) t.server t.outerWake.isSome (lastOccluded s.occluded)) : Announced t :=
  ⟨ho ▸ hi.alternate,ho ▸ hl⟩

theorem Announced.kept (hi : Announced s) (hk : Kept s t) : Announced t := by
  refine hi.turned hk.occluded ?_
  rw [hk.phase,hk.outerWake,hk.server]
  exact hi.linked

theorem Announced.said (hi : Announced s) {e : Bool} (ho : t.occluded=s.occluded++[e])
    (he : lastOccluded s.occluded = !e) (hl : Linked (phase t.view) t.server t.outerWake.isSome e) : Announced t := by
  refine ⟨ho ▸ alternate_snoc hi.alternate he,?_⟩
  rw [ho,lastOccluded_snoc]
  exact hl

theorem announced_step (hi : Announced s) (hok : Tidy s a) (h : Turn s a t) : Announced t := by
  have hlink:=hi.linked
  cases h with
  | moved hk | forwarded _ _ _ _ _ _ hk | freed _ _ hk | returned _ hk => exact hi.kept hk
  | cleared ha hk hw =>
    subst ha
    rw [if_neg hok] at hw
    exact hi.kept ⟨hk.phase,hw,hk.server,hk.occluded⟩
  | tornDown _ hk hp hp' =>
    rw [hp] at hlink
    refine hi.turned hk.occluded ?_
    rw [hp',hk.outerWake,hk.server]
    exact hlink.enter nofun (hlink.last_of nofun) fun _ _ => hlink.attached nofun nofun
  | gone hk hp hp' | failed hk hp hp' =>
    rw [hp] at hlink
    refine hi.turned hk.occluded ?_
    rw [hp',hk.outerWake,hk.server]
    exact hlink.enter nofun (hlink.last_of nofun) fun hn => absurd rfl hn
  | installed hk hp hp' hw =>
    rw [hp] at hlink
    refine hi.turned hk.occluded ?_
    rw [hp',hw,hk.server]
    refine hlink.enter nofun ?_ fun _ _ => rfl
    rw [hlink.last_of nofun]
    cases s.outerWake <;> rfl
  | announced new hk hp hp' ho =>
    rw [hp] at hlink
    have hsome : t.outerWake.isSome=true :=
      (congrArg Option.isSome hk.outerWake).trans (hlink.attached nofun nofun)
    have hl:=hlink.last_of nofun
    rw [hlink.attached nofun nofun] at hl
    cases new with
    | true =>
      refine hi.said ho hl ?_
      rw [hp',hsome,hk.server]
      exact hlink.enter nofun rfl fun _ _ => rfl
    | false =>
      refine hi.turned (ho.trans (List.append_nil _)) ?_
      rw [hp',hsome,hk.server]
      exact hlink.enter nofun hl fun _ _ => rfl
  | requested spawn hk hs hs' =>
    rw [hs] at hlink
    refine hi.turned hk.occluded ?_
    rw [hk.phase,hk.outerWake,hs']
    exact hlink.waits spawn
  | spawned hk hp hp' hs hs' =>
    rw [hp,hs] at hlink
    refine hi.turned hk.occluded ?_
    rw [hp',hk.outerWake,hs']
    exact hlink.spawned
  | joined hk hp hs hs' =>
    rw [hp,hs] at hlink
    refine hi.turned hk.occluded ?_
    rw [hk.phase,hk.outerWake,hs']
    exact hp ▸ hlink.joined
  | unset hk hs hs' hw =>
    rw [hs] at hlink
    refine hi.turned hk.occluded ?_
    rw [hk.phase,hw,hs']
    exact hlink.unset
  | drained _ hk hs hs' =>
    rw [hs] at hlink
    refine hi.turned hk.occluded ?_
    rw [hk.phase,hk.outerWake,hs']
    exact hlink.drained
  | announcedGone hk hs hs' ho =>
    rw [hs] at hlink
    refine hi.said ho hlink.announcedGone.2 ?_
    rw [hk.phase,hk.outerWake,hs']
    exact hlink.announcedGone.1

def Grounded (s : State) : Prop := phase s.view≠.running → s.inflight=[]

theorem grounded_step (hi : Grounded s) (h : Turn s a t) : Grounded t := by
  intro hn
  cases h with
  | moved hk hf | cleared _ hk _ hf | requested _ hk _ _ hf | joined hk _ _ _ hf | unset hk _ _ _ hf
  | drained _ hk _ _ hf | announcedGone hk _ _ _ hf =>
    rw [hf]
    exact hi (hk.phase ▸ hn)
  | forwarded _ _ _ _ _ _ hk hr => exact absurd (hk.phase.trans hr) hn
  | freed k o hk ho =>
    rw [hi (hk.phase ▸ hn)] at ho
    cases ho
  | returned k hk hf =>
    rw [hf,hi (hk.phase ▸ hn)]
    rfl
  | tornDown _ _ _ _ hf => exact hf
  | gone _ hp _ hf | failed _ hp _ hf | installed _ hp _ _ hf | announced _ _ hp _ _ hf | spawned _ hp _ _ _ hf =>
    rw [hf]
    exact hi (by rw [hp]; nofun)

def Expected (s : State) : Prop := Waiting s → s.outerWake.isSome=true ∨ s.server=.draining

theorem expected_step {l : Bool} (hi : Expected s) (hl : Linked (phase s.view) s.server s.outerWake.isSome l)
    (hok : Tidy s a) (h : Turned kind s a t) : Expected t := by
  intro hw
  -- before the step there was one as well, or a view to take the new one
  have hs : s.outerWake.isSome=true ∨ s.server=.draining ∧ a≠.drain := by
    have hqueues (hq : queues s.compositor=true) :
        s.outerWake.isSome=true ∨ s.server=.draining ∧ a≠.drain := by
      refine (hi (.inr hq)).imp_right fun hd => ⟨hd,?_⟩
      rintro rfl
      cases hq.symm.trans hok
    rcases h.waiting hw with hq | hq | ⟨hq,ha⟩
    · exact hqueues hq
    · exact .inl hq
    · exact (hi hq).imp_right fun hd => ⟨hd,ha⟩
  cases h.turn with
  | moved hk | forwarded _ _ _ _ _ _ hk | freed _ _ hk | returned _ hk | tornDown _ hk | gone hk | failed hk
  | announced _ hk =>
    exact hs.imp (fun hs => (congrArg Option.isSome hk.outerWake).trans hs) fun hs => hk.server.trans hs.1
  | cleared ha hk hw =>
    subst ha
    rw [if_neg hok] at hw
    exact hs.imp (fun hs => (congrArg Option.isSome hw).trans hs) fun hs => hk.server.trans hs.1
  | installed _ _ _ hw => exact .inl (by rw [hw]; rfl)
  | requested _ hk hsv | spawned hk _ _ hsv | joined hk _ hsv =>
    refine .inl ((congrArg Option.isSome hk.outerWake).trans (hs.resolve_right fun hd => ?_))
    have := hsv.symm.trans hd.1
    cases this
  | unset _ hsv hsv' =>
    have hsome:=hs.resolve_right fun hd => by
      have := hsv.symm.trans hd.1
      cases this
    exact .inr (by rw [hsv',if_pos hsome])
  | drained ha _ hsv =>
    have hnone:=hl.detached (.inl hsv)
    rcases hs with hs | hs
    · rw [hnone] at hs
      cases hs
    · exact absurd ha hs.2
  | announcedGone _ hsv =>
    have hnone:=hl.detached (.inr hsv)
    rcases hs with hs | hs
    · rw [hnone] at hs
      cases hs
    · have := hsv.symm.trans hs.1
      cases this

theorem requested_free {st : Option HoldState} (h : isHeld st=false) : requested st=st := by
  cases st with
  | none => rfl
  | some => exact congrArg some (if_neg (of_decide_eq_false h))

theorem unasked_step (hi : ∀ b,wasRequested (s.api.holds b)=false) (hok : Tidy s a)
    (h : step kind s a=some t) (b : Nat) : wasRequested (t.api.holds b)=false := by
  cases step_effect h with
  | quiet _ _ hq =>
    refine Bool.eq_false_iff.mpr fun hb => ?_
    have := hq.asked b hb
    rw [hi b] at this
    cases this
  | job i th j hj =>
    cases j with
    | gate c =>
      show wasRequested (update s.api.holds c (requested (s.api.holds c)) b)=false
      rw [requested_free (by simpa [Tidy,hj] using hok),update_eq_self]
      exact hi b
    | _ => exact hi b
  | _ => exact hi b

/-- A live buffer that was committed and not released since has a release to come. -/
def Owed (s : State) (b : Nat) : Prop := s.lent b=true → s.api.alive b=true → 0<owed true s b

theorem Owed.keep (hi : Owed s b) (hl : t.lent b=true → s.lent b=true)
    (ha : t.api.alive b=true → s.api.alive b=true)
    (ho : s.api.alive b=true → t.lent b=true → owed true s b≤owed true t b) : Owed t b :=
  fun hl' ha' => Nat.lt_of_lt_of_le (hi (hl hl') (ha ha')) (ho (ha ha') hl')

theorem unspent (hok : Tidy s a) (hb : s.api.alive b=true) (hj : ∀ i,a≠.job i) : spentBy true s b a=0 := by
  have hcarried (h : ∀ o∈s.inflight,∀ c∈o.releases.directs,s.api.alive c=false) : inflightOwe b s.inflight=0 :=
    inflightOwe_none fun o ho hm => by cases hb.symm.trans (h o ho b hm)
  cases a with
  | job i => exact absurd rfl (hj i)
  | wrap =>
    simp only [spentBy]
    split
    next c d left holds hv =>
      refine one_of_ne ?_
      rintro rfl
      simp [Tidy,hv,hb] at hok
    · rfl
  | finish | panicked => exact hcarried hok
  | _ => rfl

theorem spent_released {i th : Nat} {j : Job} (hok : Tidy s (.job i)) (hj : s.api.jobs[i]?=some (th,j))
    (hb : s.api.alive b=true) (hr : released s.api j≠some b) : spent true s.api b j=0 := by
  have hdead {c : Nat} (hc : s.api.alive c=false) : one c b=0 := by
    refine one_of_ne ?_
    rintro rfl
    rw [hb] at hc
    cases hc
  cases j with
  | gate c =>
    have hheld : isHeld (s.api.holds c)=false := by simpa [Tidy,hj] using hok
    simp only [spent,hheld]
    rfl
  | pop | signal => rfl
  | send =>
    refine one_of_ne ?_
    rintro rfl
    exact hr (if_pos hb)
  | _ =>
    simp only [spent]
    split
    · rfl
    next hc => exact hdead (Bool.eq_false_iff.mpr hc)

theorem Owed.committed {x nb : Nat} (hi : Owed s b) (hn : (s.surfaces x).pendingBuffer=some nb)
    (hl : t.lent=update s.lent nb true) (ha : t.api.alive=s.api.alive)
    (hbal : owed true t b=owed true s b+made kind s b (.commit x)) : Owed t b := by
  have hmade : made kind s b (.commit x)=one nb b+(replaced kind (s.surfaces x)).count b := by
    simp only [made,hn]
  by_cases hnb : nb=b
  · subst hnb
    intro _ _
    rw [one_self] at hmade
    omega
  · rw [Owed,hl,update_of_ne (Ne.symm hnb),ha]
    intro hl hb
    have := hi hl hb
    omega

theorem Owed.job {i th : Nat} {j : Job} (hi : Owed s b) (hok : Tidy s (.job i)) (hj : s.api.jobs[i]?=some (th,j))
    (hl : t.lent=match released s.api j with
      | some b => update s.lent b false
      | none => s.lent) (ha : t.api.alive=s.api.alive)
    (hbal : owed true t b+spent true s.api b j=owed true s b) : Owed t b := by
  have hunsent (hlent : t.lent b=true) : released s.api j≠some b ∧ s.lent b=true := by
    rw [hl] at hlent
    cases hr : released s.api j with
    | none =>
      rw [hr] at hlent
      exact ⟨nofun,hlent⟩
    | some c =>
      rw [hr] at hlent
      have hlent : update s.lent c false b=true := hlent
      by_cases hbc : b=c
      · subst hbc
        rw [update_self] at hlent
        cases hlent
      · rw [update_of_ne hbc] at hlent
        exact ⟨fun he => hbc (Option.some.inj he).symm,hlent⟩
  refine hi.keep (fun hlent => (hunsent hlent).2) (by rw [ha]; exact id) fun hb hlent => ?_
  have := spent_released hok hj hb (hunsent hlent).1
  omega

theorem owed_step (hi : Owed s b) (hok : Tidy s a) (h : step kind s a=some t) : Owed t b := by
  have hbal:=@step_owed kind s t a true b h
  cases step_effect h with
  | quiet hm hj hq =>
    refine hi.keep (by rw [hq.lent]; exact id) (by rw [hq.alive]; exact id) fun hb _ => ?_
    rw [unspent hok hb hj,hm] at hbal
    exact Nat.le_of_eq hbal.symm
  | committed x nb hd hn => exact hi.committed hn rfl rfl hbal
  | unbuffered x hd hn =>
    refine hi.keep id id fun _ _ => ?_
    simp only [made,hn] at hbal
    exact Nat.le_of_eq hbal.symm
  | destroyed => exact hi.keep id alive_of_destroy fun _ _ => Nat.le_of_eq hbal.symm
  | job i th j hj =>
    refine hi.job hok hj rfl rfl ?_
    simpa only [spentBy,hj,made,Nat.add_zero] using hbal
  | _ => exact hi.keep id id fun _ _ => Nat.le_of_eq hbal.symm

structure Inv (s : State) : Prop where
  announced : Announced s
  grounded : Grounded s
  expected : Expected s
  unasked : ∀ b,wasRequested (s.api.holds b)=false
  owed : ∀ b,Owed s b

theorem inv_step (hi : Inv s) (hok : Tidy s a) (h : step kind s a=some t) : Inv t where
  announced := announced_step hi.announced hok (step_turn h).turn
  grounded := grounded_step hi.grounded (step_turn h).turn
  expected := expected_step hi.expected hi.announced.linked hok (step_turn h)
  unasked := unasked_step hi.unasked hok h
  owed b := owed_step (hi.owed b) hok h

theorem inv_init : Inv init where
  announced := ⟨.nil,rfl,fun hp => absurd rfl hp,nofun,nofun⟩
  grounded _ := rfl
  expected hw := hw.elim (absurd rfl) nofun
  unasked _ := rfl
  owed _ hl := by cases hl

theorem Inv.empty (hi : Inv s) (hf : Finished s) (hn : s.outerWake=none) : s.api.pending=[] := by
  by_contra hp
  rcases hi.expected (.inl hp) with hs | hs
  · rw [hn] at hs
    cases hs
  · rw [hf.server] at hs
    cases hs

theorem Inv.settled (hi : Inv s) (hn : s.outerWake=none) : s.inflight=[] := by
  refine hi.grounded fun hp => ?_
  have := hi.announced.linked.attached (by rw [hp]; nofun) (by rw [hp]; nofun)
  rw [hn] at this
  cases this

theorem finished_owed (hi : Inv s) (hf : Finished s) (hn : s.outerWake=none) (b : Nat) : owed true s b=0 := by
  have hview : View.owes b s.view=0 := by
    rcases hf.view with hv | hv <;> rw [hv] <;> rfl
  simp [Obligations.owed,apiOwes,hi.empty hf hn,hf.jobs,flag,hi.unasked b,hf.compositor,Compositor.owes,hview,
    hi.settled hn,inflightOwe]

/-- In every run whose steps all meet the condition. -/
theorem nothing_left (hr : Reach (step kind) Tidy init s) : NothingLeft s := by
  have hi : Inv s := hr.keeps inv_init inv_step
  refine ⟨hi.announced.alternate,fun hf => ?_,hi.empty,fun hf hn b _ hb => ?_⟩
  · have hl:=hi.announced.linked.last
    have hbehind : behind (phase s.view) s.server=false := by
      rw [hf.server]
      rcases hf.view with hv | hv <;> rw [hv] <;> rfl
    rwa [hbehind] at hl
  · refine Bool.eq_false_iff.mpr fun hl => ?_
    have := hi.owed b hl hb
    rw [finished_owed hi hf hn] at this
    cases this

instance : Decidable (Tidy s a) := by
  rcases a with ⟨⟩ <;> dsimp only [Tidy]
  case job i => rcases s.api.jobs[i]? with _ | ⟨_,⟨⟩⟩ <;> infer_instance
  case wrap =>
    rcases s.view with ⟨⟩
    case wrapping _ ds _ => rcases ds with ⟨⟩ <;> infer_instance
    all_goals infer_instance
  all_goals infer_instance

/-- The view thread unwinds while the release of a second buffer is deferred. -/
theorem nothing_left_unwound : ∃ s,Reach (step kinds) Tidy init s ∧ s.outerWake=none ∧
    s.occluded=[false,true] ∧ s.forwarded=[10] ∧ s.api.log=[.release 10 0,.release 11 0] ∧
    NothingLeft s := by
  have hr : Reach (step kinds) Tidy init _ :=
    reach_exec (forwarding++([.freeOuter 0,.outerReleased 0] : List Presentation.Act) ++
      releasing++queuing 0 11 2 ++
      ([.panicked,.dropNext,.request false,.join,.unset,.drain] : List Presentation.Act) ++
      releasing++([.announceGone] : List Presentation.Act))
      (meets_decided (by decide +kernel)) (by decide +kernel)
  refine ⟨_,hr,?_,?_,?_,?_,nothing_left hr⟩ <;> decide +kernel

/-- The view thread clears the wake fd, so `set_outer_wake_fd(None)` sees no transition. -/
theorem left_behind : ∃ s,Reach (step kinds) Free init s ∧ Finished s ∧ s.outerWake=none ∧
    s.occluded=[false] ∧ s.api.pending=[11] ∧ s.forwarded=[10] ∧ s.api.alive 10=true ∧
    s.lent 10=true ∧ ¬NothingLeft s := by
  have hr : Reach (step kinds) Free init _ := reach_free (forwarding++queuing 0 11 2 ++
    ([.request false,.leave,.clear,.finish,.dropNext,.join,.unset] : List Presentation.Act)) (by decide +kernel)
  refine ⟨_,hr,⟨?_,.inl ?_,?_,?_,?_⟩,?_,?_,?_,?_,?_,?_,
    fun hleft => absurd (hleft.last ⟨?_,.inl ?_,?_,?_,?_⟩) ?_⟩ <;> decide +kernel

end Waymux.Session.Detach
