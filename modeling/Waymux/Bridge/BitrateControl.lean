import Waymux.Bridge.Admission

/-!
# The bitrate follows the primary viewer

Each connection compares its clamped estimate with the value it sent last itself; in force is the
last one that any connection wrote.
-/

namespace Waymux.Bridge.BitrateControl
open Interleave.Runs Handlers Admission Function
open ViewerList (Caps)

def bitrate? : Sent → Option (Nat × Nat)
  | .setBitrate h bps => some (h,bps)
  | _ => none

def lastRate (s : State) : Option (Nat × Nat) := (s.socket.filterMap bitrate?).getLast?

/-- The last completed tick of a primary viewer left a bitrate within the threshold of its clamped estimate. -/
def Follows (s : State) : Prop :=
  ∀ k∈s.tick,∃ last∈lastRate s,delta k.2 last.2<threshold last.2

def deciding : RatePc → Bool
  | .primary | .sending _ => true
  | _ => false

/-- addViewer and removeViewer begin while no tick is under way, a set flag is loaded by a registered viewer
outside of them, who asks the estimator after a bitrate was the last to send one, and writes succeed. -/
def Steady (s : State) : Act → Prop
  | .handler h _ => (s.handlers h).pc=.commit ∨ (s.handlers h).pc=.leave →
      ∀ g∈s.started,deciding (s.handlers g).rate=false
  | .checkPrimary h => s.list.primary h=true → h∈s.list.viewers ∧ s.list.mu=none
  | .estimate h (some _) => (s.handlers h).lastSent=0 ∨ (lastRate s).map Prod.fst=some h
  | .writeRate _ ok => ok=true
  | _ => True

instance (s : State) : (a : Act) → Decidable (Steady s a)
  | .handler h _ => inferInstanceAs (Decidable ((s.handlers h).pc=.commit ∨ (s.handlers h).pc=.leave →
      ∀ g∈s.started,deciding (s.handlers g).rate=false))
  | .checkPrimary h => inferInstanceAs (Decidable (s.list.primary h=true →
      h∈s.list.viewers ∧ s.list.mu=none))
  | .estimate h (some _) => inferInstanceAs (Decidable ((s.handlers h).lastSent=0 ∨
      (lastRate s).map Prod.fst=some h))
  | .writeRate _ ok => inferInstanceAs (Decidable (ok=true))
  | .request _ _ | .read _ _ | .loadPrimary _ | .translate _ _ | .writeInput _ _ | .keyframe _ | .select _ _
  | .estimate _ none => inferInstanceAs (Decidable True)

theorem target_bounds (r : Rates) (est : Int) : 0<target r est ∧ target r est≤r.maxBitrate := by
  have hmin:=r.min_pos
  have hmax:=r.max_pos
  unfold target
  dsimp only
  generalize Int.tdiv _ 100=q
  by_cases hq : q<r.minBitrate <;> split <;> omega

theorem threshold_pos (r : Int) : 0<threshold r := by
  unfold threshold
  dsimp only
  split <;> omega

theorem delta_self (r : Int) : delta r r=0 := by
  simp [delta]

theorem payload_eq {r : Int} (h0 : 0<r) (h1 : r<2^32) : (payload r : Int)=r := by
  unfold payload
  omega

variable {s t : State} {a : Act} {h : Nat}

/-- Whoever is in a tick is the registered primary, and the viewer list is not in a section. -/
def Led (s : State) : Prop :=
  ∀ g,deciding (s.handlers g).rate=true → s.list.mu=none ∧ g∈s.list.viewers ∧ s.list.primary g=true

theorem Led.moves {x : Handler} (hi : Led s) (hh : t.handlers=update s.handlers h x)
    (hmu : t.list.mu=s.list.mu) (hv : t.list.viewers=s.list.viewers) (hp : t.list.primary=s.list.primary)
    (hx : deciding x.rate=true → deciding (s.handlers h).rate=true) : Led t := by
  intro g hg
  rw [hmu,hv,hp]
  rw [hh] at hg
  by_cases hgh : g=h
  · rw [hgh,update_self] at hg
    exact hgh ▸ hi h (hx hg)
  · rw [update_of_ne hgh] at hg
    exact hi g hg

theorem led_of_none {x : Handler} (hall : ∀ g,deciding (s.handlers g).rate=false)
    (hh : t.handlers=update s.handlers h x) (hx : deciding x.rate=false) : Led t := by
  intro g hg
  have hno:=all_update (P := fun y => deciding y.rate=false) (h := h) hall hx g
  rw [hh,hno] at hg
  cases hg

theorem Led.none_of_section (hi : Led s) (hmu : s.list.mu≠none) (g : Nat) :
    deciding (s.handlers g).rate=false := by
  rw [← Bool.not_eq_true]
  intro hg
  exact hmu (hi g hg).1

theorem step_led (hl : Listed s) (hi : Led s) (hq : Steady s a) (ht : Turn s a t) : Led t := by
  cases ht with
  | stays | keyframes => exact hi
  | requests => exact hi.moves rfl rfl rfl rfl nofun
  | demotes h rest l hpc hmu =>
    intro g hg
    rw [hi.none_of_section (by simp [hmu]) g] at hg
    cases hg
  | joins h hpc hmu => exact led_of_none (hi.none_of_section (by simp [hmu])) rfl rfl
  | handsOver h hpc hmu =>
    have hall:=hi.none_of_section (by simp [hmu])
    exact led_of_none hall rfl (hall h)
  | enters h hpc =>
    have hall:=hl.all (P := fun x => deciding x.rate=false) rfl (hq (.inl hpc))
    exact led_of_none hall rfl (hall h)
  | leaves h hpc =>
    have hall:=hl.all (P := fun x => deciding x.rate=false) rfl (hq (.inr hpc))
    exact led_of_none hall rfl (hall h)
  | rates h r r' hr hf =>
    refine hi.moves rfl rfl rfl rfl fun hd => ?_
    rw [hr]
    cases hf with
    | decides => rfl
    | _ => cases hd
  | loads h hr hp =>
    obtain ⟨hv,hmu⟩ := hq hp
    intro g hg
    by_cases hgh : g=h
    · rw [hgh]
      exact ⟨hmu,hv,hp⟩
    · have hkeep : (rateAt s h .primary).handlers g=s.handlers g := update_of_ne hgh ..
      rw [hkeep] at hg
      exact hi g hg
  | keeps | sends | notSent =>
    exact hi.moves (complete_handlers ..) (by rw [complete_list]; rfl) (by rw [complete_list]; rfl)
      (by rw [complete_list]; rfl) nofun
  | _ => exact hi.moves rfl rfl rfl rfl id

theorem lastRate_append (f : Sent) (hs : t.socket=s.socket++[f]) : lastRate t=(bitrate? f).or (lastRate s) := by
  unfold lastRate
  rw [hs,List.filterMap_append]
  cases hf : bitrate? f <;> simp [hf]

theorem lastRate_same (hs : t.socket=s.socket) : lastRate t=lastRate s := by
  unfold lastRate
  rw [hs]

def Remembered (s : State) : Prop :=
  ∀ last∈lastRate s,last.1∈s.started ∧ (s.handlers last.1).lastSent=last.2

theorem Remembered.moves {x : Handler} (hi : Remembered s) (hh : t.handlers=update s.handlers h x)
    (hst : t.started=s.started) (hs : lastRate t=lastRate s) (hx : x.lastSent=(s.handlers h).lastSent) :
    Remembered t := by
  intro last hlast
  rw [hs] at hlast
  obtain ⟨hm,hl⟩ := hi last hlast
  rw [hst,hh]
  refine ⟨hm,?_⟩
  by_cases hgh : last.1=h
  · rw [hgh,update_self,hx,← hgh]
    exact hl
  · rw [update_of_ne hgh]
    exact hl

def Clamped (s : State) : Prop :=
  ∀ g r,(s.handlers g).rate=.sending r → 0<r ∧ r ≤ s.rates.maxBitrate

theorem Clamped.moves {x : Handler} (hi : Clamped s) (hh : t.handlers=update s.handlers h x)
    (hrates : t.rates=s.rates)
    (hx : ∀ r,x.rate=.sending r → (s.handlers h).rate=.sending r ∨ 0<r ∧ r ≤ s.rates.maxBitrate) :
    Clamped t := by
  intro g r hg
  rw [hrates]
  rw [hh] at hg
  by_cases hgh : g=h
  · rw [hgh,update_self] at hg
    exact (hx r hg).elim (hi h r) id
  · rw [update_of_ne hgh] at hg
    exact hi g r hg

theorem step_clamped (hi : Clamped s) (ht : Turn s a t) : Clamped t := by
  cases ht with
  | stays | demotes | keyframes => exact hi
  | requests | joins | loads => exact hi.moves rfl rfl nofun
  | rates h r r' hr hf =>
    refine hi.moves rfl rfl fun q hq => .inr ?_
    cases hf with
    | decides est =>
      cases hq
      exact target_bounds s.rates est
    | _ => cases hq
  | keeps | sends | notSent => exact hi.moves (complete_handlers ..) (complete_rates ..) nofun
  | _ => exact hi.moves rfl rfl fun _ => .inl

theorem step_remembered (hl : Listed s) (hc : Clamped s) (hmax : s.rates.maxBitrate<2^32) (hi : Remembered s)
    (ht : Turn s a t) : Remembered t := by
  cases ht with
  | stays | demotes => exact hi
  | keyframes h =>
    intro last hlast
    rw [lastRate_append (.forceKeyframe h) rfl] at hlast
    exact hi last hlast
  | requests h ip hnew =>
    intro last hlast
    obtain ⟨hm,hr⟩ := hi last hlast
    have hne : last.1≠h := fun he => hnew (he ▸ hm)
    have hkeep : update s.handlers h (.new ip .auth) last.1=s.handlers last.1 :=
      update_of_ne hne ..
    exact ⟨List.mem_append_left _ hm,(congrArg Handler.lastSent hkeep).trans hr⟩
  | injects h op => exact hi.moves rfl rfl (lastRate_append (.injectOp h op) rfl) rfl
  | sends h r hr =>
    obtain ⟨h0,h1⟩ := hc h r hr
    intro last hlast
    rw [lastRate_append (.setBitrate h (payload r)) (complete_socket ..)] at hlast
    cases hlast
    rw [complete_started,complete_handlers]
    refine ⟨hl.mem_rate hr nofun,?_⟩
    dsimp only [setHandler]
    rw [update_self]
    exact (payload_eq h0 (by omega)).symm
  | keeps | notSent =>
    exact hi.moves (complete_handlers ..) (complete_started ..) (lastRate_same (complete_socket ..)) rfl
  | _ => exact hi.moves rfl rfl rfl rfl

theorem follows_complete {u : State} {r : Int} (hs : lastRate u=lastRate s) (htick : u.tick=s.tick)
    (hi : Follows s) (hnew : ∃ last∈lastRate s,delta r last.2<threshold last.2) : Follows (complete u h r) := by
  have hlast : lastRate (complete u h r)=lastRate s := (lastRate_same (complete_socket ..)).trans hs
  unfold Follows
  rw [hlast]
  unfold complete
  split
  · intro k hk
    cases hk
    exact hnew
  · rw [htick]
    exact hi

theorem step_follows (hled : Led s) (hrem : Remembered s) (hc : Clamped s) (hmax : s.rates.maxBitrate<2^32)
    (hi : Follows s) (hq : Steady s a) (ht : Turn s a t) : Follows t := by
  cases ht with
  | keyframes h =>
    unfold Follows
    rw [lastRate_append (.forceKeyframe h) rfl]
    exact hi
  | injects h op =>
    unfold Follows
    rw [lastRate_append (.injectOp h op) rfl]
    exact hi
  | keeps h est hr hne hlt =>
    -- the last bitrate is its own, the one it compares with
    obtain ⟨last,hlast,hh⟩ := Option.map_eq_some_iff.mp (hq.resolve_left hne)
    obtain ⟨_,hsent⟩ := hrem last hlast
    rw [hh] at hsent
    exact follows_complete rfl rfl hi ⟨last,hlast,hsent ▸ hlt⟩
  | sends h r hr =>
    obtain ⟨h0,h1⟩ := hc h r hr
    obtain ⟨_,hv,hp⟩ := hled h (by rw [hr]; rfl)
    intro k hk
    rw [lastRate_append (.setBitrate h (payload r)) (complete_socket ..)]
    have htick : k=(h,r) := by
      unfold complete at hk
      rw [if_pos ⟨hv,hp⟩] at hk
      cases hk
      rfl
    refine ⟨(h,payload r),rfl,?_⟩
    rw [htick,payload_eq h0 (by omega),delta_self]
    exact threshold_pos r
  | notSent => cases hq
  | _ => exact hi

structure Inv (s : State) : Prop where
  led : Led s
  clamped : Clamped s
  remembered : Remembered s
  follows : Follows s

theorem reach_rates {cfg : Caps} {rates : Rates} {ok : State → Act → Prop}
    (hr : Reach step ok (init cfg rates) s) : s.rates=rates :=
  hr.keeps (I := fun u => u.rates=rates) rfl fun hi _ ht => (turn_rates (step_turn ht)).trans hi

theorem reach_inv {cfg : Caps} {rates : Rates} (hmax : rates.maxBitrate<2^32)
    (hr : Reach step Steady (init cfg rates) s) : Inv s := by
  have hstart : Inv (init cfg rates) := ⟨nofun,nofun,nofun,nofun⟩
  refine hr.invariant hstart fun {u v b} hu hi hq ht => ?_
  have hl:=(Admission.reach_inv hu).listed
  have hm : u.rates.maxBitrate<2^32 := reach_rates hu ▸ hmax
  have ht:=step_turn ht
  exact {
    led := step_led hl hi.led hq ht
    clamped := step_clamped hi.clamped ht
    remembered := step_remembered hl hi.clamped hm hi.remembered ht
    follows := step_follows hi.led hi.remembered hi.clamped hm hi.follows hq ht}

/-- The bitrate in force follows the primary viewer, and every SetBitrate is
written for a registered viewer. -/
theorem bitrate_control {cfg : Caps} {rates : Rates} {s : State} (hmax : rates.maxBitrate<2^32)
    (hr : Reach step Steady (init cfg rates) s) :
    Follows s ∧ ∀ a t h bps,step s a=some t → t.socket=s.socket++[Sent.setBitrate h bps] →
      h∈s.list.viewers := by
  have hi:=reach_inv hmax hr
  refine ⟨hi.follows,fun a t h bps ht hw => ?_⟩
  cases turn_written (step_turn ht) hw with
  | setBitrate _ r hsend => exact (hi.led h (by rw [hsend]; rfl)).2.1

def tickAt (h : Nat) (est : Int) : List Act := [.select h true,.checkPrimary h,.estimate h (some est)]

/- The second viewer takes over and sets its own bitrate. -/
def takesOver : List Act :=
  .request 1 "10.0.0.7" :: handlerRuns 1 17++tickAt 1 5000000++[Act.writeRate 1 true,.request 2 "10.0.0.8"] ++
    handlerRuns 2 18++tickAt 2 1000000++[Act.writeRate 2 true]

theorem bitrate_control_taken_over : ∃ s,Reach step Steady (init ⟨0,0⟩ defaultRates) s ∧
    s.tick=some (2,850000) ∧ lastRate s=some (2,850000) ∧ s.list.viewers=[1,2] ∧ Follows s := by
  have hr : Reach step Steady (init ⟨0,0⟩ defaultRates) _ :=
    reach_exec takesOver (meets_decided (by decide +kernel)) (by decide +kernel)
  refine ⟨_,hr,?_,?_,?_,(bitrate_control (by decide) hr).1⟩ <;> decide +kernel

/- The second viewer leaves, and the estimate of the first is what it was. -/
def handsBack : List Act := takesOver++[Act.read 2 .closed]++handlerRuns 2 2++tickAt 1 5000000

/- The only viewer leaves while its tick is under way. -/
def leavesInTick : List Act :=
  .request 1 "10.0.0.7" :: handlerRuns 1 17++tickAt 1 5000000++[Act.read 1 .closed]++handlerRuns 1 2

theorem bitrate_not_followed :
    (∃ s,Reach step Free (init ⟨0,0⟩ defaultRates) s ∧ s.list.mu=none ∧ s.list.viewers=[1] ∧
      s.tick=some (1,4250000) ∧ lastRate s=some (2,850000) ∧
      ¬delta 4250000 850000<threshold 850000) ∧
    ∃ s t,Reach step Free (init ⟨0,0⟩ defaultRates) s ∧ step s (.writeRate 1 true)=some t ∧
      t.socket=s.socket++[Sent.setBitrate 1 4250000] ∧ s.list.viewers=[] := by
  constructor
  · exact free_observed handsBack (by decide +kernel)
  · obtain ⟨s,t,hs,ht,hp⟩ := exec_last step (init ⟨0,0⟩ defaultRates) leavesInTick (.writeRate 1 true)
      (fun s t => t.socket=s.socket++[Sent.setBitrate 1 4250000] ∧ s.list.viewers=[]) (by decide +kernel)
    obtain ⟨hw,hv⟩ := of_decide_eq_true hp
    exact ⟨s,t,reach_of_exec hs,ht,hw,hv⟩

end Waymux.Bridge.BitrateControl
