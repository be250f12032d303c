import Waymux.Bridge.Handlers
import Waymux.Interleave.Slots

/-!
# Admission of viewers

What a handler holds is read off the place it has reached in `handleWS`.
-/

namespace Waymux.Bridge.Admission
open Interleave.Runs Interleave.Logs Interleave.Slots Handlers List Function
open ViewerList (Caps Room)

def shakes : Pc → Bool
  | .idle | .auth | .acquire | .done => false
  | _ => true

def connected : Pc → Bool
  | .setup _ | .commit | .adding | .serve | .event _ | .forward _ | .write _ | .leave | .leaving
  | .cancel | .stop | .unregister => true
  | _ => false

def viewing : Pc → Bool
  | .serve | .event _ | .forward _ | .write _ | .leave => true
  | _ => false

def running : Pc → Bool
  | .idle | .done => false
  | _ => true

def shakesFrom (ip : String) (x : Handler) : Bool := shakes x.pc && x.ip == ip

def reserves (x : Handler) : Bool := !x.once && x.slot == [.reserved]

def account : Pc → List (Bool × List SlotEvent)
  | .idle | .auth | .acquire | .reserve => [(false,[])]
  | .upgrade | .register | .setup _ | .commit => [(false,[.reserved])]
  | .adding => [(true,[.reserved])]
  | .serve | .event _ | .forward _ | .write _ | .leave | .leaving => [(true,[.reserved,.committed])]
  | .cancel | .stop | .unregister | .release =>
      [(false,[.reserved]),(true,[.reserved,.committed])]
  | .releaseHandshake | .done =>
      [(false,[]),(true,[.reserved,.committed]),(true,[.reserved,.released])]

def Accounted (x : Handler) : Prop := (x.once,x.slot)∈account x.pc

variable {s t : State} {a : Act} {h : Nat} {pc pc' : Pc}

theorem flow_shakes (hf : Flow s h pc pc') : shakes pc'=shakes pc := by
  cases hf with
  | setUp k => cases k <;> rfl
  | _ => rfl

theorem flow_connected (hf : Flow s h pc pc') : connected pc'=connected pc := by
  cases hf with
  | setUp k => cases k <;> rfl
  | _ => rfl

theorem flow_viewing (hf : Flow s h pc pc') : viewing pc'=viewing pc := by
  cases hf with
  | setUp k => cases k <;> rfl
  | _ => rfl

theorem flow_account (hf : Flow s h pc pc') : account pc ⊆ account pc' := by
  cases hf with
  | setUp k => cases k <;> simp [account,afterSetup]
  | _ => simp [account]

theorem turn_list (ht : Turn s a t) : ViewerList.Turn s.list t.list := by
  cases ht with
  | reserves h hpc hmu hroom => exact .reserves hmu hroom
  | enters h hpc hmu hnew hroom => exact .enters h hmu hnew hroom
  | refuses _ _ hmu | releases _ _ _ hmu => exact .frees hmu
  | demotes h rest l hpc hmu hl => exact ViewerList.proceed_turn hl
  | joins h hpc hmu => exact .appends h hmu
  | leaves h hpc hmu hadd => exact .removes h hmu hadd
  | handsOver h hpc hmu => exact .handsOver h hmu
  | keeps | sends | notSent => rw [complete_list]; exact .stays
  | _ => exact .stays

variable {x : Handler} {cfg : Caps} {rates : Rates}

theorem all_update {P : Handler → Prop} {f : Nat → Handler} (hf : ∀ g,P (f g)) (hx : P x) :
    ∀ g,P (update f h x g) :=
  Function.forall_update_iff f (p := fun _ y => P y) |>.mpr ⟨hx,fun g _ => hf g⟩

theorem Accounted.moves {y : Handler} (hx : Accounted x) (hpc : x.pc=pc) (ho : y.once=x.once)
    (hs : y.slot=x.slot) (hsub : account pc ⊆ account y.pc) : Accounted y := by
  unfold Accounted at hx ⊢
  rw [hpc] at hx
  rw [ho,hs]
  exact hsub hx

theorem Accounted.only {b : Bool} {l : List SlotEvent} (hx : Accounted x) (hpc : x.pc=pc)
    (ha : account pc=[(b,l)]) : x.once=b ∧ x.slot=l := by
  unfold Accounted at hx
  rw [hpc,ha,mem_singleton] at hx
  exact Prod.mk.inj hx

theorem Accounted.unreleased (hx : Accounted x) (hpc : x.pc=.release) (ho : x.once=false) :
    x.slot=[.reserved] := by
  unfold Accounted at hx
  rw [hpc,ho] at hx
  simpa [account] using hx

theorem step_accounted (hi : ∀ g,Accounted (s.handlers g))
    (hroom : ∀ g,(s.handlers g).pc=.commit → s.list.viewers.length<s.list.cfg.viewers)
    (ht : Turn s a t) : ∀ g,Accounted (t.handlers g) := by
  cases ht with
  | stays | demotes | keyframes => exact hi
  | requests => exact all_update hi (mem_singleton.mpr rfl)
  | flows h pc pc' hpc hf => exact all_update hi ((hi h).moves hpc rfl rfl (flow_account hf))
  -- nil from addViewer: the reservation has kept the room
  | refuses h hpc => exact absurd (hroom h hpc) (by omega)
  | acquires h hpc | registers h hpc | leaves h hpc | handsOver h hpc | cancels h hpc | unregisters h hpc
  | ends h hpc | injects h op hpc => exact all_update hi ((hi h).moves hpc rfl rfl (by simp [account]))
  | consumed h =>
    have hx:=hi h
    refine all_update hi ?_
    unfold Accounted at hx ⊢
    simp_all [account]
  | reserves h hpc | enters h hpc | joins h hpc =>
    obtain ⟨ho,hs⟩ := (hi h).only hpc rfl
    exact all_update hi (by simp [Accounted,account,ho,hs])
  | releases h hpc ho =>
    have hs:=(hi h).unreleased hpc ho
    exact all_update hi (by simp [Accounted,account,hs])
  | rates h | loads h => exact all_update hi (hi h)
  | keeps h | sends h | notSent h =>
    rw [complete_handlers]
    exact all_update hi (hi h)

structure Listed (s : State) : Prop where
  nodup : s.started.Nodup
  idle : ∀ g,g∉s.started → s.handlers g=.new "" .idle

theorem Listed.mem (hl : Listed s) (hpc : (s.handlers h).pc=pc) (hr : running pc=true) : h∈s.started := by
  by_contra hn
  rw [hl.idle h hn] at hpc
  subst hpc
  cases hr

theorem Listed.mem_rate {r : RatePc} (hl : Listed s) (hr : (s.handlers h).rate=r) (hne : r≠.absent) :
    h∈s.started := by
  by_contra hn
  rw [hl.idle h hn] at hr
  exact hne hr.symm

theorem Listed.all {P : Handler → Prop} (hl : Listed s) (hnew : P (.new "" .idle))
    (hs : ∀ g∈s.started,P (s.handlers g)) (g : Nat) : P (s.handlers g) := by
  by_cases hg : g∈s.started
  · exact hs g hg
  · rw [hl.idle g hg]
    exact hnew

theorem Listed.moves (hi : Listed s) (hm : h∈s.started) (hh : t.handlers=update s.handlers h x)
    (hst : t.started=s.started) : Listed t := by
  refine ⟨hst ▸ hi.nodup,fun g hg => ?_⟩
  rw [hst] at hg
  have hgh : g≠h := fun he => hg (he ▸ hm)
  rw [hh,update_of_ne hgh]
  exact hi.idle g hg

theorem step_listed (hi : Listed s) (ht : Turn s a t) : Listed t := by
  cases ht with
  | requests h ip hnew =>
    refine ⟨nodup_append_one hi.nodup hnew,fun g hg => ?_⟩
    have hgh : g≠h := fun he => hg (mem_append_right _ (mem_singleton.mpr he))
    have hgs : g∉s.started := fun hm => hg (mem_append_left _ hm)
    exact (update_of_ne hgh ..).trans (hi.idle g hgs)
  | flows h pc pc' hpc hf => exact hi.moves (hi.mem hpc (by cases hf <;> rfl)) rfl rfl
  | acquires h hpc | reserves h hpc | registers h hpc | enters h hpc | refuses h hpc | joins h hpc
  | leaves h hpc | handsOver h hpc | cancels h hpc | unregisters h hpc | releases h hpc | consumed h hpc
  | ends h hpc | injects h op hpc => exact hi.moves (hi.mem hpc rfl) rfl rfl
  | rates h r r' hr hf => exact hi.moves (hi.mem_rate hr (by cases hf <;> exact nofun)) rfl rfl
  | loads h hr => exact hi.moves (hi.mem_rate hr nofun) rfl rfl
  | keeps h est hr | sends h r hr | notSent h r hr =>
    exact hi.moves (hi.mem_rate hr nofun) (complete_handlers ..) (complete_started ..)
  | _ => exact ⟨hi.nodup,hi.idle⟩

structure Counted (s : State) : Prop where
  reserved : s.list.reservedViewers=holders reserves s.started s.handlers
  handshakes : ∀ ip,s.handshakes ip=holders (shakesFrom ip) s.started s.handlers

section
variable (hi : Counted s) (hh : t.handlers=update s.handlers h x) (hst : t.started=s.started)
include hi hh hst

theorem Counted.kept (hl : t.list.reservedViewers=s.list.reservedViewers)
    (hr : reserves x=reserves (s.handlers h)) :
    t.list.reservedViewers=holders reserves t.started t.handlers := by
  rw [hl,hh,hst,holders_update_same hr]
  exact hi.reserved

section
variable (hs : t.handshakes=s.handshakes) (hip : x.ip=(s.handlers h).ip) (hpc : shakes x.pc=shakes (s.handlers h).pc)
include hs hip hpc

theorem Counted.unshaken (ip : String) : t.handshakes ip=holders (shakesFrom ip) t.started t.handlers := by
  have hx : shakesFrom ip x=shakesFrom ip (s.handlers h) := by simp only [shakesFrom,hip,hpc]
  rw [hs,hh,hst,holders_update_same hx]
  exact hi.handshakes ip

theorem Counted.same (hl : t.list.reservedViewers=s.list.reservedViewers)
    (hr : reserves x=reserves (s.handlers h)) : Counted t :=
  ⟨hi.kept hh hst hl hr,hi.unshaken hh hst hs hip hpc⟩

variable (hn : s.started.Nodup) (hm : h∈s.started)
include hn hm

theorem Counted.slot
    (hl : t.list.reservedViewers+(reserves (s.handlers h)).toNat=s.list.reservedViewers+(reserves x).toNat) :
    Counted t := by
  refine ⟨?_,hi.unshaken hh hst hs hip hpc⟩
  have hup:=holders_update (p := reserves) (f := s.handlers) (b := x) hn hm
  have hr:=hi.reserved
  rw [hh,hst]
  omega

theorem Counted.givesBack (hold : reserves (s.handlers h)=true) (hnew : reserves x=false)
    (hl : t.list.reservedViewers=s.list.reservedViewers-1) : Counted t := by
  have hone : 0<s.list.reservedViewers := hi.reserved ▸ holders_pos hm hold
  refine hi.slot hh hst hs hip hpc hn hm ?_
  rw [hold,hnew,hl]
  exact Nat.sub_add_cancel hone

end

theorem Counted.shake (hn : s.started.Nodup) (hm : h∈s.started)
    (hl : t.list.reservedViewers=s.list.reservedViewers) (hr : reserves x=reserves (s.handlers h))
    (hip : x.ip=(s.handlers h).ip) (hs : ∀ ip,ip≠x.ip → t.handshakes ip=s.handshakes ip)
    (hpc : t.handshakes x.ip+(shakes (s.handlers h).pc).toNat=s.handshakes x.ip+(shakes x.pc).toNat) :
    Counted t := by
  refine ⟨hi.kept hh hst hl hr,fun ip => ?_⟩
  have hup:=holders_update (p := shakesFrom ip) (f := s.handlers) (b := x) hn hm
  have hc:=hi.handshakes ip
  rw [hh,hst]
  by_cases hx : ip=x.ip
  · subst hx
    have hnew : shakesFrom x.ip x=shakes x.pc := by simp [shakesFrom]
    have hold : shakesFrom x.ip (s.handlers h)=shakes (s.handlers h).pc := by simp [shakesFrom,hip]
    rw [hnew,hold] at hup
    omega
  · have hnew : shakesFrom ip x=false := by simp [shakesFrom,Ne.symm hx]
    have hold : shakesFrom ip (s.handlers h)=false := by simp [shakesFrom,← hip,Ne.symm hx]
    rw [hnew,hold] at hup
    rw [hs ip hx]
    exact hc.trans hup.symm

end

theorem step_counted (hacc : ∀ g,Accounted (s.handlers g)) (hl : Listed s) (hi : Counted s)
    (ht : Turn s a t) : Counted t := by
  cases ht with
  | stays | keyframes => exact ⟨hi.reserved,hi.handshakes⟩
  | demotes h rest l hpc hmu hproc =>
    exact ⟨(ViewerList.proceed_demote hmu hproc).2.2.trans hi.reserved,hi.handshakes⟩
  | requests h ip hnew =>
    exact ⟨hi.reserved.trans (holders_start hnew rfl).symm,
      fun ip => (hi.handshakes ip).trans (holders_start hnew rfl).symm⟩
  | flows h pc pc' hpc hf => exact hi.same rfl rfl rfl rfl (by rw [hpc]; exact flow_shakes hf) rfl rfl
  | registers h hpc | leaves h hpc | handsOver h hpc | cancels h hpc | unregisters h hpc | consumed h hpc
  | injects h op hpc => exact hi.same rfl rfl rfl rfl (by rw [hpc]; rfl) rfl rfl
  | rates | loads => exact hi.same rfl rfl rfl rfl rfl rfl rfl
  | acquires h hpc =>
    refine hi.shake rfl rfl hl.nodup (hl.mem hpc rfl) rfl rfl rfl (fun ip hne => ?_) ?_
    · exact update_of_ne hne ..
    · rw [hpc]
      exact congrArg (·+0) (update_self ..)
  | ends h hpc =>
    -- the slot is its own, so the subtraction does not stop at zero
    have hm:=hl.mem hpc rfl
    have hone : 0<s.handshakes (s.handlers h).ip := by
      rw [hi.handshakes]
      exact holders_pos hm (by simp [shakesFrom,hpc,shakes])
    refine hi.shake rfl rfl hl.nodup hm rfl rfl rfl (fun ip hne => ?_) ?_
    · exact update_of_ne hne ..
    · have hdown : (releaseHandshake s h).handshakes (s.handlers h).ip =
          s.handshakes (s.handlers h).ip-1 := update_self ..
      rw [hpc]
      change (releaseHandshake s h).handshakes (s.handlers h).ip+1=s.handshakes (s.handlers h).ip+0
      omega
  | reserves h hpc =>
    have hx:=(hacc h).only hpc rfl
    exact hi.slot rfl rfl rfl rfl (by rw [hpc]; rfl) hl.nodup (hl.mem hpc rfl) (by simp [Admission.reserves,hx])
  | enters h hpc | refuses h hpc =>
    have hx:=(hacc h).only hpc rfl
    exact hi.givesBack rfl rfl rfl rfl (by rw [hpc]; rfl) hl.nodup (hl.mem hpc rfl)
      (by simp [Admission.reserves,hx]) rfl rfl
  | joins h hpc =>
    have hx:=(hacc h).only hpc rfl
    exact hi.same rfl rfl rfl rfl (by rw [hpc]; rfl) rfl (by simp [Admission.reserves,hx])
  | releases h hpc ho =>
    have hx:=(hacc h).unreleased hpc ho
    exact hi.givesBack rfl rfl rfl rfl (by rw [hpc]; rfl) hl.nodup (hl.mem hpc rfl)
      (by simp [Admission.reserves,ho,hx]) rfl rfl
  | _ =>
    exact hi.same (complete_handlers ..) (complete_started ..) (complete_handshakes ..) rfl rfl
      (by rw [complete_list]; rfl) rfl

structure Entered (s : State) : Prop where
  nodup : s.wsConns.Nodup
  conns : Enrolled (fun x => connected x.pc) s.wsConns s.handlers
  viewers : Enrolled (fun x => viewing x.pc) s.list.viewers s.handlers
  added : Enrolled (fun x => x.slot.contains .committed) s.list.added s.handlers

theorem Entered.same (hi : Entered s) (hh : t.handlers=update s.handlers h x) (hw : t.wsConns=s.wsConns)
    (hv : t.list.viewers=s.list.viewers) (ha : t.list.added=s.list.added)
    (hconn : connected x.pc=connected (s.handlers h).pc) (hview : viewing x.pc=viewing (s.handlers h).pc)
    (hslot : x.slot.contains .committed=(s.handlers h).slot.contains .committed) : Entered t := by
  refine ⟨hw ▸ hi.nodup,?_,?_,?_⟩
  · rw [hw,hh]
    exact hi.conns.same hconn
  · rw [hv,hh]
    exact hi.viewers.same hview
  · rw [ha,hh]
    exact hi.added.same hslot

theorem step_entered (hl : Listed s) (hn : s.list.viewers.Nodup) (hi : Entered s) (ht : Turn s a t) : Entered t := by
  cases ht with
  | stays | keyframes => exact ⟨hi.nodup,hi.conns,hi.viewers,hi.added⟩
  | demotes h rest l hpc hmu hproc =>
    obtain ⟨hv,ha,_⟩ := ViewerList.proceed_demote hmu hproc
    exact ⟨hi.nodup,hi.conns,by rw [hv]; exact hi.viewers,by rw [ha]; exact hi.added⟩
  | requests h ip hnew =>
    have hx:=hl.idle h hnew
    exact hi.same rfl rfl rfl rfl (by rw [hx]; rfl) (by rw [hx]; rfl) (by rw [hx]; rfl)
  | flows h pc pc' hpc hf =>
    exact hi.same rfl rfl rfl rfl (by rw [hpc]; exact flow_connected hf) (by rw [hpc]; exact flow_viewing hf) rfl
  | acquires h hpc | enters h hpc | refuses h hpc | handsOver h hpc | cancels h hpc | consumed h hpc
  | ends h hpc | injects h op hpc =>
    exact hi.same rfl rfl rfl rfl (by rw [hpc]; rfl) (by rw [hpc]; rfl) rfl
  | reserves h hpc | releases h hpc =>
    exact hi.same rfl rfl rfl rfl (by rw [hpc]; rfl) (by rw [hpc]; rfl) (by simp)
  | rates | loads => exact hi.same rfl rfl rfl rfl rfl rfl rfl
  | registers h hpc =>
    have hnew : h∉s.wsConns := fun hm => by simpa [hpc,connected] using (hi.conns h).mp hm
    exact ⟨nodup_append_one hi.nodup hnew,hi.conns.add rfl,hi.viewers.same (by rw [hpc]; rfl),
      hi.added.same rfl⟩
  | unregisters h hpc =>
    exact ⟨hi.nodup.erase h,hi.conns.erase hi.nodup rfl,hi.viewers.same (by rw [hpc]; rfl),hi.added.same rfl⟩
  | joins h hpc =>
    exact ⟨hi.nodup,hi.conns.same (by rw [hpc]; rfl),hi.viewers.add rfl,hi.added.add (by simp)⟩
  | leaves h hpc =>
    exact ⟨hi.nodup,hi.conns.same (by rw [hpc]; rfl),hi.viewers.erase hn rfl,hi.added.same rfl⟩
  | _ =>
    exact hi.same (complete_handlers ..) (complete_wsConns ..) (by rw [complete_list]; rfl)
      (by rw [complete_list]; rfl) rfl rfl rfl

structure Inv (s : State) : Prop where
  list : ViewerList.Inv s.list
  room : Room s.list
  listed : Listed s
  accounted : ∀ g,Accounted (s.handlers g)
  counted : Counted s
  entered : Entered s

theorem init_inv (cfg : Caps) (rates : Rates) : Inv (init cfg rates) where
  list := ViewerList.init_inv cfg
  room := ViewerList.init_room cfg
  listed := ⟨nodup_nil,fun _ _ => rfl⟩
  accounted _ := mem_singleton.mpr rfl
  counted := ⟨rfl,fun _ => rfl⟩
  entered := ⟨nodup_nil,fun _ => by simp [init,Handler.new,connected],
    fun _ => by simp [init,Handler.new,viewing,ViewerList.init],
    fun _ => by simp [init,Handler.new,ViewerList.init]⟩

theorem Inv.commits (hi : Inv s) (hpc : (s.handlers h).pc=.commit) :
    s.list.viewers.length<s.list.cfg.viewers := by
  have hx:=(hi.accounted h).only hpc rfl
  have hone : 0<s.list.reservedViewers :=
    hi.counted.reserved ▸ holders_pos (hi.listed.mem hpc rfl) (by simp [reserves,hx])
  have hroom:=hi.room
  unfold Room at hroom
  omega

theorem Inv.viewer (hi : Inv s) (hpc : (s.handlers h).pc=pc) (hv : viewing pc=true) : h∈s.list.viewers :=
  (hi.entered.viewers h).mpr (by subst hpc; exact hv)

theorem step_inv (hi : Inv s) (ht : Turn s a t) : Inv t where
  list := ViewerList.step_inv hi.list (turn_list ht)
  room := ViewerList.step_room hi.room (turn_list ht)
  listed := step_listed hi.listed ht
  accounted := step_accounted hi.accounted (fun _ => hi.commits) ht
  counted := step_counted hi.accounted hi.listed hi.counted ht
  entered := step_entered hi.listed (hi.list.ordered.nodup hi.list.nodup) hi.entered ht

theorem reach_inv {ok : State → Act → Prop} (h : Reach step ok (init cfg rates) s) : Inv s :=
  h.keeps (init_inv cfg rates) fun hi _ ht => step_inv hi (step_turn ht)

theorem reach_cfg {ok : State → Act → Prop} (h : Reach step ok (init cfg rates) s) : s.list.cfg=cfg :=
  h.keeps (I := fun u => u.list.cfg=cfg) rfl fun hi _ ht =>
    (ViewerList.step_cfg (turn_list (step_turn ht))).trans hi

def Limited (s : State) : Prop := ∀ ip,s.handshakes ip ≤ s.list.cfg.handshakes

theorem step_limited (hi : Limited s) (ht : Turn s a t) : Limited t := by
  have hcfg:=ViewerList.step_cfg (turn_list ht)
  intro ip
  rw [hcfg]
  have hip:=hi ip
  cases ht with
  | acquires h hpc hlt =>
    dsimp only
    by_cases he : ip=(s.handlers h).ip
    · rw [he,update_self]
      exact hlt
    · rw [update_of_ne he]
      exact hip
  | ends h =>
    simp only [releaseHandshake]
    by_cases he : ip=(s.handlers h).ip
    · rw [he,update_self]
      exact Nat.le_trans (Nat.sub_le ..) (hi _)
    · rw [update_of_ne he]
      exact hip
  | keeps | sends | notSent =>
    rw [complete_handshakes]
    exact hip
  | _ => exact hip

theorem reach_limited (h : Reach step Free (init cfg rates) s) : Limited s :=
  h.keeps (I := Limited) (fun _ => Nat.zero_le _) fun hi _ ht => step_limited hi (step_turn ht)

structure Admitted (cfg : Caps) (s : State) : Prop where
  viewers : s.list.viewers.length+s.list.reservedViewers≤cfg.viewers
  handshakes : ∀ ip,s.handshakes ip≤cfg.handshakes
  /-- the counters are those of the handlers in flight -/
  counted : Counted s
  slots : ∀ g,(s.handlers g).slot ∈
    [[],[SlotEvent.reserved],[SlotEvent.reserved,.committed],[SlotEvent.reserved,.released]]
  registered : ∀ g,.committed∈(s.handlers g).slot ↔ g∈s.list.added
  settled : ∀ g,running (s.handlers g).pc=false → (s.handlers g).slot≠[.reserved]
  empty : (∀ g,running (s.handlers g).pc=false) →
    s.list.viewers=[] ∧ s.list.reservedViewers=0 ∧ s.wsConns=[] ∧ ∀ ip,s.handshakes ip=0

theorem ended_pc (hd : running pc=false) : pc=.idle ∨ pc=.done := by
  cases pc with
  | idle => exact .inl rfl
  | done => exact .inr rfl
  | _ => cases hd

theorem reserved_settled (ha : Accounted x) (hd : running x.pc=false) : x.slot≠[.reserved] := by
  intro hs
  unfold Accounted at ha
  rcases ended_pc hd with hpc | hpc <;> simp [hpc,hs,account] at ha

theorem Inv.empty (hi : Inv s) (hd : ∀ g,running (s.handlers g).pc=false) :
    s.list.viewers=[] ∧ s.list.reservedViewers=0 ∧ s.wsConns=[] ∧ ∀ ip,s.handshakes ip=0 := by
  have hends (g : Nat) := ended_pc (hd g)
  refine ⟨hi.entered.viewers.eq_nil fun g => ?_,?_,hi.entered.conns.eq_nil fun g => ?_,fun ip => ?_⟩
  · rcases hends g with hg | hg <;> simp [hg,viewing]
  · rw [hi.counted.reserved]
    refine holders_eq_zero fun g => ?_
    simp [reserves,reserved_settled (hi.accounted g) (hd g)]
  · rcases hends g with hg | hg <;> simp [hg,connected]
  · rw [hi.counted.handshakes]
    refine holders_eq_zero fun g => ?_
    rcases hends g with hg | hg <;> simp [shakesFrom,hg,shakes]

theorem account_slot (ha : Accounted x) :
    x.slot∈[[],[SlotEvent.reserved],[SlotEvent.reserved,.committed],[SlotEvent.reserved,.released]] := by
  have hall (pc : Pc) : ∀ y∈account pc,
      y.2∈[[],[SlotEvent.reserved],[SlotEvent.reserved,.committed],[SlotEvent.reserved,.released]] := by
    unfold account
    split <;> decide
  exact hall x.pc _ ha

theorem viewer_admission {cfg : Caps} {rates : Rates} {s : State} (h : Reach step Free (init cfg rates) s) :
    Admitted cfg s := by
  have hi:=reach_inv h
  have hcfg:=reach_cfg h
  have hroom:=hi.room
  unfold Room at hroom
  exact {
    viewers := by
      rw [← hcfg]
      omega
    handshakes := hcfg ▸ reach_limited h
    counted := hi.counted
    slots := fun g => account_slot (hi.accounted g)
    registered := fun g => by
      rw [hi.entered.added g]
      exact contains_iff_mem.symm
    settled := fun g => reserved_settled (hi.accounted g)
    empty := hi.empty}

def handlerRuns (h n : Nat) : List Act := List.replicate n (.handler h true)

/- One viewer is allowed. The second request finds the list full, the upgrade of the third fails. -/
def threeRequests : List Act :=
  .request 1 "10.0.0.7" :: handlerRuns 1 17++[Act.request 2 "10.0.0.8"]++handlerRuns 2 4++[Act.read 1 .closed] ++
    handlerRuns 1 7++[Act.request 3 "10.0.0.7"]++handlerRuns 3 3++[Act.handler 3 false]++handlerRuns 3 2

theorem viewer_admission_three_requests : ∃ s,Reach step Free (init ⟨1,0⟩ defaultRates) s ∧ s.list.added=[1] ∧
    s.list.viewers=[] ∧ (s.handlers 1).pc=.done ∧ (s.handlers 2).pc=.done ∧ (s.handlers 2).slot=[] ∧
    (s.handlers 3).pc=.done ∧ (s.handlers 3).slot=[.reserved,.released] ∧ Admitted ⟨1,0⟩ s := by
  have hr : Reach step Free (init ⟨1,0⟩ defaultRates) _ := reach_free threeRequests (by decide +kernel)
  refine ⟨_,hr,?_,?_,?_,?_,?_,?_,?_,viewer_admission hr⟩ <;> decide +kernel

end Waymux.Bridge.Admission
