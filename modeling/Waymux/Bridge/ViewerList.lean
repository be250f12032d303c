import Waymux.Interleave.Logs
import Waymux.Interleave.Runs

/-!
# The viewer list of the bridge (`server.go`)

The `primary` flags are read without `Server.mu`, so the two sections that store to them are taken
apart into their stores; every other section is one step.
-/

namespace Waymux.Bridge.ViewerList
open Interleave.Runs Interleave.Logs List Function Option

def defaultMaxViewers : Nat := 8
def defaultMaxHandshakesPerIP : Nat := 4

structure Caps where
  maxViewers : Int
  maxHandshakesPerIP : Int
  deriving DecidableEq, Repr

def Caps.viewers (cfg : Caps) : Nat := if 0<cfg.maxViewers then cfg.maxViewers.toNat else defaultMaxViewers

def Caps.handshakes (cfg : Caps) : Nat :=
  if 0<cfg.maxHandshakesPerIP then cfg.maxHandshakesPerIP.toNat else defaultMaxHandshakesPerIP

/- A `*viewer`. addViewer makes a new one each time. -/
abbrev Viewer := Nat

/- Where the holder of `mu` stands. In `demote` the loop has `rest` before it;
in `handOver` the viewer has left the slice. -/
inductive Section
  | demote (v : Viewer) (rest : List Viewer)
  | append (v : Viewer)
  | handOver (v : Viewer)
  deriving DecidableEq, Repr

/- `added` lists the registrations in their order; the code does not keep it. -/
structure Server where
  cfg : Caps
  mu : Option Section
  viewers : List Viewer
  primary : Viewer → Bool
  reservedViewers : Nat
  added : List Viewer

def init (cfg : Caps) : Server := ⟨cfg,none,[],fun _ => false,0,[]⟩

def tryReserveViewerSlot (s : Server) : Bool × Server :=
  if s.cfg.viewers ≤ s.viewers.length+s.reservedViewers then (false,s)
  else (true,{s with reservedViewers := s.reservedViewers+1})

/- Body of `viewerReservation.release`, without its once. The counter stops at zero. -/
def release (s : Server) : Server := {s with reservedViewers := s.reservedViewers-1}

/- The reservation is consumed, then the section ends with nil over the cap or the loop follows. -/
def addViewer (s : Server) (v : Viewer) : Server :=
  let s:={s with reservedViewers := s.reservedViewers-1}
  if s.cfg.viewers ≤ s.viewers.length then s
  else {s with mu := some (.demote v s.viewers), primary := update s.primary v false}

def removeViewer (s : Server) (v : Viewer) : Server :=
  {s with viewers := s.viewers.erase v, mu := some (.handOver v)}

def promoteNewest (s : Server) (v : Viewer) : Viewer → Bool :=
  match s.viewers.getLast? with
  | some w => if s.primary v then update s.primary w true else s.primary
  | none => s.primary

def proceed (s : Server) : Option Server :=
  match s.mu with
  | none => none
  | some (.demote v (x::rest)) =>
      some {s with primary := update s.primary x false, mu := some (.demote v rest)}
  | some (.demote v []) =>
      some {s with primary := update s.primary v true, mu := some (.append v)}
  | some (.append v) => some {s with viewers := s.viewers++[v], added := s.added++[v], mu := none}
  | some (.handOver v) => some {s with primary := promoteNewest s v, mu := none}

inductive Act
  | tryReserve
  | release
  | addViewer (v : Viewer)
  | removeViewer (v : Viewer)
  | proceed
  | load (v : Viewer)
  deriving DecidableEq, Repr

def step (s : Server) : Act → Option Server
  | .tryReserve => if s.mu=none then some (tryReserveViewerSlot s).2 else none
  | .release => if s.mu=none then some (release s) else none
  | .addViewer v => if s.mu=none ∧ v∉s.added then some (addViewer s v) else none
  | .removeViewer v => if s.mu=none ∧ v∈s.added then some (removeViewer s v) else none
  | .proceed => proceed s
  | .load _ => some s

structure Occupancy where
  occupied : Bool
  viewers : Nat
  primary : Bool
  deriving DecidableEq, Repr

/- The locked section of the handler looks at `viewers[0]`. -/
def status (s : Server) : Occupancy where
  occupied := 0<s.viewers.length
  viewers := s.viewers.length
  primary := match s.viewers with
    | v::_ => s.primary v
    | [] => false

def Occupancy.body (o : Occupancy) : String :=
  let occupied:=o.occupied
  let viewers:=o.viewers
  let primary:=o.primary
  s!"\x7b\"occupied\":{occupied},\"viewers\":{viewers},\"primary\":{primary}\x7d"

variable {s t : Server} {a : Act} {v w : Viewer}

inductive Turn (s : Server) : Server → Prop
  | stays : Turn s s
  | reserves : s.mu=none → s.viewers.length+s.reservedViewers<s.cfg.viewers →
      Turn s {s with reservedViewers := s.reservedViewers+1}
  | frees : s.mu=none → Turn s {s with reservedViewers := s.reservedViewers-1}
  | enters (v : Viewer) : s.mu=none → v∉s.added → s.viewers.length<s.cfg.viewers →
      Turn s {s with
        reservedViewers := s.reservedViewers-1
        mu := some (.demote v s.viewers)
        primary := update s.primary v false}
  | demotes (v x : Viewer) (rest : List Viewer) : s.mu=some (.demote v (x::rest)) →
      Turn s {s with primary := update s.primary x false, mu := some (.demote v rest)}
  | promotes (v : Viewer) : s.mu=some (.demote v []) →
      Turn s {s with primary := update s.primary v true, mu := some (.append v)}
  | appends (v : Viewer) : s.mu=some (.append v) →
      Turn s {s with viewers := s.viewers++[v], added := s.added++[v], mu := none}
  | removes (v : Viewer) : s.mu=none → v∈s.added →
      Turn s {s with viewers := s.viewers.erase v, mu := some (.handOver v)}
  | handsOver (v : Viewer) : s.mu=some (.handOver v) →
      Turn s {s with primary := promoteNewest s v, mu := none}

theorem proceed_turn (h : proceed s=some t) : Turn s t := by
  unfold proceed at h
  split at h
  case h_1 => cases h
  case h_2 v x rest hmu => cases h; exact .demotes v x rest hmu
  case h_3 v hmu => cases h; exact .promotes v hmu
  case h_4 v hmu => cases h; exact .appends v hmu
  case h_5 v hmu => cases h; exact .handsOver v hmu

theorem proceed_demote {rest : List Viewer} (hmu : s.mu=some (.demote v rest)) (h : proceed s=some t) :
    t.viewers=s.viewers ∧ t.added=s.added ∧ t.reservedViewers=s.reservedViewers := by
  cases rest with
  | nil | cons =>
    simp only [proceed,hmu] at h
    cases h
    exact ⟨rfl,rfl,rfl⟩

theorem addViewer_turn (hmu : s.mu=none) (hv : v∉s.added) : Turn s (addViewer s v) := by
  unfold addViewer
  dsimp only
  split
  · exact .frees hmu
  · exact .enters v hmu hv (by omega)

theorem step_turn (h : step s a=some t) : Turn s t := by
  cases a with
  | tryReserve =>
    obtain ⟨hmu,⟨⟩⟩ := ite_none_right_eq_some.mp h
    unfold tryReserveViewerSlot
    split
    · exact .stays
    · exact .reserves hmu (by omega)
  | release =>
    obtain ⟨hmu,⟨⟩⟩ := ite_none_right_eq_some.mp h
    exact .frees hmu
  | addViewer =>
    obtain ⟨⟨hmu,hv⟩,⟨⟩⟩ := ite_none_right_eq_some.mp h
    exact addViewer_turn hmu hv
  | removeViewer v =>
    obtain ⟨⟨hmu,hv⟩,⟨⟩⟩ := ite_none_right_eq_some.mp h
    exact .removes v hmu hv
  | proceed => exact proceed_turn h
  | load =>
    cases h
    exact .stays

def Led (s : Server) : Prop := ∀ x∈s.viewers,s.primary x=true ↔ s.viewers.getLast?=some x

def Demoted (s : Server) : Prop := ∀ x∈s.viewers,s.primary x=false

/- In the middle of removeViewer the viewer that left may be the one with the flag. -/
def Flags (s : Server) : Prop :=
  match s.mu with
  | none => Led s
  | some (.demote v rest) => v∉s.added ∧
      ∀ x∈s.viewers,s.primary x=true → x∈rest ∧ s.viewers.getLast?=some x
  | some (.append v) => v∉s.added ∧ s.primary v=true ∧ Demoted s
  | some (.handOver v) => Led s ∨ s.primary v=true ∧ Demoted s

structure Inv (s : Server) : Prop where
  ordered : s.viewers.Sublist s.added
  nodup : s.added.Nodup
  flags : Flags s

theorem init_inv (cfg : Caps) : Inv (init cfg) where
  ordered := List.Sublist.refl _
  nodup := nodup_nil
  flags := by
    intro x hx
    cases hx

theorem Flags.led (h : Flags s) (hmu : s.mu=none) : Led s := by
  simpa only [Flags,hmu] using h

theorem erase_last {l : List Viewer} (hn : l.Nodup) : l.getLast?=some v ∨ (l.erase v).getLast?=l.getLast? := by
  rcases eq_nil_or_concat l with rfl | ⟨l',w,rfl⟩
  · exact .inr rfl
  · by_cases hvw : w=v
    · exact .inl (by simp [hvw])
    · refine .inr ?_
      by_cases hv : v∈l'
      · rw [concat_eq_append,erase_append_left _ hv]
        simp
      · have hv' : v∉l'.concat w := by simp [hv,Ne.symm hvw]
        rw [erase_of_not_mem hv']

theorem Led.erase (h : Led s) (hn : s.viewers.Nodup) :
    (∀ x∈s.viewers.erase v,s.primary x=true ↔ (s.viewers.erase v).getLast?=some x) ∨
    s.primary v=true ∧ ∀ x∈s.viewers.erase v,s.primary x=false := by
  rcases erase_last (v := v) hn with hlast | hsame
  · -- the newest leaves, and nobody else has the flag
    refine .inr ⟨(h v (mem_of_getLast? hlast)).mpr hlast,fun x hx => ?_⟩
    obtain ⟨hne,hx⟩ := (List.Nodup.mem_erase_iff hn).mp hx
    rw [← Bool.not_eq_true,h x hx,hlast]
    intro he
    exact hne (Option.some.inj he).symm
  · refine .inl fun x hx => ?_
    rw [hsame]
    exact h x (mem_of_mem_erase hx)

theorem led_append (hd : Demoted s) (hp : s.primary v=true) (hv : v∉s.viewers) :
    ∀ x∈s.viewers++[v],s.primary x=true ↔ (s.viewers++[v]).getLast?=some x := by
  intro x hx
  rcases mem_append.mp hx with hx | hx
  · have hne : v≠x := fun he => hv (he ▸ hx)
    simp [hd x hx,hne]
  · rw [mem_singleton.mp hx]
    simp [hp]

theorem led_promoteNewest (h : Led s ∨ s.primary v=true ∧ Demoted s) :
    ∀ x∈s.viewers,promoteNewest s v x=true ↔ s.viewers.getLast?=some x := by
  intro x hx
  unfold promoteNewest
  cases hw : s.viewers.getLast? with
  | none => simp [List.getLast?_eq_none_iff.mp hw] at hx
  | some w =>
    dsimp only
    rcases h with hl | ⟨hp,hd⟩
    · have hlx:=hl x hx
      rw [hw] at hlx
      split
      · by_cases hxw : x=w
        · simp [hxw]
        · rw [update_of_ne hxw]
          exact hlx
      · exact hlx
    · rw [if_pos hp]
      by_cases hxw : x=w
      · simp [hxw]
      · rw [update_of_ne hxw,hd x hx]
        simp [Ne.symm hxw]

theorem step_inv (hi : Inv s) (h : Turn s t) : Inv t := by
  obtain ⟨hord,hnd,hf⟩ := hi
  have hin (x : Viewer) (hx : x∈s.viewers) : x∈s.added := hord.subset hx
  cases h with
  | enters v hmu hv =>
    refine ⟨hord,hnd,hv,fun x hx hp => ?_⟩
    have hne : x≠v := fun he => hv (he ▸ hin x hx)
    dsimp only at hp
    rw [update_of_ne hne] at hp
    exact ⟨hx,(hf.led hmu x hx).mp hp⟩
  | demotes v x rest hmu =>
    simp only [Flags,hmu] at hf
    refine ⟨hord,hnd,hf.1,fun y hy hp => ?_⟩
    have hne : y≠x := fun he => by simp [he] at hp
    dsimp only at hp
    rw [update_of_ne hne] at hp
    obtain ⟨hr,hl⟩ := hf.2 y hy hp
    exact ⟨(mem_cons.mp hr).resolve_left hne,hl⟩
  | promotes v hmu =>
    simp only [Flags,hmu] at hf
    refine ⟨hord,hnd,hf.1,update_self ..,fun x hx => ?_⟩
    have hne : x≠v := fun he => hf.1 (he ▸ hin x hx)
    dsimp only
    rw [update_of_ne hne,← Bool.not_eq_true]
    intro hp
    -- the loop has been through all of them
    cases (hf.2 x hx hp).1
  | appends v hmu =>
    simp only [Flags,hmu] at hf
    obtain ⟨hv,hp,hd⟩ := hf
    refine ⟨hord.append (List.Sublist.refl _),?_,led_append hd hp fun hm => hv (hin v hm)⟩
    exact nodup_append_one hnd hv
  | removes v hmu =>
    exact ⟨(erase_sublist).trans hord,hnd,(hf.led hmu).erase (hord.nodup hnd)⟩
  | handsOver v hmu =>
    simp only [Flags,hmu] at hf
    exact ⟨hord,hnd,led_promoteNewest hf⟩
  | _ => exact ⟨hord,hnd,hf⟩

theorem reach_inv {cfg : Caps} (h : Reach step Free (init cfg) s) : Inv s :=
  h.keeps (init_inv cfg) fun hi _ ht => step_inv hi (step_turn ht)

theorem Inv.newest (hi : Inv s) {x : Viewer} (hx : x∈s.viewers) (hp : s.primary x=true) :
    s.viewers.getLast?=some x := by
  have hf:=hi.flags
  unfold Flags at hf
  split at hf
  case h_1 => exact (hf x hx).mp hp
  case h_2 => exact (hf.2 x hx hp).2
  case h_3 => simp [hf.2.2 x hx] at hp
  case h_4 =>
    rcases hf with hl | ⟨_,hd⟩
    · exact (hl x hx).mp hp
    · simp [hd x hx] at hp

def Before (s : Server) (w v : Viewer) : Prop := [w,v].Sublist s.added

theorem before_newest (hi : Inv s) (hv : s.viewers.getLast?=some v) (hw : w∈s.viewers)
    (hne : w≠v) : Before s w v := by
  obtain ⟨l,hl⟩ := List.getLast?_eq_some_iff.mp hv
  have hwl : w∈l := by
    have := hl ▸ hw
    simpa [hne] using this
  have hpair : [w,v].Sublist s.viewers := by
    rw [hl]
    exact (singleton_sublist.mpr hwl).append (List.Sublist.refl [v])
  exact hpair.trans hi.ordered

theorem not_before_newest (hi : Inv s) (hv : s.viewers.getLast?=some v) (hw : w∈s.viewers) : ¬Before s v w := by
  by_cases hne : w=v
  · intro hb
    exact pair_sublist_asymm hi.nodup hb (hne ▸ hb)
  · exact pair_sublist_asymm hi.nodup (before_newest hi hv hw hne)

/-- While somebody is registered and `mu` is free, exactly one viewer has the flag, the others were
registered before it, and the slice has the order of registration. -/
theorem one_controller {cfg : Caps} {s : Server} (h : Reach step Free (init cfg) s) (hmu : s.mu=none)
    (hsome : s.viewers≠[]) :
    (∃ v∈s.viewers,s.primary v=true ∧ ∀ w∈s.viewers,w≠v → s.primary w=false ∧ Before s w v) ∧
      s.viewers.Sublist s.added ∧ s.viewers.Nodup := by
  have hi:=reach_inv h
  refine ⟨?_,hi.ordered,hi.ordered.nodup hi.nodup⟩
  have hl:=hi.flags.led hmu
  obtain ⟨v,hv⟩ := ne_none_iff_exists'.mp (mt List.getLast?_eq_none_iff.mp hsome)
  have hmem:=mem_of_getLast? hv
  refine ⟨v,hmem,(hl v hmem).mpr hv,fun w hw hne => ⟨?_,before_newest hi hv hw hne⟩⟩
  rw [← Bool.not_eq_true,hl w hw,hv]
  intro he
  exact hne (Option.some.inj he).symm

/- Three viewers join, the newest and then the oldest leave. -/
def joinsAndLeaves : List Act :=
  [.addViewer 1,.proceed,.proceed,.load 1,.addViewer 2,.proceed,.load 1,.proceed,.proceed,
    .addViewer 3,.proceed,.proceed,.proceed,.proceed,.removeViewer 3,.load 2,.proceed,
    .removeViewer 1,.proceed]

theorem one_controller_second_left : ∃ s,Reach step Free (init ⟨0,0⟩) s ∧ s.viewers=[2] ∧
    s.added=[1,2,3] ∧ (∃ v∈s.viewers,s.primary v=true ∧
      ∀ w∈s.viewers,w≠v → s.primary w=false ∧ Before s w v) := by
  have hr : Reach step Free (init ⟨0,0⟩) _ := reach_free joinsAndLeaves (by decide)
  exact ⟨_,hr,by decide,by decide,(one_controller hr (by decide) (by decide)).1⟩

def pending (s : Server) : Nat :=
  match s.mu with
  | some (.demote _ _) | some (.append _) => 1
  | _ => 0

def Room (s : Server) : Prop := s.viewers.length+pending s+s.reservedViewers ≤ s.cfg.viewers

theorem init_room (cfg : Caps) : Room (init cfg) := Nat.zero_le _

theorem step_room (hr : Room s) (h : Turn s t) : Room t := by
  unfold Room at hr ⊢
  cases h with
  | stays => exact hr
  | reserves hmu | frees hmu | enters v hmu =>
    simp only [pending,hmu] at hr ⊢
    omega
  | demotes v x rest hmu | promotes v hmu => simpa only [pending,hmu] using hr
  | appends v hmu =>
    simp only [pending,hmu,length_append,length_singleton] at hr ⊢
    omega
  | removes v hmu =>
    have hle:=s.viewers.length_erase_le (a := v)
    simp only [pending,hmu] at hr ⊢
    omega
  | handsOver v hmu => simpa only [pending,hmu] using hr

theorem step_cfg (h : Turn s t) : t.cfg=s.cfg := by
  cases h <;> rfl

structure Truthful (s : Server) : Prop where
  occupied : (status s).occupied=true ↔ s.viewers≠[]
  viewers : (status s).viewers=s.viewers.length
  primary : (status s).primary=true ↔ ∃ v∈s.viewers,s.primary v=true
  led : (status s).primary=true ↔ s.viewers≠[]

theorem status_occupied (s : Server) : (status s).occupied=true ↔ s.viewers≠[] := by
  simp [status,length_pos_iff]

theorem exists_primary (hl : Led s) : (∃ v∈s.viewers,s.primary v=true) ↔ s.viewers≠[] := by
  constructor
  · rintro ⟨v,hv,_⟩
    exact ne_nil_of_mem hv
  · intro hne
    obtain ⟨v,hv⟩ := ne_none_iff_exists'.mp (mt List.getLast?_eq_none_iff.mp hne)
    have hmem:=mem_of_getLast? hv
    exact ⟨v,hmem,(hl v hmem).mpr hv⟩

theorem status_primary (hl : Led s) (hn : s.viewers.Nodup) : (status s).primary=true ↔ s.viewers.length=1 := by
  cases hv : s.viewers with
  | nil => simp [status,hv]
  | cons x rest =>
    have hx:=hl x (by simp [hv])
    have hst : (status s).primary=s.primary x := by simp [status,hv]
    rw [hst,hx,hv]
    cases rest with
    | nil => simp
    | cons y rest =>
      rw [hv,nodup_cons] at hn
      have hne : (x::y::rest).getLast?≠some x := by
        exact fun he => hn.1 (mem_of_getLast? he)
      simpa using hne

theorem reported_slot {cfg : Caps} {s : Server} (h : Reach step Free (init cfg) s) (hmu : s.mu=none) :
    Truthful s ↔ s.viewers.length≤1 := by
  have hi:=reach_inv h
  have hl:=hi.flags.led hmu
  have hp:=status_primary hl (hi.ordered.nodup hi.nodup)
  constructor
  · intro ht
    by_contra hlen
    have hone:=hp.mp (ht.led.mpr (ne_nil_of_length_pos (by omega)))
    omega
  · intro hlen
    have hled : (status s).primary=true ↔ s.viewers≠[] := by
      rw [hp,← length_pos_iff]
      omega
    exact ⟨status_occupied s,rfl,hled.trans (exists_primary hl).symm,hled⟩

theorem reported_slot_one_viewer : ∃ s,Reach step Free (init ⟨0,0⟩) s ∧ s.viewers=[2] ∧
    Truthful s ∧ (status s).body = "\x7b\"occupied\":true,\"viewers\":1,\"primary\":true\x7d" := by
  have hr : Reach step Free (init ⟨0,0⟩) _ := reach_free joinsAndLeaves (by decide +kernel)
  refine ⟨_,hr,?_,(reported_slot hr ?_).mpr ?_,?_⟩ <;> decide +kernel

/-- Two viewers: the newest has the flag and the probe denies it. -/
theorem second_viewer_not_reported : ∃ s,Reach step Free (init ⟨0,0⟩) s ∧ s.mu=none ∧
    s.viewers=[1,2] ∧ s.primary 2=true ∧
    (status s).body = "\x7b\"occupied\":true,\"viewers\":2,\"primary\":false\x7d" :=
  free_observed [.addViewer 1,.proceed,.proceed,.addViewer 2,.proceed,.proceed,.proceed] (by decide +kernel)

end Waymux.Bridge.ViewerList
