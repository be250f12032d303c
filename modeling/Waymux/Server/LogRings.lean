import Waymux.Interleave.Logs
import Waymux.Server.ConnectionCases

/-!
# Log rings, drainers and the broadcast channel

A ring holds lines of its own session in the order of their appends, and the lines of a drainer are
broadcast in the order it read them.
-/

namespace Waymux.Server.LogRings
open Messages Connection ConnectionCases Interleave.Runs List Option

variable {c : Coders} {s t : State} {a : Act}

structure SameWorld (s t : State) : Prop where
  sessions : t.sessions=s.sessions
  rings : t.rings=s.rings
  drainers : t.drainers=s.drainers
  posted : t.posted=s.posted
  produced : t.produced=s.produced

inductive WorldStep (s : State) : State → Prop
  | opened (name : String) (hl : lookup s.sessions name=none) :
      WorldStep s {s with
        sessions := s.sessions++[(name,s.rings.length)]
        rings := s.rings++[⟨name,[]⟩]}
  | closed (name : String) : WorldStep s {s with sessions := s.sessions.filter (·.1 != name)}
  | drainer (name stream : String) (r : Nat) (hl : lookup s.sessions name=some r) :
      WorldStep s {s with drainers := s.drainers++[⟨r,name,stream,none⟩]}
  | appended (d : Nat) (dr : Drainer) (text : String) (hd : s.drainers[d]?=some dr)
      (hu : dr.unsent=none) :
      WorldStep s {s with
        rings := s.rings.modify dr.ring (·.push ⟨dr.stream,text,⟨dr.ring,d,s.produced.length⟩⟩)
        drainers := s.drainers.set d
          {dr with unsent := some ⟨dr.stream,text,⟨dr.ring,d,s.produced.length⟩⟩}
        produced := s.produced++[⟨dr.ring,d,s.produced.length⟩]}
  | published (d : Nat) (dr : Drainer) (e : LogEntry) (hd : s.drainers[d]?=some dr)
      (hu : dr.unsent=some e) :
      WorldStep s {s with
        drainers := s.drainers.set d {dr with unsent := none}
        posted := s.posted++[⟨.new (.log dr.session e.stream e.text),some e.line⟩]}
  | posted (body : EventBody) (hb : body.isLog=false) :
      WorldStep s {s with posted := s.posted++[⟨.new body,none⟩]}

theorem handleRequest_world (r : Request) (s : State) : SameWorld s (handleRequest c r s) := by
  unfold handleRequest
  split <;> exact ⟨rfl,rfl,rfl,rfl,rfl⟩

theorem outside_world (ha : outside a=true) (h : step c s a=some t) : WorldStep s t := by
  cases a with
  | openSession name =>
    simp only [step,openSession] at h
    split at h <;> cases h
    next hn => exact .opened name (not_isSome_iff_eq_none.mp hn)
  | closeSession name =>
    cases h
    exact .closed name
  | spawnDrainer name stream =>
    simp only [step,spawnDrainer] at h
    split at h <;> cases h
    exact .drainer name stream _ ‹_›
  | append d text =>
    simp only [step,Connection.append] at h
    repeat' split at h
    all_goals cases h
    next dr hd hu => exact .appended d dr text hd (not_isSome_iff_eq_none.mp hu)
  | publish d =>
    simp only [step,publish] at h
    repeat' split at h
    all_goals cases h
    exact .published d _ _ ‹_› ‹_›
  | post body =>
    simp only [step,post] at h
    split at h <;> cases h
    next hb => exact .posted body (Bool.eq_false_iff.mpr hb)
  | _ => cases ha

theorem step_world (h : step c s a=some t) : SameWorld s t ∨ WorldStep s t := by
  cases step_cases h with
  | request frame rest req =>
    have hw:=handleRequest_world (c := c) req {s with unread := rest, requests := s.requests++[req]}
    exact .inl ⟨hw.sessions,hw.rings,hw.drainers,hw.posted,hw.produced⟩
  | replay id topics rx w rest hr hc => cases hc <;> exact .inl ⟨rfl,rfl,rfl,rfl,rfl⟩
  | world _ _ _ _ _ ha => exact .inr (outside_world ha h)
  | _ => exact .inl ⟨rfl,rfl,rfl,rfl,rfl⟩

def RingsKept (rs rs' : List Ring) : Prop :=
  ∀ (r : Nat) (ring : Ring),rs[r]?=some ring → ∃ ring',rs'[r]?=some ring' ∧ ring'.session=ring.session

theorem RingsKept.refl (rs : List Ring) : RingsKept rs rs := fun _ ring hr => ⟨ring,hr,rfl⟩

theorem ringsKept_snoc (rs : List Ring) (ring : Ring) : RingsKept rs (rs++[ring]) := by
  intro r old hr
  refine ⟨old,?_,rfl⟩
  rw [List.getElem?_append_left (List.getElem?_eq_some_iff.mp hr).1]
  exact hr

theorem ringsKept_push (rs : List Ring) (k : Nat) (e : LogEntry) : RingsKept rs (rs.modify k (·.push e)) := by
  intro r ring hr
  rw [getElem?_modify,hr]
  split <;> exact ⟨_,rfl,rfl⟩

structure Around (s t : State) : Prop where
  reader : t.reader=s.reader
  writer : t.writer=s.writer
  sent : t.sent=s.sent
  sub : t.sub=s.sub
  rings : RingsKept s.rings t.rings
  posted : s.posted <+: t.posted

theorem WorldStep.around (h : WorldStep s t) : Around s t := by
  cases h with
  | opened => exact ⟨rfl,rfl,rfl,rfl,ringsKept_snoc _ _,prefix_refl _⟩
  | closed | drainer => exact ⟨rfl,rfl,rfl,rfl,.refl _,prefix_refl _⟩
  | appended => exact ⟨rfl,rfl,rfl,rfl,ringsKept_push _ _ _,prefix_refl _⟩
  | _ => exact ⟨rfl,rfl,rfl,rfl,.refl _,prefix_append _ _⟩

def InTurn (a b : Line) : Prop := a.drainer=b.drainer → a.serial<b.serial

def postedLines (ps : List Posted) : List Line := ps.filterMap Posted.line

theorem mem_postedLines {ps : List Posted} {l : Line} :
    l∈postedLines ps ↔ ∃ p∈ps,p.line=some l := mem_filterMap

structure RingOk (s : State) (r : Nat) (ring : Ring) : Prop where
  ascending : (ring.entries.map LogEntry.line).Pairwise fun a b => a.serial<b.serial
  own : ∀ e∈ring.entries,e.line∈s.produced ∧ e.line.ring=r

/-- A drainer belongs to its ring; the line it has not broadcast comes after
those it has. -/
structure DrainerOk (s : State) (d : Nat) (dr : Drainer) : Prop where
  ring : ∃ ring,s.rings[dr.ring]?=some ring ∧ ring.session=dr.session
  unsent : ∀ e,dr.unsent=some e → e.line∈s.produced ∧ e.line.drainer=d ∧ e.line.ring=dr.ring ∧
    ∀ l∈postedLines s.posted,l.drainer=d → l.serial<e.line.serial

structure PostedOk (s : State) (p : Posted) (l : Line) : Prop where
  produced : l∈s.produced
  event : ∃ ring stream text,s.rings[l.ring]?=some ring ∧ p.event=.new (.log ring.session stream text)

structure Known (s : State) : Prop where
  serial : ∀ l∈s.produced,l.serial<s.produced.length
  owner : ∀ l∈s.produced,∃ dr,s.drainers[l.drainer]?=some dr ∧ dr.ring=l.ring
  rings : ∀ r ring,s.rings[r]?=some ring → RingOk s r ring
  drainers : ∀ d dr,s.drainers[d]?=some dr → DrainerOk s d dr
  sessions : ∀ n r,(n,r)∈s.sessions → ∃ ring,s.rings[r]?=some ring ∧ ring.session=n
  names : (s.sessions.map Prod.fst).Nodup
  posted : ∀ p∈s.posted,∀ l,p.line=some l → PostedOk s p l
  turn : (postedLines s.posted).Pairwise InTurn

section Growth
variable {r d : Nat} {n : String} {ring : Ring} {dr : Drainer} {p : Posted} {l : Line}

theorem RingsKept.hosts {rs rs' : List Ring} (h : RingsKept rs rs')
    (hr : ∃ ring,rs[r]?=some ring ∧ ring.session=n) : ∃ ring,rs'[r]?=some ring ∧ ring.session=n := by
  obtain ⟨ring,hr,hses⟩ := hr
  obtain ⟨ring',hr',hses'⟩ := h r ring hr
  exact ⟨ring',hr',hses'.trans hses⟩

theorem RingOk.mono (h : RingOk s r ring) (hp : s.produced ⊆ t.produced) : RingOk t r ring :=
  ⟨h.ascending,fun e he => ⟨hp (h.own e he).1,(h.own e he).2⟩⟩

theorem DrainerOk.mono (h : DrainerOk s d dr) (hr : RingsKept s.rings t.rings) (hp : s.produced ⊆ t.produced)
    (hl : ∀ l∈postedLines t.posted,l.drainer=d → l∈postedLines s.posted) : DrainerOk t d dr := by
  refine ⟨hr.hosts h.ring,fun e he => ?_⟩
  obtain ⟨hm,hd,hring,hlast⟩ := h.unsent e he
  exact ⟨hp hm,hd,hring,fun l hlt hld => hlast l (hl l hlt hld) hld⟩

theorem PostedOk.mono (h : PostedOk s p l) (hr : RingsKept s.rings t.rings) (hp : s.produced ⊆ t.produced) :
    PostedOk t p l := by
  obtain ⟨ring,stream,text,hring,he⟩ := h.event
  obtain ⟨ring',hring',hses⟩ := hr _ ring hring
  exact ⟨hp h.produced,ring',stream,text,hring',hses ▸ he⟩

end Growth

theorem Known.same (hk : Known s) (hw : SameWorld s t) : Known t := by
  obtain ⟨h1,h2,h3,h4,h5⟩ := hw
  have hrings : RingsKept s.rings t.rings := h2 ▸ .refl _
  have hprod : s.produced ⊆ t.produced := h5 ▸ List.Subset.refl _
  refine ⟨h5 ▸ hk.serial,?_,fun r ring hr => (hk.rings r ring (h2 ▸ hr)).mono hprod,
    fun d dr hd => (hk.drainers d dr (h3 ▸ hd)).mono hrings hprod fun _ hl _ => h4 ▸ hl,?_,h1 ▸ hk.names,
    fun p hp l hl => (hk.posted p (h4 ▸ hp) l hl).mono hrings hprod,h4 ▸ hk.turn⟩
  · rw [h5,h3]
    exact hk.owner
  · rw [h1,h2]
    exact hk.sessions

theorem mem_of_lookup {ss : List (String × Nat)} {n : String} {r : Nat} (h : lookup ss n=some r) : (n,r)∈ss := by
  obtain ⟨⟨m,q⟩,hf,rfl⟩ := map_eq_some_iff.mp h
  have hm:=find?_some hf
  simp only [beq_iff_eq] at hm
  exact hm ▸ mem_of_find?_eq_some hf

theorem not_mem_of_lookup {ss : List (String × Nat)} {n : String} (h : lookup ss n=none) : n∉ss.map Prod.fst := by
  intro hm
  obtain ⟨x,hx,rfl⟩ := mem_map.mp hm
  have hn:=find?_eq_none.mp (map_eq_none_iff.mp h) x hx
  simp at hn

variable {e : LogEntry} {d : Nat} {dr : Drainer}

theorem Ring.mem_push {r : Ring} {e' : LogEntry} (h : e'∈(r.push e).entries) : e'∈r.entries ∨ e'=e := by
  have h : e'∈(if _ then r.entries.tail else r.entries)++[e] := h
  rcases mem_append.mp h with h | h
  · refine .inl ?_
    split at h
    · exact mem_of_mem_tail h
    · exact h
  · exact .inr (mem_singleton.mp h)

theorem Ring.push_sublist (r : Ring) (e : LogEntry) : (r.push e).entries.Sublist (r.entries++[e]) := by
  refine List.Sublist.append ?_ (List.Sublist.refl _)
  split
  · exact tail_sublist _
  · exact List.Sublist.refl _

theorem RingOk.push {r : Nat} {ring : Ring} (h : RingOk s r ring)
    (hk : ∀ l∈s.produced,l.serial<s.produced.length) (hr : e.line.ring=r)
    (hs : e.line.serial=s.produced.length) (ht : t.produced=s.produced++[e.line]) :
    RingOk t r (ring.push e) := by
  refine ⟨?_,fun e' he' => ?_⟩
  · refine List.Pairwise.sublist ((Ring.push_sublist ring e).map LogEntry.line) ?_
    rw [map_append,pairwise_append]
    refine ⟨h.ascending,pairwise_singleton _ _,fun l hl b hb => ?_⟩
    obtain ⟨e',he',rfl⟩ := mem_map.mp hl
    rw [map_singleton,mem_singleton] at hb
    rw [hb,hs]
    exact hk _ (h.own e' he').1
  · rw [ht]
    rcases Ring.mem_push he' with he' | rfl
    · exact ⟨mem_append_left _ (h.own e' he').1,(h.own e' he').2⟩
    · exact ⟨by simp,hr⟩

theorem Known.owner_set {u : Option LogEntry} {l : Line} (hk : Known s) (hd : s.drainers[d]?=some dr)
    (hl : l∈s.produced) :
    ∃ dj,(s.drainers.set d {dr with unsent := u})[l.drainer]?=some dj ∧ dj.ring=l.ring := by
  obtain ⟨dl,hdl,hrl⟩ := hk.owner l hl
  by_cases hjd : d=l.drainer
  · subst hjd
    obtain rfl := some.inj (hdl.symm.trans hd)
    exact ⟨_,List.getElem?_set_self (List.getElem?_eq_some_iff.mp hd).1,hrl⟩
  · exact ⟨dl,(getElem?_set_ne hjd).trans hdl,hrl⟩

theorem drainers_set {dr' : Drainer} (hd : s.drainers[d]?=some dr) (hnew : DrainerOk t d dr')
    (hold : ∀ j dj,d≠j → s.drainers[j]?=some dj → DrainerOk t j dj) (j : Nat) (dj : Drainer)
    (hj : (s.drainers.set d dr')[j]?=some dj) : DrainerOk t j dj := by
  by_cases hjd : d=j
  · subst hjd
    rw [List.getElem?_set_self (List.getElem?_eq_some_iff.mp hd).1] at hj
    exact some.inj hj ▸ hnew
  · exact hold j dj hjd ((getElem?_set_ne hjd).symm.trans hj)

theorem known_append {text : String} (hk : Known s) (hd : s.drainers[d]?=some dr) :
    Known {s with
      rings := s.rings.modify dr.ring (·.push ⟨dr.stream,text,⟨dr.ring,d,s.produced.length⟩⟩)
      drainers := s.drainers.set d
        {dr with unsent := some ⟨dr.stream,text,⟨dr.ring,d,s.produced.length⟩⟩}
      produced := s.produced++[⟨dr.ring,d,s.produced.length⟩]} := by
  have hring:=ringsKept_push s.rings dr.ring ⟨dr.stream,text,⟨dr.ring,d,s.produced.length⟩⟩
  have hprod:=subset_append_left s.produced [⟨dr.ring,d,s.produced.length⟩]
  refine ⟨fun l hl => ?_,fun l hl => ?_,fun r ring hr => ?_,drainers_set hd ?_ fun j dj _ hj => ?_,
    fun n r hn => hring.hosts (hk.sessions n r hn),hk.names,fun p hp l hl => (hk.posted p hp l hl).mono hring hprod,
    hk.turn⟩
  · rw [length_append,length_singleton]
    rcases mem_append.mp hl with hl | hl
    · exact Nat.lt_succ_of_lt (hk.serial l hl)
    · rw [mem_singleton.mp hl]
      exact Nat.lt_succ_self _
  · rcases mem_append.mp hl with hl | hl
    · exact hk.owner_set hd hl
    · rw [mem_singleton.mp hl]
      exact ⟨_,List.getElem?_set_self (List.getElem?_eq_some_iff.mp hd).1,rfl⟩
  · have hr : (s.rings.modify dr.ring _)[r]?=some ring := hr
    rw [getElem?_modify] at hr
    obtain ⟨old,hold,rfl⟩ := map_eq_some_iff.mp hr
    by_cases hrr : dr.ring=r
    · subst hrr
      rw [if_pos rfl]
      exact (hk.rings _ old hold).push hk.serial rfl rfl rfl
    · rw [if_neg hrr]
      exact (hk.rings r old hold).mono hprod
  · refine ⟨hring.hosts (hk.drainers d dr hd).ring,fun e he => ?_⟩
    obtain rfl := some.inj he
    refine ⟨by simp,rfl,rfl,fun l hl _ => ?_⟩
    obtain ⟨p,hp,hpl⟩ := mem_postedLines.mp hl
    exact hk.serial l (hk.posted p hp l hpl).produced
  · exact (hk.drainers j dj hj).mono hring hprod fun _ hl _ => hl

theorem known_publish (hk : Known s) (hd : s.drainers[d]?=some dr) (hu : dr.unsent=some e) :
    Known {s with
      drainers := s.drainers.set d {dr with unsent := none}
      posted := s.posted++[⟨.new (.log dr.session e.stream e.text),some e.line⟩]} := by
  obtain ⟨⟨ring,hring,hses⟩,hun⟩ := hk.drainers d dr hd
  obtain ⟨hprod,hdr,hri,hlast⟩ := hun e hu
  have hlines : postedLines (s.posted++[⟨.new (.log dr.session e.stream e.text),some e.line⟩]) =
      postedLines s.posted++[e.line] := by simp [postedLines]
  refine ⟨hk.serial,fun l hl => hk.owner_set hd hl,fun r ring hr => (hk.rings r ring hr).mono (fun _ h => h),
    drainers_set hd ⟨⟨ring,hring,hses⟩,nofun⟩ fun j dj hjd hj => ?_,hk.sessions,hk.names,fun p hp l hl => ?_,?_⟩
  · refine (hk.drainers j dj hj).mono (.refl _) (fun _ h => h) fun l hl hlj => ?_
    have hl : l∈postedLines (s.posted++[_]) := hl
    rw [hlines] at hl
    rcases mem_append.mp hl with hl | hl
    · exact hl
    · rw [mem_singleton.mp hl,hdr] at hlj
      exact absurd hlj hjd
  · rcases mem_append.mp hp with hp | hp
    · exact (hk.posted p hp l hl).mono (.refl _) fun _ h => h
    · rw [mem_singleton.mp hp] at hl ⊢
      obtain rfl := some.inj hl
      exact ⟨hprod,ring,e.stream,e.text,hri ▸ hring,by rw [hses]⟩
  · rw [hlines,pairwise_append]
    refine ⟨hk.turn,pairwise_singleton _ _,fun l hl b hb => ?_⟩
    rw [mem_singleton.mp hb]
    exact fun hsame => hlast l hl (hsame.trans hdr)

theorem known_init : Known init where
  serial := nofun
  owner := nofun
  rings r ring hr := by cases hr
  drainers d dr hd := by cases hd
  sessions := nofun
  names := nodup_nil
  posted := nofun
  turn := List.Pairwise.nil

theorem known_world (hk : Known s) (h : WorldStep s t) : Known t := by
  cases h with
  | opened name hl =>
    have hring:=ringsKept_snoc s.rings ⟨name,[]⟩
    refine ⟨hk.serial,hk.owner,fun r ring hr => ?_,fun d dr hd => ?_,fun n r hn => ?_,?_,
      fun p hp l hl => (hk.posted p hp l hl).mono hring fun _ h => h,hk.turn⟩
    · have hr : (s.rings++[⟨name,[]⟩])[r]?=some ring := hr
      rcases Nat.lt_or_ge r s.rings.length with hlt | hge
      · rw [getElem?_append_left hlt] at hr
        exact (hk.rings r ring hr).mono fun _ h => h
      · rw [getElem?_append_right hge] at hr
        obtain rfl := mem_singleton.mp (mem_of_getElem? hr)
        exact ⟨List.Pairwise.nil,nofun⟩
    · exact (hk.drainers d dr hd).mono hring (fun _ h => h) fun _ hl _ => hl
    · rcases mem_append.mp hn with hn | hn
      · exact hring.hosts (hk.sessions n r hn)
      · obtain ⟨rfl,rfl⟩ := Prod.mk.inj (mem_singleton.mp hn)
        exact ⟨⟨n,[]⟩,by simp,rfl⟩
    · rw [map_append,map_singleton]
      exact Interleave.Logs.nodup_append_one hk.names (not_mem_of_lookup hl)
  | closed =>
    exact ⟨hk.serial,hk.owner,fun r ring hr => (hk.rings r ring hr).mono fun _ h => h,
      fun d dr hd => (hk.drainers d dr hd).mono (.refl _) (fun _ h => h) fun _ hl _ => hl,
      fun n r hn => hk.sessions n r (mem_filter.mp hn).1,hk.names.sublist (filter_sublist.map _),
      fun p hp l hl => (hk.posted p hp l hl).mono (.refl _) fun _ h => h,hk.turn⟩
  | drainer name stream r hl =>
    refine ⟨hk.serial,fun l hl => ?_,fun r ring hr => (hk.rings r ring hr).mono fun _ h => h,fun d dr hd => ?_,
      hk.sessions,hk.names,fun p hp l hl => (hk.posted p hp l hl).mono (.refl _) fun _ h => h,hk.turn⟩
    · obtain ⟨dl,hdl,hrl⟩ := hk.owner l hl
      exact ⟨dl,(List.getElem?_append_left (List.getElem?_eq_some_iff.mp hdl).1).trans hdl,hrl⟩
    · have hd : (s.drainers++[⟨r,name,stream,none⟩])[d]?=some dr := hd
      rcases Nat.lt_or_ge d s.drainers.length with hlt | hge
      · rw [getElem?_append_left hlt] at hd
        exact (hk.drainers d dr hd).mono (.refl _) (fun _ h => h) fun _ hl _ => hl
      · rw [getElem?_append_right hge] at hd
        obtain rfl := mem_singleton.mp (mem_of_getElem? hd)
        exact ⟨hk.sessions name r (mem_of_lookup hl),nofun⟩
  | appended d dr text hd => exact known_append hk hd
  | published d dr e hd hu => exact known_publish hk hd hu
  | posted body =>
    have hlines : postedLines (s.posted++[⟨.new body,none⟩])=postedLines s.posted := by simp [postedLines]
    refine ⟨hk.serial,hk.owner,fun r ring hr => (hk.rings r ring hr).mono fun _ h => h,fun d dr hd => ?_,
      hk.sessions,hk.names,fun p hp l hl => ?_,?_⟩
    · exact (hk.drainers d dr hd).mono (.refl _) (fun _ h => h) fun _ hl _ => hlines ▸ hl
    · rcases mem_append.mp hp with hp | hp
      · exact (hk.posted p hp l hl).mono (.refl _) fun _ h => h
      · rw [mem_singleton.mp hp] at hl
        cases hl
    · rw [hlines]
      exact hk.turn

theorem known_reach (hr : Reach (step c) Free init s) : Known s :=
  hr.keeps known_init fun hk _ hs =>
    (step_world hs).elim (fun hw => hk.same hw) (fun hw => known_world hk hw)

end Waymux.Server.LogRings
