import Mathlib.Data.List.Infix
import Waymux.Server.RequestResponse

/-!
# The event stream of a subscription

What a forwarder has queued, against what was broadcast since its receiver was opened.
-/

namespace Waymux.Server.EventStream
open Framing.LengthPrefix Messages Connection ConnectionCases RequestResponse List Option
open Interleave.Runs

variable {c : Coders} {s t : State} {a : Act} {u : Subscription}

def liveEvent (i : Item) : Option Event :=
  match i.origin, i.msg with
  | .live _, .event e => some e
  | _, _ => none

def delivered (s : State) (u : Subscription) : List Event :=
  (s.written.drop u.sentAt).filterMap liveEvent

def since (s : State) (u : Subscription) : List Event :=
  ((s.posted.drop u.openedAt).map Posted.event).filter (topicMatches · u.topics)

def isReplaying : Reader → Bool
  | .replaying .. => true
  | _ => false

/-- Events are still coming: the forwarder runs, or is about to be spawned. -/
def Fed (s : State) : Prop :=
  isReplaying s.reader=true ∨
    ∃ k f,s.handle=some k ∧ s.forwarders[k]?=some f ∧ f.status=.running

structure CaughtUp (s : State) : Prop where
  forwarder : ∃ k f,s.handle=some k ∧ s.forwarders[k]?=some f ∧ f.pos=s.posted.length ∧ f.hand=none
  queue : s.queue=[]
  writer : s.writer=.idle

/-- As long as the connection accepts requests. -/
structure NoSilentGap (s : State) : Prop where
  inOrder : ∀ u,s.sub=some u → s.reader.isClosed=false → delivered s u <+: since s u
  fed : s.sub.isSome → s.reader.isClosed=false → s.writer≠.closed → Fed s
  whole : ∀ u,s.sub=some u → s.reader.isClosed=false → CaughtUp s → delivered s u=since s u

/-- A forwarder takes events only while it is not aborted and has not lagged, and an aborted one sends
nothing. -/
def Attentive (s : State) : Act → Prop
  | .poll k => ∀ f∈s.forwarders[k]?,f.status≠.aborted ∧ s.posted.length-f.pos≤eventChannelCapacity
  | .forward k => ∀ f∈s.forwarders[k]?,f.status≠.aborted
  | _ => True

def liveItem (topics : List String) (x : Posted × Nat) : Option Item :=
  if topicMatches x.1.event topics then some ⟨.event x.1.event,.live x.2⟩ else none

def passed (u : Subscription) (ps : List Posted) : List Item :=
  (ps.zipIdx.drop u.openedAt).filterMap (liveItem u.topics)

theorem passed_append (ps qs : List Posted) : passed u ps <+: passed u (ps++qs) := by
  unfold passed
  rw [zipIdx_append,drop_append,filterMap_append]
  exact prefix_append _ _

variable {ps : List Posted} {p : Posted} {id rx k : Nat} {topics : List String} {f g : Forwarder}

theorem passed_snoc (h : u.openedAt≤ps.length) :
    passed u (ps++[p])=passed u ps++(liveItem u.topics (p,ps.length)).toList := by
  have hz : (ps++[p]).zipIdx=ps.zipIdx++[(p,ps.length)] := by
    rw [zipIdx_append]
    simp
  have hle : u.openedAt≤ps.zipIdx.length := by rwa [length_zipIdx]
  unfold passed
  rw [hz,drop_append_of_le_length hle,filterMap_append]
  cases hp : liveItem u.topics (p,ps.length) <;> simp [hp]

theorem passed_take_prefix (ps : List Posted) (n : Nat) : passed u (ps.take n) <+: passed u ps := by
  have h:=passed_append (u := u) (ps.take n) (ps.drop n)
  rwa [take_append_drop] at h

theorem passed_start (ps : List Posted) : passed u (ps.take u.openedAt)=[] := by
  unfold passed
  rw [drop_eq_nil_of_le (by rw [length_zipIdx,length_take]; exact Nat.min_le_left _ _)]
  rfl

theorem passed_next {n : Nat} (ho : u.openedAt≤n) (hp : ps[n]?=some p) :
    passed u (ps.take (n+1))=passed u (ps.take n)++(liveItem u.topics (p,n)).toList := by
  have hn : n<ps.length := (List.getElem?_eq_some_iff.mp hp).1
  have hlen : (ps.take n).length=n := length_take_of_le (Nat.le_of_lt hn)
  have htake : ps.take (n+1)=ps.take n++[p] := by
    rw [take_add_one,hp]
    rfl
  rw [htake,passed_snoc (by rw [hlen]; exact ho),hlen]

theorem passed_events (ps : List Posted) : (passed u ps).filterMap liveEvent =
    ((ps.drop u.openedAt).map Posted.event).filter (topicMatches · u.topics) := by
  have hz : ps.drop u.openedAt=(ps.zipIdx.drop u.openedAt).map Prod.fst := by
    rw [map_drop,zipIdx_map_fst]
  unfold passed
  rw [hz]
  generalize ps.zipIdx.drop u.openedAt=xs
  induction xs with
  | nil => rfl
  | cons x xs ih =>
    by_cases hx : topicMatches x.1.event u.topics=true
    · simp [liveItem,hx,liveEvent,ih]
    · simp [liveItem,hx,ih]

def isLive (i : Item) : Bool :=
  match i.origin with
  | .live _ => true
  | _ => false

def queued (s : State) (u : Subscription) : List Item := (s.sent.drop u.sentAt).filter isLive

/-- The forwarder has queued what its receiver has passed, but for the event in its hand. -/
structure Forwarding (s : State) (u : Subscription) (k : Nat) (f : Forwarder) : Prop where
  reader : isReplaying s.reader=false
  handle : s.handle=some k
  at_k : s.forwarders[k]?=some f
  topics : f.topics=u.topics
  opened : u.openedAt≤f.pos
  pos : f.pos ≤ s.posted.length
  exact : f.status=.running → queued s u++f.hand.toList=passed u (s.posted.take f.pos)
  running : s.writer≠.closed → f.status=.running

structure Replaying (s : State) (u : Subscription) : Prop where
  reader : ∃ id work,s.reader=.replaying id u.topics u.openedAt work
  handle : s.handle=none
  queued : queued s u=[]

structure Current (s : State) (u : Subscription) : Prop where
  sent : u.sentAt ≤ s.sent.length
  opened : u.openedAt ≤ s.posted.length
  inOrder : queued s u <+: passed u s.posted
  mode : Replaying s u ∨ ∃ k f,Forwarding s u k f

def OneRuns (handle : Option Nat) (fs : List Forwarder) : Prop :=
  ∀ (k : Nat) (f : Forwarder),fs[k]?=some f → f.status=.running → handle=some k

structure Inv (s : State) : Prop where
  one : OneRuns s.handle s.forwarders
  current : ∀ u,s.sub=some u → s.reader.isClosed=false → Current s u
  /-- a handle is there once there was a subscription -/
  before : s.sub=none → s.handle=none ∧ isReplaying s.reader=false

theorem queued_enqueue {i : Item} (h : u.sentAt ≤ s.sent.length) :
    queued (s.enqueue i) u=queued s u++if isLive i then [i] else [] := by
  show ((s.sent++[i]).drop u.sentAt).filter isLive=_
  rw [drop_append_of_le_length h,filter_append]
  cases hi : isLive i <;> simp [queued,hi]

theorem Current.keep (h : Current s u) (hsent : s.sent.length≤t.sent.length)
    (hq : queued t u=queued s u) (hp : s.posted <+: t.posted) (hh : t.handle=s.handle)
    (hf : t.forwarders=s.forwarders) (hw : t.writer≠.closed → s.writer≠.closed)
    (hr : t.reader=s.reader ∨ isReplaying s.reader=false ∧ isReplaying t.reader=false) : Current t u := by
  obtain ⟨extra,hx⟩ := hp
  have hlen : s.posted.length≤t.posted.length := by rw [← hx,length_append]; omega
  refine ⟨Nat.le_trans h.sent hsent,Nat.le_trans h.opened hlen,?_,?_⟩
  · rw [hq,← hx]
    exact h.inOrder.trans (passed_append _ _)
  rcases h.mode with hm | ⟨k,f,hm⟩
  · obtain ⟨id,work,hrd⟩ := hm.reader
    rcases hr with hr | ⟨hr,-⟩
    · exact .inl ⟨⟨id,work,hr.trans hrd⟩,hh.trans hm.handle,hq.trans hm.queued⟩
    · rw [hrd] at hr
      cases hr
  · refine .inr ⟨k,f,?_,hh.trans hm.handle,hf ▸ hm.at_k,hm.topics,hm.opened,Nat.le_trans hm.pos hlen,
      ?_,fun hne => hm.running (hw hne)⟩
    · rcases hr with hr | ⟨-,hr⟩
      · rw [hr]
        exact hm.reader
      · exact hr
    · intro hrun
      rw [hq,hm.exact hrun,← hx,take_append_of_le_length hm.pos]

theorem Inv.of_closed (hi : Inv s) (hone : OneRuns t.handle t.forwarders) (hr : t.reader=.closed)
    (hs : t.sub=s.sub) (hh : s.handle=none → t.handle=none) : Inv t := by
  refine ⟨hone,fun u _ hc => ?_,fun hn => ⟨hh (hi.before (hs ▸ hn)).1,by rw [hr]; rfl⟩⟩
  rw [hr] at hc
  cases hc

theorem Inv.keep (hi : Inv s) (hsub : t.sub=s.sub) (hcl : t.reader.isClosed=s.reader.isClosed)
    (hsent : s.sent.length≤t.sent.length) (hq : ∀ u,Current s u → queued t u=queued s u)
    (hp : s.posted <+: t.posted) (hh : t.handle=s.handle)
    (hf : t.forwarders=s.forwarders) (hw : t.writer≠.closed → s.writer≠.closed)
    (hr : t.reader=s.reader ∨ isReplaying s.reader=false ∧ isReplaying t.reader=false) : Inv t := by
  refine ⟨by rw [hh,hf]; exact hi.one,fun u hu hc => ?_,fun hn => ?_⟩
  · have hcur:=hi.current u (hsub ▸ hu) (hcl ▸ hc)
    exact hcur.keep hsent (hq u hcur) hp hh hf hw hr
  · obtain ⟨h1,h2⟩ := hi.before (hsub ▸ hn)
    refine ⟨hh.trans h1,?_⟩
    rcases hr with hr | ⟨-,hr⟩
    · rw [hr]
      exact h2
    · exact hr

theorem abortForwarder_running (f : Forwarder) : (abortForwarder f).status≠.running := by
  unfold abortForwarder
  split
  · nofun
  · assumption

theorem OneRuns.abort (h : OneRuns s.handle s.forwarders) : OneRuns s.abort.handle s.abort.forwarders := by
  intro k f hf hrun
  rcases abort_cases s with ⟨j,hj,hfs⟩ | ⟨hn,hfs⟩
  · rw [hfs,getElem?_modify] at hf
    by_cases hjk : j=k
    · subst hjk
      simp only [if_true] at hf
      obtain ⟨g,-,rfl⟩ := map_eq_some_iff.mp hf
      exact absurd hrun (abortForwarder_running g)
    · simp only [hjk,if_false,id_map'] at hf
      have := h k f hf hrun
      rw [hj] at this
      exact absurd (some.inj this) hjk
  · rw [hfs] at hf
    have := h k f hf hrun
    rw [hn] at this
    cases this

theorem dispatched_open (r : Request) : (dispatched r).isClosed=false ∧ isReplaying (dispatched r)=false := by
  unfold dispatched
  split <;> exact ⟨rfl,rfl⟩

theorem Inv.handle {req : Request} {rest : Bytes} (hi : Inv s) (hr : s.reader=.reading) :
    Inv (handleRequest c req {s with unread := rest, requests := s.requests++[req]}) := by
  have hopen : s.reader.isClosed=false ∧ isReplaying s.reader=false := by
    rw [hr]
    exact ⟨rfl,rfl⟩
  unfold handleRequest
  split
  · obtain ⟨h1,h2⟩ := dispatched_open req
    exact hi.keep rfl (by rw [hopen.1,h1]) (Nat.le_refl _) (fun _ _ => rfl) (prefix_refl _) rfl rfl id
      (.inr ⟨hopen.2,h2⟩)
  · exact hi.keep rfl hopen.1.symm (Nat.le_refl _) (fun _ _ => rfl) (prefix_refl _) rfl rfl id
      (.inr ⟨hopen.2,rfl⟩)

theorem Inv.hangUp (hi : Inv s) : Inv s.hangUp :=
  hi.of_closed hi.one.abort rfl rfl fun _ => rfl

theorem Inv.subscribe (hi : Inv s) (id : Nat) (topics : List String) :
    Inv (s.resubscribe id topics) := by
  refine ⟨hi.one.abort,fun u hu _ => ?_,nofun⟩
  obtain rfl : _=u := some.inj hu
  have hnew : queued (s.resubscribe id topics) ⟨topics,s.posted.length,s.sent.length,[]⟩=[] := by
    show (s.sent.drop s.sent.length).filter isLive=[]
    rw [drop_length]
    rfl
  exact ⟨Nat.le_refl _,Nat.le_refl _,hnew ▸ nil_prefix,.inl ⟨⟨id,_,rfl⟩,rfl,hnew⟩⟩

theorem Inv.replaying {work work' : List Work} (hi : Inv s) (hr : s.reader=.replaying id topics rx work)
    (hr' : t.reader=.replaying id topics rx work') (hsent : s.sent.length≤t.sent.length)
    (hq : ∀ u,Current s u → queued t u=queued s u)
    (hsub : ∀ v,t.sub=some v → ∃ u,s.sub=some u ∧ v.topics=u.topics ∧ v.openedAt=u.openedAt ∧ v.sentAt=u.sentAt)
    (hp : t.posted=s.posted) (hh : t.handle=s.handle) (hf : t.forwarders=s.forwarders)
    (hnone : t.sub=none → s.sub=none) : Inv t := by
  refine ⟨by rw [hh,hf]; exact hi.one,fun v hv _ => ?_,fun hn => ?_⟩
  · obtain ⟨u,hu,e1,e2,e3⟩ := hsub v hv
    have hcur:=hi.current u hu (by rw [hr]; rfl)
    have hqv : queued t v=queued s u := by
      rw [← hq u hcur]
      simp only [queued,e3]
    have hpass : passed v t.posted=passed u s.posted := by simp only [passed,e1,e2,hp]
    rcases hcur.mode with hm | ⟨k,f,hm⟩
    · obtain ⟨id',w,hrd⟩ := hm.reader
      rw [hr] at hrd
      injection hrd with h1 h2 h3 h4
      refine ⟨by rw [e3]; exact Nat.le_trans hcur.sent hsent,by rw [e2,hp]; exact hcur.opened,
        by rw [hqv,hpass]; exact hcur.inOrder,.inl ⟨⟨id,work',?_⟩,hh.trans hm.handle,hqv.trans hm.queued⟩⟩
      rw [hr',h2,h3,e1,e2]
    · have := hm.reader
      rw [hr] at this
      cases this
  · have := (hi.before (hnone hn)).2
    rw [hr] at this
    cases this

theorem Inv.replay {w : Work} {rest : List Work} (hi : Inv s) (hr : s.reader=.replaying id topics rx (w::rest))
    (hc : Replayed s id topics rx rest w t) : Inv t := by
  have hsame : ∀ v,s.sub=some v → ∃ u,s.sub=some u ∧ v.topics=u.topics ∧
      v.openedAt=u.openedAt ∧ v.sentAt=u.sentAt := fun v hv => ⟨v,hv,rfl,rfl,rfl⟩
  cases hc with
  | clone =>
    refine hi.replaying hr rfl (Nat.le_refl _) (fun _ _ => rfl) (fun v hv => ?_) rfl rfl rfl (fun hn => ?_)
    · obtain ⟨u,hu,rfl⟩ := map_eq_some_iff.mp hv
      exact ⟨u,hu,rfl,rfl,rfl⟩
    · exact map_eq_none_iff.mp hn
  | line =>
    refine hi.replaying hr rfl ?_ (fun u hu => ?_) hsame rfl rfl rfl (fun h => h)
    · show s.sent.length≤(s.sent++[_]).length
      simp
    · exact (queued_enqueue (s := s) hu.sent).trans (append_nil _)
  | _ => exact hi.replaying hr rfl (Nat.le_refl _) (fun _ _ => rfl) hsame rfl rfl rfl (fun h => h)

theorem Inv.spawnForwarder {r : Response} (hi : Inv s) (hr : s.reader=.replaying id topics rx []) :
    Inv (s.spawn topics rx r) := by
  have hrep : isReplaying s.reader=true := by rw [hr]; rfl
  have hnew : (s.forwarders++[⟨rx,topics,none,.running⟩])[s.forwarders.length]? =
      some ⟨rx,topics,none,.running⟩ := by simp
  have hnone : s.handle=none := by
    cases hs : s.sub with
    | none => exact (hi.before hs).1
    | some u =>
      rcases (hi.current u hs (by rw [hr]; rfl)).mode with hm | ⟨k,f,hm⟩
      · exact hm.handle
      · rw [hm.reader] at hrep
        cases hrep
  refine ⟨?_,fun u hu _ => ?_,fun hn => ?_⟩
  · intro k f hf hrun
    rcases Nat.lt_or_ge k s.forwarders.length with hk | hk
    · have hf' : s.forwarders[k]?=some f := by rwa [getElem?_append_left hk] at hf
      have hone:=hi.one k f hf' hrun
      rw [hnone] at hone
      cases hone
    · rcases Nat.lt_or_ge s.forwarders.length k with hlt | hge
      · have hf' : (s.forwarders++[⟨rx,topics,none,.running⟩])[k]?=none := by
          rw [getElem?_eq_none_iff,length_append,length_singleton]
          exact hlt
        rw [hf'] at hf
        cases hf
      · exact congrArg some (Nat.le_antisymm hk hge)
  · have hcur:=hi.current u hu (by rw [hr]; rfl)
    rcases hcur.mode with hm | ⟨k,f,hm⟩
    · obtain ⟨id',w,hrd⟩ := hm.reader
      rw [hr] at hrd
      injection hrd with h1 h2 h3 h4
      subst h2 h3
      refine ⟨hcur.sent,hcur.opened,hcur.inOrder,.inr ⟨_,_,rfl,rfl,hnew,rfl,Nat.le_refl _,hcur.opened,
        fun _ => ?_,fun _ => rfl⟩⟩
      rw [passed_start]
      exact (append_nil _).trans hm.queued
    · rw [hm.reader] at hrep
      cases hrep
  · have := (hi.before hn).2
    rw [hrep] at this
    cases this

theorem Inv.respond {r : Response} (hi : Inv s) (hr : s.reader=.responding r) :
    Inv {s.enqueue ⟨.response r,.answer⟩ with reader := .reading} := by
  refine hi.keep rfl (by rw [hr]; rfl) ?_ (fun u hu => ?_) (prefix_refl _) rfl rfl id
    (.inr ⟨by rw [hr]; rfl,rfl⟩)
  · show s.sent.length≤(s.sent++[_]).length
    simp
  · exact (queued_enqueue (s := s) hu.sent).trans (append_nil _)

theorem OneRuns.set (h : OneRuns s.handle s.forwarders) (hf : s.forwarders[k]?=some f)
    (hg : g.status=.running → f.status=.running) : OneRuns s.handle (s.forwarders.set k g) := by
  intro j f' hj hrun
  by_cases hjk : k=j
  · subst hjk
    rw [List.getElem?_set_self (List.getElem?_eq_some_iff.mp hf).1] at hj
    obtain rfl := some.inj hj
    exact h k f hf (hg hrun)
  · rw [getElem?_set_ne hjk] at hj
    exact h j f' hj hrun

theorem Current.other (h : Current s u) (hk : s.handle≠some k) : Current (s.setForwarder k g) u := by
  refine ⟨h.sent,h.opened,h.inOrder,?_⟩
  rcases h.mode with hm | ⟨j,f,hm⟩
  · exact .inl ⟨hm.reader,hm.handle,hm.queued⟩
  · have hjk : k≠j := fun he => hk (he ▸ hm.handle)
    refine .inr ⟨j,f,hm.reader,hm.handle,?_,hm.topics,hm.opened,hm.pos,hm.exact,hm.running⟩
    show (s.forwarders.set k g)[j]?=some f
    rw [getElem?_set_ne hjk]
    exact hm.at_k

theorem Current.own (h : Current s u) (hk : s.handle=some k) (hf : s.forwarders[k]?=some f)
    (hsent : s.sent.length≤t.sent.length) (hp : t.posted=s.posted) (hr : t.reader=s.reader)
    (hh : t.handle=s.handle) (hfs : t.forwarders=s.forwarders.set k g)
    (hg : Forwarding s u k f → g.topics=f.topics ∧ f.pos≤g.pos ∧ g.pos ≤ s.posted.length ∧
      queued t u <+: passed u s.posted ∧
      (g.status=.running → queued t u++g.hand.toList=passed u (s.posted.take g.pos)) ∧
      (t.writer≠.closed → g.status=.running)) :
    Current t u := by
  rcases h.mode with hm | ⟨j,f',hm⟩
  · rw [hm.handle] at hk
    cases hk
  · obtain rfl : j=k := some.inj (hm.handle.symm.trans hk)
    obtain rfl : f'=f := some.inj (hm.at_k.symm.trans hf)
    obtain ⟨h1,h2,h3,h4,h5,h6⟩ := hg hm
    have hat : t.forwarders[j]?=some g := by
      rw [hfs,List.getElem?_set_self (List.getElem?_eq_some_iff.mp hf).1]
    refine ⟨Nat.le_trans h.sent hsent,by rw [hp]; exact h.opened,by rw [hp]; exact h4,
      .inr ⟨j,g,by rw [hr]; exact hm.reader,hh.trans hk,hat,h1.trans hm.topics,
        Nat.le_trans hm.opened h2,by rw [hp]; exact h3,by rw [hp]; exact h5,h6⟩⟩

theorem Forwarder.took_toList (f : Forwarder) (p : Posted) :
    (f.took p).hand.toList=(liveItem f.topics (p,f.pos)).toList := by
  unfold Forwarder.took liveItem
  split <;> rfl

theorem running_of (he : f.status≠.ended) (ha : f.status≠.aborted) : f.status=.running := by
  revert he ha
  cases f.status <;> simp

theorem Inv.poll (hi : Inv s) (hf : s.forwarders[k]?=some f) (hrun : f.status=.running) (hhand : f.hand=none)
    (hp : s.posted[f.pos]?=some p) : Inv (s.setForwarder k (f.took p)) := by
  refine ⟨hi.one.set hf fun _ => hrun,fun u hu hcl => ?_,hi.before⟩
  refine (hi.current u hu hcl).own (hi.one k f hf hrun) hf (Nat.le_refl _) rfl rfl rfl rfl fun hm => ?_
  have hlt : f.pos<s.posted.length := (List.getElem?_eq_some_iff.mp hp).1
  have hex:=hm.exact hrun
  rw [hhand] at hex
  have hex : queued s u=passed u (s.posted.take f.pos) := by simpa using hex
  refine ⟨rfl,Nat.le_succ _,hlt,(hi.current u hu hcl).inOrder,fun _ => ?_,fun _ => hrun⟩
  show queued s u++(f.took p).hand.toList=passed u (s.posted.take (f.pos+1))
  rw [Forwarder.took_toList,passed_next hm.opened hp,hex,hm.topics]

theorem Inv.unsent (hi : Inv s) (hf : s.forwarders[k]?=some f) (hrun : f.status=.running)
    (hw : s.writer=.closed) : Inv (s.setForwarder k {f with status := .ended, hand := none}) := by
  refine ⟨hi.one.set hf fun _ => hrun,fun u hu hcl => ?_,hi.before⟩
  refine (hi.current u hu hcl).own (hi.one k f hf hrun) hf (Nat.le_refl _) rfl rfl rfl rfl fun hm => ?_
  exact ⟨rfl,Nat.le_refl _,hm.pos,(hi.current u hu hcl).inOrder,nofun,fun hne => absurd hw hne⟩

theorem Inv.forward {i : Item} (hi : Inv s) (hf : s.forwarders[k]?=some f) (hrun : f.status=.running)
    (hhand : f.hand=some i) (hlive : isLive i=true) :
    Inv ((s.enqueue i).setForwarder k {f with hand := none}) := by
  refine ⟨hi.one.set hf fun _ => hrun,fun u hu hcl => ?_,hi.before⟩
  have hcur:=hi.current u hu hcl
  have hq : queued ((s.enqueue i).setForwarder k {f with hand := none}) u=queued s u++[i] := by
    have he:=queued_enqueue (i := i) hcur.sent
    rw [hlive] at he
    exact he
  have hlen : s.sent.length≤(s.sent++[i]).length := by simp
  refine hcur.own (hi.one k f hf hrun) hf hlen rfl rfl rfl rfl fun hm => ?_
  have hex:=hm.exact hrun
  rw [hhand] at hex
  have hex : queued s u++[i]=passed u (s.posted.take f.pos) := hex
  refine ⟨rfl,Nat.le_refl _,hm.pos,?_,fun _ => ?_,fun _ => hrun⟩
  · rw [hq,hex]
    exact passed_take_prefix _ _
  · rw [hq,hex]
    exact append_nil _

theorem Inv.cancel (hi : Inv s) (hf : s.forwarders[k]?=some f) (hab : f.status=.aborted) :
    Inv (s.setForwarder k {f with status := .ended, hand := none}) := by
  refine ⟨hi.one.set hf nofun,fun u hu hcl => ?_,hi.before⟩
  have hcur:=hi.current u hu hcl
  by_cases hk : s.handle=some k
  · refine hcur.own hk hf (Nat.le_refl _) rfl rfl rfl rfl fun hm => ?_
    refine ⟨rfl,Nat.le_refl _,hm.pos,hcur.inOrder,nofun,fun hne => ?_⟩
    have := hm.running hne
    rw [hab] at this
    cases this
  · exact hcur.other hk

theorem inv_init : Inv init := by
  refine ⟨fun k f hf => ?_,nofun,fun _ => ⟨rfl,rfl⟩⟩
  cases hf

theorem Inv.same {q ws : List Item} {w : Writer} {out un rc : Bytes} {ef : Bool} {ss : List (String × Nat)}
    {rs : List Ring} {ds : List Drainer} {pr : List Line} (hi : Inv s) (hp : s.posted <+: ps)
    (hw : w≠.closed → s.writer≠.closed) :
    Inv {s with queue := q, written := ws, writer := w, wire := out, unread := un, received := rc, eof := ef,
                 sessions := ss, rings := rs, drainers := ds, posted := ps, produced := pr} :=
  hi.keep rfl rfl (Nat.le_refl _) (fun _ _ => rfl) hp rfl rfl hw (.inl rfl)

theorem inv_step (hh : Hands s.forwarders) (hi : Inv s) (hok : Attentive s a) (h : step c s a=some t) : Inv t := by
  cases step_cases h with
  | arrive | finish => exact hi.same (prefix_refl _) id
  | world _ _ _ _ _ _ hp => exact hi.same hp id
  | request frame rest req hr => exact hi.handle hr
  | undecoded => exact hi.of_closed hi.one.abort rfl rfl fun _ => rfl
  | eof | unanswered => exact hi.hangUp
  | tooLong | cut | readError => exact hi.of_closed hi.one rfl rfl id
  | operate o id op code hr =>
    exact hi.keep rfl (by rw [hr]; rfl) (Nat.le_refl _) (fun _ _ => rfl) (prefix_refl _) rfl rfl
      (fun hne => hne) (.inr ⟨by rw [hr]; rfl,rfl⟩)
  | subscribe id topics => exact hi.subscribe id topics
  | replay id topics rx w rest hr hc => exact hi.replay hr hc
  | list order id topics rx rest hr =>
    exact hi.replaying hr rfl (Nat.le_refl _) (fun _ _ => rfl) (fun v hv => ⟨v,hv,rfl,rfl,rfl⟩)
      rfl rfl rfl (fun hn => hn)
  | spawnForwarder id topics rx hr => exact hi.spawnForwarder hr
  | respond r hr => exact hi.respond hr
  | poll k f p hf he hhand hp => exact hi.poll hf (running_of he (hok f hf).1) hhand hp
  | lagged k f hf _ hl => exact absurd hl (Nat.not_lt.mpr (hok f hf).2)
  | unsent k f i hf _ he hw => exact hi.unsent hf (running_of he (hok f hf)) hw
  | forward k f i hf hhand he =>
    obtain ⟨e,n,rfl⟩ := hh f i (mem_of_getElem? hf) hhand
    exact hi.forward hf (running_of he (hok f hf)) hhand rfl
  | cancel k f hf hab => exact hi.cancel hf hab
  | take _ _ _ hw | wrote _ _ _ hw | wrotePart _ _ _ hw => exact hi.same (prefix_refl _) fun _ => by rw [hw]; nofun
  | _ => exact hi.same (prefix_refl _) fun hne => absurd rfl hne

theorem inv_reach {ok : State → Act → Prop} (hle : ∀ u a,ok u a → Attentive u a)
    (hr : Reach (step c) ok init s) : Inv s :=
  hr.invariant inv_init fun hu hi ha hs =>
    inv_step (RequestResponse.inv_reach hu.free).hands hi (hle _ _ ha) hs

theorem liveEvent_filter (items : List Item) :
    (items.filter isLive).filterMap liveEvent=items.filterMap liveEvent := by
  rw [filterMap_filter]
  congr 1
  funext i
  unfold isLive liveEvent
  cases i.origin <;> simp

theorem queued_events (hfifo : s.written=s.sent) : delivered s u=(queued s u).filterMap liveEvent := by
  unfold delivered queued
  rw [liveEvent_filter,hfifo]

/-- What catching up means: everything passed has been queued, everything queued
has been written. -/
theorem Inv.caughtUp (hi : Inv s) (hfifo : Fifo s) (hu : s.sub=some u) (hcl : s.reader.isClosed=false)
    (hup : CaughtUp s) : s.written=s.sent ∧ isReplaying s.reader=false ∧ queued s u=passed u s.posted := by
  obtain ⟨⟨k,f,hk,hf,hpos,hhand⟩,hq,hw⟩ := hup
  have hopen : s.writer≠.closed := by rw [hw]; nofun
  have hsent:=hfifo.running hopen
  rw [hw,hq] at hsent
  have hsent : s.written=s.sent := by simpa [inHand] using hsent.symm
  rcases (hi.current u hu hcl).mode with hm | ⟨j,g,hm⟩
  · rw [hm.handle] at hk
    cases hk
  · obtain rfl : j=k := some.inj (hm.handle.symm.trans hk)
    obtain rfl : g=f := some.inj (hm.at_k.symm.trans hf)
    have hex:=hm.exact (hm.running hopen)
    rw [hhand,hpos,take_length] at hex
    exact ⟨hsent,hm.reader,by simpa using hex⟩

/-- In every run in which no receiver lags and no aborted forwarder goes on. -/
theorem no_silent_gap (hr : Reach (step c) Attentive init s) : NoSilentGap s := by
  have hi:=inv_reach (fun _ _ h => h) hr
  have hfifo:=(RequestResponse.inv_reach hr.free).fifo
  refine ⟨fun u hu hcl => ?_,fun hsub hcl hw => ?_,fun u hu hcl hup => ?_⟩
  · have hcur:=hi.current u hu hcl
    have hpre : delivered s u <+: (queued s u).filterMap liveEvent := by
      unfold delivered queued
      rw [liveEvent_filter]
      exact (hfifo.written.drop _).filterMap _
    have hall : (queued s u).filterMap liveEvent <+: since s u := by
      rw [since,← passed_events]
      exact hcur.inOrder.filterMap _
    exact hpre.trans hall
  · obtain ⟨u,hu⟩ := isSome_iff_exists.mp hsub
    rcases (hi.current u hu hcl).mode with hm | ⟨k,f,hm⟩
    · obtain ⟨id,work,hrd⟩ := hm.reader
      exact .inl (by rw [hrd]; rfl)
    · exact .inr ⟨k,f,hm.handle,hm.at_k,hm.running hw⟩
  · obtain ⟨hwr,-,hq⟩ := hi.caughtUp hfifo hu hcl hup
    rw [queued_events hwr,hq,passed_events]
    rfl

instance : Decidable (Attentive s a) := by
  unfold Attentive
  repeat' split
  all_goals infer_instance

/-- A client subscribes to the logs of a session that has written nothing yet. -/
def subscribed : List Act :=
  ([.openSession "a",.spawnDrainer "a" "stdout"] : List Act)++helloTwice ++
  asks (subscribeBytes 4 logsA) ++
    ([.subscribe,.replay,.replay,.replay,.spawnForwarder] : List Act)++answered

theorem no_silent_gap_one_line : ∃ s u,Reach (step coders) Attentive init s ∧ s.sub=some u ∧
    s.reader.isClosed=false ∧ delivered s u=[.new (.log "a" "stdout" "up")] ∧ NoSilentGap s := by
  have hr : Reach (step coders) Attentive init _ := reach_exec
    (subscribed++([.post (.sessionCreated "b"),.append 0 "up",.publish 0,.poll 0,.poll 0,
      .forward 0,.take,.write 9] : List Act))
    (meets_decided (by decide +kernel)) (by decide +kernel)
  refine ⟨_,⟨["logs:a"],0,2,[⟨"a",0,[],0⟩]⟩,hr,?_,?_,?_,no_silent_gap hr⟩ <;> decide +kernel

/-- The client is slow while a channel's worth of events and one more arrive. -/
def overrun : List Act := List.replicate (eventChannelCapacity+1) (.post (.sessionCreated "b"))

theorem lagged_and_left_open : ∃ s u,Reach (step coders) Free init s ∧ s.sub=some u ∧
    s.reader.isClosed=false ∧ s.writer=.idle ∧ s.forwarders.map Forwarder.status=[.ended] ∧
    ¬NoSilentGap s := by
  have hr : Reach (step coders) Free init _ :=
    reach_free (subscribed++overrun++([.poll 0] : List Act)) (by decide +kernel)
  refine ⟨_,⟨["logs:a"],0,2,[⟨"a",0,[],0⟩]⟩,hr,?_,?_,?_,?_,fun hgap => ?_⟩
  case refine_5 =>
    rcases hgap.fed (by decide +kernel) (by decide +kernel) (by decide +kernel) with h | ⟨k,f,-,hk,hrun⟩
    · exact absurd h (by decide +kernel)
    · have hmem:=mem_map_of_mem (f := Forwarder.status) (mem_of_getElem? hk)
      rw [hrun] at hmem
      exact absurd hmem (by decide +kernel)
  all_goals decide +kernel

end Waymux.Server.EventStream
