import Waymux.Server.EventStream
import Waymux.Server.LogRings

/-!
# Log replay of a subscription

The lines of the rings cloned for a subscriber, and those its receiver passes.
-/

namespace Waymux.Server.LogReplay
open Messages Connection ConnectionCases RequestResponse EventStream LogRings List
open Interleave.Runs

variable {c : Coders} {s t : State} {a : Act} {u : Subscription}

/-! ### The property -/

def lineOf (ps : List Posted) (i : Item) : Option Line :=
  match i.origin with
  | .replay l => some l
  | .live n => ps[n]?.bind Posted.line
  | .answer => none

def received (s : State) (u : Subscription) : List Line :=
  (s.written.drop u.sentAt).filterMap (lineOf s.posted)

def Distinct (work : List Work) : Prop := work.Nodup ∧ (.every∈work → work=[.every])

instance (work : List Work) : Decidable (Distinct work) :=
  inferInstanceAs (Decidable (work.Nodup ∧ (.every∈work → work=[.every])))

/-- The topics name no session twice, and a ring is cloned only when its lines were broadcast before the
receiver was opened. -/
def Careful (s : State) (a : Act) : Prop :=
  Attentive s a ∧ match a, s.reader with
    | .subscribe, .subscribing _ topics => Distinct (topics.flatMap workOf)
    | .replay, .replaying _ _ rx (.clone r::_) =>
        ∀ ring∈s.rings[r]?,∀ e∈ring.entries,e.line∈postedLines (s.posted.take rx)
    | _, _ => True

/-! ### Lines of the receiver -/

variable {ps : List Posted} {i : Item} {x : Shot} {rs : List Ring} {work rest : List Work} {w : Work} {id rx : Nat}
  {topics : List String}

theorem mem_passed (h : i∈passed u ps) : ∃ n p,ps[n]?=some p ∧ i=⟨.event p.event,.live n⟩ := by
  obtain ⟨⟨p,n⟩,hx,hi⟩ := mem_filterMap.mp h
  have hn:=mem_zipIdx_iff_getElem?.mp (mem_of_mem_drop hx)
  unfold liveItem at hi
  split at hi
  · exact ⟨n,p,hn,(Option.some.inj hi).symm⟩
  · cases hi

def replayLine (i : Item) : Option Line :=
  match i.origin with
  | .replay l => some l
  | _ => none

def replayed (s : State) (u : Subscription) : List Line := (s.sent.drop u.sentAt).filterMap replayLine

def arrived (s : State) (u : Subscription) : List Line := (s.sent.drop u.sentAt).filterMap (lineOf s.posted)

def liveLines (s : State) (u : Subscription) : List Line := (queued s u).filterMap (lineOf s.posted)

def currentWork : Reader → List Work
  | .replaying _ _ _ work => work
  | _ => []

def headLines : List Work → List Line
  | .lines _ es::_ => es.map LogEntry.line
  | _ => []

def workName (rings : List Ring) : Work → Option String
  | .session n => some n
  | .clone r => rings[r]?.map Ring.session
  | .lines _ _ => none
  | .every => none

def covers (topics : List String) (name : String) : Prop :=
  ∀ stream text,topicMatches (.new (.log name stream text)) topics=true

structure ShotOk (s : State) (u : Subscription) (x : Shot) : Prop where
  ring : ∃ ring,s.rings[x.ring]?=some ring ∧ ring.session=x.session
  covered : covers u.topics x.session
  before : ∀ l∈x.lines,l∈postedLines (s.posted.take u.openedAt)
  own : ∀ l∈x.lines,l.ring=x.ring
  ascending : x.lines.Pairwise fun a b => a.serial<b.serial
  upTo : ∀ l∈postedLines (s.posted.take u.openedAt),l.serial<x.upTo

/-- What is left to replay: all sessions, or some that were not replayed yet,
with at most the first one begun. -/
structure WorkOk (rings : List Ring) (u : Subscription) (work : List Work) : Prop where
  begun : ∀ w∈work.tail,∃ n,w=.session n
  named : .every∉work
  distinct : (u.shots.map Shot.session++work.filterMap (workName rings)).Nodup
  covered : ∀ n∈work.filterMap (workName rings),covers u.topics n
  found : ∀ r,.clone r∈work → ∃ ring,rings[r]?=some ring

def Planned (rings : List Ring) (u : Subscription) (work : List Work) : Prop :=
  WorkOk rings u work ∨ work=[.every] ∧ u.shots=[] ∧ "logs" ∈ u.topics

structure Kept (s : State) (u : Subscription) : Prop where
  shots : ∀ x∈u.shots,ShotOk s u x
  lines : (replayed s u++headLines (currentWork s.reader)).Sublist (u.shots.flatMap Shot.lines)
  whole : s.writer≠.closed →
    replayed s u++headLines (currentWork s.reader)=u.shots.flatMap Shot.lines
  order : arrived s u=replayed s u++liveLines s u
  work : Planned s.rings u (currentWork s.reader)

def Inv (s : State) : Prop := ∀ u,s.sub=some u → s.reader.isClosed=false → Kept s u

/-! #### Keeping it -/

theorem Inv.of_closed (hr : t.reader=.closed) : Inv t := by
  intro u _ hc
  rw [hr] at hc
  cases hc

theorem postedLines_take {qs : List Posted} {n : Nat} (hp : ps <+: qs) (hn : n≤ps.length) :
    postedLines (qs.take n)=postedLines (ps.take n) := by
  obtain ⟨extra,rfl⟩ := hp
  rw [take_append_of_le_length hn]

theorem ShotOk.keep (h : ShotOk s u x) (hopen : u.openedAt ≤ s.posted.length) (hp : s.posted <+: t.posted)
    (hr : RingsKept s.rings t.rings) : ShotOk t u x := by
  obtain ⟨⟨ring,h1,h2⟩,x2,x3,x4,x5,x6⟩ := h
  obtain ⟨ring',h1',h2'⟩ := hr _ _ h1
  have hl:=postedLines_take hp hopen
  exact ⟨⟨ring',h1',h2'.trans h2⟩,x2,by rw [hl]; exact x3,x4,x5,by rw [hl]; exact x6⟩

theorem WorkOk.keep {rs' : List Ring} (h : WorkOk rs u work) (hr : RingsKept rs rs') : WorkOk rs' u work := by
  have hn : work.filterMap (workName rs')=work.filterMap (workName rs) := by
    refine filterMap_congr fun w hw => ?_
    cases w with
    | clone r =>
      obtain ⟨ring,hring⟩ := h.found r hw
      obtain ⟨ring',hring',hses⟩ := hr r ring hring
      simp [workName,hring,hring',hses]
    | _ => rfl
  refine ⟨h.begun,h.named,by rw [hn]; exact h.distinct,by rw [hn]; exact h.covered,fun r hm => ?_⟩
  obtain ⟨ring,hring⟩ := h.found r hm
  obtain ⟨ring',hring',-⟩ := hr r ring hring
  exact ⟨ring',hring'⟩

theorem lineOf_grow {qs : List Posted} (hp : ps <+: qs) (hi : isLive i=true → i∈passed u ps) :
    lineOf qs i=lineOf ps i := by
  obtain ⟨extra,rfl⟩ := hp
  unfold lineOf
  cases ho : i.origin with
  | live n =>
    obtain ⟨m,p,hm,rfl⟩ := mem_passed (hi (by simp [isLive,ho]))
    obtain rfl : m=n := Origin.live.inj ho
    show (ps++extra)[m]?.bind _=ps[m]?.bind _
    rw [List.getElem?_append_left (List.getElem?_eq_some_iff.mp hm).1]
  | _ => rfl

/-- The work may have gone on to its next part, or was given up with the writer. -/
theorem Kept.turn (h : Kept s u) (hcur : Current s u) (hs : t.sent=s.sent) (hp : s.posted <+: t.posted)
    (hr : RingsKept s.rings t.rings) (hw : t.writer≠.closed → s.writer≠.closed)
    (hl : headLines (currentWork t.reader)=headLines (currentWork s.reader) ∨
      s.writer=.closed ∧ headLines (currentWork t.reader)=[])
    (hk : Planned t.rings u (currentWork t.reader)) : Kept t u := by
  have hline (i : Item) (hi : i∈s.sent.drop u.sentAt) : lineOf t.posted i=lineOf s.posted i :=
    lineOf_grow hp fun hl => hcur.inOrder.subset (mem_filter.mpr ⟨hi,hl⟩)
  have h1 : replayed t u=replayed s u := by simp only [replayed,hs]
  have h2 : arrived t u=arrived s u := by
    simp only [arrived,hs]
    exact filterMap_congr hline
  have h3 : liveLines t u=liveLines s u := by
    simp only [liveLines,queued,hs]
    exact filterMap_congr fun i hi => hline i (mem_filter.mp hi).1
  refine ⟨fun x hx => (h.shots x hx).keep hcur.opened hp hr,?_,fun hne => ?_,
    by rw [h1,h2,h3]; exact h.order,hk⟩
  · rw [h1]
    rcases hl with hl | ⟨-,hl⟩
    · rw [hl]
      exact h.lines
    · rw [hl,append_nil]
      exact (sublist_append_left _ _).trans h.lines
  · rcases hl with hl | ⟨hcl,-⟩
    · rw [h1,hl]
      exact h.whole (hw hne)
    · exact absurd hcl (hw hne)

theorem Inv.keep (hi : Inv s) (he : EventStream.Inv s) (hsub : t.sub=s.sub)
    (hcl : t.reader.isClosed=s.reader.isClosed) (hs : t.sent=s.sent) (hp : s.posted <+: t.posted)
    (hr : RingsKept s.rings t.rings) (hw : t.writer≠.closed → s.writer≠.closed)
    (hc : currentWork t.reader=currentWork s.reader) : Inv t := by
  intro u hu hopen
  have h:=hi u (hsub ▸ hu) (hcl ▸ hopen)
  refine h.turn (he.current u (hsub ▸ hu) (hcl ▸ hopen)) hs hp hr hw (.inl (by rw [hc])) ?_
  rw [hc]
  exact h.work.imp (fun hk => hk.keep hr) id

theorem Inv.same (hi : Inv s) (he : EventStream.Inv s) (hsub : t.sub=s.sub)
    (hr : t.reader=s.reader) (hs : t.sent=s.sent) (hp : t.posted=s.posted)
    (hrs : t.rings=s.rings) (hw : t.writer≠.closed → s.writer≠.closed) : Inv t :=
  hi.keep he hsub (by rw [hr]) hs (hp ▸ prefix_refl _) (hrs ▸ .refl _) hw (by rw [hr])

theorem Inv.world (hi : Inv s) (he : EventStream.Inv s) (h : WorldStep s t) : Inv t := by
  have ha:=h.around
  exact hi.keep he ha.sub (by rw [ha.reader]) ha.sent ha.posted ha.rings (by rw [ha.writer]; exact id)
    (by rw [ha.reader])

/-! #### Queueing a message -/

section
variable {i : Item} (hcur : u.sentAt ≤ s.sent.length) (hs : t.sent=s.sent++[i]) (hp : t.posted=s.posted)
include hcur hs

theorem replayed_queue : replayed t u=replayed s u++(replayLine i).toList := by
  unfold replayed
  rw [hs,drop_append_of_le_length hcur,filterMap_append]
  cases hi : replayLine i <;> simp [hi]

include hp

theorem arrived_queue : arrived t u=arrived s u++(lineOf s.posted i).toList := by
  unfold arrived
  rw [hs,hp,drop_append_of_le_length hcur,filterMap_append]
  cases hi : lineOf s.posted i <;> simp [hi]

theorem liveLines_queue : liveLines t u=liveLines s u++if isLive i then (lineOf s.posted i).toList else [] := by
  unfold liveLines queued
  rw [hs,hp,drop_append_of_le_length hcur,filter_append,filterMap_append]
  cases hl : isLive i
  · simp [hl]
  · cases hi : lineOf s.posted i <;> simp [hl,hi]

end

theorem Kept.queue (h : Kept s u) (hcur : Current s u) (hs : t.sent=s.sent++[i]) (hp : t.posted=s.posted)
    (hr : t.rings=s.rings) (hw : t.writer=s.writer) (hc : currentWork t.reader=currentWork s.reader)
    (hi : replayLine i=none) (hl : isLive i=false → lineOf s.posted i=none) : Kept t u := by
  have h1 : replayed t u=replayed s u := by
    rw [replayed_queue hcur.sent hs,hi]
    exact append_nil _
  refine ⟨fun x hx => (h.shots x hx).keep hcur.opened (hp ▸ prefix_refl _) (hr ▸ .refl _),
    by rw [h1,hc]; exact h.lines,by rw [h1,hc,hw]; exact h.whole,?_,by rw [hr,hc]; exact h.work⟩
  rw [arrived_queue hcur.sent hs hp,liveLines_queue hcur.sent hs hp,h1,h.order,append_assoc]
  cases hlive : isLive i
  · rw [hl hlive]
    rfl
  · rfl

/-! #### Steps of the replay -/

theorem headLines_sessions (h : ∀ w∈work,∃ n,w=.session n) : headLines work=[] := by
  cases work with
  | nil => rfl
  | cons w =>
    obtain ⟨n,rfl⟩ := h w mem_cons_self
    rfl

theorem WorkOk.tail (h : WorkOk rs u (w::rest)) : WorkOk rs u rest := by
  have hsub : (rest.filterMap (workName rs)).Sublist ((w::rest).filterMap (workName rs)) :=
    (sublist_cons_self w rest).filterMap _
  exact ⟨fun v hv => h.begun v (mem_of_mem_tail hv),fun hm => h.named (mem_cons_of_mem _ hm),
    h.distinct.sublist ((List.Sublist.refl _).append hsub),fun n hn => h.covered n (hsub.subset hn),
    fun r hm => h.found r (mem_cons_of_mem _ hm)⟩

theorem WorkOk.head {w' : Work} (h : WorkOk rs u (w::rest)) (hne : .every≠w')
    (hn : workName rs w'=workName rs w) (hf : ∀ r,.clone r=w' → ∃ ring,rs[r]?=some ring) :
    WorkOk rs u (w'::rest) := by
  have hnames : (w'::rest).filterMap (workName rs)=(w::rest).filterMap (workName rs) := by
    rw [filterMap_cons,filterMap_cons,hn]
  refine ⟨h.begun,fun hm => ?_,by rw [hnames]; exact h.distinct,by rw [hnames]; exact h.covered,
    fun r hm => ?_⟩
  · rcases mem_cons.mp hm with he | hm
    · exact hne he
    · exact h.named (mem_cons_of_mem _ hm)
  · rcases mem_cons.mp hm with he | hm
    · exact hf r he
    · exact h.found r (mem_cons_of_mem _ hm)

theorem WorkOk.shoot {r : Nat} {ring : Ring} {es : List LogEntry} (h : WorkOk rs u (.clone r::rest))
    (hr : rs[r]?=some ring) (hx : x.session=ring.session) :
    WorkOk rs (u.shoot x) (.lines ring.session es::rest) := by
  have hname : (.clone r::rest : List Work).filterMap (workName rs) =
      ring.session::rest.filterMap (workName rs) := by
    rw [filterMap_cons]
    simp [workName,hr]
  obtain ⟨h1,h2,h3,h4,h5⟩ := h
  rw [hname] at h3 h4
  refine ⟨h1,fun hm => ?_,?_,fun n hn => h4 n (mem_cons_of_mem _ hn),fun r' hm => ?_⟩
  · rcases mem_cons.mp hm with he | hm
    · cases he
    · exact h2 (mem_cons_of_mem _ hm)
  · show ((u.shots++[x]).map Shot.session++rest.filterMap (workName rs)).Nodup
    rw [map_append,map_singleton,hx,append_assoc]
    exact h3
  · rcases mem_cons.mp hm with he | hm
    · cases he
    · exact h5 r' (mem_cons_of_mem _ hm)

theorem WorkOk.of_sessions {names : List String} (hs : u.shots=[]) (hn : names.Nodup)
    (hc : ∀ n∈names,covers u.topics n) : WorkOk rs u (names.map .session) := by
  have hnames : (names.map Work.session).filterMap (workName rs)=names := by
    rw [filterMap_map]
    exact filterMap_some
  refine ⟨fun w hw => ?_,fun hm => ?_,by rw [hnames,hs]; exact hn,by rw [hnames]; exact hc,fun r hm => ?_⟩
  · obtain ⟨n,-,rfl⟩ := mem_map.mp (mem_of_mem_tail hw)
    exact ⟨n,rfl⟩
  · obtain ⟨n,-,he⟩ := mem_map.mp hm
    cases he
  · obtain ⟨n,-,he⟩ := mem_map.mp hm
    cases he

theorem mem_workOf {topic : String} (h : w∈workOf topic) :
    (∃ n,stripPrefix "logs:" topic=some n ∧ w=.session n) ∨ topic = "logs" ∧ w=.every := by
  rcases mem_append.mp h with h | h
  · split at h
    next n hn => exact .inl ⟨n,hn,mem_singleton.mp h⟩
    · cases h
  · split at h
    next ht => exact .inr ⟨ht,mem_singleton.mp h⟩
    · cases h

theorem planned_topics (hs : u.shots=[]) (h : Distinct (u.topics.flatMap workOf)) :
    Planned rs u (u.topics.flatMap workOf) ∧ headLines (u.topics.flatMap workOf)=[] := by
  by_cases hev : .every∈u.topics.flatMap workOf
  · rw [h.2 hev]
    obtain ⟨topic,ht,hw⟩ := mem_flatMap.mp hev
    rcases mem_workOf hw with ⟨n,-,he⟩ | ⟨rfl,-⟩
    · cases he
    · exact ⟨.inr ⟨rfl,hs,ht⟩,rfl⟩
  · have hses : ∀ w∈u.topics.flatMap workOf,∃ n,w=.session n := by
      intro w hw
      obtain ⟨topic,ht,hw'⟩ := mem_flatMap.mp hw
      rcases mem_workOf hw' with ⟨n,-,rfl⟩ | ⟨-,rfl⟩
      · exact ⟨n,rfl⟩
      · exact absurd hw hev
    refine ⟨.inl ?_,headLines_sessions hses⟩
    obtain ⟨names,hnames⟩ : ∃ names : List String,u.topics.flatMap workOf=names.map .session := by
      refine ⟨(u.topics.flatMap workOf).filterMap (workName []),?_⟩
      rw [map_filterMap]
      refine (filterMap_some.symm.trans (filterMap_congr fun w hw => ?_))
      obtain ⟨n,rfl⟩ := hses w hw
      rfl
    rw [hnames]
    refine .of_sessions hs (List.Nodup.of_map Work.session (hnames ▸ h.1)) fun n hn => ?_
    have hmem : .session n∈u.topics.flatMap workOf := hnames ▸ mem_map_of_mem hn
    obtain ⟨topic,ht,hw⟩ := mem_flatMap.mp hmem
    rcases mem_workOf hw with ⟨m,hm,he⟩ | ⟨-,he⟩
    · cases he
      exact fun _ _ => topicMatches_log ht (.inr hm)
    · cases he

theorem Inv.subscribe (hok : Careful s .subscribe) (hr : s.reader=.subscribing id topics) :
    Inv (s.resubscribe id topics) := by
  intro u hu _
  obtain rfl : _=u := Option.some.inj hu
  obtain ⟨hplan,hhead⟩ := @planned_topics ⟨topics,s.posted.length,s.sent.length,[]⟩ s.rings rfl
    (by simpa [Careful,hr] using hok.2)
  have hdrop : s.sent.drop s.sent.length=[] := drop_length
  have h1 : (s.sent.drop s.sent.length).filterMap replayLine=[] := by rw [hdrop]; rfl
  refine ⟨nofun,?_,fun _ => ?_,?_,hplan⟩
  · show ((s.sent.drop s.sent.length).filterMap replayLine++headLines (topics.flatMap workOf)).Sublist []
    rw [h1,hhead]
    exact List.Sublist.refl _
  · show (s.sent.drop s.sent.length).filterMap replayLine++headLines (topics.flatMap workOf)=[]
    rw [h1,hhead]
    rfl
  · show (s.sent.drop s.sent.length).filterMap (lineOf s.posted) =
      (s.sent.drop s.sent.length).filterMap replayLine ++
        ((s.sent.drop s.sent.length).filter isLive).filterMap (lineOf s.posted)
    rw [hdrop]
    rfl

/-- During the replay nothing live has been queued, and the receiver stands
where it was opened. -/
theorem current_replaying (h : Current s u) (hr : s.reader=.replaying id topics rx work) :
    topics=u.topics ∧ rx=u.openedAt ∧ queued s u=[] := by
  rcases h.mode with hm | ⟨k,f,hm⟩
  · obtain ⟨id',w,hrd⟩ := hm.reader
    rw [hr] at hrd
    injection hrd with h1 h2 h3 h4
    exact ⟨h2,h3,hm.queued⟩
  · have := hm.reader
    rw [hr] at this
    cases this

theorem Kept.clone {r : Nat} {ring : Ring} (h : Kept s u) (hcur : Current s u) (hk : Known s)
    (hrd : s.reader=.replaying id topics rx (.clone r::rest)) (hr : s.rings[r]?=some ring)
    (hset : ∀ e∈ring.entries,e.line∈postedLines (s.posted.take rx)) (hw : WorkOk s.rings u (.clone r::rest)) :
    Kept (s.cloneRing id topics rx r ring rest)
      (u.shoot ⟨ring.session,r,ring.entries.map LogEntry.line,s.produced.length⟩) := by
  obtain ⟨-,hrx,-⟩ := current_replaying hcur hrd
  have hhead : headLines (currentWork s.reader)=[] := by rw [hrd]; rfl
  have hl:=h.lines
  have hwh:=h.whole
  rw [hhead,append_nil] at hl hwh
  have hflat : (u.shots++[(⟨ring.session,r,ring.entries.map LogEntry.line,s.produced.length⟩ : Shot)]).flatMap
      Shot.lines=u.shots.flatMap Shot.lines++ring.entries.map LogEntry.line := by simp
  refine ⟨fun x hx => ?_,?_,fun hne => ?_,h.order,.inl (hw.shoot hr rfl)⟩
  · rcases mem_append.mp hx with hx | hx
    · obtain ⟨x1,x2,x3,x4,x5,x6⟩ := h.shots x hx
      exact ⟨x1,x2,x3,x4,x5,x6⟩
    · obtain rfl := mem_singleton.mp hx
      have hname : ring.session∈(.clone r::rest : List Work).filterMap (workName s.rings) :=
        mem_filterMap.mpr ⟨.clone r,mem_cons_self,by simp [workName,hr]⟩
      refine ⟨⟨ring,hr,rfl⟩,hw.covered _ hname,fun l hl => ?_,fun l hl => ?_,(hk.rings r ring hr).ascending,
        fun l hl => ?_⟩
      · obtain ⟨e,he,rfl⟩ := mem_map.mp hl
        exact hrx ▸ hset e he
      · obtain ⟨e,he,rfl⟩ := mem_map.mp hl
        exact ((hk.rings r ring hr).own e he).2
      · obtain ⟨p,hp,hpl⟩ := mem_postedLines.mp hl
        exact hk.serial l (hk.posted p (mem_of_mem_take hp) l hpl).produced
  · show (replayed s u++ring.entries.map LogEntry.line).Sublist ((u.shots++[_]).flatMap Shot.lines)
    rw [hflat]
    exact hl.append (List.Sublist.refl _)
  · show replayed s u++ring.entries.map LogEntry.line=(u.shots++[_]).flatMap Shot.lines
    rw [hflat,hwh hne]

theorem Kept.line {session : String} {e : LogEntry} {es : List LogEntry} (h : Kept s u) (hcur : Current s u)
    (hrd : s.reader=.replaying id topics rx (.lines session (e::es)::rest))
    (hrd' : t.reader=.replaying id topics rx (.lines session es::rest))
    (hs : t.sent=s.sent++[lineItem session e]) (hp : t.posted=s.posted) (hr : t.rings=s.rings)
    (hw : t.writer=s.writer) (hk : WorkOk s.rings u (.lines session (e::es)::rest)) : Kept t u := by
  obtain ⟨-,-,hq⟩ := current_replaying hcur hrd
  have hlive : liveLines s u=[] := by
    rw [liveLines,hq]
    rfl
  have h1 : replayed t u++headLines (currentWork t.reader) =
      replayed s u++headLines (currentWork s.reader) := by
    rw [replayed_queue hcur.sent hs,hrd,hrd',append_assoc]
    rfl
  refine ⟨fun x hx => (h.shots x hx).keep hcur.opened (hp ▸ prefix_refl _) (hr ▸ .refl _),
    by rw [h1]; exact h.lines,by rw [h1,hw]; exact h.whole,?_,?_⟩
  · rw [arrived_queue hcur.sent hs hp,replayed_queue hcur.sent hs,liveLines_queue hcur.sent hs hp,h.order,hlive]
    simp [lineItem,lineOf,replayLine,isLive]
  · rw [hrd',hr]
    exact .inl (hk.head nofun rfl nofun)

theorem Inv.replay (hi : Inv s) (he : EventStream.Inv s) (hk : Known s) (hok : Careful s .replay)
    (hr : s.reader=.replaying id topics rx (w::rest)) (hc : Replayed s id topics rx rest w t) : Inv t := by
  have hopen : s.reader.isClosed=false := by rw [hr]; rfl
  have hwork : currentWork s.reader=w::rest := by rw [hr]; rfl
  -- the work of a running replay is a list of sessions, the first of them begun
  have hplan (u : Subscription) (hu : s.sub=some u) (hne : w≠.every) : WorkOk s.rings u (w::rest) := by
    rcases hwork ▸ (hi u hu hopen).work with hw | ⟨hev,-,-⟩
    · exact hw
    · exact absurd (List.cons.inj hev).1 hne
  have hrest (u : Subscription) (hw : WorkOk s.rings u (w::rest)) : headLines rest=[] :=
    headLines_sessions fun v hv => hw.begun v hv
  cases hc with
  | found name r hl =>
    intro u hu _
    obtain ⟨ring,hring,hses⟩ := hk.sessions name r (mem_of_lookup hl)
    refine (hi u hu hopen).turn (he.current u hu hopen) rfl (prefix_refl _) (.refl _) (fun h => h)
      (.inl (by rw [hwork]; rfl)) (.inl ((hplan u hu nofun).head nofun ?_ fun r' he => ?_))
    · simp [workName,hring,hses]
    · exact Work.clone.inj he ▸ ⟨ring,hring⟩
  | absent =>
    intro u hu _
    have hw:=hplan u hu nofun
    refine (hi u hu hopen).turn (he.current u hu hopen) rfl (prefix_refl _) (.refl _) (fun h => h) (.inl ?_)
      (.inl hw.tail)
    rw [hwork]
    exact hrest u hw
  | clone r ring hring =>
    intro v hv _
    obtain ⟨u,hu,rfl⟩ := Option.map_eq_some_iff.mp hv
    have hsettled : ∀ e∈ring.entries,e.line∈postedLines (s.posted.take rx) := by
      simpa [hr,hring] using hok.2
    exact (hi u hu hopen).clone (he.current u hu hopen) hk hr hring hsettled (hplan u hu nofun)
  | through session es ho =>
    intro u hu _
    have hw:=hplan u hu nofun
    refine (hi u hu hopen).turn (he.current u hu hopen) rfl (prefix_refl _) (.refl _) (fun h => h) ?_ (.inl hw.tail)
    rcases ho with rfl | ho
    · rw [hwork]
      exact .inl (hrest u hw)
    · exact .inr ⟨ho,hrest u hw⟩
  | line =>
    intro u hu _
    exact (hi u hu hopen).line (he.current u hu hopen) hr rfl rfl rfl rfl rfl (hplan u hu nofun)

theorem Inv.list {order : List String} (hi : Inv s) (he : EventStream.Inv s) (hk : Known s)
    (hr : s.reader=.replaying id topics rx (.every::rest)) (hperm : order.Perm (s.sessions.map Prod.fst)) :
    Inv {s.executed .list with reader := .replaying id topics rx (order.map .session++rest)} := by
  have hopen : s.reader.isClosed=false := by rw [hr]; rfl
  have hwork : currentWork s.reader=.every::rest := by rw [hr]; rfl
  intro u hu _
  rcases hwork ▸ (hi u hu hopen).work with hw | ⟨hev,hshots,hlogs⟩
  · exact absurd mem_cons_self hw.named
  · obtain rfl : rest=[] := (List.cons.inj hev).2
    refine (hi u hu hopen).turn (he.current u hu hopen) rfl (prefix_refl _) (.refl _) (fun h => h) (.inl ?_)
      (.inl ?_)
    · rw [hwork]
      refine headLines_sessions fun w hw => ?_
      obtain ⟨n,-,rfl⟩ := mem_map.mp (append_nil (order.map Work.session) ▸ hw)
      exact ⟨n,rfl⟩
    · show WorkOk s.rings u (order.map .session++[])
      rw [append_nil]
      exact .of_sessions hshots (hperm.nodup_iff.mpr hk.names) fun n _ _ _ => topicMatches_log hlogs (.inl rfl)

/-! #### All steps -/

theorem currentWork_dispatched (r : Request) : currentWork (dispatched r)=[] := by
  unfold dispatched
  split <;> rfl

theorem Inv.handle {req : Request} {rest : List UInt8} (hi : Inv s) (he : EventStream.Inv s)
    (hr : s.reader=.reading) :
    Inv (handleRequest c req {s with unread := rest, requests := s.requests++[req]}) := by
  unfold handleRequest
  split
  · exact hi.keep he rfl (by rw [hr,(dispatched_open req).1]; rfl) rfl (prefix_refl _) (.refl _) id
      (by rw [hr,currentWork_dispatched]; rfl)
  · exact hi.keep he rfl (by rw [hr]; rfl) rfl (prefix_refl _) (.refl _) id (by rw [hr]; rfl)

theorem inv_step (he : EventStream.Inv s) (hk : Known s) (hh : Hands s.forwarders) (hi : Inv s)
    (hok : Careful s a) (h : step c s a=some t) : Inv t := by
  cases step_cases h with
  | arrive | finish | poll | lagged | unsent | cancel => exact hi.same he rfl rfl rfl rfl rfl id
  | world _ _ _ _ _ ha => exact hi.world he (outside_world ha h)
  | request frame rest req hr => exact hi.handle he hr
  | operate _ _ _ _ hr | spawnForwarder _ _ _ hr =>
    exact hi.keep he rfl (by rw [hr]; rfl) rfl (prefix_refl _) (.refl _) (fun hne => hne) (by rw [hr]; rfl)
  | subscribe id topics hr => exact .subscribe hok hr
  | replay id topics rx w rest hr hc => exact hi.replay he hk hok hr hc
  | list order id topics rx rest hr hp => exact hi.list he hk hr hp
  | respond r hr =>
    intro u hu _
    have hopen : s.reader.isClosed=false := by rw [hr]; rfl
    exact (hi u hu hopen).queue (he.current u hu hopen) rfl rfl rfl rfl (by rw [hr]; rfl) rfl fun _ => rfl
  | forward k f i hf hhand =>
    intro u hu hopen
    obtain ⟨e,n,rfl⟩ := hh f i (mem_of_getElem? hf) hhand
    exact (hi u hu hopen).queue (he.current u hu hopen) rfl rfl rfl rfl rfl rfl fun hl => by cases hl
  | take _ _ _ hw | wrote _ _ _ hw | wrotePart _ _ _ hw =>
    exact hi.same he rfl rfl rfl rfl rfl fun _ => by rw [hw]; nofun
  | unencoded | writeError | drained => exact hi.same he rfl rfl rfl rfl rfl fun hne => absurd rfl hne
  | _ => exact .of_closed rfl

theorem inv_reach (hr : Reach (step c) Careful init s) : Inv s :=
  hr.invariant (fun _ hu _ => by cases hu) fun hu hi ha hs =>
    inv_step (EventStream.inv_reach (fun _ _ => And.left) hu) (known_reach hu.free)
      (RequestResponse.inv_reach hu.free).hands hi ha hs

/-! ### Exact replay -/

instance : Decidable (Careful s a) := by
  unfold Careful
  repeat' split
  all_goals infer_instance

end Waymux.Server.LogReplay
