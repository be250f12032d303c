import Mathlib.Algebra.GroupWithZero.Nat
import Waymux.Server.EventStream

/-!
# The end of a connection

The forwarders the reader aborted, the frames in the queue and the writer.
-/

namespace Waymux.Server.ConnectionEnd
open Framing.LengthPrefix Wire.FrameCodec Messages Connection ConnectionCases RequestResponse EventStream
open Interleave.Runs

variable {c : Coders} {s t : State} {a : Act}

def NoneRuns (s : State) : Prop := ∀ f∈s.forwarders,f.status≠.running

/- `read_frame` fails on what there is: the length is over the limit, or the
input ends inside the payload. -/
def readFails (s : State) : Bool :=
  match scan maxFrameSize s.unread with
  | .whole _ _ => false
  | .tooLong _ => true
  | .short => s.eof && 4 ≤ s.unread.length

/-- The reader does not leave by an error while a forwarder runs, and a
forwarder that it has aborted sends nothing after it. -/
def Orderly (s : State) : Act → Prop
  | .read => readFails s=true → NoneRuns s
  | .readError => NoneRuns s
  | .forward k => s.reader.isClosed=true → ∀ f∈s.forwarders[k]?,f.status≠.aborted
  | _ => True

def closes : Act → Bool
  | .cancel _ | .take | .write _ | .drained => true
  | _ => false

def itemWork (c : Coders) (i : Item) : Nat := 1+((frameOf c i).getD []).length

def writerWork : Writer → Nat
  | .idle => 1
  | .writing _ left => 1+left.length
  | .closed => 0

def remaining (c : Coders) (s : State) : Nat :=
  s.forwarders.countP (·.status=.aborted)+writerWork s.writer+(s.queue.map (itemWork c)).sum

structure TornDown (c : Coders) (s : State) : Prop where
  stopped : NoneRuns s
  /-- nothing is queued any more, and what is written was queued by now -/
  silent : ∀ t,Reach (step c) Orderly s t → t.sent=s.sent ∧ t.written <+: s.sent
  /-- the writer is never stuck -/
  goesOn : s.writer≠.closed → ∃ a t,closes a=true ∧ Orderly s a ∧ step c s a=some t
  nearer : ∀ a t,Orderly s a → step c s a=some t →
    remaining c t≤remaining c s ∧ (closes a=true → remaining c t<remaining c s)
  /-- what was queued has been written when the writer ends, unless a write or an encoding fails -/
  whole : s.writer≠.closed → (∀ i∈s.queue,(frameOf c i).isSome=true) →
    ∀ t,Reach (step c) (fun u a => Orderly u a ∧ a≠.writeError) s t → t.writer=.closed → t.written=s.sent

structure Led (s : State) : Prop where
  one : OneRuns s.handle s.forwarders
  free : isReplaying s.reader=true → s.handle=none
  ended : s.reader.isClosed=true → NoneRuns s

theorem led_init : Led init := by
  refine ⟨fun k f hf => ?_,nofun,nofun⟩
  cases hf

variable {fs : List Forwarder} {k : Nat} {f g : Forwarder}

theorem OneRuns.none (h : OneRuns none fs) : ∀ f∈fs,f.status≠.running := by
  intro f hf hrun
  obtain ⟨k,hk⟩ := List.mem_iff_getElem?.mp hf
  cases h k f hk hrun

theorem Led.hangUp (hi : Led s) : Led s.hangUp :=
  ⟨hi.one.abort,nofun,fun _ => OneRuns.none hi.one.abort⟩

theorem Led.keep (hi : Led s) (hh : t.handle=s.handle) (hf : t.forwarders=s.forwarders)
    (hr : isReplaying t.reader=true → isReplaying s.reader=true)
    (hc : t.reader.isClosed=true → s.reader.isClosed=true) : Led t :=
  ⟨hh ▸ hf ▸ hi.one,fun h => hh.trans (hi.free (hr h)),fun h => by
    unfold NoneRuns
    rw [hf]
    exact hi.ended (hc h)⟩

theorem Led.closed (hi : Led s) (hn : NoneRuns s) : Led {s with reader := .closed} :=
  ⟨hi.one,nofun,fun _ => hn⟩

theorem handleRequest_led (r : Request) (s : State) :
    (handleRequest c r s).handle=s.handle ∧ (handleRequest c r s).forwarders=s.forwarders ∧
      isReplaying (handleRequest c r s).reader=false ∧ (handleRequest c r s).reader.isClosed=false := by
  unfold handleRequest
  split
  · obtain ⟨h1,h2⟩ := dispatched_open r
    exact ⟨rfl,rfl,h2,h1⟩
  · exact ⟨rfl,rfl,rfl,rfl⟩

theorem Led.spawn {id rx : Nat} {topics : List String} {r : Response} (hi : Led s)
    (hr : s.reader=.replaying id topics rx []) : Led (s.spawn topics rx r) := by
  have hnone : s.handle=none := hi.free (by rw [hr]; rfl)
  refine ⟨fun k f hf hrun => ?_,nofun,nofun⟩
  -- nothing ran while the rings were replayed
  rcases Nat.lt_trichotomy k s.forwarders.length with hlt | rfl | hgt
  · rw [List.getElem?_append_left hlt] at hf
    rw [hi.one k f hf hrun] at hnone
    cases hnone
  · rfl
  · rw [List.getElem?_eq_none (by simp; omega)] at hf
    cases hf

theorem Led.set (hi : Led s) (hf : s.forwarders[k]?=some f) (hg : g.status=.running → f.status=.running) :
    Led (s.setForwarder k g) := by
  refine ⟨hi.one.set hf hg,hi.free,fun hc f' hf' hrun => ?_⟩
  rcases List.mem_or_eq_of_mem_set hf' with hm | rfl
  · exact hi.ended hc f' hm hrun
  · exact hi.ended hc f (List.mem_of_getElem? hf) (hg hrun)

theorem led_step (hi : Led s) (hok : Orderly s a) (h : step c s a=some t) : Led t := by
  cases step_cases h with
  | request frame rest req =>
    obtain ⟨hh,hf,hrep,hcl⟩ := handleRequest_led (c := c) req
      {s with unread := rest, requests := s.requests++[req]}
    exact hi.keep hh hf (fun h => by rw [hrep] at h; cases h) (fun h => by rw [hcl] at h; cases h)
  | undecoded => exact Led.hangUp (hi.keep rfl rfl id id)
  | eof | unanswered => exact hi.hangUp
  | tooLong n _ hs => exact hi.closed (hok (by simp [readFails,hs]))
  | cut _ hs he hl => exact hi.closed (hok (by simp [readFails,hs,he,hl]))
  | readError => exact hi.closed hok
  | operate | respond => exact hi.keep rfl rfl nofun nofun
  | subscribe => exact ⟨hi.one.abort,fun _ => rfl,nofun⟩
  | replay id topics rx w rest hr hc =>
    have hrep : isReplaying s.reader=true := by rw [hr]; rfl
    cases hc <;> exact hi.keep rfl rfl (fun _ => hrep) nofun
  | list order id topics rx rest hr => exact hi.keep rfl rfl (fun _ => by rw [hr]; rfl) nofun
  | spawnForwarder id topics rx hr => exact hi.spawn hr
  | poll k f p hf => exact hi.set hf id
  | lagged k f hf | unsent k f _ hf | cancel k f hf => exact hi.set hf nofun
  | forward k f i hf => exact Led.set (hi.keep rfl rfl id id) hf id
  | _ => exact hi.keep rfl rfl id id

/-- The aborted forwarders end, the writer works off the queue, and the world around goes on. -/
inductive After (c : Coders) (s : State) : Act → State → Prop
  | around {a : Act} {t : State} (ha : closes a=false) (hr : t.reader=s.reader)
      (hf : t.forwarders=s.forwarders) (hq : t.queue=s.queue) (hw : t.writer=s.writer)
      (hs : t.sent=s.sent) (ht : t.written=s.written) : After c s a t
  | polled (k : Nat) (f g : Forwarder) (hf : s.forwarders[k]?=some f)
      (hg : g.status=.aborted → f.status=.aborted) : After c s (.poll k) (s.setForwarder k g)
  | cancelled (k : Nat) (f : Forwarder) (hf : s.forwarders[k]?=some f) (hs : f.status=.aborted) :
      After c s (.cancel k) (s.setForwarder k {f with status := .ended, hand := none})
  | taken (i : Item) (rest : List Item) (frame : Bytes) (hw : s.writer=.idle) (hq : s.queue=i::rest)
      (hf : frameOf c i=some frame) : After c s .take {s with queue := rest, writer := .writing i frame}
  | unencoded (i : Item) (rest : List Item) (hw : s.writer=.idle) (hq : s.queue=i::rest)
      (hf : frameOf c i=none) : After c s .take {s with queue := [], writer := .closed}
  | wrote (n : Nat) (i : Item) (left : Bytes) (hw : s.writer=.writing i left) (hn : left≠[]) :
      After c s (.write n) {s with wire := s.wire++left, written := s.written++[i], writer := .idle}
  | wrotePart (n : Nat) (i : Item) (left : Bytes) (hw : s.writer=.writing i left) (hn : 0<n)
      (hl : n<left.length) :
      After c s (.write n) {s with wire := s.wire++left.take n, writer := .writing i (left.drop n)}
  | failed : After c s .writeError {s with queue := [], writer := .closed}
  | drained (hw : s.writer=.idle) (hq : s.queue=[]) : After c s .drained {s with writer := .closed}

theorem outside_closes (h : outside a=true) : closes a=false := by
  cases a <;> first | rfl | cases h

theorem after_of_step (hi : Led s) (hc : s.reader=.closed) (hok : Orderly s a) (h : step c s a=some t) :
    After c s a t := by
  cases step_cases h with
  | world _ _ _ _ _ ha => exact .around (outside_closes ha) rfl rfl rfl rfl rfl rfl
  | request _ _ _ hr | undecoded _ _ hr | eof hr | tooLong _ hr | cut hr | readError hr | operate _ _ _ _ hr
  | subscribe _ _ hr | replay _ _ _ _ _ hr | list _ _ _ _ _ hr | spawnForwarder _ _ _ hr | unanswered _ hr
  | respond _ hr =>
    rw [hc] at hr
    cases hr
  | poll k f p hf => exact .polled k f _ hf id
  | lagged k f hf => exact .polled k f _ hf nofun
  | unsent k f i hf _ he | forward k f i hf _ he =>
    -- a forwarder that sends either runs or was aborted
    have hrun:=running_of he (hok (by rw [hc]; rfl) f hf)
    exact absurd hrun (hi.ended (by rw [hc]; rfl) f (List.mem_of_getElem? hf))
  | cancel k f hf hs => exact .cancelled k f hf hs
  | take i rest frame hw hq hf => exact .taken i rest frame hw hq hf
  | unencoded i rest hw hq hf => exact .unencoded i rest hw hq hf
  | wrote n i left hw hn => exact .wrote n i left hw hn
  | wrotePart n i left hw h0 hl => exact .wrotePart n i left hw h0 hl
  | writeError => exact .failed
  | drained hw hq => exact .drained hw hq
  | _ => exact .around rfl rfl rfl rfl rfl rfl rfl

theorem After.same (h : After c s a t) : t.reader=s.reader ∧ t.sent=s.sent := by
  cases h with
  | around ha hr hf hq hw hs => exact ⟨hr,hs⟩
  | _ => exact ⟨rfl,rfl⟩

theorem aborted_set (hf : fs[k]?=some f) (hg : g.status=.aborted → f.status=.aborted) :
    (fs.set k g).countP (·.status=.aborted)≤fs.countP (·.status=.aborted) := by
  obtain ⟨hk,rfl⟩ := List.getElem?_eq_some_iff.mp hf
  rw [List.countP_set hk]
  by_cases ha : fs[k].status=.aborted
  · have hpos : 0<fs.countP (·.status=.aborted) :=
      List.countP_pos_iff.mpr ⟨fs[k],List.getElem_mem hk,by simpa using ha⟩
    by_cases hb : g.status=.aborted <;> simp only [ha,hb,decide_true,decide_false,Bool.false_eq_true,
      if_true,if_false] <;> omega
  · have hb : g.status≠.aborted := fun h => ha (hg h)
    simp [ha,hb]

theorem aborted_cancel (hf : fs[k]?=some f) (ha : f.status=.aborted) (hg : g.status≠.aborted) :
    (fs.set k g).countP (·.status=.aborted)<fs.countP (·.status=.aborted) := by
  obtain ⟨hk,rfl⟩ := List.getElem?_eq_some_iff.mp hf
  have hpos : 0<fs.countP (·.status=.aborted) :=
    List.countP_pos_iff.mpr ⟨fs[k],List.getElem_mem hk,by simpa using ha⟩
  rw [List.countP_set hk]
  simp only [ha,hg,decide_true,decide_false,Bool.false_eq_true,if_true,if_false]
  omega

theorem nearer_of_lt (h : remaining c t<remaining c s) :
    remaining c t≤remaining c s ∧ (closes a=true → remaining c t<remaining c s) :=
  ⟨Nat.le_of_lt h,fun _ => h⟩

theorem After.nearer (h : After c s a t) :
    remaining c t≤remaining c s ∧ (closes a=true → remaining c t<remaining c s) := by
  cases h with
  | around ha hr hf hq hw =>
    refine ⟨?_,fun h => by rw [ha] at h; cases h⟩
    simp [remaining,hf,hq,hw]
  | polled k f g hf hg =>
    have := aborted_set hf hg
    refine ⟨?_,nofun⟩
    simp only [remaining,State.setForwarder]
    omega
  | cancelled k f hf hs =>
    have := aborted_cancel (g := {f with status := .ended, hand := none}) hf hs nofun
    refine nearer_of_lt ?_
    simp only [remaining,State.setForwarder]
    omega
  | taken i rest frame hw hq hf =>
    refine nearer_of_lt ?_
    simp only [remaining,hw,hq,writerWork,List.map_cons,List.sum_cons,itemWork,hf,Option.getD_some]
    omega
  | unencoded i rest hw =>
    refine nearer_of_lt ?_
    simp only [remaining,hw,writerWork,List.map_nil,List.sum_nil]
    omega
  | wrote n i left hw hn =>
    have hpos:=List.length_pos_iff.mpr hn
    refine nearer_of_lt ?_
    simp only [remaining,hw,writerWork]
    omega
  | wrotePart n i left hw =>
    refine nearer_of_lt ?_
    simp only [remaining,hw,writerWork,List.length_drop]
    omega
  | failed =>
    refine ⟨?_,nofun⟩
    simp only [remaining,writerWork,List.map_nil,List.sum_nil]
    omega
  | drained hw =>
    refine nearer_of_lt ?_
    simp only [remaining,hw,writerWork]
    omega

theorem After.encodes (h : After c s a t) (he : ∀ i∈s.queue,(frameOf c i).isSome=true) :
    ∀ i∈t.queue,(frameOf c i).isSome=true := by
  cases h with
  | around ha hr hf hq => rwa [hq]
  | taken i rest frame hw hq => exact fun j hj => he j (hq ▸ List.mem_cons_of_mem i hj)
  | unencoded | failed => nofun
  | _ => exact he

theorem After.whole (h : After c s a t) (hne : a≠.writeError) (hfifo : Fifo s)
    (he : ∀ i∈s.queue,(frameOf c i).isSome=true) (hs : s.writer=.closed → s.written=s.sent) :
    t.writer=.closed → t.written=t.sent := by
  cases h with
  | around ha hr hf hq hw hs' ht => rwa [hw,ht,hs']
  | polled | cancelled => exact hs
  | taken | wrote | wrotePart => nofun
  | unencoded i rest hw hq hf =>
    have hi:=he i (hq ▸ List.mem_cons_self)
    rw [hf] at hi
    cases hi
  | failed => exact absurd rfl hne
  | drained hw hq =>
    have hsent:=hfifo.running (by rw [hw]; nofun)
    rw [hw,hq] at hsent
    exact fun _ => by simpa [inHand] using hsent.symm

theorem orderly_of_closes (h : closes a=true) : Orderly s a := by
  cases a with
  | cancel | take | write | drained => trivial
  | _ => cases h

theorem writer_goesOn (hi : Led s) (hc : s.reader=.closed)
    (hleft : ∀ i left,s.writer=.writing i left → left≠[]) (hopen : s.writer≠.closed) :
    ∃ a,closes a=true ∧ (step c s a).isSome=true := by
  have hnone : NoneRuns s := hi.ended (by rw [hc]; rfl)
  cases hw : s.writer with
  | writing i left =>
    have hne : left.length≠0 := fun h => hleft i left hw (List.length_eq_zero_iff.mp h)
    refine ⟨.write left.length,rfl,?_⟩
    simp [step,write,hw,hne]
  | idle =>
    cases hq : s.queue with
    | cons i =>
      refine ⟨.take,rfl,?_⟩
      cases hf : frameOf c i <;> simp [step,take,hw,hq,hf]
    | nil =>
      by_cases hall : s.forwarders.all (·.status=.ended)=true
      · refine ⟨.drained,rfl,?_⟩
        simp [step,Connection.drained,hw,hq,hc,Reader.isClosed,hall]
      · -- one that has not ended was aborted, and can be cancelled
        simp only [List.all_eq_true,decide_eq_true_eq,not_forall] at hall
        obtain ⟨f,hf,hne⟩ := hall
        obtain ⟨k,hk⟩ := List.mem_iff_getElem?.mp hf
        have hab : f.status=.aborted := by
          cases hst : f.status with
          | running => exact absurd hst (hnone f hf)
          | aborted => rfl
          | ended => exact absurd hst hne
        exact ⟨.cancel k,rfl,by simp [step,cancel,hk,hab]⟩
  | closed => exact absurd hw hopen

theorem isClosed_iff {r : Reader} : r.isClosed=true ↔ r=.closed := by
  cases r <;> simp [Reader.isClosed]

structure Ending (c : Coders) (sent : List Item) (s : State) : Prop where
  led : Led s
  base : RequestResponse.Inv c s
  reader : s.reader=.closed
  sent : s.sent=sent

theorem Ending.step {sent : List Item} (h : Ending c sent s) (hok : Orderly s a) (ha : step c s a=some t) :
    Ending c sent t := by
  obtain ⟨hr,hs⟩ := (after_of_step h.led h.reader hok ha).same
  exact ⟨led_step h.led hok ha,RequestResponse.inv_step h.base ha,hr.trans h.reader,hs.trans h.sent⟩

theorem led_reach (h : Reach (step c) Orderly init s) : Led s :=
  h.keeps led_init led_step

theorem connection_torn_down (h : Reach (step c) Orderly init s) (hclosed : s.reader.isClosed=true) :
    TornDown c s := by
  have hs : Ending c s.sent s :=
    ⟨led_reach h,RequestResponse.inv_reach h.free,isClosed_iff.mp hclosed,rfl⟩
  refine ⟨hs.led.ended hclosed,fun t ht => ?_,fun hopen => ?_,fun a t hok ha => ?_,fun hopen he t ht hw => ?_⟩
  · have ht : Ending c s.sent t := ht.keeps hs fun hi hok ha => hi.step hok ha
    exact ⟨ht.sent,ht.sent ▸ ht.base.fifo.written⟩
  · obtain ⟨part,hwired⟩ := hs.base.wired
    have hleft : ∀ i left,s.writer=.writing i left → left≠[] := by
      intro i left hw
      have hbegun:=hwired.begun
      rw [hw] at hbegun
      exact hbegun.2
    obtain ⟨a,hcl,ha⟩ := writer_goesOn (c := c) hs.led hs.reader hleft hopen
    obtain ⟨t,ht⟩ := Option.isSome_iff_exists.mp ha
    exact ⟨a,t,hcl,orderly_of_closes hcl,ht⟩
  · exact (after_of_step hs.led hs.reader hok ha).nearer
  · have hinv:=ht.keeps (I := fun u => Ending c s.sent u ∧ (∀ i∈u.queue,(frameOf c i).isSome=true) ∧
        (u.writer=.closed → u.written=u.sent)) ⟨hs,he,fun hw => absurd hw hopen⟩ fun {u v a} hi hok ha => by
      have hafter:=after_of_step hi.1.led hi.1.reader hok.1 ha
      exact ⟨hi.1.step hok.1 ha,hafter.encodes hi.2.1,hafter.whole hok.2 hi.1.base.fifo hi.2.1 hi.2.2⟩
    exact (hinv.2.2 hw).trans hinv.1.sent

instance : Decidable (Orderly s a) := by
  unfold Orderly NoneRuns
  rcases a with ⟨⟩ <;> infer_instance

/-- The client hangs up with an event of its subscription still in the queue. -/
theorem connection_torn_down_after_eof : ∃ s,Reach (step coders) Orderly init s ∧ s.reader.isClosed=true ∧
    s.forwarders.map Forwarder.status=[.aborted] ∧ s.queue.length=1 ∧ TornDown coders s := by
  have hr : Reach (step coders) Orderly init _ := reach_exec
    (subscribed++([.append 0 "up",.publish 0,.poll 0,.forward 0,.finish,.read] : List Act))
    (meets_decided (by decide +kernel)) (by decide +kernel)
  refine ⟨_,hr,?_,?_,?_,connection_torn_down hr ?_⟩ <;> decide +kernel

def announcesTooMuch : List Act := subscribed++([.arrive [0xff,0xff,0xff,0xff],.read] : List Act)

def lineUp : Item := ⟨.event (.new (.log "a" "stdout" "up")),.live 0⟩

def oneMoreLine : List Act := [.append 0 "up",.publish 0,.poll 0,.forward 0,.take,.write 9]

theorem served_after_oversized : ∃ s t,Reach (step coders) Free init s ∧ s.reader.isClosed=true ∧
    s.forwarders.map Forwarder.status=[.running] ∧ s.queue=[] ∧ s.writer=.idle ∧
    exec (step coders) s oneMoreLine=some t ∧ t.written=s.written++[lineUp] ∧ ¬TornDown coders s := by
  obtain ⟨s,hr,h1,h2,h3,h4,h5⟩ : ∃ s,Reach (step coders) Free init s ∧ s.reader.isClosed=true ∧
      s.forwarders.map Forwarder.status=[.running] ∧ s.queue=[] ∧ s.writer=.idle ∧
      (exec (step coders) s oneMoreLine).map (fun t => decide (t.written=s.written++[lineUp]))=some true :=
    free_observed announcesTooMuch (by decide +kernel)
  obtain ⟨t,ht,hw⟩ := Option.map_eq_some_iff.mp h5
  refine ⟨s,t,hr,h1,h2,h3,h4,ht,of_decide_eq_true hw,fun htorn => ?_⟩
  obtain ⟨f,hf,hrun⟩ := List.mem_map.mp (h2 ▸ List.mem_singleton_self Status.running)
  exact htorn.stopped f hf hrun

end Waymux.Server.ConnectionEnd
