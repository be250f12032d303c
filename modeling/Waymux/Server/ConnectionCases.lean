import Waymux.Server.Connection

/-!
# What the steps of a connection do

The steps of the sessions around it are told apart where they matter.
-/

namespace Waymux.Server.ConnectionCases
open Framing.LengthPrefix Wire.FrameCodec Messages Dispatch Interleave.Channels Connection

variable {c : Coders} {s t : State} {a : Act}

theorem abort_cases (s : State) :
    (∃ k,s.handle=some k ∧ s.abort.forwarders=s.forwarders.modify k abortForwarder) ∨
      (s.handle=none ∧ s.abort.forwarders=s.forwarders) := by
  cases hh : s.handle with
  | some k => exact .inl ⟨k,rfl,by simp [State.abort,hh]⟩
  | none => exact .inr ⟨rfl,by simp [State.abort,hh]⟩

def outside : Act → Bool
  | .openSession _ | .closeSession _ | .spawnDrainer _ _ | .append _ _ | .publish _ | .post _ => true
  | _ => false

inductive Replayed (s : State) (id : Nat) (topics : List String) (rx : Nat) (rest : List Work) :
    Work → State → Prop
  | found (name : String) (r : Nat) (hl : lookup s.sessions name=some r) :
      Replayed s id topics rx rest (.session name)
        {s.executed (.replayLogs name) with reader := .replaying id topics rx (.clone r::rest)}
  | absent (name : String) (hl : lookup s.sessions name=none) :
      Replayed s id topics rx rest (.session name)
        {s.executed (.replayLogs name) with reader := .replaying id topics rx rest}
  | clone (r : Nat) (ring : Ring) (hr : s.rings[r]?=some ring) :
      Replayed s id topics rx rest (.clone r) (s.cloneRing id topics rx r ring rest)
  | through (session : String) (es : List LogEntry) (ho : es=[] ∨ s.writer=.closed) :
      Replayed s id topics rx rest (.lines session es) {s with reader := .replaying id topics rx rest}
  | line (session : String) (e : LogEntry) (es : List LogEntry) (hw : s.writer≠.closed)
      (hq : s.queue.length<outQueueCapacity) :
      Replayed s id topics rx rest (.lines session (e::es))
        {s.enqueue (lineItem session e) with
          reader := .replaying id topics rx (.lines session es::rest)}

theorem replay_cases (h : replay s=some t) : ∃ id topics rx w rest,
    s.reader=.replaying id topics rx (w::rest) ∧ Replayed s id topics rx rest w t := by
  unfold replay at h
  split at h
  next id topics rx name rest hr =>
    cases h
    refine ⟨id,topics,rx,_,rest,hr,?_⟩
    cases hl : lookup s.sessions name with
    | some r => exact .found name r hl
    | none => exact .absent name hl
  next id topics rx r rest hr =>
    split at h <;> cases h
    exact ⟨id,topics,rx,_,rest,hr,.clone r _ ‹_›⟩
  next id topics rx session rest hr =>
    cases h
    exact ⟨id,topics,rx,_,rest,hr,.through session [] (.inl rfl)⟩
  next id topics rx session e es rest hr =>
    repeat' split at h
    all_goals cases h
    · exact ⟨id,topics,rx,_,rest,hr,.through session (e::es) (.inr ‹_›)⟩
    · exact ⟨id,topics,rx,_,rest,hr,.line session e es ‹_› ‹_›⟩
  · cases h

inductive StepCase (c : Coders) (s : State) : Act → State → Prop
  | arrive (bytes : Bytes) :
      StepCase c s (.arrive bytes) {s with unread := s.unread++bytes, received := s.received++bytes}
  | finish : StepCase c s .finish {s with eof := true}
  | request (frame rest : Bytes) (req : Request) (hr : s.reader=.reading)
      (hs : scan maxFrameSize s.unread=.whole frame rest) (hd : decodeFrame c.request frame=.ok req) :
      StepCase c s .read (handleRequest c req {s with unread := rest, requests := s.requests++[req]})
  | undecoded (frame rest : Bytes) (hr : s.reader=.reading)
      (hs : scan maxFrameSize s.unread=.whole frame rest) :
      StepCase c s .read {s with unread := rest}.hangUp
  | eof (hr : s.reader=.reading) : StepCase c s .read s.hangUp
  | tooLong (n : Nat) (hr : s.reader=.reading) (hs : scan maxFrameSize s.unread=.tooLong n) :
      StepCase c s .read {s with reader := .closed}
  | cut (hr : s.reader=.reading) (hs : scan maxFrameSize s.unread=.short) (he : s.eof=true)
      (hl : 4 ≤ s.unread.length) : StepCase c s .read {s with reader := .closed}
  | readError (hr : s.reader=.reading) : StepCase c s .readError {s with reader := .closed}
  | operate (o : Outcome) (id : Nat) (op : Operation) (code : OpError → ErrorCode)
      (hr : s.reader=.calling id op code) :
      StepCase c s (.operate o) {s.executed op with reader := .responding (answer id code o)}
  | subscribe (id : Nat) (topics : List String) (hr : s.reader=.subscribing id topics) :
      StepCase c s .subscribe (s.resubscribe id topics)
  | replay (id : Nat) (topics : List String) (rx : Nat) (w : Work) (rest : List Work) {t : State}
      (hr : s.reader=.replaying id topics rx (w::rest)) (hc : Replayed s id topics rx rest w t) :
      StepCase c s .replay t
  | list (order : List String) (id : Nat) (topics : List String) (rx : Nat) (rest : List Work)
      (hr : s.reader=.replaying id topics rx (.every::rest)) (hp : order.Perm (s.sessions.map Prod.fst)) :
      StepCase c s (.list order)
        {s.executed .list with reader := .replaying id topics rx (order.map .session++rest)}
  | spawnForwarder (id : Nat) (topics : List String) (rx : Nat) (hr : s.reader=.replaying id topics rx []) :
      StepCase c s .spawnForwarder (s.spawn topics rx (succeed id c.unit))
  | unanswered (r : Response) (hr : s.reader=.responding r) (hw : s.writer=.closed) :
      StepCase c s .respond s.hangUp
  | respond (r : Response) (hr : s.reader=.responding r) :
      StepCase c s .respond {s.enqueue ⟨.response r,.answer⟩ with reader := .reading}
  | poll (k : Nat) (f : Forwarder) (p : Posted) (hf : s.forwarders[k]?=some f) (he : f.status≠.ended)
      (hh : f.hand=none) (hp : s.posted[f.pos]?=some p) :
      StepCase c s (.poll k) (s.setForwarder k (f.took p))
  | lagged (k : Nat) (f : Forwarder) (hf : s.forwarders[k]?=some f) (hh : f.hand=none)
      (hl : eventChannelCapacity<s.posted.length-f.pos) :
      StepCase c s (.poll k) (s.setForwarder k {f with status := .ended})
  | unsent (k : Nat) (f : Forwarder) (i : Item) (hf : s.forwarders[k]?=some f) (hh : f.hand=some i)
      (he : f.status≠.ended) (hw : s.writer=.closed) :
      StepCase c s (.forward k) (s.setForwarder k {f with status := .ended, hand := none})
  | forward (k : Nat) (f : Forwarder) (i : Item) (hf : s.forwarders[k]?=some f) (hh : f.hand=some i)
      (he : f.status≠.ended) : StepCase c s (.forward k) ((s.enqueue i).setForwarder k {f with hand := none})
  | cancel (k : Nat) (f : Forwarder) (hf : s.forwarders[k]?=some f) (hs : f.status=.aborted) :
      StepCase c s (.cancel k) (s.setForwarder k {f with status := .ended, hand := none})
  | take (i : Item) (rest : List Item) (frame : Bytes) (hw : s.writer=.idle) (hq : s.queue=i::rest)
      (hf : frameOf c i=some frame) : StepCase c s .take {s with queue := rest, writer := .writing i frame}
  | unencoded (i : Item) (rest : List Item) (hw : s.writer=.idle) (hq : s.queue=i::rest)
      (hf : frameOf c i=none) : StepCase c s .take {s with queue := [], writer := .closed}
  | wrote (n : Nat) (i : Item) (left : Bytes) (hw : s.writer=.writing i left) (hn : left≠[]) :
      StepCase c s (.write n) {s with wire := s.wire++left, written := s.written++[i], writer := .idle}
  | wrotePart (n : Nat) (i : Item) (left : Bytes) (hw : s.writer=.writing i left) (hn : 0<n)
      (hl : n<left.length) :
      StepCase c s (.write n) {s with wire := s.wire++left.take n, writer := .writing i (left.drop n)}
  | writeError (i : Item) (left : Bytes) (hw : s.writer=.writing i left) :
      StepCase c s .writeError {s with queue := [], writer := .closed}
  | drained (hw : s.writer=.idle) (hq : s.queue=[]) : StepCase c s .drained {s with writer := .closed}
  | world {a : Act} (ss : List (String × Nat)) (rs : List Ring) (ds : List Drainer) (ps : List Posted)
      (pr : List Line) (ha : outside a=true) (hp : s.posted <+: ps) :
      StepCase c s a {s with sessions := ss, rings := rs, drainers := ds, posted := ps, produced := pr}

theorem step_cases (h : step c s a=some t) : StepCase c s a t := by
  cases a with
  | arrive | readError | operate | subscribe | spawnForwarder | writeError =>
    simp only [step,readError,operate,subscribe,spawnForwarder,writeError] at h
    split at h <;> cases h
    constructor <;> assumption
  | finish =>
    cases h
    exact .finish
  | read =>
    simp only [step,readRequest] at h
    repeat' split at h
    all_goals cases h
    · exact .request _ _ _ ‹_› ‹_› ‹_›
    · exact .undecoded _ _ ‹_› ‹_›
    · exact .tooLong _ ‹_› ‹_›
    · exact .eof ‹_›
    next hr _ hs he hl => exact .cut hr hs (by simpa using he) (Nat.le_of_not_lt hl)
  | replay =>
    obtain ⟨id,topics,rx,w,rest,hr,hc⟩ := replay_cases h
    exact .replay id topics rx w rest hr hc
  | list | cancel =>
    simp only [step,list,cancel] at h
    repeat' split at h
    all_goals cases h
    constructor <;> assumption
  | respond =>
    simp only [step,respond] at h
    repeat' split at h
    all_goals cases h
    · exact .unanswered _ ‹_› ‹_›
    · exact .respond _ ‹_›
  | poll k =>
    simp only [step,poll] at h
    repeat' split at h
    all_goals cases h
    next f hf hn _ p hp =>
      simp only [not_or,Option.not_isSome_iff_eq_none] at hn
      exact .poll k f p hf hn.1 hn.2 (recv_item hp)
    next f hf hn _ _ hl =>
      simp only [not_or,Option.not_isSome_iff_eq_none] at hn
      exact .lagged k f hf hn.2 (recv_lagged hl)
  | forward k =>
    simp only [step,forward] at h
    repeat' split at h
    all_goals cases h
    · exact .unsent k _ _ ‹_› ‹_› ‹_› ‹_›
    · exact .forward k _ _ ‹_› ‹_› ‹_›
  | take =>
    simp only [step,take] at h
    repeat' split at h
    all_goals cases h
    · exact .take _ _ _ ‹_› ‹_› ‹_›
    · exact .unencoded _ _ ‹_› ‹_› ‹_›
  | write n =>
    simp only [step,write] at h
    repeat' split at h
    all_goals cases h
    next i left hw _ _ => exact .wrote _ i left hw (List.length_pos_iff.mp (by omega))
    next i left hw _ _ => exact .wrotePart n i left hw (by omega) (by omega)
  | drained =>
    simp only [step,Connection.drained] at h
    split at h <;> cases h
    next hd => exact .drained hd.1 hd.2.1
  | publish | post =>
    simp only [step,publish,post] at h
    repeat' split at h
    all_goals cases h
    exact .world _ _ _ _ _ rfl (List.prefix_append _ _)
  | _ =>
    simp only [step,openSession,closeSession,spawnDrainer,append] at h
    repeat' split at h
    all_goals cases h
    exact .world _ _ _ _ _ rfl (List.prefix_refl _)

end Waymux.Server.ConnectionCases
