import Waymux.Cli.WaitSystem

/-!
# Requests of a waiting client

At most one request is under way; its events are forwarded from then on.
-/

namespace Waymux.Cli.WaitForWindow
open Connection Server.Messages List Option

variable {name : String} {sel : Selector} {s t : State} {a : Act}

structure Changed (name : String) (s t : State) : Prop where
  client : t.client=s.client
  conn : t.conn=s.conn
  serving : t.serving=s.serving
  socket : t.socket=s.socket
  subscribed : t.subscribed=s.subscribed
  expired : t.expired=s.expired
  atDeadline : t.atDeadline=s.atDeadline
  news : t=s ∨ ∃ e∈t.emitting,evSession e=some name

theorem changed_refl : Changed name s s := ⟨rfl,rfl,rfl,rfl,rfl,rfl,rfl,.inl rfl⟩

theorem changed_change {ws : List WindowInfo} {e : EventBody} (he : evSession e=some name) :
    Changed name s (s.change ws e) :=
  ⟨rfl,rfl,rfl,rfl,rfl,rfl,rfl,.inr ⟨e,mem_append_right _ (mem_singleton_self e),he⟩⟩

def State.took (s : State) (rest : List Frame) : State :=
  {s with conn := {s.conn with call := .idle}, socket := rest}

inductive StepCase (name : String) (sel : Selector) (s : State) : Act → State → Prop
  | emit (k : Nat) (e : EventBody) (he : s.emitting[k]?=some e) :
      StepCase name sel s (.emit k) {s with emitting := s.emitting.eraseIdx k, pipe := s.pipe++[e]}
  | broadcast (e : EventBody) (rest : List EventBody) (hp : s.pipe=e::rest) :
      StepCase name sel s .broadcast ({s with pipe := rest}.publish e)
  | broadcastOther (e : EventBody) : StepCase name sel s (.broadcastOther e) (s.publish e)
  | forward (e : EventBody) (rest : List EventBody) (hl : s.live=e::rest) :
      StepCase name sel s .forward {s with
        live := rest
        socket := if topicMatches (.new e) ["windows"] then s.socket++[.event e] else s.socket}
  | openReceiver (k : Nat) (hs : s.serving=.subscribe k) :
      StepCase name sel s .openReceiver {s with subscribed := true, live := [], serving := .opened k}
  | snapshot (k : Nat) (order : List WindowInfo) (hs : s.serving=.list k) (hp : order.Perm s.windows) :
      StepCase name sel s (.snapshot order) {s with serving := .listed k order}
  | merge (k : Nat) (ws : List WindowInfo) (hs : s.serving=.listed k ws) :
      StepCase name sel s .merge {s with serving := .merged k (mergeTags s.tags ws)}
  | opened (k : Nat) (hs : s.serving=.opened k) :
      StepCase name sel s .respond {s with serving := .idle, socket := s.socket++[.response k .unit]}
  | merged (k : Nat) (ws : List WindowInfo) (hs : s.serving=.merged k ws) :
      StepCase name sel s .respond {s with serving := .idle, socket := s.socket++[.response k (.windows ws)]}
  | tagLook (id : Nat) (tags : List String) :
      StepCase name sel s (.tagLook id tags) {s with tagging := s.tagging++[(id,tags)]}
  | tagStore (k id : Nat) (tags : List String) :
      StepCase name sel s (.tagStore k) {s with
        tags := Function.update s.tags id (some tags)
        tagging := s.tagging.eraseIdx k}
  | begin (hc : s.client=.start) :
      StepCase name sel s .begin {s with
        conn := s.conn.request true
        serving := .subscribe s.conn.nextId
        client := .subscribing}
  | aside (id : Nat) (f : Frame) (rest : List Frame) (hs : s.socket=f::rest) (hc : s.conn.call=.request id)
      (hf : ∀ r,f≠.response id r) :
      StepCase name sel s .recv {s with
        conn := ⟨s.conn.nextId,s.conn.pendingEvents++[f],.request id⟩
        socket := rest}
  | answer (id : Nat) (r : Reply) (rest : List Frame) (hs : s.socket=.response id r::rest)
      (hc : s.conn.call=.request id) : StepCase name sel s .recv (answered sel r (s.took rest))
  | returned (f : Frame) (rest : List Frame) (hs : s.socket=f::rest) (hc : s.conn.call=.readRawFrame) :
      StepCase name sel s .recv (process name f (s.took rest))
  | pending (f : Frame) (rest : List Frame) (hc : s.client=.head) (hp : s.conn.pendingEvents=f::rest) :
      StepCase name sel s .loop (process name f {s with conn := {s.conn with pendingEvents := rest}})
  | read (hc : s.client=.head) (hp : s.conn.pendingEvents=[]) :
      StepCase name sel s .loop {s with conn := ⟨s.conn.nextId,[],.readRawFrame⟩, client := .reading}
  | expire : StepCase name sel s .expire {s with
      expired := true
      atDeadline := some (found sel (current s))}
  | leave {a : Act} (o : Outcome) (hc : s.client=.head ∨ s.client=.reading)
      (ho : o=.deadline → s.expired=true) : StepCase name sel s a (s.leave o)
  | change {a : Act} {t : State} (hc : Changed name s t) : StepCase name sel s a t

theorem recv_cases (h : recv name sel s=some t) : StepCase name sel s .recv t := by
  unfold recv at h
  cases hs : s.socket with
  | nil => simp [hs] at h
  | cons f rest =>
    simp only [hs] at h
    cases hc : s.conn.call with
    | idle => simp [Conn.take,hc] at h
    | readRawFrame =>
      simp only [Conn.take,hc,some.injEq] at h
      exact h ▸ .returned f rest hs hc
    | request id =>
      cases f with
      | event =>
        simp only [Conn.take,hc,answerOf,some.injEq] at h
        exact h ▸ .aside id _ rest hs hc (by simp)
      | response k r =>
        by_cases hk : k=id
        · subst hk
          simp only [Conn.take,hc,answerOf,if_true,some.injEq] at h
          exact h ▸ .answer k r rest hs hc
        · simp only [Conn.take,hc,answerOf,hk,if_false,some.injEq] at h
          refine h ▸ .aside id _ rest hs hc fun r' he => hk ?_
          cases he
          rfl

theorem loop_cases (h : loop name s=some t) : StepCase name sel s .loop t := by
  unfold loop Conn.readRawFrame at h
  split at h
  · cases h
  next hc =>
    have hc:=Decidable.not_not.mp hc
    split at h
    next he =>
      cases h
      exact .leave .deadline (.inl hc) fun _ => he
    · cases hp : s.conn.pendingEvents with
      | cons f rest =>
        simp only [hp,some.injEq] at h
        exact h ▸ .pending f rest hc hp
      | nil =>
        simp only [hp,some.injEq] at h
        exact h ▸ .read hc hp

theorem step_cases (h : step name sel s a=some t) : StepCase name sel s a t := by
  cases a with
  | addWindow =>
    cases h
    exact .change ⟨rfl,rfl,rfl,rfl,rfl,rfl,rfl,.inr ⟨_,mem_append_right _ (mem_singleton_self _),rfl⟩⟩
  | emit | broadcast | broadcastOther | forward | openReceiver | merge | tagStore =>
    simp only [step,emit,broadcast,broadcastOther,forward,openReceiver,merge,tagStore] at h
    split at h <;> cases h
    constructor <;> assumption
  | snapshot order =>
    simp only [step,snapshot] at h
    split at h
    next k hs =>
      obtain ⟨hp,⟨⟩⟩ := ite_none_right_eq_some.mp h
      exact .snapshot k order hs hp
    · cases h
  | respond =>
    simp only [step,respond] at h
    split at h <;> cases h
    · exact .opened _ ‹_›
    · exact .merged _ _ ‹_›
  | tagLook | begin | expire =>
    obtain ⟨hc,⟨⟩⟩ := ite_none_right_eq_some.mp h
    constructor <;> exact hc
  | recv => exact recv_cases h
  | loop => exact loop_cases h
  | timeout =>
    obtain ⟨hc,⟨⟩⟩ := ite_none_right_eq_some.mp h
    exact .leave .deadline (.inr hc.1) fun _ => hc.2
  | readError =>
    obtain ⟨hc,⟨⟩⟩ := ite_none_right_eq_some.mp h
    exact .leave .readError (.inr hc) nofun
  | _ =>
    cases h
    refine .change ?_
    simp only [removeWindow,setAppId,setTitle]
    split
    · exact changed_change rfl
    · exact changed_refl

def Serving.token : Serving → List (Nat × Bool)
  | .idle => []
  | .subscribe id | .opened id => [(id,false)]
  | .list id | .listed id _ | .merged id _ => [(id,true)]

def Reply.isList : Reply → Bool
  | .unit => false
  | .windows _ => true

def Frame.token : Frame → List (Nat × Bool)
  | .response id r => [(id,r.isList)]
  | .event _ => []

def tokens (s : State) : List (Nat × Bool) := s.serving.token++s.socket.flatMap Frame.token

/-- One request is under way while the client waits for its answer, and none
at other times. -/
structure Shape (s : State) : Prop where
  subscribing : s.client=.subscribing → ∃ id,s.conn.call=.request id ∧ tokens s=[(id,false)]
  listing : s.client=.listing → ∃ id,s.conn.call=.request id ∧ tokens s=[(id,true)]
  others : s.client≠.subscribing → s.client≠.listing → tokens s=[]
  reading : s.client=.reading → s.conn.call=.readRawFrame
  idle : s.client≠.subscribing → s.client≠.listing → s.client≠.reading → s.conn.call=.idle
  receiver : ∀ id,(s.serving=.opened id ∨ Frame.response id .unit∈s.socket) → s.subscribed=true
  past : s.client=.listing ∨ s.client=.head ∨ s.client=.reading → s.subscribed=true

theorem shape_start : Shape start := by
  refine ⟨nofun,nofun,fun _ _ => rfl,nofun,fun _ _ _ => rfl,?_,?_⟩
  · rintro id (h | h) <;> cases h
  · rintro (h | h | h) <;> cases h

theorem Shape.keep (hi : Shape s) (hc : t.client=s.client) (hcall : t.conn.call=s.conn.call)
    (htok : tokens t=tokens s) (hrec : ∀ id,(t.serving=.opened id ∨ Frame.response id .unit∈t.socket) →
      s.serving=.opened id ∨ Frame.response id .unit∈s.socket) (hsub : t.subscribed=s.subscribed) :
    Shape t := by
  refine ⟨?_,?_,?_,?_,?_,fun id h => hsub.trans (hi.receiver id (hrec id h)),?_⟩
  · rw [hc,hcall,htok]
    exact hi.subscribing
  · rw [hc,hcall,htok]
    exact hi.listing
  · rw [hc,htok]
    exact hi.others
  · rw [hc,hcall]
    exact hi.reading
  · rw [hc,hcall]
    exact hi.idle
  · rw [hc,hsub]
    exact hi.past

theorem Shape.sole (hi : Shape s) {x : Nat × Bool} (hx : x∈tokens s) : tokens s=[x] ∧
    s.conn.call=.request x.1 ∧ (x.2=false ∧ s.client=.subscribing ∨ x.2=true ∧ s.client=.listing) := by
  by_cases h1 : s.client=.subscribing
  · obtain ⟨id,hc,ht⟩ := hi.subscribing h1
    rw [ht,mem_singleton] at hx
    subst hx
    exact ⟨ht,hc,.inl ⟨rfl,h1⟩⟩
  · by_cases h2 : s.client=.listing
    · obtain ⟨id,hc,ht⟩ := hi.listing h2
      rw [ht,mem_singleton] at hx
      subst hx
      exact ⟨ht,hc,.inr ⟨rfl,h2⟩⟩
    · rw [hi.others h1 h2] at hx
      cases hx

theorem tokens_serving {x : Nat × Bool} (h : x∈s.serving.token) : x∈tokens s :=
  mem_append_left _ h

theorem tokens_socket {f : Frame} {x : Nat × Bool} (hf : f∈s.socket) (h : x∈f.token) : x∈tokens s :=
  mem_append_right _ (mem_flatMap.mpr ⟨f,hf,h⟩)

theorem Shape.open {k : Nat} (hi : Shape s) (hs : s.serving=.subscribe k) :
    Shape {s with subscribed := true, live := [], serving := .opened k} := by
  have htok : tokens {s with subscribed := true, live := [], serving := .opened k}=tokens s := by
    simp [tokens,hs,Serving.token]
  exact ⟨fun h => htok ▸ hi.subscribing h,fun h => htok ▸ hi.listing h,fun h1 h2 => htok ▸ hi.others h1 h2,
    hi.reading,hi.idle,fun _ _ => rfl,fun _ => rfl⟩

theorem Shape.waiting (hi : Shape s) (h : s.client=.head ∨ s.client=.reading) :
    tokens s=[] ∧ s.subscribed=true := by
  refine ⟨hi.others ?_ ?_,hi.past (.inr h)⟩ <;> rcases h with h | h <;> rw [h] <;> nofun

theorem tokens_respond {f : Frame} (hi : Shape s) (hs : s.serving.token=f.token) (hf : f.token≠[]) :
    tokens {s with serving := .idle, socket := s.socket++[f]}=tokens s := by
  obtain ⟨x,hx⟩ := exists_mem_of_ne_nil _ hf
  have hone:=(hi.sole (tokens_serving (hs ▸ hx))).1
  -- so the socket holds no other answer
  have hsocket : s.socket.flatMap Frame.token=[] := by
    have hlen:=congrArg List.length hone
    have hpos:=length_pos_iff.mpr hf
    simp only [tokens,length_append,hs,length_singleton] at hlen
    exact length_eq_zero_iff.mp (by omega)
  rw [tokens,tokens,hsocket,hs,flatMap_append,hsocket]
  simp [Serving.token]

theorem Shape.sendList (hi : tokens s=[]) (hsub : s.subscribed=true) : Shape (sendList s) := by
  have htok : tokens (WaitForWindow.sendList s)=[(s.conn.nextId,true)] := by
    simp only [tokens,append_eq_nil_iff] at hi
    simp [tokens,WaitForWindow.sendList,Serving.token,hi.2]
  exact ⟨nofun,fun _ => ⟨s.conn.nextId,rfl,htok⟩,fun _ h => absurd rfl h,nofun,fun _ h => absurd rfl h,
    fun _ _ => hsub,fun _ => hsub⟩

theorem Shape.rest (htok : tokens t=[]) (hcall : t.conn.call=.idle) (hsub : t.subscribed=true)
    (h : t.client=.head ∨ ∃ o,t.client=.done o) : Shape t := by
  have h1 : t.client≠.subscribing := by rcases h with h | ⟨o,h⟩ <;> rw [h] <;> nofun
  have h2 : t.client≠.listing := by rcases h with h | ⟨o,h⟩ <;> rw [h] <;> nofun
  have h3 : t.client≠.reading := by rcases h with h | ⟨o,h⟩ <;> rw [h] <;> nofun
  exact ⟨fun h => absurd h h1,fun h => absurd h h2,fun _ _ => htok,fun h => absurd h h3,fun _ _ _ => hcall,
    fun _ _ => hsub,fun _ => hsub⟩

theorem Shape.process {f : Frame} (htok : tokens s=[]) (hcall : s.conn.call=.idle) (hsub : s.subscribed=true) :
    Shape (process name f s) := by
  unfold WaitForWindow.process
  split
  · split
    · exact Shape.sendList htok hsub
    · exact Shape.rest htok hcall hsub (.inl rfl)
  · exact Shape.rest htok hcall hsub (.inl rfl)

theorem Shape.head (hi : Shape s) {f : Frame} {rest : List Frame} (hs : s.socket=f::rest) {k : Nat} {r : Reply}
    (hf : f=.response k r) : tokens s=[(k,r.isList)] ∧ s.conn.call=.request k ∧
      (r.isList=false ∧ s.client=.subscribing ∨ r.isList=true ∧ s.client=.listing) := by
  subst hf
  exact hi.sole (tokens_socket (f := .response k r) (by rw [hs]; exact mem_cons_self)
    (mem_singleton_self _))

theorem Shape.answered (hi : Shape s) {id : Nat} {r : Reply} {rest : List Frame}
    (hs : s.socket=.response id r::rest) : tokens (s.took rest)=[] := by
  have hlen:=congrArg List.length (hi.head hs rfl).1
  simp only [tokens,hs,flatMap_cons,Frame.token,length_append,length_singleton] at hlen
  refine length_eq_zero_iff.mp ?_
  simp only [tokens,State.took,length_append]
  omega

theorem Shape.reading_of_call (hi : Shape s) (hc : s.conn.call=.readRawFrame) : s.client=.reading := by
  cases hcl : s.client with
  | reading => rfl
  | subscribing =>
    obtain ⟨id,hr,-⟩ := hi.subscribing hcl
    rw [hc] at hr
    cases hr
  | listing =>
    obtain ⟨id,hr,-⟩ := hi.listing hcl
    rw [hc] at hr
    cases hr
  | _ =>
    have hr:=hi.idle (by rw [hcl]; nofun) (by rw [hcl]; nofun) (by rw [hcl]; nofun)
    rw [hc] at hr
    cases hr

theorem Shape.returned (hi : Shape s) {f : Frame} {rest : List Frame} (hs : s.socket=f::rest)
    (hc : s.conn.call=.readRawFrame) : tokens (s.took rest)=[] := by
  have htok:=(hi.waiting (.inr (hi.reading_of_call hc))).1
  simp only [tokens,hs,flatMap_cons,append_eq_nil_iff] at htok
  simp [tokens,State.took,htok.1,htok.2.2]

theorem Shape.begin (hi : Shape s) (hc : s.client=.start) :
    Shape {s with conn := s.conn.request true, serving := .subscribe s.conn.nextId, client := .subscribing} := by
  have htok:=hi.others (by rw [hc]; nofun) (by rw [hc]; nofun)
  simp only [tokens,append_eq_nil_iff] at htok
  refine ⟨fun _ => ⟨s.conn.nextId,rfl,by simp [tokens,Serving.token,htok.2]⟩,nofun,fun h => absurd rfl h,
    nofun,fun h => absurd rfl h,fun id h => ?_,?_⟩
  · exact hi.receiver id (h.imp_left nofun)
  · rintro (h | h | h) <;> cases h

theorem Shape.changed (hi : Shape s) (h : Changed name s t) : Shape t :=
  hi.keep h.client (by rw [h.conn]) (by simp [tokens,h.serving,h.socket])
    (fun _ hr => by rwa [h.serving,h.socket] at hr) h.subscribed

theorem shape_step (hi : Shape s) (h : step name sel s a=some t) : Shape t := by
  cases step_cases h with
  | change hc => exact hi.changed hc
  | forward =>
    refine hi.keep rfl rfl ?_ (fun _ h => h.imp_right fun h => ?_) rfl
    · split <;> simp [tokens,Frame.token]
    · split at h
      · simpa using h
      · exact h
  | openReceiver k hs => exact hi.open hs
  | snapshot k ws hs | merge k ws hs =>
    exact hi.keep rfl rfl (by simp [tokens,hs,Serving.token]) (fun _ h => h.imp nofun id) rfl
  | opened k hs =>
    refine hi.keep rfl rfl (tokens_respond hi (by rw [hs]; rfl) nofun) (fun j h => ?_) rfl
    rcases h with h | h
    · cases h
    · rcases mem_append.mp h with h | h
      · exact .inr h
      · have hk : j=k := by simpa using h
        exact .inl (hk ▸ hs)
  | merged k ws hs =>
    refine hi.keep rfl rfl (tokens_respond hi (by rw [hs]; rfl) nofun) (fun _ h => ?_) rfl
    rcases h with h | h
    · cases h
    · exact .inr (by simpa using h)
  | begin hc => exact hi.begin hc
  | aside id f rest hs hc hf =>
    -- what is set aside is no answer to anything
    have hno : f.token=[] := by
      cases hfr : f with
      | event => rfl
      | response k r =>
        have hk:=(hi.head hs hfr).2.1
        rw [hc] at hk
        cases hk
        exact absurd hfr (hf r)
    refine hi.keep rfl hc.symm ?_ (fun _ h => h.imp_right fun h => ?_) rfl
    · simp [tokens,hs,hno]
    · rw [hs]
      exact mem_cons_of_mem f h
  | answer id r rest hs hc =>
    have htok:=hi.answered hs
    rcases (hi.head hs rfl).2.2 with ⟨hr,hcl⟩ | ⟨hr,hcl⟩
    · cases r with
      | windows => cases hr
      | unit =>
        have hsub:=hi.receiver id (.inr (by rw [hs]; exact mem_cons_self))
        simp only [answered,State.took,hcl]
        exact Shape.sendList htok hsub
    · cases r with
      | unit => cases hr
      | windows ws =>
        have hsub:=hi.past (.inl hcl)
        simp only [answered,State.took,hcl]
        split
        next w _ => exact Shape.rest htok rfl hsub (.inr ⟨_,rfl⟩)
        · exact Shape.rest htok rfl hsub (.inl rfl)
  | returned f rest hs hc =>
    exact Shape.process (hi.returned hs hc) rfl (hi.waiting (.inr (hi.reading_of_call hc))).2
  | pending f rest hc =>
    obtain ⟨htok,hsub⟩ := hi.waiting (.inl hc)
    exact Shape.process htok (hi.idle (by rw [hc]; nofun) (by rw [hc]; nofun) (by rw [hc]; nofun)) hsub
  | read hc =>
    obtain ⟨htok,hsub⟩ := hi.waiting (.inl hc)
    exact ⟨nofun,nofun,fun _ _ => htok,fun _ => rfl,fun _ _ h => absurd rfl h,fun _ _ => hsub,fun _ => hsub⟩
  | leave o hc =>
    obtain ⟨htok,hsub⟩ := hi.waiting hc
    exact Shape.rest htok rfl hsub (.inr ⟨o,rfl⟩)
  | _ => exact hi.keep rfl rfl rfl (fun _ h => h) rfl

end Waymux.Cli.WaitForWindow
