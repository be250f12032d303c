import Mathlib.Data.List.Perm.Basic
import Waymux.Cli.WaitShape

/-!
# No window is missed

When the window a client waits for is there, the client has it or will be woken up.
-/

namespace Waymux.Cli.WaitForWindow
open Connection Server.Messages Interleave.Runs List

def Frame.body : Frame → List EventBody
  | .event e => [e]
  | .response .. => []

def route (s : State) : List EventBody :=
  s.emitting++s.pipe++s.live++s.socket.flatMap Frame.body++s.conn.pendingEvents.flatMap Frame.body

def UnderWay (name : String) (s : State) : Prop := ∃ e∈route s,evSession e=some name

/-- The client has yet to see the tags of the list it asks for, or has left. -/
def looksLater (s : State) : Bool :=
  match s.client with
  | .start | .subscribing | .done _ => true
  | _ => match s.serving with
    | .list _ | .listed .. => true
    | _ => false

/-- With a tag selector, tags are stored only while the client is going to list again; and the deadline does
not pass while a list request or an event of the session is under way. -/
def Attended (name : String) (sel : Selector) (s : State) : Act → Prop
  | .tagStore _ => sel.tag=none ∨ looksLater s=true ∨ UnderWay name s
  | .expire => (s.client=.head ∨ s.client=.reading) ∧ ¬UnderWay name s
  | _ => True

variable {name : String} {sel : Selector} {s t : State} {a : Act} {ws ws' : List WindowInfo}

theorem found_eq (sel : Selector) (ws : List WindowInfo) :
    found sel ws=decide (sel.nth.getD 0<ws.countP sel.accepts) := by
  rw [countP_eq_length_filter]
  unfold found resolve
  cases sel.nth with
  | none => cases ws.filter sel.accepts <;> rfl
  | some n =>
    by_cases h : n<(ws.filter sel.accepts).length <;> simp [h]

theorem found_nil (sel : Selector) : found sel []=false := by
  rw [found_eq]
  rfl

theorem found_perm (h : ws.Perm ws') : found sel ws=found sel ws' := by
  rw [found_eq,found_eq,h.countP_eq]

theorem mergeTags_perm (tags : Nat → Option (List String)) (h : ws.Perm ws') :
    (mergeTags tags ws).Perm (mergeTags tags ws') := h.map _

theorem found_mergeTags (h : sel.tag=none) (tags : Nat → Option (List String)) (ws : List WindowInfo) :
    found sel (mergeTags tags ws)=found sel ws := by
  have hacc (w : WindowInfo) : sel.accepts (withTags tags w)=sel.accepts w := by
    unfold withTags
    cases tags w.id with
    | none => rfl
    | some => simp [Selector.accepts,h]
  rw [found_eq,found_eq,mergeTags,countP_map]
  congr 3
  funext w
  exact hacc w

def Agrees (name : String) (sel : Selector) (s : State) (ws : List WindowInfo) : Prop :=
  found sel ws=found sel (current s) ∨ UnderWay name s

structure Fine (name : String) (sel : Selector) (s : State) : Prop where
  listed : ∀ id ws,s.serving=.listed id ws → ws.Perm s.windows ∨ UnderWay name s
  merged : ∀ id ws,s.serving=.merged id ws → Agrees name sel s ws
  answered : ∀ id ws,Frame.response id (.windows ws)∈s.socket → Agrees name sel s ws
  waiting : s.client=.head ∨ s.client=.reading → Agrees name sel s []

theorem Fine.of_underWay (h : UnderWay name s) : Fine name sel s :=
  ⟨fun _ _ _ => .inr h,fun _ _ _ => .inr h,fun _ _ _ => .inr h,fun _ => .inr h⟩

theorem Agrees.keep (h : Agrees name sel s ws) (hc : found sel (current t)=found sel (current s))
    (hu : UnderWay name s → UnderWay name t) : Agrees name sel t ws :=
  h.imp (fun h => h.trans hc.symm) hu

theorem Fine.keep (hi : Fine name sel s) (hs : t.serving=s.serving)
    (hk : ∀ id ws,Frame.response id (.windows ws)∈t.socket → Frame.response id (.windows ws)∈s.socket)
    (hcl : t.client=.head ∨ t.client=.reading → s.client=.head ∨ s.client=.reading)
    (hw : t.windows=s.windows) (ht : t.tags=s.tags) (hu : UnderWay name s → UnderWay name t) :
    Fine name sel t := by
  have hc : found sel (current t)=found sel (current s) := by rw [current,current,hw,ht]
  refine ⟨fun id ws h => ?_,fun id ws h => ?_,fun id ws h => ?_,fun h => ?_⟩
  · rw [hw]
    exact (hi.listed id ws (hs ▸ h)).imp_right hu
  · exact (hi.merged id ws (hs ▸ h)).keep hc hu
  · exact (hi.answered id ws (hk id ws h)).keep hc hu
  · exact (hi.waiting (hcl h)).keep hc hu

theorem Fine.early (hs : Shape s) (h1 : s.client≠.listing) (h2 : s.client≠.head) (h3 : s.client≠.reading) :
    Fine name sel s := by
  have hno : ∀ id,(id,true)∉tokens s := by
    intro id hx
    rcases (hs.sole hx).2.2 with ⟨h,-⟩ | ⟨-,h⟩
    · cases h
    · exact h1 h
  refine ⟨fun id ws h => ?_,fun id ws h => ?_,fun id ws h => ?_,?_⟩
  · exact absurd (tokens_serving (by rw [h]; exact mem_singleton_self _)) (hno id)
  · exact absurd (tokens_serving (by rw [h]; exact mem_singleton_self _)) (hno id)
  · exact absurd (tokens_socket h (mem_singleton_self _)) (hno id)
  · rintro (h | h)
    · exact absurd h h2
    · exact absurd h h3

theorem Fine.sendList (htok : tokens s=[]) : Fine name sel (sendList s) := by
  refine ⟨nofun,nofun,fun id ws h => ?_,?_⟩
  · have hx : (id,true)∈tokens s := tokens_socket h (mem_singleton_self _)
    rw [htok] at hx
    cases hx
  · rintro (h | h) <;> cases h

theorem underWay_mono (h : ∀ e∈route s,evSession e=some name → e∈route t) (hu : UnderWay name s) :
    UnderWay name t := by
  obtain ⟨e,he,hn⟩ := hu
  exact ⟨e,h e he hn,hn⟩

theorem mem_route {e : EventBody} : e∈route s ↔ e∈s.emitting ∨ e∈s.pipe ∨ e∈s.live ∨
    (∃ f∈s.socket,e∈f.body) ∨ ∃ f∈s.conn.pendingEvents,e∈f.body := by
  simp [route]

theorem window_topic {e : EventBody} (h : evSession e=some name) : topicMatches (.new e) ["windows"]=true := by
  cases e <;> first | rfl | cases h

theorem Fine.emit {k : Nat} {e : EventBody} (hi : Fine name sel s) (he : s.emitting[k]?=some e) :
    Fine name sel {s with emitting := s.emitting.eraseIdx k, pipe := s.pipe++[e]} := by
  refine hi.keep rfl (fun _ _ h => h) (fun h => h) rfl rfl (underWay_mono fun e' he' _ => ?_)
  obtain ⟨hk,hek⟩ := List.getElem?_eq_some_iff.mp he
  rw [mem_route] at he' ⊢
  rcases he' with h1 | h2 | h3
  · have hperm:=(getElem_cons_eraseIdx_perm hk).mem_iff (a := e')
    rcases mem_cons.mp (hperm.mpr h1) with rfl | hmem
    · exact .inr (.inl (mem_append_right _ (by rw [← hek]; exact mem_singleton_self _)))
    · exact .inl hmem
  · exact .inr (.inl (mem_append_left _ h2))
  · exact .inr (.inr h3)

theorem Fine.broadcast {e : EventBody} {rest : List EventBody} (hsh : Shape s) (hi : Fine name sel s)
    (hp : s.pipe=e::rest) (hsh' : Shape ({s with pipe := rest}.publish e)) :
    Fine name sel ({s with pipe := rest}.publish e) := by
  by_cases hsub : s.subscribed=true
  · refine hi.keep rfl (fun _ _ h => h) (fun h => h) rfl rfl (underWay_mono fun e' he' _ => ?_)
    rw [mem_route,hp] at he'
    rw [mem_route]
    simp only [State.publish,hsub,if_true]
    rcases he' with h1 | h2 | h3 | h4
    · exact .inl h1
    · rcases mem_cons.mp h2 with rfl | h2
      · exact .inr (.inr (.inl (mem_append_right _ (mem_singleton_self _))))
      · exact .inr (.inl h2)
    · exact .inr (.inr (.inl (mem_append_left _ h3)))
    · exact .inr (.inr (.inr h4))
  · -- nobody listens yet
    exact .early hsh' (fun h => hsub (hsh.past (.inl h))) (fun h => hsub (hsh.past (.inr (.inl h))))
      (fun h => hsub (hsh.past (.inr (.inr h))))

theorem Fine.broadcastOther (e : EventBody) (hi : Fine name sel s) : Fine name sel (s.publish e) := by
  refine hi.keep rfl (fun _ _ h => h) (fun h => h) rfl rfl (underWay_mono fun e' he' _ => ?_)
  rw [mem_route] at he' ⊢
  refine he'.imp_right (.imp_right (.imp_left fun h => ?_))
  show e'∈if s.subscribed then s.live++[e] else s.live
  split
  · exact mem_append_left _ h
  · exact h

theorem Fine.forward {e : EventBody} {rest : List EventBody} (hi : Fine name sel s) (hl : s.live=e::rest) :
    Fine name sel {s with
      live := rest
      socket := if topicMatches (.new e) ["windows"] then s.socket++[.event e] else s.socket} := by
  refine hi.keep rfl (fun _ _ h => ?_) (fun h => h) rfl rfl (underWay_mono fun e' he' hn => ?_)
  · split at h
    · simpa using h
    · exact h
  · rw [mem_route,hl] at he'
    rw [mem_route]
    rcases he' with h1 | h2 | h3 | ⟨f,hf,he⟩ | h5
    · exact .inl h1
    · exact .inr (.inl h2)
    · rcases mem_cons.mp h3 with rfl | h3
      · simp only [window_topic hn,if_true]
        exact .inr (.inr (.inr (.inl ⟨.event e',by simp,mem_singleton_self _⟩)))
      · exact .inr (.inr (.inl h3))
    · refine .inr (.inr (.inr (.inl ⟨f,?_,he⟩)))
      split
      · exact mem_append_left _ hf
      · exact hf
    · exact .inr (.inr (.inr (.inr h5)))

theorem underWay_respond (k : Nat) (r : Reply) (h : UnderWay name s) :
    UnderWay name {s with serving := .idle, socket := s.socket++[.response k r]} := by
  refine underWay_mono (fun e he _ => ?_) h
  rw [mem_route] at he ⊢
  refine he.imp_right (.imp_right (.imp_right (.imp_left ?_)))
  rintro ⟨f,hf,he⟩
  exact ⟨f,mem_append_left _ hf,he⟩

theorem looksLater_serving (hl : looksLater s=true)
    (hc : s.client=.listing ∨ s.client=.head ∨ s.client=.reading) :
    s.serving.token≠[] ∧ ∀ id ws,s.serving≠.merged id ws := by
  revert hl
  unfold looksLater
  rcases hc with hc | hc | hc <;> rw [hc] <;> cases s.serving <;> simp [Serving.token]

theorem Fine.tagStore {k id : Nat} {tags : List String} (hsh : Shape s) (hi : Fine name sel s)
    (hok : Attended name sel s (.tagStore k))
    (hsh' : Shape {s with tags := Function.update s.tags id (some tags), tagging := s.tagging.eraseIdx k}) :
    Fine name sel {s with tags := Function.update s.tags id (some tags), tagging := s.tagging.eraseIdx k} := by
  rcases hok with hn | hl | hu
  · -- no tag is asked for
    have hc : ∀ g : Nat → Option (List String),found sel (mergeTags g s.windows)=found sel (current s) := by
      intro g
      rw [current,found_mergeTags hn,found_mergeTags hn]
    exact ⟨hi.listed,fun id ws h => (hi.merged id ws h).keep (hc _) (fun h => h),
      fun id ws h => (hi.answered id ws h).keep (hc _) (fun h => h),fun h => (hi.waiting h).keep (hc _) (fun h => h)⟩
  · by_cases hcl : s.client=.listing
    · -- the tags are merged after this
      obtain ⟨hserv,hmerged⟩ := looksLater_serving hl (.inl hcl)
      obtain ⟨x,hx⟩ := exists_mem_of_ne_nil _ hserv
      have hone:=(hsh.sole (tokens_serving hx)).1
      refine ⟨hi.listed,fun id ws h => absurd h (hmerged id ws),fun id ws h => ?_,fun h => ?_⟩
      · have hlen:=congrArg List.length hone
        have hpos:=length_pos_iff.mpr hserv
        have hsock : 0<(s.socket.flatMap Frame.token).length :=
          length_pos_of_mem (mem_flatMap.mpr ⟨_,h,mem_singleton_self _⟩)
        simp only [tokens,length_append,length_singleton] at hlen
        omega
      · rw [hcl] at h
        rcases h with h | h <;> cases h
    · have hno : ¬(s.client=.head ∨ s.client=.reading) := by
        intro h
        obtain ⟨hserv,-⟩ := looksLater_serving hl (.inr h)
        exact hserv (append_eq_nil_iff.mp (hsh.waiting h).1).1
      exact .early hsh' hcl (fun h => hno (.inl h)) (fun h => hno (.inr h))
  · exact .of_underWay hu

theorem Fine.quiet (htok : tokens s=[]) (hag : Agrees name sel s []) : Fine name sel s := by
  have htok:=append_eq_nil_iff.mp htok
  refine ⟨fun id ws hs => ?_,fun id ws hs => ?_,fun id ws hm => ?_,fun _ => hag⟩
  · rw [hs] at htok
    cases htok.1
  · rw [hs] at htok
    cases htok.1
  · have hx : (id,true)∈s.socket.flatMap Frame.token := mem_flatMap.mpr ⟨_,hm,mem_singleton_self _⟩
    rw [htok.2] at hx
    cases hx

theorem Fine.process {f : Frame} (htok : tokens s=[])
    (hag : (∀ e∈f.body,evSession e≠some name) → Agrees name sel s []) : Fine name sel (process name f s) := by
  unfold WaitForWindow.process
  split
  next e =>
    split
    · exact .sendList htok
    next hn =>
      refine .quiet htok (hag fun e' he' => ?_)
      rw [mem_singleton.mp he']
      exact hn
  · exact .quiet htok (hag nofun)

theorem underWay_took {f : Frame} {rest : List Frame} (hs : s.socket=f::rest)
    (hno : ∀ e∈f.body,evSession e≠some name) (h : UnderWay name s) : UnderWay name (s.took rest) := by
  refine underWay_mono (fun e he hn => ?_) h
  rw [mem_route,hs] at he
  rw [mem_route]
  refine he.imp_right (.imp_right (.imp_right (.imp_left ?_)))
  rintro ⟨g,hg,hb⟩
  rcases mem_cons.mp hg with rfl | hg
  · exact absurd hn (hno e hb)
  · exact ⟨g,hg,hb⟩

theorem Fine.answer {id : Nat} {r : Reply} {rest : List Frame} (hsh : Shape s) (hi : Fine name sel s)
    (hs : s.socket=.response id r::rest) (hsh' : Shape (WaitForWindow.answered sel r (s.took rest))) :
    Fine name sel (WaitForWindow.answered sel r (s.took rest)) := by
  have htok:=hsh.answered hs
  rcases (hsh.head hs rfl).2.2 with ⟨hr,hcl⟩ | ⟨hr,hcl⟩
  · simp only [WaitForWindow.answered,State.took,hcl]
    exact .sendList htok
  · cases r with
    | unit => cases hr
    | windows ws =>
      have hag : Agrees name sel (s.took rest) ws :=
        (hi.answered id ws (by rw [hs]; exact mem_cons_self)).keep rfl (underWay_took hs (by simp [Frame.body]))
      cases hres : resolve sel ws with
      | some =>
        simp only [WaitForWindow.answered,State.took,hcl,hres] at hsh' ⊢
        exact .early hsh' (by simp) (by simp) (by simp)
      | none =>
        simp only [WaitForWindow.answered,State.took,hcl,hres]
        refine .quiet htok (hag.imp_left fun h => ?_)
        rw [found_nil,← show found sel ws=false by rw [found,hres]; rfl]
        exact h

theorem fine_step (hsh : Shape s) (hi : Fine name sel s) (hok : Attended name sel s a)
    (h : step name sel s a=some t) : Fine name sel t := by
  have hsh':=shape_step hsh h
  cases step_cases h with
  | change hc =>
    rcases hc.news with rfl | ⟨e,he,hn⟩
    · exact hi
    · exact .of_underWay ⟨e,mem_route.mpr (.inl he),hn⟩
  | emit k e he => exact hi.emit he
  | broadcast e rest hp => exact hi.broadcast hsh hp hsh'
  | broadcastOther e => exact hi.broadcastOther e
  | forward e rest hl => exact hi.forward hl
  | openReceiver k hs =>
    have hx : (k,false)∈tokens s := tokens_serving (by rw [hs]; exact mem_singleton_self _)
    rcases (hsh.sole hx).2.2 with ⟨-,hcl⟩ | ⟨h,-⟩
    · exact .early hsh' (by simp [hcl]) (by simp [hcl]) (by simp [hcl])
    · cases h
  | snapshot k order hs hp =>
    refine ⟨fun id ws h => ?_,nofun,hi.answered,hi.waiting⟩
    cases h
    exact .inl hp
  | merge k ws hs =>
    refine ⟨nofun,fun id ws' h => ?_,hi.answered,hi.waiting⟩
    cases h
    exact (hi.listed k ws hs).imp (fun hp => found_perm (mergeTags_perm s.tags hp)) fun hu => hu
  | opened k =>
    refine ⟨nofun,nofun,fun id ws h => ?_,fun h => (hi.waiting h).keep rfl (underWay_respond k _)⟩
    exact (hi.answered id ws (by simpa using h)).keep rfl (underWay_respond k _)
  | merged k ws hs =>
    refine ⟨nofun,nofun,fun id ws' h => ?_,fun h => (hi.waiting h).keep rfl (underWay_respond k _)⟩
    rcases mem_append.mp h with h | h
    · exact (hi.answered id ws' h).keep rfl (underWay_respond k _)
    · obtain ⟨-,rfl⟩ : id=k ∧ ws'=ws := by simpa using h
      exact (hi.merged k ws' hs).keep rfl (underWay_respond k _)
  | tagStore => exact hi.tagStore hsh hok hsh'
  | begin | leave => exact .early hsh' nofun nofun nofun
  | aside id f rest hs =>
    refine hi.keep rfl (fun _ _ h => ?_) (fun h => h) rfl rfl (underWay_mono fun e he _ => ?_)
    · rw [hs]
      exact mem_cons_of_mem f h
    · rw [mem_route,hs] at he
      rw [mem_route]
      rcases he with h1 | h2 | h3 | ⟨g,hg,he⟩ | ⟨g,hg,he⟩
      · exact .inl h1
      · exact .inr (.inl h2)
      · exact .inr (.inr (.inl h3))
      · rcases mem_cons.mp hg with rfl | hg
        · exact .inr (.inr (.inr (.inr ⟨g,mem_append_right _ (mem_singleton_self _),he⟩)))
        · exact .inr (.inr (.inr (.inl ⟨g,hg,he⟩)))
      · exact .inr (.inr (.inr (.inr ⟨g,mem_append_left _ hg,he⟩)))
  | answer id r rest hs => exact hi.answer hsh hs hsh'
  | returned f rest hs hc =>
    have hag:=hi.waiting (.inr (hsh.reading_of_call hc))
    exact .process (hsh.returned hs hc) fun hno => hag.keep rfl (underWay_took hs hno)
  | pending f rest hc hp =>
    refine .process (hsh.waiting (.inl hc)).1 fun hno => (hi.waiting (.inl hc)).keep rfl ?_
    refine underWay_mono fun e he hn => ?_
    rw [mem_route,hp] at he
    rw [mem_route]
    refine he.imp_right (.imp_right (.imp_right (.imp_right ?_)))
    rintro ⟨g,hg,hb⟩
    rcases mem_cons.mp hg with rfl | hg
    · exact absurd hn (hno e hb)
    · exact ⟨g,hg,hb⟩
  | read hc hp =>
    refine .quiet (hsh.waiting (.inl hc)).1 ((hi.waiting (.inl hc)).keep rfl (underWay_mono fun e he _ => ?_))
    rw [mem_route,hp] at he
    rw [mem_route]
    exact he
  | _ => exact hi.keep rfl (fun _ _ h => h) (fun h => h) rfl rfl (fun h => h)

structure Timed (s : State) : Prop where
  expired : s.expired=true → s.atDeadline=some false
  deadline : s.client=.done .deadline → s.expired=true

theorem Timed.keep (hi : Timed s) (he : t.expired=s.expired) (ha : t.atDeadline=s.atDeadline)
    (hc : t.client=.done .deadline → s.client=.done .deadline) : Timed t :=
  ⟨fun h => ha.trans (hi.expired (he ▸ h)),fun h => he.trans (hi.deadline (hc h))⟩

theorem process_timed (f : Frame) (s : State) : (process name f s).expired=s.expired ∧
    (process name f s).atDeadline=s.atDeadline ∧ (process name f s).client≠.done .deadline := by
  unfold process
  split
  · split <;> exact ⟨rfl,rfl,nofun⟩
  · exact ⟨rfl,rfl,nofun⟩

theorem answered_timed (r : Reply) (s : State) : (answered sel r s).expired=s.expired ∧
    (answered sel r s).atDeadline=s.atDeadline ∧ (answered sel r s).client≠.done .deadline := by
  unfold answered
  split
  · exact ⟨rfl,rfl,nofun⟩
  · split <;> exact ⟨rfl,rfl,nofun⟩
  · exact ⟨rfl,rfl,nofun⟩

theorem timed_step (hi : Timed s) (hf : Fine name sel s) (hok : Attended name sel s a)
    (h : step name sel s a=some t) : Timed t := by
  cases step_cases h with
  | change hc => exact hi.keep hc.expired hc.atDeadline fun h => hc.client ▸ h
  | begin | read => exact hi.keep rfl rfl nofun
  | answer k r rest =>
    obtain ⟨h1,h2,h3⟩ := @answered_timed sel r (s.took rest)
    exact hi.keep h1 h2 fun h => absurd h h3
  | returned f rest =>
    obtain ⟨h1,h2,h3⟩ := @process_timed name f (s.took rest)
    exact hi.keep h1 h2 fun h => absurd h h3
  | pending f rest =>
    obtain ⟨h1,h2,h3⟩ := @process_timed name f {s with conn := {s.conn with pendingEvents := rest}}
    exact hi.keep h1 h2 fun h => absurd h h3
  | leave o hc ho =>
    refine ⟨hi.expired,fun h => ho ?_⟩
    cases h
    rfl
  | expire =>
    obtain ⟨hcl,hu⟩ := hok
    refine ⟨fun _ => ?_,fun _ => rfl⟩
    -- the list the client saw last is the list as it is
    rcases hf.waiting hcl with hag | hag
    · rw [found_nil] at hag
      exact congrArg some hag.symm
    · exact absurd hag hu
  | _ => exact hi.keep rfl rfl id

structure Inv (name : String) (sel : Selector) (s : State) : Prop where
  shape : Shape s
  fine : Fine name sel s
  timed : Timed s

theorem inv_reach (h : Reach (step name sel) (Attended name sel) start s) : Inv name sel s :=
  h.keeps ⟨shape_start,.early shape_start nofun nofun nofun,nofun,nofun⟩ fun hi hok ha =>
    ⟨shape_step hi.shape ha,fine_step hi.shape hi.fine hok ha,timed_step hi.timed hi.fine hok ha⟩

theorem wait_misses_no_window (h : Reach (step name sel) (Attended name sel) start s)
    (hd : s.client=.done .deadline) : s.atDeadline=some false :=
  let hi:=(inv_reach h).timed
  hi.expired (hi.deadline hd)

instance : Decidable (UnderWay name s) := inferInstanceAs (Decidable (∃ e∈route s,evSession e=some name))

instance : Decidable (Attended name sel s a) := by
  unfold Attended
  repeat' split
  all_goals infer_instance

def untitled : WindowInfo := ⟨1,"","",[],10⟩
def titled : WindowInfo := ⟨1,"","shell",[],10⟩

def listsAs (w : WindowInfo) : List Act := [.snapshot [w],.merge,.respond,.recv]

def waits : List Act :=
  ([.addWindow 10,.emit 0,.broadcast,.begin,.openReceiver,.respond,.recv] : List Act)++listsAs untitled

def appFoot : Selector := ⟨some "foot",none,none,none,none⟩

theorem wait_misses_no_window_foot : ∃ s,Reach (step "a" appFoot) (Attended "a" appFoot) start s ∧
    s.client=.done .deadline ∧ s.windows=[titled] ∧ s.atDeadline=some false := by
  have hr : Reach (step "a" appFoot) (Attended "a" appFoot) start _ := reach_exec
    (waits++([.loop,.setTitle 1 "shell",.emit 0,.broadcast,.forward,.recv] : List Act) ++
      listsAs titled++([.expire,.loop] : List Act))
    (meets_decided (by decide +kernel)) (by decide +kernel)
  refine ⟨_,hr,?_,?_,wait_misses_no_window hr ?_⟩ <;> decide +kernel

def tagMain : Selector := ⟨none,none,some "main",none,none⟩

/-- The window is tagged while the client waits for that tag: no event tells it. -/
theorem tagged_and_missed : ∃ s,Reach (step "a" tagMain) Free start s ∧ s.client=.done .deadline ∧
    route s=[] ∧ current s=[{untitled with tags := ["main"]}] ∧ s.atDeadline=some true :=
  free_observed (waits++([.loop,.tagLook 1 ["main"],.tagStore 0,.expire,.timeout] : List Act)) (by decide +kernel)

end Waymux.Cli.WaitForWindow
