import Waymux.Session.Obligations

/-!
# What a step lets the client see

Only the commit, the note of its point, the destruction of a buffer and the steps of a release touch
the release points or the clients' buffers.
-/

namespace Waymux.Session.Effects
open BufferRelease Presentation PresentationCases Obligations List Function

variable {kind : Nat → BufferKind} {s t : State} {a : Presentation.Act}

def Job.carried : Job → Option Nat
  | .send _ point => point
  | .signal _ point => some point
  | _ => none

def promotion : Compositor → Option (Nat × Option Nat)
  | .promoted _ cur point => some (cur,point)
  | _ => none

def unrefs (s : State) : Presentation.Act → Option Nat
  | .recorderDrop _ h => some h
  | .dropNext => match s.view with
    | .dropping (h::_) _ => some h
    | _ => none
  | _ => none

structure LastDrop (s : State) (a : Presentation.Act) (t : State) (h : Nat) (hold : Hold) (th : Nat) : Prop where
  unrefs : unrefs s a=some h
  found : s.holds[h]?=some hold
  last : hold.refs≤1
  wrapped : hold.wrapped=true
  drops : t.drops=s.drops ++
    [⟨hold.buf,s.api.alive hold.buf && s.api.pinned.count hold.buf=1,s.api.log.length⟩]
  jobs : t.api.jobs=s.api.jobs++if lastRequested (s.api.holds hold.buf) then [(th,.start hold.buf)] else []

structure Quiet (s : State) (a : Presentation.Act) (t : State) : Prop where
  alive : t.api.alive=s.api.alive
  signals : t.api.signals=s.api.signals
  log : t.api.log=s.api.log
  jobs : ∃ js,t.api.jobs=s.api.jobs++js ∧ ∀ x∈js,Job.carried x.2=none
  tallied : Tallied s.api → Tallied t.api
  asked : ∀ b,wasRequested (t.api.holds b)=true → wasRequested (s.api.holds b)=true
  promotion : promotion t.compositor=promotion s.compositor
  taken : t.taken=s.taken
  commits : t.commits=s.commits
  lent : t.lent=s.lent
  torn : t.torn=s.torn
  drops : t.drops=s.drops ∨ ∃ h hold th,LastDrop s a t h hold th

theorem carried_enter (th : Nat) (bs : List Nat) :
    ∀ x∈bs.map fun b => (th,Job.enter b),Job.carried x.2=none := by
  intro x hx
  obtain ⟨b,-,rfl⟩ := mem_map.mp hx
  rfl

def seen (s : State) :
    Api × Option (Nat × Option Nat) × Nat × List Nat × (Nat → Bool) × List Nat × List Drop :=
  (s.api,promotion s.compositor,s.taken,s.commits,s.lent,s.torn,s.drops)

theorem Quiet.of_seen (h : seen t=seen s) : Quiet s a t := by
  simp only [seen,Prod.mk.injEq] at h
  obtain ⟨hapi,hp,ht,hc,hl,hto,hd⟩ := h
  refine ⟨by rw [hapi],by rw [hapi],by rw [hapi],⟨[],?_,nofun⟩,by rw [hapi]; exact id,
    by rw [hapi]; exact fun _ => id,hp,ht,hc,hl,hto,.inl hd⟩
  rw [hapi,append_nil]

theorem Quiet.of_jobs {th : Nat} {bs p : List Nat} (s : State) (sv : Server) (v : View) (l : FrameLoop.Loop)
    (os : List OuterBuffer) :
    Quiet s a {s with
      api := {s.api with pending := p, jobs := s.api.jobs++bs.map fun b => (th,.enter b)}
      server := sv, view := v, loop := l, inflight := os} :=
  ⟨rfl,rfl,rfl,⟨_,rfl,carried_enter th bs⟩,id,fun _ => id,rfl,rfl,rfl,rfl,rfl,.inl rfl⟩

theorem carried_last (p : Api) (th c : Nat) :
    ∀ x∈if lastRequested (p.holds c) then [(th,Job.start c)] else [],Job.carried x.2=none := by
  intro x hx
  split at hx
  · rw [mem_singleton.mp hx]
    rfl
  · cases hx

theorem register_asked (p : Api) (c b : Nat) (h : wasRequested ((p.registerBufferHold c).holds b)=true) :
    wasRequested (p.holds b)=true := by
  have h : wasRequested (update p.holds c (some (registered (p.holds c))) b)=true := h
  by_cases hb : b=c
  · subst hb
    rw [update_self] at h
    cases hh : p.holds b <;> rw [hh] at h <;> exact h
  · rwa [update_of_ne hb] at h

theorem dropHold_asked (p : Api) (th c b : Nat) (h : wasRequested ((p.dropBufferHold th c).holds b)=true) :
    wasRequested (p.holds b)=true := by
  have h : wasRequested (update p.holds c (dropped (p.holds c)) b)=true := h
  by_cases hb : b=c
  · subst hb
    rw [update_self] at h
    cases hh : p.holds b with
    | none =>
      rw [hh] at h
      exact h
    | some =>
      rw [hh] at h
      simp only [dropped] at h
      split at h
      · cases h
      · exact h
  · rwa [update_of_ne hb] at h

theorem Quiet.unref (s : State) (rs : List Nat) (v : View) (th : Nat) {h : Nat} (ha : unrefs s a=some h) :
    Quiet s a (({s with recorder := rs, view := v} : State).unref th h) := by
  rcases unref_cases {s with recorder := rs, view := v} th h with ⟨hold,hf,hl,he⟩ | ⟨hs,he⟩
  · rw [he]
    refine ⟨rfl,rfl,rfl,⟨_,rfl,carried_last s.api th hold.buf⟩,fun hc => hc.dropHold th hold.buf,
      dropHold_asked s.api th hold.buf,rfl,rfl,rfl,rfl,rfl,?_⟩
    cases hw : hold.wrapped with
    | false => exact .inl (append_nil _)
    | true => exact .inr ⟨h,hold,th,ha,hf,hl,hw,rfl,rfl⟩
  · rw [he]
    exact .of_seen rfl

inductive Effect (kind : Nat → BufferKind) (s : State) : Presentation.Act → State → Prop
  | quiet {a : Presentation.Act} {t : State} (hm : ∀ b,made kind s b a=0)
      (hj : ∀ i,a≠.job i) (hq : Quiet s a t) : Effect kind s a t
  | committed (x nb : Nat) (hd : s.dispatching=true) (hn : (s.surfaces x).pendingBuffer=some nb) :
      Effect kind s (.commit x) (s.promote kind x nb)
  | unbuffered (x : Nat) (hd : s.dispatching=true) (hn : (s.surfaces x).pendingBuffer=none) :
      Effect kind s (.commit x) (s.promoteNothing x)
  | noted (x cur p : Nat) (hc : s.compositor=.promoted x cur (some p)) :
      Effect kind s .notePoint
        {s with api := s.api.noteBufferReleasePoint cur p, compositor := .noted x cur}
  | unnoted (x cur : Nat) (hc : s.compositor=.promoted x cur none) :
      Effect kind s .notePoint {s with compositor := .noted x cur}
  | destroyed (b : Nat) (hd : s.dispatching=true) :
      Effect kind s (.destroyBuffer b) {s with api := s.api.destroy b}
  | job (i th : Nat) (j : Job) (hj : s.api.jobs[i]?=some (th,j)) :
      Effect kind s (.job i) (s.afterJob j (s.api.perform i th j))

theorem step_effect (h : step kind s a=some t) : Effect kind s a t := by
  cases step_cases h with
  | committed x nb hd hn => exact .committed x nb hd hn
  | unbuffered x hd hn => exact .unbuffered x hd hn
  | noted x cur p hc => exact .noted x cur p hc
  | unnoted x cur hc => exact .unnoted x cur hc
  | destroyBuffer c hd => exact .destroyed c hd
  | job i th j hj => exact .job i th j hj
  | attached x cur hc | unattached x cur hc | recordDamage now hc =>
    exact .quiet (fun _ => rfl) nofun (.of_seen (by simp only [seen,hc,promotion]))
  | queueRelease x cur hc =>
    exact .quiet (fun _ => rfl) nofun ⟨rfl,rfl,rfl,⟨[],(append_nil _).symm,nofun⟩,id,fun _ => id,
      by rw [hc]; rfl,rfl,rfl,rfl,rfl,.inl rfl⟩
  | tap _ _ c | prime _ c | wrap _ c =>
    exact .quiet (fun _ => rfl) nofun ⟨rfl,rfl,rfl,⟨[],(append_nil _).symm,nofun⟩,
      fun hc => hc.register c,register_asked s.api c,rfl,rfl,rfl,rfl,rfl,.inl rfl⟩
  | endTap x release hc =>
    exact .quiet (fun _ => rfl) nofun ⟨rfl,rfl,rfl,⟨_,rfl,carried_enter _ _⟩,id,fun _ => id,
      by rw [hc]; rfl,rfl,rfl,rfl,rfl,.inl rfl⟩
  | recorderDrop th hd => exact .quiet (fun _ => rfl) nofun (.unref s (s.recorder.erase hd) s.view th rfl)
  | dropNext hd left next hv =>
    exact .quiet (fun _ => rfl) nofun (.unref s s.recorder _ viewThread (by simp only [unrefs,hv]))
  | drain => exact .quiet (fun _ => rfl) nofun (.of_jobs s _ s.view s.loop s.inflight)
  | directs => exact .quiet (fun _ => rfl) nofun (.of_jobs s s.server s.view s.loop _)
  | undamaged | split | window | noWindow =>
    exact .quiet (fun _ => rfl) nofun (.of_jobs s s.server _ _ s.inflight)
  | _ => exact .quiet (fun _ => rfl) nofun (.of_seen rfl)

theorem tallied_init : Tallied init.api := fun _ => rfl

end Waymux.Session.Effects
