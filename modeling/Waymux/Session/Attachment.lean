import Waymux.Session.Effects

/-!
# The attachment of an outer view

The life of the view thread, the wake fd, the attach server, the `Occluded` events and the outer
buffers in flight.
-/

namespace Waymux.Session.Attachment
open BufferRelease Presentation PresentationCases Obligations

variable {kind : Nat → BufferKind} {s t : State} {a : Presentation.Act} {b : Nat}

inductive Phase
  | absent
  | starting
  | installed (new : Bool)
  | running
  | ending
  deriving DecidableEq, Repr

def phase : View → Phase
  | .absent => .absent
  | .starting => .starting
  | .installed new => .installed new
  | .dropping _ .gone => .ending
  | _ => .running

def chosen : View → Option Nat
  | .forwarding b | .skipping b _ | .wrapping b _ _ | .committing b _ => some b
  | _ => none

/-- The commit handler has seen a view and not queued its release yet. -/
def queues : Compositor → Bool
  | .attached _ _ => true
  | _ => false

def Waiting (s : State) : Prop := s.api.pending≠[] ∨ queues s.compositor=true

structure Kept (s t : State) : Prop where
  phase : phase t.view=phase s.view
  outerWake : t.outerWake=s.outerWake
  server : t.server=s.server
  occluded : t.occluded=s.occluded

inductive Turn (s : State) (a : Presentation.Act) (t : State) : Prop
  | moved (hk : Kept s t) (hi : t.inflight=s.inflight)
  | forwarded (w h : Nat) (al : Bool) (b : Nat) (releases : InnerReleases) (ha : a=.outerCommit w h al)
      (hk : Kept s t) (hr : phase s.view=.running) (hc : chosen s.view=some b)
      (hd : releases.directs.count b=View.owes b s.view) (hi : t.inflight=s.inflight++[⟨b,releases,false⟩])
  | freed (k : Nat) (o : OuterBuffer) (hk : Kept s t) (ho : s.inflight[k]?=some o)
      (hi : t.inflight=s.inflight.set k {o with freed := true})
  | returned (k : Nat) (hk : Kept s t) (hi : t.inflight=s.inflight.eraseIdx k)
  | cleared (ha : a=.clear) (hk : Kept s {t with outerWake := s.outerWake})
      (hw : t.outerWake=if s.outerWake=some s.views then none else s.outerWake) (hi : t.inflight=s.inflight)
  | tornDown (ha : a=.finish ∨ a=.panicked) (hk : Kept s {t with view := s.view})
      (hp : phase s.view=.running) (hp' : phase t.view=.ending) (hi : t.inflight=[])
  | gone (hk : Kept s {t with view := s.view}) (hp : phase s.view=.ending) (hp' : phase t.view=.absent)
      (hi : t.inflight=s.inflight)
  | failed (hk : Kept s {t with view := s.view}) (hp : phase s.view=.starting) (hp' : phase t.view=.absent)
      (hi : t.inflight=s.inflight)
  | installed (hk : Kept s {t with view := s.view, outerWake := s.outerWake}) (hp : phase s.view=.starting)
      (hp' : phase t.view=.installed s.outerWake.isNone) (hw : t.outerWake=some s.views)
      (hi : t.inflight=s.inflight)
  | announced (new : Bool) (hk : Kept s {t with view := s.view, occluded := s.occluded})
      (hp : phase s.view=.installed new) (hp' : phase t.view=.running)
      (ho : t.occluded=s.occluded++if new then [false] else []) (hi : t.inflight=s.inflight)
  | requested (spawn : Bool) (hk : Kept s {t with server := s.server}) (hs : s.server=.idle)
      (hs' : t.server=.joining spawn) (hi : t.inflight=s.inflight)
  | spawned (hk : Kept s {t with view := s.view, server := s.server}) (hp : phase s.view=.absent)
      (hp' : phase t.view=.starting) (hs : s.server=.joining true) (hs' : t.server=.idle)
      (hi : t.inflight=s.inflight)
  | joined (hk : Kept s {t with server := s.server}) (hp : phase s.view=.absent)
      (hs : s.server=.joining false) (hs' : t.server=.unsetting) (hi : t.inflight=s.inflight)
  | unset (hk : Kept s {t with server := s.server, outerWake := s.outerWake}) (hs : s.server=.unsetting)
      (hs' : t.server=if s.outerWake.isSome then .draining else .idle) (hw : t.outerWake=none)
      (hi : t.inflight=s.inflight)
  | drained (ha : a=.drain) (hk : Kept s {t with server := s.server}) (hs : s.server=.draining)
      (hs' : t.server=.announcing) (hi : t.inflight=s.inflight)
  | announcedGone (hk : Kept s {t with server := s.server, occluded := s.occluded}) (hs : s.server=.announcing)
      (hs' : t.server=.idle) (ho : t.occluded=s.occluded++[true]) (hi : t.inflight=s.inflight)

structure Turned (kind : Nat → BufferKind) (s : State) (a : Presentation.Act) (t : State) : Prop where
  turn : Turn s a t
  chosen : ∀ b,chosen t.view=some b → chosen s.view=some b ∨ kind b=.dmabuf
  waiting : Waiting t → queues s.compositor=true ∨ s.outerWake.isSome=true ∨ Waiting s ∧ a≠.drain

theorem Waiting.of (h : Waiting t) (hp : t.api.pending=s.api.pending) (hc : t.compositor=s.compositor) :
    Waiting s := by
  unfold Waiting
  rwa [← hp,← hc]

theorem Waiting.taken (h : Waiting t) (hp : t.api.pending=[]) (hc : t.compositor=s.compositor) :
    queues s.compositor=true := by
  rw [← hc]
  exact h.resolve_left fun hn => hn hp

theorem Waiting.dequeued (h : Waiting t) (hp : t.api.pending=s.api.pending) (hc : queues t.compositor=false) :
    Waiting s := by
  rcases h with h | h
  · exact .inl (hp ▸ h)
  · rw [hc] at h
    cases h

def around (s : State) : Option Nat × Server × List Bool × List OuterBuffer :=
  (s.outerWake,s.server,s.occluded,s.inflight)

theorem Turn.within (hp : phase t.view=phase s.view) (h : around t=around s) : Turn s a t := by
  simp only [around,Prod.mk.injEq] at h
  obtain ⟨ho,hs,hoc,hi⟩ := h
  exact .moved ⟨hp,ho,hs,hoc⟩ hi

theorem Turned.aside (hv : t.view=s.view) (h : around t=around s)
    (hw : Waiting t → queues s.compositor=true ∨ s.outerWake.isSome=true ∨ Waiting s ∧ a≠.drain) :
    Turned kind s a t :=
  ⟨.within (congrArg phase hv) h,fun _ hb => .inl (hv ▸ hb),hw⟩

theorem still_waiting (ha : a≠.drain) (h : Waiting s) :
    queues s.compositor=true ∨ s.outerWake.isSome=true ∨ Waiting s ∧ a≠.drain :=
  .inr (.inr ⟨h,ha⟩)

theorem unref_aside (s : State) (th h : Nat) :
    (s.unref th h).view=s.view ∧ around (s.unref th h)=around s ∧
      (s.unref th h).api.pending=s.api.pending ∧ (s.unref th h).compositor=s.compositor := by
  rcases unref_cases s th h with ⟨hold,-,-,he⟩ | ⟨hs,he⟩ <;> rw [he] <;> exact ⟨rfl,rfl,rfl,rfl⟩

theorem viewAt_phase {v : View} (h : s.viewAt v=true) : phase s.view=phase v := congrArg phase (viewAt_iff.mp h).1

theorem phase_dropping (hs left : List Nat) (next : Next) :
    phase (.dropping hs next)=phase (.dropping left next) := by
  cases next <;> rfl

theorem phase_resumed (hs : List Nat) (v : View) : phase (.dropping hs (resumed v))=.running := by
  cases v <;> rfl

theorem step_turn (h : step kind s a=some t) : Turned kind s a t := by
  cases step_cases h with
  | committed | unbuffered | noted | unnoted | unattached | endTap | recordDamage =>
    exact .aside rfl rfl fun hw => still_waiting nofun (hw.dequeued rfl rfl)
  | attached x cur hc hk hsome => exact .aside rfl rfl fun _ => .inr (.inl hsome)
  | queueRelease x cur hc => exact .aside rfl rfl fun _ => .inl (by rw [hc]; rfl)
  | recorderDrop th hd =>
    obtain ⟨hv,ho,hp,hc⟩ := unref_aside {s with recorder := s.recorder.erase hd} th hd
    exact .aside hv ho fun hw => still_waiting nofun (hw.of hp hc)
  | request spawn hg | sweep hg =>
    exact ⟨.requested _ ⟨rfl,rfl,rfl,rfl⟩ (serving_iff.mp hg).1 rfl rfl,fun _ => .inl,still_waiting nofun⟩
  | spawned hv hs =>
    exact ⟨.spawned ⟨rfl,rfl,rfl,rfl⟩ (congrArg phase hv) rfl hs rfl rfl,nofun,still_waiting nofun⟩
  | joined hv hs =>
    exact ⟨.joined ⟨rfl,rfl,rfl,rfl⟩ (congrArg phase hv) hs rfl rfl,fun _ => .inl,still_waiting nofun⟩
  | unset hs =>
    exact ⟨.unset ⟨rfl,rfl,rfl,rfl⟩ hs rfl rfl rfl,fun _ => .inl,fun hw => still_waiting nofun hw⟩
  | drain hs =>
    exact ⟨.drained rfl ⟨rfl,rfl,rfl,rfl⟩ hs rfl rfl,fun _ => .inl,fun hw => .inl (hw.taken rfl rfl)⟩
  | announceGone hs =>
    exact ⟨.announcedGone ⟨rfl,rfl,rfl,rfl⟩ hs rfl rfl rfl,fun _ => .inl,still_waiting nofun⟩
  | fail hv => exact ⟨.failed ⟨rfl,rfl,rfl,rfl⟩ (congrArg phase hv) rfl rfl,nofun,still_waiting nofun⟩
  | install w hh hv =>
    exact ⟨.installed ⟨rfl,rfl,rfl,rfl⟩ (congrArg phase hv) rfl rfl rfl,nofun,
      fun hw => still_waiting nofun hw⟩
  | announce new hv =>
    exact ⟨.announced new ⟨rfl,rfl,rfl,rfl⟩ (congrArg phase hv) rfl rfl rfl,nofun,still_waiting nofun⟩
  | freeOuter k o ho => exact ⟨.freed k o ⟨rfl,rfl,rfl,rfl⟩ ho rfl,fun _ => .inl,still_waiting nofun⟩
  | directs k => exact ⟨.returned k ⟨rfl,rfl,rfl,rfl⟩ rfl,fun _ => .inl,still_waiting nofun⟩
  | refcounted k o holds ho hv =>
    have hp : phase s.view=.running := by rcases hv with hv | hv <;> exact viewAt_phase hv
    exact ⟨.returned k ⟨(phase_resumed holds s.view).trans hp.symm,rfl,rfl,rfl⟩ rfl,nofun,still_waiting nofun⟩
  | begun l hv | composite _ _ _ _ hv | placeholder hv | leave hv =>
    exact ⟨.within (viewAt_phase hv).symm rfl,nofun,still_waiting nofun⟩
  | undamaged l hv => exact ⟨.within (viewAt_phase hv).symm rfl,nofun,fun hw => .inl (hw.taken rfl rfl)⟩
  | cloneDmabuf x c hv hb hk =>
    exact ⟨.within (by rw [hv]; rfl) rfl,fun b hb => .inr (Option.some.inj hb ▸ hk),still_waiting nofun⟩
  | split c hv =>
    exact ⟨.within (by rw [hv]; rfl) rfl,fun b hb => .inl (by rw [hv]; exact hb),
      fun hw => .inl (hw.taken rfl rfl)⟩
  | recorded c deferred hv | unrecorded c deferred hv | wrap c d left holds hv =>
    exact ⟨.within (by rw [hv]; rfl) rfl,fun b hb => .inl (by rw [hv]; exact hb),still_waiting nofun⟩
  | wrappedCommit w hh al c _ hv | directCommit w hh al c _ hv =>
    exact ⟨.forwarded w hh al c _ rfl ⟨by rw [hv]; rfl,rfl,rfl,rfl⟩ (by rw [hv]; rfl) (by rw [hv]; rfl)
      (by rw [hv]; rfl) rfl,nofun,still_waiting nofun⟩
  | push _ _ _ _ hv | stillEmpty hv => exact ⟨.within (by rw [hv]; rfl) rfl,nofun,still_waiting nofun⟩
  | window hv | noWindow hv => exact ⟨.within (by rw [hv]; rfl) rfl,nofun,fun hw => .inl (hw.taken rfl rfl)⟩
  | dropNext hd left next hv =>
    obtain ⟨hv',ho,hp,hc⟩ := unref_aside {s with view := .dropping left next} viewThread hd
    refine ⟨.within ?_ ho,fun b hb => ?_,fun hw => still_waiting nofun (hw.of hp hc)⟩
    · rw [hv',hv]
      exact phase_dropping _ _ next
    · rw [hv'] at hb
      cases hb
  | dropped next hv =>
    cases next with
    | gone => exact ⟨.gone ⟨rfl,rfl,rfl,rfl⟩ (by rw [hv]; rfl) rfl rfl,nofun,still_waiting nofun⟩
    | loop | leave => exact ⟨.within (by rw [hv]; rfl) rfl,nofun,still_waiting nofun⟩
  | clear hv =>
    exact ⟨.cleared rfl ⟨by rw [hv]; rfl,rfl,rfl,rfl⟩ rfl rfl,nofun,fun hw => still_waiting nofun hw⟩
  | finish hv =>
    exact ⟨.tornDown (.inl rfl) ⟨rfl,rfl,rfl,rfl⟩ (viewAt_phase hv) rfl rfl,nofun,still_waiting nofun⟩
  | panicked hv =>
    exact ⟨.tornDown (.inr rfl) ⟨rfl,rfl,rfl,rfl⟩ (viewAt_phase hv) rfl rfl,nofun,still_waiting nofun⟩
  | _ => exact .aside rfl rfl (still_waiting nofun)

end Waymux.Session.Attachment
