import Waymux.Interleave.Runs
import Waymux.Interleave.Logs
import Waymux.Wire.Mailbox

/-!
# Attempts of control calls

The attempt a call waits on carries its own request, so a response that is returned was logged for
it.
-/

namespace Waymux.Wire.Attempts
open Mailbox Interleave.Runs Interleave.Logs List Function

variable {Req Resp Sess : Type} {dispatch : Sess → Req → Sess × Resp}
  {s t : State Req Resp Sess} {a : Act Req}

inductive StepCase (dispatch : Sess → Req → Sess × Resp) (s : State Req Resp Sess) :
    Act Req → State Req Resp Sess → Prop
  | begin (c : Nat) (r : Req) : s.calls c=.idle → StepCase dispatch s (.begin c r) (s.enter c r)
  | acquire (c : Nat) (pc : CallPc Resp) : s.calls c=.queued → s.holder=none →
      pc=.sending false ∨ pc=.connecting →
      StepCase dispatch s (.acquire c true) {s.setCall c pc with holder := some c}
  | refuse (c : Nat) : s.calls c=.queued → s.holder=none →
      StepCase dispatch s (.acquire c false) (s.setCall c (.done none))
  | deliver (c : Nat) (fresh : Bool) : s.calls c=.sending fresh →
      StepCase dispatch s (.deliver c) {s.setCall c (.waiting fresh s.next) with
        next := s.next+1, inbox := update s.inbox s.next (some c)}
  | serve (k : Nat) (answers : Bool) (c : Nat) (r : Req) : s.inbox k=some c → s.reqs c=some r →
      StepCase dispatch s (.serve k answers) {s with
        sess := (dispatch s.sess r).1
        inbox := update s.inbox k none
        replies := update s.replies k (if answers then some (dispatch s.sess r).2 else none)
        log := s.log++[(c,r,(dispatch s.sess r).2)]}
  | hangup (k : Nat) :
      StepCase dispatch s (.hangup k) {s with inbox := update s.inbox k none}
  | reply (c : Nat) (decodes fresh : Bool) (k : Nat) (resp : Resp) : s.calls c=.waiting fresh k →
      s.replies k=some resp →
      StepCase dispatch s (.reply c decodes) (s.finish c (if decodes then some resp else none))
  | retry (c : Nat) : s.calls c=.sending false ∨ (∃ k,s.calls c=.waiting false k) →
      StepCase dispatch s (.lose c) {s.setCall c .connecting with slot := false}
  | giveUp (c : Nat) : s.calls c=.sending true ∨ (∃ k,s.calls c=.waiting true k) →
      StepCase dispatch s (.lose c) {s.finish c none with slot := false}
  | connect (c : Nat) : s.calls c=.connecting →
      StepCase dispatch s (.connect c true) {s.setCall c (.sending true) with slot := true}
  | refused (c : Nat) : s.calls c=.connecting →
      StepCase dispatch s (.connect c false) (s.finish c none)

theorem step_cases (h : step dispatch s a=some t) : StepCase dispatch s a t := by
  cases a with
  | begin | deliver =>
    simp only [step] at h
    split at h <;> cases h
    constructor
    assumption
  | acquire c encodes =>
    simp only [step] at h
    split at h
    next hc hh =>
      cases encodes <;> cases h
      · exact .refuse c hc hh
      · refine .acquire c _ hc hh ?_
        cases s.slot with
        | true => exact .inl rfl
        | false => exact .inr rfl
    · cases h
  | serve | reply =>
    simp only [step] at h
    split at h
    · split at h <;> cases h
      constructor <;> assumption
    · cases h
  | hangup k => cases h; exact .hangup k
  | lose c =>
    simp only [step] at h
    split at h <;> cases h
    next hc => exact .retry c (.inl hc)
    next k hc => exact .retry c (.inr ⟨k,hc⟩)
    next hc => exact .giveUp c (.inl hc)
    next k hc => exact .giveUp c (.inr ⟨k,hc⟩)
  | connect c ok =>
    simp only [step] at h
    split at h
    next hc => cases ok <;> cases h <;> constructor <;> exact hc
    · cases h

/-- The session has executed the request of `c` and answered `resp`. -/
def Logged (s : State Req Resp Sess) (c : Nat) (resp : Resp) : Prop :=
  ∃ r,s.reqs c=some r ∧ (c,r,resp)∈s.log

structure Matched (s : State Req Resp Sess) : Prop where
  inbox_lt : ∀ k c,s.inbox k=some c → k<s.next
  replies_lt : ∀ k resp,s.replies k=some resp → k<s.next
  waiting_lt : ∀ c fresh k,s.calls c=.waiting fresh k → k<s.next
  unanswered : ∀ k c,s.inbox k=some c → s.replies k=none
  own_request : ∀ c fresh k,s.calls c=.waiting fresh k → ∀ d,s.inbox k=some d → d=c
  own_reply : ∀ c fresh k,s.calls c=.waiting fresh k → ∀ resp,s.replies k=some resp →
    Logged s c resp
  answered : ∀ c resp,s.calls c=.done (some resp) → Logged s c resp

variable {c k : Nat} {fresh : Bool} {resp : Resp}

theorem setCall_calls (c d : Nat) (pc : CallPc Resp) :
    (s.setCall c pc).calls d=if d=c then pc else s.calls d := by
  simp [State.setCall,update_apply]

/-- What a step does to one call. -/
inductive CallMove (s t : State Req Resp Sess) (c : Nat) : Act Req → CallPc Resp → CallPc Resp → Prop
  | same {a : Act Req} {p : CallPc Resp} : a≠.deliver c → CallMove s t c a p p
  | begin (r : Req) : CallMove s t c (.begin c r) .idle .queued
  | acquire : CallMove s t c (.acquire c true) .queued (.sending false)
  | reconnect : CallMove s t c (.acquire c true) .queued .connecting
  | refuse : CallMove s t c (.acquire c false) .queued (.done none)
  | deliver (fresh : Bool) : t.next=s.next+1 → t.inbox=update s.inbox s.next (some c) → t.replies=s.replies →
      CallMove s t c (.deliver c) (.sending fresh) (.waiting fresh s.next)
  | answer (fresh : Bool) (k : Nat) (resp : Resp) : s.replies k=some resp →
      CallMove s t c (.reply c true) (.waiting fresh k) (.done (some resp))
  | garbled (fresh : Bool) (k : Nat) (resp : Resp) : s.replies k=some resp →
      CallMove s t c (.reply c false) (.waiting fresh k) (.done none)
  | retry (p : CallPc Resp) : p=.sending false ∨ (∃ k,p=.waiting false k) → CallMove s t c (.lose c) p .connecting
  | giveUp (p : CallPc Resp) : p=.sending true ∨ (∃ k,p=.waiting true k) → CallMove s t c (.lose c) p (.done none)
  | connect : CallMove s t c (.connect c true) .connecting (.sending true)
  | refused : CallMove s t c (.connect c false) .connecting (.done none)

theorem call_move (h : StepCase dispatch s a t) (c : Nat) : CallMove s t c a (s.calls c) (t.calls c) := by
  have move {d : Nat} {p : CallPc Resp} (ht : t.calls=update s.calls d p) (ha : d≠c → a≠.deliver c)
      (hm : d=c → CallMove s t c a (s.calls c) p) : CallMove s t c a (s.calls c) (t.calls c) := by
    by_cases he : d=c
    · subst he
      rw [ht,update_self]
      exact hm rfl
    · rw [ht,update_of_ne (Ne.symm he)]
      exact .same (ha he)
  cases h with
  | serve | hangup => exact .same (by simp)
  | begin d r hd => exact move rfl (by simp) (by rintro rfl; rw [hd]; exact .begin r)
  | acquire d pc hd _ hp =>
    refine move rfl (by simp) ?_
    rintro rfl
    rw [hd]
    rcases hp with rfl | rfl
    · exact .acquire
    · exact .reconnect
  | refuse d hd | connect d hd | refused d hd => exact move rfl (by simp) (by rintro rfl; rw [hd]; constructor)
  | deliver d f hd => exact move rfl (by simp) (by rintro rfl; rw [hd]; exact .deliver f rfl rfl rfl)
  | reply d decodes f k r hd hk =>
    refine move rfl (by simp) ?_
    rintro rfl
    rw [hd]
    cases decodes with
    | true => exact .answer f k r hk
    | false => exact .garbled f k r hk
  | retry d hd | giveUp d hd => exact move rfl (by simp) (by rintro rfl; constructor; exact hd)

attribute [local simp] setCall_calls State.enter State.finish

section
variable (h : StepCase dispatch s a t)
include h

theorem logged_step (hc : s.calls c≠.idle) (hl : Logged s c resp) : Logged t c resp := by
  obtain ⟨r,hr,hm⟩ := hl
  cases h with
  | begin d r' hd =>
    have hne : c≠d := fun he => hc (he ▸ hd)
    exact ⟨r,by simpa [update_of_ne hne] using hr,hm⟩
  | serve => exact ⟨r,hr,mem_append_left _ hm⟩
  | _ => exact ⟨r,hr,hm⟩

theorem waiting_before (hw : t.calls c=.waiting fresh k) :
    s.calls c=.waiting fresh k ∨ s.calls c=.sending fresh ∧ k=s.next ∧
      t.next=s.next+1 ∧ t.inbox=update s.inbox s.next (some c) ∧
      t.replies=s.replies := by
  have hm:=call_move h c
  rw [hw] at hm
  generalize s.calls c=p at hm ⊢
  cases hm with
  | same => exact .inl rfl
  | deliver _ hn hi hr => exact .inr ⟨rfl,rfl,hn,hi,hr⟩

theorem answered_before (hd : t.calls c=.done (some resp)) :
    s.calls c=.done (some resp) ∨
    ∃ fresh k,s.calls c=.waiting fresh k ∧ s.replies k=some resp := by
  have hm:=call_move h c
  rw [hd] at hm
  generalize s.calls c=p at hm ⊢
  cases hm with
  | same => exact .inl rfl
  | answer f k _ hk => exact .inr ⟨f,k,rfl,hk⟩

theorem next_mono : s.next≤t.next := by
  cases h with
  | deliver => exact Nat.le_succ _
  | _ => exact Nat.le_refl _

theorem inbox_before (hk : t.inbox k=some c) :
    s.inbox k=some c ∨ k=s.next ∧ a=.deliver c ∧ (∃ fresh,s.calls c=.sending fresh) ∧
      t.next=s.next+1 := by
  cases h with
  | deliver d f hd =>
    by_cases he : k=s.next
    · subst he
      simp only [update_self,Option.some.injEq] at hk
      subst hk
      exact .inr ⟨rfl,rfl,⟨f,hd⟩,rfl⟩
    · exact .inl (by simpa [update_of_ne he] using hk)
  | serve d | hangup d =>
    by_cases he : k=d
    · simp [he] at hk
    · exact .inl (by simpa [update_of_ne he] using hk)
  | _ => exact .inl hk

theorem inbox_taken (hk : s.replies k=none) (hr : t.replies k=some resp) : t.inbox k=none := by
  cases h with
  | serve d =>
    by_cases he : k=d
    · subst he
      exact update_self ..
    · simp [update_of_ne he,hk] at hr
  | _ => simp [State.setCall,hk] at hr

theorem replies_before (hk : t.replies k=some resp) :
    s.replies k=some resp ∨ ∃ d r,s.inbox k=some d ∧ s.reqs d=some r ∧
      t.reqs=s.reqs ∧ (d,r,resp)∈t.log := by
  cases h with
  | serve d answers e r hd hr =>
    by_cases he : k=d
    · subst he
      cases answers with
      | false => simp at hk
      | true =>
        simp only [if_true,update_self,Option.some.injEq] at hk
        exact .inr ⟨e,r,hd,hr,rfl,by simp [hk]⟩
    · exact .inl (by simpa [update_of_ne he] using hk)
  | _ => exact .inl hk

omit h in
theorem Matched.step (hm : Matched s) (h : StepCase dispatch s a t) : Matched t where
  inbox_lt k c hk := by
    rcases inbox_before h hk with hs | ⟨rfl,_,_,hn⟩
    · exact Nat.lt_of_lt_of_le (hm.inbox_lt k c hs) (next_mono h)
    · omega
  replies_lt k resp hk := by
    rcases replies_before h hk with hs | ⟨d,_,hd,_⟩
    · exact Nat.lt_of_lt_of_le (hm.replies_lt k resp hs) (next_mono h)
    · exact Nat.lt_of_lt_of_le (hm.inbox_lt k d hd) (next_mono h)
  waiting_lt c fresh k hw := by
    rcases waiting_before h hw with hs | ⟨_,rfl,hn,_⟩
    · exact Nat.lt_of_lt_of_le (hm.waiting_lt c fresh k hs) (next_mono h)
    · omega
  unanswered k c hk := by
    cases hr : t.replies k with
    | none => rfl
    | some resp =>
      rcases inbox_before h hk with hs | ⟨rfl,_,_,_⟩
      · simp [inbox_taken h (hm.unanswered k c hs) hr] at hk
      · rcases replies_before h hr with hs | ⟨d,_,hd,_⟩
        · exact absurd (hm.replies_lt _ resp hs) (Nat.lt_irrefl _)
        · exact absurd (hm.inbox_lt _ d hd) (Nat.lt_irrefl _)
  own_request c fresh k hw d hd := by
    rcases waiting_before h hw with hs | ⟨_,rfl,_,hi,_⟩
    · rcases inbox_before h hd with hds | ⟨rfl,_⟩
      · exact hm.own_request c fresh k hs d hds
      · exact absurd (hm.waiting_lt c fresh _ hs) (Nat.lt_irrefl _)
    · simpa [hi,eq_comm] using hd
  own_reply c fresh k hw resp hk := by
    rcases waiting_before h hw with hs | ⟨_,rfl,_,_,hr⟩
    · rcases replies_before h hk with hks | ⟨d,r,hd,hr,hreq,hl⟩
      · exact logged_step h (by simp [hs]) (hm.own_reply c fresh k hs resp hks)
      · cases hm.own_request c fresh k hs d hd
        exact ⟨r,hreq ▸ hr,hl⟩
    · exact absurd (hm.replies_lt _ resp (hr ▸ hk)) (Nat.lt_irrefl _)
  answered c resp hd := by
    rcases answered_before h hd with hs | ⟨fresh,k,hw,hk⟩
    · exact logged_step h (by simp [hs]) (hm.answered c resp hs)
    · exact logged_step h (by simp [hw]) (hm.own_reply c fresh k hw resp hk)

omit h in
theorem matched_init (v : Sess) : Matched (init v : State Req Resp Sess) :=
  ⟨by simp [init],by simp [init],by simp [init],by simp [init],by simp [init],by simp [init],
    by simp [init]⟩

omit h in
theorem matched_reach {ok : State Req Resp Sess → Act Req → Prop} {v : Sess}
    (hr : Reach (Mailbox.step dispatch) ok (init v) s) : Matched s :=
  hr.keeps (matched_init v) fun hm _ h => hm.step (step_cases h)

def Unseen (s : State Req Resp Sess) (c : Nat) : Prop :=
  (∀ e∈s.log,e.1≠c) ∧ ∀ k,s.inbox k≠some c

theorem exec_before : (t.log=s.log ∧ t.sess=s.sess) ∨
    ∃ k c r,s.inbox k=some c ∧ s.reqs c=some r ∧ t.inbox k=none ∧ t.reqs=s.reqs ∧
      t.log=s.log++[(c,r,(dispatch s.sess r).2)] ∧ t.sess=(dispatch s.sess r).1 ∧
      t.calls=s.calls := by
  cases h with
  | serve k answers c r hk hr => exact .inr ⟨k,c,r,hk,hr,update_self ..,rfl,rfl,rfl,rfl⟩
  | _ => exact .inl ⟨rfl,rfl⟩

theorem logged_before {e : Nat × Req × Resp} (he : e∈t.log) :
    e∈s.log ∨ ∃ k,s.inbox k=some e.1 ∧ s.reqs e.1=some e.2.1 ∧ t.inbox k=none ∧
      t.reqs=s.reqs ∧ e.2.2=(dispatch s.sess e.2.1).2 := by
  rcases exec_before h with ⟨hl,_⟩ | ⟨k,c,r,hk,hr,hn,hq,hl,_⟩
  · exact .inl (hl ▸ he)
  · rw [hl] at he
    rcases mem_append.mp he with he | he
    · exact .inl he
    · cases mem_singleton.mp he
      exact .inr ⟨k,hk,hr,hn,hq,rfl⟩

theorem unseen_step (hu : Unseen s c) (hd : a≠.deliver c) : Unseen t c := by
  refine ⟨fun e he => ?_,fun k hk => ?_⟩
  · rcases logged_before h he with hs | ⟨k,hk,_⟩
    · exact hu.1 e hs
    · exact fun hc => hu.2 k (hc ▸ hk)
  · rcases inbox_before h hk with hs | ⟨_,ha,_⟩
    · exact hu.2 k hs
    · exact hd ha

structure Faithful (dispatch : Sess → Req → Sess × Resp) (s : State Req Resp Sess) : Prop where
  idle : ∀ c,s.calls c=.idle → Unseen s c
  request : ∀ e∈s.log,s.reqs e.1=some e.2.1
  response : ∀ e∈s.log,∃ v,e.2.2=(dispatch v e.2.1).2

theorem idle_before (hi : t.calls c=.idle) : s.calls c=.idle ∧ a≠.deliver c := by
  have hm:=call_move h c
  rw [hi] at hm
  generalize s.calls c=p at hm ⊢
  cases hm with
  | same ha => exact ⟨rfl,ha⟩

theorem reqs_step (hc : s.calls c≠.idle) : t.reqs c=s.reqs c := by
  cases h with
  | begin d r hd =>
    refine update_of_ne ?_ ..
    rintro rfl
    exact hc hd
  | _ => rfl

omit h in
theorem Faithful.step (hf : Faithful dispatch s) (h : StepCase dispatch s a t) :
    Faithful dispatch t where
  idle c hi := unseen_step h (hf.idle c (idle_before h hi).1) (idle_before h hi).2
  request e he := by
    rcases logged_before h he with hs | ⟨k,_,hr,_,hq,_⟩
    · rw [reqs_step h fun hi => (hf.idle e.1 hi).1 e hs rfl]
      exact hf.request e hs
    · rw [hq,hr]
  response e he := by
    rcases logged_before h he with hs | ⟨_,_,_,_,_,hr⟩
    · exact hf.response e hs
    · exact ⟨_,hr⟩

omit h in
theorem faithful_init (v : Sess) : Faithful dispatch (init v : State Req Resp Sess) :=
  ⟨by simp [init,Unseen],by simp [init],by simp [init]⟩

/-- A delivered attempt on the cached connection is given up only when it was not and will not be executed. -/
def Careful (s : State Req Resp Sess) (a : Act Req) : Prop :=
  ∀ c k,a=.lose c → s.calls c=.waiting false k →
    s.inbox k=none ∧ ∀ e∈s.log,e.1≠c

def undelivered : CallPc Resp → Bool
  | .idle | .queued | .sending _ | .connecting => true
  | _ => false

structure Once (s : State Req Resp Sess) : Prop where
  unseen : ∀ c,undelivered (s.calls c)=true → Unseen s c
  pending : ∀ k c,s.inbox k=some c → ∀ e∈s.log,e.1≠c
  single : ∀ k l c,s.inbox k=some c → s.inbox l=some c → k=l
  latest : ∀ c fresh k,s.calls c=.waiting fresh k → ∀ l,s.inbox l=some c → l=k
  log : (s.log.map Prod.fst).Nodup

theorem undelivered_before (hu : undelivered (t.calls c)=true) :
    undelivered (s.calls c)=true ∨
    a=.lose c ∧ (s.calls c=.sending false ∨ ∃ k,s.calls c=.waiting false k) := by
  have hm:=call_move h c
  generalize s.calls c=p,t.calls c=q at hm hu ⊢
  cases hm with
  | same => exact .inl hu
  | retry _ hp => exact .inr ⟨rfl,hp⟩
  | begin | acquire | reconnect | connect => exact .inl rfl
  | _ => cases hu

omit h in
theorem Once.step (ho : Once s) (h : StepCase dispatch s a t) (hc : Careful s a) : Once t := by
  refine ⟨fun c hu => ?_,fun k c hk => ?_,fun k l c hk hl => ?_,fun c f k hw l hl => ?_,?_⟩
  · have hs : Unseen s c := by
      rcases undelivered_before h hu with hs | ⟨ha,hs | ⟨k,hs⟩⟩
      · exact ho.unseen c hs
      · exact ho.unseen c (by simp [hs,undelivered])
      · obtain ⟨hk,hl⟩ := hc c k ha hs
        refine ⟨hl,fun l hl' => ?_⟩
        rw [ho.latest c false k hs l hl',hk] at hl'
        cases hl'
    refine unseen_step h hs ?_
    rintro rfl
    cases h
    simp [undelivered] at hu
  · rcases inbox_before h hk with hs | ⟨_,rfl,⟨f,hf⟩,_⟩
    · rintro e he rfl
      rcases logged_before h he with hes | ⟨l,hl,_,hn,_⟩
      · exact ho.pending k e.1 hs e hes rfl
      · cases ho.single k l e.1 hs hl
        simp [hn] at hk
    · have hu:=ho.unseen c (by simp [hf,undelivered])
      cases h
      exact hu.1
  · rcases inbox_before h hk with hks | ⟨hkn,_,⟨f,hf⟩,_⟩ <;>
      rcases inbox_before h hl with hls | ⟨hln,_,⟨g,hg⟩,_⟩
    · exact ho.single k l c hks hls
    · exact absurd hks ((ho.unseen c (by simp [hg,undelivered])).2 k)
    · exact absurd hls ((ho.unseen c (by simp [hf,undelivered])).2 l)
    · exact hkn.trans hln.symm
  · rcases waiting_before h hw with hs | ⟨hs,hk,_⟩ <;>
      rcases inbox_before h hl with hls | ⟨hln,_,⟨g,hg⟩,_⟩
    · exact ho.latest c f k hs l hls
    · simp [hs] at hg
    · exact absurd hls ((ho.unseen c (by simp [hs,undelivered])).2 l)
    · exact hln.trans hk.symm
  · rcases exec_before h with ⟨hl,_⟩ | ⟨k,c,r,hk,_,_,_,hl,_⟩
    · exact hl ▸ ho.log
    · rw [hl,map_append]
      refine nodup_append_one ho.log fun hm => ?_
      obtain ⟨x,hx,he⟩ := mem_map.mp hm
      exact ho.pending k c hk x hx he

omit h in
theorem once_reach {v : Sess} (hr : Reach (Mailbox.step dispatch) Careful (init v) s) : Once s := by
  refine hr.keeps ⟨?_,?_,?_,?_,?_⟩ fun ho hc h => ho.step (step_cases h) hc
  · simp [init,Unseen]
  · simp [init]
  · simp [init]
  · simp [init]
  · exact nodup_nil

end

end Waymux.Wire.Attempts
