import Waymux.Registry.Incarnations
import Waymux.Wire.Attempts

/-!
# Control calls and the connection they use

A call resolves its name once and talks to the incarnation it found.
-/

namespace Waymux.Registry.ControlTalk
open HostResources TaskState TaskSteps StepCases TaskFrames Incarnations
open Interleave.Runs Wire.Attempts

variable {s t : Daemon} {a : Act} {i j : Inc} {c : Nat} {m : Bool}

def target : ControlPc → Option Inc
  | .rpc i | .merge i _ | .store i | .record i => some i
  | .done i _ => i
  | _ => none

def returned : ControlPc → Bool
  | .idle | .done _ _ => true
  | _ => false

def talking : Wire.Mailbox.CallPc SessionCtlResponse → Bool
  | .queued | .sending _ | .waiting _ _ | .connecting => true
  | _ => false

structure Talk (s : Daemon) : Prop where
  matched : ∀ i,Matched (s.boxes i)
  faithful : ∀ i,Faithful dispatch (s.boxes i)
  away : ∀ c i,target (s.controls c).pc≠some i → (s.boxes i).calls c=.idle
  named : ∀ c i,target (s.controls c).pc=some i →
    Inserted s i ∧ nameOf s i=(s.controls c).name
  asked : ∀ c i,(s.boxes i).calls c≠.idle → (s.boxes i).reqs c=some (s.controls c).req.method
  inside : ∀ c i,talking ((s.boxes i).calls c)=true → (s.controls c).pc=.rpc i

theorem callControl_pc (req : ControlReq) :
    callControl req=.lookup ∨ ∃ text,callControl req=.done none (.rejected text) := by
  cases req with
  | resize =>
    simp only [callControl]
    split
    · exact .inr ⟨_,rfl⟩
    · exact .inl rfl
  | _ => exact .inl rfl

theorem afterRpc_pc (i : Inc) (req : ControlReq) (r : SessionCtlResponse) :
    (∃ w h,req=.resize w h ∧ afterRpc i req r=.record i) ∨
    (req.method=.listWindows ∧ afterRpc i req r=.merge i r.windows) ∨
    ∃ res,afterRpc i req r=.done (some i) res ∧ ∀ ws,res≠.windows ws := by
  cases req <;> simp only [afterRpc] <;> split
  case resize.isTrue w h _ => exact .inl ⟨w,h,rfl,rfl⟩
  case listWindows.isTrue | tagWindow.isTrue => exact .inr (.inl ⟨rfl,rfl⟩)
  all_goals exact .inr (.inr ⟨_,rfl,by simp⟩)

theorem afterMerge_pc (s : Daemon) (i : Inc) (n : Name) (req : ControlReq) (ws : List WindowInfo) :
    (∃ v ls,req=.tagWindow v ls ∧ (∃ x∈ws,x.id=v) ∧ afterMerge s i n req ws=.store i) ∨
    afterMerge s i n req ws=.done (some i) .windowNotFound ∨
    afterMerge s i n req ws=.done (some i) (.windows (ws.map (mergeTags s n))) := by
  cases req with
  | tagWindow v ls =>
    simp only [afterMerge]
    split
    next hv => exact .inl ⟨v,ls,rfl,by simpa using hv,rfl⟩
    · exact .inr (.inl rfl)
  | _ => exact .inr (.inr rfl)

/-- How a call comes to the point where a step leaves it. -/
inductive PcCase (s : Daemon) (c : Nat) (t : Daemon) : ControlPc → Prop
  | same {p : ControlPc} : t.controls c=s.controls c → (s.controls c).pc=p → PcCase s c t p
  | lookup : PcCase s c t .lookup
  | ended (o : Option Inc) (res : ControlRes) : (∀ ws,res≠.windows ws) → PcCase s c t (.done o res)
  | rpc (i : Inc) : (s.controls c).pc=.lookup → PcCase s c t (.rpc i)
  | record (i : Inc) (r : SessionCtlResponse) (w u : Nat) : (s.controls c).pc=.rpc i →
      (s.boxes i).calls c=.done (some r) → (s.controls c).req=.resize w u → PcCase s c t (.record i)
  | merge (i : Inc) (r : SessionCtlResponse) : (s.controls c).pc=.rpc i →
      (s.boxes i).calls c=.done (some r) → (s.controls c).req.method=.listWindows →
      PcCase s c t (.merge i r.windows)
  | store (i : Inc) (ws : List WindowInfo) (v : Nat) (ls : List String) : (s.controls c).pc=.merge i ws →
      (t.controls c).req=.tagWindow v ls → (∃ x∈ws,x.id=v) → PcCase s c t (.store i)
  | windows (i : Inc) (ws : List WindowInfo) : (s.controls c).pc=.merge i ws →
      PcCase s c t (.done (some i) (.windows (ws.map (mergeTags s (s.controls c).name))))

theorem pc_cases (h : step s a=some t) (c : Nat) : PcCase s c t (t.controls c).pc := by
  rcases control_frame h c with hs | ⟨n,req,_,_,hq⟩ | ⟨_,hk⟩
  · exact .same hs (hs ▸ rfl)
  · rw [hq]
    rcases callControl_pc req with he | ⟨_,he⟩ <;> rw [he]
    · exact .lookup
    · exact .ended _ _ (by simp)
  · cases hk <;> simp only [rpcAt,Function.update_self]
    case found e hpc _ => exact .rpc _ hpc
    case answered i r hpc hd =>
      rcases afterRpc_pc i (s.controls c).req r with ⟨w,u,hr,he⟩ | ⟨hm,he⟩ | ⟨_,he,hw⟩ <;> rw [he]
      · exact .record i r w u hpc hd hr
      · exact .merge i r hpc hd hm
      · exact .ended _ _ hw
    case merge i ws hpc =>
      rcases afterMerge_pc s i (s.controls c).name (s.controls c).req ws with ⟨v,ls,hr,hx,he⟩ | he | he <;>
        rw [he]
      · exact .store i ws v ls hpc (by simp [hr]) hx
      · exact .ended _ _ (by simp)
      · exact .windows i ws hpc
    all_goals exact .ended _ _ (by simp)

theorem target_afterRpc (i : Inc) (req : ControlReq) (r : SessionCtlResponse) :
    target (afterRpc i req r)=some i := by
  rcases afterRpc_pc i req r with ⟨_,_,_,he⟩ | ⟨_,he⟩ | ⟨_,he,_⟩ <;> rw [he] <;> rfl

theorem target_afterMerge (s : Daemon) (i : Inc) (n : Name) (req : ControlReq) (ws : List WindowInfo) :
    target (afterMerge s i n req ws)=some i := by
  rcases afterMerge_pc s i n req ws with ⟨_,_,_,_,he⟩ | he | he <;> rw [he] <;> rfl

theorem control_kept (h : ControlCase s c t) :
    (t.controls c).name=(s.controls c).name ∧ (t.controls c).req=(s.controls c).req ∧
    (target (s.controls c).pc≠none → target (t.controls c).pc=target (s.controls c).pc) := by
  cases h with
  | missing hpc | found e hpc => simp [rpcAt,setBox,hpc,target]
  | broken i hpc | record i w h e hpc | recordGone i w h hpc | store i w ls hpc =>
    simp [rpcAt,setEntry,storeTags,hpc,target]
  | answered i r hpc =>
    refine ⟨by simp [rpcAt],by simp [rpcAt],fun _ => ?_⟩
    simp only [rpcAt,Function.update_self,target_afterRpc,hpc]
    rfl
  | merge i ws hpc =>
    refine ⟨by simp [rpcAt],by simp [rpcAt],fun _ => ?_⟩
    simp only [rpcAt,Function.update_self,target_afterMerge,hpc]
    rfl

theorem target_stable (h : step s a=some t) (hi : target (s.controls c).pc=some i) :
    target (t.controls c).pc=some i ∧ (t.controls c).name=(s.controls c).name ∧
      (t.controls c).req=(s.controls c).req := by
  rcases control_frame h c with hs | ⟨n,req,_,hpc,_⟩ | ⟨_,hc⟩
  · rw [hs]
    exact ⟨hi,rfl,rfl⟩
  · simp [hpc,target] at hi
  · obtain ⟨hn,hr,ht⟩ := control_kept hc
    exact ⟨(ht (by simp [hi])).trans hi,hn,hr⟩

theorem target_before (h : step s a=some t) (hi : target (t.controls c).pc=some i) :
    target (s.controls c).pc=some i ∨
    ∃ e,a=.controlStep c ∧ (s.controls c).pc=.lookup ∧
      s.sessions (s.controls c).name=some e ∧ e.inc=i ∧
      (t.controls c).name=(s.controls c).name := by
  cases hs : target (s.controls c).pc with
  | some => exact .inl ((target_stable h hs).1.symm.trans hi)
  | none =>
    rcases control_frame h c with he | ⟨n,req,_,_,hq⟩ | ⟨ha,hc⟩
    · simp [he,hs] at hi
    · rcases callControl_pc req with he | ⟨_,he⟩ <;> simp [hq,he,target] at hi
    · have hn:=(control_kept hc).1
      cases hc with
      | found e hpc he =>
        refine .inr ⟨e,ha,hpc,he,?_,hn⟩
        simpa [rpcAt,setBox,target] using hi
      | missing => simp [rpcAt,target] at hi
      | broken _ hpc | answered _ _ hpc | merge _ _ hpc | store _ _ _ hpc | record _ _ _ _ hpc
      | recordGone _ _ _ hpc => simp [hpc,target] at hs

theorem unreturned_before (h : step s a=some t) (hi : target (s.controls c).pc=some i)
    (hr : returned (t.controls c).pc=false) : returned (s.controls c).pc=false := by
  rcases control_frame h c with hs | ⟨_,_,_,hpc,_⟩ | ⟨_,hk⟩
  · exact hs ▸ hr
  · simp [hpc,target] at hi
  · cases hk <;> simp_all [returned]

theorem inserted_pc (hi : Inserted s i) : (s.creates i).pc≠.spawn := by
  rcases hi with hi | hi <;> simp [hi]

theorem log_kept (h : step s a=some t) (hi : (s.creates i).pc≠.spawn)
    {e : Nat × SessionCtlMethod × SessionCtlResponse} (he : e∈(s.boxes i).log) : e∈(t.boxes i).log := by
  cases box_effect h i with
  | same ht | entered c f _ _ _ ht | redrawn ids ht => rw [ht]; exact he
  | spawned o hpc => exact absurd hpc hi
  | moved x _ ht =>
    rcases exec_before (Wire.Attempts.step_cases ht) with ⟨hl,_⟩ | ⟨_,_,_,_,_,_,_,hl,_⟩
    · rw [hl]
      exact he
    · rw [hl]
      exact List.mem_append_left _ he

section Box
variable {b b' : Box} {x : BoxAct}

theorem idle_step (h : StepCase dispatch b x b') (hx : ∀ r,x≠.begin c r) (hi : b.calls c=.idle) :
    b'.calls c=.idle := by
  have hm:=call_move h c
  rw [hi] at hm
  generalize b'.calls c=q at hm ⊢
  cases hm with
  | same => rfl
  | begin r => exact absurd rfl (hx r)
  | retry _ hp | giveUp _ hp => rcases hp with hp | ⟨_,hp⟩ <;> cases hp

theorem talking_before (h : StepCase dispatch b x b') (hx : ∀ r,x≠.begin c r)
    (ht : talking (b'.calls c)=true) : talking (b.calls c)=true := by
  have hm:=call_move h c
  generalize b.calls c=p,b'.calls c=q at hm ht ⊢
  cases hm with
  | same => exact ht
  | begin r => exact absurd rfl (hx r)
  | retry _ hp | giveUp _ hp => rcases hp with rfl | ⟨_,rfl⟩ <;> rfl
  | _ => rfl

end Box

theorem enter_case (k : Talk s) {e : SessionEntry} (hpc : (s.controls c).pc=.lookup) :
    StepCase dispatch (s.boxes e.inc) (.begin c (s.controls c).req.method)
      ((s.boxes e.inc).enter c (s.controls c).req.method) :=
  .begin c _ (k.away c e.inc (by simp [hpc,target]))

section Step
variable (h : step s a=some t) (k : Talk s)
include h k

theorem matched_step (i : Inc) : Matched (t.boxes i) ∧ Faithful dispatch (t.boxes i) := by
  have hm:=k.matched i
  have hf:=k.faithful i
  cases box_effect h i with
  | same hs => exact hs ▸ ⟨hm,hf⟩
  | spawned o _ ht => exact ht ▸ ⟨matched_init _,faithful_init _⟩
  | entered c e hpc _ hi ht _ =>
    subst hi
    rw [ht]
    exact ⟨hm.step (enter_case k hpc),hf.step (enter_case k hpc)⟩
  | moved x _ ht =>
    have hc:=Wire.Attempts.step_cases ht
    exact ⟨hm.step hc,hf.step hc⟩
  | redrawn ids ht =>
    rw [ht]
    exact ⟨⟨hm.inbox_lt,hm.replies_lt,hm.waiting_lt,hm.unanswered,hm.own_request,hm.own_reply,
      hm.answered⟩,⟨hf.idle,hf.request,hf.response⟩⟩

theorem away_step (c : Nat) (i : Inc) (hc : target (t.controls c).pc≠some i) : (t.boxes i).calls c=.idle := by
  have hs:=k.away c i fun hi => hc (target_stable h hi).1
  cases box_effect h i with
  | same ht => exact ht ▸ hs
  | spawned o _ ht => rw [ht]; rfl
  | entered d e _ _ _ ht hq =>
    have hne : c≠d := by
      rintro rfl
      simp [hq,target] at hc
    simpa [ht,Wire.Mailbox.State.enter,setCall_calls,hne] using hs
  | moved x hx ht => exact idle_step (Wire.Attempts.step_cases ht) (hx c) hs
  | redrawn ids ht => rw [ht]; exact hs

omit k in
theorem named_step (w : Wf s) (k : Talk s) (c : Nat) (i : Inc) (hc : target (t.controls c).pc=some i) :
    Inserted t i ∧ nameOf t i=(t.controls c).name := by
  have hold : Inserted s i ∧ nameOf s i=(t.controls c).name := by
    rcases target_before h hc with hs | ⟨e,_,_,he,rfl,hn⟩
    · obtain ⟨hin,hn⟩ := k.named c i hs
      exact ⟨hin,hn.trans (target_stable h hs).2.1.symm⟩
    · exact ⟨w.entry_inserted _ e he,(w.entry_name _ e he).trans hn.symm⟩
  exact ⟨hold.1.stable h,(name_stable h hold.1.not_idle).trans hold.2⟩

theorem req_kept (hc : (s.boxes i).calls c≠.idle) : (t.controls c).req=(s.controls c).req := by
  by_cases hi : target (s.controls c).pc=some i
  · exact (target_stable h hi).2.2
  · exact absurd (k.away c i hi) hc

theorem asked_step (c : Nat) (i : Inc) (hc : (t.boxes i).calls c≠.idle) :
    (t.boxes i).reqs c=some (t.controls c).req.method := by
  cases box_effect h i with
  | same ht =>
    rw [ht] at hc ⊢
    rw [k.asked c i hc,req_kept h k hc]
  | spawned o _ ht => simp [ht,Wire.Mailbox.init] at hc
  | entered d e _ _ _ ht hq =>
    by_cases he : c=d
    · subst he
      simp [ht,hq,Wire.Mailbox.State.enter]
    · have hold : (s.boxes i).calls c≠.idle := by
        simpa [ht,Wire.Mailbox.State.enter,setCall_calls,he] using hc
      rw [req_kept h k hold,← k.asked c i hold,ht]
      simp [Wire.Mailbox.State.enter,he,Wire.Mailbox.State.setCall]
  | moved x hx ht =>
    have hold : (s.boxes i).calls c≠.idle :=
      fun hi => hc (idle_step (Wire.Attempts.step_cases ht) (hx c) hi)
    rw [req_kept h k hold,← k.asked c i hold]
    exact reqs_step (Wire.Attempts.step_cases ht) hold
  | redrawn ids ht =>
    rw [ht] at hc ⊢
    rw [req_kept h k hc]
    exact k.asked c i hc

omit k in
theorem rpc_kept (hc : (s.controls c).pc=.rpc i) (ht : talking ((s.boxes i).calls c)=true) :
    (t.controls c).pc=.rpc i := by
  rcases control_frame h c with hs | ⟨n,req,_,hpc,_⟩ | ⟨_,hk⟩
  · rw [hs,hc]
  · simp [hc] at hpc
  · cases hk with
    | broken j hpc hr | answered j r hpc hr =>
      cases hc.symm.trans hpc
      simp [hr,talking] at ht
    | missing hpc | found _ hpc | merge _ _ hpc | store _ _ _ hpc | record _ _ _ _ hpc
    | recordGone _ _ _ hpc => simp [hc] at hpc

theorem inside_step (c : Nat) (i : Inc) (hc : talking ((t.boxes i).calls c)=true) : (t.controls c).pc=.rpc i := by
  have old (hs : talking ((s.boxes i).calls c)=true) : (t.controls c).pc=.rpc i :=
    rpc_kept h (k.inside c i hs) hs
  cases box_effect h i with
  | same ht => exact old (ht ▸ hc)
  | spawned o _ ht => simp [ht,Wire.Mailbox.init,talking] at hc
  | entered d e _ _ _ ht hq =>
    by_cases he : c=d
    · subst he
      rw [hq]
    · exact old (by simpa [ht,Wire.Mailbox.State.enter,setCall_calls,he] using hc)
  | moved x hx ht => exact old (talking_before (Wire.Attempts.step_cases ht) (hx c) hc)
  | redrawn ids ht => exact old (by rw [ht] at hc; exact hc)

theorem Talk.step (w : Wf s) : Talk t where
  matched i := (matched_step h k i).1
  faithful i := (matched_step h k i).2
  away := away_step h k
  named := named_step h w k
  asked := asked_step h k
  inside := inside_step h k

end Step

theorem talk_init (m : Bool) : Talk (init m) where
  matched _ := matched_init _
  faithful _ := faithful_init _
  away _ _ _ := rfl
  named := by simp [init,target]
  asked _ _ hc := absurd rfl hc
  inside _ _ hc := by simp [init,Wire.Mailbox.init,talking] at hc

theorem talk_reach {ok : Daemon → Act → Prop} (hr : Reach step ok (init m) s) : Talk s :=
  hr.invariant (talk_init m) fun hu k _ h => Talk.step h k (wf_reach hu)

end Waymux.Registry.ControlTalk
