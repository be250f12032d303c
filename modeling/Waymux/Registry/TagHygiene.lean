import Waymux.Registry.TagStore
import Waymux.Registry.Schedules
import Waymux.Registry.ControlTalk

/-!
# Whose tags `list_windows` shows

`tag_window` asks the session, then stores under its name; `list_windows` asks the session, then
merges what it finds there. Neither looks at the session map again.
-/

namespace Waymux.Registry.TagHygiene
open HostResources TaskState TaskSteps StepCases TaskFrames Incarnations Processes
open NameExclusive TagStore Schedules ControlTalk Interleave.Runs Wire.Attempts

variable {s t : Daemon} {a : Act} {i j : Inc} {c : Nat} {n : Name} {m : Bool}

/-- Call `c` was given a list of windows by session `i` that has window `v`. -/
def Saw (s : Daemon) (i : Inc) (c v : Nat) : Prop :=
  ∃ resp,(c,SessionCtlMethod.listWindows,resp)∈(s.boxes i).log ∧ ∃ x∈resp.windows,x.id=v

/-- `g` was stored by a `tag_window` call that found window `v` in session `i`. -/
structure Validated (s : Daemon) (i : Inc) (v : Nat) (g : Tag) : Prop where
  inc : g.inc=i
  req : (s.controls g.call).req=.tagWindow v g.labels
  stored : (s.controls g.call).pc=.done (some i) .ok
  saw : Saw s i g.call v

/-- A window of a listing of `i` has tags validated in `i`, or none. -/
def Shown (s : Daemon) : Prop :=
  ∀ c i ws,(s.controls c).pc=.done (some i) (.windows ws) → ∀ l∈ws,
    (∃ g,l.tag=some g ∧ l.window.tags=g.labels ∧ Validated s i l.window.id g) ∨
      (l.tag=none ∧ l.window.tags=[])

/-- No call of `create`, `destroy`, `tag_window` or `list_windows` is under way. -/
def AllReturned (s : Daemon) : Prop :=
  (∀ i,(s.creates i).pc=.idle ∨ ∃ err,(s.creates i).pc=.done err) ∧
  (∀ d,(s.destroys d).pc=.idle ∨ ∃ found,(s.destroys d).pc=.done found) ∧
  ∀ c,returned (s.controls c).pc=true

/- The supervisor has taken its session off the map and will erase the tags. -/
def closing : SupPc → Bool
  | .emit _ _ | .unmount _ _ | .tags _ => true
  | _ => false

/-- With no call under way, a tag belongs to a registered session or is about to be erased. -/
def Forgotten (s : Daemon) : Prop :=
  AllReturned s → ∀ n v g,s.tags n v=some g →
    StillThere s n g.inc ∨ closing (s.sups g.inc)=true

/-- Control calls count towards the incarnation they were resolved to. -/
def Engaged (s : Daemon) (i : Inc) : Prop :=
  Busy s i ∨ ∃ c,target (s.controls c).pc=some i ∧ returned (s.controls c).pc=false

structure Tidy (s : Daemon) (a : Act) : Prop where
  alone : Alone Engaged s a
  stores : StoresLive s a

theorem Engaged.not_idle (w : Wf s) (k : Talk s) (h : Engaged s i) : (s.creates i).pc≠.idle := by
  rcases h with hb | ⟨c,hc,_⟩
  · exact hb.not_idle w
  · exact (k.named c i hc).1.not_idle

theorem engaged_before (w : Wf s) (h : step s a=some t) (he : Engaged t i) : Engaged s i ∨ Enters s a i := by
  rcases he with hb | ⟨c,hc,hr⟩
  · exact (busy_before w h hb).imp .inl id
  · refine .inl ?_
    rcases target_before h hc with hs | ⟨e,_,_,he,rfl,_⟩
    · exact .inr ⟨c,hs,unreturned_before h hs hr⟩
    · exact .inl (entry_busy w he)

theorem sole_engaged (hr : Reach step Tidy (init m) s) : Sole Engaged s := by
  refine hr.invariant ?_ fun {u v a} hu he ha h => ?_
  · intro i _ hb
    exact absurd rfl (hb.not_idle (wf_init m) (talk_init m))
  · have w:=wf_reach hu
    exact sole_step he ha.alone h (fun _ hb => hb.not_idle w (talk_reach hu)) fun _ =>
      engaged_before w h

def Bare (b : Box) : Prop :=
  (∀ x∈b.sess.windows,x.tags=[]) ∧ ∀ e∈b.log,∀ x∈e.2.2.windows,x.tags=[]

theorem bare_moved {b b' : Box} {x : BoxAct} (h : Wire.Attempts.StepCase dispatch b x b')
    (hb : Bare b) : Bare b' := by
  rcases exec_before h with ⟨hl,hs⟩ | ⟨_,c,r,_,_,_,_,hl,hs,_⟩
  · rw [Bare,hl,hs]
    exact hb
  · rw [Bare,hl,hs]
    refine ⟨?_,fun e he => ?_⟩
    · cases r <;> exact hb.1
    · rcases List.mem_append.mp he with he | he
      · exact hb.2 e he
      · cases List.mem_singleton.mp he
        cases r with
        | listWindows => exact hb.1
        | resize | other => simp [dispatch]

theorem bare_step (h : step s a=some t) (hs : ∀ i,Bare (s.boxes i)) (i : Inc) : Bare (t.boxes i) := by
  cases box_effect h i with
  | same ht => exact ht ▸ hs i
  | spawned o _ ht => simp [ht,Bare,Wire.Mailbox.init]
  | entered c e _ _ _ ht => rw [ht]; exact hs i
  | moved x _ ht => exact bare_moved (Wire.Attempts.step_cases ht) (hs i)
  | redrawn ids ht =>
    rw [ht]
    exact ⟨by simp [untagged],(hs i).2⟩

structure Answered (s : Daemon) : Prop where
  bare : ∀ i,Bare (s.boxes i)
  merging : ∀ c i ws,(s.controls c).pc=.merge i ws →
    ∃ resp,(c,SessionCtlMethod.listWindows,resp)∈(s.boxes i).log ∧ resp.windows=ws
  storing : ∀ c i,(s.controls c).pc=.store i →
    ∃ v ls,(s.controls c).req=.tagWindow v ls ∧ Saw s i c v

theorem Saw.stable (h : step s a=some t) (hi : Inserted s i) {v : Nat} (hs : Saw s i c v) : Saw t i c v := by
  obtain ⟨resp,hl,hx⟩ := hs
  exact ⟨resp,log_kept h (inserted_pc hi) hl,hx⟩

section Answers
variable (h : step s a=some t) (k : Talk s) (z : Answered s)
include h k z

theorem merging_step (c : Nat) (i : Inc) (ws : List WindowInfo) (hp : (t.controls c).pc=.merge i ws) :
    ∃ resp,(c,SessionCtlMethod.listWindows,resp)∈(t.boxes i).log ∧ resp.windows=ws := by
  have kept {e} (hi : target (s.controls c).pc=some i) (he : e∈(s.boxes i).log) : e∈(t.boxes i).log :=
    log_kept h (inserted_pc (k.named c i hi).1) he
  have hk:=pc_cases h c
  rw [hp] at hk
  cases hk with
  | same _ hpc =>
    obtain ⟨resp,hl,hw⟩ := z.merging c i ws hpc
    exact ⟨resp,kept (by rw [hpc]; rfl) hl,hw⟩
  | merge _ r hpc hd hm =>
    obtain ⟨rq,hr,hl⟩ := (k.matched i).answered c r hd
    have hasked:=k.asked c i (by simp [hd])
    rw [hr,hm] at hasked
    cases hasked
    exact ⟨r,kept (by rw [hpc]; rfl) hl,rfl⟩

theorem storing_step (c : Nat) (i : Inc) (hp : (t.controls c).pc=.store i) :
    ∃ v ls,(t.controls c).req=.tagWindow v ls ∧ Saw t i c v := by
  have hk:=pc_cases h c
  rw [hp] at hk
  cases hk with
  | same hs hpc =>
    obtain ⟨v,ls,hr,hw⟩ := z.storing c i hpc
    exact ⟨v,ls,hs ▸ hr,hw.stable h (k.named c i (by rw [hpc]; rfl)).1⟩
  | store _ ws v ls hpc hr hx =>
    obtain ⟨resp,hl,rfl⟩ := z.merging c i ws hpc
    have hw : Saw s i c v := ⟨resp,hl,hx⟩
    exact ⟨v,ls,hr,hw.stable h (k.named c i (by rw [hpc]; rfl)).1⟩

theorem Answered.step : Answered t :=
  ⟨bare_step h z.bare,merging_step h k z,storing_step h k z⟩

end Answers

theorem answered_init (m : Bool) : Answered (init m) where
  bare i := by simp [init,Bare,Wire.Mailbox.init]
  merging c i ws hp := by simp [init] at hp
  storing c i hp := by simp [init] at hp

theorem answered_reach {ok : Daemon → Act → Prop} (hr : Reach step ok (init m) s) : Answered s :=
  hr.invariant (answered_init m) fun hu z _ h => Answered.step h (talk_reach hu) z

def Tagged (s : Daemon) : Prop := ∀ n v g,s.tags n v=some g → Validated s g.inc v g

theorem returned_kept (h : step s a=some t) {o : Option Inc} {res : ControlRes}
    (hp : (s.controls c).pc=.done o res) : t.controls c=s.controls c := by
  rcases control_frame h c with hs | ⟨_,_,_,hpc,_⟩ | ⟨_,hk⟩
  · exact hs
  · simp [hp] at hpc
  · cases hk <;> simp_all

theorem Validated.stable (h : step s a=some t) (k : Talk s) {v : Nat} {g : Tag}
    (hv : Validated s i v g) : Validated t i v g := by
  have hc:=returned_kept h hv.stored
  have hi:=(k.named g.call i (by rw [hv.stored]; rfl)).1
  exact ⟨hv.inc,by rw [hc,hv.req],by rw [hc,hv.stored],hv.saw.stable h hi⟩

theorem tagged_step (h : step s a=some t) (k : Talk s) (z : Answered s) (hs : Tagged s) : Tagged t := by
  intro n v g hg
  cases tag_effect h n v with
  | same ht => exact (hs n v g (ht ▸ hg)).stable h k
  | forgotten d e _ _ ht | erased i o code _ _ ht => simp [hg] at ht
  | stored c i ls hpc hq hn ht =>
    cases hg.symm.trans ht
    obtain ⟨v',ls',hr,hsaw⟩ := z.storing c i hpc
    cases hq.symm.trans hr
    cases controlStep_cases h with
    | store j v' ls' hp =>
      cases hpc.symm.trans hp
      exact ⟨rfl,by simpa [rpcAt,storeTags] using hq,by simp [rpcAt],hsaw⟩
    | missing hp | found e hp | broken j hp | answered j r hp | merge j ws hp | record j w u e hp
    | recordGone j w u hp => simp [hpc] at hp

theorem tagged_reach {ok : Daemon → Act → Prop} (hr : Reach step ok (init m) s) : Tagged s :=
  hr.invariant (by simp [Tagged,init]) fun hu hs _ h =>
    tagged_step h (talk_reach hu) (answered_reach hu) hs

theorem tag_of_target (k : Talk s) (hx : Sole Engaged s) (hl : TagsLive s) {v : Nat} {g : Tag}
    (hg : s.tags (s.controls c).name v=some g) (ht : target (s.controls c).pc=some i)
    (hr : returned (s.controls c).pc=false) : g.inc=i := by
  obtain ⟨hn,hp⟩ := hl _ v g hg
  have hb : Busy s g.inc := sup_busy rfl (tagging_live hp)
  exact hx _ _ (.inl hb) (.inr ⟨c,ht,hr⟩) (hn.trans (k.named c i ht).2.symm)

theorem shown_step (h : step s a=some t) (k : Talk s) (z : Answered s) (hx : Sole Engaged s)
    (hl : TagsLive s) (hg : Tagged s) (hs : Shown s) : Shown t := by
  intro c i ws hp l hmem
  have hk:=pc_cases h c
  rw [hp] at hk
  cases hk with
  | same _ hpc =>
    rcases hs c i ws hpc l hmem with ⟨g,hlt,htags,hv⟩ | hnone
    · exact .inl ⟨g,hlt,htags,hv.stable h k⟩
    · exact .inr hnone
  | ended _ _ hres => exact absurd rfl (hres ws)
  | windows _ vs hpc =>
    obtain ⟨x,hxm,rfl⟩ := List.mem_map.mp hmem
    obtain ⟨resp,hlog,rfl⟩ := z.merging c i vs hpc
    unfold mergeTags
    split
    next g htag =>
      have hi:=tag_of_target k hx hl htag (by rw [hpc]; rfl) (by rw [hpc]; rfl)
      exact .inl ⟨g,rfl,rfl,(hi ▸ hg _ _ g htag : Validated s i x.id g).stable h k⟩
    · exact .inr ⟨rfl,(z.bare i).2 _ hlog x hxm⟩

theorem shown_reach (hr : Reach step Tidy (init m) s) : Shown s := by
  refine hr.invariant (by simp [Shown,init]) fun {u v a} hu hs ha h => ?_
  have hl : TagsLive u := tagsLive_reach (fun _ _ hok => hok.stores) hu
  exact shown_step h (talk_reach hu) (answered_reach hu) (sole_engaged hu) hl (tagged_reach hu) hs

/- A destroy call between the removal of its entry and the erasure. -/
def forgetting : DestroyPc → Option SessionEntry
  | .emit e | .tags e => some e
  | _ => none

/-- The session is registered, or the task that took it off the map is going
to erase its tags. -/
def Accounted (s : Daemon) (n : Name) (i : Inc) : Prop :=
  StillThere s n i ∨ closing (s.sups i)=true ∨
    ∃ d e,forgetting (s.destroys d).pc=some e ∧ e.inc=i ∧ (s.destroys d).name=n

section Erasure
variable (h : step s a=some t)
include h

theorem registered_accounted (w : Wf s) (hx : Sole Busy s) (hs : StillThere s n i) : Accounted t n i := by
  obtain ⟨e,he,rfl⟩ := hs
  cases entry_effect h n with
  | same ht => exact .inl ⟨e,ht ▸ he,rfl⟩
  | inserted i o _ _ hnone => simp [he] at hnone
  | recorded _ _ _ f _ _ hf ht | pruned _ _ _ f _ _ hf ht | resized _ _ _ _ f _ _ _ hf ht =>
    cases he.symm.trans hf
    exact .inl ⟨_,ht,rfl⟩
  | destroyed d f hpc hn =>
    refine .inr (.inr ⟨d,e,?_⟩)
    cases destroyStep_cases h with
    | remove e' _ he' =>
      rw [hn,he] at he'
      cases he'
      simp [destroyAt,take,setEntry,forgetting,hn]
    | missing _ hnone => simp [hn,he] at hnone
    | emit e' hp | tags e' hp | kill e' hp | unmount e' hp | noTmpfs e' hp | cleanup e' hp
    | noCgroup e' hp => simp [hpc] at hp
  | collected j o code f hpc hn =>
    -- the supervisor that finds the entry is its own
    have hj : j=e.inc := hx _ _ (sup_busy hpc rfl) (entry_busy w he) (hn.trans (w.entry_name n e he).symm)
    subst hj
    refine .inr (.inl ?_)
    cases supStep_cases h with
    | removed code e' pc _ _ hp =>
      rcases hp with ⟨_,rfl⟩ | ⟨_,rfl⟩ <;> simp [supAt,closing]
    | absent => simp [supAt,closing]
    | exited st hp => rcases hp with hp | hp <;> simp [hpc] at hp
    | killed hp | escalated c hp | emit c e' hp | unmount c hp | noTmpfs c hp | tags c hp
    | unlink c q hp | rmdir c hp | announce c hp => simp [hpc] at hp

theorem closing_step (w : Wf s) (hc : closing (s.sups i)=true) :
    closing (t.sups i)=true ∨ ∀ v,t.tags (nameOf s i) v=none := by
  have hi : Inserted s i := (w.sup_iff i).mp fun hn => by simp [hn,closing] at hc
  rcases sup_frame h i with hs | ⟨hpc,_⟩ | ⟨o,_,hk⟩
  · exact .inl (hs ▸ hc)
  · rcases hi with hi | hi <;> simp [hi] at hpc
  · cases hk with
    | tags => exact .inr fun v => by simp [supAt,forgetTags]
    | exited st hp => rcases hp with hp | hp <;> simp [hp,closing] at hc
    | killed hp | escalated c hp | removed c e pc hp | absent c hp | unlink c q hp | rmdir c hp
    | announce c hp => simp [hp,closing] at hc
    | _ => exact .inl (by simp [supAt,closing])

theorem forgetting_step {d : Nat} {e : SessionEntry} (hf : forgetting (s.destroys d).pc=some e) :
    (forgetting (t.destroys d).pc=some e ∧ (t.destroys d).name=(s.destroys d).name) ∨
      ∀ v,t.tags (s.destroys d).name v=none := by
  rcases destroy_frame h d with hs | ⟨_,_,hp,_⟩ | ⟨_,hk⟩
  · rw [hs]
    exact .inl ⟨hf,rfl⟩
  · simp [hp,forgetting] at hf
  · cases hk with
    | tags => exact .inr fun v => by simp [destroyAt,forgetTags]
    | emit e' hp =>
      rw [hp] at hf
      exact .inl (by simpa [destroyAt,sigterm,forgetting] using hf)
    | missing hp | remove e' hp | kill e' hp | unmount e' hp | noTmpfs e' hp
    | cleanup e' hp | noCgroup e' hp => simp [hp,forgetting] at hf

theorem accounted_step (w : Wf s) (hx : Sole Busy s) {v : Nat} {g : Tag} (hg : t.tags n v=some g)
    (hn : nameOf s g.inc=n) (ha : Accounted s n g.inc) : Accounted t n g.inc := by
  rcases ha with hs | hc | ⟨d,e,hf,hi,hd⟩
  · exact registered_accounted h w hx hs
  · rcases closing_step h w hc with hc | hnone
    · exact .inr (.inl hc)
    · simp [← hn,hnone v] at hg
  · rcases forgetting_step h hf with ⟨hf,hd'⟩ | hnone
    · exact .inr (.inr ⟨d,e,hf,hi,hd'.trans hd⟩)
    · simp [← hd,hnone v] at hg

end Erasure

def AllAccounted (s : Daemon) : Prop := ∀ n v g,s.tags n v=some g → Accounted s n g.inc

theorem accounted_reach (hr : Reach step Tidy (init m) s) : AllAccounted s := by
  refine hr.invariant (by simp [AllAccounted,init]) fun {u w a} hu hs hok h n v g hg => ?_
  have wf:=wf_reach hu
  have hx : Sole Busy u := (sole_engaged hu).mono fun _ => .inl
  have hl : TagsLive u := tagsLive_reach (fun _ _ hok => hok.stores) hu
  cases tag_effect h n v with
  | same ht =>
    rw [ht] at hg
    exact accounted_step h wf hx (ht ▸ hg) (hl n v g hg).1 (hs n v g hg)
  | forgotten d e _ _ ht | erased i o code _ _ ht => simp [hg] at ht
  | stored c i ls hpc _ hn ht =>
    cases hg.symm.trans ht
    exact registered_accounted h wf hx (hn ▸ hok.stores c i rfl hpc)

/-- In every run that meets the condition, a listing shows only tags validated in the session it lists, and
no tag is left behind. -/
theorem tag_hygiene (hr : Reach step Tidy (init m) s) : Shown s ∧ Forgotten s := by
  refine ⟨shown_reach hr,fun hall n v g hg => ?_⟩
  rcases accounted_reach hr n v g hg with hs | hc | ⟨d,e,hf,_⟩
  · exact .inl hs
  · exact .inr hc
  · rcases hall.2.1 d with hp | ⟨_,hp⟩ <;> simp [hp,forgetting] at hf

def storesOk (s : Daemon) : Act → Bool
  | .controlStep c =>
      match (s.controls c).pc with
      | .store i => (s.sessions (s.controls c).name).any (·.inc == i)
      | _ => true
  | _ => true

theorem storesLive_of_test (h : storesOk s a=true) : StoresLive s a := by
  rintro c i rfl hpc
  simpa [storesOk,hpc,Option.any_eq_true,StillThere] using h

theorem names_once_engaged (m : Bool) {as : List Act} (h : (as.filterMap nameGiven).Nodup) :
    Meets step (Alone Engaged) (init m) as :=
  meets_once m (fun _ _ hu => alone_once fun _ hb => hb.not_idle (wf_reach hu) (talk_reach hu)) h

def foundWindow : List Act :=
  createRun 0 10 (plain "a") ++
    ([.windows 0 [7],.control 0 "a" (.tagWindow 7 ["main"]),.controlStep 0,
     .box 0 (.acquire 0 true),.box 0 (.connect 0 true)] : List Act)++talkRun 0 0 0 ++
     ([.controlStep 0] : List Act)

def listedAndDestroyed : List Act :=
  foundWindow++([.controlStep 0,.control 1 "a" .listWindows,.controlStep 1,
    .box 0 (.acquire 1 true)] : List Act)++talkRun 0 1 1++([.controlStep 1] : List Act) ++
    destroyRun 0 "a" ++ exitRun 0

theorem tag_hygiene_destroyed : ∃ s,Reach step Tidy (init false) s ∧
    (s.controls 1).pc =
      .done (some 0) (.windows [⟨⟨7,["main"]⟩,some ⟨["main"],0,0⟩⟩]) ∧
    s.tags "a" 7=none ∧ Shown s ∧ Forgotten s := by
  have hstores : Meets step StoresLive (init false) listedAndDestroyed :=
    meets_of_checked (fun _ _ h => storesLive_of_test h) (by decide +kernel)
  have halone : Meets step (Alone Engaged) (init false) listedAndDestroyed :=
    names_once_engaged false (by decide)
  have hmeets : Meets step Tidy (init false) listedAndDestroyed :=
    (halone.and hstores).mono fun _ _ hok => ⟨hok.1,hok.2⟩
  have hr : Reach step Tidy (init false) _ := reach_exec _ hmeets (by decide +kernel)
  refine ⟨_,hr,?_,?_,tag_hygiene hr⟩ <;> decide +kernel

/-- The tags are stored when the session and its supervisor are gone; then the name is created again. -/
def storedLate : List Act :=
  foundWindow++destroyRun 0 "a" ++ exitRun 0++([.controlStep 0] : List Act) ++
    createRun 1 11 (plain "a") ++
    ([.windows 1 [7],.control 1 "a" .listWindows,.controlStep 1,.box 1 (.acquire 1 true),
     .box 1 (.connect 1 true)] : List Act)++talkRun 1 1 0++([.controlStep 1] : List Act)

theorem stale_tags_listed : ∃ s,Reach step Free (init false) s ∧
    (s.controls 1).pc =
      .done (some 1) (.windows [⟨⟨7,["main"]⟩,some ⟨["main"],0,0⟩⟩]) ∧ ¬Shown s := by
  have hr : Reach step Free (init false) _ := reach_free storedLate (by decide +kernel)
  refine ⟨_,hr,by decide +kernel,fun hsh => ?_⟩
  rcases hsh 1 1 [⟨⟨7,["main"]⟩,some ⟨["main"],0,0⟩⟩] (by decide +kernel) _ List.mem_cons_self with
    ⟨g,hg,_,hv⟩ | ⟨hnone,_⟩
  · cases hg
    cases hv.inc
  · cases hnone

end Waymux.Registry.TagHygiene
