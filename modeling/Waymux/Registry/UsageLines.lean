import Waymux.Registry.Schedules

/-!
# session_start and session_stop

A daemon built with metering (`usage_events.rs`).
-/

namespace Waymux.Registry.UsageLines
open HostResources TaskState TaskSteps StepCases TaskFrames Incarnations List
open NameExclusive Schedules Interleave.Runs Interleave.Logs

variable {s t : Daemon} {a : Act} {i j : Inc} {n : Name}

def startInc : UsageLine → Option Inc
  | .start _ _ i => some i
  | .stop .. => none
def stopInc : UsageLine → Option Inc
  | .start .. => none
  | .stop _ _ i => some i

/- `true` for a start line of `n`, `false` for a stop line of `n`. -/
def kindAt (n : Name) : UsageLine → Option Bool
  | .start x _ _ => if x=n then some true else none
  | .stop x _ _ => if x=n then some false else none

def starts (s : Daemon) : List Inc := s.usage.filterMap startInc
def stops (s : Daemon) : List Inc := s.usage.filterMap stopInc
def kinds (s : Daemon) (n : Name) : List Bool := s.usage.filterMap (kindAt n)

theorem starts_history_step (hm : s.metering=true) (hs : starts s=s.history)
    (h : step s a=some t) : starts t=t.history := by
  rcases history_frame h with ht | ⟨k,o,rfl,hpc,hann,ht⟩
  · rw [ht,← hs]
    unfold starts
    cases usage_effect h with
    | same hu => rw [hu]
    | destroyed d e _ hu | exited k o code e _ hu => simp [hu,startInc]
    | start k o hpc hu =>
      -- a start line comes with an insertion
      have hk : ¬Inserted s k := (inFlight_of_pc hpc rfl).not_inserted
      cases createStep_cases (show createStep s k o=some t from h) with
      | insert => simp at ht
      | lost => simp [createAt,setCreate,killSession] at hu
      | _ => simp_all
  · have hk : ¬Inserted s k := (inFlight_of_pc hpc rfl).not_inserted
    have hu:=(inserted_now h (.inl hann) hk).2.2.2
    rw [ht,← hs]
    simp [starts,hu,hm,startInc]

def emitD : DestroyPc → Option Inc
  | .emit e => some e.inc
  | _ => none
def emitS : SupPc → Option Inc
  | .emit _ e => some e.inc
  | _ => none

def owed (s : Daemon) : Nat ⊕ Inc → Option Inc
  | .inl d => emitD (s.destroys d).pc
  | .inr k => emitS (s.sups k)

def Stops (s : Daemon) : Prop := Ledger (fun i => s.removed i≠none) (owed s) (stops s)

theorem owed_destroy {d : Nat} {pc : DestroyPc} (u : Daemon) (hd : u.destroys=s.destroys)
    (hk : u.sups=s.sups) : ∀ y,y≠.inl d → owed (destroyAt u d pc) y=owed s y := by
  rintro (d' | k) hy
  · have hne : d'≠d := fun h => hy (h ▸ rfl)
    simp [owed,destroyAt,hne,hd]
  · simp [owed,destroyAt,hk]

theorem owed_sup {k : Inc} {pc : SupPc} (u : Daemon) (hd : u.destroys=s.destroys)
    (hk : u.sups=s.sups) : ∀ y,y≠.inr k → owed (supAt u k pc) y=owed s y := by
  rintro (d | k') hy
  · simp [owed,supAt,hd]
  · have hne : k'≠k := fun h => hy (h ▸ rfl)
    simp [owed,supAt,hne,hk]

inductive StopEffect (s t : Daemon) : Prop
  | same : (∀ y,owed t y=owed s y) → t.removed=s.removed → stops t=stops s → StopEffect s t
  | taken (x : Nat ⊕ Inc) (e : SessionEntry) : s.removed e.inc=none → owed s x=none →
      owed t x=some e.inc → (∀ y,y≠x → owed t y=owed s y) →
      t.removed=Function.update s.removed e.inc (some e) → stops t=stops s → StopEffect s t
  | written (x : Nat ⊕ Inc) (i : Inc) : owed s x=some i → owed t x=none →
      (∀ y,y≠x → owed t y=owed s y) → t.removed=s.removed → stops t=stops s++[i] →
      StopEffect s t

theorem StopEffect.elsewhere (hd : t.destroys=s.destroys) (hk : t.sups=s.sups) (hr : t.removed=s.removed)
    (hu : t.usage=s.usage) : StopEffect s t := by
  refine .same (fun y => ?_) hr ?_
  · unfold owed
    rw [hd,hk]
  · unfold stops
    rw [hu]

theorem destroy_stop {d : Nat} (w : Wf s) (hm : s.metering=true) (hc : DestroyCase s d t) : StopEffect s t := by
  have idle {pc : DestroyPc} (u : Daemon) (hd : u.destroys=s.destroys) (hk : u.sups=s.sups)
      (hs : emitD (s.destroys d).pc=none) (hp : emitD pc=none) (y : Nat ⊕ Inc) :
      owed (destroyAt u d pc) y=owed s y := by
    by_cases hy : y=.inl d
    · subst hy
      simp [owed,destroyAt,hs,hp]
    · exact owed_destroy u hd hk y hy
  cases hc with
  | remove e hpc hs =>
    exact .taken (.inl d) e (w.entry_present _ e hs) (by simp [owed,hpc,emitD])
      (by simp [owed,destroyAt,emitD]) (owed_destroy _ rfl rfl) rfl rfl
  | emit e hpc =>
    refine .written (.inl d) e.inc (by simp [owed,hpc,emitD]) (by simp [owed,destroyAt,emitD])
      (owed_destroy _ rfl rfl) rfl ?_
    simp [stops,destroyAt,sigterm,stopInc,hm]
  | missing hpc | tags e hpc | kill e hpc | unmount e hpc | noTmpfs e hpc | cleanup e hpc
  | noCgroup e hpc => exact .same (idle _ rfl rfl (by rw [hpc]; rfl) rfl) rfl rfl

theorem sup_stop (w : Wf s) (hm : s.metering=true) (hc : SupCase s i t) : StopEffect s t := by
  have idle {pc : SupPc} (u : Daemon) (hd : u.destroys=s.destroys) (hk : u.sups=s.sups)
      (hs : emitS (s.sups i)=none) (hp : emitS pc=none) (y : Nat ⊕ Inc) :
      owed (supAt u i pc) y=owed s y := by
    by_cases hy : y=.inr i
    · subst hy
      simp [owed,supAt,hs,hp]
    · exact owed_sup u hd hk y hy
  cases hc with
  | removed code e pc hpc hs hp =>
    rcases hp with ⟨_,rfl⟩ | ⟨hf,_⟩
    · exact .taken (.inr i) e (w.entry_present _ e hs) (by simp [owed,hpc,emitS])
        (by simp [owed,supAt,emitS]) (owed_sup _ rfl rfl) rfl rfl
    · simp [hm] at hf
  | emit code e hpc =>
    refine .written (.inr i) e.inc (by simp [owed,hpc,emitS]) (by simp [owed,supAt,emitS])
      (owed_sup _ rfl rfl) rfl ?_
    simp [stops,supAt,stopInc]
  | exited st hpc =>
    exact .same (idle _ rfl rfl (by rcases hpc with hpc | hpc <;> rw [hpc] <;> rfl) rfl) rfl rfl
  | unlink code k hpc => exact .same (idle _ rfl rfl (by rw [hpc]; rfl) (by cases k <;> rfl)) rfl rfl
  | killed hpc | escalated code hpc | absent code hpc | unmount code hpc | noTmpfs code hpc
  | tags code hpc | rmdir code hpc | announce code hpc =>
    exact .same (idle _ rfl rfl (by rw [hpc]; rfl) rfl) rfl rfl

theorem stop_effect (w : Wf s) (hm : s.metering=true) (h : step s a=some t) : StopEffect s t := by
  cases step_cases h with
  | destroyStep d hc => exact destroy_stop w hm hc
  | supStep i o hc => exact sup_stop w hm hc
  | destroy d n hpc =>
    refine .same ?_ rfl rfl
    rintro (d' | k)
    · by_cases hd : d'=d
      · subst hd
        simp [owed,hpc,emitD]
      · simp [owed,hd]
    · rfl
  | createStep i o _ hc =>
    cases hc with
    | insert hpc =>
      have hnone : s.sups i=.none := by
        by_contra hne
        exact (inFlight_of_pc hpc rfl).not_inserted ((w.sup_iff i).mp hne)
      refine .same ?_ rfl (by simp [stops,hm,stopInc])
      rintro (d | k)
      · rfl
      · by_cases hk : k=i
        · subst hk
          simp [owed,createAt,setCreate,supAt,hnone,emitS]
        · simp [owed,createAt,setCreate,supAt,setEntry,hk]
    | _ => exact .elsewhere rfl rfl rfl rfl
  | cleanStep i o hc | spawnStep c o hc | reapStep c hc | controlStep c hc =>
    cases hc <;> exact .elsewhere rfl rfl rfl rfl
  | _ => exact .elsewhere rfl rfl rfl rfl

theorem stops_step (w : Wf s) (hm : s.metering=true) (hl : Stops s) (h : step s a=some t) : Stops t := by
  unfold Stops
  cases stop_effect w hm h with
  | same hh hr hs =>
    rw [hs]
    exact hl.same (fun i => by rw [hr]) hh
  | taken x e hi hx hx' hh hr hs =>
    rw [hs]
    refine hl.take (not_not.mpr hi) hx hx' hh fun j => ?_
    rw [hr]
    by_cases hj : j=e.inc <;> simp [hj]
  | written x i hx hx' hh hr hs =>
    rw [hs]
    exact hl.write hx hx' hh fun j => by rw [hr]

/-- A supervisor takes its last step only when no destroy call still owes the
stop line of its session. -/
def StopsFirst (s : Daemon) (a : Act) : Prop :=
  ∀ i o code,a=.supStep i o → s.sups i=.announce code → ∀ d,owed s (.inl d)≠some i

/-- A name is taken again only when no task of an earlier session of the name is at work, and stop lines
come first. -/
def Billing (s : Daemon) (a : Act) : Prop := Alone Busy s a ∧ StopsFirst s a

structure Paid (s : Daemon) : Prop where
  own : ∀ k i,owed s (.inr k)=some i → i=k
  done : ∀ i code,s.sups i=.done code → ∀ d,owed s (.inl d)≠some i

theorem paid_own_step (w : Wf s) (hu : Sole Busy s) (hp : Paid s) (h : step s a=some t) (k i : Inc)
    (ho : owed t (.inr k)=some i) : i=k := by
  rcases sup_frame h k with hs | ⟨_,_,hw⟩ | ⟨o,_,hc⟩
  · exact hp.own k i (by simpa [owed,hs] using ho)
  · simp [owed,hw,emitS] at ho
  · cases hc with
    | removed code e pc hpc he hpc' =>
      rcases hpc' with ⟨_,rfl⟩ | ⟨_,rfl⟩
      · simp only [owed,supAt,Function.update_self,emitS,Option.some.injEq] at ho
        exact ho ▸ hu e.inc k (entry_busy w he) (sup_busy hpc rfl) (w.entry_name _ e he)
      · simp [owed,supAt,emitS] at ho
    | unlink code f => cases f <;> simp [owed,supAt,emitS,afterUnlink] at ho
    | _ => simp [owed,supAt,emitS] at ho

theorem paid_done_step (w : Wf s) (hm : s.metering=true) (hc : StopsFirst s a)
    (hp : Paid s) (h : step s a=some t) (i : Inc) (code : Int) (hd : t.sups i=.done code) (d : Nat) :
    owed t (.inl d)≠some i := by
  -- a supervisor at its end finds its session out of the map
  have gone {pc : SupPc} (hs : s.sups i=pc) (hpc : armed pc=false) (hne : pc≠.none) :
      s.removed i≠none := by
    have hi : Inserted s i := (w.sup_iff i).mp (hs ▸ hne)
    refine (w.inserted_kept i hi).resolve_left fun hr => ?_
    have := hr.armed w
    simp [hs,hpc] at this
  have hold : s.removed i≠none ∧ owed s (.inl d)≠some i := by
    rcases sup_frame h i with hs | ⟨_,_,hw⟩ | ⟨o,ha,hk⟩
    · exact ⟨gone (hs ▸ hd) rfl (by simp),hp.done i code (hs ▸ hd) d⟩
    · simp [hw] at hd
    · cases hk with
      | announce code' hpc => exact ⟨gone hpc rfl (by simp),hc i o code' ha hpc d⟩
      | removed code' e pc _ _ hpc => rcases hpc with ⟨_,rfl⟩ | ⟨_,rfl⟩ <;> simp [supAt] at hd
      | unlink code' f => cases f <;> simp [supAt,afterUnlink] at hd
      | _ => simp [supAt] at hd
  obtain ⟨hrem,hown⟩ := hold
  cases stop_effect w hm h with
  | same hh => rw [hh]; exact hown
  | taken x e hi _ hx' hh =>
    by_cases hx : .inl d=x
    · subst hx
      rw [hx']
      intro he
      exact hrem (Option.some.inj he ▸ hi)
    · rw [hh _ hx]
      exact hown
  | written x k _ hx' hh =>
    by_cases hx : .inl d=x
    · subst hx
      simp [hx']
    · rw [hh _ hx]
      exact hown

def Open (s : Daemon) (i : Inc) : Prop := Inserted s i ∧ i∉stops s

theorem owed_inserted (w : Wf s) (hl : Stops s) {x : Nat ⊕ Inc} (hx : owed s x=some i) : Inserted s i := by
  obtain ⟨e,he⟩ := Option.ne_none_iff_exists'.mp (hl.held_taken x i hx)
  exact (w.removed_inserted i e he).2

theorem owed_busy (hp : Paid s) {x : Nat ⊕ Inc} (hx : owed s x=some i) : Busy s i := by
  cases x with
  | inl d =>
    cases hpc : (s.destroys d).pc <;> simp [owed,hpc,emitD] at hx
    exact hx ▸ destroy_busy (d := d) (by simp [hpc,taken])
  | inr k =>
    cases hp.own k i hx
    cases hpc : s.sups i <;> simp [owed,hpc,emitS] at hx
    exact sup_busy hpc rfl

theorem Open.busy (w : Wf s) (hl : Stops s) (hp : Paid s) (h : Open s i) : Busy s i := by
  rcases w.inserted_kept i h.1 with hr | hr
  · exact .inr (.inl (armed_live (hr.armed w)))
  · obtain ⟨x,hx⟩ := (hl.accounted i hr).resolve_left h.2
    exact owed_busy hp hx

/-- The lines of `n` alternate, and the next one is a stop exactly when a
session of the name is open. -/
def TurnAt (s : Daemon) (n : Name) : Prop :=
  ((∃ i,Open s i ∧ nameOf s i=n) → turn true (kinds s n)=some false) ∧
  ((∀ i,Open s i → nameOf s i≠n) → turn true (kinds s n)=some true)

theorem TurnAt.same (hs : TurnAt s n) (hk : kinds t n=kinds s n)
    (ho : ∀ i,Open t i ∧ nameOf t i=n ↔ Open s i ∧ nameOf s i=n) : TurnAt t n := by
  refine ⟨fun ⟨i,hi⟩ => ?_,fun hno => ?_⟩
  · rw [hk]
    exact hs.1 ⟨i,(ho i).mp hi⟩
  · rw [hk]
    refine hs.2 fun i hi hn => ?_
    obtain ⟨hi',hn'⟩ := (ho i).mpr ⟨hi,hn⟩
    exact hno i hi' hn'

section Turns
variable (w : Wf s) (hl : Stops s) (hp : Paid s) (hu : Sole Busy s) (h : step s a=some t)
include w hl hp hu h

theorem turn_stop {x : Nat ⊕ Inc} {c : Option Int} (hs : ∀ n,TurnAt s n) (hx : owed s x=some i)
    (hus : t.usage=s.usage++[UsageLine.stop (nameOf s i) c i])
    (hold : ∀ j,Inserted t j → Inserted s j) (n : Name) : TurnAt t n := by
  have hstops : stops t=stops s++[i] := by simp [stops,hus,stopInc]
  have hopen : Open s i := ⟨owed_inserted w hl hx,hl.held_open x i hx⟩
  -- what is open after the step was open before, and is not the session just closed
  have before (j : Inc) (hj : Open t j) : Open s j ∧ j≠i ∧ nameOf t j=nameOf s j := by
    have hjs:=hold j hj.1
    obtain ⟨hnot,hne⟩ := not_or.mp fun hor => hj.2 (hstops ▸ mem_append.mpr (hor.imp id fun he =>
      mem_singleton.mpr he))
    exact ⟨⟨hjs,hnot⟩,hne,name_stable h hjs.not_idle⟩
  by_cases hn : nameOf s i=n
  · have hnone : ∀ j,Open t j → nameOf t j≠n := by
      intro j hj hjn
      obtain ⟨hjo,hne,hname⟩ := before j hj
      exact hne (hu j i (hjo.busy w hl hp) (hopen.busy w hl hp) (hname.symm.trans (hjn.trans hn.symm)))
    have hkinds : kinds t n=kinds s n++[false] := by simp [kinds,hus,kindAt,hn]
    refine ⟨fun ⟨j,hj,hjn⟩ => absurd hjn (hnone j hj),fun _ => ?_⟩
    rw [hkinds]
    exact turn_concat ((hs n).1 ⟨i,hopen,hn⟩)
  · refine (hs n).same (by simp [kinds,hus,kindAt,hn]) fun j => ?_
    refine ⟨fun ⟨hj,hjn⟩ => ?_,fun ⟨hj,hjn⟩ => ?_⟩
    · obtain ⟨hjo,_,hname⟩ := before j hj
      exact ⟨hjo,hname.symm.trans hjn⟩
    · refine ⟨⟨hj.1.stable h,?_⟩,(name_stable h hj.1.not_idle).trans hjn⟩
      rw [hstops]
      intro hmem
      rcases mem_append.mp hmem with hmem | hmem
      · exact hj.2 hmem
      · exact hn (mem_singleton.mp hmem ▸ hjn)

variable (hm : s.metering=true)
include hm

theorem turn_start {k : Inc} (hs : ∀ n,TurnAt s n) (hi : Inserted t k) (hk : ¬Inserted s k)
    (hother : ∀ j,j≠k → Inserted t j → Inserted s j) (n : Name) : TurnAt t n := by
  obtain ⟨hpc,_,_,hus⟩ := inserted_now h hi hk
  rw [hm,if_pos rfl] at hus
  have hflight : InFlight s k := inFlight_of_pc hpc rfl
  have hname:=name_stable h hflight.not_idle
  have hstops : stops t=stops s := by simp [stops,hus,stopInc]
  by_cases hn : nameOf s k=n
  · -- nothing of the name is open before: it would be busy next to the create call
    have hnone : ∀ i,Open s i → nameOf s i≠n := by
      intro i ho hin
      have hik : i=k := hu i k (ho.busy w hl hp) (.inl hflight) (hin.trans hn.symm)
      exact hk (hik ▸ ho.1)
    have hkinds : kinds t n=kinds s n++[true] := by simp [kinds,hus,kindAt,hn]
    have hopen : Open t k := by
      refine ⟨hi,hstops ▸ fun hmem => hk ?_⟩
      obtain ⟨e,he⟩ := Option.ne_none_iff_exists'.mp (hl.logged_taken k hmem)
      exact (w.removed_inserted k e he).2
    refine ⟨fun _ => ?_,fun hno => absurd (hname.trans hn) (hno k hopen)⟩
    rw [hkinds]
    exact turn_concat ((hs n).2 hnone)
  · refine (hs n).same (by simp [kinds,hus,kindAt,hn]) fun i => ?_
    refine ⟨fun ⟨hi',hin⟩ => ?_,fun ⟨hi',hin⟩ => ?_⟩
    · have hik : i≠k := fun he => hn (by rw [← hname,← he,hin])
      have hs':=hother i hik hi'.1
      exact ⟨⟨hs',hstops ▸ hi'.2⟩,(name_stable h hs'.not_idle).symm.trans hin⟩
    · exact ⟨⟨hi'.1.stable h,hstops ▸ hi'.2⟩,(name_stable h hi'.1.not_idle).trans hin⟩

theorem turn_step (hs : ∀ n,TurnAt s n) (n : Name) : TurnAt t n := by
  -- an insertion always shows in the log
  have old (j : Inc) (hj : Inserted t j) (hne : ∀ l,t.usage≠s.usage++[UsageLine.start (nameOf s j) l j]) :
      Inserted s j := by
    by_contra hn
    have hus:=(inserted_now h hj hn).2.2.2
    rw [hm,if_pos rfl] at hus
    exact hne _ hus
  cases usage_effect h with
  | same hus =>
    have hold : ∀ j,Inserted t j → Inserted s j := fun j hj => old j hj fun l => by simp [hus]
    have hstops : stops t=stops s := by simp [stops,hus]
    refine (hs n).same (by simp [kinds,hus]) fun j => ?_
    refine ⟨fun ⟨hj,hjn⟩ => ?_,fun ⟨hj,hjn⟩ => ?_⟩
    · have hjs:=hold j hj.1
      exact ⟨⟨hjs,hstops ▸ hj.2⟩,(name_stable h hjs.not_idle).symm.trans hjn⟩
    · exact ⟨⟨hj.1.stable h,hstops ▸ hj.2⟩,(name_stable h hj.1.not_idle).trans hjn⟩
  | start k o hpc hus =>
    have hk : ¬Inserted s k := (inFlight_of_pc hpc rfl).not_inserted
    have hi : Inserted t k := by
      cases createStep_cases (show createStep s k o=some t from h) with
      | insert => exact .inl (by simp [createAt,setCreate])
      | lost => simp [createAt,setCreate,killSession] at hus
      | _ => simp_all
    exact turn_start w hl hp hu h hm hs hi hk (fun j hj hjt => old j hjt fun l => by
      simp [hus,Ne.symm hj]) n
  | destroyed d e hpc hus =>
    have hx : owed s (.inl d)=some e.inc := by simp [owed,hpc,emitD]
    have hname:=(w.destroy_taken d e (by simp [hpc,taken])).2
    exact turn_stop w hl hp hu h hs hx (hname ▸ hus) (fun j hj => old j hj fun l => by
      simp [hus]) n
  | exited k o code e hpc hus =>
    have hx : owed s (.inr k)=some e.inc := by simp [owed,hpc,emitS]
    have hname:=(w.sup_taken k code e hpc).2
    exact turn_stop w hl hp hu h hs hx (hname ▸ hus) (fun j hj => old j hj fun l => by
      simp [hus]) n

end Turns

structure Billed (s : Daemon) : Prop where
  metering : s.metering=true
  starts_eq : starts s=s.history
  stops_ok : Stops s
  paid : Paid s
  turns : ∀ n,TurnAt s n
  ordered : ∀ i,Precedes (startInc ·=some i) (stopInc ·=some i) s.usage

theorem ordered_step (w : Wf s) (hh : HistoryOk s) (hb : Billed s) (h : step s a=some t) (i : Inc) :
    Precedes (startInc ·=some i) (stopInc ·=some i) t.usage := by
  have started (hi : Inserted s i) : ∃ x∈s.usage,startInc x=some i := by
    have hmem : i∈starts s := hb.starts_eq ▸ (hh.mem i).mpr hi
    exact mem_filterMap.mp hmem
  cases usage_effect h with
  | same hus => exact hus ▸ hb.ordered i
  | start k o _ hus => exact hus ▸ (hb.ordered i).append (by simp [stopInc])
  | destroyed d e hpc hus =>
    refine hus ▸ (hb.ordered i).append fun hk => started ?_
    have hx : owed s (.inl d)=some e.inc := by simp [owed,hpc,emitD]
    exact Option.some.inj hk ▸ owed_inserted w hb.stops_ok hx
  | exited k o code e hpc hus =>
    refine hus ▸ (hb.ordered i).append fun hk => started ?_
    have hx : owed s (.inr k)=some e.inc := by simp [owed,hpc,emitS]
    exact Option.some.inj hk ▸ owed_inserted w hb.stops_ok hx

theorem owed_init (m : Bool) (x : Nat ⊕ Inc) : owed (init m) x=none := by
  cases x <;> rfl

theorem billed_init : Billed (init true) where
  metering := rfl
  starts_eq := rfl
  stops_ok := ⟨by simp [owed_init],by simp [stops,init],by simp [owed_init],
    by simp [owed_init],by simp [init],nodup_nil⟩
  paid := ⟨by simp [owed,init,emitS],by simp [init]⟩
  turns := fun n => ⟨fun ⟨i,hi,_⟩ => by simp [Open,Inserted,init] at hi,fun _ => rfl⟩
  ordered := fun i => precedes_nil _ _

theorem billed_reach (hr : Reach step Billing (init true) s) : Billed s := by
  refine hr.invariant billed_init fun {u v a} hu hb ha h => ?_
  have w:=wf_reach hu
  have hsole:=sole_busy (fun _ _ hok => hok.1) hu
  exact {
    metering := (metering_frame h).trans hb.metering
    starts_eq := starts_history_step hb.metering hb.starts_eq h
    stops_ok := stops_step w hb.metering hb.stops_ok h
    paid := ⟨paid_own_step w hsole hb.paid h,paid_done_step w hb.metering ha.2 hb.paid h⟩
    turns := turn_step w hb.stops_ok hb.paid hsole h hb.metering hb.turns
    ordered := ordered_step w (history_reach hu) hb h}

structure Metered (s : Daemon) : Prop where
  one_start : ∀ i,Inserted s i → (starts s).count i=1
  one_stop : ∀ i code,s.sups i=.done code → (stops s).count i=1
  ordered : ∀ i,Precedes (startInc ·=some i) (stopInc ·=some i) s.usage
  alternating : ∀ n,Alternates (kinds s n)

theorem done_stopped (w : Wf s) (hb : Billed s) {code : Int} (hd : s.sups i=.done code) : i∈stops s := by
  have hi : Inserted s i := (w.sup_iff i).mp (by simp [hd])
  have hrem : s.removed i≠none := (w.inserted_kept i hi).resolve_left fun hreg => by
    have := hreg.armed w
    simp [hd,armed] at this
  refine (hb.stops_ok.accounted i hrem).resolve_right ?_
  rintro ⟨d | k,hx⟩
  · exact hb.paid.done i code hd d hx
  · cases hb.paid.own k i hx
    simp [owed,hd,emitS] at hx

theorem turnAt_alternates (h : TurnAt s n) : Alternates (kinds s n) := by
  unfold Alternates
  by_cases ho : ∃ i,Open s i ∧ nameOf s i=n
  · rw [h.1 ho]
    rfl
  · rw [h.2 fun i hi hn => ho ⟨i,hi,hn⟩]
    rfl

/-- In every metered run that meets the condition, each session has one start line and, when its supervisor
is done, one stop line after it, and the lines of each name alternate. -/
theorem usage_lines_alternate (hr : Reach step Billing (init true) s) : Metered s where
  one_start := fun i hi => by
    rw [(billed_reach hr).starts_eq]
    exact (history_reach hr).count_one hi
  one_stop := fun i code hd =>
    count_eq_one_of_mem (billed_reach hr).stops_ok.nodup
      (done_stopped (wf_reach hr) (billed_reach hr) hd)
  ordered := (billed_reach hr).ordered
  alternating := fun n => turnAt_alternates ((billed_reach hr).turns n)

def wholeLife : List Act := createRun 0 10 (plain "a")++exitRun 0++([.supStep 0 .ok] : List Act)

theorem usage_lines_alternate_whole_life : ∃ s,Reach step Billing (init true) s ∧
    s.sups 0=.done 0 ∧ kinds s "a" = [true,false] ∧ Metered s := by
  have hm : Meets step Billing (init true) wholeLife :=
    ((names_once true (by decide)).mono fun _ _ => alone_busy).and
      (no_destroy true (fun u a hu i o code _ _ d => by simp [owed,hu,emitD]) (by decide))
  have hr : Reach step Billing (init true) _ := reach_exec _ hm (by decide +kernel)
  refine ⟨_,hr,?_,?_,usage_lines_alternate hr⟩ <;> decide +kernel

/-- A destroy call has not written its line yet when the name is created again. -/
def lateStop : List Act :=
  createRun 0 10 (plain "a")++([.destroy 0 "a",.destroyStep 0] : List Act) ++
  createRun 1 11 (plain "a")

theorem late_stop_breaks_alternation : ∃ s,Reach step Free (init true) s ∧
    kinds s "a" = [true,true] ∧ ¬Metered s := by
  have hr : Reach step Free (init true) _ := reach_free lateStop (by decide +kernel)
  refine ⟨_,hr,?_,fun hmet => absurd (hmet.alternating "a") (show ¬_=true from ?_)⟩ <;> decide +kernel

end Waymux.Registry.UsageLines
