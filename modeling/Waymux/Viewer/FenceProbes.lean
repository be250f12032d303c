import Waymux.Viewer.PictureChain

/-!
# Fences of the dmabufs that are encoded (`run_vulkan_encoder`, `encoder.rs`)

A dmabuf goes by the number of the take that brought it. A run may end after any tick.
-/

namespace Waymux.Viewer.FenceProbes
open PictureChain (Task)

inductive Event
  | probe (dmabuf : Nat) (ready : Bool)
  | encode (dmabuf : Nat)
  deriving DecidableEq

inductive First
  | pixels
  | dmabuf (ready : Bool)

/-- A turn of the loop: the task, and what a probe of the kept dmabuf would say. -/
structure Tick where
  task : Task
  lastReady : Bool

/- The calls of tick number `id`, and `last_dmabuf` after it. -/
def tick (last : Option Nat) (id : Nat) (t : Tick) : List Event × Option Nat :=
  match t.task with
  | .dmabuf false _ => ([],last)
  | .dmabuf true false => (.probe id false::(last.map Event.encode).toList,last)
  | .dmabuf true true => ([.probe id true,.encode id],some id)
  | .pixels true true => ([],none)
  | .pixels _ _ => ([],last)
  | .nal | .timeout =>
      match last with
      | some d => (.probe d t.lastReady::if t.lastReady then [.encode d] else [],last)
      | none => ([],none)

def ticks (last : Option Nat) (id : Nat) : List Tick → List Event
  | [] => []
  | t::ts => (tick last id t).1++ticks (tick last id t).2 (id+1) ts

def runVulkanEncoder (first : First) (ts : List Tick) : List Event :=
  match first with
  | .pixels => ticks none 1 ts
  | .dmabuf ready => (.probe 0 ready::if ready then [.encode 0] else [])++ticks (some 0) 1 ts

/-- Every dmabuf that is encoded has been found ready before. -/
def Waited (before : List Event) : List Event → Prop
  | [] => True
  | .encode d::log => .probe d true∈before ∧ Waited (.encode d::before) log
  | .probe d ready::log => Waited (.probe d ready::before) log

/-- The tick replaces the kept dmabuf, or finds it ready. -/
def Tick.settles (t : Tick) : Bool :=
  match t.task with
  | .dmabuf true true | .pixels true true => true
  | .nal | .timeout => t.lastReady
  | _ => false

/-- A dmabuf comes that is not ready while nothing has settled the kept one. -/
def Unsettled (ts : List Tick) : Prop :=
  ∃ pre t post,ts=pre++t::post ∧ t.task=.dmabuf true false ∧ ∀ u∈pre,u.settles=false

variable {before : List Event} {last : Option Nat} {id d : Nat} {ts : List Tick} {t : Tick}

inductive TickCase (last : Option Nat) (id : Nat) (t : Tick) : List Event × Option Nat → Prop
  | unready (ht : t.task=.dmabuf true false) :
      TickCase last id t (.probe id false::(last.map Event.encode).toList,last)
  | fresh (hs : t.settles=true) : TickCase last id t ([.probe id true,.encode id],some id)
  | cleared (hs : t.settles=true) : TickCase last id t ([],none)
  | found (d : Nat) (hl : last=some d) (hs : t.settles=true) :
      TickCase last id t ([.probe d true,.encode d],last)
  | waiting (d : Nat) (hl : last=some d) (ht : t.task≠.dmabuf true false) (hs : t.settles=false) :
      TickCase last id t ([.probe d false],last)
  | nothing (ht : t.task≠.dmabuf true false) (hs : last.isSome=true → t.settles=false) :
      TickCase last id t ([],last)

theorem tick_cases (last : Option Nat) (id : Nat) (t : Tick) : TickCase last id t (tick last id t) := by
  obtain ⟨task,ready⟩ := t
  have hidle : task=.nal ∨ task=.timeout → TickCase last id ⟨task,ready⟩ (tick last id ⟨task,ready⟩) := by
    rintro (rfl | rfl) <;> cases last <;> cases ready
    all_goals first
      | exact .nothing (by simp) (by simp)
      | exact .waiting _ rfl (by simp) rfl
      | exact .found _ rfl rfl
  cases task with
  | dmabuf sizeOk found =>
    cases sizeOk <;> cases found
    · exact .nothing (by simp) fun _ => rfl
    · exact .nothing (by simp) fun _ => rfl
    · exact .unready rfl
    · exact .fresh rfl
  | pixels sizeOk lenOk =>
    cases sizeOk <;> cases lenOk
    · exact .nothing (by simp) fun _ => rfl
    · exact .nothing (by simp) fun _ => rfl
    · exact .nothing (by simp) fun _ => rfl
    · exact .cleared rfl
  | nal => exact hidle (.inl rfl)
  | timeout => exact hidle (.inr rfl)

theorem waited_settled (h : ∀ d,last=some d → .probe d true∈before) : Waited before (ticks last id ts) := by
  induction ts generalizing last id before with
  | nil => trivial
  | cons t ts ih =>
    rw [ticks]
    have hc:=tick_cases last id t
    generalize tick last id t=r at hc
    cases hc with
    | unready =>
      cases last with
      | none => exact ih (by simp)
      | some d => exact ⟨List.mem_cons_of_mem _ (h d rfl),ih fun d' hd => by simp [h d' hd]⟩
    | fresh => exact ⟨List.mem_cons_self,ih fun d hd => by simp_all⟩
    | cleared => exact ih (by simp)
    | found => exact ⟨List.mem_cons_self,ih fun d' hd => by simp [h d' hd]⟩
    | waiting => exact ih fun d' hd => by simp [h d' hd]
    | nothing => exact ih h

theorem unsettled_cons (hs : t.settles=false) (ht : t.task≠.dmabuf true false) :
    Unsettled (t::ts) ↔ Unsettled ts := by
  constructor
  · rintro ⟨_ | ⟨u,pre⟩,v,post,heq,hv,hpre⟩
    · cases heq
      exact absurd hv ht
    · cases heq
      exact ⟨pre,v,post,rfl,hv,fun x hx => hpre x (List.mem_cons_of_mem _ hx)⟩
  · rintro ⟨pre,v,post,rfl,hv,hpre⟩
    exact ⟨t::pre,v,post,rfl,hv,List.forall_mem_cons.mpr ⟨hs,hpre⟩⟩

theorem not_unsettled (hs : t.settles=true) : ¬Unsettled (t::ts) := by
  rintro ⟨_ | ⟨u,pre⟩,v,post,heq,hv,hpre⟩
  · cases heq
    simp [Tick.settles,hv] at hs
  · cases heq
    simp [hpre t List.mem_cons_self] at hs

theorem waited_open (h : .probe d true∉before) : Waited before (ticks (some d) id ts) ↔ ¬Unsettled ts := by
  induction ts generalizing id before with
  | nil =>
    refine ⟨?_,fun _ => trivial⟩
    rintro - ⟨_ | ⟨u,pre⟩,t,post,heq,-⟩ <;> cases heq
  | cons t ts ih =>
    rw [ticks]
    have hc:=tick_cases (some d) id t
    generalize tick (some d) id t=r at hc
    cases hc with
    | unready ht =>
      exact ⟨fun hw => absurd hw.1 (by simpa using h),fun hn => absurd ⟨[],t,ts,rfl,ht,(by simp)⟩ hn⟩
    | fresh hs | found _ _ hs =>
      exact ⟨fun _ => not_unsettled hs,fun _ => ⟨List.mem_cons_self,waited_settled fun d hd => by simp_all⟩⟩
    | cleared hs => exact ⟨fun _ => not_unsettled hs,fun _ => waited_settled (by simp)⟩
    | waiting d' hl ht hs =>
      rw [unsettled_cons hs ht]
      exact ih (by simpa using h)
    | nothing ht hs =>
      rw [unsettled_cons (hs rfl) ht]
      exact ih h

/-- Nothing unready is encoded just when a first dmabuf that was not ready is
settled before the next one that is not. -/
theorem fences_waited_iff (first : First) (ts : List Tick) :
    Waited [] (runVulkanEncoder first ts) ↔ (first=.dmabuf false → ¬Unsettled ts) := by
  cases first with
  | pixels => exact ⟨fun _ => by simp,fun _ => waited_settled (by simp)⟩
  | dmabuf ready =>
    cases ready with
    | false =>
      have hiff : Waited [] (runVulkanEncoder (.dmabuf false) ts) ↔ ¬Unsettled ts :=
        @waited_open [.probe 0 false] 1 0 ts (by simp)
      exact hiff.trans ⟨fun h _ => h,fun h => h rfl⟩
    | true =>
      refine ⟨fun _ => by simp,fun _ => ⟨List.mem_cons_self,waited_settled fun d hd => ?_⟩⟩
      cases hd
      simp

/-- The first frame and the next are both still being drawn. -/
theorem first_frame_in_flight :
    ¬Waited [] (runVulkanEncoder (.dmabuf false) [⟨.dmabuf true false,false⟩]) :=
  fun h => absurd h.1 (by simp)

end Waymux.Viewer.FenceProbes
