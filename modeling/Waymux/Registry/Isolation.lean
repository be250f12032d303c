import Waymux.Registry.Directories
import Waymux.Registry.TagStore
import Waymux.Registry.Schedules

/-!
# Isolation of incarnations

What a supervisor or a cgroup clean-up task may not do to an incarnation it
does not work for.
-/

namespace Waymux.Registry.Isolation
open HostResources TaskState TaskSteps StepCases TaskFrames Incarnations Processes
open NameExclusive Directories TagStore Schedules Interleave.Runs

variable {s t : Daemon} {a : Act} {i j : Inc} {n : Name} {m : Bool} {o : Outcome}

structure Spared (s t : Daemon) (j : Inc) : Prop where
  entry : ∀ n e,s.sessions n=some e → e.inc=j → t.sessions n=some e
  mount : ∀ n,j∈makers (s.dirs n) → j∈makers (t.dirs n)
  socket : ∀ n k,(∃ f∈sockets (s.dirs n),f k=some j) → ∃ f∈sockets (t.dirs n),f k=some j
  directory : ∀ n b,(s.dirs n).base=some b → b.maker=j →
    ∃ b',(t.dirs n).base=some b' ∧ b'.maker=j
  tags : ∀ n w g,s.tags n w=some g → g.inc=j → t.tags n w=some g
  process : ∀ x∈s.procs,x.inc=j → x.status=none → x∈t.procs

/-- A name is taken again only when nothing of its earlier incarnations is left, and tags are stored only
while their session is registered. -/
def Isolating (s : Daemon) (a : Act) : Prop := Alone Active s a ∧ StoresLive s a

section Foreign
variable (hb : Busy s i) (hu : Sole Busy s) (hj : j≠i) (hf : ¬Failed s j)
include hb hu hj

theorem foreign_entry (w : Wf s) {e : SessionEntry} (he : s.sessions (nameOf s i)=some e) : e.inc≠j := by
  rintro rfl
  exact hj (hu e.inc i (entry_busy w he) hb (w.entry_name _ e he))

theorem foreign_tag (ht : TagsLive s) {w : Nat} {g : Tag} (hg : s.tags (nameOf s i) w=some g) : g.inc≠j := by
  rintro rfl
  obtain ⟨hn,hp⟩ := ht _ w g hg
  exact hj (hu g.inc i (.inr (.inl (tagging_live hp))) hb hn)

include hf

theorem foreign_mount (w : Wf s) (hm : MountStack s) : j∉makers (s.dirs (nameOf s i)) := by
  intro hmem
  cases hk : makers (s.dirs (nameOf s i)) with
  | nil => simp [hk] at hmem
  | cons top rest =>
    obtain ⟨hn,htop,hrest⟩ := hm _ top rest hk
    rw [hk] at hmem
    rcases List.mem_cons.mp hmem with rfl | hmem
    · rcases htop with hfail | hh
      · exact hf hfail
      · exact hj (hu j i (hh.busy w) hb hn)
    · exact hf (hrest j hmem).2

theorem foreign_socket (hs : SocketStack s) {f : Sock → Option Inc} {k : Sock}
    (hmem : f∈sockets (s.dirs (nameOf s i))) : f k≠some j := by
  intro hk
  cases hl : sockets (s.dirs (nameOf s i)) with
  | nil => simp [hl] at hmem
  | cons top rest =>
    obtain ⟨hown,hleft⟩ := hs _ top rest hl
    rw [hl] at hmem
    rcases List.mem_cons.mp hmem with rfl | hmem
    · obtain ⟨hn,hfail | hseat⟩ := hown k j hk
      · exact hf hfail
      · exact hj (hu j i hseat.busy hb hn)
    · exact hf (hleft f hmem k j hk).2

end Foreign

theorem member_name (r : Rows s) {x : Process} (hx : x∈s.procs)
    (hl : leafMember s n x.proc=true) : nameOf s x.inc=n := by
  unfold leafMember at hl
  split at hl
  · next l hs =>
    have hhome:=r.member_home n l hs x.proc (by simpa using hl)
    cases hq : x.proc with
    | session k =>
      rw [hq] at hhome
      rw [(r.session_row x hx k hq).1]
      exact hhome.2
    | child c =>
      rw [hq] at hhome
      rw [(r.target c x.inc (awaited_incOf (r.child_row x hx c hq).2)).2]
      exact hhome.2
  · cases hl

section Reached
variable (hr : Reach step Isolating (init m) s) (hj : j≠i)
include hr hj

theorem sup_spares (hf : ¬Failed s j) (h : supStep s i o=some t) : Spared s t j := by
  have hbusy : ∀ s a,Isolating s a → Alone Busy s a := fun _ _ ha => alone_busy ha.1
  have w:=wf_reach hr
  have r:=rows_reach hr
  have hu:=sole_busy hbusy hr
  have hstep : step s (.supStep i o)=some t := h
  have hb : Busy s i := .inr (.inl (supCase_live (supStep_cases h)))
  constructor
  case entry =>
    intro n e he hi
    cases entry_effect hstep n with
    | same ht => rw [ht,he]
    | collected _ _ code e' _ hn =>
      exact absurd hi (foreign_entry hb hu hj w (hn ▸ he))
  case mount =>
    intro n hmem
    have hfree:=foreign_mount hb hu hj hf w (mountStack_reach hbusy hr)
    cases dir_effect hstep n with
    | same ht => rwa [ht]
    | unmounted _ _ code _ hn | unlinked _ _ code k _ hn | wiped _ _ code _ hn =>
      exact absurd (hn ▸ hmem) hfree
  case socket =>
    rintro n k ⟨f,hmem,hk⟩
    have hfree {f} := foreign_socket hb hu hj hf (socketStack_reach hbusy hr) (f := f) (k := k)
    cases dir_effect hstep n with
    | same ht => exact ⟨f,ht ▸ hmem,hk⟩
    | unmounted _ _ code _ hn | unlinked _ _ code k _ hn | wiped _ _ code _ hn =>
      exact absurd hk (hfree (hn ▸ hmem))
  case directory =>
    intro n b hbase hmaker
    cases dir_effect hstep n with
    | same ht => exact ⟨b,ht ▸ hbase,hmaker⟩
    | unmounted _ _ code _ _ ht => exact ⟨b,by rw [ht]; exact hbase,hmaker⟩
    | unlinked _ _ code k _ _ ht =>
      rw [ht,SessionDir.removeFile,SessionDir.onVisible]
      split
      · exact ⟨b,hbase,hmaker⟩
      · exact ⟨b.put k none,by simp [hbase],hmaker⟩
    | wiped _ _ code hpc hn =>
      -- the directory it removes is the one its own create call took over
      have hown:=baseOwner_reach hbusy hr i b (.inr (by rw [hpc]; rfl)) (hn ▸ hbase)
      exact absurd (hmaker.symm.trans hown) hj
  case tags =>
    intro n v g hg hi
    cases tag_effect hstep n v with
    | same ht => rw [ht,hg]
    | erased _ _ code _ hn =>
      exact absurd hi (foreign_tag hb hu hj (tagsLive_reach (fun _ _ ha => ha.2) hr) (hn ▸ hg))
  case process =>
    intro x hx hi _
    cases proc_effect hstep with
    | same ht => rwa [ht]
    | shutdown _ _ code _ ht =>
      rw [ht]
      refine mem_reap.mpr ⟨hx,fun hq => hj ?_⟩
      rw [← hi,(r.session_row x hx i hq).1]

theorem clean_spares (h : cleanStep s i o=some t) : Spared s t j := by
  have r:=rows_reach hr
  have hstep : step s (.cleanStep i o)=some t := h
  constructor
  case entry =>
    intro n e he _
    cases entry_effect hstep n with
    | same ht => rw [ht,he]
  case mount =>
    intro n hmem
    cases dir_effect hstep n with
    | same ht => rwa [ht]
  case socket =>
    intro n k hk
    cases dir_effect hstep n with
    | same ht => rwa [ht]
  case directory =>
    intro n b hbase hmaker
    cases dir_effect hstep n with
    | same ht => exact ⟨b,ht ▸ hbase,hmaker⟩
  case tags =>
    intro n v g hg _
    cases tag_effect hstep n v with
    | same ht => rw [ht,hg]
  case process =>
    intro x hx hi _
    cases proc_effect hstep with
    | same ht => rwa [ht]
    | killed _ _ hpc ht =>
      -- members of the leaf work for the name, and the name has one active incarnation
      have hout : ¬leafMember s (nameOf s i) x.proc=true := fun hl => hj (hi ▸
        sole_active (fun _ _ ha => ha.1) hr x.inc i (.inr (.inr (.inr ⟨x,hx,rfl⟩)))
          (.inr (.inl (by rw [hpc]; rfl))) (member_name r hx hl))
      rw [ht]
      exact List.mem_map.mpr ⟨x,hx,if_neg fun hc => hout hc.1⟩

end Reached

/-- In every run whose steps are isolating, no supervisor or clean-up task touches an incarnation other than
its own. -/
theorem incarnation_isolation (hr : Reach step Isolating (init m) s) (hj : j≠i)
    (hf : ¬Failed s j) (h : supStep s i o=some t ∨ cleanStep s i o=some t) : Spared s t j :=
  h.elim (sup_spares hr hj hf) (clean_spares hr hj)

def twoNames : List Act :=
  createRun 0 10 (plain "a")++createRun 1 11 (plain "b") ++
    ([.exit (.session 0) (.code 0),.supStep 0 .exited] : List Act)

theorem incarnation_isolation_two_names : ∃ s t,Reach step Isolating (init false) s ∧
    Registered s 1 ∧ supStep s 0 .ok=some t ∧ Spared s t 1 := by
  obtain ⟨s,t,hs,ht,hp⟩ := exec_last step (init false) twoNames (.supStep 0 .ok)
    (fun s _ => (s.creates 1).pc=.done none ∧
      (s.sessions (nameOf s 1)).map SessionEntry.inc=some 1) (by decide +kernel)
  have hquiet : ∀ a∈twoNames,isControlStep a=false := by decide
  have hm : Meets step Isolating (init false) twoNames :=
    (names_once false (by decide)).and (storesLive_of_labels hquiet)
  have hr:=reach_of_meets .start hm hs
  obtain ⟨hpc,hreg⟩ := of_decide_eq_true hp
  obtain ⟨e,he,hi⟩ := Option.map_eq_some_iff.mp hreg
  exact ⟨s,t,hr,⟨e,he,hi⟩,ht,incarnation_isolation hr (by decide)
    (fun ⟨err,hf⟩ => by simp [hpc] at hf) (.inl ht)⟩

/-- destroy, create of the same name, and only then the old supervisor gets
to its locked section. -/
def staleSupervisor : List Act :=
  createRun 0 10 (plain "a")++destroyRun 0 "a" ++ createRun 1 11 (plain "a") ++
    ([.supStep 0 .killed,.exit (.session 0) (.code 0),.supStep 0 .exited] : List Act)

theorem stale_supervisor_removes_successor : ∃ s t,Reach step Free (init false) s ∧
    supStep s 0 .ok=some t ∧ Inserted s 1 ∧ ¬Spared s t 1 := by
  obtain ⟨s,t,hs,ht,hp⟩ := exec_last step (init false) staleSupervisor (.supStep 0 .ok)
    (fun s t => (s.creates 1).pc=.done none ∧
      (s.sessions "a").map SessionEntry.inc=some 1 ∧ t.sessions "a" = none) (by decide +kernel)
  obtain ⟨hpc,hreg,hgone⟩ := of_decide_eq_true hp
  obtain ⟨e,he,hi⟩ := Option.map_eq_some_iff.mp hreg
  refine ⟨s,t,reach_of_exec hs,ht,.inr hpc,fun hsp => ?_⟩
  have hkept:=hsp.entry "a" e he hi
  simp [hgone] at hkept

end Waymux.Registry.Isolation
