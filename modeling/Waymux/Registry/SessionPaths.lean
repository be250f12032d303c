import Waymux.Registry.SessionNames
import Waymux.Paths.Components

/-!
# The paths of a session

What `create`, `destroy` and the supervisor (`registry.rs`, `quota.rs`, `cgroup.rs`) make, mount over,
unlink or remove for a name. Paths are compared as `Path` is, by their components.
-/

namespace Waymux.Registry.SessionPaths
open HostResources SessionNames Paths.Components List

variable (stateDir cgroupDir : Path) (name : Name)

/- Made by `create`; the tmpfs is mounted over it. -/
def sessionDir : Path := join stateDir name.toList

def socketPath (k : Sock) : Path := join (sessionDir stateDir name) k.file.toList

def leaf : Path := join cgroupDir ("waymux-".toList++name.toList)

def socks : List Sock := [.wayland,.control,.attach,.ready,.events]

def leafFiles : List String := ["memory.max","cpu.max","cgroup.procs","cgroup.kill"]

/- The supervisor removes the parent of the inner socket with all that is in it. -/
def touched : List Path :=
  sessionDir stateDir name::(parent (socketPath stateDir name .wayland)).toList++socks.map (socketPath stateDir name) ++
    (leaf cgroupDir name::leafFiles.map fun f => join (leaf cgroupDir name) f.toList)

variable {stateDir cgroupDir name}

def Plain (f : List Char) : Prop := '/'∉f ∧ component f=some (.normal f)

instance (f : List Char) : Decidable (Plain f) := inferInstanceAs (Decidable (_ ∧ _))

/-- A path at or below a directory's entry. -/
def Under (dir : Path) (entry : List Char) (p : Path) : Prop :=
  ∃ rest,components p=components dir++Component.normal entry::rest

theorem accepted_spec (h : validateSessionName name=.ok ()) : Plain name.toList := by
  unfold validateSessionName at h
  repeat' split at h
  all_goals cases h
  next hlen hall hdot =>
    have hne : name≠"" := fun he => hlen (by rw [he]; rfl)
    have hchars : name.toList.all nameChar=true := by simpa using hall
    refine ⟨fun hs => ?_,component_eq_normal (by simpa using hne) (by simpa using hdot)⟩
    exact absurd (all_eq_true.mp hchars _ hs) (by decide)

theorem sessionDir_components (h : validateSessionName name=.ok ()) (dir : Path) :
    components (sessionDir dir name)=components dir++[.normal name.toList] :=
  components_child (accepted_spec h).1 (accepted_spec h).2 dir

theorem leaf_components (h : validateSessionName name=.ok ()) (dir : Path) :
    components (leaf dir name)=components dir++[.normal ("waymux-".toList++name.toList)] := by
  refine components_child ?_ (component_of_length ?_) dir
  · simp [(accepted_spec h).1]
  · rw [length_append]
    exact Nat.lt_add_right _ (by decide)

theorem files_plain : (∀ k∈socks,Plain k.file.toList) ∧ ∀ f∈leafFiles,Plain f.toList := by
  decide +kernel

theorem Under.child {dir p : Path} {entry f : List Char} (h : Under dir entry p) (hf : Plain f) :
    Under dir entry (join p f) := by
  obtain ⟨rest,hrest⟩ := h
  exact ⟨rest++[.normal f],by rw [components_child hf.1 hf.2,hrest,append_assoc,cons_append]⟩

theorem parent_inner (h : validateSessionName name=.ok ()) (dir : Path) :
    parent (socketPath dir name .wayland)=some (sessionDir dir name) := by
  obtain ⟨hs,hc⟩ := accepted_spec h
  have hfile:=files_plain.1 .wayland (by decide)
  exact parent_join (pieces_join hs dir) (by simp [ignorable,hc]) hfile.1 hfile.2

theorem touched_under (h : validateSessionName name=.ok ()) {p : Path} (hp : p∈touched stateDir cgroupDir name) :
    Under stateDir name.toList p ∨ Under cgroupDir ("waymux-".toList++name.toList) p := by
  have hdir : Under stateDir name.toList (sessionDir stateDir name) := ⟨[],sessionDir_components h stateDir⟩
  have hleaf : Under cgroupDir ("waymux-".toList++name.toList) (leaf cgroupDir name) := ⟨[],leaf_components h cgroupDir⟩
  rw [touched,parent_inner h] at hp
  simp only [mem_append,mem_cons,mem_map,Option.toList_some,not_mem_nil,or_false] at hp
  rcases hp with ((rfl | rfl) | ⟨k,hk,rfl⟩) | rfl | ⟨f,hf,rfl⟩
  · exact .inl hdir
  · exact .inl hdir
  · exact .inl (hdir.child (files_plain.1 k hk))
  · exact .inr hleaf
  · exact .inr (hleaf.child (files_plain.2 f hf))

/-- The entries of one directory are apart. -/
theorem Under.apart {dir p q : Path} {a b : List Char} (hp : Under dir a p) (hq : Under dir b q) (hne : a≠b) :
    startsWith p q=false := by
  obtain ⟨r,hr⟩ := hp
  obtain ⟨t,ht⟩ := hq
  rw [Bool.eq_false_iff]
  intro hpq
  rw [startsWith_iff,hr,ht,prefix_append_right_inj,cons_prefix_cons] at hpq
  exact hne (Component.normal.inj hpq.1).symm

/-- Below two directories neither of which is inside the other, paths are apart. -/
theorem Under.beside {d e p q : Path} {a b : List Char} (hp : Under d a p) (hq : Under e b q)
    (hde : startsWith d e=false) (hed : startsWith e d=false) : startsWith p q=false := by
  obtain ⟨r,hr⟩ := hp
  obtain ⟨t,ht⟩ := hq
  rw [Bool.eq_false_iff] at hde hed ⊢
  intro hpq
  rw [startsWith_iff,hr,ht] at hpq
  have he : components e <+: components d++Component.normal a::r := (prefix_append _ _).trans hpq
  rcases List.prefix_or_prefix_of_prefix he (prefix_append _ _) with hpre | hpre
  · exact hde (startsWith_iff.mpr hpre)
  · exact hed (startsWith_iff.mpr hpre)

/-- An accepted name is one normal component below both directories. Two names have no path in common, nor one
below a path of the other, if neither directory is inside the other. -/
theorem names_confined {a b : Name} (ha : validateSessionName a=.ok ()) (hb : validateSessionName b=.ok ())
    (stateDir cgroupDir : Path) :
    component a.toList=some (.normal a.toList) ∧
    components (sessionDir stateDir a)=components stateDir++[.normal a.toList] ∧
    components (leaf cgroupDir a)=components cgroupDir++[.normal ("waymux-".toList++a.toList)] ∧
    (a≠b → startsWith stateDir cgroupDir=false → startsWith cgroupDir stateDir=false →
      ∀ p∈touched stateDir cgroupDir a,∀ q∈touched stateDir cgroupDir b,startsWith p q=false) := by
  refine ⟨(accepted_spec ha).2,sessionDir_components ha stateDir,leaf_components ha cgroupDir,?_⟩
  intro hab hsc hcs p hp q hq
  have hlist : a.toList≠b.toList := fun he => hab (String.toList_inj.mp he)
  rcases touched_under ha hp with hp | hp <;> rcases touched_under hb hq with hq | hq
  · exact hp.apart hq hlist
  · exact hp.beside hq hsc hcs
  · exact hp.beside hq hcs hsc
  · exact hp.apart hq (by simpa using hlist)

theorem names_confined_pair : let state := "/run/waymux".toList; let cgroup := "/sys/fs/cgroup/waymux.service".toList
    validateSessionName "a"=.ok () ∧ validateSessionName "waymux-a"=.ok () ∧
    ∀ p∈touched state cgroup "a",∀ q∈touched state cgroup "waymux-a",startsWith p q=false := by
  intro state cgroup
  have ha : validateSessionName "a"=.ok () := by decide +kernel
  have hb : validateSessionName "waymux-a"=.ok () := by decide +kernel
  exact ⟨ha,hb,(names_confined ha hb state cgroup).2.2.2 (by decide) (by decide +kernel) (by decide +kernel)⟩

/-- With the state directory at the daemon's cgroup, the leaf of one session is the directory of another. -/
theorem leaf_is_session_dir : let dir := "/sys/fs/cgroup/waymux.service".toList
    validateSessionName "a"=.ok () ∧ validateSessionName "waymux-a"=.ok () ∧
    leaf dir "a"∈touched dir dir "a" ∧ leaf dir "a"∈touched dir dir "waymux-a" := by
  decide +kernel

end Waymux.Registry.SessionPaths
