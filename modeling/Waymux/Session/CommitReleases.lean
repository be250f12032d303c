import Waymux.Session.Effects

/-!
# Releases against commits

How often a client is told that it may reuse a buffer, against how often it committed it.
-/

namespace Waymux.Session.CommitReleases
open BufferRelease Presentation Obligations Effects
open Interleave.Runs

variable {kind : Nat → BufferKind} {s t : State} {a : Presentation.Act} {b : Nat}

def isRelease (b : Nat) : Emission → Bool
  | .release c _ => c=b
  | .signal .. => false

def releases (s : State) (b : Nat) : Nat := s.api.log.countP (isRelease b)

def OneReleasePerCommit (s : State) : Prop := ∀ b,releases s b ≤ s.commits.count b

/-- A commit with a new buffer replaces nothing, a dmabuf, or a buffer its
client has destroyed. -/
def Replacing (kind : Nat → BufferKind) (s : State) : Presentation.Act → Prop
  | .commit x => (s.surfaces x).pendingBuffer≠none →
      ∀ prev∈(s.surfaces x).currentBuffer,kind prev=.dmabuf ∨ s.api.alive prev=false
  | _ => True

structure Covered (s : State) (b : Nat) : Prop where
  sent : releases s b ≤ s.commits.count b
  coming : s.api.alive b=true → releases s b+owed true s b ≤ s.commits.count b

theorem replaced_count {x nb : Nat} (hok : Replacing kind s (.commit x))
    (hn : (s.surfaces x).pendingBuffer=some nb) (hb : s.api.alive b=true) :
    (replaced kind (s.surfaces x)).count b=0 := by
  unfold replaced
  split
  next prev hp =>
    split
    · rfl
    next hk =>
      have hdead:=(hok (by simp [hn]) prev hp).resolve_left hk
      have hne : prev≠b := by
        rintro rfl
        rw [hb] at hdead
        cases hdead
      rw [count_singleton_one,one_of_ne hne]
  · rfl

theorem emitted_spent (p : Api) (j : Job) (b : Nat) : (p.emitted j).countP (isRelease b) ≤ spent true p b j := by
  cases j with
  | send =>
    simp only [Api.emitted,spent,if_true]
    split
    · simp only [List.countP_cons,List.countP_nil,isRelease,one,decide_eq_true_eq,Nat.zero_add]
      exact Nat.le_refl _
    · exact Nat.zero_le _
  | signal => exact Nat.le_refl _
  | _ => exact Nat.zero_le _

theorem emitted_dead {p : Api} {j : Job} (hb : p.alive b=false) : (p.emitted j).countP (isRelease b)=0 := by
  cases j with
  | send c point =>
    simp only [Api.emitted]
    split
    next hc =>
      have hne : c≠b := by
        rintro rfl
        rw [hb] at hc
        cases hc
      simp [isRelease,hne]
    · rfl
  | _ => rfl

theorem Covered.keep (hi : Covered s b) (hbal : owed true t b≤owed true s b) (hl : t.api.log=s.api.log)
    (ha : t.api.alive b=true → s.api.alive b=true) (hc : t.commits=s.commits) : Covered t b := by
  have hr : releases t b=releases s b := by rw [releases,hl]; rfl
  refine ⟨by rw [hr,hc]; exact hi.sent,fun hb => ?_⟩
  have := hi.coming (ha hb)
  rw [hr,hc]
  omega

theorem Covered.committed {x nb : Nat} (hi : Covered s b) (hok : Replacing kind s (.commit x))
    (hn : (s.surfaces x).pendingBuffer=some nb) (hbal : owed true t b=owed true s b+made kind s b (.commit x))
    (hl : t.api.log=s.api.log) (ha : t.api.alive=s.api.alive) (hc : t.commits=s.commits++[nb]) :
    Covered t b := by
  have hr : releases t b=releases s b := by rw [releases,hl]; rfl
  have hcount : t.commits.count b=s.commits.count b+one nb b := by
    rw [hc,List.count_append,count_singleton_one]
  refine ⟨?_,fun hb => ?_⟩
  · have := hi.sent
    omega
  · rw [ha] at hb
    have hm : made kind s b (.commit x)=one nb b := by
      simp only [made,hn]
      rw [replaced_count hok hn hb]
      rfl
    have := hi.coming hb
    omega

theorem Covered.job {i th : Nat} {j : Job} (hi : Covered s b)
    (hbal : owed true t b+spent true s.api b j=owed true s b) (ha : t.api=s.api.perform i th j)
    (hc : t.commits=s.commits) : Covered t b := by
  have hr : releases t b=releases s b+(s.api.emitted j).countP (isRelease b) := by
    rw [releases,ha]
    exact List.countP_append
  have halive : t.api.alive=s.api.alive := by
    rw [ha]
    rfl
  cases hb : s.api.alive b with
  | true =>
    have hspent:=emitted_spent s.api j b
    have hcov:=hi.coming hb
    refine ⟨?_,fun _ => ?_⟩ <;> rw [hr,hc] <;> omega
  | false =>
    refine ⟨?_,fun hb' => ?_⟩
    · rw [hr,emitted_dead hb,hc]
      exact hi.sent
    · rw [halive,hb] at hb'
      cases hb'

theorem covered_step (hi : Covered s b) (hok : Replacing kind s a) (h : step kind s a=some t) : Covered t b := by
  have hbal:=@step_owed kind s t a true b h
  cases step_effect h with
  | quiet hm _ hq =>
    rw [hm] at hbal
    exact hi.keep (by omega) hq.log (by rw [hq.alive]; exact id) hq.commits
  | committed x nb hd hn => exact hi.committed hok hn hbal rfl rfl rfl
  | unbuffered x hd hn =>
    have hm : made kind s b (.commit x)=0 := by simp only [made,hn]
    rw [hm] at hbal
    exact hi.keep (Nat.le_of_eq hbal) rfl id rfl
  | destroyed => exact hi.keep (Nat.le_of_eq hbal) rfl alive_of_destroy rfl
  | job i th j hj =>
    refine hi.job ?_ (rfl : _=s.api.perform i th j) rfl
    simp only [spentBy,hj] at hbal
    exact hbal
  | _ => exact hi.keep (Nat.le_of_eq hbal) rfl id rfl

/-- In every run in which no commit replaces a live buffer other than a dmabuf. -/
theorem one_release_per_commit (hr : Reach (step kind) (Replacing kind) init s) : OneReleasePerCommit s := by
  intro b
  have hcov : Covered s b := by
    refine hr.keeps ⟨Nat.le_refl _,fun _ => Nat.le_refl _⟩ covered_step
  exact hcov.sent

/- Buffers below ten are shm, the others dmabufs. -/
def kinds (b : Nat) : BufferKind := if b<10 then .shm else .dmabuf

def releasing : List Presentation.Act := List.replicate 5 (.job 0)

/-- Buffer `b` is committed to surface `x` with no view attached, and released
after the tap. -/
def shown (x b now : Nat) : List Presentation.Act :=
  ([.attach x (some b),.commit x,.notePoint,.checkAttached,.endTap] : List Presentation.Act) ++
  releasing++([.recordDamage now] : List Presentation.Act)

instance : Decidable (Replacing kind s a) := by
  unfold Replacing
  split <;> infer_instance

theorem one_release_per_commit_dmabufs : ∃ s,Reach (step kinds) (Replacing kinds) init s ∧
    s.commits=[10,11] ∧ s.api.log=[.release 10 0,.release 11 0] ∧ OneReleasePerCommit s := by
  have hr : Reach (step kinds) (Replacing kinds) init _ :=
    reach_exec (shown 0 10 1++shown 0 11 2)
      (meets_decided (by decide +kernel)) (by decide +kernel)
  refine ⟨_,hr,?_,?_,one_release_per_commit hr⟩ <;> decide +kernel

/-- A shm buffer is released after its own commit and again when the next commit replaces it. -/
theorem released_twice : ∃ s,Reach (step kinds) Free init s ∧ s.commits=[1,2] ∧
    s.api.log=[.release 1 0,.release 1 0] ∧ ¬OneReleasePerCommit s := by
  have hr : Reach (step kinds) Free init _ := reach_free
    (shown 0 1 1++([.attach 0 (some 2),.commit 0] : List Presentation.Act)++releasing) (by decide +kernel)
  exact ⟨_,hr,by decide +kernel,by decide +kernel,fun hone => absurd (hone 1) (by decide +kernel)⟩

end Waymux.Session.CommitReleases
