import Mathlib.Data.List.Basic
import Mathlib.Data.List.Forall2
import Mathlib.Data.List.Nodup

/-!
# Append-only logs

What precedes what, two kinds of entries in alternation, items that are handed over exactly once,
and logs that agree entry by entry.
-/

namespace Interleave.Logs
open List

variable {α ι ω : Type}

def Precedes (p q : α → Prop) (l : List α) : Prop :=
  ∀ l₁ y l₂,l=l₁++y::l₂ → q y → ∃ x∈l₁,p x

theorem precedes_nil (p q : α → Prop) : Precedes p q [] := by
  intro l₁ y l₂ h
  simp at h

variable {l : List α} {log : List ι} {i : ι} {P : ι → Prop}

theorem precedes_of_absent {p q : α → Prop} (h : ∀ y∈l,¬q y) : Precedes p q l := by
  rintro l₁ y l₂ rfl hy
  exact absurd hy (h y (by simp))

theorem Precedes.append {p q : α → Prop} (h : Precedes p q l) {z : α} (hz : q z → ∃ x∈l,p x) :
    Precedes p q (l++[z]) := by
  intro l₁ y l₂ hl hy
  rcases eq_nil_or_concat l₂ with rfl | ⟨l₃,z',rfl⟩
  · obtain ⟨rfl,he⟩ := append_inj' hl rfl
    cases he
    exact hz hy
  · have hl' : l++[z]=(l₁++y::l₃)++[z'] := by simpa using hl
    obtain ⟨he,_⟩ := append_inj' hl' rfl
    exact h l₁ y l₃ he hy

theorem pair_sublist_append {x y z : α} (h : [x,y].Sublist (l++[z])) : [x,y].Sublist l ∨ y=z := by
  obtain ⟨l₁,l₂,he,h₁,h₂⟩ := sublist_append_iff.mp h
  rcases sublist_singleton.mp h₂ with rfl | rfl
  · exact .inl (by simpa [he] using h₁)
  · have := congrArg List.getLast? he
    simp at this
    exact .inr this

theorem pair_sublist_asymm {x y : α} (hn : l.Nodup) (h : [x,y].Sublist l) : ¬[y,x].Sublist l := by
  intro h'
  induction l with
  | nil => cases h
  | cons z l ih =>
    obtain ⟨hz,hn⟩ := nodup_cons.mp hn
    rcases sublist_cons_iff.mp h with hl | ⟨r,hr,hl⟩
    · rcases sublist_cons_iff.mp h' with hl' | ⟨r',hr',_⟩
      · exact ih hn hl hl'
      · cases hr'
        exact hz (hl.subset (by simp))
    · cases hr
      rcases sublist_cons_iff.mp h' with hl' | ⟨r',hr',_⟩
      · exact hz (hl'.subset (by simp))
      · cases hr'
        exact hz (hl.subset (by simp))

/-- Reads a log that has to begin with kind `b` and alternate, and gives the kind that comes next. -/
def turn (b : Bool) : List Bool → Option Bool
  | [] => some b
  | x::xs => if x=b then turn (!b) xs else none

def Alternates (l : List Bool) : Prop := (turn true l).isSome=true

theorem turn_append (b : Bool) (l l' : List Bool) : turn b (l++l')=(turn b l).bind fun c => turn c l' := by
  induction l generalizing b with
  | nil => rfl
  | cons x xs ih =>
    simp only [cons_append,turn]
    split
    · exact ih _
    · rfl

theorem turn_concat {b c : Bool} {l : List Bool} (h : turn b l=some c) : turn b (l++[c])=some (!c) := by
  rw [turn_append,h]
  simp [turn]

theorem nodup_append_one (h : log.Nodup) (hi : i∉log) : (log++[i]).Nodup := by
  refine nodup_append.mpr ⟨h,nodup_singleton i,?_⟩
  rintro j hj k hk rfl
  exact hi (mem_singleton.mp hk ▸ hj)

structure Marks (P : ι → Prop) (log : List ι) : Prop where
  mem : ∀ i,i∈log ↔ P i
  nodup : log.Nodup

theorem Marks.same {P' : ι → Prop} (h : Marks P log) (hP : ∀ i,P' i ↔ P i) : Marks P' log :=
  ⟨fun i => (h.mem i).trans (hP i).symm,h.nodup⟩

theorem Marks.append {P' : ι → Prop} (h : Marks P log) {k : ι} (hk : ¬P k) (hP : ∀ i,P' i ↔ P i ∨ i=k) :
    Marks P' (log++[k]) := by
  refine ⟨fun i => ?_,nodup_append_one h.nodup fun hmem => hk ((h.mem k).mp hmem)⟩
  rw [mem_append,mem_singleton,h.mem,hP]

theorem Marks.count_one [DecidableEq ι] (h : Marks P log) (hi : P i) : log.count i=1 :=
  count_eq_one_of_mem h.nodup ((h.mem i).mpr hi)

theorem Marks.count_zero [DecidableEq ι] (h : Marks P log) (hi : ¬P i) : log.count i=0 :=
  count_eq_zero_of_not_mem fun hmem => hi ((h.mem i).mp hmem)

theorem Marks.count_eq [DecidableEq ι] (h : Marks P log) (i : ι) [Decidable (P i)] :
    log.count i=if P i then 1 else 0 := by
  split
  · next hi => exact h.count_one hi
  · next hi => exact h.count_zero hi

/-- Every item that was taken is held by one worker or stands in the log, once. -/
structure Ledger (taken : ι → Prop) (held : ω → Option ι) (log : List ι) : Prop where
  held_taken : ∀ x i,held x=some i → taken i
  logged_taken : ∀ i∈log,taken i
  held_once : ∀ x y i,held x=some i → held y=some i → x=y
  held_open : ∀ x i,held x=some i → i∉log
  accounted : ∀ i,taken i → i∈log ∨ ∃ x,held x=some i
  nodup : log.Nodup

variable {taken taken' : ι → Prop} {held held' : ω → Option ι} {log : List ι}

theorem Ledger.same (h : Ledger taken held log) (ht : ∀ i,taken' i ↔ taken i)
    (hh : ∀ x,held' x=held x) : Ledger taken' held' log := by
  obtain rfl : held'=held := funext hh
  obtain rfl : taken'=taken := funext fun i => propext (ht i)
  exact h

theorem Ledger.take (h : Ledger taken held log) {x : ω} (hi : ¬taken i) (hx : held x=none) (hx' : held' x=some i)
    (hh : ∀ y,y≠x → held' y=held y) (ht : ∀ j,taken' j ↔ taken j ∨ j=i) : Ledger taken' held' log := by
  -- a worker's hand after the step
  have hand (y : ω) (j : ι) (hy : held' y=some j) : held y=some j ∨ y=x ∧ j=i := by
    by_cases hyx : y=x
    · subst hyx
      exact .inr ⟨rfl,Option.some.inj (hy.symm.trans hx')⟩
    · exact .inl (hh y hyx ▸ hy)
  refine ⟨fun y j hy => ?_,fun j hj => (ht j).mpr (.inl (h.logged_taken j hj)),?_,?_,?_,h.nodup⟩
  · rcases hand y j hy with hy | ⟨_,rfl⟩
    · exact (ht j).mpr (.inl (h.held_taken y j hy))
    · exact (ht j).mpr (.inr rfl)
  · intro y z j hy hz
    rcases hand y j hy with hy | ⟨rfl,rfl⟩ <;> rcases hand z j hz with hz | ⟨rfl,hj⟩
    · exact h.held_once y z j hy hz
    · exact absurd (hj ▸ h.held_taken y j hy) hi
    · exact absurd (h.held_taken z j hz) hi
    · rfl
  · intro y j hy
    rcases hand y j hy with hy | ⟨_,rfl⟩
    · exact h.held_open y j hy
    · exact fun hj => hi (h.logged_taken j hj)
  · intro j hj
    rcases (ht j).mp hj with hj | rfl
    · refine (h.accounted j hj).imp id fun ⟨y,hy⟩ => ⟨y,?_⟩
      rw [hh y fun he => by simp [he,hx] at hy,hy]
    · exact .inr ⟨x,hx'⟩

theorem Ledger.write (h : Ledger taken held log) {x : ω} (hx : held x=some i) (hx' : held' x=none)
    (hh : ∀ y,y≠x → held' y=held y) (ht : ∀ j,taken' j ↔ taken j) : Ledger taken' held' (log++[i]) := by
  have hand (y : ω) (j : ι) (hy : held' y=some j) : held y=some j ∧ y≠x := by
    have hyx : y≠x := fun he => by simp [he,hx'] at hy
    exact ⟨hh y hyx ▸ hy,hyx⟩
  refine ⟨fun y j hy => (ht j).mpr (h.held_taken y j (hand y j hy).1),?_,?_,?_,?_,?_⟩
  · intro j hj
    rcases mem_append.mp hj with hj | hj
    · exact (ht j).mpr (h.logged_taken j hj)
    · rw [mem_singleton.mp hj]
      exact (ht i).mpr (h.held_taken x i hx)
  · exact fun y z j hy hz => h.held_once y z j (hand y j hy).1 (hand z j hz).1
  · intro y j hy hj
    obtain ⟨hy,hyx⟩ := hand y j hy
    rcases mem_append.mp hj with hj | hj
    · exact h.held_open y j hy hj
    · rw [mem_singleton.mp hj] at hy
      exact hyx (h.held_once y x i hy hx)
  · intro j hj
    rcases h.accounted j ((ht j).mp hj) with hj | ⟨y,hy⟩
    · exact .inl (mem_append_left _ hj)
    · by_cases hyx : y=x
      · subst hyx
        rw [Option.some.inj (hy.symm.trans hx)]
        exact .inl (by simp)
      · exact .inr ⟨y,hh y hyx ▸ hy⟩
  · exact nodup_append_one h.nodup (h.held_open x i hx)

theorem exists_of_forall₂ {β : Type} {R : α → β → Prop} {l' : List β} (h : List.Forall₂ R l l') {y : β} (hy : y∈l') :
    ∃ x∈l,R x y := by
  induction h with
  | nil => cases hy
  | cons hxy _ ih =>
    rcases mem_cons.mp hy with rfl | hy
    · exact ⟨_,mem_cons_self,hxy⟩
    · obtain ⟨x,hx,hr⟩ := ih hy
      exact ⟨x,mem_cons_of_mem _ hx,hr⟩

end Interleave.Logs
