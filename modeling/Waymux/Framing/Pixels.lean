import Mathlib.Data.List.ProdSigma
import Mathlib.Data.List.Nodup

/-!
# Pixels of four entries in a flat buffer

`put` stores the pixel that begins at an index, `puts` a list of updates, each
computed from the pixel there. Updates that are apart are each seen at their
place, and nothing else changes.
-/

namespace Framing.Pixels
open List

variable {α : Type}

structure Pixel (α : Type) where
  b : α
  g : α
  r : α
  a : α
deriving DecidableEq

def pixelAt (l : List α) (i : Nat) : Option (Pixel α) := do
  some ⟨← l[i]?,← l[i+1]?,← l[i+2]?,← l[i+3]?⟩

def put (l : List α) (i : Nat) (p : Pixel α) : List α :=
  (((l.set i p.b).set (i+1) p.g).set (i+2) p.r).set (i+3) p.a

def update (l : List α) (u : Nat × (Pixel α → Pixel α)) : List α :=
  ((pixelAt l u.1).map fun p => put l u.1 (u.2 p)).getD l

def puts (l : List α) (us : List (Nat × (Pixel α → Pixel α))) : List α := us.foldl update l

def Apart (i j : Nat) : Prop := i+4≤j ∨ j+4 ≤ i

variable {l l' : List α} {i k : Nat} {p q : Pixel α} {u : Nat × (Pixel α → Pixel α)}
  {us : List (Nat × (Pixel α → Pixel α))} {f : Pixel α → Pixel α}

theorem pixelAt_eq_some : pixelAt l i=some p ↔
    l[i]?=some p.b ∧ l[i+1]?=some p.g ∧ l[i+2]?=some p.r ∧ l[i+3]?=some p.a := by
  obtain ⟨b,g,r,a⟩ := p
  simp [pixelAt,Option.bind_eq_some_iff]

theorem pixelAt_of_le (h : i+4≤l.length) : ∃ p,pixelAt l i=some p :=
  ⟨⟨l[i],l[i+1],l[i+2],l[i+3]⟩,by simp [pixelAt_eq_some]⟩

theorem le_of_pixelAt (h : pixelAt l i=some p) : i+4≤l.length := by
  obtain ⟨hlt,_⟩ := List.getElem?_eq_some_iff.mp (pixelAt_eq_some.mp h).2.2.2
  omega

theorem pixelAt_eq_none (h : ¬ i+4≤l.length) : pixelAt l i=none := by
  cases hp : pixelAt l i with
  | none => rfl
  | some => exact absurd (le_of_pixelAt hp) h

theorem pixelAt_congr (h : ∀ k,i≤k → k < i+4 → l[k]?=l'[k]?) : pixelAt l i=pixelAt l' i := by
  unfold pixelAt
  rw [h i (by omega) (by omega),h (i+1) (by omega) (by omega),h (i+2) (by omega) (by omega),
    h (i+3) (by omega) (by omega)]

theorem length_put : (put l i p).length=l.length := by simp [put]

theorem put_frame (h : k < i ∨ i+4≤k) : (put l i p)[k]?=l[k]? := by
  simp only [put]
  rw [getElem?_set_ne (by omega),getElem?_set_ne (by omega),getElem?_set_ne (by omega),getElem?_set_ne (by omega)]

theorem pixelAt_put (h : i+4≤l.length) : pixelAt (put l i p) i=some p := by
  simp [pixelAt_eq_some,put,getElem?_set]
  omega

theorem put_self (h : pixelAt l i=some p) : put l i p=l := by
  obtain ⟨hb,hg,hr,ha⟩ := pixelAt_eq_some.mp h
  apply ext_getElem?
  intro k
  simp only [put,getElem?_set]
  grind

theorem length_update : (update l u).length=l.length := by
  unfold update
  cases pixelAt l u.1 with
  | none => rfl
  | some => exact length_put

theorem update_frame (h : u.2=id ∨ k<u.1 ∨ u.1+4≤k) : (update l u)[k]?=l[k]? := by
  unfold update
  cases hp : pixelAt l u.1 with
  | none => rfl
  | some =>
    rcases h with hid | h
    · rw [hid]
      exact congrArg (·[k]?) (put_self hp)
    · exact put_frame h

theorem pixelAt_update : pixelAt (update l u) u.1=(pixelAt l u.1).map u.2 := by
  unfold update
  cases hp : pixelAt l u.1 with
  | none => exact hp
  | some => exact pixelAt_put (le_of_pixelAt hp)

theorem length_puts (us : List (Nat × (Pixel α → Pixel α))) (l : List α) : (puts l us).length=l.length := by
  induction us generalizing l with
  | nil => rfl
  | cons u us ih => exact (ih _).trans length_update

theorem puts_frame (h : ∀ u∈us,u.2=id ∨ k<u.1 ∨ u.1+4≤k) : (puts l us)[k]?=l[k]? := by
  induction us generalizing l with
  | nil => rfl
  | cons u us ih =>
    have hrest:=ih (l := update l u) fun v hv => h v (mem_cons_of_mem _ hv)
    exact hrest.trans (update_frame (h u mem_cons_self))

theorem pixelAt_puts (h : us.Pairwise fun u v => Apart u.1 v.1) (hm : (i,f)∈us) :
    pixelAt (puts l us) i=(pixelAt l i).map f := by
  induction us generalizing l with
  | nil => cases hm
  | cons u us ih =>
    obtain ⟨hhead,htail⟩ := pairwise_cons.mp h
    rcases mem_cons.mp hm with rfl | hm
    · have hrest : pixelAt (puts (update l (i,f)) us) i=pixelAt (update l (i,f)) i := by
        apply pixelAt_congr
        intro k hik hki
        apply puts_frame
        intro v hv
        have hv : Apart i v.1 := hhead v hv
        unfold Apart at hv
        omega
      exact hrest.trans pixelAt_update
    · refine (ih htail hm).trans (congrArg _ (pixelAt_congr fun k hik hki => update_frame ?_))
      have hu:=hhead _ hm
      unfold Apart at hu
      omega

end Framing.Pixels
