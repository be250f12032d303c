import Mathlib.Logic.Basic

/-!
# One busy worker per key

Whatever a worker finds under its key is its own as long as no second worker of the key is busy.
-/

namespace Interleave.Ownership

variable {ι κ : Type}

def Exclusive (key : ι → κ) (busy : ι → Prop) : Prop :=
  ∀ i j,busy i → busy j → key i=key j → i=j

variable {key key' : ι → κ} {busy busy' : ι → Prop}

theorem Exclusive.mono (h : Exclusive key busy) (hle : ∀ i,busy' i → busy i) : Exclusive key busy' :=
  fun i j hi hj hk => h i j (hle i hi) (hle j hj) hk

/-- A step in which workers keep their keys and at most one starts, finding no
other busy worker under its key. -/
theorem Exclusive.step (h : Exclusive key busy) (enters : ι → Prop) (hkey : ∀ i,busy i ∨ enters i → key' i=key i)
    (hbusy : ∀ i,busy' i → busy i ∨ enters i) (hone : ∀ i j,enters i → enters j → i=j)
    (hfree : ∀ i j,enters i → busy j → key j=key i → j=i) : Exclusive key' busy' := by
  intro i j hi hj hk
  have hi:=hbusy i hi
  have hj:=hbusy j hj
  rw [hkey i hi,hkey j hj] at hk
  rcases hi with hi | hi <;> rcases hj with hj | hj
  · exact h i j hi hj hk
  · exact hfree j i hj hi hk
  · exact (hfree i j hi hj hk.symm).symm
  · exact hone i j hi hj

end Interleave.Ownership
