import Mathlib.Data.List.Basic

/-!
# Rows of a picture in a byte view

A picture lies in a list with `pitch` items from the start of one row to the next. Taking a slice
outside the list fails.
-/

namespace Framing.Rows
open List

variable {β : Type} {src out : List β} {pitch width rows : Nat}

def region (mem : Nat → β) (start len : Nat) : List β := (List.range len).map fun i => mem (start+i)

def slice (src : List β) (a b : Nat) : Option (List β) :=
  if a≤b ∧ b ≤ src.length then some ((src.drop a).take (b-a)) else none

def rowAt (src : List β) (pitch width y : Nat) : List β := (src.drop (y*pitch)).take width

def copyRows (src : List β) (pitch width : Nat) : Nat → Nat → Option (List β)
  | 0, _ => some []
  | rows+1, row => do
    let head ← slice src (row*pitch) (row*pitch+width)
    let rest ← copyRows src pitch width rows (row+1)
    some (head++rest)

structure IsPacked (out : List β) (width rows : Nat) (row : Nat → List β) : Prop where
  length : out.length=rows*width
  row_eq : ∀ y<rows,rowAt out width width y=row y

@[simp] theorem region_length (mem : Nat → β) (start len : Nat) : (region mem start len).length=len := by
  simp [region]

theorem region_drop_take (mem : Nat → β) (start len a n : Nat) (h : a+n≤len) :
    ((region mem start len).drop a).take n=region mem (start+a) n := by
  apply ext_getElem
  · simp only [length_take,length_drop,region_length]
    omega
  · intro i hi hi'
    simp only [region,getElem_take,getElem_drop,getElem_map,getElem_range]
    congr 1
    omega

theorem rowAt_region (mem : Nat → β) (start len y : Nat) (h : y*pitch+width≤len) :
    rowAt (region mem start len) pitch width y=region mem (start+y*pitch) width :=
  region_drop_take mem start len (y*pitch) width h

theorem slice_row {y : Nat} (h : y*pitch+width ≤ src.length) :
    slice src (y*pitch) (y*pitch+width)=some (rowAt src pitch width y) := by
  have hb : y*pitch≤y*pitch+width ∧ y*pitch+width ≤ src.length := ⟨Nat.le_add_right _ _,h⟩
  rw [slice,if_pos hb,Nat.add_sub_cancel_left]
  rfl

theorem slice_row_none {y : Nat} (h : src.length<y*pitch+width) :
    slice src (y*pitch) (y*pitch+width)=none :=
  if_neg fun hb => by omega

theorem IsPacked.nil (width : Nat) (row : Nat → List β) : IsPacked [] width 0 row :=
  ⟨(Nat.zero_mul width).symm,fun _ h => absurd h (Nat.not_lt_zero _)⟩

theorem IsPacked.congr {row row' : Nat → List β} (h : IsPacked out width rows row)
    (he : ∀ y<rows,row y=row' y) : IsPacked out width rows row' :=
  ⟨h.length,fun y hy => (h.row_eq y hy).trans (he y hy)⟩

theorem IsPacked.cons {head : List β} {row : Nat → List β} (hw : head.length=width) (h0 : row 0=head)
    (h : IsPacked out width rows fun y => row (y+1)) : IsPacked (head++out) width (rows+1) row where
  length := by
    rw [length_append,hw,h.length,Nat.succ_mul,Nat.add_comm]
  row_eq := by
    intro y hy
    cases y with
    | zero => simp [rowAt,h0,← hw]
    | succ y =>
      have hrow:=h.row_eq y (by omega)
      have hdrop : (y+1)*width=head.length+y*width := by rw [Nat.succ_mul,hw,Nat.add_comm]
      unfold rowAt
      rw [hdrop,drop_append]
      have hpast : head.drop (head.length+y*width)=[] := drop_eq_nil_of_le (by omega)
      rw [hpast,nil_append,Nat.add_sub_cancel_left]
      exact hrow

theorem flatMap_packed (rows : Nat) : ∀ {f : Nat → List β},(∀ y,(f y).length=width) →
    IsPacked ((List.range rows).flatMap f) width rows f := by
  induction rows with
  | zero => exact fun _ => .nil width _
  | succ rows ih =>
    intro f hf
    rw [range_succ_eq_map,flatMap_cons,flatMap_map]
    exact .cons (hf 0) rfl (ih fun y => hf (y+1))

theorem rowAt_narrow {narrow : Nat} (h : narrow≤width) (src : List β) (pitch y : Nat) :
    rowAt src pitch narrow y=(rowAt src pitch width y).take narrow := by
  rw [rowAt,rowAt,take_take,Nat.min_eq_left h]

theorem copyRows_packed (rows : Nat) : ∀ row,(∀ y<rows,(row+y)*pitch+width ≤ src.length) →
    ∃ out,copyRows src pitch width rows row=some out ∧
      IsPacked out width rows fun y => rowAt src pitch width (row+y) := by
  induction rows with
  | zero => exact fun row _ => ⟨[],rfl,.nil width _⟩
  | succ rows ih =>
    intro row h
    have hfirst : row*pitch+width ≤ src.length := h 0 (Nat.succ_pos rows)
    have hlater : ∀ y<rows,(row+1+y)*pitch+width ≤ src.length := by
      intro y hy
      have hy':=h (y+1) (Nat.succ_lt_succ hy)
      rwa [Nat.add_comm y 1,← Nat.add_assoc] at hy'
    obtain ⟨rest,hrest,hpacked⟩ := ih (row+1) hlater
    refine ⟨rowAt src pitch width row++rest,?_,?_⟩
    · rw [copyRows,slice_row hfirst,hrest]
      rfl
    · refine .cons ?_ rfl ?_
      · simp only [rowAt,length_take,length_drop]
        omega
      · have hshift : (fun y => rowAt src pitch width (row+(y+1))) =
            fun y => rowAt src pitch width (row+1+y) := by
          funext y
          rw [Nat.add_comm y 1,← Nat.add_assoc]
        rwa [hshift]

theorem copyRows_none (rows : Nat) : ∀ row y,y<rows → src.length<(row+y)*pitch+width →
    copyRows src pitch width rows row=none := by
  induction rows with
  | zero => exact fun row y hy => absurd hy (Nat.not_lt_zero y)
  | succ rows ih =>
    intro row y hy h
    cases y with
    | zero =>
      have hfirst : src.length<row*pitch+width := h
      rw [copyRows,slice_row_none hfirst]
      rfl
    | succ y =>
      have hlater : copyRows src pitch width rows (row+1)=none := by
        apply ih (row+1) y (Nat.lt_of_succ_lt_succ hy)
        rwa [Nat.add_comm y 1,← Nat.add_assoc] at h
      rw [copyRows,hlater]
      cases slice src (row*pitch) (row*pitch+width) <;> rfl

theorem copyRows_some {row : Nat} (h : copyRows src pitch width rows row=some out) :
    (∀ y<rows,(row+y)*pitch+width ≤ src.length) ∧
      IsPacked out width rows fun y => rowAt src pitch width (row+y) := by
  have hb : ∀ y<rows,(row+y)*pitch+width ≤ src.length := by
    intro y hy
    by_contra hlong
    rw [copyRows_none rows row y hy (by omega)] at h
    cases h
  obtain ⟨out',hout,hpacked⟩ := copyRows_packed rows row hb
  rw [h] at hout
  cases hout
  exact ⟨hb,hpacked⟩

theorem take_packed (h : rows*width ≤ src.length) :
    IsPacked (src.take (rows*width)) width rows fun y => rowAt src width width y where
  length := length_take_of_le h
  row_eq := by
    intro y hy
    have hle : (y+1)*width≤rows*width := Nat.mul_le_mul_right width hy
    rw [Nat.succ_mul] at hle
    unfold rowAt
    rw [drop_take,take_take]
    congr 1
    omega

def paste (out : List β) (i : Nat) (piece : List β) : List β := out.take i++(piece++out.drop (i+piece.length))

theorem paste_blank {done blank rest piece : List β} (h : blank.length=piece.length) :
    paste (done++(blank++rest)) done.length piece=done++(piece++rest) := by
  unfold paste
  rw [take_left,← drop_drop,drop_left,← h,drop_left]

theorem flatMap_rowAt (src : List β) (width rows : Nat) :
    (List.range rows).flatMap (rowAt src width width)=src.take (rows*width) := by
  induction rows with
  | zero => simp
  | succ rows ih => simp [range_succ,ih,Nat.succ_mul,take_add,rowAt]

/-- A loop whose round `k` fills the `k`-th piece of a blank list leaves all of the
pieces, one after the other. -/
theorem foldlM_fills {m : Type → Type} [Monad m] [LawfulMonad m] {g : List β → Nat → m (List β)}
    {piece : Nat → List β} {z : β} (first : Nat) (done : List β) (hdone : done.length=first*width)
    (hlen : ∀ k,(piece k).length=width) (rows : Nat) : ∀ rest,
    (∀ k<rows,∀ done rest : List β,done.length=(first+k)*width →
      g (done++(List.replicate width z++rest)) k=pure (done++(piece k++rest))) →
    (List.range rows).foldlM g (done++(List.replicate (rows*width) z++rest)) =
      pure (done++((List.range rows).flatMap piece++rest)) := by
  induction rows with
  | zero => simp
  | succ rows ih =>
    intro rest hg
    -- the rounds before the last one have filled all but the last piece
    have hfilled : (done++(List.range rows).flatMap piece).length=(first+rows)*width := by
      rw [length_append,hdone,(flatMap_packed rows hlen).length,Nat.add_mul]
    have hstep:=hg rows (Nat.lt_succ_self rows) _ rest hfilled
    rw [range_succ,foldlM_append,Nat.succ_mul,replicate_add,append_assoc,ih _ fun k hk => hg k (Nat.lt_succ_of_lt hk)]
    simpa using hstep

/-- Where a loop ends, no round of it failed. -/
theorem foldlM_round {α σ ε : Type} {f : σ → α → Except ε σ} {t : σ} {k : α} :
    ∀ (ks : List α) (s : σ),ks.foldlM f s=.ok t → k∈ks → ∃ s t,f s k=.ok t := by
  intro ks
  induction ks with
  | nil => exact fun _ _ hk => absurd hk not_mem_nil
  | cons k' ks ih =>
    intro s h hk
    rw [foldlM_cons] at h
    cases hf : f s k' with
    | error =>
      rw [hf] at h
      cases h
    | ok s' =>
      rcases mem_cons.mp hk with rfl | hk
      · exact ⟨s,s',hf⟩
      · rw [hf] at h
        exact ih s' h hk

end Framing.Rows
