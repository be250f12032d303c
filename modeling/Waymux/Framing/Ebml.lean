import Mathlib.Data.Nat.Log
import Waymux.Framing.Integers

/-!
# EBML streams

The position of the first set bit of an id or a size is its width. An id keeps that marker bit, a
size does not; a size whose bits are all set is unknown. A stream is read as a flat list of tokens.
-/

namespace Framing.Ebml
open LengthPrefix Integers List

/-- Width, value with its marker bit, and the bytes behind it. -/
def takeVint : Bytes → Option (Nat × Nat × Bytes)
  | [] => none
  | b::rest =>
      let width:=8-b.toNat.log2
      if b.toNat=0 ∨ rest.length+1<width then none
      else some (width,ofBe ((b::rest).take width),(b::rest).drop width)

def Marked (width m : Nat) : Prop :=
  1≤width ∧ width≤8 ∧ 2^(7*width) ≤ m ∧ m<2^(7*width+1)

instance (width m : Nat) : Decidable (Marked width m) :=
  inferInstanceAs (Decidable (_ ∧ _ ∧ _ ∧ _))

theorem pow256 (k : Nat) : 256^k=2^(8*k) := (pow_mul 2 8 k).symm

variable {m width : Nat} {bytes rest : Bytes}

theorem Marked.lead {k : Nat} (h : Marked (k+1) m) : 2^(7-k) ≤ m/256^k ∧ m/256^k<2^(8-k) := by
  obtain ⟨-,hk,hlow,hhigh⟩ := h
  have hpos : 0<256^k := Nat.pow_pos (by decide)
  have hlowEq : 2^(7-k)*256^k=2^(7*(k+1)) := by
    rw [pow256,← pow_add]
    congr 1
    omega
  have hhighEq : 256^k*2^(8-k)=2^(7*(k+1)+1) := by
    rw [pow256,← pow_add]
    congr 1
    omega
  constructor
  · rw [Nat.le_div_iff_mul_le hpos,hlowEq]
    exact hlow
  · apply Nat.div_lt_of_lt_mul
    rw [hhighEq]
    exact hhigh

theorem takeVint_beBytes (h : Marked width m) (rest : Bytes) :
    takeVint (beBytes width m++rest)=some (width,m,rest) := by
  obtain ⟨k,rfl⟩ : ∃ k,width=k+1 := ⟨width-1,by have := h.1; omega⟩
  obtain ⟨hlow,hhigh⟩ := h.lead
  have hk : k≤7 := by
    have := h.2.1
    omega
  have hfit : m<256^(k+1) := by
    rw [pow256]
    exact h.2.2.2.trans_le (Nat.pow_le_pow_right (by decide) (by omega))
  have h256 : m/256^k<256 := by
    have : 2^(8-k)≤2^8 := Nat.pow_le_pow_right (by decide) (by omega)
    omega
  have hlead : (UInt8.ofNat (m/256^k)).toNat=m/256^k := UInt8.toNat_ofNat_of_lt' h256
  have hone : 1≤2^(7-k) := Nat.one_le_two_pow
  have hlog : (m/256^k).log2=7-k := by
    rw [Nat.log2_eq_iff (by omega)]
    exact ⟨hlow,by rwa [show 7-k+1=8-k by omega]⟩
  have hwidth : 8-(7-k)=(beBytes (k+1) m).length := by
    rw [beBytes_length]
    omega
  have htake : (beBytes (k+1) m++rest).take (8-(7-k))=beBytes (k+1) m := by
    rw [hwidth,take_left]
  have hdrop : (beBytes (k+1) m++rest).drop (8-(7-k))=rest := by
    rw [hwidth,drop_left]
  rw [beBytes,cons_append] at htake hdrop ⊢
  rw [takeVint,hlead,hlog,if_neg,htake,hdrop,← beBytes,ofBe_beBytes_of_lt hfit]
  · congr 2
    omega
  · rw [length_append,beBytes_length]
    omega

theorem takeVint_width {b : UInt8} {tl : Bytes} (h : takeVint (b::tl)=some (width,m,rest)) :
    8-b.toNat.log2=width := by
  rw [takeVint] at h
  split at h <;> cases h
  rfl

theorem takeVint_length (h : takeVint bytes=some (width,m,rest)) : rest.length<bytes.length := by
  cases bytes with
  | nil => cases h
  | cons b =>
    rw [takeVint] at h
    split at h <;> cases h
    have hlog : b.toNat.log2<8 := by
      rw [Nat.log2_lt (by omega)]
      exact b.toNat_lt
    rw [length_drop,length_cons]
    omega

def readId (bytes : Bytes) : Option (Nat × Bytes) :=
  match takeVint bytes with
  | some (width,m,rest) => if width≤4 then some (m,rest) else none
  | none => none

/-- `none` inside for an unknown size. -/
def readSize (bytes : Bytes) : Option (Option Nat × Bytes) :=
  match takeVint bytes with
  | some (width,m,rest) =>
      if m+1=2^(7*width+1) then some (none,rest) else some (some (m-2^(7*width)),rest)
  | none => none

theorem readId_beBytes {id : Nat} (h : Marked width id) (h4 : width≤4) (rest : Bytes) :
    readId (beBytes width id++rest)=some (id,rest) := by
  rw [readId,takeVint_beBytes h]
  exact if_pos h4

theorem marked_size {n : Nat} (hw : 1≤width) (h8 : width≤8) (hn : n<2^(7*width)) :
    Marked width (2^(7*width)+n) := by
  exact ⟨hw,h8,by omega,by omega⟩

theorem readSize_known {n : Nat} (hw : 1≤width) (h8 : width≤8) (hn : n+1<2^(7*width)) (rest : Bytes) :
    readSize (beBytes width (2^(7*width)+n)++rest)=some (some n,rest) := by
  rw [readSize,takeVint_beBytes (marked_size hw h8 (Nat.lt_of_succ_lt hn))]
  have hne : ¬2^(7*width)+n+1=2^(7*width+1) := by omega
  simp only [if_neg hne]
  congr 3
  omega

theorem readSize_unknown (hw : 1≤width) (h8 : width≤8) (rest : Bytes) :
    readSize (beBytes width (2^(7*width+1)-1)++rest)=some (none,rest) := by
  have hone : 1≤2^(7*width) := Nat.one_le_two_pow
  have hm : Marked width (2^(7*width+1)-1) := ⟨hw,h8,by omega,by omega⟩
  rw [readSize,takeVint_beBytes hm]
  exact if_pos (by omega)

inductive Token
  | element (id : Nat) (body : Bytes)
  | opened (id : Nat)
  deriving DecidableEq, Repr

/-- `opens` says which elements may leave their size open. -/
def next (opens : Nat → Bool) (bytes : Bytes) : Option (Token × Bytes) :=
  match readId bytes with
  | none => none
  | some (id,rest) =>
      match readSize rest with
      | none => none
      | some (none,rest) => if opens id then some (.opened id,rest) else none
      | some (some n,rest) =>
          if rest.length<n then none else some (.element id (rest.take n),rest.drop n)

variable {opens : Nat → Bool}

theorem readId_length {id : Nat} (h : readId bytes=some (id,rest)) : rest.length<bytes.length := by
  unfold readId at h
  repeat' split at h
  all_goals cases h
  exact takeVint_length ‹_›

theorem readSize_length {size : Option Nat} (h : readSize bytes=some (size,rest)) :
    rest.length<bytes.length := by
  unfold readSize at h
  repeat' split at h
  all_goals cases h
  all_goals exact takeVint_length ‹_›

theorem next_length {t : Token} (h : next opens bytes=some (t,rest)) : rest.length<bytes.length := by
  unfold next at h
  split at h
  · cases h
  next id afterId hid =>
    have h1:=readId_length hid
    split at h
    · cases h
    next afterSize hs =>
      have h2:=readSize_length hs
      split at h <;> cases h
      omega
    next n afterSize hs =>
      have h2:=readSize_length hs
      split at h <;> cases h
      rw [length_drop]
      omega

def tokens (opens : Nat → Bool) (bytes : Bytes) : Option (List Token) :=
  if bytes=[] then some []
  else
    match _h : next opens bytes with
    | none => none
    | some (t,rest) => (tokens opens rest).map (t::·)
termination_by bytes.length
decreasing_by exact next_length _h

theorem tokens_nil : tokens opens []=some [] := by
  rw [tokens,if_pos rfl]

theorem tokens_next {t : Token} (h : next opens bytes=some (t,rest)) :
    tokens opens bytes=(tokens opens rest).map (t::·) := by
  have hne : bytes≠[] := by
    rintro rfl
    have := next_length h
    simp at this
  rw [tokens,if_neg hne]
  split
  next hn => rw [h] at hn; cases hn
  next t' rest' hn =>
    rw [h] at hn
    cases hn
    rfl

theorem tokens_stuck (hne : bytes≠[]) (h : next opens bytes=none) : tokens opens bytes=none := by
  rw [tokens,if_neg hne]
  split
  · rfl
  next t rest hn => rw [h] at hn; cases hn

end Framing.Ebml
