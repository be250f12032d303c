import Waymux.Framing.Ebml

/-!
# EBML primitives of the muxer (`ebml.rs`)

Values are 64-bit there; the byte writers below keep the low 64 bits.
-/

namespace Waymux.Mkv.Ebml
open Framing.LengthPrefix Framing.Integers Framing.Ebml List

def unknownSize : Nat := 0x01FFFFFFFFFFFFFF

/- The loop over `1..=8`; a value too large for all of them gets 8 as well. -/
def vintLen (val : Nat) : Nat :=
  if val=unknownSize then 8
  else ((List.range' 1 8).find? fun bytes => val<2^(bytes*7)-1).getD 8

def writeVint (val : Nat) : Bytes :=
  let bytes:=vintLen val
  let marker:=2^(bytes*7)
  let combined:=val ||| marker
  (beBytes 8 combined).drop (8-bytes)

def writeElementId (id : Nat) : Bytes :=
  let bytes :=
    if 0x10000000 ≤ id then 4
    else if 0x100000 ≤ id then 3
    else if 0x4000 ≤ id then 2
    else 1
  (beBytes 4 id).drop (4-bytes)

def writeElementSize (size : Nat) : Bytes :=
  if size=unknownSize then [0x01,0xFF,0xFF,0xFF,0xFF,0xFF,0xFF,0xFF]
  else writeVint size

def byteCount (v : Nat) : Nat :=
  if v=0 then 0 else byteCount (v/256)+1
termination_by v

def uintByteLen (val : Nat) : Nat := if val=0 then 1 else byteCount val

def writeElementU64 (id val : Nat) : Bytes :=
  let len:=uintByteLen val
  writeElementId id++writeElementSize len++(beBytes 8 val).drop (8-len)

def writeElementF64 (id : Nat) (val : Float) : Bytes :=
  writeElementId id++writeElementSize 8++beBytes 8 val.toBits.toNat

/- `write_element_bytes`, and `write_element_str` on the string's UTF-8 bytes. -/
def writeElementBytes (id : Nat) (data : Bytes) : Bytes :=
  writeElementId id++writeElementSize data.length++data

def utf8 (s : String) : Bytes := s.toUTF8.data.toList

def writeElementStr (id : Nat) (val : String) : Bytes := writeElementBytes id (utf8 val)

/-- How many bytes an id is written in, and that they carry its marker. -/
def idWidth (id : Nat) : Nat := (writeElementId id).length

def IsId (id : Nat) : Prop :=
  writeElementId id=beBytes (idWidth id) id ∧ Marked (idWidth id) id ∧ idWidth id≤4

instance (id : Nat) : Decidable (IsId id) := inferInstanceAs (Decidable (_ ∧ _ ∧ _))

theorem readId_writeElementId {id : Nat} (h : IsId id) (rest : Bytes) :
    readId (writeElementId id++rest)=some (id,rest) := by
  rw [h.1]
  exact readId_beBytes h.2.1 h.2.2 rest

/-- From here on a size has no encoding: eight bytes leave 56 bits, and all of
them set stands for an unknown size. -/
def sizeLimit : Nat := 2^56-1

variable {val : Nat}

/-- The first length whose data bits can hold the value with a zero left over. -/
theorem vintLen_spec (h : val<sizeLimit) : 1≤vintLen val ∧ vintLen val≤8 ∧ val+1<2^(7*vintLen val) ∧
    ∀ k,1≤k → val+1<2^(7*k) → vintLen val≤k := by
  unfold sizeLimit at h
  have hne : val≠unknownSize := by
    unfold unknownSize
    omega
  rw [vintLen,if_neg hne]
  cases hf : (List.range' 1 8).find? fun bytes => val<2^(bytes*7)-1 with
  | none =>
    have hlast:=List.find?_eq_none.mp hf 8 (by decide)
    simp only [decide_eq_true_eq] at hlast
    omega
  | some =>
    obtain ⟨hlt,hmem,hleast⟩ := List.find?_range'_eq_some.mp hf
    simp only [decide_eq_true_eq] at hlt
    rw [mem_range'_1] at hmem
    rw [Option.getD_some,Nat.mul_comm 7]
    refine ⟨hmem.1,by omega,by omega,fun k hk hkv => ?_⟩
    by_contra hlow
    have := hleast k hk (by omega)
    simp only [Bool.not_eq_true',decide_eq_false_iff_not] at this
    rw [Nat.mul_comm] at hkv
    omega

theorem writeVint_eq (h : val<sizeLimit) : writeVint val=beBytes (vintLen val) (2^(7*vintLen val)+val) := by
  obtain ⟨-,h8,hlt,-⟩ := vintLen_spec h
  have hor : val ||| 2^(vintLen val*7)=2^(7*vintLen val)+val := by
    have := Nat.two_pow_add_eq_or_of_lt (i := 7*vintLen val) (b := val) (by omega) 1
    rw [Nat.mul_one] at this
    rw [this,Nat.mul_comm,Nat.or_comm]
  have hdrop:=beBytes_drop (8-vintLen val) (vintLen val) (2^(7*vintLen val)+val)
  rw [show 8-vintLen val+vintLen val=8 by omega] at hdrop
  rw [writeVint,hor,hdrop]

theorem writeElementSize_eq (h : val<sizeLimit) :
    writeElementSize val=beBytes (vintLen val) (2^(7*vintLen val)+val) := by
  have hne : val≠unknownSize := by
    unfold sizeLimit at h
    unfold unknownSize
    omega
  rw [writeElementSize,if_neg hne,writeVint_eq h]

theorem readSize_writeElementSize {n : Nat} (h : n<sizeLimit) (rest : Bytes) :
    readSize (writeElementSize n++rest)=some (some n,rest) := by
  obtain ⟨h1,h8,hlt,-⟩ := vintLen_spec h
  rw [writeElementSize_eq h]
  exact readSize_known h1 h8 hlt rest

theorem writeElementSize_lead (h : val<sizeLimit) :
    ∃ b tl,writeElementSize val=b::tl ∧ (b::tl).length=vintLen val ∧ vintLen val=8-b.toNat.log2 := by
  obtain ⟨h1,h8,hlt,-⟩ := vintLen_spec h
  have htake:=takeVint_beBytes (marked_size h1 h8 (Nat.lt_of_succ_lt hlt)) []
  rw [append_nil,← writeElementSize_eq h] at htake
  have hlen:=beBytes_length (vintLen val) (2^(7*vintLen val)+val)
  rw [← writeElementSize_eq h] at hlen
  cases hb : writeElementSize val with
  | nil => rw [hb] at htake; cases htake
  | cons b tl =>
    rw [hb] at htake hlen
    exact ⟨b,tl,rfl,hlen,(takeVint_width htake).symm⟩

theorem writeElementSize_unknown : writeElementSize unknownSize=beBytes 8 (2^(7*8+1)-1) := by
  decide

theorem readSize_unknownSize (rest : Bytes) :
    readSize (writeElementSize unknownSize++rest)=some (none,rest) := by
  rw [writeElementSize_unknown]
  exact readSize_unknown (by decide) (by decide) rest

theorem readSize_limit (rest : Bytes) : readSize (writeElementSize sizeLimit++rest)=some (none,rest) := by
  exact readSize_unknown (by decide) (by decide) rest

theorem byteCount_spec {v : Nat} : v<256^byteCount v := by
  induction v using Nat.strongRecOn with
  | ind v ih =>
    rw [byteCount]
    split
    next h0 => rw [h0]; decide
    next h0 =>
      have hdiv:=ih (v/256) (by omega)
      omega

theorem byteCount_le {v k : Nat} (h : v<256^k) : byteCount v≤k := by
  induction k generalizing v with
  | zero =>
    have h0 : v=0 := Nat.lt_one_iff.mp h
    rw [byteCount,if_pos h0]
  | succ k ih =>
    rw [byteCount]
    split
    · exact Nat.zero_le _
    · have := ih (v := v/256) (by omega)
      omega

theorem uintByteLen_spec (h : val<2^64) :
    1≤uintByteLen val ∧ uintByteLen val≤8 ∧ val<256^uintByteLen val := by
  unfold uintByteLen
  split
  next h0 => subst h0; decide
  next h0 =>
    refine ⟨?_,byteCount_le (k := 8) (by omega),byteCount_spec⟩
    rw [byteCount,if_neg h0]
    omega

def uintBody (val : Nat) : Bytes := (beBytes 8 val).drop (8-uintByteLen val)

theorem uintBody_eq (h : val<2^64) : uintBody val=beBytes (uintByteLen val) val := by
  obtain ⟨-,h8,-⟩ := uintByteLen_spec h
  have hdrop:=beBytes_drop (8-uintByteLen val) (uintByteLen val) val
  rw [show 8-uintByteLen val+uintByteLen val=8 by omega] at hdrop
  exact hdrop

theorem ofBe_uintBody (h : val<2^64) : ofBe (uintBody val)=val := by
  rw [uintBody_eq h]
  exact ofBe_beBytes_of_lt (uintByteLen_spec h).2.2

theorem uintBody_length (h : val<2^64) : (uintBody val).length=uintByteLen val := by
  rw [uintBody_eq h,beBytes_length]

theorem writeElementId_length_le (id : Nat) : (writeElementId id).length≤4 := by
  rw [writeElementId,length_drop,beBytes_length]
  omega

theorem writeElementSize_length_le (n : Nat) : (writeElementSize n).length≤8 := by
  rw [writeElementSize]
  split
  · exact Nat.le_refl 8
  · rw [writeVint,length_drop,beBytes_length]
    omega

theorem writeElementU64_length_le (id val : Nat) : (writeElementU64 id val).length≤20 := by
  have hid:=writeElementId_length_le id
  have hsize:=writeElementSize_length_le (uintByteLen val)
  rw [writeElementU64,length_append,length_append,length_drop,beBytes_length]
  omega

theorem writeElementBytes_length (id : Nat) (data : Bytes) :
    data.length≤(writeElementBytes id data).length ∧ (writeElementBytes id data).length≤data.length+12 := by
  have hid:=writeElementId_length_le id
  have hsize:=writeElementSize_length_le data.length
  rw [writeElementBytes,length_append,length_append]
  omega

variable {opens : Nat → Bool} {id : Nat} {rest : Bytes}

theorem next_element {body : Bytes} (hid : IsId id) (hb : body.length<sizeLimit) :
    next opens (writeElementId id++writeElementSize body.length++body++rest) =
      some (.element id body,rest) := by
  rw [append_assoc,append_assoc,Framing.Ebml.next,readId_writeElementId hid]
  simp only
  rw [readSize_writeElementSize hb]
  simp only
  rw [if_neg (by rw [length_append]; omega),take_left,drop_left]

theorem tokens_element {body : Bytes} (hid : IsId id) (hb : body.length<sizeLimit) :
    tokens opens (writeElementId id++writeElementSize body.length++body++rest) =
      (tokens opens rest).map (.element id body::·) :=
  tokens_next (next_element hid hb)

theorem tokens_bytes {data : Bytes} (hid : IsId id) (hd : data.length<sizeLimit) :
    tokens opens (writeElementBytes id data++rest)=(tokens opens rest).map (.element id data::·) :=
  tokens_element hid hd

theorem tokens_u64 (hid : IsId id) (hv : val<2^64) :
    tokens opens (writeElementU64 id val++rest)=(tokens opens rest).map (.element id (uintBody val)::·) := by
  have hlen:=uintBody_length hv
  have h8:=(uintByteLen_spec hv).2.1
  have hsmall : (uintBody val).length<sizeLimit := by
    unfold sizeLimit
    omega
  have := @tokens_element opens id rest _ hid hsmall
  rw [hlen] at this
  exact this

theorem tokens_f64 {val : Float} (hid : IsId id) :
    tokens opens (writeElementF64 id val++rest) =
      (tokens opens rest).map (.element id (beBytes 8 val.toBits.toNat)::·) := by
  have hsmall : (beBytes 8 val.toBits.toNat).length<sizeLimit := by
    rw [beBytes_length]
    decide
  have := @tokens_element opens id rest _ hid hsmall
  exact this

theorem tokens_open (hid : IsId id) (ho : opens id=true) :
    tokens opens (writeElementId id++writeElementSize unknownSize++rest) =
      (tokens opens rest).map (.opened id::·) := by
  apply tokens_next
  rw [append_assoc,Framing.Ebml.next,readId_writeElementId hid]
  simp only
  rw [readSize_unknownSize]
  exact if_pos ho

end Waymux.Mkv.Ebml
