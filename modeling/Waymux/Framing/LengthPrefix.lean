import Mathlib.Algebra.Group.Nat.Defs
import Mathlib.Data.List.Basic

/-!
# Length-prefixed frames on a byte stream

A frame is a 32-bit big-endian length and that many bytes. A reader has less than a frame, a header
it refuses, or a whole frame and what follows it.
-/

namespace Framing.LengthPrefix
open List

abbrev Bytes := List UInt8

def be32 (n : Nat) : Bytes :=
  [UInt8.ofNat (n/2^24),UInt8.ofNat (n/2^16),UInt8.ofNat (n/2^8),UInt8.ofNat n]

def ofBe32 (a b c d : UInt8) : Nat :=
  a.toNat*2^24+b.toNat*2^16+c.toNat*2^8+d.toNat

def frame (payload : Bytes) : Bytes := be32 payload.length++payload

inductive Scan
  | short
  | tooLong (len : Nat)
  | whole (frame rest : Bytes)
  deriving DecidableEq, Repr

def scan (limit : Nat) : Bytes → Scan
  | a::b::c::d::rest =>
      if limit<ofBe32 a b c d then .tooLong (ofBe32 a b c d)
      else if rest.length<ofBe32 a b c d then .short
      else .whole (a::b::c::d::rest.take (ofBe32 a b c d)) (rest.drop (ofBe32 a b c d))
  | _ => .short

/-- How many bytes a reader asks for next. -/
def wanted : Bytes → Nat
  | a::b::c::d::rest => ofBe32 a b c d-rest.length
  | got => 4-got.length

variable {limit : Nat} {payload rest got : Bytes}

theorem ofBe32_be32 {n : Nat} (h : n<2^32) :
    ofBe32 (UInt8.ofNat (n/2^24)) (UInt8.ofNat (n/2^16)) (UInt8.ofNat (n/2^8)) (UInt8.ofNat n)=n := by
  simp only [ofBe32,UInt8.toNat_ofNat']
  omega

theorem frame_ne_nil : frame payload≠[] := by
  simp [frame,be32]

theorem scan_frame (hl : payload.length≤limit) (h32 : limit<2^32) :
    scan limit (frame payload++rest)=.whole (frame payload) rest := by
  have hn : payload.length<2^32 := by omega
  simp only [frame,be32,cons_append,nil_append,scan,ofBe32_be32 hn]
  rw [if_neg (by omega),if_neg (by simp),take_left,drop_left]

theorem scan_part (hl : payload.length≤limit) (h32 : limit<2^32)
    (hg : got++rest=frame payload) (hr : rest≠[]) : scan limit got=.short := by
  have hn : payload.length<2^32 := by omega
  unfold scan
  split
  next a b c d tl =>
    simp only [frame,be32,cons_append,nil_append,List.cons.injEq] at hg
    obtain ⟨rfl,rfl,rfl,rfl,hp⟩ := hg
    have hlen : tl.length<payload.length := by
      have := length_pos_iff.mpr hr
      rw [← hp,length_append]
      omega
    rw [ofBe32_be32 hn,if_neg (by omega),if_pos hlen]
  · rfl

theorem scan_header {a b c d : UInt8} {tl : Bytes} (hlim : ¬limit<ofBe32 a b c d)
    (hlen : ¬tl.length<ofBe32 a b c d) : scan limit (a::b::c::d::tl) =
      .whole (a::b::c::d::tl.take (ofBe32 a b c d)) (tl.drop (ofBe32 a b c d)) := by
  simp only [scan]
  rw [if_neg hlim,if_neg hlen]

theorem scan_whole_header {f : Bytes} (h : scan limit got=.whole f rest) : ∃ a b c d tl,
    got=a::b::c::d::tl ∧ ¬limit<ofBe32 a b c d ∧ ¬tl.length<ofBe32 a b c d ∧
      f=a::b::c::d::tl.take (ofBe32 a b c d) ∧ rest=tl.drop (ofBe32 a b c d) := by
  unfold scan at h
  split at h
  next a b c d tl =>
    split at h
    · cases h
    next hlim =>
      split at h
      · cases h
      next hlen =>
        injection h with hf hr
        exact ⟨a,b,c,d,tl,rfl,hlim,hlen,hf.symm,hr.symm⟩
  · cases h

theorem scan_again {a b c d : UInt8} {tl : Bytes} (hlim : ¬limit<ofBe32 a b c d)
    (hlen : ¬tl.length<ofBe32 a b c d) (more : Bytes) :
    scan limit ((a::b::c::d::tl.take (ofBe32 a b c d))++more) =
      .whole (a::b::c::d::tl.take (ofBe32 a b c d)) more := by
  have htake : (tl.take (ofBe32 a b c d)).length=ofBe32 a b c d :=
    length_take_of_le (Nat.not_lt.mp hlen)
  have hmore : ¬(tl.take (ofBe32 a b c d)++more).length<ofBe32 a b c d := by
    rw [length_append,htake]
    exact Nat.not_lt.mpr (Nat.le_add_right _ _)
  rw [cons_append,cons_append,cons_append,cons_append,scan_header hlim hmore,take_left' htake,drop_left' htake]

theorem scan_whole {f : Bytes} (h : scan limit got=.whole f rest) :
    got=f++rest ∧ f≠[] ∧ ∀ more,scan limit (f++more)=.whole f more := by
  obtain ⟨a,b,c,d,tl,hgot,hlim,hlen,hf,hrest⟩ := scan_whole_header h
  rw [hgot,hf,hrest]
  refine ⟨?_,cons_ne_nil _ _,scan_again hlim hlen⟩
  rw [cons_append,cons_append,cons_append,cons_append,take_append_drop]

theorem scan_whole_length {f : Bytes} (h : scan limit got=.whole f rest) : rest.length<got.length := by
  obtain ⟨rfl,hf,-⟩ := scan_whole h
  have := length_pos_iff.mpr hf
  rw [length_append]
  omega

def framesIn (limit : Nat) (bytes : Bytes) : List Bytes :=
  match _h : scan limit bytes with
  | .whole f rest => f::framesIn limit rest
  | .short => []
  | .tooLong _ => []
termination_by bytes.length
decreasing_by exact scan_whole_length _h

theorem framesIn_whole {f : Bytes} (h : scan limit got=.whole f rest) :
    framesIn limit got=f::framesIn limit rest := by
  rw [framesIn]
  split <;> simp_all

theorem framesIn_stuck (h : ∀ f rest,scan limit got≠.whole f rest) : framesIn limit got=[] := by
  rw [framesIn]
  split
  next f rest hw => exact absurd hw (h f rest)
  · rfl
  · rfl

theorem framesIn_flatten {fs : List Bytes} {part : Bytes} (h32 : limit<2^32)
    (hfs : ∀ f∈fs,∃ payload,payload.length≤limit ∧ f=frame payload)
    (hpart : part=[] ∨ ∃ payload left,payload.length≤limit ∧ part++left=frame payload ∧ left≠[]) :
    framesIn limit (fs.flatten++part)=fs := by
  induction fs with
  | nil =>
    apply framesIn_stuck
    intro f rest hw
    rcases hpart with rfl | ⟨payload,left,hl,hg,hr⟩
    · simp [scan] at hw
    · simp [scan_part hl h32 hg hr] at hw
  | cons f fs ih =>
    obtain ⟨p,hp,rfl⟩ := hfs f mem_cons_self
    have hscan : scan limit (frame p++(fs.flatten++part))=.whole (frame p) (fs.flatten++part) :=
      scan_frame hp h32
    rw [flatten_cons,append_assoc,framesIn_whole hscan,ih fun g hg => hfs g (mem_cons_of_mem _ hg)]

theorem framesIn_append {fs : List Bytes} (h : ∀ f∈fs,∀ more,scan limit (f++more)=.whole f more)
    (rest : Bytes) : framesIn limit (fs.flatten++rest)=fs++framesIn limit rest := by
  induction fs with
  | nil => rfl
  | cons f fs ih =>
    rw [flatten_cons,append_assoc,framesIn_whole (h f mem_cons_self _),
      ih fun g hg => h g (mem_cons_of_mem _ hg),cons_append]

end Framing.LengthPrefix
