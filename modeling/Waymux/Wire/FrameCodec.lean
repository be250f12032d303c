import Waymux.Framing.LengthPrefix

/-!
# Frames of the RPC protocol (`codec.rs`)

Nothing is assumed about what `rmp_serde` writes and reads.
-/

namespace Waymux.Wire.FrameCodec
open Framing.LengthPrefix

/-- `rmp_serde` at one type: `write_named` and `from_slice`. -/
structure Msgpack (α : Type) where
  write : α → Option Bytes
  read : Bytes → Option α

/- 20 MiB -/
def maxFrameSize : Nat := 20*2^20

inductive EncodeError
  | msgpack
  | tooLarge (actual : Nat)
  deriving DecidableEq, Repr

inductive DecodeError
  | msgpack
  | tooLarge (len : Nat)
  | truncated (need got : Nat)
  deriving DecidableEq, Repr

variable {α : Type}

/- Appends to `out`; on an error `out` is cut back to where the frame began. -/
def encodeFrame (mp : Msgpack α) (value : α) (out : Bytes) : Except EncodeError Unit × Bytes :=
  match mp.write value with
  | none => (.error .msgpack,out)
  | some payload =>
      if maxFrameSize<payload.length then (.error (.tooLarge payload.length),out)
      else (.ok (),out++be32 payload.length++payload)

def decodeFrame (mp : Msgpack α) : Bytes → Except DecodeError α
  | a::b::c::d::rest =>
      let len:=ofBe32 a b c d
      if maxFrameSize<len then .error (.tooLarge len)
      else if rest.length≠len then .error (.truncated (4+len) (4+rest.length))
      else match mp.read rest with
        | none => .error .msgpack
        | some v => .ok v
  | bytes => .error (.truncated 4 bytes.length)

def framed (mp : Msgpack α) (value : α) : Option Bytes :=
  match encodeFrame mp value [] with
  | (.ok _,buf) => some buf
  | (.error _,_) => none

variable {mp : Msgpack α} {v : α} {f : Bytes}

theorem framed_eq (h : framed mp v=some f) : ∃ payload,payload.length ≤ maxFrameSize ∧ f=frame payload := by
  unfold framed encodeFrame at h
  cases hw : mp.write v with
  | none => simp [hw] at h
  | some payload =>
    by_cases hp : maxFrameSize<payload.length
    · simp [hw,hp] at h
    · refine ⟨payload,by omega,?_⟩
      simpa [hw,hp,frame] using h.symm

theorem maxFrameSize_lt : maxFrameSize<2^32 := by decide

theorem framed_ne_nil (h : framed mp v=some f) : f≠[] := by
  obtain ⟨payload,_,rfl⟩ := framed_eq h
  exact frame_ne_nil

theorem scan_framed (h : framed mp v=some f) (rest : Bytes) : scan maxFrameSize (f++rest)=.whole f rest := by
  obtain ⟨payload,hl,rfl⟩ := framed_eq h
  exact scan_frame hl maxFrameSize_lt

theorem scan_framed_part {got rest : Bytes} (h : framed mp v=some f) (hg : got++rest=f) (hr : rest≠[]) :
    scan maxFrameSize got=.short := by
  obtain ⟨payload,hl,rfl⟩ := framed_eq h
  exact scan_part hl maxFrameSize_lt hg hr

def Carried (mp : Msgpack α) (sent arrived : α) : Prop :=
  ∃ f,framed mp sent=some f ∧ decodeFrame mp f=.ok arrived

end Waymux.Wire.FrameCodec
