import Mathlib.Data.List.Basic

/-!
# Broadcast channels that drop for slow receivers

Everything ever sent is a log; a receiver is a position in it. The channel keeps the last `cap`
messages.
-/

namespace Interleave.Channels

variable {α : Type}

inductive Recv (α : Type)
  | empty
  | item (a : α)
  | lagged (missed : Nat)

def recv (cap : Nat) (log : List α) (pos : Nat) : Recv α :=
  if cap<log.length-pos then .lagged (log.length-pos-cap)
  else match log[pos]? with
    | some a => .item a
    | none => .empty

variable {cap pos : Nat} {log : List α} {a : α}

theorem recv_item (h : recv cap log pos=.item a) : log[pos]?=some a := by
  unfold recv at h
  split at h
  · cases h
  · split at h
    · simp_all
    · cases h

theorem recv_lagged {missed : Nat} (h : recv cap log pos=.lagged missed) : cap<log.length-pos := by
  unfold recv at h
  split at h
  · assumption
  · split at h <;> cases h

end Interleave.Channels
