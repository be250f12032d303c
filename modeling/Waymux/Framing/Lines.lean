import Mathlib.Data.List.Basic

/-!
# Lines of a stream

What stands after the last separator is a line when it is not empty.
-/

namespace Framing.Lines

variable {α : Type} {sep : α} {ls : List (List α)} {rest : List α}

def joined (sep : α) (ls : List (List α)) : List α := ls.flatMap fun l => l++[sep]

theorem joined_concat (l : List α) : joined sep (ls++[l])=joined sep ls++(l++[sep]) := by
  simp [joined]

variable [DecidableEq α]

def completeLines (sep : α) (xs : List α) : List (List α) := (xs.splitOn sep).dropLast

def lines (sep : α) (xs : List α) : List (List α) :=
  match (xs.splitOn sep).getLast? with
  | some (x::tail) => completeLines sep xs++[x::tail]
  | _ => completeLines sep xs

theorem splitOn_joined (hls : ∀ l∈ls,sep∉l) (hrest : sep∉rest) :
    (joined sep ls++rest).splitOn sep=ls++[rest] := by
  induction ls with
  | nil => exact List.splitOn_eq_singleton hrest
  | cons l ls ih =>
    have ih:=ih fun k hk => hls k (List.mem_cons_of_mem _ hk)
    have hcut : joined sep (l::ls)++rest=l++sep::(joined sep ls++rest) := by simp [joined]
    rw [hcut,List.splitOn_append_cons_self_of_not_mem (hls l List.mem_cons_self),ih]
    rfl

theorem completeLines_joined (hls : ∀ l∈ls,sep∉l) (hrest : sep∉rest) :
    completeLines sep (joined sep ls++rest)=ls := by
  rw [completeLines,splitOn_joined hls hrest,List.dropLast_concat]

theorem lines_joined (hls : ∀ l∈ls,sep∉l) (hrest : sep∉rest) :
    lines sep (joined sep ls++rest)=ls++(if rest=[] then [] else [rest]) := by
  rw [lines,completeLines_joined hls hrest,splitOn_joined hls hrest,List.getLast?_concat]
  cases rest <;> simp

end Framing.Lines
