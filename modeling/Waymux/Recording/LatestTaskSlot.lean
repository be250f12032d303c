import Waymux.Interleave.Runs

/-!
# The slot in front of a recording thread (`recording.rs`)

Calls of `put`, `take_blocking` and `wake`, one at a time for each caller. Counters do not overflow.
-/

namespace Waymux.Recording.LatestTaskSlot
open Interleave.Runs Function List

variable {α : Type}

/-- The rest of a call that holds the lock; the wait of `take_blocking` is not repeated. -/
inductive Inside (α : Type)
  | put (task : α)
  | counted (task : α)
  | stored
  | taking (waited : Bool)
  | leaving (result : Option α)

inductive Caller (α : Type)
  | idle
  | putting (task : α)
  | wanting (waited : Bool)
  | waiting
  | inside

/-- `order` has the tasks as they were put, `evicted` each dropped one with the one that took its place. -/
structure State (α : Type) where
  slot : Option α
  lock : Option (Nat × Inside α)
  callers : Nat → Caller α
  produced : Nat
  dropped : Nat
  completed : Nat
  order : List α
  taken : List α
  evicted : List (α × α)

def start : State α := ⟨none,none,fun _ => .idle,0,0,0,[],[],[]⟩

/-- A wait ends at any time: by a notification, after its timeout or for no reason. -/
inductive Act (α : Type)
  | put (c : Nat) (task : α)
  | take (c : Nat)
  | wake
  | lock (c : Nat)
  | wakeUp (c : Nat)
  | go

def State.at (s : State α) (c : Nat) (p : Caller α) : State α := {s with callers := update s.callers c p}

def State.unlock (s : State α) (c : Nat) (p : Caller α) : State α := {s.at c p with lock := none}

def proceed (s : State α) (c : Nat) : Inside α → State α
  | .put task => {s with dropped := s.dropped+s.slot.toList.length, lock := some (c,.counted task)}
  | .counted task => {s with
      slot := some task
      order := s.order++[task]
      evicted := s.evicted++s.slot.toList.map (·,task)
      lock := some (c,.stored)}
  | .stored => {s.unlock c .idle with completed := s.completed+1}
  | .taking waited => match s.slot with
    | some task => {s with slot := none, taken := s.taken++[task], lock := some (c,.leaving (some task))}
    | none => if waited then {s with lock := some (c,.leaving none)} else s.unlock c .waiting
  | .leaving _ => s.unlock c .idle

def step (s : State α) : Act α → Option (State α)
  | .put c task => match s.callers c with
    | .idle => some {s.at c (.putting task) with produced := s.produced+1}
    | _ => none
  | .take c => match s.callers c with
    | .idle => some (s.at c (.wanting false))
    | _ => none
  | .wake => some s
  | .lock c => match s.lock, s.callers c with
    | none, .putting task => some {s.at c .inside with lock := some (c,.put task)}
    | none, .wanting waited => some {s.at c .inside with lock := some (c,.taking waited)}
    | _, _ => none
  | .wakeUp c => match s.callers c with
    | .waiting => some (s.at c (.wanting true))
    | _ => none
  | .go => s.lock.map fun (c,p) => proceed s c p

/-- Counted as dropped and still in the slot; stored by a `put` that has not returned. -/
def surplus : Option (Nat × Inside α) → Option α → Nat
  | some (_,.counted _), slot => slot.toList.length
  | _, _ => 0

def unfinished : Option (Nat × Inside α) → Nat
  | some (_,.stored) => 1
  | _ => 0

structure Inv (s : State α) : Prop where
  sublist : s.taken++s.slot.toList <+ s.order
  latest : (s.taken++s.slot.toList).getLast?=s.order.getLast?
  replaced : ∀ e∈s.evicted,[e.1,e.2] <+ s.order
  total : s.order.length=s.evicted.length+(s.taken++s.slot.toList).length
  dropped : s.dropped=s.evicted.length+surplus s.lock s.slot
  finished : s.completed+unfinished s.lock=s.order.length

variable {s t : State α} {c : Nat}

/-- A step that moves callers and the lock between points where nothing is under way. -/
theorem Inv.moved (h : Inv s) {lock : Option (Nat × Inside α)} {callers : Nat → Caller α} {produced : Nat}
    (hs : surplus lock s.slot=surplus s.lock s.slot) (hu : unfinished lock=unfinished s.lock) :
    Inv {s with lock := lock, callers := callers, produced := produced} :=
  ⟨h.1,h.2,h.3,h.4,hs ▸ h.5,hu ▸ h.6⟩

theorem Inv.counted (h : Inv s) {task : α} (hl : s.lock=some (c,.counted task)) : Inv (proceed s c (.counted task)) where
  sublist := ((sublist_append_left _ _).trans h.sublist).append (Sublist.refl [task])
  latest := by
    show (s.taken++[task]).getLast?=(s.order++[task]).getLast?
    rw [getLast?_concat,getLast?_concat]
  replaced := by
    intro e he
    rcases mem_append.mp he with he | he
    · exact (h.replaced e he).trans (sublist_append_left _ _)
    · obtain ⟨old,hold,rfl⟩ := mem_map.mp he
      have hin:=(sublist_append_right s.taken s.slot.toList).trans h.sublist
      exact ((singleton_sublist.mpr hold).trans hin).append (Sublist.refl [task])
  total := by
    have := h.total
    simp only [proceed,length_append,length_map,length_singleton,Option.toList_some] at this ⊢
    omega
  dropped := by simpa [proceed,hl,surplus] using h.dropped
  finished := by simpa [proceed,hl,unfinished] using h.finished

theorem Inv.proceed (h : Inv s) {p : Inside α} (hl : s.lock=some (c,p)) : Inv (proceed s c p) := by
  have hd:=h.dropped
  have hf:=h.finished
  rw [hl] at hd hf
  cases p with
  | put task => exact ⟨h.1,h.2,h.3,h.4,congrArg (·+s.slot.toList.length) hd,hf⟩
  | counted task => exact h.counted hl
  | stored => exact ⟨h.1,h.2,h.3,h.4,hd,hf⟩
  | taking waited =>
    simp only [LatestTaskSlot.proceed]
    split
    next task hs =>
      have hsame : s.taken++[task]++(none : Option α).toList=s.taken++s.slot.toList := by
        rw [hs]
        exact append_nil _
      exact ⟨hsame ▸ h.sublist,hsame ▸ h.latest,h.replaced,hsame ▸ h.total,hd,hf⟩
    · split <;> exact h.moved (by rw [hl]; rfl) (by rw [hl]; rfl)
  | leaving r => exact h.moved (by rw [hl]; rfl) (by rw [hl]; rfl)

theorem inv_step {a : Act α} (h : Inv s) (ht : step s a=some t) : Inv t := by
  cases a with
  | wake =>
    cases ht
    exact h
  | lock c =>
    simp only [step] at ht
    split at ht <;> cases ht
    all_goals exact h.moved (by rw [‹s.lock=none›]; rfl) (by rw [‹s.lock=none›]; rfl)
  | go =>
    obtain ⟨⟨c,p⟩,hl,rfl⟩ := Option.map_eq_some_iff.mp ht
    exact h.proceed hl
  | _ =>
    simp only [step] at ht
    split at ht <;> cases ht
    exact h.moved rfl rfl

end Waymux.Recording.LatestTaskSlot
