import Waymux.Session.Windows

/-!
# Locked pointers and shortcut inhibitors of the inner clients

The two values that the outer view reads (`state.rs`), against the objects that are alive.
-/

namespace Waymux.Session.LiveObjects
open Windows Interleave.Runs List Option

def usize : Nat := 0x10000000000000000

theorem usize_pos : 0<usize := by
  decide

structure State where
  pointerLockCount : Nat
  anyShortcutsInhibited : Bool
  lockedPointers : List Resource
  inhibitors : List Resource
deriving DecidableEq

def start : State := ⟨0,false,[],[]⟩

/-- `fetch_add` wraps, -/
def wrappingSucc (n : Nat) : Nat := if n+1=usize then 0 else n+1

/-- and so does `fetch_sub`. -/
def wrappingPred (n : Nat) : Nat := if n=0 then usize-1 else n-1

def State.incPointerLockCount (s : State) : State :=
  {s with pointerLockCount := wrappingSucc s.pointerLockCount}

def State.decPointerLockCount (s : State) : State :=
  {s with pointerLockCount := wrappingPred s.pointerLockCount}

def State.setShortcutsInhibited (s : State) (val : Bool) : State := {s with anyShortcutsInhibited := val}

inductive Act
  | lockPointer (id : Resource)
  | destroyLockedPointer (id : Resource)
  | inhibitShortcuts (id : Resource)
  | destroyInhibitor (id : Resource)
  | disconnect (client : Nat)
deriving DecidableEq

def State.isNew (s : State) (id : Resource) : Bool := id∉s.lockedPointers && id∉s.inhibitors

def lockPointer (s : State) (id : Resource) : State :=
  State.incPointerLockCount {s with lockedPointers := id::s.lockedPointers}

/-- The request is where the count goes down: there is no `destroyed` for this
interface. -/
def destroyLockedPointer (s : State) (id : Resource) : State :=
  State.decPointerLockCount {s with lockedPointers := s.lockedPointers.erase id}

def inhibitShortcuts (s : State) (id : Resource) : State :=
  State.setShortcutsInhibited {s with inhibitors := id::s.inhibitors} true

/-- `destroyed` runs for the request and for a client that goes away. -/
def destroyInhibitor (s : State) (id : Resource) : State :=
  State.setShortcutsInhibited {s with inhibitors := s.inhibitors.filter (·≠id)} false

def disconnect (s : State) (client : Nat) : State :=
  let s':=(s.inhibitors.filter (·.client=client)).foldl destroyInhibitor s
  {s' with lockedPointers := s'.lockedPointers.filter (·.client≠client)}

def step (s : State) : Act → Option State
  | .lockPointer id => if s.isNew id then some (lockPointer s id) else none
  | .destroyLockedPointer id => if id∈s.lockedPointers then some (destroyLockedPointer s id) else none
  | .inhibitShortcuts id => if s.isNew id then some (inhibitShortcuts s id) else none
  | .destroyInhibitor id => if id∈s.inhibitors then some (destroyInhibitor s id) else none
  | .disconnect client => some (disconnect s client)

structure Accurate (s : State) : Prop where
  count : s.pointerLockCount=s.lockedPointers.length
  flag : s.anyShortcutsInhibited=true ↔ s.inhibitors≠[]

/-- A client goes away without locked pointers; an inhibitor that is destroyed is
the last one; and the count does not wrap. -/
def Tracked (s : State) : Act → Prop
  | .lockPointer _ => s.lockedPointers.length+1<usize
  | .destroyLockedPointer _ | .inhibitShortcuts _ => True
  | .destroyInhibitor id => ∀ i∈s.inhibitors,i=id
  | .disconnect client => (∀ l∈s.lockedPointers,l.client≠client) ∧
      ((∃ i∈s.inhibitors,i.client=client) → ∀ i∈s.inhibitors,i.client=client)

instance (s : State) : (a : Act) → Decidable (Tracked s a)
  | .lockPointer _ => inferInstanceAs (Decidable (_<_))
  | .destroyLockedPointer _ | .inhibitShortcuts _ => inferInstanceAs (Decidable True)
  | .destroyInhibitor id => inferInstanceAs (Decidable (∀ i∈s.inhibitors,i=id))
  | .disconnect client => inferInstanceAs (Decidable ((∀ l∈s.lockedPointers,l.client≠client) ∧
      ((∃ i∈s.inhibitors,i.client=client) → ∀ i∈s.inhibitors,i.client=client)))

variable {s t : State} {a : Act} {id : Resource} {client : Nat}

theorem foldl_destroyInhibitor (ids : List Resource) (s : State) :
    ids.foldl destroyInhibitor s =
      {s with
        inhibitors := s.inhibitors.filter (·∉ids)
        anyShortcutsInhibited := s.anyShortcutsInhibited && ids.isEmpty} := by
  induction ids generalizing s with
  | nil => simp
  | cons i is ih =>
    rw [foldl_cons,ih]
    simp [destroyInhibitor,State.setShortcutsInhibited,Bool.and_comm]

theorem disconnect_eq (s : State) (client : Nat) :
    disconnect s client =
      {s with
        inhibitors := s.inhibitors.filter (·.client≠client)
        anyShortcutsInhibited := s.anyShortcutsInhibited && (s.inhibitors.filter (·.client=client)).isEmpty
        lockedPointers := s.lockedPointers.filter (·.client≠client)} := by
  have hrest : s.inhibitors.filter (·∉s.inhibitors.filter (·.client=client)) =
      s.inhibitors.filter (·.client≠client) := by
    refine filter_congr fun i hi => ?_
    simp [hi]
  simp only [disconnect,foldl_destroyInhibitor,hrest]

theorem wrappingSucc_lt {n : Nat} (h : n<usize) : wrappingSucc n<usize := by
  unfold wrappingSucc
  split
  · exact usize_pos
  · omega

theorem wrappingPred_lt {n : Nat} (h : n<usize) : wrappingPred n<usize := by
  unfold wrappingPred
  split <;> omega

def Bounded (s : State) : Prop := s.pointerLockCount<usize

theorem bounded_step (h : Bounded s) (ht : step s a=some t) : Bounded t := by
  cases a with
  | lockPointer =>
    obtain ⟨-,ht⟩ := ite_none_right_eq_some.mp ht
    obtain rfl := some.inj ht
    exact wrappingSucc_lt h
  | destroyLockedPointer =>
    obtain ⟨-,ht⟩ := ite_none_right_eq_some.mp ht
    obtain rfl := some.inj ht
    exact wrappingPred_lt h
  | disconnect =>
    obtain rfl := some.inj ht
    rw [disconnect_eq]
    exact h
  | _ =>
    obtain ⟨-,ht⟩ := ite_none_right_eq_some.mp ht
    obtain rfl := some.inj ht
    exact h

theorem lockPointer_accurate (h : Accurate s) (hb : Bounded s) :
    Accurate (lockPointer s id) ↔ s.lockedPointers.length+1<usize := by
  have hcount : (lockPointer s id).pointerLockCount=wrappingSucc s.lockedPointers.length := by
    rw [← h.count]
    rfl
  have hle : s.lockedPointers.length+1≤usize := by
    rw [← h.count]
    exact hb
  refine ⟨fun ha => ?_,fun hlt => ⟨?_,h.flag⟩⟩
  · have hc : wrappingSucc s.lockedPointers.length=s.lockedPointers.length+1 := hcount.symm.trans ha.count
    unfold wrappingSucc at hc
    split at hc <;> omega
  · rw [hcount,wrappingSucc,if_neg (Nat.ne_of_lt hlt)]
    rfl

theorem destroyLockedPointer_accurate (h : Accurate s) (hid : id∈s.lockedPointers) :
    Accurate (destroyLockedPointer s id) := by
  have hpos : 0<s.lockedPointers.length := length_pos_of_mem hid
  refine ⟨?_,h.flag⟩
  show wrappingPred s.pointerLockCount=(s.lockedPointers.erase id).length
  rw [h.count,length_erase_of_mem hid,wrappingPred,if_neg (Nat.ne_of_gt hpos)]

theorem destroyInhibitor_accurate (h : Accurate s) :
    Accurate (destroyInhibitor s id) ↔ ∀ i∈s.inhibitors,i=id := by
  have hnil : (destroyInhibitor s id).inhibitors=[] ↔ ∀ i∈s.inhibitors,i=id := by
    show s.inhibitors.filter (·≠id)=[] ↔ _
    simp
  refine ⟨fun ha => ?_,fun hall => ⟨h.count,?_⟩⟩
  · by_contra hne
    have hflag : (destroyInhibitor s id).anyShortcutsInhibited=true := ha.flag.mpr (hne ∘ hnil.mp)
    cases hflag
  · exact ⟨nofun,fun hne => absurd (hnil.mpr hall) hne⟩

theorem disconnect_accurate (h : Accurate s) : Accurate (disconnect s client) ↔ Tracked s (.disconnect client) := by
  have hlocks : s.pointerLockCount=(s.lockedPointers.filter (·.client≠client)).length ↔
      ∀ l∈s.lockedPointers,l.client≠client := by
    rw [h.count,eq_comm,length_filter_eq_length_iff]
    simp
  have hflag : ((s.anyShortcutsInhibited && (s.inhibitors.filter (·.client=client)).isEmpty)=true ↔
      s.inhibitors.filter (·.client≠client)≠[]) ↔
      ((∃ i∈s.inhibitors,i.client=client) → ∀ i∈s.inhibitors,i.client=client) := by
    rw [Bool.and_eq_true_iff,h.flag]
    by_cases hown : ∃ i∈s.inhibitors,i.client=client
    · have hne : ¬(s.inhibitors.filter (·.client=client)).isEmpty=true := by simpa using hown
      simp [hne,hown]
    · have hother : s.inhibitors.filter (·.client≠client)=s.inhibitors := by
        rw [filter_eq_self]
        intro i hi
        simpa using fun he => hown ⟨i,hi,he⟩
      have hemp : (s.inhibitors.filter (·.client=client)).isEmpty=true := by
        simpa using fun i hi he => hown ⟨i,hi,he⟩
      rw [hother,hemp]
      simp [hown]
  rw [disconnect_eq]
  exact ⟨fun ha => ⟨hlocks.mp ha.count,hflag.mp ha.flag⟩,fun ht => ⟨hlocks.mpr ht.1,hflag.mpr ht.2⟩⟩

theorem accurate_step (h : Accurate s) (hb : Bounded s) (ht : step s a=some t) : Accurate t ↔ Tracked s a := by
  cases a with
  | lockPointer =>
    obtain ⟨-,ht⟩ := ite_none_right_eq_some.mp ht
    obtain rfl := some.inj ht
    exact lockPointer_accurate h hb
  | destroyLockedPointer =>
    obtain ⟨hid,ht⟩ := ite_none_right_eq_some.mp ht
    obtain rfl := some.inj ht
    exact iff_of_true (destroyLockedPointer_accurate h hid) trivial
  | inhibitShortcuts =>
    obtain ⟨-,ht⟩ := ite_none_right_eq_some.mp ht
    obtain rfl := some.inj ht
    exact iff_of_true ⟨h.count,iff_of_true rfl nofun⟩ trivial
  | destroyInhibitor =>
    obtain ⟨-,ht⟩ := ite_none_right_eq_some.mp ht
    obtain rfl := some.inj ht
    exact destroyInhibitor_accurate h
  | disconnect =>
    obtain rfl := some.inj ht
    exact disconnect_accurate h

/-- The count and the flag are right as long as every step is a good one, and any other makes one of them
wrong. -/
theorem live_counts (h : Reach step Tracked start s) :
    Accurate s ∧ ∀ a t,step s a=some t → (Accurate t ↔ Tracked s a) := by
  have hstart : Accurate start ∧ Bounded start := ⟨⟨rfl,by simp [start]⟩,usize_pos⟩
  have hinv : Accurate s ∧ Bounded s := by
    refine h.keeps (I := fun s => Accurate s ∧ Bounded s) hstart fun hi hok ht => ?_
    exact ⟨(accurate_step hi.1 hi.2 ht).mpr hok,bounded_step hi.2 ht⟩
  exact ⟨hinv.1,fun _ _ ht => accurate_step hinv.1 hinv.2 ht⟩

/-- One of two locks is destroyed, and an inhibitor comes and goes with its client. -/
theorem live_counts_two_clients : ∃ s,Reach step Tracked start s ∧
    s.lockedPointers=[⟨1,4⟩] ∧ Accurate s := by
  have hs : Reach step Tracked start _ :=
    reach_exec [.lockPointer ⟨1,3⟩,.inhibitShortcuts ⟨2,3⟩,.lockPointer ⟨1,4⟩,.destroyLockedPointer ⟨1,3⟩,
      .disconnect 2]
      (meets_decided (by decide +kernel)) (by decide +kernel)
  exact ⟨_,hs,by decide +kernel,(live_counts hs).1⟩

/-- A client that ends with its lock leaves the count at one; of two inhibitors the first that goes takes
the flag along. -/
theorem lock_count_leaks :
    (∃ s,Reach step Free start s ∧ s.lockedPointers=[] ∧ s.pointerLockCount=1) ∧
    ∃ s,Reach step Free start s ∧ s.inhibitors=[⟨2,3⟩] ∧ s.anyShortcutsInhibited=false := by
  constructor
  · exact free_observed [.lockPointer ⟨1,3⟩,.disconnect 1] (by decide +kernel)
  · exact free_observed [.inhibitShortcuts ⟨1,3⟩,.inhibitShortcuts ⟨2,3⟩,.destroyInhibitor ⟨1,3⟩] (by decide +kernel)

end Waymux.Session.LiveObjects
