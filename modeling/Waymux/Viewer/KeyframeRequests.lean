import Waymux.Interleave.Runs

/-!
# Keyframe requests (`encoder.rs`)

The four encoder loops share one flag with the control reader, and each clears it in its own place.
An encode that began after `begun` requests answers those with a smaller number.
-/

namespace Waymux.Viewer.KeyframeRequests
open Interleave.Runs List

inductive Backend
  | ffmpeg
  | vulkan
  | cuda
  | vaapi
  deriving DecidableEq, Repr

structure Packet where
  keyframe : Bool
  begun : Nat
  deriving DecidableEq, Repr

/-- Where the encode loop stands. `idr` is what the tick asks of the encoder. -/
inductive Pc
  | starting
  | encodingFirst (begun : Nat)
  | writingFirst (packets : List Packet)
  | clearing (written : Bool)
  | ticking
  | chosen (idr : Bool)
  | encoding (idr : Bool) (begun : Nat)
  | missed (idr : Bool)
  | writing (idr : Bool) (packets : List Packet)
  | sent (idr : Bool)
  | feeding
  | stopped
  deriving DecidableEq, Repr

/-- `stored` of the `received` requests have set the flag; those below `served` have seen a keyframe begun
after them. `held` is what the encoder has not given out, `fed` what waits in ffmpeg's input. `lost`: the
flag was cleared under a request not yet served. -/
structure State where
  pc : Pc
  flag : Bool
  received : Nat
  stored : Nat
  served : Nat
  held : List Packet
  fed : Nat
  lost : Bool
  deriving DecidableEq, Repr

def start : State := ⟨.starting,false,0,0,0,[],0,false⟩

inductive Act
  /-- The control reader: `read_frame` returns, the flag is stored. -/
  | receive
  | store
  /-- The encode loop. -/
  | tick (boundary : Bool)
  | begin
  | skip
  | done (fails gop : Bool) (emit : Nat)
  | write (ok : Bool)
  | clear
  | feed (ok : Bool)
  | stop
  /-- The ffmpeg process and the thread that parses its output. -/
  | code (keyframe : Bool)
  | ship (ok : Bool)
  deriving DecidableEq, Repr

namespace State

def clear (s : State) : State := {s with flag := false, lost := s.lost || (s.flag && s.served<s.stored)}

def goto (s : State) (pc : Pc) : State := {s with pc := pc}

end State

/- Requests answered once these packets are on the socket. -/
def answered : List Packet → Nat
  | [] => 0
  | p::ps => max (if p.keyframe then p.begun else 0) (answered ps)

def State.serve (s : State) (packets : List Packet) : State :=
  {s with served := max s.served (answered packets)}

/- VA-API returns what `avcodec_receive_packet` has ready, the others their own picture. -/
def output (b : Backend) (s : State) (own : Packet) (fails : Bool) (emit : Nat) : List Packet × List Packet :=
  if fails then ([],s.held)
  else if b=.vaapi then ((s.held++[own]).take emit,(s.held++[own]).drop emit)
  else ([own],s.held)

/- A Vulkan picture is a keyframe exactly if asked for; the others also start
a GOP of their own. -/
def ownPacket (b : Backend) (idr gop : Bool) (begun : Nat) : Packet :=
  ⟨if b=.vulkan then idr else idr || gop,begun⟩

/- `Some(nal)` goes on to be written, `None` does not. -/
def State.encoded (s : State) (out : List Packet × List Packet) (nothing : Pc) (packets : List Packet → Pc) : State :=
  {s with held := out.2}.goto (if out.1=[] then nothing else packets out.1)

/- The top of a tick: a swap that only logs, a swap in front of the encode, or
a load. -/
def State.tick (s : State) (boundary : Bool) : Backend → State
  | .ffmpeg => s.clear.goto .feeding
  | .vulkan => s.clear.goto (.chosen (s.flag || boundary))
  | .cuda => s.goto (.chosen s.flag)
  | .vaapi => s.goto (.chosen s.flag)

def step (b : Backend) (s : State) : Act → Option State
  | .receive => if s.stored=s.received then some {s with received := s.received+1} else none
  | .store =>
      if s.stored<s.received then some {s with stored := s.stored+1, flag := true} else none
  | .tick boundary => if s.pc=.ticking then some (s.tick boundary b) else none
  | .begin =>
      match s.pc with
      | .starting => if b=.ffmpeg then none else some (s.goto (.encodingFirst s.received))
      | .chosen idr => some (s.goto (.encoding idr s.received))
      -- the readback after a dmabuf that gave nothing
      | .missed idr => if b=.vaapi then some (s.goto (.encoding idr s.received)) else none
      | _ => none
  | .skip =>
      match s.pc with
      -- the first buffer's fence is not signalled
      | .starting => if b=.vulkan ∨ b=.cuda then some (s.goto (.clearing false)) else none
      | .chosen _ => some (s.goto .ticking)
      | .missed _ => some (s.goto .ticking)
      | _ => none
  | .done fails gop emit =>
      match s.pc with
      | .encodingFirst begun =>
          some (s.encoded (output b s (ownPacket b true gop begun) fails emit) (.clearing false) .writingFirst)
      | .encoding idr begun =>
          some (s.encoded (output b s (ownPacket b idr gop begun) fails emit) (.missed idr) (.writing idr))
      | _ => none
  | .write ok =>
      match s.pc with
      | .writingFirst packets => some (if ok then (s.serve packets).goto (.clearing true) else s.goto .stopped)
      | .writing idr packets =>
          some (if ok then (s.serve packets).goto (if b=.vulkan then .ticking else .sent idr) else s.goto .stopped)
      | _ => none
  | .clear =>
      match s.pc with
      | .clearing _ => some (s.clear.goto .ticking)
      | .sent idr => some ((if idr then s.clear else s).goto .ticking)
      | _ => none
  | .feed ok =>
      if b=.ffmpeg ∧ (s.pc=.starting ∨ s.pc=.feeding) then
        some (if ok then {s with fed := s.fed+1}.goto .ticking else s.goto .stopped)
      else none
  | .stop => if s.pc=.ticking then some (s.goto .stopped) else none
  | .code keyframe =>
      if b=.ffmpeg ∧ 0<s.fed then
        some {s with fed := s.fed-1, held := s.held++[⟨keyframe,s.received⟩]}
      else none
  | .ship ok =>
      match s.held with
      | p::ps =>
          if b=.ffmpeg then some (if ok then {s with held := ps}.serve [p] else s.goto .stopped) else none
      | [] => none

def Pc.answering : Pc → Bool
  | .encodingFirst _ => true
  | .writingFirst _ => true
  | .clearing written => written
  | .encoding idr _ => idr
  | .writing idr _ => idr
  | .sent idr => idr
  | _ => false

/-- No request arrives while a keyframe is made after which the flag is cleared; the flag is not set when a
loop clears it without one; an encoder that gives out anything gives out the picture it was asked for. -/
def Careful (b : Backend) (s : State) : Act → Prop
  | .receive => s.pc.answering=false
  | .tick _ => b=.ffmpeg ∨ b=.vulkan → s.flag=false
  | .clear => s.pc=.clearing false → s.flag=false
  | .done fails _ emit => fails=true ∨ emit=0 ∨ s.held.length<emit
  | _ => True

instance (b : Backend) (s : State) : (a : Act) → Decidable (Careful b s a)
  | .receive => inferInstanceAs (Decidable (_=_))
  | .tick _ | .clear => inferInstanceAs (Decidable (_ → _))
  | .done _ _ _ => inferInstanceAs (Decidable (_ ∨ _))
  | .store | .begin | .skip | .write _ | .feed _ | .stop | .code _ | .ship _ => inferInstanceAs (Decidable True)

def Pc.covers (served : Nat) : Pc → Nat
  | .encodingFirst begun => begun
  | .writingFirst packets => answered packets
  | .clearing _ => served
  | .encoding _ begun => begun
  | .writing _ packets => answered packets
  | .sent _ => served
  | _ => 0

structure Inv (s : State) : Prop where
  stored_le : s.stored ≤ s.received
  covered : s.pc.answering=true → s.received ≤ s.pc.covers s.served
  kept : s.lost=false

variable {b : Backend} {s t : State} {a : Act}

theorem clear_lost (h : s.lost=false) (hc : s.flag=false ∨ s.stored ≤ s.served) : s.clear.lost=false := by
  rw [State.clear,h,Bool.false_or]
  rcases hc with hflag | hserved
  · simp [hflag]
  · have hlt : ¬s.served<s.stored := by omega
    simp [hlt]

theorem inv_goto {pc : Pc} (h : Inv s) (hpc : pc.answering=false) : Inv (s.goto pc) where
  stored_le := h.stored_le
  covered hw := by
    rw [State.goto,hpc] at hw
    cases hw
  kept := h.kept

theorem inv_clear {pc : Pc} (h : Inv s) (hc : s.flag=false ∨ s.stored ≤ s.served) (hpc : pc.answering=false) :
    Inv (s.clear.goto pc) where
  stored_le := h.stored_le
  covered hw := by
    rw [State.goto,hpc] at hw
    cases hw
  kept := clear_lost h.kept hc

theorem served_of_covered (h : Inv s) (hw : s.pc.answering=true) (hc : s.pc.covers s.served=s.served) :
    s.stored ≤ s.served := by
  have hcovered:=h.covered hw
  have hle:=h.stored_le
  omega

theorem inv_begin {pc : Pc} (h : Inv s) (hpc : pc.covers s.served=s.received) : Inv (s.goto pc) where
  stored_le := h.stored_le
  covered _ := Nat.le_of_eq hpc.symm
  kept := h.kept

theorem le_answered {p : Packet} {packets : List Packet} (hm : p∈packets) (hk : p.keyframe=true) :
    p.begun≤answered packets := by
  induction packets with
  | nil => exact absurd hm not_mem_nil
  | cons q qs ih =>
    rw [answered]
    rcases mem_cons.mp hm with rfl | hm
    · rw [hk,if_pos rfl]
      exact Nat.le_max_left _ _
    · exact Nat.le_trans (ih hm) (Nat.le_max_right _ _)

theorem own_mem_output {own : Packet} {fails : Bool} {emit : Nat} (hne : (output b s own fails emit).1≠[])
    (hok : fails=true ∨ emit=0 ∨ s.held.length<emit) : own∈(output b s own fails emit).1 := by
  unfold output at hne ⊢
  split
  next hf =>
    rw [if_pos hf] at hne
    exact absurd rfl hne
  next hf =>
    rw [if_neg hf] at hne
    split
    next hb =>
      rw [if_pos hb] at hne
      rcases hok with h | h0 | hlong
      · exact absurd h hf
      · rw [h0,take_zero] at hne
        exact absurd rfl hne
      · have hall : (s.held++[own]).take emit=s.held++[own] := by
          apply take_of_length_le
          rw [length_append,length_singleton]
          omega
        rw [hall]
        exact mem_append_right _ (mem_singleton_self own)
    · exact mem_singleton_self own

theorem ownPacket_keyframe (b : Backend) (gop : Bool) (begun : Nat) : (ownPacket b true gop begun).keyframe=true := by
  rw [ownPacket]
  split <;> rfl

theorem answered_output {begun emit : Nat} {fails gop : Bool}
    (hne : (output b s (ownPacket b true gop begun) fails emit).1≠[])
    (hok : fails=true ∨ emit=0 ∨ s.held.length<emit) :
    begun≤answered (output b s (ownPacket b true gop begun) fails emit).1 :=
  le_answered (own_mem_output hne hok) (ownPacket_keyframe b gop begun)

theorem inv_receive (h : Inv s) (hok : s.pc.answering=false) : Inv {s with received := s.received+1} where
  stored_le := Nat.le_succ_of_le h.stored_le
  covered hw := by
    rw [hok] at hw
    cases hw
  kept := h.kept

theorem inv_tick {boundary : Bool} (h : Inv s) (hok : Careful b s (.tick boundary)) : Inv (s.tick boundary b) := by
  cases b with
  | ffmpeg => exact inv_clear h (Or.inl (hok (Or.inl rfl))) rfl
  | vulkan => exact inv_clear h (Or.inl (hok (Or.inr rfl))) rfl
  | cuda | vaapi => exact inv_goto h rfl

theorem inv_encoded {out : List Packet × List Packet} {nothing : Pc} {packets : List Packet → Pc} (h : Inv s)
    (hn : nothing.answering=false)
    (hp : out.1≠[] → (packets out.1).answering=true → s.received≤(packets out.1).covers s.served) :
    Inv (s.encoded out nothing packets) := by
  refine ⟨h.stored_le,?_,h.kept⟩
  rw [State.encoded,State.goto]
  split
  · intro hw
    rw [hn] at hw
    cases hw
  next hne => exact hp hne

theorem inv_done {fails gop : Bool} {emit : Nat} (h : Inv s) (hok : Careful b s (.done fails gop emit))
    (ht : step b s (.done fails gop emit)=some t) : Inv t := by
  rw [step] at ht
  split at ht <;> cases ht
  next begun hpc =>
    have hcov:=h.covered (by rw [hpc]; rfl)
    rw [hpc] at hcov
    exact inv_encoded h rfl fun hne _ => Nat.le_trans hcov (answered_output hne hok)
  next idr begun hpc =>
    apply inv_encoded h rfl
    intro hne hidr
    have htrue : idr=true := hidr
    have hcov:=h.covered (by rw [hpc]; exact hidr)
    rw [hpc] at hcov
    subst htrue
    exact Nat.le_trans hcov (answered_output hne hok)

theorem inv_write {ok : Bool} (h : Inv s) (ht : step b s (.write ok)=some t) : Inv t := by
  rw [step] at ht
  split at ht <;> cases ht
  next packets hpc =>
    have hcov:=h.covered (by rw [hpc]; rfl)
    rw [hpc,Pc.covers] at hcov
    split
    · exact ⟨h.stored_le,fun _ => Nat.le_trans hcov (Nat.le_max_right _ _),h.kept⟩
    · exact inv_goto h rfl
  next idr packets hpc =>
    split
    · refine ⟨h.stored_le,?_,h.kept⟩
      intro hw
      split at hw
      · cases hw
      next hb =>
        have hidr : idr=true := hw
        have hcov:=h.covered (by rw [hpc]; exact hidr)
        rw [hpc,Pc.covers] at hcov
        rw [if_neg hb]
        exact Nat.le_trans hcov (Nat.le_max_right _ _)
    · exact inv_goto h rfl

theorem inv_clearStep (h : Inv s) (hok : Careful b s .clear) (ht : step b s .clear=some t) : Inv t := by
  rw [step] at ht
  split at ht <;> cases ht
  next written hpc =>
    cases written with
    | true => exact inv_clear h (Or.inr (served_of_covered h (by rw [hpc]; rfl) (by rw [hpc]; rfl))) rfl
    | false => exact inv_clear h (Or.inl (hok hpc)) rfl
  next idr hpc =>
    cases idr with
    | true => exact inv_clear h (Or.inr (served_of_covered h (by rw [hpc]; rfl) (by rw [hpc]; rfl))) rfl
    | false => exact inv_goto h rfl

theorem covers_mono (pc : Pc) {m n : Nat} (h : m≤n) : pc.covers m≤pc.covers n := by
  cases pc <;> first | exact h | exact Nat.le_refl _

theorem inv_subprocess (h : Inv s) (hr : t.received=s.received) (hs : t.stored=s.stored)
    (hserved : s.served≤t.served) (hlost : t.lost=s.lost) (hpc : t.pc=s.pc) : Inv t := by
  refine ⟨by rw [hr,hs]; exact h.stored_le,?_,by rw [hlost]; exact h.kept⟩
  intro hw
  rw [hpc] at hw ⊢
  rw [hr]
  exact Nat.le_trans (h.covered hw) (covers_mono s.pc hserved)

theorem inv_step (h : Inv s) (hok : Careful b s a) (ht : step b s a=some t) : Inv t := by
  cases a with
  | receive =>
    rw [step] at ht
    split at ht <;> cases ht
    exact inv_receive h hok
  | store =>
    rw [step] at ht
    split at ht <;> cases ht
    next hlt => exact ⟨hlt,h.covered,h.kept⟩
  | tick =>
    rw [step] at ht
    split at ht <;> cases ht
    exact inv_tick h hok
  | begin =>
    rw [step] at ht
    repeat' split at ht
    all_goals cases ht
    all_goals exact inv_begin h rfl
  | skip | stop =>
    rw [step] at ht
    repeat' split at ht
    all_goals cases ht
    all_goals exact inv_goto h rfl
  | done => exact inv_done h hok ht
  | write => exact inv_write h ht
  | clear => exact inv_clearStep h hok ht
  | feed =>
    rw [step] at ht
    split at ht <;> cases ht
    split
    · exact inv_goto (inv_subprocess h rfl rfl (Nat.le_refl _) rfl rfl) rfl
    · exact inv_goto h rfl
  | code =>
    rw [step] at ht
    split at ht <;> cases ht
    exact inv_subprocess h rfl rfl (Nat.le_refl _) rfl rfl
  | ship =>
    rw [step] at ht
    split at ht
    · split at ht <;> cases ht
      split
      · exact inv_subprocess h rfl rfl (Nat.le_max_left _ _) rfl rfl
      · exact inv_goto h rfl
    · cases ht

theorem inv_start : Inv start where
  stored_le := Nat.le_refl _
  covered hw := absurd hw (by decide)
  kept := rfl

/-- Along steps with this care the flag is never cleared under a request for
which no keyframe begun after it has been written. -/
theorem no_request_lost (b : Backend) (s : State) (h : Reach (step b) (Careful b) start s) : s.lost=false := by
  have hinv : Inv s := h.keeps inv_start inv_step
  exact hinv.kept

/-- A request between two ticks of the CUDA loop: served, and the flag cleared. -/
theorem no_request_lost_cuda_served : ∃ s,(Reach (step .cuda) (Careful .cuda) start s ∧
    s.received=1 ∧ s.served=1 ∧ s.flag=false) ∧ s.lost=false := by
  have hr : Reach (step .cuda) (Careful .cuda) start _ := reach_exec
    [.begin,.done false false 0,.write true,.clear,.receive,.store,.tick false,.begin,.done false false 1,
      .write true,.clear] (meets_decided (by decide +kernel)) (by decide +kernel)
  exact ⟨_,⟨hr,by decide +kernel⟩,no_request_lost .cuda _ hr⟩

/-- The next tick finds the flag clear, and no keyframe begun after the request was written. -/
def losing : Backend → List Act
  | .ffmpeg => [.feed true,.receive,.store,.tick false,.feed true]
  | .vulkan => [.begin,.done false false 0,.write true,.clear,.receive,.store,.tick false,.begin,
      .done true false 0,.skip]
  | .cuda => [.begin,.done false false 0,.write true,.clear,.receive,.store,.tick false,.begin,.receive,
      .store,.done false false 0,.write true,.clear]
  | .vaapi => [.begin,.done false false 1,.write true,.clear,.receive,.store,.tick false,.begin,.receive,
      .store,.done false false 1,.write true,.clear]

theorem losing_run (b : Backend) : ∃ s,Reach (step b) Free start s ∧
    (s.lost=true ∧ s.flag=false ∧ s.served<s.stored ∧ s.pc=.ticking) := by
  have hrun : (exec (step b) start (losing b)).map (fun s => decide
      (s.lost=true ∧ s.flag=false ∧ s.served<s.stored ∧ s.pc=.ticking))=some true := by
    cases b <;> decide +kernel
  exact free_observed (losing b) hrun

theorem requests_lost_everywhere :
    (∃ s,Reach (step .ffmpeg) Free start s ∧ s.lost=true ∧ s.flag=false ∧ s.served<s.stored ∧
      s.pc=.ticking) ∧
    (∃ s,Reach (step .vulkan) Free start s ∧ s.lost=true ∧ s.flag=false ∧ s.served<s.stored ∧
      s.pc=.ticking) ∧
    (∃ s,Reach (step .cuda) Free start s ∧ s.lost=true ∧ s.flag=false ∧ s.served<s.stored ∧
      s.pc=.ticking) ∧
    ∃ s,Reach (step .vaapi) Free start s ∧ s.lost=true ∧ s.flag=false ∧ s.served<s.stored ∧
      s.pc=.ticking :=
  ⟨losing_run .ffmpeg,losing_run .vulkan,losing_run .cuda,losing_run .vaapi⟩

end Waymux.Viewer.KeyframeRequests
