import Waymux.Session.PointerTarget

/-!
# Injected input (`control.rs`, `state.rs`)

`InjectBatch` beside the requests for one op each. A session is seen as it is when the op is handled; times are
left out.
-/

namespace Waymux.Session.Injection
open Windows PointerTarget List Option

variable {κ : Type}

inductive TouchPhase
  | down
  | motion
  | up
deriving DecidableEq

/-- `seq` only goes to the cursor overlay of the viewers. -/
inductive InjectOp (κ : Type)
  | key (keycode : Nat) (pressed : Bool) (modifiers : Nat)
  | pointer (injection : Injection κ) (seq : Nat)
  | touch (id : UInt32) (x y : κ) (phase : TouchPhase) (windowId : Option Nat) (content : Bool)

inductive Event (κ : Type)
  | modifiers (serial depressed latched locked group : Nat)
  | key (serial keycode : Nat) (pressed : Bool)
  | pointer (event : PointerEvent κ)
  | button (serial code : Nat) (pressed : Bool)
  | down (serial : Nat) (surface : Resource) (id : Int32) (x y : κ)
  | motion (id : Int32) (x y : κ)
  | up (serial : Nat) (id : Int32)
  | frame
deriving DecidableEq

structure Seats where
  windows : State
  rects : ContentRects
  /-- the live `wl_touch` objects of a client -/
  touches : Nat → List Resource

/-- What was sent to whom, and the next serial. -/
structure Sent (κ : Type) where
  events : List (Resource × Event κ)
  serial : Nat
deriving DecidableEq

def injectKey (S : Seats) (n keycode : Nat) (pressed : Bool) (modifiers : Nat) : Option (Sent κ) := do
  let w ← S.windows.focusedWindow
  let keyboards:=S.windows.devices.filter fun d => d.kind=.keyboard ∧ d.client=w.client
  if keyboards=[] then none
  else some ⟨keyboards.flatMap fun d =>
    [(d.resource,.modifiers n modifiers 0 0 0),(d.resource,.key (n+1) keycode pressed)],n+2⟩

def withSerial (serial : Nat) : PointerEvent κ → Event κ
  | .button code pressed => .button serial code pressed
  | e => .pointer e

def touchEvent (id : UInt32) (x y : κ) (surface : Resource) (serial : Nat) : TouchPhase → Event κ
  | .down => .down serial surface id.toInt32 x y
  | .motion => .motion id.toInt32 x y
  | .up => .up serial id.toInt32

section
variable [Add κ] [OfNat κ 0] [BEq κ] [IntCast κ]

def injectPointer (S : Seats) (n : Nat) (i : Injection κ) : Option (Sent κ) :=
  (PointerTarget.injectPointer S.windows S.rects i).map fun sent =>
    ⟨sent.zipIdx.flatMap fun p => p.1.2.map fun e => (p.1.1.resource,withSerial (n+p.2) e),
      if i.button=0 then n else n+sent.length⟩

def injectTouch (S : Seats) (n : Nat) (windowId : Option Nat) (content : Bool) (id : UInt32) (x y : κ)
    (phase : TouchPhase) : Option (Sent κ) := do
  let target ← target S.windows windowId
  let w ← S.windows.window target
  let (x,y) := position S.windows S.rects ⟨windowId,content,x,y,0,false,0,0⟩ target
  let touches:=S.touches w.client
  if touches=[] then none
  else some ⟨touches.zipIdx.flatMap fun t =>
      [(t.1,touchEvent id x y w.surface (n+t.2) phase),(t.1,.frame)],
    if phase=.motion then n else n+touches.length⟩

def inject (S : Seats) (n : Nat) : InjectOp κ → Option (Sent κ)
  | .key keycode pressed modifiers => injectKey S n keycode pressed modifiers
  | .pointer i _ => injectPointer S n i
  | .touch id x y phase windowId content => injectTouch S n windowId content id x y phase

abbrev Response := Except String Unit

def noTarget : InjectOp κ → String
  | .key .. => "no focused client with a wl_keyboard to deliver the event to"
  | .pointer .. => "no focused client with a wl_pointer to deliver the event to"
  | .touch .. => "no target client with a wl_touch to deliver the event to"

/- `InjectKey`, `InjectPointer` and `InjectTouch` -/
def request (S : Seats) (n : Nat) (op : InjectOp κ) : Sent κ × Response :=
  match op, inject S n (match op with | .pointer i _ => .pointer i 0 | op => op) with
  | _, some sent => (sent,.ok ())
  | op, none => (⟨[],n⟩,.error (noTarget op))

def requests (n : Nat) : List (Seats × InjectOp κ) → Sent κ
  | [] => ⟨[],n⟩
  | (S,op)::rest =>
    let sent:=(request S n op).1
    let later:=requests sent.serial rest
    ⟨sent.events++later.events,later.serial⟩

/- The loop of `InjectBatch` with its count. -/
def batchLoop : Sent κ × Nat → List (Seats × InjectOp κ) → Sent κ × Nat
  | done, [] => done
  | (done,delivered), (S,op)::rest => match inject S done.serial op with
    | some sent => batchLoop (⟨done.events++sent.events,sent.serial⟩,delivered+1) rest
    | none => batchLoop (done,delivered) rest

def injectBatch (n : Nat) (ops : List (Seats × InjectOp κ)) : Sent κ × Nat × Response :=
  let (sent,delivered) := batchLoop (⟨[],n⟩,0) ops
  (sent,delivered,.ok ())

theorem request_sent (S : Seats) (n : Nat) (op : InjectOp κ) :
    (request S n op).1=(inject S n op).getD ⟨[],n⟩ := by
  have hseq : inject S n (match op with | .pointer i _ => .pointer i 0 | op => op)=inject S n op := by
    cases op <;> rfl
  unfold request
  rw [hseq]
  cases inject S n op <;> rfl

theorem batchLoop_sent (ops : List (Seats × InjectOp κ)) : ∀ (done : Sent κ) (delivered : Nat),
    (batchLoop (done,delivered) ops).1 =
      ⟨done.events++(requests done.serial ops).events,(requests done.serial ops).serial⟩ := by
  induction ops with
  | nil => simp [batchLoop,requests]
  | cons p rest ih =>
    intro done delivered
    rw [batchLoop,requests]
    dsimp only
    rw [request_sent]
    cases inject p.1 done.serial p.2 with
    | some => rw [ih]; simp
    | none => rw [ih]; simp

def windowFor (S : Seats) : InjectOp κ → Option Window
  | .key .. => S.windows.focusedWindow
  | .pointer i _ => (target S.windows i.windowId).bind S.windows.window
  | .touch _ _ _ _ windowId _ => (target S.windows windowId).bind S.windows.window

def objects (S : Seats) (client : Nat) : InjectOp κ → List Resource
  | .key .. => (S.windows.devices.filter fun d => d.kind=.keyboard ∧ d.client=client).map (·.resource)
  | .pointer .. => (pointersOf S.windows client).map (·.resource)
  | .touch .. => S.touches client

/-- The client whose window the op is for has an object that can take it. -/
def Receivable (S : Seats) (op : InjectOp κ) : Prop := ∃ w,windowFor S op=some w ∧ objects S w.client op≠[]

theorem flatMap_ne {α β : Type} {l : List α} {g : α → List β} (hl : l≠[]) (hg : ∀ a∈l,g a≠[]) : l.flatMap g≠[] := by
  intro he
  obtain ⟨a,ha⟩ := exists_mem_of_ne_nil l hl
  exact hg a ha (flatMap_eq_nil_iff.mp he a ha)

theorem inject_some {S : Seats} {n : Nat} {op : InjectOp κ} {sent : Sent κ} (h : inject S n op=some sent) :
    Receivable S op ∧ sent.events≠[] := by
  cases op with
  | key =>
    obtain ⟨w,hw,h⟩ := bind_eq_some_iff.mp h
    obtain ⟨hk,⟨⟩⟩ := ite_none_left_eq_some.mp h
    exact ⟨⟨w,hw,fun he => hk (map_eq_nil_iff.mp he)⟩,flatMap_ne hk (by simp)⟩
  | pointer i =>
    obtain ⟨l,hl,⟨⟩⟩ := map_eq_some_iff.mp h
    obtain ⟨id,hid,hl⟩ := bind_eq_some_iff.mp hl
    obtain ⟨w,hw,hl⟩ := bind_eq_some_iff.mp hl
    obtain ⟨hk,⟨⟩⟩ := ite_none_left_eq_some.mp hl
    refine ⟨⟨w,by simp [windowFor,hid,hw],fun he => hk (map_eq_nil_iff.mp he)⟩,flatMap_ne (by simpa using hk) ?_⟩
    intro p hp
    obtain ⟨d,-,hd⟩ := mem_map.mp (fst_mem_of_mem_zipIdx hp)
    simp [← hd,pointerEvents]
  | touch =>
    obtain ⟨id,hid,h⟩ := bind_eq_some_iff.mp h
    obtain ⟨w,hw,h⟩ := bind_eq_some_iff.mp h
    obtain ⟨hk,⟨⟩⟩ := ite_none_left_eq_some.mp h
    exact ⟨⟨w,by simp [windowFor,hid,hw],hk⟩,flatMap_ne (by simpa using hk) (by simp)⟩

theorem inject_receivable {S : Seats} {op : InjectOp κ} (h : Receivable S op) (n : Nat) :
    ∃ sent,inject S n op=some sent := by
  obtain ⟨w,hw,hk⟩ := h
  cases op with
  | key => exact ⟨_,bind_eq_some_iff.mpr ⟨w,hw,if_neg fun he => hk (map_eq_nil_iff.mpr he)⟩⟩
  | pointer i =>
    obtain ⟨id,hid,hw⟩ := bind_eq_some_iff.mp hw
    have hno : pointersOf S.windows w.client≠[] := fun he => hk (map_eq_nil_iff.mpr he)
    simp [inject,injectPointer,PointerTarget.injectPointer,hid,hw,hno]
  | touch =>
    obtain ⟨id,hid,hw⟩ := bind_eq_some_iff.mp hw
    have hno : S.touches w.client≠[] := hk
    simp [inject,injectTouch,hid,hw,hno]

theorem requests_events (ops : List (Seats × InjectOp κ)) : ∀ n,(requests n ops).events≠[] ↔
    ∃ p∈ops,Receivable p.1 p.2 := by
  induction ops with
  | nil => simp [requests]
  | cons p rest ih =>
    intro n
    have hsplit : (requests n (p::rest)).events≠[] ↔ ((inject p.1 n p.2).getD ⟨[],n⟩).events≠[] ∨
        ∃ q∈rest,Receivable q.1 q.2 := by
      rw [requests]
      dsimp only
      rw [request_sent,ne_eq,append_eq_nil_iff,not_and_or]
      exact or_congr_right (ih _)
    rw [hsplit]
    have hhead : ((inject p.1 n p.2).getD ⟨[],n⟩).events≠[] ↔ Receivable p.1 p.2 := by
      constructor
      · cases hs : inject p.1 n p.2 with
        | none => exact fun he => absurd rfl he
        | some => exact fun _ => (inject_some hs).1
      · intro hr
        obtain ⟨sent,hs⟩ := inject_receivable hr n
        rw [hs]
        exact (inject_some hs).2
    simp [hhead]

/-- A batch sends what its ops send one after another. Its reply says whether something was sent exactly if some op
has a client that can take it, or there is no op. -/
theorem batch_as_requests (n : Nat) (ops : List (Seats × InjectOp κ)) :
    (injectBatch n ops).1=requests n ops ∧
    (((injectBatch n ops).2.2=.ok () ↔ ops=[] ∨ (requests n ops).events≠[]) ↔
      ops=[] ∨ ∃ p∈ops,Receivable p.1 p.2) := by
  constructor
  · simpa [injectBatch] using batchLoop_sent ops ⟨[],n⟩ 0
  · rw [requests_events]
    simp [injectBatch]

end

def seat : Seats := ⟨{Windows.start with
    windowsById := [⟨1,⟨1,1⟩,true⟩]
    focused := some 1
    devices := [⟨.keyboard,⟨1,9⟩,5,[]⟩]},fun _ => none,fun _ => []⟩

/-- The touch finds nobody, the key its keyboard. -/
theorem batch_as_requests_key :
    let ops : List (Seats × InjectOp Int) := [(seat,.touch 0 5 5 .down none false),(seat,.key 30 true 0)]
    (injectBatch 1 ops).1.events=[(⟨1,9⟩,.modifiers 1 0 0 0 0),(⟨1,9⟩,.key 2 30 true)] ∧
    ((injectBatch 1 ops).2.2=.ok () ↔ ops=[] ∨ (requests 1 ops).events≠[]) := by
  refine ⟨by decide +kernel,(batch_as_requests 1 _).2.mpr (.inr ⟨_,mem_cons_of_mem _ mem_cons_self,?_⟩)⟩
  exact ⟨⟨1,⟨1,1⟩,true⟩,by decide +kernel,by decide +kernel⟩

/-- Nobody has the focus: the request fails, the batch of the same op succeeds. -/
theorem batch_without_target :
    let S : Seats := ⟨Windows.start,fun _ => none,fun _ => []⟩
    let op : InjectOp Int := .key 30 true 0
    (injectBatch 1 [(S,op)]).2=(0,.ok ()) ∧ (requests 1 [(S,op)]).events=[] ∧
    (request S 1 op).2=.error "no focused client with a wl_keyboard to deliver the event to" := by
  decide +kernel

end Waymux.Session.Injection
