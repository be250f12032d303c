import Waymux.Session.OuterInput

/-!
# Keys and buttons of the inner session

What the bridge has injected, against what it believes to be held.
-/

namespace Waymux.Session.HeldInput
open OuterInput Interleave.Runs Interleave.Logs Interleave.Presses List Option

def keyLog (es : List Injected) : List (Nat × Bool) :=
  es.filterMap fun
    | .key code pressed _ => some (code,pressed)
    | .pointer _ _ => none

/-- The button events; `inject_pointer` sends none for button 0. -/
def buttonLog (es : List Injected) : List (Nat × Bool) :=
  es.filterMap fun
    | .key _ _ _ => none
    | .pointer button pressed => if button=0 then none else some (button,pressed)

/-- Nothing is held. Button 0 is not sent. -/
def idle (b : InputBridge) : Bool := b.keysHeld=∅ && b.buttonsHeld ⊆ {0}

def changes (held : Finset Nat) (code : Nat) (state : InputState) : Bool :=
  state.isPressed=decide (code∉held)

def paired (v : View) : Act → Bool
  | .keyboardEnter keys => (keyCodes keys).toFinset=v.input.keysHeld
  | .keyboardKey key state => changes v.input.keysHeld key state
  | .pointerButton button state => button=0 || changes v.input.buttonsHeld button state
  | .capabilities (some _) | .gone => idle v.input
  | _ => true

def Paired (s : State) (a : Act) : Prop := s.view.all (paired · a)=true

/-- After these no key is left down, -/
def endsKeys : Act → Bool
  | .keyboardLeave _ | .capabilities (some _) | .detach _ _ | .gone => true
  | _ => false

/-- and after these no button. -/
def endsButtons : Act → Bool
  | .pointerLeave _ | .capabilities (some _) | .detach _ _ | .gone => true
  | _ => false

structure Agrees (keys buttons : Finset Nat) (es : List Injected) : Prop where
  keys : Matched keys (keyLog es)
  buttons : Matched (buttons.erase 0) (buttonLog es)

variable {keys buttons : Finset Nat} {es out : List Injected}

theorem keyLog_append (es out : List Injected) : keyLog (es++out)=keyLog es++keyLog out :=
  filterMap_append

theorem buttonLog_append (es out : List Injected) : buttonLog (es++out)=buttonLog es++buttonLog out :=
  filterMap_append

theorem Agrees.quiet (h : Agrees keys buttons es) (hk : keyLog out=[]) (hb : buttonLog out=[]) :
    Agrees keys buttons (es++out) := by
  refine ⟨?_,?_⟩
  · rw [keyLog_append,hk,append_nil]
    exact h.keys
  · rw [buttonLog_append,hb,append_nil]
    exact h.buttons

theorem Agrees.key (h : Agrees keys buttons es) {code : Nat} {state : InputState} {mods : Modifiers}
    (hc : changes keys code state=true) :
    Agrees (if state.isPressed then insert code keys else keys.erase code) buttons
      (es++[Injected.key code state.isPressed mods]) := by
  have hc : state.isPressed=decide (code∉keys) := by simpa [changes] using hc
  refine ⟨?_,?_⟩
  · rw [keyLog_append]
    cases hp : state.isPressed with
    | true =>
      rw [hp] at hc
      exact h.keys.press (of_decide_eq_true hc.symm)
    | false =>
      rw [hp] at hc
      exact h.keys.release (not_not.mp (of_decide_eq_false hc.symm))
  · rw [buttonLog_append]
    exact (append_nil (buttonLog es)).symm ▸ h.buttons

theorem Agrees.button (h : Agrees keys buttons es) {code : Nat} {state : InputState}
    (hc : code=0 ∨ changes buttons code state=true) :
    Agrees keys (if state.isPressed then insert code buttons else buttons.erase code)
      (es++[Injected.pointer code state.isPressed]) := by
  refine ⟨?_,?_⟩
  · rw [keyLog_append]
    exact (append_nil (keyLog es)).symm ▸ h.keys
  rw [buttonLog_append]
  by_cases hz : code=0
  · have hnil : buttonLog [.pointer code state.isPressed]=[] := by simp [buttonLog,hz]
    rw [hnil,append_nil]
    refine h.buttons.same fun k => ?_
    cases state.isPressed <;> simp [hz]
  · have hone : buttonLog [.pointer code state.isPressed]=[(code,state.isPressed)] := by simp [buttonLog,hz]
    have hc : state.isPressed=decide (code∉buttons) := by simpa [changes,hz] using hc
    rw [hone]
    cases hp : state.isPressed with
    | true =>
      rw [hp] at hc
      have hout : code∉buttons.erase 0 := fun hm => of_decide_eq_true hc.symm (Finset.mem_of_mem_erase hm)
      have hm:=h.buttons.press hout
      rwa [← Finset.erase_insert_of_ne hz] at hm
    | false =>
      rw [hp] at hc
      have hin : code∈buttons := not_not.mp (of_decide_eq_false hc.symm)
      have hm:=h.buttons.release (Finset.mem_erase.mpr ⟨hz,hin⟩)
      rwa [Finset.erase_right_comm] at hm

theorem keyLog_keys (order : List Nat) (mods : Modifiers) :
    keyLog (order.map fun k => .key k false mods)=order.map fun k => (k,false) := by
  induction order with
  | nil => rfl
  | cons k ks ih =>
    rw [map_cons,map_cons,← ih]
    rfl

theorem buttonLog_keys (order : List Nat) (mods : Modifiers) :
    buttonLog (order.map fun k => .key k false mods)=[] := by
  induction order with
  | nil => rfl
  | cons k ks ih => exact ih

theorem keyLog_pointers (order : List Nat) : keyLog (order.map fun k => .pointer k false)=[] := by
  induction order with
  | nil => rfl
  | cons k ks ih => exact ih

theorem buttonLog_pointers (order : List Nat) :
    buttonLog (order.map fun k => .pointer k false)=(order.filter (·≠0)).map fun k => (k,false) := by
  induction order with
  | nil => rfl
  | cons k ks ih =>
    by_cases hk : k=0 <;> simpa [buttonLog,hk] using ih

variable {order : List Nat} {b : InputBridge}

theorem Agrees.leaveKeys (h : Agrees keys buttons es) {mods : Modifiers} (hd : InputBridge.drains order keys) :
    Agrees ∅ buttons (es++order.map fun k => .key k false mods) := by
  refine ⟨?_,?_⟩
  · rw [keyLog_append,keyLog_keys]
    refine h.keys.drain hd.1 fun k => ?_
    rw [← hd.2,List.mem_toFinset]
  · rw [buttonLog_append,buttonLog_keys,append_nil]
    exact h.buttons

theorem Agrees.leaveButtons (h : Agrees keys buttons es) (hd : InputBridge.drains order buttons) :
    Agrees keys ∅ (es++order.map fun k => .pointer k false) := by
  refine ⟨?_,?_⟩
  · rw [keyLog_append,keyLog_pointers,append_nil]
    exact h.keys
  · rw [buttonLog_append,buttonLog_pointers]
    refine h.buttons.drain (hd.1.filter _) fun k => ?_
    rw [← hd.2]
    simp [and_comm]

theorem Agrees.up (h : Agrees keys buttons es) :
    (keys=∅ → ∀ k,¬IsDown k (keyLog es)) ∧ (buttons ⊆ {0} → ∀ b,¬IsDown b (buttonLog es)) := by
  refine ⟨fun hk k hd => ?_,fun hb b hd => ?_⟩
  · have hm:=h.keys.mem_of_isDown hd
    rw [hk] at hm
    exact absurd hm (Finset.notMem_empty k)
  · obtain ⟨hb0,hm⟩ := Finset.mem_erase.mp (h.buttons.mem_of_isDown hd)
    exact hb0 (Finset.mem_singleton.mp (hb hm))

variable {s t : State} {v : View} {a : Act} {r : View × List Injected}

def AgreesView (v : View) (es : List Injected) : Prop := Agrees v.input.keysHeld v.input.buttonsHeld es

structure Untouched (v : View) (r : View × List Injected) : Prop where
  keys : r.1.input.keysHeld=v.input.keysHeld
  buttons : r.1.input.buttonsHeld=v.input.buttonsHeld
  out : r.2=[] ∨ r.2=[.pointer 0 false]

theorem Untouched.agrees (hu : Untouched v r) (h : AgreesView v es) : AgreesView r.1 (es++r.2) := by
  have hq : Agrees v.input.keysHeld v.input.buttonsHeld (es++r.2) := by
    rcases hu.out with ho | ho <;> exact h.quiet (by rw [ho]; rfl) (by rw [ho]; rfl)
  rw [AgreesView,hu.keys,hu.buttons]
  exact hq

theorem updateInhibitor_untouched (v : View) (want : Bool) : Untouched v (v.updateInhibitor want,[]) := by
  have hv : Untouched v (v,[]) := ⟨rfl,rfl,.inl rfl⟩
  unfold View.updateInhibitor
  split
  · split
    · exact ⟨rfl,rfl,.inl rfl⟩
    · exact hv
  · split
    · exact ⟨rfl,rfl,.inl rfl⟩
    · exact hv

theorem updateLock_untouched (v : View) (want : Bool) : Untouched v (v.updateLock want) := by
  unfold View.updateLock
  split
  · split <;> exact ⟨rfl,rfl,.inl rfl⟩
  all_goals first
    | exact ⟨rfl,rfl,.inl rfl⟩
    | exact ⟨rfl,rfl,.inr rfl⟩

theorem getRelativePointer_untouched (v : View) : Untouched v (v.getRelativePointer,[]) := by
  unfold View.getRelativePointer
  split <;> exact ⟨rfl,rfl,.inl rfl⟩

theorem onNiriLocked_untouched (v : View) : Untouched v (v.onNiriLocked,[]) := by
  unfold View.onNiriLocked
  split
  · exact ⟨(getRelativePointer_untouched v).keys,(getRelativePointer_untouched v).buttons,.inl rfl⟩
  · exact ⟨rfl,rfl,.inl rfl⟩
  · exact ⟨rfl,rfl,.inl rfl⟩

theorem onNiriUnlocked_untouched (v : View) : Untouched v (v.withInput (v.input.onNiriUnlocked,[])) := by
  unfold InputBridge.onNiriUnlocked View.withInput
  split <;> exact ⟨rfl,rfl,.inl rfl⟩

theorem onKeyboardLeave_eq_some {p : InputBridge × List Injected} (h : b.onKeyboardLeave order=some p) :
    InputBridge.drains order b.keysHeld ∧
      p=({b with keysHeld := ∅ },order.map fun k => .key k false .none) := by
  obtain ⟨hd,hp⟩ := ite_none_right_eq_some.mp h
  exact ⟨hd,(Option.some.inj hp).symm⟩

theorem onPointerLeave_eq_some {p : InputBridge × List Injected} (h : b.onPointerLeave order=some p) :
    InputBridge.drains order b.buttonsHeld ∧
      p=({b with buttonsHeld := ∅ },order.map fun k => .pointer k false) := by
  obtain ⟨hd,hp⟩ := ite_none_right_eq_some.mp h
  exact ⟨hd,(Option.some.inj hp).symm⟩

theorem idle_spec (h : idle b=true) : b.keysHeld=∅ ∧ b.buttonsHeld ⊆ {0} := by
  simpa [idle] using h

theorem detach_agrees {ks bs : List Nat} (h : AgreesView v es) (hd : v.detach ks bs=some r) :
    AgreesView r.1 (es++r.2) ∧ r.1.input.keysHeld=∅ ∧ r.1.input.buttonsHeld=∅ := by
  obtain ⟨r₁,h₁,hd⟩ := bind_eq_some_iff.mp hd
  obtain ⟨r₂,h₂,rfl⟩ := map_eq_some_iff.mp hd
  obtain ⟨hk,rfl⟩ := onKeyboardLeave_eq_some h₁
  obtain ⟨hb,rfl⟩ := onPointerLeave_eq_some h₂
  refine ⟨?_,rfl,rfl⟩
  have hkeys : Agrees ∅ v.input.buttonsHeld (es++ks.map fun k => Injected.key k false .none) := h.leaveKeys hk
  have hboth:=hkeys.leaveButtons hb
  rw [append_assoc] at hboth
  exact hboth

theorem handle_agrees (h : AgreesView v s.injected) (hok : paired v a=true) (hr : handle s v a=some r) :
    AgreesView r.1 (s.injected++r.2) := by
  have still : ∀ {p : View × List Injected},Untouched v p → some p=some r → AgreesView r.1 (s.injected++r.2) :=
    fun hu hp => Option.some.inj hp ▸ hu.agrees h
  cases a with
  | configure | keyboardModifiers | pointerEnter => exact still ⟨rfl,rfl,.inl rfl⟩ hr
  | updateInhibitor =>
    obtain ⟨-,hr⟩ := ite_none_left_eq_some.mp hr
    split at hr
    · exact still (updateInhibitor_untouched v _) hr
    · exact still ⟨rfl,rfl,.inl rfl⟩ hr
  | updateLock =>
    obtain ⟨-,hr⟩ := ite_none_left_eq_some.mp hr
    split at hr
    · exact still (updateLock_untouched v _) hr
    · exact still ⟨rfl,rfl,.inl rfl⟩ hr
  | capabilities caps =>
    cases caps with
    | none => exact still ⟨rfl,rfl,.inl rfl⟩ hr
    | some => exact still ⟨(idle_spec hok).1.symm,rfl,.inl rfl⟩ hr
  | keyboardEnter ks =>
    have he : (keyCodes ks).toFinset=v.input.keysHeld := by simpa [paired] using hok
    exact still ⟨he,rfl,.inl rfl⟩ hr
  | keyboardLeave =>
    obtain ⟨p,hp,rfl⟩ := map_eq_some_iff.mp hr
    obtain ⟨hd,rfl⟩ := onKeyboardLeave_eq_some hp
    exact h.leaveKeys hd
  | keyboardKey => exact Option.some.inj hr ▸ h.key hok
  | pointerMotion | relativeMotion => exact still ⟨rfl,rfl,.inr rfl⟩ hr
  | pointerButton =>
    refine Option.some.inj hr ▸ h.button ?_
    simpa [paired] using hok
  | pointerLeave =>
    obtain ⟨p,hp,rfl⟩ := map_eq_some_iff.mp hr
    obtain ⟨hd,rfl⟩ := onPointerLeave_eq_some hp
    exact h.leaveButtons hd
  | locked => exact still (onNiriLocked_untouched v) hr
  | unlocked => exact still (onNiriUnlocked_untouched v) hr
  | detach =>
    obtain ⟨-,hr⟩ := ite_none_left_eq_some.mp hr
    exact (detach_agrees h hr).1
  | _ => cases hr

def Agreed (s : State) : Prop :=
  Agrees ((s.view.map (·.input.keysHeld)).getD ∅) ((s.view.map (·.input.buttonsHeld)).getD ∅) s.injected

theorem Agreed.view (h : Agreed s) (hv : s.view=some v) : AgreesView v s.injected := by
  unfold Agreed at h
  rw [hv] at h
  exact h

theorem Paired.view (h : Paired s a) (hv : s.view=some v) : paired v a=true := by
  unfold Paired at h
  rwa [hv] at h

theorem agreed_start : Agreed start := by
  have he : Matched (∅ : Finset Nat) [] := matched_nil
  exact ⟨he,he⟩

theorem agreed_step (h : Agreed s) (hok : Paired s a) (ht : step s a=some t) : Agreed t := by
  cases step_cases ht with
  | attached seat im pc rm _ hv =>
    unfold Agreed at h ⊢
    rw [hv] at h
    exact h
  | inner => exact h
  | gone v ha hv =>
    have hidle:=idle_spec (ha ▸ hok.view hv : paired v .gone=true)
    have hm:=h.view hv
    refine ⟨hidle.1 ▸ hm.keys,hm.buttons.same fun k => ?_⟩
    have hz : v.input.buttonsHeld.erase 0=∅ := by
      rw [← Finset.subset_empty,← Finset.subset_insert_iff]
      exact hidle.2
    rw [hz]
    rfl
  | handled v r hv hr => exact handle_agrees (h.view hv) (hok.view hv) hr

theorem handle_ends (h : AgreesView v s.injected) (hok : paired v a=true) (hr : handle s v a=some r) :
    (endsKeys a=true → r.1.input.keysHeld=∅) ∧ (endsButtons a=true → r.1.input.buttonsHeld ⊆ {0}) := by
  cases a with
  | capabilities caps =>
    cases caps with
    | none => exact ⟨nofun,nofun⟩
    | some =>
      cases hr
      exact ⟨fun _ => rfl,fun _ => (idle_spec hok).2⟩
  | keyboardLeave =>
    obtain ⟨p,hp,rfl⟩ := map_eq_some_iff.mp hr
    obtain ⟨-,rfl⟩ := onKeyboardLeave_eq_some hp
    exact ⟨fun _ => rfl,nofun⟩
  | pointerLeave =>
    obtain ⟨p,hp,rfl⟩ := map_eq_some_iff.mp hr
    obtain ⟨-,rfl⟩ := onPointerLeave_eq_some hp
    exact ⟨nofun,fun _ => Finset.empty_subset _⟩
  | detach =>
    obtain ⟨-,hr⟩ := ite_none_left_eq_some.mp hr
    obtain ⟨-,hk,hb⟩ := detach_agrees h hr
    exact ⟨fun _ => hk,fun _ => hb ▸ Finset.empty_subset _⟩
  | gone => cases hr
  | _ => exact ⟨nofun,nofun⟩

theorem step_ends (h : Agreed s) (hok : Paired s a) (ht : step s a=some t) :
    (endsKeys a=true → ∀ k,¬IsDown k (keyLog t.injected)) ∧
    (endsButtons a=true → ∀ b,¬IsDown b (buttonLog t.injected)) := by
  have hagreed:=agreed_step h hok ht
  cases step_cases ht with
  | attached seat im pc rm ha | inner _ _ ha =>
    exact ⟨fun he => absurd (ha ▸ he) nofun,fun he => absurd (ha ▸ he) nofun⟩
  | gone => exact ⟨fun _ => hagreed.up.1 rfl,fun _ => hagreed.up.2 (Finset.empty_subset _)⟩
  | handled v r hv hr =>
    have hends:=handle_ends (h.view hv) (hok.view hv) hr
    exact ⟨fun he => hagreed.up.1 (hends.1 he),fun he => hagreed.up.2 (hends.2 he)⟩

/-- Every key and button is pressed and released in turn, and none stays down when the outer focus, seat or
view goes. -/
theorem no_stuck_input (h : Reach step Paired start s) :
    (∀ k,Alternates (eventsOf k (keyLog s.injected))) ∧ (∀ b,Alternates (eventsOf b (buttonLog s.injected))) ∧
    ∀ a t,Paired s a → step s a=some t →
      (endsKeys a=true → ∀ k,¬IsDown k (keyLog t.injected)) ∧
      (endsButtons a=true → ∀ b,¬IsDown b (buttonLog t.injected)) := by
  have hagreed : Agreed s := h.keeps agreed_start agreed_step
  exact ⟨hagreed.keys.alternates,hagreed.buttons.alternates,fun _ _ hok ht => step_ends hagreed hok ht⟩

def typing : List Act :=
  [.attach true true true true,.configure,.keyboardEnter [],.keyboardKey 42 .pressed,
    .keyboardModifiers ⟨1,0,0,0⟩,.keyboardKey 30 .pressed,.pointerEnter,.pointerButton 272 .pressed,
    .pointerMotion,.keyboardLeave [30,42],.capabilities none]

instance (s : State) (a : Act) : Decidable (Paired s a) := inferInstanceAs (Decidable (_=true))

theorem no_stuck_input_typing : ∃ s,Reach step Paired start s ∧
    (eventsOf 30 (keyLog s.injected)=[true,false] ∧ eventsOf 272 (buttonLog s.injected)=[true]) ∧
    ∀ b t,step s (.detach [] [272])=some t → ¬IsDown b (buttonLog t.injected) := by
  have hs : Reach step Paired start _ :=
    reach_exec typing (meets_of_checked (fun _ _ h => h) (by decide +kernel)) (by decide +kernel)
  refine ⟨_,hs,by decide +kernel,fun b t ht => ((no_stuck_input hs).2.2 _ t ?_ ht).2 rfl b⟩
  decide +kernel

/-- The seat changes its capabilities while shift is held: the key stays down. The release of a key that was
down at the enter is its first event. -/
theorem shift_key_stuck :
    (∃ s,Reach step Free start s ∧ s.view=none ∧ IsDown 42 (keyLog s.injected)) ∧
    ∃ s,Reach step Free start s ∧ ¬Alternates (eventsOf 56 (keyLog s.injected)) := by
  constructor
  · exact free_observed [.attach true true true true,.keyboardEnter [],.keyboardKey 42 .pressed,
      .capabilities (some (true,true)),.detach [] [],.gone] (by decide +kernel)
  · have hr : Reach step Free start _ := reach_free
      [.attach true true true true,.keyboardEnter [56,0,0,0],.keyboardKey 56 .released] (by decide +kernel)
    exact ⟨_,hr,show ¬_=true by decide +kernel⟩

end Waymux.Session.HeldInput
