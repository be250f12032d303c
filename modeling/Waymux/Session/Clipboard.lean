import Waymux.Session.Windows

/-!
# The outer clipboard in the inner session

`set_outer_clipboard` (`state.rs`) is two steps, the content and the version, as are the reads of
`drain_clipboard` (`compositor.rs`). A content carries the number of its store; the version counts the
finished calls.
-/

namespace Waymux.Session.Clipboard
open Windows Interleave.Runs List Option

structure Content where
  stamp : Nat
  entries : List (String × List UInt8)
deriving DecidableEq

/-- An entry of `inner_data_devices`, with the selection offers it was sent. -/
structure DataDevice where
  resource : Resource
  alive : Bool
  offers : List Content
deriving DecidableEq

/-- Not in the code are `stores`, the number of contents so far; `unbumped`, the calls between their two
steps; `settled`, the content when the version was last raised; `drain`, the version a drain has read and
what `settled` was then; and `broadcasts`, the version and content of each round of offers. -/
structure State where
  shareClipboard : Bool
  outerClipboard : Option Content
  version : Nat
  lastSent : Nat
  devices : List DataDevice
  stores : Nat
  unbumped : Nat
  settled : Nat
  drain : Option (Nat × Nat)
  broadcasts : List (Nat × Content)
deriving DecidableEq

def start (shareClipboard : Bool) : State := ⟨shareClipboard,none,0,0,[],0,0,0,none,[]⟩

inductive Act
  | store (entries : List (String × List UInt8))
  | bump
  | register (device : Resource)
  | unregister (device : Resource)
  | dies (device : Resource)
  | drainVersion
  | drainContent
deriving DecidableEq

def DataDevice.offer (c : Content) (d : DataDevice) : DataDevice :=
  if d.alive then {d with offers := d.offers++[c]} else d

def DataDevice.kill (r : Resource) (d : DataDevice) : DataDevice :=
  if d.resource=r then {d with alive := false} else d

def registerDataDevice (s : State) (r : Resource) : State :=
  {s with devices := s.devices.filter (·.alive)++[⟨r,true,[]⟩]}

def unregisterDataDevice (s : State) (r : Resource) : State :=
  {s with devices := s.devices.filter (·.resource≠r)}

def drainVersion (s : State) : State :=
  if !s.shareClipboard then s
  else if s.version=s.lastSent then s
  else {s with lastSent := s.version, drain := some (s.version,s.settled)}

/-- The offers. A device for which the offer cannot be made is one that has died. -/
def broadcast (s : State) (v : Nat) (c : Content) : State :=
  {s with devices := s.devices.map (·.offer c), broadcasts := s.broadcasts++[(v,c)], drain := none}

def drainContent (s : State) (v : Nat) : State :=
  match s.outerClipboard with
  | none => {s with drain := none}
  | some c => broadcast s v c

/-- Nothing is stored if the clipboard is not shared. Requests are handled between the drains. -/
def step (s : State) : Act → Option State
  | .store entries =>
    if s.shareClipboard then
      some {s with
        outerClipboard := some ⟨s.stores+1,entries⟩
        stores := s.stores+1
        unbumped := s.unbumped+1}
    else none
  | .bump =>
    if 0<s.unbumped then
      some {s with version := s.version+1, unbumped := s.unbumped-1, settled := s.stores}
    else none
  | .register r => if s.shareClipboard ∧ s.drain=none then some (registerDataDevice s r) else none
  | .unregister r => if s.drain=none then some (unregisterDataDevice s r) else none
  | .dies r => some {s with devices := s.devices.map (·.kill r)}
  | .drainVersion => if s.drain=none then some (drainVersion s) else none
  | .drainContent => s.drain.map fun d => drainContent s d.1

/-- The version a drain had read, and its content, if the step is the end of the drain. -/
def endOfDrain (s : State) : Act → Option (Nat × Nat)
  | .drainVersion => if (drainVersion s).drain=none then some (s.version,s.settled) else none
  | .drainContent => s.drain
  | _ => none

/-- Every live device has an offer of the content or of a later one, and the
version was sent. -/
structure Delivered (v k : Nat) (t : State) : Prop where
  devices : ∀ d∈t.devices,d.alive=true → ∃ o∈d.offers,k≤o.stamp
  version : ∃ b∈t.broadcasts,b.1=v ∧ k≤b.2.stamp

/-- Whenever a drain finds no new version, no live device is without an offer. -/
def Served (s : State) (a : Act) : Prop :=
  a=.drainVersion → s.version=s.lastSent → 0<s.version → ∀ d∈s.devices,d.alive=true → d.offers≠[]

instance (s : State) (a : Act) : Decidable (Served s a) := by
  unfold Served
  infer_instance

structure Sent (v k : Nat) (ds : List DataDevice) (bs : List (Nat × Content)) : Prop where
  devices : ∀ d∈ds,d.alive=true → d.offers≠[] → ∃ o∈d.offers,k≤o.stamp
  version : ∃ b∈bs,b.1=v ∧ k≤b.2.stamp

structure Inv (s : State) : Prop where
  counted : s.version+s.unbumped=s.stores
  content : 0<s.stores → ∃ c,s.outerClipboard=some c ∧ c.stamp=s.stores
  settled : s.settled ≤ s.stores
  behind : s.lastSent ≤ s.version
  draining : ∀ v k,s.drain=some (v,k) →
    s.lastSent=v ∧ 0<v ∧ k ≤ s.stores ∧ (s.version=s.lastSent → s.settled=k)
  idle : s.drain=none → 0<s.lastSent →
    ∃ k,(s.version=s.lastSent → s.settled=k) ∧ Sent s.lastSent k s.devices s.broadcasts
  unshared : s.shareClipboard=false → s.stores=0

variable {s t : State} {a : Act} {v k : Nat}

theorem inv_start (shareClipboard : Bool) : Inv (start shareClipboard) :=
  ⟨rfl,nofun,Nat.le_refl 0,Nat.le_refl 0,nofun,fun _ h => absurd h (Nat.lt_irrefl 0),fun _ => rfl⟩

theorem Inv.devices (h : Inv s) {ds : List DataDevice}
    (hd : ∀ d∈ds,d.alive=true → d.offers≠[] → d∈s.devices) : Inv {s with devices := ds} := by
  refine ⟨h.counted,h.content,h.settled,h.behind,h.draining,fun hn hl => ?_,h.unshared⟩
  obtain ⟨k,hk,hsent⟩ := h.idle hn hl
  exact ⟨k,hk,fun d hm ha ho => hsent.devices d (hd d hm ha ho) ha ho,hsent.version⟩

theorem Inv.store (h : Inv s) (hs : s.shareClipboard=true) (entries : List (String × List UInt8)) :
    Inv {s with
      outerClipboard := some ⟨s.stores+1,entries⟩
      stores := s.stores+1
      unbumped := s.unbumped+1} := by
  have hc:=h.counted
  have hset:=h.settled
  refine ⟨?_,fun _ => ⟨_,rfl,rfl⟩,Nat.le_succ_of_le hset,h.behind,fun v k hd => ?_,h.idle,?_⟩
  · show s.version+(s.unbumped+1)=s.stores+1
    omega
  · obtain ⟨hl,hv,hk,hsame⟩ := h.draining v k hd
    exact ⟨hl,hv,Nat.le_succ_of_le hk,hsame⟩
  · intro hu
    cases hs.symm.trans hu

theorem Inv.bump (h : Inv s) (hu : 0<s.unbumped) :
    Inv {s with version := s.version+1, unbumped := s.unbumped-1, settled := s.stores} := by
  have hc:=h.counted
  have hb:=h.behind
  have hnew : ¬s.version+1=s.lastSent := by omega
  refine ⟨?_,h.content,Nat.le_refl _,Nat.le_succ_of_le hb,fun v k hd => ?_,fun hn hl => ?_,h.unshared⟩
  · show s.version+1+(s.unbumped-1)=s.stores
    omega
  · obtain ⟨hl,hv,hk,-⟩ := h.draining v k hd
    exact ⟨hl,hv,hk,fun he => absurd he hnew⟩
  · obtain ⟨k,-,hsent⟩ := h.idle hn hl
    exact ⟨k,fun he => absurd he hnew,hsent.devices,hsent.version⟩

theorem Inv.drainVersion (h : Inv s) : Inv (drainVersion s) := by
  unfold Clipboard.drainVersion
  split
  · exact h
  split
  · exact h
  have hb:=h.behind
  refine ⟨h.counted,h.content,h.settled,Nat.le_refl _,fun v k hd => ?_,nofun,h.unshared⟩
  cases hd
  exact ⟨rfl,by omega,h.settled,fun _ => rfl⟩

theorem Inv.content_of (h : Inv s) (hd : s.drain=some (v,k)) : ∃ c,s.outerClipboard=some c ∧ k≤c.stamp := by
  obtain ⟨hl,hv,hk,-⟩ := h.draining v k hd
  have hc:=h.counted
  have hb:=h.behind
  obtain ⟨c,hcontent,hstamp⟩ := h.content (by omega)
  exact ⟨c,hcontent,by omega⟩

theorem drainContent_eq {c : Content} (hc : s.outerClipboard=some c) : drainContent s v=broadcast s v c := by
  rw [drainContent,hc]

theorem drainContent_delivers (h : Inv s) (hd : s.drain=some (v,k)) : Delivered v k (drainContent s v) := by
  obtain ⟨c,hc,hk⟩ := h.content_of hd
  rw [drainContent_eq hc]
  refine ⟨fun d hm ha => ?_,⟨(v,c),mem_append_right _ (mem_singleton_self _),rfl,hk⟩⟩
  obtain ⟨d₀,-,rfl⟩ := mem_map.mp hm
  unfold DataDevice.offer at ha ⊢
  split
  · exact ⟨c,by simp,hk⟩
  · rename_i hdead
    rw [if_neg hdead] at ha
    exact absurd ha hdead

theorem Inv.drainContent (h : Inv s) (hd : s.drain=some (v,k)) : Inv (drainContent s v) := by
  obtain ⟨hl,-,-,hsame⟩ := h.draining v k hd
  subst hl
  have hdelivers:=drainContent_delivers h hd
  obtain ⟨c,hc,-⟩ := h.content_of hd
  rw [drainContent_eq hc] at hdelivers ⊢
  refine ⟨h.counted,h.content,h.settled,h.behind,nofun,fun _ _ => ?_,h.unshared⟩
  exact ⟨k,hsame,fun d hm ha _ => hdelivers.devices d hm ha,hdelivers.version⟩

theorem kill_of_alive {r : Resource} {d : DataDevice} (ha : (d.kill r).alive=true) : d.kill r=d := by
  unfold DataDevice.kill at ha ⊢
  split
  · rename_i hr
    rw [if_pos hr] at ha
    cases ha
  · rfl

theorem inv_step (h : Inv s) (ht : step s a=some t) : Inv t := by
  cases a with
  | store entries =>
    obtain ⟨hs,ht⟩ := ite_none_right_eq_some.mp ht
    cases ht
    exact h.store hs entries
  | bump =>
    obtain ⟨hu,ht⟩ := ite_none_right_eq_some.mp ht
    cases ht
    exact h.bump hu
  | register =>
    obtain ⟨-,ht⟩ := ite_none_right_eq_some.mp ht
    cases ht
    refine h.devices fun d hm _ ho => ?_
    rcases mem_append.mp hm with hm | hm
    · exact (mem_filter.mp hm).1
    · cases mem_singleton.mp hm
      exact absurd rfl ho
  | unregister =>
    obtain ⟨-,ht⟩ := ite_none_right_eq_some.mp ht
    cases ht
    exact h.devices fun d hm _ _ => (mem_filter.mp hm).1
  | dies =>
    cases ht
    refine h.devices fun d hm ha _ => ?_
    obtain ⟨d₀,hm₀,rfl⟩ := mem_map.mp hm
    rw [kill_of_alive ha]
    exact hm₀
  | drainVersion =>
    obtain ⟨-,ht⟩ := ite_none_right_eq_some.mp ht
    cases ht
    exact h.drainVersion
  | drainContent =>
    obtain ⟨⟨v,k⟩,hd,rfl⟩ := map_eq_some_iff.mp ht
    exact h.drainContent hd

theorem drainVersion_ends (h : Inv s) (hv : 0<s.version) (he : (drainVersion s).drain=none) :
    s.version=s.lastSent ∧ drainVersion s=s := by
  have hshared : s.shareClipboard=true := by
    by_contra hs
    have hz:=h.unshared (Bool.eq_false_iff.mpr hs)
    have hc:=h.counted
    omega
  unfold drainVersion at he ⊢
  rw [hshared] at he ⊢
  by_cases hsame : s.version=s.lastSent
  · exact ⟨hsame,by simp [hsame]⟩
  · simp [hsame] at he

theorem delivered_iff (h : Inv s) (ht : step s a=some t) (he : endOfDrain s a=some (v,k)) (hv : 0<v) :
    Delivered v k t ↔ Served s a := by
  cases a with
  | drainVersion =>
    obtain ⟨hn,ht⟩ := ite_none_right_eq_some.mp ht
    obtain ⟨hend,he⟩ := ite_none_right_eq_some.mp he
    cases he
    obtain ⟨hsame,hstays⟩ := drainVersion_ends h hv hend
    obtain rfl : s=t := hstays.symm.trans (Option.some.inj ht)
    obtain ⟨k,hk,hsent⟩ := h.idle hn (hsame ▸ hv)
    rw [hk hsame]
    refine ⟨fun hd _ _ _ d hm ha ho => ?_,fun hs => ⟨fun d hm ha => ?_,hsame ▸ hsent.version⟩⟩
    · obtain ⟨o,hmem,-⟩ := hd.devices d hm ha
      rw [ho] at hmem
      cases hmem
    · exact hsent.devices d hm ha (hs rfl hsame hv d hm ha)
  | drainContent =>
    obtain ⟨d,hd,rfl⟩ := map_eq_some_iff.mp ht
    obtain rfl : d=(v,k) := Option.some.inj (hd.symm.trans he)
    exact iff_of_true (drainContent_delivers h hd) nofun
  | _ => cases he

/-- In every run a drain that read a version ends with its content, or a later one, offered to all live
devices, exactly if it does not find both no new version and a live device without an offer. -/
theorem clipboard_delivered {shareClipboard : Bool} (h : Reach step Free (start shareClipboard) s)
    (ht : step s a=some t) (he : endOfDrain s a=some (v,k)) (hv : 0<v) :
    Delivered v k t ↔ Served s a := by
  have hinv : Inv s := h.keeps (inv_start shareClipboard) fun hi _ hs => inv_step hi hs
  exact delivered_iff hinv ht he hv

/-- One of two devices dies, and a second selection is stored between the two reads of the drain. -/
theorem clipboard_delivered_late : ∃ s t,Reach step Free (start true) s ∧
    step s .drainContent=some t ∧ s.version=1 ∧ Delivered 1 1 t ∧
    t.devices.map (fun d => (d.alive,d.offers.map (·.stamp)))=[(true,[2]),(false,[])] := by
  obtain ⟨s,hs,hd,hv,hok,hout⟩ := @reach_observed State Act step Free (start true)
    [.register ⟨1,5⟩,.register ⟨2,5⟩,.drainVersion,.store [("text/plain",[104])],.drainVersion,.bump,
      .drainVersion,.store [("text/plain",[105])],.dies ⟨2,5⟩]
    (fun s => s.drain=some (1,1) ∧ s.version=1 ∧ Served s .drainContent ∧
      (drainContent s 1).devices.map (fun d => (d.alive,d.offers.map (·.stamp)))=[(true,[2]),(false,[])])
    (fun _ => inferInstance) (meets_free _) (by decide +kernel)
  have ht : step s .drainContent=some (drainContent s 1) := by rw [step,hd]; rfl
  exact ⟨s,_,hs,ht,hv,(clipboard_delivered hs ht hd Nat.one_pos).mpr hok,hout⟩

/-- A device registered after the version was sent has no offer when a drain ends. -/
theorem late_device_not_served : ∃ s,Reach step Free (start true) s ∧
    endOfDrain s .drainVersion=some (1,1) ∧ step s .drainVersion=some s ∧
    ∃ d∈s.devices,d.alive=true ∧ d.offers=[] :=
  free_observed [.store [("text/plain",[104])],.bump,.drainVersion,.drainContent,.register ⟨1,5⟩] (by decide +kernel)

end Waymux.Session.Clipboard
