import Waymux.Session.WindowRequests

/-!
# Consistency of the window registry

As long as a commit registers a layer surface only for a role object that is there.
-/

namespace Waymux.Session.WindowRegistry
open Interleave.Runs Windows WindowRequests List Function

variable {s t : Compositor} {a : Request} {r : Registry} {id k : Nat} {x : Resource} {layers : Resource → LayerData}

def carries (layers : Resource → LayerData) (id : Nat) (o : Role) : Bool :=
  match o.kind with
  | .toplevel k => k=id
  | .layerSurface => (layers o.surface).layerWindowId=some id

def layerOn (x : Resource) (o : Role) : Bool := o.kind=.layerSurface ∧ o.surface=x

def about (id : Nat) (events : List WindowEvent) : List WindowEvent := events.filter (·.id=id)

/-- The maps agree; a window has one live role object, is created once and destroyed when that object is
gone. -/
structure Consistent (s : Compositor) : Prop where
  ids : ∀ id,id∈s.registry.windows ↔ ∃ w∈s.state.windowsById,w.id=id
  toplevels : ∀ id∈s.state.toplevels,id∈s.registry.windows
  role : ∀ id∈s.registry.windows,s.roles.countP (fun o => o.alive && carries s.layers id o)=1
  created : ∀ id∈s.registry.windows,.windowCreated id∈s.registry.events
  story : ∀ id,about id s.registry.events ∈
    [[],[.windowCreated id],[.windowCreated id,.windowDestroyed id]]
  destroyed : ∀ id,.windowCreated id∈s.registry.events →
    (.windowDestroyed id∈s.registry.events ↔ ∀ o∈s.roles,o.alive=true → carries s.layers id o=false)

def Unissued (r : Registry) : Prop := .windowCreated r.nextWindowId∉r.events

/-- Ids are not given out twice; a surface has one layer surface object at a
time; and a commit registers only while there is one. -/
def Attached (s : Compositor) : Request → Prop
  | .getToplevel .. => Unissued s.registry
  | .getLayerSurface x _ => ∀ o∈s.roles,layerOn x o=false
  | .commit x => s.registers x → Unissued s.registry ∧ ∃ o∈s.roles,layerOn x o=true
  | _ => True

instance (r : Registry) : Decidable (Unissued r) :=
  inferInstanceAs (Decidable (.windowCreated r.nextWindowId∉r.events))

instance (s : Compositor) : (a : Request) → Decidable (Attached s a)
  | .getToplevel .. => inferInstanceAs (Decidable (Unissued s.registry))
  | .getLayerSurface x _ => inferInstanceAs (Decidable (∀ o∈s.roles,layerOn x o=false))
  | .commit x => inferInstanceAs (Decidable (s.registers x →
      Unissued s.registry ∧ ∃ o∈s.roles,layerOn x o=true))
  | .setKeyboardInteractivity .. | .destroy _ | .destroyed _ | .getDevice .. | .destroyDevice ..
  | .destroySurface _ | .disconnect _ => .isTrue trivial

/-! ### The window list and its events -/

/-- A window that is there was created, one that is not was never created or
created and destroyed. -/
structure Story (r : Registry) : Prop where
  present : ∀ id∈r.windows,about id r.events=[.windowCreated id]
  absent : ∀ id,id∉r.windows →
    about id r.events=[] ∨ about id r.events=[.windowCreated id,.windowDestroyed id]

theorem mem_about {e : WindowEvent} {events : List WindowEvent} : e∈about e.id events ↔ e∈events := by
  simp [about]

theorem about_append_self (e : WindowEvent) (events : List WindowEvent) :
    about e.id (events++[e])=about e.id events++[e] := by
  simp [about]

theorem about_append_other {e : WindowEvent} (h : id≠e.id) (events : List WindowEvent) :
    about id (events++[e])=about id events := by
  simp [about,Ne.symm h]

theorem Story.created (h : Story r) (hid : id∈r.windows) : .windowCreated id∈r.events := by
  have hm : WindowEvent.windowCreated id∈about id r.events := by
    rw [h.present id hid]
    exact mem_singleton_self _
  exact mem_of_mem_filter hm

theorem mem_addWindow : id∈r.addWindow.windows ↔ id∈r.windows ∨ id=r.nextWindowId := by
  by_cases he : id=r.nextWindowId <;> simp [Registry.addWindow,he]

theorem removeWindow_windows (r : Registry) (k : Nat) : (r.removeWindow k).windows=r.windows.filter (·≠k) := by
  unfold Registry.removeWindow
  by_cases h : k∈r.windows
  · rw [if_pos h]
  · rw [if_neg h,filter_eq_self.mpr]
    intro i hi
    exact decide_eq_true fun he => h (he ▸ hi)

theorem mem_removeWindow : id∈(r.removeWindow k).windows ↔ id∈r.windows ∧ id≠k := by
  rw [removeWindow_windows,mem_filter,decide_eq_true_eq]

theorem created_removeWindow (h : .windowCreated id∈r.events) : .windowCreated id∈(r.removeWindow k).events := by
  unfold Registry.removeWindow
  split
  · exact mem_append_left _ h
  · exact h

theorem Story.addWindow (h : Story r) (hn : Unissued r) : Story r.addWindow := by
  have hnone : about r.nextWindowId r.events=[] := by
    have hw : r.nextWindowId∉r.windows := fun hw => hn (h.created hw)
    refine (h.absent _ hw).resolve_right fun ha => hn (mem_about.mp ?_)
    rw [WindowEvent.id,ha]
    exact mem_cons_self
  have hnew : about r.nextWindowId r.addWindow.events=[.windowCreated r.nextWindowId] := by
    have happ:=about_append_self (.windowCreated r.nextWindowId) r.events
    rw [WindowEvent.id,hnone] at happ
    exact happ
  have hold : ∀ i,i≠r.nextWindowId → about i r.addWindow.events=about i r.events :=
    fun i hi => @about_append_other i (.windowCreated r.nextWindowId) hi r.events
  constructor
  · intro i hi
    by_cases he : i=r.nextWindowId
    · rw [he]
      exact hnew
    · rw [hold i he]
      exact h.present i ((mem_addWindow.mp hi).resolve_right he)
  · intro i hi
    have he : i≠r.nextWindowId := fun he => hi (mem_addWindow.mpr (.inr he))
    rw [hold i he]
    exact h.absent i fun hm => hi (mem_addWindow.mpr (.inl hm))

theorem Story.removeWindow (h : Story r) (k : Nat) : Story (r.removeWindow k) := by
  by_cases hk : k∈r.windows
  · have he : (r.removeWindow k).events=r.events++[WindowEvent.windowDestroyed k] := by
      simp [Registry.removeWindow,hk]
    constructor
    · intro i hi
      obtain ⟨hm,hne⟩ := mem_removeWindow.mp hi
      rw [he,@about_append_other i (.windowDestroyed k) hne]
      exact h.present i hm
    · intro i hi
      by_cases hik : i=k
      · subst hik
        have happ:=about_append_self (.windowDestroyed i) r.events
        rw [WindowEvent.id,h.present i hk] at happ
        rw [he]
        exact .inr happ
      · rw [he,@about_append_other i (.windowDestroyed k) hik]
        exact h.absent i fun hm => hi (mem_removeWindow.mpr ⟨hm,hik⟩)
  · have he : r.removeWindow k=r := if_neg hk
    rw [he]
    exact h

/-! ### The maps -/

structure Maps (r : Registry) (u : State) : Prop where
  ids : r.windows=u.windowsById.map (·.id)
  toplevels : ∀ id∈u.toplevels,id∈r.windows

theorem map_others (windows : List Window) (k : Nat) :
    (windows.filter (·.id≠k)).map (·.id)=(windows.map (·.id)).filter (·≠k) := by
  rw [filter_map]
  rfl

theorem Maps.inserted {u : State} {w : Window} (h : Maps r u) (hid : w.id=r.nextWindowId) :
    Maps r.addWindow (u.inserted w) := by
  constructor
  · have hm:=map_others u.windowsById w.id
    show r.windows.filter (·≠r.nextWindowId)++[r.nextWindowId] =
      (u.windowsById.filter (·.id≠w.id)++[w]).map (·.id)
    rw [map_append,hm,h.ids,hid]
    simp [hid]
  · intro i hi
    exact mem_addWindow.mpr (.inl (h.toplevels i hi))

theorem Maps.registerSurface {u : State} (h : Maps r u) : Maps r.addWindow (u.registerSurface r.nextWindowId x) := by
  have hm : Maps r.addWindow (u.inserted ⟨r.nextWindowId,x,true⟩) := h.inserted rfl
  rw [registerSurface_eq]
  exact ⟨hm.ids,hm.toplevels⟩

theorem Maps.registerToplevel {u : State} (h : Maps r u) (hid : id∈r.windows) : Maps r (u.registerToplevel id) := by
  refine ⟨h.ids,?_⟩
  intro i hi
  rcases mem_append.mp hi with hi | hi
  · exact h.toplevels i (mem_of_mem_filter hi)
  · exact mem_singleton.mp hi ▸ hid

theorem Maps.unregisterSurface {u : State} (h : Maps r u) (k : Nat) :
    Maps (r.removeWindow k) (u.unregisterSurface k) := by
  rw [unregisterSurface_eq]
  constructor
  · rw [removeWindow_windows,h.ids]
    exact (map_others u.windowsById k).symm
  · intro i hi
    obtain ⟨hm,hne⟩ := mem_filter.mp hi
    exact mem_removeWindow.mpr ⟨h.toplevels i hm,of_decide_eq_true hne⟩

/-! ### Roles -/

structure Carried (r : Registry) (layers : Resource → LayerData) (roles : List Role) : Prop where
  one : ∀ id∈r.windows,roles.countP (carries layers id)=1
  /-- a live toplevel has its window -/
  toplevel : ∀ o∈roles,∀ k,o.kind=.toplevel k → o.alive=true → k∈r.windows
  issued : ∀ o∈roles,∀ k,o.kind=.toplevel k → .windowCreated k∈r.events
  /-- a layer surface with a window has its object -/
  layer : ∀ x id,(layers x).layerWindowId=some id → id∈r.windows ∧ ∃ o∈roles,layerOn x o=true
  single : ∀ x,roles.countP (layerOn x)≤1

variable {roles : List Role} {o p : Role}

theorem carries_toplevel (h : o.kind=.toplevel k) : carries layers id o=decide (k=id) := by
  unfold carries
  rw [h]

theorem carries_layer (h : o.kind=.layerSurface) :
    carries layers id o=decide ((layers o.surface).layerWindowId=some id) := by
  unfold carries
  rw [h]

theorem layerOn_iff : layerOn x o=true ↔ o.kind=.layerSurface ∧ o.surface=x := decide_eq_true_iff

theorem carries_update {data : LayerData} (h : (layers x).layerWindowId≠some id)
    (hd : data.layerWindowId≠some id) (o : Role) : carries (update layers x data) id o=carries layers id o := by
  cases hk : o.kind with
  | toplevel => rw [carries_toplevel hk,carries_toplevel hk]
  | layerSurface =>
    rw [carries_layer hk,carries_layer hk]
    by_cases hs : o.surface=x
    · rw [hs,update_self,decide_eq_false h,decide_eq_false hd]
    · rw [update_of_ne hs]

theorem carries_of_layerOn (hl : layerOn x o=true) (hx : (layers x).layerWindowId=some id) :
    carries layers id o=true := by
  obtain ⟨hk,rfl⟩ := layerOn_iff.mp hl
  rw [carries_layer hk,hx,decide_eq_true rfl]

section
variable (h : Carried r layers roles)
include h

theorem Carried.sole (hk : k∈r.windows) (ho : o∈roles)
    (hc : carries layers k o=true) (hp : p∈roles) (hne : p≠o) : carries layers k p=false := by
  have hperm:=(perm_cons_erase ho).countP_eq (carries layers k)
  rw [h.one k hk,countP_cons_of_pos hc] at hperm
  have hzero : (roles.erase o).countP (carries layers k)=0 := by omega
  have hpe : p∈roles.erase o := (mem_erase_of_ne hne).mpr hp
  exact Bool.eq_false_iff.mpr (countP_eq_zero.mp hzero p hpe)

theorem Carried.marked (mark : Role → Bool) :
    Carried r layers (roles.map fun o => if mark o=true then o.dying else o) := by
  have hkind : ∀ o : Role,(if mark o=true then o.dying else o).kind=o.kind := by
    intro o
    split <;> rfl
  have hsurface : ∀ o : Role,(if mark o=true then o.dying else o).surface=o.surface := by
    intro o
    split <;> rfl
  have halive : ∀ o : Role,(if mark o=true then o.dying else o).alive=true → o.alive=true := by
    intro o
    split
    · nofun
    · exact id
  have hcarries : ∀ id,carries layers id ∘ (fun o => if mark o=true then o.dying else o)=carries layers id := by
    intro id
    funext o
    simp [Function.comp,carries,hkind,hsurface]
  have hlayer : ∀ x,layerOn x ∘ (fun o => if mark o=true then o.dying else o)=layerOn x := by
    intro x
    funext o
    simp [Function.comp,layerOn,hkind,hsurface]
  refine ⟨?_,?_,?_,?_,?_⟩
  · intro id hid
    rw [countP_map,hcarries]
    exact h.one id hid
  · intro o' ho' k hk ha
    obtain ⟨o,ho,rfl⟩ := mem_map.mp ho'
    exact h.toplevel o ho k ((hkind o).symm.trans hk) (halive o ha)
  · intro o' ho' k hk
    obtain ⟨o,ho,rfl⟩ := mem_map.mp ho'
    exact h.issued o ho k ((hkind o).symm.trans hk)
  · intro x id hx
    obtain ⟨hid,o,ho,hl⟩ := h.layer x id hx
    exact ⟨hid,_,mem_map_of_mem ho,(congrFun (hlayer x) o).trans hl⟩
  · intro x
    rw [countP_map,hlayer]
    exact h.single x

theorem Carried.erased (ho : o∈roles) (hc : ∀ id∈r.windows,carries layers id o=false)
    (hl : ∀ x,layerOn x o=true → (layers x).layerWindowId=none) : Carried r layers (roles.erase o) := by
  refine ⟨?_,?_,?_,?_,?_⟩
  · intro id hid
    have hperm:=(perm_cons_erase ho).countP_eq (carries layers id)
    rw [h.one id hid,countP_cons_of_neg (by simp [hc id hid])] at hperm
    exact hperm.symm
  · intro p hp
    exact h.toplevel p (mem_of_mem_erase hp)
  · intro p hp
    exact h.issued p (mem_of_mem_erase hp)
  · intro x id hx
    obtain ⟨hid,p,hp,hlp⟩ := h.layer x id hx
    have hne : p≠o := by
      intro he
      rw [hl x (he ▸ hlp)] at hx
      cases hx
    exact ⟨hid,p,(mem_erase_of_ne hne).mpr hp,hlp⟩
  · intro x
    exact Nat.le_trans (List.Sublist.countP_le erase_sublist) (h.single x)

/-- A window that another object carries stays. -/
theorem Carried.kept (ho : o∈roles) (hself : carries layers k o=true) (hid : id∈r.windows) (hp : p∈roles)
    (hc : carries layers id p=true) (hne : p≠o) : id∈(r.removeWindow k).windows := by
  refine mem_removeWindow.mpr ⟨hid,?_⟩
  rintro rfl
  rw [h.sole hid ho hself hp hne] at hc
  cases hc

theorem Carried.closeToplevel (ho : o∈roles) (hk : o.kind=.toplevel k)
    (hd : o.alive=false) : Carried (r.removeWindow k) layers roles := by
  have hself : carries layers k o=true := (carries_toplevel hk).trans (decide_eq_true rfl)
  refine ⟨?_,?_,?_,?_,h.single⟩
  · intro id hid
    exact h.one id (mem_removeWindow.mp hid).1
  · intro p hp j hj ha
    refine h.kept ho hself (h.toplevel p hp j hj ha) hp ((carries_toplevel hj).trans (decide_eq_true rfl)) ?_
    rintro rfl
    simp [hd] at ha
  · intro p hp j hj
    exact created_removeWindow (h.issued p hp j hj)
  · intro x id hx
    obtain ⟨hid,p,hp,hl⟩ := h.layer x id hx
    refine ⟨h.kept ho hself hid hp (carries_of_layerOn hl hx) ?_,p,hp,hl⟩
    rintro rfl
    simp [layerOn_iff,hk] at hl

theorem Carried.closeLayer (ho : o∈roles) (hl : layerOn x o=true)
    (hx : (layers x).layerWindowId=some k) (data : LayerData) (hn : data.layerWindowId=none) :
    Carried (r.removeWindow k) (update layers x data) roles := by
  obtain ⟨hok,hos⟩ := layerOn_iff.mp hl
  have hself : carries layers k o=true := carries_of_layerOn hl hx
  have hsame : ∀ id,id≠k → ∀ p,carries (update layers x data) id p=carries layers id p := by
    intro id hid
    apply carries_update
    · simpa [hx] using Ne.symm hid
    · simp [hn]
  refine ⟨?_,?_,?_,?_,h.single⟩
  · intro id hid
    obtain ⟨hm,hne⟩ := mem_removeWindow.mp hid
    rw [countP_congr fun p _ => by rw [hsame id hne p]]
    exact h.one id hm
  · intro p hp j hj ha
    refine h.kept ho hself (h.toplevel p hp j hj ha) hp ((carries_toplevel hj).trans (decide_eq_true rfl)) ?_
    rintro rfl
    simp [hok] at hj
  · intro p hp j hj
    exact created_removeWindow (h.issued p hp j hj)
  · intro y id hy
    by_cases hyx : y=x
    · rw [hyx,update_self,hn] at hy
      cases hy
    · rw [update_of_ne hyx] at hy
      obtain ⟨hid,p,hp,hlp⟩ := h.layer y id hy
      refine ⟨h.kept ho hself hid hp (carries_of_layerOn hlp hy) ?_,p,hp,hlp⟩
      rintro rfl
      exact hyx ((layerOn_iff.mp hlp).2.symm.trans hos)

theorem Carried.not_next (hs : Story r) (hn : Unissued r) (ho : o∈roles) :
    carries layers r.nextWindowId o=false := by
  cases hk : o.kind with
  | toplevel k =>
    rw [carries_toplevel hk]
    exact decide_eq_false fun he => hn (he ▸ h.issued o ho k hk)
  | layerSurface =>
    rw [carries_layer hk]
    exact decide_eq_false fun he => hn (hs.created (h.layer _ _ he).1)

theorem Carried.addToplevel (hs : Story r) (hn : Unissued r) (resource x : Resource) :
    Carried r.addWindow layers (⟨.toplevel r.nextWindowId,resource,x,true⟩::roles) := by
  refine ⟨?_,?_,?_,?_,?_⟩
  · intro id hid
    by_cases he : id=r.nextWindowId
    · subst he
      have hzero : roles.countP (carries layers r.nextWindowId)=0 :=
        countP_eq_zero.mpr fun o ho => by simp [h.not_next hs hn ho]
      rw [countP_cons_of_pos (by simp [carries]),hzero]
    · rw [countP_cons_of_neg (by simp [carries,Ne.symm he])]
      exact h.one id ((mem_addWindow.mp hid).resolve_right he)
  · intro o ho k hk ha
    rcases mem_cons.mp ho with rfl | ho
    · exact mem_addWindow.mpr (.inr (RoleKind.toplevel.inj hk).symm)
    · exact mem_addWindow.mpr (.inl (h.toplevel o ho k hk ha))
  · intro o ho k hk
    rcases mem_cons.mp ho with rfl | ho
    · rw [← RoleKind.toplevel.inj hk]
      exact mem_append_right _ (mem_singleton_self _)
    · exact mem_append_left _ (h.issued o ho k hk)
  · intro y id hy
    obtain ⟨hid,o,ho,hl⟩ := h.layer y id hy
    exact ⟨mem_addWindow.mpr (.inl hid),o,mem_cons_of_mem _ ho,hl⟩
  · intro y
    rw [countP_cons_of_neg (by simp [layerOn])]
    exact h.single y

theorem Carried.addLayer (hx : ∀ o∈roles,layerOn x o=false)
    (resource : Resource) : Carried r layers (⟨.layerSurface,resource,x,true⟩::roles) := by
  have hnone : (layers x).layerWindowId=none := by
    cases hi : (layers x).layerWindowId with
    | none => rfl
    | some id =>
      obtain ⟨_,o,ho,hl⟩ := h.layer x id hi
      rw [hx o ho] at hl
      cases hl
  refine ⟨?_,?_,?_,?_,?_⟩
  · intro id hid
    rw [countP_cons_of_neg (by simp [carries,hnone])]
    exact h.one id hid
  · intro o ho k hk
    rcases mem_cons.mp ho with rfl | ho
    · cases hk
    · exact h.toplevel o ho k hk
  · intro o ho k hk
    rcases mem_cons.mp ho with rfl | ho
    · cases hk
    · exact h.issued o ho k hk
  · intro y id hy
    obtain ⟨hid,o,ho,hl⟩ := h.layer y id hy
    exact ⟨hid,o,mem_cons_of_mem _ ho,hl⟩
  · intro y
    by_cases hyx : y=x
    · subst hyx
      have hzero : roles.countP (layerOn y)=0 := countP_eq_zero.mpr fun o ho => by simp [hx o ho]
      rw [countP_cons_of_pos (by simp [layerOn])]
      omega
    · rw [countP_cons_of_neg (by simp [layerOn,Ne.symm hyx])]
      exact h.single y

theorem Carried.registerLayer (hs : Story r) (hn : Unissued r)
    (hx : (layers x).layerWindowId=none) (ho : ∃ o∈roles,layerOn x o=true) (data : LayerData)
    (hd : data.layerWindowId=some r.nextWindowId) : Carried r.addWindow (update layers x data) roles := by
  have hold : ∀ id,id≠r.nextWindowId → ∀ p,
      carries (update layers x data) id p=carries layers id p := by
    intro id hid
    apply carries_update
    · simp [hx]
    · simpa [hd] using Ne.symm hid
  -- the objects of the new window are those of the surface
  have hnew : ∀ p∈roles,carries (update layers x data) r.nextWindowId p=layerOn x p := by
    intro p hp
    have hp':=h.not_next hs hn hp
    cases hk : p.kind with
    | toplevel =>
      rw [carries_toplevel hk] at hp' ⊢
      rw [hp']
      simp [layerOn,hk]
    | layerSurface =>
      rw [carries_layer hk] at hp' ⊢
      by_cases hps : p.surface=x
      · simp [hps,hd,layerOn,hk]
      · rw [update_of_ne hps,hp']
        simp [layerOn,hps]
  refine ⟨?_,?_,?_,?_,h.single⟩
  · intro id hid
    by_cases he : id=r.nextWindowId
    · subst he
      have hpos : 0<roles.countP (layerOn x) := countP_pos_iff.mpr ho
      have hle:=h.single x
      rw [countP_congr fun p hp => by rw [hnew p hp]]
      omega
    · rw [countP_congr fun p _ => by rw [hold id he p]]
      exact h.one id ((mem_addWindow.mp hid).resolve_right he)
  · intro p hp k hk ha
    exact mem_addWindow.mpr (.inl (h.toplevel p hp k hk ha))
  · intro p hp k hk
    exact mem_append_left _ (h.issued p hp k hk)
  · intro y id hy
    by_cases hyx : y=x
    · subst hyx
      rw [update_self,hd] at hy
      exact ⟨mem_addWindow.mpr (.inr (Option.some.inj hy).symm),ho⟩
    · rw [update_of_ne hyx] at hy
      obtain ⟨hid,p,hp,hl⟩ := h.layer y id hy
      exact ⟨mem_addWindow.mpr (.inl hid),p,hp,hl⟩

theorem Carried.relabelled {data : LayerData} (hd : data.layerWindowId=(layers x).layerWindowId) :
    Carried r (update layers x data) roles := by
  have hw : ∀ y,(update layers x data y).layerWindowId=(layers y).layerWindowId := by
    intro y
    by_cases hy : y=x
    · rw [hy,update_self,hd]
    · rw [update_of_ne hy]
  have hc : ∀ id,carries (update layers x data) id=carries layers id := by
    intro id
    funext o
    simp [carries,hw]
  refine ⟨?_,h.toplevel,h.issued,?_,h.single⟩
  · intro id hid
    rw [hc]
    exact h.one id hid
  · intro y id hy
    exact h.layer y id ((hw y).symm.trans hy)

end

/-! ### Requests -/

structure Inv (s : Compositor) : Prop where
  maps : Maps s.registry s.state
  story : Story s.registry
  carried : Carried s.registry s.layers s.roles

theorem getToplevel_inv (hi : Inv s) (hn : Unissued s.registry) (resource : Resource) :
    Inv (s.getToplevel x resource) := by
  have hmem : s.registry.nextWindowId∈s.registry.addWindow.windows := mem_addWindow.mpr (.inr rfl)
  exact ⟨hi.maps.registerSurface.registerToplevel hmem,hi.story.addWindow hn,
    hi.carried.addToplevel hi.story hn resource x⟩

theorem getLayerSurface_inv (hi : Inv s) (hx : ∀ o∈s.roles,layerOn x o=false) (resource : Resource) :
    Inv (s.getLayerSurface x resource) := by
  have hr : Carried s.registry (update s.layers x {s.layers x with isLayerSurface := true}) s.roles :=
    hi.carried.relabelled rfl
  exact ⟨hi.maps,hi.story,hr.addLayer hx resource⟩

theorem commit_inv (hi : Inv s) (h : Attached s (.commit x)) : Inv (s.commit x) := by
  unfold Compositor.commit
  by_cases hr : s.registers x
  · obtain ⟨hn,ho⟩ := h hr
    rw [if_pos hr]
    refine ⟨?_,hi.story.addWindow hn,hi.carried.registerLayer hi.story hn hr.2 ho _ rfl⟩
    unfold Compositor.registerLayer
    by_cases hk : (s.layers x).keyboardInteractivity=1
    · simp only [if_pos hk]
      exact hi.maps.registerSurface
    · simp only [if_neg hk]
      exact hi.maps.inserted rfl
  · rw [if_neg hr]
    exact hi

theorem closeRole_roles (o : Role) : (s.closeRole o).roles=s.roles := by
  unfold Compositor.closeRole
  cases o.kind with
  | toplevel => rfl
  | layerSurface =>
    unfold Compositor.closeLayer
    dsimp only
    cases (s.layers o.surface).layerWindowId <;> rfl

structure Released (s : Compositor) (o : Role) : Prop where
  window : ∀ id∈s.registry.windows,carries s.layers id o=false
  layer : ∀ x,layerOn x o=true → (s.layers x).layerWindowId=none

theorem closeRole_inv (hi : Inv s) (ho : o∈s.roles) (hd : o.alive=false) :
    Inv (s.closeRole o) ∧ Released (s.closeRole o) o := by
  cases hk : o.kind with
  | toplevel k =>
    rw [closeRole_toplevel hk]
    refine ⟨⟨hi.maps.unregisterSurface k,hi.story.removeWindow k,hi.carried.closeToplevel ho hk hd⟩,?_,?_⟩
    · intro id hid
      rw [carries_toplevel hk]
      exact decide_eq_false (mem_removeWindow.mp hid).2.symm
    · intro x hl
      have hkind:=(layerOn_iff.mp hl).1
      rw [hk] at hkind
      cases hkind
  | layerSurface =>
    have hl : layerOn o.surface o=true := layerOn_iff.mpr ⟨hk,rfl⟩
    rw [closeRole_layer hk]
    cases hw : (s.layers o.surface).layerWindowId with
    | none =>
      rw [closeLayer_none hw]
      refine ⟨hi,?_,?_⟩
      · intro id _
        rw [carries_layer hk,hw]
        rfl
      · intro x hx
        rw [← (layerOn_iff.mp hx).2]
        exact hw
    | some k =>
      rw [closeLayer_some hw]
      refine ⟨⟨hi.maps.unregisterSurface k,hi.story.removeWindow k,hi.carried.closeLayer ho hl hw _ rfl⟩,?_,?_⟩
      · intro id _
        rw [carries_layer hk]
        simp [Compositor.close,Compositor.setLayer]
      · intro x hx
        rw [← (layerOn_iff.mp hx).2]
        simp [Compositor.close,Compositor.setLayer]

theorem destroy_eq (s : Compositor) (o : Role) :
    s.destroy o={s with roles := s.roles.map fun p => if p=o then p.dying else p}.closeRole o.dying := by
  unfold Compositor.destroy Compositor.closeRole Role.dying
  dsimp only
  cases o.kind with
  | toplevel => rfl
  | layerSurface =>
    unfold Compositor.closeLayer
    dsimp only
    cases (s.layers o.surface).layerWindowId <;> rfl

theorem destroy_inv (hi : Inv s) (ho : o∈s.roles) : Inv (s.destroy o) := by
  have hmark : Carried s.registry s.layers (s.roles.map fun p => if p=o then p.dying else p) := by
    have hm:=hi.carried.marked fun p => decide (p=o)
    simpa only [decide_eq_true_eq] using hm
  have hmem : o.dying∈s.roles.map fun p => if p=o then p.dying else p :=
    mem_map.mpr ⟨o,ho,if_pos rfl⟩
  rw [destroy_eq]
  refine (closeRole_inv ?_ hmem rfl).1
  exact ⟨hi.maps,hi.story,hmark⟩

theorem destroyed_inv (hi : Inv s) (ho : o∈s.roles) (hd : o.alive=false) : Inv (s.destroyed o) := by
  obtain ⟨hc,hr⟩ := closeRole_inv hi ho hd
  have hcarried:=hc.carried
  rw [closeRole_roles] at hcarried
  exact ⟨hc.maps,hc.story,hcarried.erased ho hr.window hr.layer⟩

theorem disconnect_inv (hi : Inv s) (client : Nat) : Inv (s.disconnect client) := by
  have hmark : Carried s.registry s.layers
      (s.roles.map fun p => if p.resource.client=client then p.dying else p) := by
    have hm:=hi.carried.marked fun p => decide (p.resource.client=client)
    simpa only [decide_eq_true_eq] using hm
  exact ⟨⟨hi.maps.ids,hi.maps.toplevels⟩,hi.story,hmark⟩

theorem inv_step (hi : Inv s) (hok : Attached s a) (h : step s a=some t) : Inv t := by
  cases a with
  | getToplevel x resource =>
    obtain ⟨_,⟨⟩⟩ := Option.ite_none_right_eq_some.mp h
    exact getToplevel_inv hi hok resource
  | getLayerSurface x resource =>
    obtain ⟨_,⟨⟩⟩ := Option.ite_none_right_eq_some.mp h
    exact getLayerSurface_inv hi hok resource
  | setKeyboardInteractivity =>
    obtain ⟨_,⟨⟩⟩ := Option.ite_none_right_eq_some.mp h
    exact ⟨hi.maps,hi.story,hi.carried.relabelled rfl⟩
  | commit =>
    obtain ⟨_,⟨⟩⟩ := Option.ite_none_right_eq_some.mp h
    exact commit_inv hi hok
  | destroy =>
    obtain ⟨⟨_,ho⟩,⟨⟩⟩ := Option.ite_none_right_eq_some.mp h
    exact destroy_inv hi ho
  | destroyed =>
    obtain ⟨⟨ho,hd⟩,⟨⟩⟩ := Option.ite_none_right_eq_some.mp h
    exact destroyed_inv hi ho hd
  | getDevice =>
    obtain ⟨_,⟨⟩⟩ := Option.ite_none_right_eq_some.mp h
    exact ⟨⟨hi.maps.ids,hi.maps.toplevels⟩,hi.story,hi.carried⟩
  | disconnect client =>
    obtain ⟨_,⟨⟩⟩ := Option.ite_none_right_eq_some.mp h
    exact disconnect_inv hi client
  | _ =>
    cases h
    exact ⟨⟨hi.maps.ids,hi.maps.toplevels⟩,hi.story,hi.carried⟩

theorem inv_start : Inv start := by
  refine ⟨⟨rfl,nofun⟩,⟨nofun,?_⟩,⟨nofun,nofun,nofun,nofun,fun _ => Nat.zero_le 1⟩⟩
  intro id _
  exact .inl rfl

/-! ### Between requests -/

theorem Inv.destroyed (hi : Inv s) (hs : Settled s) (hc : .windowCreated id∈s.registry.events) :
    .windowDestroyed id∈s.registry.events ↔ ∀ o∈s.roles,o.alive=true → carries s.layers id o=false := by
  by_cases hid : id∈s.registry.windows
  · -- its object is there
    have hpos : 0<s.roles.countP (carries s.layers id) := by
      rw [hi.carried.one id hid]
      exact Nat.one_pos
    obtain ⟨o,ho,hco⟩ := countP_pos_iff.mp hpos
    constructor
    · intro hd
      have hm : .windowDestroyed id∈about id s.registry.events := mem_about.mpr hd
      rw [hi.story.present id hid] at hm
      simp at hm
    · intro h
      rw [h o ho (hs o ho)] at hco
      cases hco
  · constructor
    · intro _ o ho ha
      cases hk : o.kind with
      | toplevel k =>
        rw [carries_toplevel hk]
        exact decide_eq_false fun he => hid (he ▸ hi.carried.toplevel o ho k hk ha)
      | layerSurface =>
        rw [carries_layer hk]
        exact decide_eq_false fun he => hid (hi.carried.layer _ _ he).1
    · intro _
      have hm : .windowCreated id∈about id s.registry.events := mem_about.mpr hc
      rcases hi.story.absent id hid with ha | ha
      · rw [ha] at hm
        cases hm
      · have hd : .windowDestroyed id∈about id s.registry.events := by simp [ha]
        exact mem_about.mp hd

theorem Inv.consistent (hi : Inv s) (hs : Settled s) : Consistent s := by
  refine ⟨?_,hi.maps.toplevels,?_,fun id hid => hi.story.created hid,?_,fun id hc => hi.destroyed hs hc⟩
  · intro id
    rw [hi.maps.ids,mem_map]
  · intro id hid
    rw [countP_congr fun o ho => by rw [hs o ho,Bool.true_and]]
    exact hi.carried.one id hid
  · intro id
    by_cases hid : id∈s.registry.windows
    · simp [hi.story.present id hid]
    · rcases hi.story.absent id hid with h | h <;> simp [h]

/-- Between requests, in a run in which every layer window is registered for an
object that is there. -/
theorem registry_consistent (h : Reach WindowRequests.step Attached WindowRequests.start s)
    (hs : Settled s) : Consistent s := by
  have hi : Inv s := h.keeps inv_start inv_step
  exact hi.consistent hs

/-- A toplevel and a panel; the toplevel is destroyed, the panel's client goes. -/
theorem registry_after_close_and_disconnect : ∃ s,Reach WindowRequests.step Attached WindowRequests.start s ∧
    s.registry.events=[.windowCreated 1,.windowCreated 2,.windowDestroyed 1,.windowDestroyed 2] ∧
    s.registry.windows=[] ∧ Settled s ∧ Consistent s := by
  have hr : Reach WindowRequests.step Attached WindowRequests.start _ := reach_exec
    [.getToplevel ⟨1,1⟩ ⟨1,2⟩,.getLayerSurface ⟨2,1⟩ ⟨2,2⟩,.commit ⟨2,1⟩,
      .destroy ⟨.toplevel 1,⟨1,2⟩,⟨1,1⟩,true⟩,.destroyed ⟨.toplevel 1,⟨1,2⟩,⟨1,1⟩,false⟩,
      .disconnect 2,.destroyed ⟨.layerSurface,⟨2,2⟩,⟨2,1⟩,false⟩]
    (meets_decided (by decide +kernel)) (by decide +kernel)
  refine ⟨_,hr,?_,?_,?_,registry_consistent hr ?_⟩ <;> decide +kernel

/-- A panel is destroyed and its surface committed once more: a window that no
role object is behind. -/
theorem window_without_role : ∃ s,Reach WindowRequests.step Free WindowRequests.start s ∧ Settled s ∧
    s.registry.windows=[2] ∧ s.roles=[] ∧ ¬ Consistent s := by
  have hr : Reach WindowRequests.step Free WindowRequests.start _ := reach_free
    [.getLayerSurface ⟨1,1⟩ ⟨1,2⟩,.commit ⟨1,1⟩,.destroy ⟨.layerSurface,⟨1,2⟩,⟨1,1⟩,true⟩,
      .destroyed ⟨.layerSurface,⟨1,2⟩,⟨1,1⟩,false⟩,.commit ⟨1,1⟩] (by decide +kernel)
  refine ⟨_,hr,?_,?_,?_,fun hc => absurd (hc.role 2 ?_) ?_⟩ <;> decide +kernel

end Waymux.Session.WindowRegistry
