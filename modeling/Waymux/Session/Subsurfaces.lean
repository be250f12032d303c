import Waymux.Trees.Forest
import Waymux.Session.Windows
import Mathlib.Data.List.InsertIdx
import Mathlib.Data.List.Perm.Basic
import Mathlib.Data.Finset.Dedup

/-!
# Subsurfaces (`compositor.rs`) and the walk over them (`composite.rs`)

The handlers of `wl_subcompositor` and `wl_subsurface` edit the lists of children over which
`composite_into` recurses.
-/

namespace Waymux.Session.Subsurfaces
open Interleave.Runs Trees.Forest Relation Option List
open Windows (Resource)

/-- `SubsurfaceChild`: the offset is relative to the parent. -/
structure Child where
  surface : Resource
  x : Int
  y : Int
deriving DecidableEq

/-- The data stays when the object is destroyed: subsurface objects and children lists still hold it. -/
structure Surface where
  resource : Resource
  live : Bool
  children : List Child
deriving DecidableEq

/-- A live `wl_subsurface` with its `SubsurfaceData`. -/
structure Subsurface where
  resource : Resource
  surface : Resource
  parent : Resource
deriving DecidableEq

structure State where
  surfaces : List Surface
  subsurfaces : List Subsurface
  /-- clients that have disconnected -/
  gone : List Nat

def start : State := ⟨[],[],[]⟩

variable {s t : State}

def State.find (s : State) (r : Resource) : Option Surface := s.surfaces.find? (·.resource=r)

def State.childrenOf (s : State) (r : Resource) : List Child := ((s.find r).map (·.children)).getD []

def State.subsurface (s : State) (id : Resource) : Option Subsurface := s.subsurfaces.find? (·.resource=id)

def State.nameable (s : State) (r : Resource) : Bool := (s.find r).any (·.live) && decide (r.client∉s.gone)

def State.editChildren (s : State) (parent : Resource) (f : List Child → List Child) : State :=
  {s with surfaces := s.surfaces.map fun u =>
      if u.resource=parent then {u with children := f u.children} else u}

/-- The first entry of the surface gets the position. -/
def moved (surface : Resource) (x y : Int) : List Child → List Child
  | [] => []
  | c::cs => if c.surface=surface then ⟨c.surface,x,y⟩::cs else c::moved surface x y cs

def pruned (surface : Resource) (children : List Child) : List Child := children.filter (·.surface≠surface)

/-- The first entry of the surface is taken out and put back at an index of the
list without it. -/
def restacked (surface : Resource) (place : List Child → Nat) (children : List Child) : List Child :=
  match children.find? (·.surface=surface) with
  | none => children
  | some child =>
    let rest:=children.eraseP (·.surface=surface)
    rest.insertIdx (place rest) child

/-- A sibling that is not found counts as the top. -/
def aboveIndex (parent sibling : Resource) (rest : List Child) : Nat :=
  if sibling=parent then rest.length
  else ((rest.findIdx? (·.surface=sibling)).map (·+1)).getD rest.length

/-- A sibling that is not found counts as the bottom. -/
def belowIndex (parent sibling : Resource) (rest : List Child) : Nat :=
  if sibling=parent then 0 else (rest.findIdx? (·.surface=sibling)).getD 0

def State.createSurface (s : State) (r : Resource) : State :=
  {s with surfaces := s.surfaces++[⟨r,true,[]⟩]}

def State.destroySurface (s : State) (r : Resource) : State :=
  {s with surfaces := s.surfaces.map fun u => if u.resource=r then {u with live := false} else u}

def State.getSubsurface (s : State) (sub : Subsurface) : State :=
  {s.editChildren sub.parent (·++[⟨sub.surface,0,0⟩]) with subsurfaces := s.subsurfaces++[sub]}

def State.subsurfaceDestroyed (s : State) (sub : Subsurface) : State :=
  {s.editChildren sub.parent (pruned sub.surface) with
    subsurfaces := s.subsurfaces.filter (·.resource≠sub.resource)}

inductive Request
  | createSurface (surface : Resource)
  | destroySurface (surface : Resource)
  | getSubsurface (id surface parent : Resource)
  | setPosition (id : Resource) (x y : Int)
  | placeAbove (id sibling : Resource)
  | placeBelow (id sibling : Resource)
  | destroy (id : Resource)
  | disconnect (client : Nat)
  /-- the callback for an object of a client that has disconnected -/
  | destroyed (id : Resource)

/-- A request names live objects of its own client; an object is never made twice. -/
def step (s : State) : Request → Option State
  | .createSurface r =>
    if (s.find r).isSome ∨ r.client∈s.gone then none else some (s.createSurface r)
  | .destroySurface r => some (s.destroySurface r)
  | .getSubsurface id surface parent =>
    if s.nameable surface ∧ s.nameable parent ∧ surface.client=id.client ∧ parent.client=id.client ∧
        (s.subsurface id).isNone then some (s.getSubsurface ⟨id,surface,parent⟩)
    else none
  | .setPosition id x y => do
    let sub ← s.subsurface id
    if id.client∈s.gone then none else some (s.editChildren sub.parent (moved sub.surface x y))
  | .placeAbove id sibling => do
    let sub ← s.subsurface id
    if s.nameable sibling ∧ sibling.client=id.client then
      some (s.editChildren sub.parent (restacked sub.surface (aboveIndex sub.parent sibling)))
    else none
  | .placeBelow id sibling => do
    let sub ← s.subsurface id
    if s.nameable sibling ∧ sibling.client=id.client then
      some (s.editChildren sub.parent (restacked sub.surface (belowIndex sub.parent sibling)))
    else none
  | .destroy id => do
    let sub ← s.subsurface id
    if id.client∈s.gone then none
    else some ((s.editChildren sub.parent (pruned sub.surface)).subsurfaceDestroyed sub)
  | .disconnect client => some {s with gone := client::s.gone}
  | .destroyed id => do
    let sub ← s.subsurface id
    if id.client∈s.gone then some (s.subsurfaceDestroyed sub) else none

/-- Offsets are `i32`. -/
def shift (offset : Int × Int) (c : Child) : Int × Int :=
  (Int.bmod (offset.1+c.x) 0x100000000,Int.bmod (offset.2+c.y) 0x100000000)

/-- What drawing one surface does to the destination is a parameter. -/
def State.compositeInto {δ : Type} (s : State) (blit : δ → Resource → Int × Int → δ) :
    Nat → δ → Resource → Int × Int → Option δ :=
  traverse Child.surface s.childrenOf shift blit

def State.tree (s : State) : Resource → List Resource := graph Child.surface s.childrenOf

def surfacesOf (children : List Child) : List Resource := children.map (·.surface)

theorem moved_surfaces (surface : Resource) (x y : Int) (children : List Child) :
    surfacesOf (moved surface x y children)=surfacesOf children := by
  induction children with
  | nil => rfl
  | cons c cs ih =>
    by_cases h : c.surface=surface
    · rw [moved,if_pos h]
      rfl
    · rw [moved,if_neg h]
      exact congrArg (c.surface::·) ih

variable {surface sibling r parent : Resource} {u : Surface} {sub : Subsurface} {children : List Child}

theorem split_at (h : r∈surfacesOf children) : ∃ front c back,children=front++c::back ∧ c.surface=r ∧
    children.find? (·.surface=r)=some c ∧ children.findIdx? (·.surface=r)=some front.length ∧
    children.eraseP (·.surface=r)=front++back := by
  induction children with
  | nil => cases h
  | cons a children ih =>
    by_cases ha : a.surface=r
    · exact ⟨[],a,children,rfl,ha,by simp [ha],by simp [findIdx?_cons,ha],by simp [ha]⟩
    · obtain ⟨front,c,back,rfl,hc,hfind,hidx,herase⟩ := ih ((mem_cons.mp h).resolve_left (Ne.symm ha))
      refine ⟨a::front,c,back,rfl,hc,?_,?_,?_⟩
      · rw [find?_cons_of_neg (by simp [ha]),hfind]
      · rw [findIdx?_cons,hidx]
        simp [ha]
      · rw [eraseP_cons_of_neg (by simp [ha]),herase]
        rfl

theorem restacked_perm {place : List Child → Nat} (hp : ∀ rest,place rest≤rest.length) (children : List Child) :
    (restacked surface place children).Perm children := by
  unfold restacked
  split
  · exact .refl _
  · rename_i child hfind
    have hs : child.surface=surface := by simpa using find?_some hfind
    have hmem : surface∈surfacesOf children := mem_map.mpr ⟨child,mem_of_find?_eq_some hfind,hs⟩
    obtain ⟨front,c,back,rfl,-,hc,-,herase⟩ := split_at hmem
    cases hfind.symm.trans hc
    rw [herase]
    exact (perm_insertIdx child (front++back) (hp _)).trans perm_middle.symm

/-- The list with the child directly above or below another child. -/
def Beside (above : Bool) (surface sibling : Resource) (children out : List Child) : Prop :=
  ∃ child l p r,child∈children ∧ child.surface=surface ∧ p.surface=sibling ∧ pruned surface children=l++p::r ∧
    out=if above then l++p::child::r else l++child::p::r

theorem insertIdx_between (l r : List Child) (c : Child) : (l++r).insertIdx l.length c=l++c::r := by
  induction l with
  | nil => rfl
  | cons a l ih => exact congrArg (a::·) ih

/-- What `place_above` and `place_below` ask for. Children are drawn after their parent, so no list of them has one
below it. -/
def Placed (above : Bool) (parent surface sibling : Resource) (children out : List Child) : Prop :=
  if surface∉surfacesOf children then out=children
  else if sibling=parent then
    above=true ∧ ∃ child∈children,child.surface=surface ∧ out=child::pruned surface children
  else if sibling∈surfacesOf children ∧ sibling≠surface then Beside above surface sibling children out
  else out=children

def placeIndex (above : Bool) (parent sibling : Resource) : List Child → Nat :=
  if above then aboveIndex parent sibling else belowIndex parent sibling

/-- The child goes where the request asks for it: another child is the reference, or it is there already. -/
def Settled (above : Bool) (parent surface sibling : Resource) (children : List Child) : Prop :=
  if sibling=parent then above=true ∧ children.length=1
  else sibling∈surfacesOf children ∧ sibling≠surface ∨
    (if above then (surfacesOf children).getLast? else (surfacesOf children).head?)=some surface

/-- A child in its list, which has no other entry of the surface. -/
structure At (front : List Child) (child : Child) (back : List Child) : Prop where
  front : child.surface∉surfacesOf front
  back : child.surface∉surfacesOf back

theorem restacked_at (hn : (surfacesOf children).Nodup) (hs : surface∈surfacesOf children) :
    ∃ front child back,children=front++child::back ∧ child.surface=surface ∧ At front child back ∧
      pruned surface children=front++back ∧
      ∀ place,restacked surface place children=(front++back).insertIdx (place (front++back)) child := by
  obtain ⟨front,child,back,rfl,rfl,hfind,-,herase⟩ := split_at hs
  have hmid : (surfacesOf front++child.surface::surfacesOf back).Nodup := by simpa [surfacesOf] using hn
  have hout : child.surface∉surfacesOf front ∧ child.surface∉surfacesOf back := by
    simpa using (nodup_cons.mp (nodup_middle.mp hmid)).1
  refine ⟨front,child,back,rfl,rfl,⟨hout.1,hout.2⟩,?_,fun place => ?_⟩
  · unfold pruned
    rw [filter_append,filter_cons_of_neg (by simp),← filter_append,filter_eq_self]
    intro c hc
    refine decide_eq_true fun he => ?_
    rcases mem_append.mp hc with hc | hc
    · exact hout.1 (mem_map.mpr ⟨c,hc,he⟩)
    · exact hout.2 (mem_map.mpr ⟨c,hc,he⟩)
  · rw [restacked,hfind,herase]

variable {front back : List Child} {child : Child}

theorem mem_rest (hne : sibling≠child.surface) :
    sibling∈surfacesOf (front++child::back) ↔ sibling∈surfacesOf (front++back) := by
  simp [surfacesOf,hne]

theorem placeIndex_beside (above : Bool) (hp : sibling≠parent)
    (hsib : sibling∈surfacesOf (front++back)) : ∃ l p r,front++back=l++p::r ∧ p.surface=sibling ∧
      (front++back).insertIdx (placeIndex above parent sibling (front++back)) child =
        if above then l++p::child::r else l++child::p::r := by
  obtain ⟨l,p,r,hlr,rfl,-,hidx,-⟩ := split_at hsib
  refine ⟨l,p,r,hlr,rfl,?_⟩
  rw [hlr] at hidx ⊢
  cases above with
  | true =>
    have hup:=insertIdx_between (l++[p]) r child
    simpa [placeIndex,aboveIndex,hp,hidx] using hup
  | false => simpa [placeIndex,belowIndex,hp,hidx] using insertIdx_between l (p::r) child

/-- With no such sibling the child goes to the top or to the bottom. -/
theorem placeIndex_end {rest : List Child} (above : Bool)
    (h : sibling=parent ∨ sibling∉surfacesOf rest) :
    rest.insertIdx (placeIndex above parent sibling rest) child=if above then rest++[child] else child::rest := by
  have hidx : sibling≠parent → rest.findIdx? (·.surface=sibling)=none := by
    intro hp
    rw [findIdx?_eq_none_iff]
    exact fun c hc => decide_eq_false fun he => (h.resolve_left hp) (mem_map.mpr ⟨c,hc,he⟩)
  cases above with
  | true =>
    have hlen : aboveIndex parent sibling rest=rest.length := by
      unfold aboveIndex
      split
      · rfl
      · next hp => rw [hidx hp]; rfl
    simp only [placeIndex,if_true,hlen,insertIdx_length_self]
  | false =>
    have hzero : belowIndex parent sibling rest=0 := by
      unfold belowIndex
      split
      · rfl
      · next hp => rw [hidx hp]; rfl
    simp [placeIndex,hzero]

theorem At.top_iff (h : At front child back) :
    (front++back++[child]=front++child::back ↔ back=[]) ∧
    ((surfacesOf (front++child::back)).getLast?=some child.surface ↔ back=[]) := by
  cases back with
  | nil => simp [surfacesOf]
  | cons b back =>
    have hb : b.surface≠child.surface ∧ child.surface∉surfacesOf back := by
      simpa [surfacesOf,eq_comm] using h.back
    refine ⟨iff_of_false (fun he => ?_) nofun,iff_of_false (fun he => ?_) nofun⟩
    · rw [append_assoc,append_cancel_left_eq] at he
      injection he with he
      exact hb.1 (congrArg Child.surface he)
    · have hlast : (surfacesOf (b::back)).getLast?=some child.surface := by simpa [surfacesOf] using he
      exact h.back (mem_of_getLast? hlast)

theorem At.bottom_iff (h : At front child back) :
    (child::(front++back)=front++child::back ↔ front=[]) ∧
    ((surfacesOf (front++child::back)).head?=some child.surface ↔ front=[]) := by
  cases front with
  | nil => simp [surfacesOf]
  | cons a front =>
    have ha : a.surface≠child.surface := by
      have := h.front
      simp only [surfacesOf,map_cons,mem_cons,not_or] at this
      exact Ne.symm this.1
    refine ⟨iff_of_false (fun he => ?_) nofun,iff_of_false (fun he => ?_) nofun⟩
    · injection he with he
      exact ha (congrArg Child.surface he.symm)
    · exact ha (by simpa [surfacesOf] using he)

/-- On top, and below all the others, at once: it is the only one. -/
theorem At.only_iff (h : At front child back) :
    (∃ c∈front++child::back,c.surface=child.surface ∧ front++back++[child]=c::(front++back)) ↔
      (front++child::back).length=1 := by
  constructor
  · rintro ⟨c,-,hc,he⟩
    have hnil : front++back=[] := by
      match hrest : front++back with
      | [] => rfl
      | a::rest =>
        rw [hrest] at he
        injection he with he
        have hmem : child.surface∈surfacesOf (front++back) := by simp [hrest,surfacesOf,he,hc]
        have hout : child.surface∉surfacesOf front ∧ child.surface∉surfacesOf back := ⟨h.front,h.back⟩
        simp only [surfacesOf,map_append,mem_append] at hmem hout
        exact absurd hmem (not_or.mpr hout)
    obtain ⟨rfl,rfl⟩ := append_eq_nil_iff.mp hnil
    rfl
  · intro hlen
    obtain ⟨rfl,rfl⟩ : front=[] ∧ back=[] := by
      rw [length_append,length_cons] at hlen
      exact ⟨eq_nil_of_length_eq_zero (by omega),eq_nil_of_length_eq_zero (by omega)⟩
    exact ⟨child,by simp,rfl,rfl⟩

/-- A request does what it asks for exactly if the child is not in the list or the reference is another child or
the child is where it should be. -/
theorem restacked_iff (above : Bool) (hn : (surfacesOf children).Nodup) :
    Placed above parent surface sibling children (restacked surface (placeIndex above parent sibling) children) ↔
      (surface∈surfacesOf children → Settled above parent surface sibling children) := by
  unfold Placed
  by_cases hs : surface∈surfacesOf children
  case neg =>
    have hnone : children.find? (·.surface=surface)=none :=
      find?_eq_none.mpr fun c hc he => hs (mem_map.mpr ⟨c,hc,of_decide_eq_true he⟩)
    simp [hs,restacked,hnone]
  rw [if_neg (not_not.mpr hs),forall_prop_of_true hs]
  obtain ⟨front,child,back,rfl,rfl,hat,hrest,hout⟩ := restacked_at hn hs
  rw [hout,hrest,Settled]
  by_cases hp : sibling=parent
  · rw [if_pos hp,if_pos hp,placeIndex_end above (.inl hp)]
    cases above with
    | true => simpa using hat.only_iff
    | false => simp
  rw [if_neg hp,if_neg hp]
  by_cases hother : sibling∈surfacesOf (front++child::back) ∧ sibling≠child.surface
  · rw [if_pos hother]
    refine iff_of_true ?_ (.inl hother)
    obtain ⟨l,p,r,hlr,hsib,he⟩ :=
      @placeIndex_beside sibling parent front back child above hp ((mem_rest hother.2).mp hother.1)
    exact ⟨child,l,p,r,by simp,rfl,hsib,hrest.trans hlr,he⟩
  · have hno : sibling∉surfacesOf (front++back) := by
      intro hm
      by_cases hne : sibling=child.surface
      · subst hne
        simp only [surfacesOf,map_append,mem_append] at hm
        exact hm.elim hat.front hat.back
      · exact hother ⟨(mem_rest hne).mpr hm,hne⟩
    rw [if_neg hother,placeIndex_end above (.inr hno),or_iff_right hother]
    cases above with
    | true => exact hat.top_iff.1.trans hat.top_iff.2.symm
    | false => exact hat.bottom_iff.1.trans hat.bottom_iff.2.symm

def three : List Child := [⟨⟨1,2⟩,0,0⟩,⟨⟨1,3⟩,0,0⟩,⟨⟨1,4⟩,0,0⟩]

theorem restacked_below_third : Placed false ⟨1,1⟩ ⟨1,4⟩ ⟨1,3⟩ three
    (restacked ⟨1,4⟩ (placeIndex false ⟨1,1⟩ ⟨1,3⟩) three) :=
  (restacked_iff false (by decide)).mpr fun _ => .inl (by decide)

/-- Above the parent or a surface that is no child, the child goes on top; below itself, to the bottom. -/
theorem restacked_elsewhere :
    ¬Placed true ⟨1,1⟩ ⟨1,2⟩ ⟨1,1⟩ three (restacked ⟨1,2⟩ (placeIndex true ⟨1,1⟩ ⟨1,1⟩) three) ∧
    ¬Placed true ⟨1,1⟩ ⟨1,2⟩ ⟨1,9⟩ three (restacked ⟨1,2⟩ (placeIndex true ⟨1,1⟩ ⟨1,9⟩) three) ∧
    ¬Placed false ⟨1,1⟩ ⟨1,4⟩ ⟨1,4⟩ three (restacked ⟨1,4⟩ (placeIndex false ⟨1,1⟩ ⟨1,4⟩) three) := by
  unfold Placed
  refine ⟨?_,?_,?_⟩
  · rw [if_neg (by decide),if_pos rfl]
    decide
  · rw [if_neg (by decide),if_neg (by decide),if_neg (by decide)]
    decide
  · rw [if_neg (by decide),if_neg (by decide),if_neg (by decide)]
    decide

theorem aboveIndex_le (parent sibling : Resource) (rest : List Child) :
    aboveIndex parent sibling rest≤rest.length := by
  unfold aboveIndex
  split
  · exact Nat.le_refl _
  · cases h : rest.findIdx? (·.surface=sibling) with
    | none => exact Nat.le_refl _
    | some =>
      have hi:=(findIdx?_eq_some_iff_findIdx_eq.mp h).1
      exact hi

theorem belowIndex_le (parent sibling : Resource) (rest : List Child) :
    belowIndex parent sibling rest≤rest.length := by
  unfold belowIndex
  split
  · exact Nat.zero_le _
  · cases h : rest.findIdx? (·.surface=sibling) with
    | none => exact Nat.zero_le _
    | some =>
      have hi:=(findIdx?_eq_some_iff_findIdx_eq.mp h).1
      exact Nat.le_of_lt hi

theorem childrenOf_find (h : s.find r=some u) : s.childrenOf r=u.children := by
  simp [State.childrenOf,h]

theorem find_resource (h : s.find r=some u) : u.resource=r := by simpa using find?_some h

theorem find_mapped {g : Surface → Surface} (hg : ∀ u,(g u).resource=u.resource) (r : Resource) :
    (s.surfaces.map g).find? (·.resource=r)=(s.find r).map g := by
  have hsame : (fun u : Surface => decide (u.resource=r)) ∘ g=fun u => decide (u.resource=r) := by
    funext u
    simp [hg]
  rw [find?_map,hsame]
  rfl

theorem childrenOf_edit (f : List Child → List Child) (r : Resource) : (s.editChildren parent f).childrenOf r =
    if r=parent ∧ (s.find r).isSome then f (s.childrenOf r) else s.childrenOf r := by
  have hfind : (s.editChildren parent f).find r=_ := find_mapped (fun u => by split <;> rfl) r
  unfold State.childrenOf
  rw [hfind]
  cases h : s.find r with
  | none => simp
  | some u =>
    obtain rfl : u.resource=r := find_resource h
    by_cases hr : u.resource=parent <;> simp [hr]

theorem edit_forest {f : List Child → List Child} (h : IsForest s.tree)
    (hsub : ∀ cs,surfacesOf (f cs) ⊆ surfacesOf cs)
    (hnodup : ∀ cs,(surfacesOf cs).Nodup → (surfacesOf (f cs)).Nodup) : IsForest (s.editChildren parent f).tree := by
  have hcase : ∀ r,(s.editChildren parent f).tree r ⊆ s.tree r ∧ ((s.editChildren parent f).tree r).Nodup := by
    intro r
    have he : (s.editChildren parent f).tree r=_ := congrArg surfacesOf (childrenOf_edit f r)
    rw [he]
    split
    · exact ⟨hsub _,hnodup _ (h.once r)⟩
    · exact ⟨List.Subset.refl _,h.once r⟩
  exact h.shrink (fun r => (hcase r).1) fun r => (hcase r).2

theorem moved_forest {x y : Int} (h : IsForest s.tree) :
    IsForest (s.editChildren parent (moved surface x y)).tree := by
  apply edit_forest h
  · intro cs
    rw [moved_surfaces]
    exact List.Subset.refl _
  · intro cs hcs
    rwa [moved_surfaces]

theorem pruned_forest (h : IsForest s.tree) : IsForest (s.editChildren parent (pruned surface)).tree := by
  have hsub : ∀ cs,(surfacesOf (pruned surface cs)).Sublist (surfacesOf cs) :=
    fun cs => filter_sublist.map _
  exact edit_forest h (fun cs => (hsub cs).subset) fun cs hcs => hcs.sublist (hsub cs)

theorem restacked_forest {place : List Child → Nat} (hp : ∀ rest,place rest≤rest.length) (h : IsForest s.tree) :
    IsForest (s.editChildren parent (restacked surface place)).tree := by
  have hperm : ∀ cs,(surfacesOf (restacked surface place cs)).Perm (surfacesOf cs) :=
    fun cs => (restacked_perm hp cs).map _
  exact edit_forest h (fun cs => (hperm cs).subset) fun cs hcs => (hperm cs).nodup_iff.mpr hcs

theorem childrenOf_createSurface (s : State) (r x : Resource) :
    (s.createSurface r).childrenOf x=s.childrenOf x := by
  unfold State.childrenOf State.find State.createSurface
  rw [find?_append]
  cases s.surfaces.find? (fun u => decide (u.resource=x)) with
  | some => rfl
  | none => by_cases h : r=x <;> simp [h]

theorem childrenOf_destroySurface (s : State) (r x : Resource) :
    (s.destroySurface r).childrenOf x=s.childrenOf x := by
  have hfind : (s.destroySurface r).find x=_ := find_mapped (fun u => by split <;> rfl) x
  unfold State.childrenOf
  rw [hfind]
  cases s.find x with
  | none => rfl
  | some u => by_cases h : u.resource=r <;> simp [h]

theorem nameable_find (h : s.nameable r=true) : ∃ u,s.find r=some u := by
  cases hf : s.find r with
  | none => simp [State.nameable,hf] at h
  | some u => exact ⟨u,rfl⟩

/-- What the handler of `get_subsurface` would have to check: the surface is not a
child already, and the parent does not lie below it. -/
def Attachable (s : State) : Request → Prop
  | .getSubsurface _ surface parent => (∀ r,surface∉s.tree r) ∧ ¬ Below s.tree surface parent
  | _ => True

theorem tree_getSubsurface (h : s.find sub.parent=some u) (r : Resource) :
    (s.getSubsurface sub).tree r=if r=sub.parent then s.tree r++[sub.surface] else s.tree r := by
  have he:=@childrenOf_edit s sub.parent (·++[⟨sub.surface,0,0⟩]) r
  refine (congrArg surfacesOf he).trans ?_
  by_cases hr : r=sub.parent
  · rw [if_pos ⟨hr,by rw [hr,h]; rfl⟩,if_pos hr]
    exact map_append ..
  · rw [if_neg (fun h => hr h.1),if_neg hr]
    rfl

theorem edge_getSubsurface (h : s.find sub.parent=some u) (x y : Resource) :
    Edge (s.getSubsurface sub).tree x y ↔ Edge s.tree x y ∨ (x=sub.parent ∧ y=sub.surface) := by
  unfold Edge
  rw [tree_getSubsurface h]
  by_cases hx : x=sub.parent <;> simp [hx]

theorem getSubsurface_forest (hf : IsForest s.tree) (h : s.find sub.parent=some u)
    (hfree : ∀ r,sub.surface∉s.tree r) (hbelow : ¬ Below s.tree sub.surface sub.parent) :
    IsForest (s.getSubsurface sub).tree := by
  refine hf.attach (fun x y => (edge_getSubsurface h x y).mp) (fun r => ?_) hfree hbelow
  rw [tree_getSubsurface h]
  split
  · have hnew:=hfree r
    rw [nodup_append]
    refine ⟨hf.once r,nodup_singleton _,?_⟩
    intro a ha b hb hab
    rw [mem_singleton.mp hb] at hab
    exact hnew (hab ▸ ha)
  · exact hf.once r

theorem attachable_of_forest (h : s.find sub.parent=some u) (ht : IsForest (s.getSubsurface sub).tree) :
    (∀ r,sub.surface∉s.tree r) ∧ ¬ Below s.tree sub.surface sub.parent := by
  have hself : Edge (s.getSubsurface sub).tree sub.parent sub.surface :=
    (edge_getSubsurface h _ _).mpr (.inr ⟨rfl,rfl⟩)
  refine ⟨fun r hr => ?_,fun hb => ?_⟩
  · have hold : Edge (s.getSubsurface sub).tree r sub.surface := (edge_getSubsurface h _ _).mpr (.inl hr)
    have hrp : r=sub.parent := ht.oneParent _ _ _ hold hself
    have honce:=ht.once sub.parent
    rw [tree_getSubsurface h,if_pos rfl,nodup_append] at honce
    exact honce.2.2 _ (hrp ▸ hr) _ (mem_singleton_self _) rfl
  · have hb' : Below (s.getSubsurface sub).tree sub.surface sub.parent :=
      ReflTransGen.mono (r := Edge s.tree) (fun x y he => (edge_getSubsurface h x y).mpr (.inl he)) _ _ hb
    exact ht.acyclic _ (TransGen.head' hself hb')

theorem forest_step {a : Request} (h : IsForest s.tree) (hok : Attachable s a) (ht : step s a=some t) :
    IsForest t.tree := by
  cases a with
  | createSurface r =>
    obtain ⟨-,⟨⟩⟩ := ite_none_left_eq_some.mp ht
    have hsame : (s.createSurface r).tree=s.tree :=
      funext fun x => congrArg surfacesOf (childrenOf_createSurface s r x)
    rwa [hsame]
  | destroySurface r =>
    cases ht
    have hsame : (s.destroySurface r).tree=s.tree :=
      funext fun x => congrArg surfacesOf (childrenOf_destroySurface s r x)
    rwa [hsame]
  | getSubsurface =>
    obtain ⟨hreq,⟨⟩⟩ := ite_none_right_eq_some.mp ht
    obtain ⟨u,hu⟩ := nameable_find hreq.2.1
    exact getSubsurface_forest h hu hok.1 hok.2
  | setPosition =>
    obtain ⟨sub,_,ht⟩ := bind_eq_some_iff.mp ht
    obtain ⟨-,⟨⟩⟩ := ite_none_left_eq_some.mp ht
    exact moved_forest h
  | placeAbove =>
    obtain ⟨sub,_,ht⟩ := bind_eq_some_iff.mp ht
    obtain ⟨_,⟨⟩⟩ := ite_none_right_eq_some.mp ht
    exact restacked_forest (aboveIndex_le _ _) h
  | placeBelow =>
    obtain ⟨sub,_,ht⟩ := bind_eq_some_iff.mp ht
    obtain ⟨_,⟨⟩⟩ := ite_none_right_eq_some.mp ht
    exact restacked_forest (belowIndex_le _ _) h
  | destroy =>
    obtain ⟨sub,_,ht⟩ := bind_eq_some_iff.mp ht
    obtain ⟨-,⟨⟩⟩ := ite_none_left_eq_some.mp ht
    exact pruned_forest (pruned_forest h)
  | disconnect =>
    cases ht
    exact h
  | destroyed =>
    obtain ⟨sub,_,ht⟩ := bind_eq_some_iff.mp ht
    obtain ⟨_,⟨⟩⟩ := ite_none_right_eq_some.mp ht
    exact pruned_forest h

theorem attachable_step {a : Request} (ht : step s a=some t) (h : IsForest t.tree) : Attachable s a := by
  cases a with
  | getSubsurface =>
    obtain ⟨hreq,⟨⟩⟩ := ite_none_right_eq_some.mp ht
    obtain ⟨u,hu⟩ := nameable_find hreq.2.1
    exact attachable_of_forest hu h
  | _ => trivial

theorem childrenOf_inner (h : s.childrenOf r≠[]) : r∈(s.surfaces.map (·.resource)).toFinset := by
  cases hf : s.find r with
  | none => simp [State.childrenOf,hf] at h
  | some u =>
    exact mem_toFinset.mpr (mem_map.mpr ⟨u,mem_of_find?_eq_some hf,find_resource hf⟩)

theorem compositeInto_returns (h : IsForest s.tree) (root : Resource) (offset : Int × Int) :
    ∃ drawn : List (Resource × (Int × Int)),(drawn.map Prod.fst).Nodup ∧
      ∀ (δ : Type) (blit : δ → Resource → Int × Int → δ) (dst : δ) (fuel : Nat),s.surfaces.length<fuel →
        s.compositeInto blit fuel dst root offset=some (drawn.foldl (fun dst v => blit dst v.1 v.2) dst) := by
  have hcard : (s.surfaces.map (·.resource)).toFinset.card ≤ s.surfaces.length := by
    have hle:=toFinset_card_le (s.surfaces.map (·.resource))
    rwa [length_map] at hle
  have hreturns : ∀ fuel,s.surfaces.length<fuel →
      ∃ vs,visits Child.surface s.childrenOf shift fuel root offset=some vs := by
    intro fuel hfuel
    exact visits_enough h.acyclic (fun _ => childrenOf_inner) (by omega) root offset
  obtain ⟨drawn,hdrawn⟩ := hreturns _ (Nat.lt_succ_self _)
  refine ⟨drawn,visits_nodup h _ hdrawn,?_⟩
  intro δ blit dst fuel hfuel
  obtain ⟨vs,hvs⟩ := hreturns fuel hfuel
  rw [State.compositeInto,traverse_eq,hvs,visits_unique _ _ hvs hdrawn]
  rfl

/-- In a run in which only free surfaces are made subsurfaces, and never of a surface below them, every walk
ends and draws no surface twice. A request that does otherwise ends the forest. -/
theorem subsurface_forest (h : Reach step Attachable start s) :
    IsForest s.tree ∧
    (∀ (root : Resource) (offset : Int × Int),∃ drawn : List (Resource × (Int × Int)),
      (drawn.map Prod.fst).Nodup ∧
      ∀ (δ : Type) (blit : δ → Resource → Int × Int → δ) (dst : δ) (fuel : Nat),s.surfaces.length<fuel →
        s.compositeInto blit fuel dst root offset=some (drawn.foldl (fun dst v => blit dst v.1 v.2) dst)) ∧
    ∀ a t,step s a=some t → IsForest t.tree → Attachable s a := by
  have hf : IsForest s.tree := h.keeps (I := fun s => IsForest s.tree) isForest_empty
    forest_step
  exact ⟨hf,compositeInto_returns hf,fun _ _ ht => attachable_step ht⟩

/-- A test that is enough for the condition: the surface is in no list and has no
children of its own. -/
def leaf (s : State) : Request → Bool
  | .getSubsurface _ surface parent =>
    s.surfaces.all (fun u => surface∉surfacesOf u.children) && (s.childrenOf surface).isEmpty &&
      decide (surface≠parent)
  | _ => true

theorem attachable_leaf (s : State) (a : Request) (h : leaf s a=true) : Attachable s a := by
  cases a with
  | getSubsurface =>
    simp only [leaf,Bool.and_eq_true,List.all_eq_true,decide_eq_true_eq,List.isEmpty_iff] at h
    obtain ⟨⟨hfree,hnone⟩,hne⟩ := h
    refine ⟨fun r hr => ?_,fun hb => ?_⟩
    · cases hf : s.find r with
      | none => simp [State.tree,graph,State.childrenOf,hf] at hr
      | some u =>
        have hu:=hfree u (List.mem_of_find?_eq_some hf)
        rw [← childrenOf_find hf] at hu
        exact hu hr
    · rcases ReflTransGen.cases_head hb with he | ⟨r,hr,_⟩
      · exact hne he
      · simp [Edge,State.tree,graph,hnone] at hr
  | _ => trivial

/-- A popup in a content surface, and a second surface stacked below the content. -/
theorem subsurface_forest_three_levels : ∃ s,Reach step Attachable start s ∧
    s.tree ⟨1,1⟩=[⟨1,4⟩,⟨1,2⟩] ∧ s.tree ⟨1,2⟩=[⟨1,3⟩] ∧ IsForest s.tree := by
  have hr : Reach step Attachable start _ :=
    reach_exec [.createSurface ⟨1,1⟩,.createSurface ⟨1,2⟩,.createSurface ⟨1,3⟩,.createSurface ⟨1,4⟩,
      .getSubsurface ⟨1,5⟩ ⟨1,2⟩ ⟨1,1⟩,.getSubsurface ⟨1,6⟩ ⟨1,3⟩ ⟨1,2⟩,.setPosition ⟨1,6⟩ 10 20,
      .getSubsurface ⟨1,7⟩ ⟨1,4⟩ ⟨1,1⟩,.placeBelow ⟨1,7⟩ ⟨1,2⟩]
      (meets_of_checked attachable_leaf (by decide +kernel)) (by decide +kernel)
  refine ⟨_,hr,?_,?_,(subsurface_forest hr).1⟩ <;> decide +kernel

/-- One request makes a surface its own child, and the walk from it never
returns. -/
theorem surface_below_itself : ∃ s,Reach step Free start s ∧ ¬ IsForest s.tree ∧
    ∀ (fuel : Nat) (offset : Int × Int),s.compositeInto (fun n _ _ => n+1) fuel 0 ⟨1,1⟩ offset=none := by
  obtain ⟨s,hr,hself⟩ : ∃ s,Reach step Free start s ∧ (⟨1,1⟩ : Resource)∈s.tree ⟨1,1⟩ :=
    free_observed [.createSurface ⟨1,1⟩,.getSubsurface ⟨1,2⟩ ⟨1,1⟩ ⟨1,1⟩] (by decide +kernel)
  have hcycle : TransGen (Edge s.tree) ⟨1,1⟩ ⟨1,1⟩ := .single hself
  refine ⟨s,hr,fun hf => hf.acyclic _ hcycle,fun fuel offset => ?_⟩
  rw [State.compositeInto,traverse_eq,visits_cycle hcycle fuel offset]
  rfl

end Waymux.Session.Subsurfaces
