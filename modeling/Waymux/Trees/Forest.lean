import Mathlib.Data.Finset.Filter
import Mathlib.Data.Finset.Card
import Mathlib.Logic.Relation

/-!
# Forests given by lists of children, and their traversal

An edge leads to its target and shifts the position that the traversal carries. With fuel, `none`
says that it ran out: on a cycle it always does, on a forest with finitely many inner nodes it does
not, and no node is visited twice.
-/

namespace Trees.Forest
open Relation List

variable {α ε κ δ : Type}

section Graph

variable (children : α → List α)

def Edge (a b : α) : Prop := b∈children a

def Below : α → α → Prop := ReflTransGen (Edge children)

structure IsForest : Prop where
  acyclic : ∀ a,¬ TransGen (Edge children) a a
  once : ∀ a,(children a).Nodup
  oneParent : ∀ a b c,c∈children a → c∈children b → a=b

end Graph

variable {children children' : α → List α} {a b c x y : α}

theorem isForest_empty : IsForest (fun _ : α => []) where
  acyclic := fun a h => by
    obtain ⟨b,hb,_⟩ := TransGen.head'_iff.mp h
    cases hb
  once := fun _ => nodup_nil
  oneParent := fun _ _ _ h => by cases h

theorem IsForest.shrink (h : IsForest children) (hs : ∀ a,children' a ⊆ children a)
    (hn : ∀ a,(children' a).Nodup) : IsForest children' where
  acyclic := fun a hc =>
    h.acyclic a (TransGen.mono (r := Edge children') (p := Edge children) (fun _ _ he => hs _ he) a a hc)
  once := hn
  oneParent := fun _ _ _ ha hb => h.oneParent _ _ _ (hs _ ha) (hs _ hb)

theorem transGen_added (he : ∀ x y,Edge children' x y → Edge children x y ∨ (x=a ∧ y=c))
    (hc : ¬ Below children c a) (h : TransGen (Edge children') x y) :
    TransGen (Edge children) x y ∨ (Below children x a ∧ Below children c y) := by
  induction h with
  | single h =>
    rcases he _ _ h with h | ⟨rfl,rfl⟩
    · exact .inl (.single h)
    · exact .inr ⟨.refl,.refl⟩
  | tail _ h ih =>
    rcases he _ _ h with h | ⟨rfl,rfl⟩
    · exact ih.imp (·.tail h) fun hb => ⟨hb.1,hb.2.tail h⟩
    · rcases ih with ih | ⟨_,hback⟩
      · exact .inr ⟨ih.to_reflTransGen,.refl⟩
      · exact absurd hback hc

theorem IsForest.attach (h : IsForest children) (he : ∀ x y,Edge children' x y → Edge children x y ∨ (x=a ∧ y=c))
    (hn : ∀ x,(children' x).Nodup) (hfree : ∀ x,c∉children x) (hc : ¬ Below children c a) :
    IsForest children' where
  acyclic := fun x hx => by
    rcases transGen_added he hc hx with hx | ⟨hxa,hcx⟩
    · exact h.acyclic x hx
    · exact hc (hcx.trans hxa)
  once := hn
  oneParent := fun x y z hx hy => by
    rcases he x z hx with hx | ⟨rfl,rfl⟩ <;> rcases he y _ hy with hy | ⟨rfl,hz⟩
    · exact h.oneParent x y z hx hy
    · exact absurd (hz ▸ hx) (hfree x)
    · exact absurd hy (hfree y)
    · rfl

theorem IsForest.above_linear (h : IsForest children) (ha : Below children a x) (hb : Below children b x) :
    Below children a b ∨ Below children b a := by
  have hu : Relator.RightUnique (Function.swap (Edge children)) :=
    fun _ _ _ hx hy => h.oneParent _ _ _ hx hy
  have ht:=ReflTransGen.total_of_right_unique hu (reflTransGen_swap.mpr ha) (reflTransGen_swap.mpr hb)
  exact (ht.imp reflTransGen_swap.mp reflTransGen_swap.mp).symm

theorem IsForest.not_below_sibling (h : IsForest children) (ha : a∈children x) (hb : b∈children x)
    (hne : a≠b) : ¬ Below children a b := by
  intro hab
  obtain ⟨p,hap,hpb⟩ := (ReflTransGen.cases_tail hab).resolve_left hne.symm
  have hp : p=x := h.oneParent p x b hpb hb
  subst hp
  exact h.acyclic p (TransGen.head' ha hap)

theorem IsForest.siblings_disjoint (h : IsForest children) (ha : a∈children x) (hb : b∈children x)
    (hne : a≠b) (hya : Below children a y) : ¬ Below children b y := by
  intro hyb
  rcases h.above_linear hya hyb with hab | hba
  · exact h.not_below_sibling ha hb hne hab
  · exact h.not_below_sibling hb ha hne.symm hba

section Traversal

variable (target : ε → α) (edges : α → List ε) (shift : κ → ε → κ)

def traverse (visit : δ → α → κ → δ) : Nat → δ → α → κ → Option δ
  | 0, _, _, _ => none
  | fuel+1, acc, a, k =>
    (edges a).foldlM (fun acc e => traverse visit fuel acc (target e) (shift k e)) (visit acc a k)

def visits : Nat → α → κ → Option (List (α × κ))
  | 0, _, _ => none
  | fuel+1, a, k =>
    ((edges a).mapM fun e => visits fuel (target e) (shift k e)).map fun below => (a,k)::below.flatten

def graph (a : α) : List α := (edges a).map target

end Traversal

variable {target : ε → α} {edges : α → List ε} {shift : κ → ε → κ}

theorem foldlM_visits {f : δ → ε → Option δ} {g : ε → Option (List (α × κ))} {visit : δ → α → κ → δ}
    (hf : ∀ acc e,f acc e=(g e).map fun vs => vs.foldl (fun acc v => visit acc v.1 v.2) acc) :
    ∀ (es : List ε) (acc : δ),es.foldlM f acc =
      (es.mapM g).map fun below => below.flatten.foldl (fun acc v => visit acc v.1 v.2) acc := by
  intro es
  induction es with
  | nil => intro acc; rfl
  | cons e es ih =>
    intro acc
    rw [foldlM_cons,mapM_cons,hf acc e]
    cases g e with
    | none => rfl
    | some vs =>
      have htail:=ih (vs.foldl (fun acc v => visit acc v.1 v.2) acc)
      show es.foldlM f _=_
      rw [htail]
      cases es.mapM g with
      | none => rfl
      | some below =>
        have happ : (vs::below).flatten=vs++below.flatten := flatten_cons
        show some _=some ((vs::below).flatten.foldl _ acc)
        rw [happ,foldl_append]

theorem traverse_eq (visit : δ → α → κ → δ) (fuel : Nat) : ∀ (acc : δ) (a : α) (k : κ),
    traverse target edges shift visit fuel acc a k =
      (visits target edges shift fuel a k).map fun vs => vs.foldl (fun acc v => visit acc v.1 v.2) acc := by
  induction fuel with
  | zero => intro acc a k; rfl
  | succ fuel ih =>
    intro acc a k
    have hf:=foldlM_visits (fun acc e => ih acc (target e) (shift k e)) (edges a) (visit acc a k)
    show (edges a).foldlM _ _=_
    rw [hf,visits]
    cases (edges a).mapM fun e => visits target edges shift fuel (target e) (shift k e) <;> rfl

variable {β : Type} {g : ε → Option β} {es : List ε} {fuel : Nat} {k : κ} {vs : List (α × κ)} {P : ε → β → Prop}
  {ys : List β} {inner : Finset α}

theorem mapM_some : ∀ {es : List ε} {ys : List β},
    es.mapM g=some ys → List.Forall₂ (fun e y => g e=some y) es ys := by
  intro es
  induction es with
  | nil => intro ys h; cases h; exact .nil
  | cons e es ih =>
    intro ys h
    rw [mapM_cons] at h
    obtain ⟨y,hy,h⟩ := Option.bind_eq_some_iff.mp h
    obtain ⟨zs,hzs,h⟩ := Option.bind_eq_some_iff.mp h
    cases h
    exact .cons hy (ih hzs)

theorem mapM_isSome (h : ∀ e∈es,∃ y,g e=some y) : ∃ ys,es.mapM g=some ys := by
  induction es with
  | nil => exact ⟨[],rfl⟩
  | cons e es ih =>
    obtain ⟨y,hy⟩ := h e mem_cons_self
    obtain ⟨ys,hys⟩ := ih fun e' he' => h e' (mem_cons_of_mem _ he')
    refine ⟨y::ys,?_⟩
    rw [mapM_cons,hy,hys]
    rfl

theorem visits_succ (h : visits target edges shift (fuel+1) a k=some vs) :
    ∃ below,List.Forall₂ (fun e ws => visits target edges shift fuel (target e) (shift k e)=some ws)
      (edges a) below ∧ vs=(a,k)::below.flatten := by
  obtain ⟨below,hb,hvs⟩ := Option.map_eq_some_iff.mp h
  exact ⟨below,mapM_some hb,hvs.symm⟩

theorem forall₂_left (h : List.Forall₂ P es ys) : ∀ e∈es,∃ y∈ys,P e y := by
  induction h with
  | nil => intro e he; cases he
  | cons hp _ ih =>
    intro e he
    rcases mem_cons.mp he with rfl | he
    · exact ⟨_,mem_cons_self,hp⟩
    · obtain ⟨y,hy,hpy⟩ := ih e he
      exact ⟨y,mem_cons_of_mem _ hy,hpy⟩

theorem forall₂_right (h : List.Forall₂ P es ys) : ∀ y∈ys,∃ e∈es,P e y :=
  forall₂_left h.flip

theorem visits_edge (h : visits target edges shift fuel a k=some vs) (he : Edge (graph target edges) a b) :
    ∃ n<fuel,∃ k' ws,visits target edges shift n b k'=some ws := by
  cases fuel with
  | zero => cases h
  | succ fuel =>
    obtain ⟨below,hall,_⟩ := visits_succ h
    obtain ⟨e,hmem,rfl⟩ := mem_map.mp he
    obtain ⟨ws,_,hws⟩ := forall₂_left hall e hmem
    exact ⟨fuel,Nat.lt_succ_self fuel,_,ws,hws⟩

theorem visits_path (h : visits target edges shift fuel a k=some vs) (hp : TransGen (Edge (graph target edges)) a b) :
    ∃ n<fuel,∃ k' ws,visits target edges shift n b k'=some ws := by
  induction hp with
  | single he => exact visits_edge h he
  | tail _ he ih =>
    obtain ⟨n,hn,k',ws,hws⟩ := ih
    obtain ⟨m,hm,hb⟩ := visits_edge hws he
    exact ⟨m,Nat.lt_trans hm hn,hb⟩

theorem visits_cycle (hc : TransGen (Edge (graph target edges)) a a) (fuel : Nat) :
    ∀ k,visits target edges shift fuel a k=none := by
  induction fuel using Nat.strong_induction_on with
  | _ fuel ih =>
    intro k
    cases h : visits target edges shift fuel a k with
    | none => rfl
    | some =>
      obtain ⟨n,hn,k',ws,hws⟩ := visits_path h hc
      rw [ih n hn k'] at hws
      cases hws

open Classical in
/-- The inner nodes that can be reached. They become fewer along an edge. -/
noncomputable def reachable (children : α → List α) (inner : Finset α) (a : α) : Finset α :=
  inner.filter fun b => Below children a b

open Classical in
theorem mem_reachable : x∈reachable children inner a ↔ x∈inner ∧ Below children a x :=
  Finset.mem_filter

theorem reachable_subset (children : α → List α) (inner : Finset α) (a : α) : reachable children inner a ⊆ inner :=
  fun _ hx => (mem_reachable.mp hx).1

theorem reachable_card (hac : ∀ a,¬ TransGen (Edge children) a a) (ha : a∈inner) (he : Edge children a b) :
    (reachable children inner b).card<(reachable children inner a).card := by
  apply Finset.card_lt_card
  refine ⟨fun x hx => ?_,fun hsub => ?_⟩
  · obtain ⟨hin,hbx⟩ := mem_reachable.mp hx
    exact mem_reachable.mpr ⟨hin,hbx.head he⟩
  · have hself : a∈reachable children inner a := mem_reachable.mpr ⟨ha,.refl⟩
    have hback:=(mem_reachable.mp (hsub hself)).2
    exact hac a (TransGen.head' he hback)

theorem visits_returns (hac : ∀ a,¬ TransGen (Edge (graph target edges)) a a) (hin : ∀ a,edges a≠[] → a∈inner)
    (fuel : Nat) : ∀ (a : α) (k : κ),
    (reachable (graph target edges) inner a).card<fuel → ∃ vs,visits target edges shift fuel a k=some vs := by
  induction fuel with
  | zero => intro a k h; exact absurd h (Nat.not_lt_zero _)
  | succ fuel ih =>
    intro a k h
    have hall : ∀ e∈edges a,∃ ws,visits target edges shift fuel (target e) (shift k e)=some ws := by
      intro e he
      apply ih
      have ha : a∈inner := hin a (ne_nil_of_mem he)
      have hlt:=reachable_card hac ha (mem_map_of_mem he : Edge (graph target edges) a (target e))
      omega
    obtain ⟨below,hb⟩ := mapM_isSome hall
    refine ⟨(a,k)::below.flatten,?_⟩
    rw [visits,hb]
    rfl

theorem visits_enough (hac : ∀ a,¬ TransGen (Edge (graph target edges)) a a) (hin : ∀ a,edges a≠[] → a∈inner)
    (hfuel : inner.card<fuel) (a : α) (k : κ) : ∃ vs,visits target edges shift fuel a k=some vs := by
  have hle : (reachable (graph target edges) inner a).card ≤ inner.card := Finset.card_le_card (reachable_subset _ _ _)
  exact visits_returns hac hin fuel a k (by omega)

theorem forall₂_unique {h : ε → Option β} {zs : List β} (hy : List.Forall₂ (fun e y => g e=some y) es ys)
    (hz : List.Forall₂ (fun e z => h e=some z) es zs) (hgh : ∀ e y z,g e=some y → h e=some z → y=z) :
    ys=zs := by
  induction hy generalizing zs with
  | nil => cases hz; rfl
  | cons hy _ ih =>
    cases hz with
    | cons hz hzs => rw [hgh _ _ _ hy hz,ih hzs]

theorem visits_unique : ∀ (n m : Nat) {a : α} {k : κ} {vs ws : List (α × κ)},
    visits target edges shift n a k=some vs → visits target edges shift m a k=some ws → vs=ws := by
  intro n
  induction n with
  | zero => intro m a k vs ws h; cases h
  | succ n ih =>
    intro m a k vs ws hv hw
    cases m with
    | zero => cases hw
    | succ m =>
      obtain ⟨below,hall,rfl⟩ := visits_succ hv
      obtain ⟨below',hall',rfl⟩ := visits_succ hw
      rw [forall₂_unique hall hall' fun _ _ _ hy hz => ih m hy hz]

theorem visits_below (fuel : Nat) : ∀ {a : α} {k : κ} {vs : List (α × κ)},
    visits target edges shift fuel a k=some vs → ∀ v∈vs,Below (graph target edges) a v.1 := by
  induction fuel with
  | zero => intro a k vs h; cases h
  | succ fuel ih =>
    intro a k vs h v hv
    obtain ⟨below,hall,rfl⟩ := visits_succ h
    rcases mem_cons.mp hv with rfl | hv
    · exact .refl
    · obtain ⟨ws,hws,hv⟩ := mem_flatten.mp hv
      obtain ⟨e,he,hvis⟩ := forall₂_right hall ws hws
      have hedge : Edge (graph target edges) a (target e) := mem_map_of_mem he
      exact (ih hvis v hv).head hedge

theorem forall₂_pairwise {R : ε → ε → Prop} {S : β → β → Prop} (h : List.Forall₂ P es ys) (hR : es.Pairwise R)
    (hS : ∀ e∈es,∀ e'∈es,∀ y y',R e e' → P e y → P e' y' → S y y') : ys.Pairwise S := by
  induction h with
  | nil => exact .nil
  | cons hp htail ih =>
    obtain ⟨hhead,hR⟩ := pairwise_cons.mp hR
    refine .cons (fun y' hy' => ?_) (ih hR fun e he e' he' =>
      hS e (mem_cons_of_mem _ he) e' (mem_cons_of_mem _ he'))
    obtain ⟨e',he',hp'⟩ := forall₂_right htail y' hy'
    exact hS _ mem_cons_self e' (mem_cons_of_mem _ he') _ y' (hhead e' he') hp hp'

theorem visits_nodup (hf : IsForest (graph target edges)) (fuel : Nat) : ∀ {a : α} {k : κ} {vs : List (α × κ)},
    visits target edges shift fuel a k=some vs → (vs.map Prod.fst).Nodup := by
  induction fuel with
  | zero => intro a k vs h; cases h
  | succ fuel ih =>
    intro a k vs h
    obtain ⟨below,hall,rfl⟩ := visits_succ h
    rw [map_cons,map_flatten,nodup_cons,nodup_flatten]
    refine ⟨fun hmem => ?_,fun ws hws => ?_,?_⟩
    · -- the node itself would lie below one of its children
      obtain ⟨ws,hws,ha⟩ := mem_flatten.mp hmem
      obtain ⟨vs,hvs,rfl⟩ := mem_map.mp hws
      obtain ⟨v,hv,hva⟩ := mem_map.mp ha
      obtain ⟨e,he,hvis⟩ := forall₂_right hall vs hvs
      have hbelow:=visits_below fuel hvis v hv
      rw [hva] at hbelow
      have hedge : Edge (graph target edges) a (target e) := mem_map_of_mem he
      exact hf.acyclic a (TransGen.head' hedge hbelow)
    · obtain ⟨vs,hvs,rfl⟩ := mem_map.mp hws
      obtain ⟨e,_,hvis⟩ := forall₂_right hall vs hvs
      exact ih hvis
    · have hdistinct : (edges a).Pairwise fun e e' => target e≠target e' := pairwise_map.mp (hf.once a)
      refine List.Pairwise.map (S := List.Disjoint) _ (fun _ _ hd => hd) (forall₂_pairwise hall hdistinct ?_)
      intro e he e' he' vs ws hne hvs hws x hx hx'
      obtain ⟨v,hv,rfl⟩ := mem_map.mp hx
      obtain ⟨w,hw,hvw⟩ := mem_map.mp hx'
      have hleft:=visits_below fuel hvs v hv
      have hright:=visits_below fuel hws w hw
      rw [hvw] at hright
      exact hf.siblings_disjoint (mem_map_of_mem he) (mem_map_of_mem he') hne hleft hright

end Trees.Forest
