import Mathlib.Data.List.Basic
import Mathlib.Data.List.DropRight

/-!
# Paths as strings of components

The operations work on the string and are described by the components between the slashes, without
empty ones and single dots.
-/

namespace Paths.Components
open List

abbrev Path := List Char

inductive Component
  | rootDir
  | curDir
  | parentDir
  | normal (name : List Char)
deriving DecidableEq

def pieces (s : Path) : List (List Char) := s.splitOn '/'

def component : List Char → Option Component
  | [] => none
  | ['.'] => none
  | ['.','.'] => some .parentDir
  | p => some (.normal p)

def hasRoot (s : Path) : Bool := s.head?=some '/'

/-- A leading dot counts in a relative path. -/
def lead (s : Path) : List Component :=
  if hasRoot s then [.rootDir]
  else if (pieces s).head?=some ['.'] then [.curDir]
  else []

def components (s : Path) : List Component := lead s++(pieces s).filterMap component

def startsWith (s base : Path) : Bool := (components base).isPrefixOf (components s)

theorem startsWith_iff {s base : Path} : startsWith s base=true ↔ components base <+: components s :=
  isPrefixOf_iff_prefix

def fileName (s : Path) : Option (List Char) :=
  match (components s).getLast? with
  | some (.normal name) => some name
  | _ => none

def ignorable (p : List Char) : Bool := (component p).isNone

def ofPieces (first : List Char) (rest : List (List Char)) : Path :=
  if first=[] ∧ rest=[] then ['/'] else ['/'].intercalate (first::rest)

/-- The path without its last component and without what separates it. -/
def parent (s : Path) : Option Path :=
  match pieces s with
  | [] => none
  | first::rest =>
    match (rest.rdropWhile ignorable).reverse with
    | _::before => some (ofPieces first (before.reverse.rdropWhile ignorable))
    | [] => if first=[] then none else some []

/-- What is before and after the last dot of a name that does not begin with its
only dot. -/
def splitName (name : List Char) : Option (List Char × List Char) :=
  let before:=name.rdropWhile (· ≠ '.')
  if 1<before.length then some (before.dropLast,name.rtakeWhile (· ≠ '.')) else none

def fileStem (s : Path) : Option (List Char) :=
  (fileName s).map fun name => ((splitName name).map (·.1)).getD name

def extension (s : Path) : Option (List Char) :=
  (fileName s).bind fun name => (splitName name).map (·.2)

def join (dir name : Path) : Path :=
  if hasRoot name then name
  else if dir=[] ∨ dir.getLast?=some '/' then dir++name
  else dir ++ '/'::name

variable {p name : List Char} {s dir : Path}

theorem component_of_length (h : 2<p.length) : component p=some (.normal p) := by
  unfold component
  split <;> simp_all

theorem component_eq_normal (hne : p≠[]) (hdot : p.head?≠some '.') : component p=some (.normal p) := by
  unfold component
  split <;> simp_all

theorem component_normal (h : component p=some (.normal name)) : p=name := by
  unfold component at h
  split at h <;> simp_all

theorem not_mem_piece {s : List Char} (hp : p∈pieces s) : '/'∉p := by
  induction s generalizing p with
  | nil =>
    cases mem_singleton.mp hp
    exact not_mem_nil
  | cons c s ih =>
    rw [pieces,splitOn_cons_eq_if_modifyHead] at hp
    split at hp
    · rcases mem_cons.mp hp with rfl | hp
      · exact not_mem_nil
      · exact ih hp
    · rename_i hc
      obtain ⟨q,qs,hq⟩ := exists_cons_of_ne_nil (splitOn_ne_nil '/' s)
      rw [hq,modifyHead_cons] at hp
      rcases mem_cons.mp hp with rfl | hp
      · have hin:=ih (p := q) (by rw [pieces,hq]; exact mem_cons_self)
        rintro (_ | ⟨_,hmem⟩)
        · exact hc (beq_self_eq_true _)
        · exact hin hmem
      · exact ih (by rw [pieces,hq]; exact mem_cons_of_mem _ hp)

theorem pieces_slash (s t : Path) : pieces (s ++ '/'::t)=pieces s++pieces t :=
  splitOn_append_cons_self ..

theorem pieces_of_not_mem (h : '/'∉s) : pieces s=[s] := splitOn_eq_singleton h

theorem exists_last_piece (s : Path) : ∃ front last,pieces s=front++[last] ∧
    ∀ x,'/'∉x → pieces (s++x)=front++[last++x] := by
  by_cases h : '/'∈s
  · obtain ⟨as,bs,hs,hbs⟩ := eq_append_cons_of_mem (mem_reverse.mpr h)
    have hs : s=bs.reverse ++ '/'::as.reverse := by
      rw [← reverse_reverse s,hs]
      simp
    have hbase : '/'∉as.reverse := by simpa using hbs
    refine ⟨pieces bs.reverse,as.reverse,?_,fun x hx => ?_⟩
    · rw [hs,pieces_slash,pieces_of_not_mem hbase]
    · have hlast : '/'∉as.reverse++x := by simp [hbs,hx]
      rw [hs,append_assoc,cons_append,pieces_slash,pieces_of_not_mem hlast]
  · refine ⟨[],s,pieces_of_not_mem h,fun x hx => pieces_of_not_mem ?_⟩
    simp [h,hx]

theorem hasRoot_append (h : hasRoot s=true) (x : List Char) : hasRoot (s++x)=true := by
  cases s with
  | nil => cases h
  | cons => exact h

theorem hasRoot_of_not_mem (h : '/'∉s) : hasRoot s=false := by
  cases s with
  | nil => rfl
  | cons c =>
    have hc : c ≠ '/' := fun he => h (he ▸ mem_cons_self)
    simpa [hasRoot] using hc

theorem components_of_root (h : hasRoot s=true) : components s=.rootDir::(pieces s).filterMap component := by
  rw [components,lead,if_pos h]
  rfl

/-- The components before the last piece and the last piece, which a long enough suffix makes a name. -/
theorem components_suffix (h : hasRoot s=true) : ∃ before last,(pieces s).getLast?=some last ∧
    components s=before++(component last).toList ∧
    ∀ x,'/'∉x → 2<x.length → components (s++x)=before++[Component.normal (last++x)] := by
  obtain ⟨front,last,hs,hx⟩ := exists_last_piece s
  refine ⟨.rootDir::front.filterMap component,last,by simp [hs],?_,fun x hslash hlen => ?_⟩
  · rw [components_of_root h,hs,filterMap_append,cons_append]
    cases hc : component last <;> simp [hc]
  · have hname : component (last++x)=some (.normal (last++x)) :=
      component_of_length (by rw [length_append]; omega)
    rw [components_of_root (hasRoot_append h x),hx x hslash,filterMap_append,cons_append]
    simp [hname]

theorem components_slash (hne : s≠[]) (t : Path) :
    components (s ++ '/'::t)=components s++(pieces t).filterMap component := by
  obtain ⟨q,qs,hq⟩ := exists_cons_of_ne_nil (splitOn_ne_nil '/' s)
  obtain ⟨c,cs,rfl⟩ := exists_cons_of_ne_nil hne
  have hroot : hasRoot (c::cs ++ '/'::t)=hasRoot (c::cs) := rfl
  rw [components,components,lead,lead,hroot,pieces_slash,pieces,hq,filterMap_append]
  simp

theorem components_join {name : Path} (hn : hasRoot name=false) (hd : dir=[] → lead name=[]) :
    components (join dir name)=components dir++(pieces name).filterMap component := by
  unfold join
  rw [if_neg (by simp [hn])]
  by_cases hnil : dir=[]
  · rw [if_pos (.inl hnil),hnil,nil_append,components,hd hnil]
    rfl
  by_cases hlast : dir.getLast?=some '/'
  · obtain ⟨d,rfl⟩ := getLast?_eq_some_iff.mp hlast
    rw [if_pos (.inr hlast),append_assoc,singleton_append]
    cases d with
    | nil => exact components_of_root rfl
    | cons c cs =>
      rw [components_slash (cons_ne_nil c cs),components_slash (cons_ne_nil c cs)]
      simp [pieces,component]
  · rw [if_neg (by simp [hnil,hlast]),components_slash hnil]

theorem components_child (hs : '/'∉name) (hc : component name=some (.normal name)) (dir : Path) :
    components (join dir name)=components dir++[.normal name] := by
  have hdot : name≠['.'] := by
    rintro rfl
    cases hc
  have hn:=hasRoot_of_not_mem hs
  have hp:=pieces_of_not_mem hs
  rw [components_join hn fun _ => by simp [lead,hn,hp,hdot],hp]
  simp [hc]

theorem hasRoot_join {name : Path} (hd : hasRoot dir=true) (hn : hasRoot name=false) :
    hasRoot (join dir name)=true := by
  unfold join
  rw [hn]
  split
  · rename_i h
    cases h
  · split <;> exact hasRoot_append hd _

theorem join_append {name x : Path} (hn : hasRoot name=false) (hne : name≠[]) :
    join dir (name++x)=join dir name++x := by
  have hroot : hasRoot (name++x)=false := by
    cases name with
    | nil => exact absurd rfl hne
    | cons => exact hn
  unfold join
  rw [hn,hroot]
  split
  · rename_i h
    cases h
  · split
    · rw [append_assoc]
    · rw [append_assoc,cons_append]

theorem filterMap_rdropWhile (ps : List (List Char)) :
    (ps.rdropWhile ignorable).filterMap component=ps.filterMap component := by
  induction ps using reverseRecOn with
  | nil => rfl
  | append_singleton ps p ih =>
    by_cases hp : ignorable p=true
    · have hnone : component p=none := Option.isNone_iff_eq_none.mp hp
      rw [rdropWhile_concat_pos _ _ _ hp,ih]
      simp [hnone]
    · rw [rdropWhile_concat_neg _ _ _ hp]

theorem pieces_root (h : hasRoot s=true) : ∃ rest,pieces s=[]::rest := by
  cases s with
  | nil => cases h
  | cons c s =>
    have hc : c = '/' := by simpa [hasRoot] using h
    subst hc
    exact ⟨pieces s,pieces_slash [] s⟩

theorem components_ofPieces {rest : List (List Char)} (h : ∀ p∈rest,'/'∉p) :
    hasRoot (ofPieces [] rest)=true ∧ components (ofPieces [] rest)=.rootDir::rest.filterMap component := by
  by_cases hr : rest=[]
  · subst hr
    exact ⟨rfl,rfl⟩
  · have hs : ofPieces [] rest=['/'].intercalate ([]::rest) := by simp [ofPieces,hr]
    obtain ⟨p,ps,rfl⟩ := exists_cons_of_ne_nil hr
    have hroot : hasRoot (['/'].intercalate ([]::p::ps))=true := by simp [intercalate,hasRoot]
    have hpieces : pieces (['/'].intercalate ([]::p::ps))=[]::p::ps := by
      refine splitOn_intercalate '/' (fun l hl => ?_) nofun
      rcases mem_cons.mp hl with rfl | hl
      · exact not_mem_nil
      · exact h l hl
    rw [hs,components_of_root hroot,hpieces]
    exact ⟨hroot,rfl⟩

theorem components_parent (h : hasRoot s=true) (hn : fileName s=some name) :
    ∃ dir,parent s=some dir ∧ hasRoot dir=true ∧ components s=components dir++[Component.normal name] := by
  obtain ⟨rest,hs⟩ := pieces_root h
  have hrest : ∀ p∈rest,'/'∉p := fun p hp => not_mem_piece (s := s) (by rw [hs]; exact mem_cons_of_mem _ hp)
  have hcomps : components s=.rootDir::(rest.rdropWhile ignorable).filterMap component := by
    rw [components_of_root h,hs,filterMap_rdropWhile]
    rfl
  rcases hback : (rest.rdropWhile ignorable).reverse with _ | ⟨last,before⟩
  · have hnil : rest.rdropWhile ignorable=[] := by simpa using hback
    rw [fileName,hcomps,hnil] at hn
    cases hn
  have htrim : rest.rdropWhile ignorable=before.reverse++[last] := by
    rw [← reverse_reverse (rest.rdropWhile ignorable),hback]
    simp
  have hlast : ¬ignorable last=true := by
    have hne : rest.rdropWhile ignorable≠[] := by simp [htrim]
    have := rdropWhile_last_not ignorable rest hne
    simpa [htrim] using this
  obtain ⟨c,hc⟩ : ∃ c,component last=some c := by
    cases hc : component last with
    | none => simp [ignorable,hc] at hlast
    | some c => exact ⟨c,rfl⟩
  have hfull : components s=(.rootDir::before.reverse.filterMap component)++[c] := by
    rw [hcomps,htrim]
    simp [hc]
  have hname : c=.normal name := by
    rw [fileName,hfull,getLast?_concat] at hn
    cases c <;> simp_all
  have hbefore : ∀ p∈before.reverse.rdropWhile ignorable,'/'∉p := by
    intro p hp
    have hmem : p∈rest.rdropWhile ignorable := by
      rw [htrim]
      exact mem_append_left _ (List.IsPrefix.mem hp ( rdropWhile_prefix ..))
    exact hrest p (List.IsPrefix.mem hmem ( rdropWhile_prefix ..))
  obtain ⟨hroot,hdir⟩ := components_ofPieces hbefore
  refine ⟨ofPieces [] (before.reverse.rdropWhile ignorable),?_,hroot,?_⟩
  · unfold parent
    rw [hs]
    simp only [hback]
  · rw [hdir,hfull,filterMap_rdropWhile,hname]

theorem pieces_join (hs : '/'∉name) (dir : Path) : (pieces (join dir name)).getLast?=some name := by
  have hp:=pieces_of_not_mem hs
  unfold join
  rw [if_neg (by simp [hasRoot_of_not_mem hs])]
  by_cases hnil : dir=[]
  · rw [if_pos (.inl hnil),hnil,nil_append,hp]
    rfl
  by_cases hlast : dir.getLast?=some '/'
  · obtain ⟨d,rfl⟩ := getLast?_eq_some_iff.mp hlast
    rw [if_pos (.inr hlast),append_assoc,singleton_append,pieces_slash,hp,getLast?_concat]
  · rw [if_neg (by simp [hnil,hlast]),pieces_slash,hp,getLast?_concat]

/-- A directory that ends in a name is what remains of a path to an entry of it. -/
theorem parent_join (hd : (pieces dir).getLast?=some p) (hkeep : ¬ignorable p=true) (hs : '/'∉name)
    (hc : component name=some (.normal name)) : parent (join dir name)=some dir := by
  obtain ⟨q,qs,hq⟩ := exists_cons_of_ne_nil (splitOn_ne_nil '/' dir)
  have hjoin : join dir name=dir ++ '/'::name := by
    have hnil : dir≠[] := by
      rintro rfl
      cases hd
      exact hkeep rfl
    have hlast : dir.getLast?≠some '/' := by
      intro hl
      obtain ⟨d,rfl⟩ := getLast?_eq_some_iff.mp hl
      rw [pieces_slash d [],pieces_of_not_mem not_mem_nil,getLast?_concat] at hd
      cases hd
      exact hkeep rfl
    rw [join,if_neg (by simp [hasRoot_of_not_mem hs]),if_neg (by simp [hnil,hlast])]
  have hrest : qs.rdropWhile ignorable=qs := by
    rw [rdropWhile_eq_self_iff]
    intro hne
    rw [pieces,hq,getLast?_cons_of_ne_nil hne,getLast?_eq_some_getLast hne] at hd
    rwa [Option.some.inj hd]
  have hall : ofPieces q qs=dir := by
    have hsome : ¬(q=[] ∧ qs=[]) := by
      rintro ⟨rfl,rfl⟩
      rw [pieces,hq] at hd
      cases hd
      exact hkeep rfl
    rw [ofPieces,if_neg hsome,← hq]
    exact intercalate_splitOn '/'
  unfold parent
  rw [hjoin,pieces_slash,pieces_of_not_mem hs,pieces,hq,cons_append]
  dsimp only
  rw [rdropWhile_concat_neg _ _ _ (by simp [ignorable,hc]),reverse_concat]
  simp [hrest,hall]

theorem not_mem_fileName (h : fileName s=some name) : '/'∉name := by
  have hlast : (components s).getLast?=some (.normal name) := by
    unfold fileName at h
    split at h
    · cases h
      assumption
    · cases h
  have hmem : Component.normal name∈components s := mem_of_getLast? hlast
  rcases mem_append.mp hmem with hmem | hmem
  · unfold lead at hmem
    split at hmem
    · cases mem_singleton.mp hmem
    · split at hmem
      · cases mem_singleton.mp hmem
      · cases hmem
  · obtain ⟨p,hp,hc⟩ := mem_filterMap.mp hmem
    exact component_normal hc ▸ not_mem_piece hp

theorem splitName_eq {stem ext : List Char} (h : splitName name=some (stem,ext)) :
    name=stem ++ '.'::ext ∧ stem≠[] := by
  obtain ⟨hlen,h⟩ := Option.ite_none_right_eq_some.mp h
  obtain ⟨rfl,rfl⟩ := Prod.mk.inj (Option.some.inj h)
  have hne : name.rdropWhile (· ≠ '.')≠[] := by
    intro he
    rw [he] at hlen
    cases hlen
  have hdot:=rdropWhile_last_not (fun c : Char => decide (c ≠ '.')) name hne
  have hlast : (name.rdropWhile (· ≠ '.')).getLast hne = '.' := by simpa using hdot
  refine ⟨?_,?_⟩
  · have hsplit:=dropLast_append_getLast hne
    rw [hlast] at hsplit
    have hall : name.rdropWhile (· ≠ '.')++name.rtakeWhile (· ≠ '.')=name := rdropWhile_append_rtakeWhile
    rw [← hsplit,append_assoc,singleton_append] at hall
    exact hall.symm
  · intro he
    have hzero : (name.rdropWhile (· ≠ '.')).length-1=0 := by rw [← length_dropLast,he]; rfl
    omega

end Paths.Components
