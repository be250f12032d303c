import Waymux.Interleave.Logs
import Waymux.Mcp.Tools

/-!
# From the arguments of a tool call to the command line (`exec.rs`)

Each element is kept with where it comes from. How `serde_json` writes a value is left open.
-/

namespace Waymux.Mcp.CallArgs
open Tools List

def mustBe (p : Param) (what : String) : String := s!"argument `{p.name}` must be {what}"
def missing (p : Param) : String := s!"missing required argument `{p.name}`"

def stringifyScalar (text : Value → String) (p : Param) (v : Value) : Except String String :=
  match p.ty with
  | .stringT =>
      match v with
      | .string s => .ok s
      | _ => .error (mustBe p "a string")
  | .jsonStringT =>
      match v with
      | .string s => .ok s
      | other => .ok (text other)
  | .integerT =>
      match v with
      | .number n => if n.isI64 || n.isU64 then .ok (text (.number n)) else .error (mustBe p "an integer")
      | _ => .error (mustBe p "an integer")
  | .numberT =>
      match v with
      | .number n => .ok (text (.number n))
      | _ => .error (mustBe p "a number")
  | .booleanT =>
      match v with
      | .bool b => .ok (toString b)
      | _ => .error (mustBe p "a boolean")
  | .stringArrayT => .error s!"argument `{p.name}` is an array and must be handled as a vector"

/-- An element of the command line: the server's own, or made from a value the
client has sent. -/
inductive Piece
  | own (text : String)
  | given (v : Value) (text : String)

def Piece.text : Piece → String
  | .own s => s
  | .given _ s => s

def arrayItems (p : Param) : Nat → List Value → Except String (List Piece)
  | _, [] => .ok []
  | i, .string s::rest => (arrayItems p (i+1) rest).map (.given (.string s) s::·)
  | i, _::_ => .error s!"argument `{p.name}`[{i}] must be a string"

/- What one pass of the loop over the parameters adds to `positionals`, `flags`
or `trailing_array`. -/
inductive Given
  | nothing
  | positional (x : Piece)
  | flags (xs : List Piece)
  | trailing (p : Param) (items : List Piece)

def Given.positionals : Given → List Piece
  | .positional x => [x]
  | _ => []

def Given.options : Given → List Piece
  | .flags xs => xs
  | _ => []

def Given.array : Given → Option (Param × List Piece)
  | .trailing p items => some (p,items)
  | _ => none

def given (text : Value → String) (args : Map) (p : Param) : Except String Given :=
  let value:=Map.get args p.name
  if p.ty=.stringArrayT then
    match value with
    | some (.array items) =>
        match arrayItems p 0 items with
        | .error e => .error e
        | .ok out =>
            if p.required && out.isEmpty then
              .error s!"argument `{p.name}` must have at least one element"
            else .ok (.trailing p out)
    | some _ => .error (mustBe p "an array")
    | none => if p.required then .error (missing p) else .ok .nothing
  else
    match p.kind with
    | .positional =>
        match value with
        | some v => (stringifyScalar text p v).map fun s => .positional (.given v s)
        | none => if p.required then .error (missing p) else .ok .nothing
    | .flag =>
        match value with
        | some v => (stringifyScalar text p v).map fun s => .flags [.own s!"--{p.cliName}",.given v s]
        | none => if p.required then .error (missing p) else .ok .nothing
    | .boolFlag =>
        match value with
        | some (.bool true) => .ok (.flags [.own s!"--{p.cliName}"])
        | some (.bool false) => .ok .nothing
        | some _ => .error (mustBe p "a boolean")
        | none => .ok .nothing

def givens (text : Value → String) (args : Map) : List Param → Except String (List Given)
  | [] => .ok []
  | p::ps =>
      match given text args p with
      | .error e => .error e
      | .ok g => (givens text args ps).map (g::·)

/- `spawn`'s argv is set off with `--`; the tags of `tag` are not. -/
def trailingArray : Option (Param × List Piece) → List Piece
  | some (p,items) => (if p.name = "argv" then [.own "--"] else [])++items
  | none => []

def finish (gs : List Given) : List Piece :=
  gs.flatMap Given.positionals++gs.flatMap Given.options ++
    trailingArray (gs.filterMap Given.array).getLast?

def buildPieces (text : Value → String) (spec : ToolSpec) (args : Map) : Except String (List Piece) :=
  (givens text args spec.params).map finish

def buildCallArgs (text : Value → String) (spec : ToolSpec) (args : Map) : Except String (List String) :=
  (buildPieces text spec args).map (List.map Piece.text)

def injectRequiredPlaceholders (spec : ToolSpec) (args : Map) : Map :=
  if (spec.verb = "screenshot" ∨ spec.verb = "screenshot-desktop") ∧ Map.containsKey args "output" = false then
    Map.insert args "output" (.string "/dev/null")
  else args

/- What `run_tool` gives to `Command::arg`, one after the other. -/
def traced (text : Value → String) (spec : ToolSpec) (args : Map) : Except String (List Piece) :=
  (buildPieces text spec (injectRequiredPlaceholders spec args)).map fun callArgs =>
    ("--json" :: spec.argv).map Piece.own++callArgs

def commandArgs (text : Value → String) (spec : ToolSpec) (args : Map) : Except String (List String) :=
  (traced text spec args).map (List.map Piece.text)

variable {text : Value → String} {spec : ToolSpec} {args : Map} {p : Param}

theorem traced_ok {ps : List Piece} (h : traced text spec args=.ok ps) :
    ∃ gs,givens text (injectRequiredPlaceholders spec args) spec.params=.ok gs ∧
      ps=("--json" :: spec.argv).map Piece.own++finish gs := by
  unfold traced buildPieces at h
  cases hg : givens text (injectRequiredPlaceholders spec args) spec.params <;> rw [hg] at h <;> cases h
  exact ⟨_,rfl,rfl⟩

def dash (s : String) : Bool := s.toList.head? == some '-'

def negativeNumber : Value → Bool
  | .number n => n.negative
  | _ => false

def Safe : Piece → Prop
  | .own _ => True
  | .given v s => negativeNumber v=true ∨ dash s=false

/-- No value a client has sent can be taken for an option: negative numbers
aside, it stands after a `--` or does not begin with a dash. -/
def Shielded (ps : List Piece) : Prop :=
  ∀ pre x post,ps=pre++x::post → Safe x ∨ ∃ y∈pre,y.text = "--"

/-- No string for a single-valued parameter begins with a dash, and no element
of an array but `argv` does. -/
def CleanParam (args : Map) (p : Param) : Prop :=
  ∀ v,Map.get args p.name=some v → (∀ s,v=.string s → dash s=false) ∧
    (p.ty=.stringArrayT → p.name ≠ "argv" → ∀ items,v=.array items →
      ∀ s,.string s∈items → dash s=false)

def Clean (spec : ToolSpec) (args : Map) : Prop := ∀ p∈spec.params,CleanParam args p

/-- What is assumed of the text `serde_json` gives a value. -/
structure Lawful (text : Value → String) : Prop where
  number : ∀ n,dash (text (.number n))=true → n.negative=true
  not_bare : ∀ n,text (.number n) ≠ "--"
  other : ∀ v,(∀ n,v≠.number n) → (∀ s,v≠.string s) → dash (text v)=false

def Guarded : List Piece → Prop
  | [] => True
  | x::xs => Safe x ∧ (x.text = "--" ∨ Guarded xs)

theorem shielded_iff (ps : List Piece) : Shielded ps ↔ Guarded ps := by
  induction ps with
  | nil => simp [Shielded,Guarded]
  | cons x xs ih =>
    rw [Guarded,← ih]
    constructor
    · intro h
      refine ⟨(h [] x xs rfl).resolve_right (by simp),?_⟩
      by_cases hx : x.text = "--"
      · exact .inl hx
      · refine .inr fun pre y post he => ?_
        rcases h (x::pre) y post (by rw [he]; rfl) with hs | ⟨z,hz,ht⟩
        · exact .inl hs
        · rcases mem_cons.mp hz with rfl | hz
          · exact absurd ht hx
          · exact .inr ⟨z,hz,ht⟩
    · rintro ⟨hx,hrest⟩ pre y post he
      cases pre with
      | nil =>
        cases he
        exact .inl hx
      | cons z pre =>
        injection he with hz he
        subst hz
        rcases hrest with ht | hrest
        · exact .inr ⟨x,mem_cons_self,ht⟩
        · exact (hrest pre y post he).imp id fun ⟨w,hw,ht⟩ => ⟨w,mem_cons_of_mem _ hw,ht⟩

/- A bare `--` is no protection where it comes from a client itself. -/
def Plain (x : Piece) : Prop := x.text = "--" → ¬Safe x

theorem guarded_append {xs ys : List Piece} (h : ∀ x∈xs,Plain x) :
    Guarded (xs++ys) ↔ (∀ x∈xs,Safe x) ∧ Guarded ys := by
  induction xs with
  | nil => simp
  | cons x xs ih =>
    have ih:=ih fun y hy => h y (mem_cons_of_mem _ hy)
    rw [cons_append,Guarded,ih,forall_mem_cons]
    by_cases ht : x.text = "--"
    · simp [h x mem_cons_self ht]
    · simp [ht,and_assoc]

inductive GivenCase (text : Value → String) (args : Map) (p : Param) : Given → Prop
  | array (items : List String) : p.ty=.stringArrayT →
      Map.get args p.name=some (.array (items.map .string)) →
      GivenCase text args p (.trailing p (items.map fun s => .given (.string s) s))
  | absent : Map.get args p.name=none → GivenCase text args p .nothing
  | switchedOn : Map.get args p.name=some (.bool true) →
      GivenCase text args p (.flags [.own s!"--{p.cliName}"])
  | switchedOff : Map.get args p.name=some (.bool false) → GivenCase text args p .nothing
  | positional (v : Value) (s : String) : p.ty≠.stringArrayT → Map.get args p.name=some v →
      stringifyScalar text p v=.ok s → GivenCase text args p (.positional (.given v s))
  | flag (v : Value) (s : String) : p.ty≠.stringArrayT → Map.get args p.name=some v →
      stringifyScalar text p v=.ok s →
      GivenCase text args p (.flags [.own s!"--{p.cliName}",.given v s])

theorem arrayItems_ok {i : Nat} {items : List Value} {out : List Piece}
    (h : arrayItems p i items=.ok out) : ∃ strings : List String,
      items=strings.map .string ∧ out=strings.map fun s => .given (.string s) s := by
  induction items generalizing i out with
  | nil =>
    cases h
    exact ⟨[],rfl,rfl⟩
  | cons v items ih =>
    cases v with
    | string s =>
      simp only [arrayItems] at h
      cases hrest : arrayItems p (i+1) items <;> rw [hrest] at h <;> cases h
      obtain ⟨strings,rfl,rfl⟩ := ih hrest
      exact ⟨s::strings,rfl,rfl⟩
    | _ => cases h

variable {g : Given} {ps : List Param} {gs : List Given} {s : String}

theorem given_ok (h : given text args p=.ok g) : GivenCase text args p g := by
  have absent (hv : Map.get args p.name=none)
      (h : (if p.required then .error (missing p) else .ok .nothing : Except String Given)=.ok g) :
      GivenCase text args p g := by
    split at h <;> cases h
    exact .absent hv
  unfold given at h
  dsimp only at h
  split at h
  next hty =>
    split at h
    next items hv =>
      cases ha : arrayItems p 0 items with
      | error =>
        rw [ha] at h
        cases h
      | ok =>
        obtain ⟨strings,rfl,rfl⟩ := arrayItems_ok ha
        rw [ha] at h
        dsimp only at h
        split at h <;> cases h
        exact .array strings hty hv
    · cases h
    next hv => exact absent hv h
  next hty =>
    cases hk : p.kind with
    | positional | flag =>
      rw [hk] at h
      dsimp only at h
      split at h
      next v hv =>
        cases hs : stringifyScalar text p v <;> rw [hs] at h <;> cases h
        constructor <;> assumption
      next hv => exact absent hv h
    | boolFlag =>
      rw [hk] at h
      dsimp only at h
      split at h <;> cases h
      · exact .switchedOn ‹_›
      · exact .switchedOff ‹_›
      · exact .absent ‹_›

theorem givens_ok (h : givens text args ps=.ok gs) : List.Forall₂ (fun p g => GivenCase text args p g) ps gs := by
  induction ps generalizing gs with
  | nil =>
    cases h
    exact .nil
  | cons p ps ih =>
    simp only [givens] at h
    cases hg : given text args p with
    | error =>
      rw [hg] at h
      cases h
    | ok =>
      rw [hg] at h
      cases hrest : givens text args ps <;> rw [hrest] at h <;> cases h
      exact .cons (given_ok hg) (ih hrest)

theorem dash_of_bare (h : s = "--") : dash s=true := by
  subst h
  decide

theorem toString_bool_dash (b : Bool) : dash (toString b)=false := by
  cases b <;> decide

theorem stringified_cases {v : Value} (h : stringifyScalar text p v=.ok s) :
    v=.string s ∨ (∃ n,v=.number n ∧ s=text v) ∨
    (∀ n,v≠.number n) ∧ (∀ t,v≠.string t) ∧ (s=text v ∨ ∃ b : Bool,s=toString b) := by
  unfold stringifyScalar at h
  split at h
  case h_1 =>
    split at h <;> cases h
    exact .inl rfl
  case h_2 =>
    split at h
    · cases h
      exact .inl rfl
    · next hne =>
      cases h
      cases v with
      | number n => exact .inr (.inl ⟨n,rfl,rfl⟩)
      | string t => exact absurd rfl (hne t)
      | _ => exact .inr (.inr ⟨by simp,by simp,.inl rfl⟩)
  case h_3 | h_4 =>
    repeat' split at h
    all_goals cases h
    exact .inr (.inl ⟨_,rfl,rfl⟩)
  case h_5 =>
    split at h <;> cases h
    next b => exact .inr (.inr ⟨by simp,by simp,.inr ⟨b,rfl⟩⟩)
  case h_6 => cases h

theorem stringified_safe (hl : Lawful text) {v : Value} (h : stringifyScalar text p v=.ok s) :
    (Safe (.given v s) ↔ ∀ t,v=.string t → dash t=false) ∧ Plain (.given v s) := by
  rcases stringified_cases h with rfl | ⟨n,rfl,rfl⟩ | ⟨hn,hs,ht⟩
  · refine ⟨by simp [Safe,negativeNumber],fun (hbare : s = "--") => ?_⟩
    simp [Safe,negativeNumber,dash_of_bare hbare]
  · refine ⟨by simpa [Safe,negativeNumber,or_iff_not_imp_right] using hl.number n,fun hbare => ?_⟩
    exact absurd hbare (hl.not_bare n)
  · have hd : dash s=false := by
      rcases ht with rfl | ⟨b,rfl⟩
      · exact hl.other v hn hs
      · exact toString_bool_dash b
    refine ⟨by simp [Safe,hd,hs],fun (hbare : s = "--") => ?_⟩
    rw [dash_of_bare hbare] at hd
    cases hd

def SafeGiven (g : Given) : Prop :=
  (∀ x∈g.positionals++g.options,Safe x) ∧
    ∀ q items,g.array=some (q,items) → q.name ≠ "argv" → ∀ x∈items,Safe x

theorem safeGiven_iff (hl : Lawful text) (h : GivenCase text args p g) : SafeGiven g ↔ CleanParam args p := by
  cases h with
  | array items hty hv =>
    simp [SafeGiven,CleanParam,Given.positionals,Given.options,Given.array,hv,hty,Safe,negativeNumber]
  | absent hv => simp [SafeGiven,CleanParam,Given.positionals,Given.options,Given.array,hv]
  | switchedOn hv | switchedOff hv =>
    simp [SafeGiven,CleanParam,Given.positionals,Given.options,Given.array,hv,Safe]
  | positional v s hty hv hs | flag v s hty hv hs =>
    have hsafe:=(stringified_safe hl hs).1
    simp only [SafeGiven,CleanParam,Given.positionals,Given.options,Given.array,hv,hty]
    simpa [Safe] using hsafe

theorem own_plain (h : s ≠ "--") : Plain (.own s) := fun ht => absurd ht h

theorem option_ne_bare {cli : String} (h : cli ≠ "") : s!"--{cli}" ≠ "--" := by
  intro (he : "--" ++ cli = "--")
  have hlen:=congrArg String.length he
  rw [String.length_append] at hlen
  exact h (String.length_eq_zero_iff.mp (Nat.left_eq_add.mp hlen.symm))

def PlainGiven (g : Given) : Prop :=
  (∀ x∈g.positionals++g.options,Plain x) ∧
    ∀ q items,g.array=some (q,items) → ∀ x∈items,Plain x

theorem given_plain (hl : Lawful text) (hcli : p.cliName ≠ "") (h : GivenCase text args p g) : PlainGiven g := by
  have hopt : Plain (.own s!"--{p.cliName}") := own_plain (option_ne_bare hcli)
  cases h with
  | array =>
    refine ⟨by simp [Given.positionals,Given.options],fun q ys hq x hx => ?_⟩
    cases hq
    obtain ⟨s,_,rfl⟩ := mem_map.mp hx
    intro (hbare : s = "--")
    simp [Safe,negativeNumber,dash_of_bare hbare]
  | switchedOn => simpa [PlainGiven,Given.positionals,Given.options,Given.array] using hopt
  | positional v s hty hv hs =>
    simpa [PlainGiven,Given.positionals,Given.options,Given.array] using (stringified_safe hl hs).2
  | flag v s hty hv hs =>
    simpa [PlainGiven,Given.positionals,Given.options,Given.array] using And.intro hopt (stringified_safe hl hs).2
  | _ => simp [PlainGiven,Given.positionals,Given.options,Given.array]

theorem cleanParam_inject : CleanParam (injectRequiredPlaceholders spec args) p ↔ CleanParam args p := by
  unfold injectRequiredPlaceholders
  split
  next hout =>
    have hnone : Map.get args "output" = none := by simpa [Map.containsKey] using hout.2
    unfold CleanParam
    rw [Map.get_insert]
    split
    next hname =>
      have hd : dash "/dev/null" = false := by decide
      simp [hname,hnone,hd]
    · rfl
  · rfl

theorem clean_iff (hl : Lawful text) (h : List.Forall₂ (fun p g => GivenCase text args p g) ps gs) :
    (∀ p∈ps,CleanParam args p) ↔ ∀ g∈gs,SafeGiven g := by
  induction h with
  | nil => simp
  | cons hg _ ih => rw [forall_mem_cons,forall_mem_cons,ih,safeGiven_iff hl hg]

theorem arrays_le (h : List.Forall₂ (fun p g => GivenCase text args p g) ps gs) :
    (gs.filterMap Given.array).length≤(ps.filter fun p => p.ty=.stringArrayT).length := by
  induction h with
  | nil => simp
  | cons hg _ ih =>
    cases hg with
    | array items hty => simpa [Given.array,hty] using ih
    | _ =>
      simp only [filterMap_cons,Given.array,filter_cons]
      split
      · exact Nat.le_succ_of_le ih
      · exact ih

theorem guarded_trailing {arrays : List (Param × List Piece)} (hone : arrays.length≤1)
    (hplain : ∀ q items,(q,items)∈arrays → ∀ x∈items,Plain x) :
    Guarded (trailingArray arrays.getLast?) ↔
    ∀ q items,(q,items)∈arrays → q.name ≠ "argv" → ∀ x∈items,Safe x := by
  match arrays with
  | [] => simp [trailingArray,Guarded]
  | [(q,items)] =>
    by_cases hq : q.name = "argv"
    · simp [trailingArray,Guarded,Safe,Piece.text,hq]
    · have hguard:=@guarded_append items [] (hplain q items mem_cons_self)
      simpa [trailingArray,hq,Guarded] using hguard
  | _::_::_ => simp at hone

theorem guarded_finish (hplain : ∀ g∈gs,PlainGiven g) (hone : (gs.filterMap Given.array).length≤1) :
    Guarded (finish gs) ↔ ∀ g∈gs,SafeGiven g := by
  have hpos : ∀ x∈gs.flatMap Given.positionals++gs.flatMap Given.options,Plain x := by
    intro x hx
    simp only [mem_append,mem_flatMap] at hx
    rcases hx with ⟨g,hg,hx⟩ | ⟨g,hg,hx⟩
    · exact (hplain g hg).1 x (mem_append_left _ hx)
    · exact (hplain g hg).1 x (mem_append_right _ hx)
  have harr : ∀ q items,(q,items)∈gs.filterMap Given.array → ∀ x∈items,Plain x := by
    intro q items hmem
    obtain ⟨g,hg,ha⟩ := mem_filterMap.mp hmem
    exact (hplain g hg).2 q items ha
  unfold finish
  rw [guarded_append hpos,guarded_trailing hone harr]
  simp only [mem_append,mem_flatMap,mem_filterMap]
  constructor
  · rintro ⟨hsafe,htrail⟩ g hg
    refine ⟨fun x hx => ?_,fun q items ha => htrail q items ⟨g,hg,ha⟩⟩
    exact hsafe x ((mem_append.mp hx).imp (fun h => ⟨g,hg,h⟩) fun h => ⟨g,hg,h⟩)
  · intro h
    refine ⟨?_,fun q items ⟨g,hg,ha⟩ => (h g hg).2 q items ha⟩
    rintro x (⟨g,hg,hx⟩ | ⟨g,hg,hx⟩)
    · exact (h g hg).1 x (mem_append_left _ hx)
    · exact (h g hg).1 x (mem_append_right _ hx)

/-- For every tool and accepted arguments: the command line run is the one with origins, and no client value
in it can be taken for an option exactly when no string outside of `argv` begins with a dash. -/
theorem options_shielded_iff {ps : List Piece} (hl : Lawful text) (hspec : spec∈tools)
    (h : traced text spec args=.ok ps) :
    commandArgs text spec args=.ok (ps.map Piece.text) ∧ (Shielded ps ↔ Clean spec args) := by
  refine ⟨by rw [commandArgs,h]; rfl,?_⟩
  have hreg:=tools_regular spec hspec
  obtain ⟨gs,hg,rfl⟩ := traced_ok h
  have hcases:=givens_ok hg
  have hplain : ∀ g∈gs,PlainGiven g := by
    intro g hmem
    obtain ⟨p,hp,hgp⟩ := Interleave.Logs.exists_of_forall₂ hcases hmem
    exact given_plain hl (hreg.flags p hp) hgp
  have hown : ∀ x∈("--json" :: spec.argv).map Piece.own,Plain x ∧ Safe x := by
    intro x hx
    obtain ⟨s,hs,rfl⟩ := mem_map.mp hx
    refine ⟨own_plain ?_,trivial⟩
    rcases mem_cons.mp hs with rfl | hs
    · decide
    · rintro rfl
      exact hreg.verbs hs
  rw [shielded_iff,guarded_append fun x hx => (hown x hx).1,
    guarded_finish hplain (Nat.le_trans (arrays_le hcases) hreg.arrays),← clean_iff hl hcases,
    and_iff_right fun x hx => (hown x hx).2]
  exact forall₂_congr fun p _ => cleanParam_inject

/- A stand-in for `serde_json` that keeps the sign of a number. -/
def plainText : Value → String
  | .number n => if n.negative then "-5" else "5"
  | .string s => s
  | .null => "null"
  | .bool b => toString b
  | .array _ => "[]"
  | .object _ => "\x7b\x7d"

theorem plainText_lawful : Lawful plainText where
  number := fun n h => by
    by_contra hn
    simp [plainText,hn,dash] at h
  not_bare := fun n => by
    simp only [plainText]
    split <;> decide
  other := fun v hn hs => by
    cases v with
    | number n => exact absurd rfl (hn n)
    | string s => exact absurd rfl (hs s)
    | bool b => exact toString_bool_dash b
    | _ => simp [plainText,dash]

def spawnCall : Map :=
  [("name",.string "s"),("compositor",.bool true),("argv",.array [.string "/usr/bin/foot",.string "--title=x"])]

theorem options_shielded_iff_spawn :
    commandArgs plainText waymuxSpawn spawnCall =
      .ok ["--json","spawn","s","--compositor","--","/usr/bin/foot","--title=x"] ∧
    ∃ ps,traced plainText waymuxSpawn spawnCall=.ok ps ∧ Shielded ps := by
  have hmem : waymuxSpawn∈tools := by decide +kernel
  have hclean : Clean waymuxSpawn spawnCall := by
    simp [Clean,CleanParam,waymuxSpawn,spawnCall,Map.get,lookup_cons,pos,boolflag,dash]
  exact ⟨rfl,_,rfl,(options_shielded_iff plainText_lawful hmem rfl).2.mpr hclean⟩

/-- Two tags, of which the second is a global option of the CLI. -/
def tagCall : Map :=
  [("name",.string "s"),("window_id",.number (.posInt 5)),
    ("tags",.array [.string "a",.string "--socket=/tmp/other.sock"])]

theorem tag_taken_for_option :
    commandArgs plainText waymuxTag tagCall =
      .ok ["--json","tag","s","5","a","--socket=/tmp/other.sock"] ∧
    ∃ ps,traced plainText waymuxTag tagCall=.ok ps ∧ ¬Shielded ps := by
  refine ⟨rfl,[.own "--json",.own "tag",.given (.string "s") "s",.given (.number (.posInt 5)) "5",
    .given (.string "a") "a",
    .given (.string "--socket=/tmp/other.sock") "--socket=/tmp/other.sock"],rfl,fun h => ?_⟩
  rw [shielded_iff] at h
  simp [Guarded,Piece.text,Safe,negativeNumber,dash] at h

end Waymux.Mcp.CallArgs
