import Waymux.Mcp.CallArgs

/-!
# Advertised schemas and accepted arguments

A validator for the keywords the schemas use, what `input_schema` and `build_call_args` ask of a
value, and where they differ.
-/

namespace Waymux.Mcp.Schema
open Tools CallArgs List

def typeHolds (t : String) (v : Value) : Bool :=
  match v with
  | .null => t == "null"
  | .bool _ => t == "boolean"
  | .number n => t == "number" || t == "integer" && n.integral
  | .string _ => t == "string"
  | .array _ => t == "array"
  | .object _ => t == "object"

def propertyNames (kws : Map) : List String :=
  match Map.get kws "properties" with
  | some (.object props) => Map.keys props
  | _ => []

def requiredHold (names : List Value) (m : Map) : Bool :=
  names.all fun name =>
    match name with
    | .string s => Map.containsKey m s
    | _ => true

mutual
/- A schema is an object of keywords, or `true` or `false`. -/
def validates : Value → Value → Bool
  | .object kws, v => keywordsHold kws (propertyNames kws) v
  | .bool b, _ => b
  | _, _ => true

/- Keywords that do not concern the kind of the value, and the ones that only
describe, hold. -/
def keywordsHold : List (String × Value) → List String → Value → Bool
  | [], _, _ => true
  | (keyword,sub)::rest, names, v =>
      (if keyword = "type" then
        match sub with
        | .string t => typeHolds t v
        | _ => true
      else if keyword = "properties" then
        match sub,v with
        | .object props,.object m => propertiesHold props m
        | _,_ => true
      else if keyword = "required" then
        match sub,v with
        | .array req,.object m => requiredHold req m
        | _,_ => true
      else if keyword = "additionalProperties" then
        match v with
        | .object m => m.all fun kw => names.contains kw.1 || validates sub kw.2
        | _ => true
      else if keyword = "items" then
        match v with
        | .array xs => xs.all fun x => validates sub x
        | _ => true
      else true) && keywordsHold rest names v

def propertiesHold : List (String × Value) → Map → Bool
  | [], _ => true
  | (name,sub)::rest, m =>
      (match Map.get m name with
      | some w => validates sub w
      | none => true) && propertiesHold rest m
end

attribute [local simp] validates keywordsHold propertiesHold

def accepts (text : Value → String) (spec : ToolSpec) : Value → Bool
  | .object m => (buildCallArgs text spec m).isOk
  | _ => false

variable {text : Value → String} {spec : ToolSpec} {p : Param} {m : Map}

def isString : Value → Bool
  | .string _ => true
  | _ => false

/- The argument is there if it has to be and is of the kind declared, read so that both sides agree as far
as they can. -/
def fits (p : Param) : Option Value → Bool
  | none => !p.required
  | some v =>
      match p.ty, v with
      | .stringT, .string _ | .jsonStringT, _ | .numberT, .number _ | .booleanT, .bool _ => true
      | .integerT, .number n => n.integral
      | .stringArrayT, .array items => items.all isString
      | _, _ => false

/- A JSON text that is not given as a string: `stringify_scalar` writes it out,
the schema asks for a string. -/
def lenient (p : Param) : Option Value → Bool
  | some v => p.ty == .jsonStringT && !isString v
  | none => false

/- `2.0` for an integer, or no element for a required array: the schema says
nothing against them. -/
def strict (p : Param) : Option Value → Bool
  | some v =>
      match p.ty, v with
      | .integerT, .number (.float _) => true
      | .stringArrayT, .array [] => p.required
      | _, _ => false
  | none => false

theorem stringified_isOk (hty : p.ty≠.stringArrayT) (v : Value) :
    (stringifyScalar text p v).isOk=(fits p (some v) && !strict p (some v)) := by
  unfold stringifyScalar
  cases hp : p.ty with
  | stringArrayT => exact absurd hp hty
  | integerT =>
    cases v with
    | number n =>
      cases n <;> simp [fits,strict,hp,Number.isI64,Number.isU64,Number.integral,Except.isOk,Except.toBool]
    | _ => simp [fits,strict,hp,Except.isOk,Except.toBool]
  | _ => cases v <;> simp [fits,strict,hp,Except.isOk,Except.toBool]

theorem arrayItems_isOk (i : Nat) (items : List Value) : (arrayItems p i items).isOk=items.all isString := by
  induction items generalizing i with
  | nil => rfl
  | cons v items ih =>
    cases v with
    | string =>
      simp only [arrayItems,all_cons,isString,Bool.true_and,← ih (i+1)]
      cases arrayItems p (i+1) items <;> rfl
    | _ => rfl

theorem arrayItems_isEmpty {i : Nat} {items : List Value} {out : List Piece}
    (h : arrayItems p i items=.ok out) : out.isEmpty=items.isEmpty := by
  cases items with
  | nil =>
    cases h
    rfl
  | cons v rest =>
    cases v with
    | string =>
      simp only [arrayItems] at h
      cases hrest : arrayItems p (i+1) rest <;> rw [hrest] at h <;> cases h
      rfl
    | _ => cases h

theorem given_isOk (hswitch : p.kind=.boolFlag → p.required=false)
    (hbool : p.kind=.boolFlag ↔ p.ty=.booleanT) :
    (given text m p).isOk=(fits p (Map.get m p.name) && !strict p (Map.get m p.name)) := by
  unfold given
  cases Map.get m p.name with
  | none =>
    -- only a switch is not asked whether it is required, and none is
    have habsent : (if p.required then .error (missing p) else .ok .nothing : Except String Given).isOk =
        (fits p none && !strict p none) := by
      cases hreq : p.required <;> simp [fits,strict,hreq,Except.isOk,Except.toBool]
    split
    · exact habsent
    · cases hk : p.kind with
      | boolFlag => simp [fits,strict,hswitch hk,Except.isOk,Except.toBool]
      | _ => exact habsent
  | some v =>
    split
    next hty =>
      cases v with
      | array items =>
        have hall:=@arrayItems_isOk p 0 items
        dsimp only
        cases ha : arrayItems p 0 items with
        | error =>
          rw [ha] at hall
          simp [fits,hty,← hall,Except.isOk,Except.toBool]
        | ok =>
          rw [ha] at hall
          dsimp only
          rw [arrayItems_isEmpty ha]
          cases items <;> cases hreq : p.required <;>
            simp [fits,strict,hty,← hall,hreq,Except.isOk,Except.toBool]
      | _ => simp [fits,hty,Except.isOk,Except.toBool]
    next hty =>
      cases hk : p.kind with
      | boolFlag =>
        have hb:=hbool.mp hk
        cases v with
        | bool b => cases b <;> simp [fits,strict,hb,Except.isOk,Except.toBool]
        | _ => simp [fits,hb,Except.isOk,Except.toBool]
      | _ =>
        rw [← @stringified_isOk text p hty v]
        dsimp only
        cases stringifyScalar text p v <;> rfl

theorem givens_isOk (ps : List Param) : (givens text m ps).isOk=ps.all fun p => (given text m p).isOk := by
  induction ps with
  | nil => rfl
  | cons p ps ih =>
    simp only [givens,all_cons,← ih]
    cases given text m p with
    | error => rfl
    | ok => cases givens text m ps <;> rfl

theorem string_validates (v : Value) : validates (.object [("type",.string "string")]) v=isString v := by
  cases v <;> simp [validates,keywordsHold,typeHolds,isString]

theorem fragment_validates (p : Param) (v : Value) :
    validates (schemaTypeFragment p) v=(fits p (some v) && !lenient p (some v)) := by
  cases hp : p.ty with
  | stringArrayT =>
    cases v with
    | array items =>
      have hitems : (items.all fun x => validates (.object [("type",.string "string")]) x)=items.all isString :=
        congrArg items.all (funext string_validates)
      simp [schemaTypeFragment,hp,validates,keywordsHold,typeHolds,fits,lenient,← hitems]
    | _ => simp [schemaTypeFragment,hp,validates,keywordsHold,typeHolds,fits]
  | _ => cases v <;> simp [schemaTypeFragment,hp,validates,keywordsHold,typeHolds,fits,lenient,isString]

theorem propertiesHold_iff (ps : List Param) : propertiesHold (properties ps) m=true ↔
    ∀ p∈ps,∀ w,Map.get m p.name=some w → validates (schemaTypeFragment p) w=true := by
  induction ps with
  | nil => simp [properties,propertiesHold]
  | cons p ps ih =>
    rw [forall_mem_cons,← ih]
    simp only [properties,map_cons,propertiesHold,Bool.and_eq_true]
    refine and_congr_left fun _ => ?_
    cases Map.get m p.name <;> simp

theorem requiredHold_iff (ps : List Param) : requiredHold (requiredNames ps) m=true ↔
    ∀ p∈ps,p.required=true → (Map.get m p.name).isSome=true := by
  simp only [requiredHold,requiredNames,Map.containsKey,all_map,all_filter,all_eq_true]
  refine forall₂_congr fun p _ => ?_
  cases p.required <;> simp

theorem param_valid_iff (p : Param) (o : Option Value) :
    (∀ w,o=some w → validates (schemaTypeFragment p) w=true) ∧ (p.required=true → o.isSome=true) ↔
    fits p o=true ∧ lenient p o=false := by
  cases o with
  | none => simp [fits,lenient]
  | some => simp [fragment_validates]

theorem object_validates : validates (inputSchema spec) (.object m)=true ↔
    propertiesHold (properties spec.params) m=true ∧ requiredHold (requiredNames spec.params) m=true ∧
    ∀ k∈Map.keys m,k∈spec.params.map Param.name := by
  have hkeys : ((properties spec.params).map Prod.fst)=spec.params.map Param.name := by simp [properties]
  by_cases hreq : (requiredNames spec.params).isEmpty=true
  · rw [inputSchema,if_pos hreq,isEmpty_iff.mp hreq]
    simp [validates,keywordsHold,typeHolds,propertyNames,Map.get,lookup_cons,Map.keys,hkeys,requiredHold]
  · rw [inputSchema,if_neg hreq]
    simp [validates,keywordsHold,typeHolds,propertyNames,Map.get,lookup_cons,Map.keys,hkeys,requiredHold]

def Fits (spec : ToolSpec) (m : Map) : Prop :=
  ∀ p∈spec.params,fits p (Map.get m p.name)=true

/-- A name the tool does not know, or a JSON text not given as a string: the schema does not let it pass. -/
def Lenient (spec : ToolSpec) (m : Map) : Prop :=
  (∃ k∈Map.keys m,k∉spec.params.map Param.name) ∨
    ∃ p∈spec.params,lenient p (Map.get m p.name)=true

/-- An integer written as a float, or a required array with no element: the argument check does not let it
pass. -/
def Strict (spec : ToolSpec) (m : Map) : Prop :=
  ∃ p∈spec.params,strict p (Map.get m p.name)=true

theorem accepts_iff (hspec : spec∈tools) : accepts text spec (.object m)=true ↔ Fits spec m ∧ ¬Strict spec m := by
  have hreg:=tools_regular spec hspec
  have hbuild : (buildCallArgs text spec m).isOk=(givens text m spec.params).isOk := by
    unfold buildCallArgs buildPieces
    cases givens text m spec.params <;> rfl
  have hparam : ∀ p∈spec.params,(given text m p).isOk =
      (fits p (Map.get m p.name) && !strict p (Map.get m p.name)) :=
    fun p hp => given_isOk (hreg.switches p hp) (hreg.booleans p hp)
  rw [accepts,hbuild,givens_isOk,all_eq_true]
  calc (∀ p∈spec.params,(given text m p).isOk=true)
      ↔ ∀ p∈spec.params,fits p (Map.get m p.name)=true ∧ strict p (Map.get m p.name)=false :=
        forall₂_congr fun p hp => by rw [hparam p hp]; simp
    _ ↔ Fits spec m ∧ ¬Strict spec m := by simp [Fits,Strict,forall_and]

theorem valid_iff : validates (inputSchema spec) (.object m)=true ↔ Fits spec m ∧ ¬Lenient spec m := by
  have hparams : (propertiesHold (properties spec.params) m=true ∧
      requiredHold (requiredNames spec.params) m=true) ↔
      ∀ p∈spec.params,fits p (Map.get m p.name)=true ∧ lenient p (Map.get m p.name)=false := by
    rw [propertiesHold_iff,requiredHold_iff]
    simp [← param_valid_iff,forall_and]
  rw [object_validates,← and_assoc,hparams]
  simp only [Fits,Lenient,forall_and,not_or,not_exists,not_and,Bool.not_eq_true,not_not]
  rw [and_assoc,and_congr_right_iff]
  exact fun _ => and_comm

/-- For every tool and JSON value: what is accepted is what the schema describes exactly where the two
exceptions on either side fall together. -/
theorem accepted_as_advertised_iff (text : Value → String) (hspec : spec∈tools) (v : Value) :
    (accepts text spec v=true ↔ validates (inputSchema spec) v=true) ↔
    ∀ m,v=.object m → Fits spec m → (Lenient spec m ↔ Strict spec m) := by
  cases v with
  | object m =>
    rw [accepts_iff hspec,valid_iff]
    constructor
    · rintro h _ ⟨⟩ hfits
      simpa [hfits,not_iff_not,iff_comm] using h
    · intro h
      refine and_congr_right fun hfits => ?_
      rw [h m rfl hfits]
  | _ => simp [accepts,validates,inputSchema,keywordsHold,typeHolds]

theorem accepted_as_advertised_iff_inject :
    (accepts plainText waymuxInject (.object [("name",.string "s"),("ops",.array [])])=true ↔
      validates (inputSchema waymuxInject) (.object [("name",.string "s"),("ops",.array [])])=true) ↔
    ∀ m,.object [("name",.string "s"),("ops",.array [])]=Value.object m → Fits waymuxInject m →
      (Lenient waymuxInject m ↔ Strict waymuxInject m) :=
  accepted_as_advertised_iff plainText (by decide +kernel) _

theorem unknown_name_accepted :
    (accepts plainText waymuxLs (.object [("tag",.string "x")])=true ∧
      validates (inputSchema waymuxLs) (.object [("tag",.string "x")])=false) ∧
    accepts plainText waymuxTag (.object [("name",.string "s"),("window_id",.number (.posInt 5)),
      ("tags",.array [])])=false ∧
    validates (inputSchema waymuxTag) (.object [("name",.string "s"),("window_id",.number (.posInt 5)),
      ("tags",.array [])])=true := by
  decide +kernel

end Waymux.Mcp.Schema
