import Mathlib.Algebra.Group.Nat.Defs
import Mathlib.Data.List.Nodup

/-!
# JSON values as `serde_json` holds them

A number is an unsigned or a negative 64-bit integer when its text is one, and a finite double
otherwise. Objects are read by key only.
-/

namespace Waymux.Mcp
open List

structure F64 where
  bits : UInt64
  finite : (bits >>> 52) &&& 0x7ff≠0x7ff
  deriving DecidableEq, Repr

namespace F64

def negative (x : F64) : Bool := x.bits >>> 63 == 1
def exponent (x : F64) : Nat := ((x.bits >>> 52) &&& 0x7ff).toNat
def fraction (x : F64) : Nat := (x.bits &&& 0xfffffffffffff).toNat

/- The magnitude is `significand * 2 ^ (power - 1075)`. -/
def significand (x : F64) : Nat := if x.exponent=0 then x.fraction else 4503599627370496+x.fraction
def power (x : F64) : Nat := max x.exponent 1

def integral (x : F64) : Bool := 1075≤x.power || x.significand%2^(1075-x.power) == 0

end F64

inductive Number
  | posInt (n : UInt64)
  | negInt (n : Int) (range : -9223372036854775808≤n ∧ n<0)
  | float (x : F64)
  deriving DecidableEq, Repr

namespace Number

def isI64 : Number → Bool
  | .posInt n => n≤9223372036854775807
  | .negInt _ _ => true
  | .float _ => false

def isU64 : Number → Bool
  | .posInt _ => true
  | _ => false

/- Its text begins with a minus sign. -/
def negative : Number → Bool
  | .posInt _ => false
  | .negInt _ _ => true
  | .float x => x.negative

/- The number has no fractional part, however it is written. -/
def integral : Number → Bool
  | .float x => x.integral
  | _ => true

end Number

inductive Value
  | null
  | bool (b : Bool)
  | number (n : Number)
  | string (s : String)
  | array (items : List Value)
  | object (members : List (String × Value))
  deriving BEq, Repr

abbrev Map := List (String × Value)

def Map.get (m : Map) (key : String) : Option Value := List.lookup key m
def Map.containsKey (m : Map) (key : String) : Bool := (Map.get m key).isSome
def Map.insert (m : Map) (key : String) (v : Value) : Map := (key,v)::m.filter fun kv => kv.1≠key
def Map.keys (m : Map) : List String := m.map Prod.fst

theorem lookup_filter_ne {key k : String} (hk : k≠key) (m : Map) :
    List.lookup k (m.filter fun kv => kv.1≠key)=List.lookup k m := by
  induction m with
  | nil => rfl
  | cons kv m ih =>
    obtain ⟨k',w⟩ := kv
    by_cases hkv : k'=key
    · subst hkv
      have hne : (k == k')=false := by simpa using hk
      rw [filter_cons_of_neg (by simp),ih,lookup_cons,hne]
    · rw [filter_cons_of_pos (by simpa using hkv),lookup_cons,lookup_cons,ih]

theorem Map.get_insert (m : Map) (key k : String) (v : Value) :
    Map.get (Map.insert m key v) k=if k=key then some v else Map.get m k := by
  by_cases hk : k=key
  · simp [Map.get,Map.insert,hk]
  · have hne : (k == key)=false := by simpa using hk
    rw [if_neg hk]
    simp only [Map.get,Map.insert,lookup_cons,hne]
    exact lookup_filter_ne hk m

namespace Value

/- Indexing by a string finds nothing in anything but an object. -/
def get : Value → String → Option Value
  | .object m, key => Map.get m key
  | _, _ => none

def asStr : Value → Option String
  | .string s => some s
  | _ => none

def asBool : Value → Option Bool
  | .bool b => some b
  | _ => none

end Value

end Waymux.Mcp
