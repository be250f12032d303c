import Waymux.Framing.LengthPrefix

/-! # Base64 with padding -/

namespace Framing.Base64
open LengthPrefix Option

def digit (k : Nat) : Char :=
  if k<26 then Char.ofNat (65+k)
  else if k<52 then Char.ofNat (71+k)
  else if k<62 then Char.ofNat (k-4)
  else if k=62 then '+'
  else '/'

def value (c : Char) : Option Nat :=
  if 65≤c.toNat ∧ c.toNat≤90 then some (c.toNat-65)
  else if 97≤c.toNat ∧ c.toNat≤122 then some (c.toNat-71)
  else if 48≤c.toNat ∧ c.toNat≤57 then some (c.toNat+4)
  else if c = '+' then some 62
  else if c = '/' then some 63
  else none

theorem value_digit {k : Nat} (h : k<64) : value (digit k)=some k := by
  have hall : ∀ k : Fin 64,value (digit k)=some k.val := by decide
  exact hall ⟨k,h⟩

theorem digit_ne_pad {k : Nat} (h : k<64) : digit k ≠ '=' := by
  have hall : ∀ k : Fin 64,digit k ≠ '=' := by decide
  exact hall ⟨k,h⟩

def encode : Bytes → List Char
  | a::b::c::rest =>
      digit (a.toNat/4)::digit (a.toNat%4*16+b.toNat/16) ::
        digit (b.toNat%16*4+c.toNat/64)::digit (c.toNat%64)::encode rest
  | [a,b] =>
      [digit (a.toNat/4),digit (a.toNat%4*16+b.toNat/16),digit (b.toNat%16*4),'=']
  | [a] => [digit (a.toNat/4),digit (a.toNat%4*16),'=','=']
  | [] => []

def decode : List Char → Option Bytes
  | w::x::y::z::rest => do
      let w ← value w
      let x ← value x
      let a:=UInt8.ofNat (w*4+x/16)
      if y = '=' then
        if z = '=' ∧ rest=[] then some [a] else none
      else
        let y ← value y
        let b:=UInt8.ofNat (x%16*16+y/4)
        if z = '=' then
          if rest=[] then some [a,b] else none
        else
          let z ← value z
          let bytes ← decode rest
          some (a::b::UInt8.ofNat (y%4*64+z)::bytes)
  | [] => some []
  | _ => none

theorem ofNat_eq {a : UInt8} {n : Nat} (h : n=a.toNat) : UInt8.ofNat n=a := by
  rw [h,UInt8.ofNat_toNat]

theorem decode_encode (bytes : Bytes) : decode (encode bytes)=some bytes := by
  induction bytes using encode.induct with
  | case1 a b c rest ih =>
    have ha:=a.toNat_lt
    have hb:=b.toNat_lt
    have hc:=c.toNat_lt
    have hw:=@value_digit (a.toNat/4) (by omega)
    have hx:=@value_digit (a.toNat%4*16+b.toNat/16) (by omega)
    have hy:=@value_digit (b.toNat%16*4+c.toNat/64) (by omega)
    have hz:=@value_digit (c.toNat%64) (by omega)
    have hy':=@digit_ne_pad (b.toNat%16*4+c.toNat/64) (by omega)
    have hz':=@digit_ne_pad (c.toNat%64) (by omega)
    simp only [encode,decode,hw,hx,hy,hz,if_neg hy',if_neg hz',ih,bind_eq_bind,bind_some]
    rw [@ofNat_eq a _ (by omega),@ofNat_eq b _ (by omega),@ofNat_eq c _ (by omega)]
  | case2 a b =>
    have ha:=a.toNat_lt
    have hb:=b.toNat_lt
    have hw:=@value_digit (a.toNat/4) (by omega)
    have hx:=@value_digit (a.toNat%4*16+b.toNat/16) (by omega)
    have hy:=@value_digit (b.toNat%16*4) (by omega)
    have hy':=@digit_ne_pad (b.toNat%16*4) (by omega)
    simp only [encode,decode,hw,hx,hy,if_neg hy',if_true,bind_eq_bind,bind_some]
    rw [@ofNat_eq a _ (by omega),@ofNat_eq b _ (by omega)]
  | case3 a =>
    have ha:=a.toNat_lt
    have hw:=@value_digit (a.toNat/4) (by omega)
    have hx:=@value_digit (a.toNat%4*16) (by omega)
    simp only [encode,decode,hw,hx,if_true,and_self,bind_eq_bind,bind_some]
    rw [@ofNat_eq a _ (by omega)]
  | case4 => rfl

end Framing.Base64
