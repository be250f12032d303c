import Mathlib.Algebra.Order.Ring.Nat
import Mathlib.Tactic.Ring
import Waymux.Framing.LengthPrefix

/-! # Fixed-width integers as bytes -/

namespace Framing.Integers
open LengthPrefix List

def beBytes : Nat → Nat → Bytes
  | 0, _ => []
  | k+1, n => UInt8.ofNat (n/256^k)::beBytes k n

def ofBe : Bytes → Nat
  | [] => 0
  | b::bs => b.toNat*256^bs.length+ofBe bs

@[simp] theorem beBytes_length (k n : Nat) : (beBytes k n).length=k := by
  induction k with
  | zero => rfl
  | succ k ih => rw [beBytes,length_cons,ih]

theorem ofBe_beBytes (k n : Nat) : ofBe (beBytes k n)=n%256^k := by
  induction k with
  | zero => rw [beBytes,ofBe,pow_zero,Nat.mod_one]
  | succ k ih =>
    have hbyte : (UInt8.ofNat (n/256^k)).toNat=n/256^k%256 := UInt8.toNat_ofNat'
    have hsplit : n%256^(k+1)=n%256^k+256^k*(n/256^k%256) := by
      rw [pow_succ,Nat.mod_mul]
    rw [beBytes,ofBe,beBytes_length,ih,hbyte,hsplit]
    ring

theorem ofBe_beBytes_of_lt {k n : Nat} (h : n<256^k) : ofBe (beBytes k n)=n := by
  rw [ofBe_beBytes,Nat.mod_eq_of_lt h]

theorem beBytes_drop (j k n : Nat) : (beBytes (j+k) n).drop j=beBytes k n := by
  induction j with
  | zero => rw [Nat.zero_add,drop_zero]
  | succ j ih => rw [Nat.succ_add,beBytes,drop_succ_cons,ih]

def leBytes : Nat → Nat → Bytes
  | 0, _ => []
  | k+1, n => UInt8.ofNat n::leBytes k (n/256)

def ofLe : Bytes → Nat
  | [] => 0
  | b::bs => b.toNat+256*ofLe bs

@[simp] theorem leBytes_length (k n : Nat) : (leBytes k n).length=k := by
  induction k generalizing n with
  | zero => rfl
  | succ k ih => rw [leBytes,length_cons,ih]

theorem ofLe_leBytes {k n : Nat} (h : n<256^k) : ofLe (leBytes k n)=n := by
  induction k generalizing n with
  | zero =>
    have h0 : n=0 := Nat.lt_one_iff.mp h
    rw [h0,leBytes,ofLe]
  | succ k ih =>
    have hdiv : n/256<256^k := by
      exact Nat.div_lt_of_lt_mul (by rwa [Nat.mul_comm])
    have hbyte : 2^8=256 := rfl
    rw [leBytes,ofLe,ih hdiv,UInt8.toNat_ofNat',hbyte]
    omega

theorem ofLe_lt (bs : Bytes) : ofLe bs<256^bs.length := by
  induction bs with
  | nil => exact Nat.one_pos
  | cons b bs ih =>
    have hb:=b.toNat_lt
    rw [ofLe,length_cons,pow_succ]
    omega

theorem leBytes_ofLe (bs : Bytes) : leBytes bs.length (ofLe bs)=bs := by
  induction bs with
  | nil => rfl
  | cons b bs ih =>
    have hb:=b.toNat_lt
    have hdiv : (b.toNat+256*ofLe bs)/256=ofLe bs := by omega
    have hlow : UInt8.ofNat (b.toNat+256*ofLe bs)=b := by
      apply UInt8.toNat.inj
      rw [UInt8.toNat_ofNat']
      omega
    rw [ofLe,length_cons,leBytes,hdiv,hlow,ih]

/-- Division of 32-bit numbers, rounded up. -/
def divCeil (a b : UInt32) : UInt32 := if a%b=0 then a/b else a/b+1

theorem divCeil_toNat (x b : UInt32) (hb : 0<b.toNat) :
    (divCeil x b).toNat=(x.toNat+(b.toNat-1))/b.toNat := by
  have hx:=x.toNat_lt
  have hdiv:=Nat.div_add_mod x.toNat b.toNat
  have hlt:=Nat.mod_lt x.toNat hb
  symm
  rw [Nat.div_eq_iff hb]
  unfold divCeil
  split
  next hm =>
    have hm:=congrArg UInt32.toNat hm
    rw [UInt32.toNat_mod,UInt32.toNat_zero] at hm
    rw [UInt32.toNat_div,Nat.mul_comm]
    omega
  next hm =>
    have hm : x.toNat%b.toNat≠0 := fun h => hm (UInt32.toNat_inj.mp (by
      rw [UInt32.toNat_mod,h,UInt32.toNat_zero]))
    have hq : x.toNat/b.toNat≤x.toNat/2 := Nat.div_le_div_left (by omega) (by decide)
    have hone : (x/b+1).toNat=x.toNat/b.toNat+1 := by
      rw [UInt32.toNat_add,UInt32.toNat_div,UInt32.toNat_one]
      exact Nat.mod_eq_of_lt (by omega)
    rw [hone,Nat.add_mul,Nat.mul_comm]
    omega

end Framing.Integers
