import Waymux.Framing.LengthPrefix

/-!
# Internet addresses in text form

An address is its sixteen bytes; one of version 4 is held in its mapped form.
-/

namespace Framing.Addresses
open LengthPrefix

/- One to three digits, no leading zero, at most 255. -/
def octet (s : List Char) : Option UInt8 :=
  if s=[] ∨ !s.all Char.isDigit then none
  else if 1<s.length ∧ s.head?=some '0' then none
  else
    let n:=s.foldl (fun n c => n*10+(c.toNat-48)) 0
    if n≤255 then some (UInt8.ofNat n) else none

def parseV4 (s : List Char) : Option Bytes :=
  match s.splitOn '.' with
  | [a,b,c,d] => do
      let a ← octet a
      let b ← octet b
      let c ← octet c
      let d ← octet d
      some [a,b,c,d]
  | _ => none

def mapped (v4 : Bytes) : Bytes := List.replicate 10 0++[255,255]++v4

def hexValue (c : Char) : Option Nat :=
  if '0'≤c ∧ c ≤ '9' then some (c.toNat-48)
  else if 'a'≤c ∧ c ≤ 'f' then some (c.toNat-87)
  else if 'A'≤c ∧ c ≤ 'F' then some (c.toNat-55)
  else none

def isHex (c : Char) : Bool := (hexValue c).isSome

/- The two bytes of a group of one to four digits. -/
def group (s : List Char) : Option Bytes :=
  if s.length=0 ∨ 4<s.length then none
  else
    let n:=s.foldl (fun n c => n*16+(hexValue c).getD 0) 0
    some [UInt8.ofNat (n/256),UInt8.ofNat n]

/- Reads at most `n` groups behind the bytes `ip`; `gap` is where zeros have been left out. -/
def groups : Nat → List Char → Bytes → Option Nat → Option (Bytes × Option Nat)
  | 0, s, ip, gap => if s=[] then some (ip,gap) else none
  | n+1, s, ip, gap => do
      let bytes ← group (s.takeWhile isHex)
      match s.dropWhile isHex with
      | [] => some (ip++bytes,gap)
      | '.'::_ =>
          if (gap=none ∧ ip.length≠12) ∨ 16 < ip.length+4 then none
          else (parseV4 s).map fun v4 => (ip++v4,gap)
      | [':',':'] => if gap=none then some (ip++bytes,some (ip.length+2)) else none
      | ':' :: ':'::rest => if gap=none then groups n rest (ip++bytes) (some (ip.length+2)) else none
      | [':'] => none
      | ':'::rest => groups n rest (ip++bytes) gap
      | _ => none

/- What was left out is at least one group. -/
def expand : Bytes × Option Nat → Option Bytes
  | (ip,none) => if ip.length<16 then none else some ip
  | (ip,some gap) =>
      if ip.length<16 then some (ip.take gap++List.replicate (16-ip.length) 0++ip.drop gap) else none

def parseV6 (s : List Char) : Option Bytes :=
  match s with
  | [':',':'] => some (List.replicate 16 0)
  | ':' :: ':'::rest => (groups 8 rest [] (some 0)).bind expand
  | s => (groups 8 s [] none).bind expand

/- The first dot or colon tells the form; an address with a zone is refused. -/
def parseIP (s : String) : Option Bytes :=
  if '%'∈s.toList then none
  else match s.toList.find? (fun c => c = '.' || c = ':') with
    | some '.' => (parseV4 s.toList).map mapped
    | some _ => parseV6 s.toList
    | none => none

def to4 (ip : Bytes) : Option Bytes :=
  if ip.length=16 ∧ ip.take 12=List.replicate 10 0++[255,255] then some (ip.drop 12) else none

def isLoopback (ip : Bytes) : Bool :=
  match to4 ip with
  | some v4 => v4.head?=some 127
  | none => ip=List.replicate 15 0++[1]

inductive Loopback : Bytes → Prop
  | v4 (a b c : UInt8) : Loopback (mapped [127,a,b,c])
  | v6 : Loopback (List.replicate 15 0++[1])

theorem to4_mapped {ip v4 : Bytes} (h : to4 ip=some v4) : ip=mapped v4 ∧ v4.length=4 := by
  obtain ⟨⟨hlen,hhead⟩,ht⟩ := Option.ite_none_right_eq_some.mp h
  cases ht
  refine ⟨?_,by rw [List.length_drop,hlen]⟩
  rw [mapped,← hhead,List.take_append_drop]

theorem isLoopback_iff (ip : Bytes) : isLoopback ip=true ↔ Loopback ip := by
  constructor
  · intro h
    unfold isLoopback at h
    split at h
    next v4 hv =>
      obtain ⟨rfl,hlen⟩ := to4_mapped hv
      match v4, hlen with
      | [x,a,b,c], _ =>
        obtain rfl : x=127 := by simpa using h
        exact .v4 a b c
    · rw [of_decide_eq_true h]; exact .v6
  · rintro (⟨a,b,c⟩ | _)
    · rfl
    · decide

example : (parseIP "::ffff:127.8.0.1").map isLoopback=some true := by decide +kernel
example : parseIP "127.0.0.01" = none := by decide +kernel

end Framing.Addresses
