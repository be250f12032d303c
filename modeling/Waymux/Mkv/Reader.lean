import Waymux.Framing.Ebml

/-!
# A Matroska reader

Element ids and defaults are those of the format. A Cluster of unknown size ends at the next Cluster or
at the end of the file.
-/

namespace Waymux.Mkv.Reader
open Framing.LengthPrefix Framing.Integers Framing.Ebml

structure Block where
  payload : Bytes
  timecode : Int
  keyframe : Bool
  deriving DecidableEq, Repr

structure Track where
  number : Nat
  codecId : String
  codecPrivate : Bytes
  width : Nat
  height : Nat
  deriving DecidableEq, Repr

structure Movie where
  track : Track
  /-- the bits of the Duration, a double -/
  duration : Option Nat
  blocks : List Block
  deriving DecidableEq, Repr

def fields (body : Bytes) : Option (List Token) := tokens (fun _ => false) body

def field (id : Nat) : List Token → Option Bytes
  | [] => none
  | .element i body::ts => if i=id then some body else field id ts
  | .opened _::ts => field id ts

def readString (bytes : Bytes) : Option String := String.fromUTF8? ⟨bytes.toArray⟩

def readUint (id dflt : Nat) (ts : List Token) : Nat := ((field id ts).map ofBe).getD dflt

def acceptsHeader (body : Bytes) : Bool :=
  match fields body with
  | none => false
  | some ts =>
      (field 0x4282 ts).bind readString == some "matroska" && readUint 0x42F7 1 ts≤1 &&
        readUint 0x42F2 4 ts≤4 && readUint 0x42F3 8 ts≤8 && readUint 0x4285 1 ts≤4

def readDuration (body : Bytes) : Option (Option Nat) :=
  (fields body).map fun ts => (field 0x4489 ts).map ofBe

def readVideo (body : Bytes) : Option (Nat × Nat) := do
  let ts ← fields body
  let width ← field 0xB0 ts
  let height ← field 0xBA ts
  return (ofBe width,ofBe height)

def readTrackEntry (body : Bytes) : Option Track := do
  let ts ← fields body
  let number ← field 0xD7 ts
  let codecId ← (field 0x86 ts).bind readString
  let (width,height) ← (field 0xE0 ts).bind readVideo
  if readUint 0x83 0 ts=1 then
    return ⟨ofBe number,codecId,(field 0x63A2 ts).getD [],width,height⟩
  else none

def readTracks (body : Bytes) : Option Track := do
  let ts ← fields body
  (field 0xAE ts).bind readTrackEntry

def signed16 (n : Nat) : Int := if n<2^15 then n else n-2^16

def readBlock (number timecode : Nat) (body : Bytes) : Option Block :=
  match takeVint body with
  | some (width,m,hi::lo::flags::payload) =>
      if m-2^(7*width)=number ∧ flags &&& 0x06=0 then
        some ⟨payload,timecode+signed16 (ofBe [hi,lo]),flags &&& 0x80≠0⟩
      else none
  | _ => none

structure Scanner where
  track : Option Track
  duration : Option Nat
  /-- the Cluster being read, and its Timecode once seen -/
  cluster : Option (Option Nat)
  blocks : List Block

def Scanner.start : Scanner := ⟨none,none,none,[]⟩

def Scanner.inCluster (s : Scanner) (timecode : Option Nat) (id : Nat) (body : Bytes) : Option Scanner :=
  if id=0xE7 then some {s with cluster := some (some (ofBe body))}
  else if id=0xA3 then do
    let t ← timecode
    let track ← s.track
    let block ← readBlock track.number t body
    return {s with blocks := s.blocks++[block]}
  else some s

def Scanner.child (s : Scanner) : Token → Option Scanner
  | .element id body => s.cluster.bind fun timecode => s.inCluster timecode id body
  | .opened _ => none

def Scanner.wholeCluster (s : Scanner) (body : Bytes) : Option Scanner := do
  let ts ← fields body
  let s ← ts.foldlM Scanner.child {s with cluster := some none}
  return {s with cluster := none}

def Scanner.token (s : Scanner) : Token → Option Scanner
  | .opened id => if id=0x1F43B675 then some {s with cluster := some none} else none
  | .element id body =>
      if id=0x1F43B675 then s.wholeCluster body
      else match s.cluster with
        | some timecode => s.inCluster timecode id body
        | none =>
            if id=0x1654AE6B then (readTracks body).map fun track => {s with track := some track}
            else if id=0x1549A966 then (readDuration body).map fun d => {s with duration := d}
            else some s

def readSegment (ts : List Token) : Option Movie := do
  let s ← ts.foldlM Scanner.token Scanner.start
  let track ← s.track
  return ⟨track,s.duration,s.blocks⟩

def opens (id : Nat) : Bool := id=0x18538067 || id=0x1F43B675

def read (file : Bytes) : Option Movie :=
  match tokens opens file with
  | some (.element header body::.opened segment::ts) =>
      if header=0x1A45DFA3 ∧ segment=0x18538067 ∧ acceptsHeader body then readSegment ts else none
  | some [.element header body,.element segment children] =>
      if header=0x1A45DFA3 ∧ segment=0x18538067 ∧ acceptsHeader body then
        (tokens opens children).bind readSegment
      else none
  | _ => none

end Waymux.Mkv.Reader
