import Waymux.Framing.Base64
import Waymux.Framing.Integers

/-!
# The wire format between session and bridge

The session's side (`viewer/protocol.rs`), then the bridge's (`socket/protocol.go`, `server.go`): a
tag, a little-endian length and the payload. Floats are their bits.
-/

namespace Waymux.Viewer.Protocol
open Framing.LengthPrefix Framing.Integers

def tagNalu : UInt8 := 0x01
def tagPts : UInt8 := 0x02
def tagForceKeyframe : UInt8 := 0x10
def tagInjectOp : UInt8 := 0x11
def tagSetBitrate : UInt8 := 0x12
def tagCursorImage : UInt8 := 0x03
def tagCursorPos : UInt8 := 0x04
def tagShutdown : UInt8 := 0xF0

def maxPayloadBytes : Nat := 1024*1024

inductive Frame
  | nalu (bytes : Bytes)
  | ptsHint (ms : UInt64)
  | forceKeyframe
  | injectOp (json : Bytes)
  | setBitrate (bps : UInt32)
  | shutdown (reason : UInt8)
  | cursorImage (w h hotX hotY : UInt16) (rgba : Bytes)
  | cursorPos (x y seq : UInt32)
  deriving DecidableEq, Repr

def Frame.tag : Frame → UInt8
  | .nalu _ => tagNalu
  | .ptsHint _ => tagPts
  | .forceKeyframe => tagForceKeyframe
  | .injectOp _ => tagInjectOp
  | .setBitrate _ => tagSetBitrate
  | .shutdown _ => tagShutdown
  | .cursorImage _ _ _ _ _ => tagCursorImage
  | .cursorPos _ _ _ => tagCursorPos

def Frame.payload : Frame → Bytes
  | .nalu bytes => bytes
  | .ptsHint ms => leBytes 8 ms.toNat
  | .forceKeyframe => []
  | .injectOp json => json
  | .setBitrate bps => leBytes 4 bps.toNat
  | .shutdown reason => [reason]
  | .cursorImage w h hotX hotY rgba =>
      leBytes 2 w.toNat++(leBytes 2 h.toNat++(leBytes 2 hotX.toNat++(leBytes 2 hotY.toNat++rgba)))
  | .cursorPos x y seq => leBytes 4 x.toNat++(leBytes 4 y.toNat++leBytes 4 seq.toNat)

/- What is appended to the writer. -/
def writePayload (tag : UInt8) (payload : Bytes) : Except String Bytes :=
  if payload.length<2^32 then .ok ([tag]++leBytes 4 payload.length++payload)
  else .error "payload exceeds u32"

def writeFrame (frame : Frame) : Except String Bytes := writePayload frame.tag frame.payload

/- `u16::from_le_bytes` and the like at an offset. -/
def leAt (payload : Bytes) (offset width : Nat) : Nat := ofLe ((payload.drop offset).take width)

def hexDigit (n : Nat) : Char := if n<10 then Char.ofNat (48+n) else Char.ofNat (55+n)

/- `{tag:02X}` -/
def hex02 (b : UInt8) : String := String.ofList [hexDigit (b.toNat/16),hexDigit (b.toNat%16)]

/- The arms of the match on the tag that look into the payload. -/
def parseCursorImage (payload : Bytes) : Except String Frame :=
  let len:=payload.length
  if len<8 then .error "CursorImage header too short"
  else
    let w:=UInt16.ofNat (leAt payload 0 2)
    let h:=UInt16.ofNat (leAt payload 2 2)
    let hotX:=UInt16.ofNat (leAt payload 4 2)
    let hotY:=UInt16.ofNat (leAt payload 6 2)
    let expected:=8+w.toNat*h.toNat*4
    if len≠expected then .error s!"CursorImage len {len} != expected {expected} for {w}x{h}"
    else .ok (.cursorImage w h hotX hotY (payload.drop 8))

def parseCursorPos (payload : Bytes) : Except String Frame :=
  if payload.length≠12 then .error "CursorPos must be 12 bytes"
  else
    .ok (.cursorPos (UInt32.ofNat (leAt payload 0 4)) (UInt32.ofNat (leAt payload 4 4))
      (UInt32.ofNat (leAt payload 8 4)))

def parsePayload (tag : UInt8) (payload : Bytes) : Except String Frame :=
  if tag=tagNalu then .ok (.nalu payload)
  else if tag=tagPts then
    if payload.length≠8 then .error "PtsHint must be 8 bytes"
    else .ok (.ptsHint (UInt64.ofNat (ofLe payload)))
  else if tag=tagForceKeyframe then .ok .forceKeyframe
  else if tag=tagInjectOp then .ok (.injectOp payload)
  else if tag=tagSetBitrate then
    if payload.length≠4 then .error "SetBitrate must be 4 bytes"
    else .ok (.setBitrate (UInt32.ofNat (ofLe payload)))
  else if tag=tagShutdown then
    match payload with
    | [reason] => .ok (.shutdown reason)
    | _ => .error "Shutdown must be 1 byte"
  else if tag=tagCursorImage then parseCursorImage payload
  else if tag=tagCursorPos then parseCursorPos payload
  else .error ("unknown tag 0x" ++ hex02 tag)

/- The frame and what is left of the stream. -/
def readFrame : Bytes → Except String (Frame × Bytes)
  | tag::a::b::c::d::rest =>
      let len:=ofLe [a,b,c,d]
      if maxPayloadBytes<len then .error s!"payload {len} exceeds {maxPayloadBytes}"
      else if rest.length<len then .error "failed to fill whole buffer"
      else (parsePayload tag (rest.take len)).map fun frame => (frame,rest.drop len)
  | _ => .error "failed to fill whole buffer"

end Waymux.Viewer.Protocol

namespace Waymux.Viewer.Socket
open Framing.LengthPrefix Framing.Integers Viewer.Protocol

def maxPayloadBytes : Nat := 2^20

structure Frame where
  tag : UInt8
  payload : Bytes
  deriving DecidableEq, Repr

def knownTags : List UInt8 := [0x01,0x02,0x03,0x04,0x10,0x11,0x12,0xF0]

def writeFrame (f : Frame) : Except String Bytes :=
  if maxPayloadBytes<f.payload.length then
    let len:=f.payload.length
    .error s!"payload {len} exceeds {maxPayloadBytes}"
  else .ok (f.tag::leBytes 4 f.payload.length++f.payload)

/- `io.ReadFull` on a stream that ends too early. -/
def readFullError (got : Bytes) : String := if got=[] then "EOF" else "unexpected EOF"

def readFrame : Bytes → Except String (Frame × Bytes)
  | tag::a::b::c::d::rest =>
      if tag∈knownTags then
        let length:=ofLe [a,b,c,d]
        if maxPayloadBytes<length then .error s!"payload {length} exceeds {maxPayloadBytes}"
        else if rest.length<length then .error ("reading payload: " ++ readFullError rest)
        else .ok (⟨tag,rest.take length⟩,rest.drop length)
      else .error ("unknown tag 0x" ++ hex02 tag)
  | bytes => .error (readFullError bytes)

/- The messages of type `cursor_image` and `cursor_pos`; a key that is not set
is `none`. -/
structure CursorImageMessage where
  w : UInt16
  h : UInt16
  hotspotX : Option UInt16
  hotspotY : Option UInt16
  rgba : Option String
  deriving DecidableEq, Repr

structure CursorPosMessage where
  x : UInt32
  y : UInt32
  seq : UInt32
  deriving DecidableEq, Repr

def cursorImageToWS (f : Frame) : CursorImageMessage :=
  let p:=f.payload
  if p.length<8 then ⟨0,0,none,none,none⟩
  else
    { w := UInt16.ofNat (leAt p 0 2)
      h := UInt16.ofNat (leAt p 2 2)
      hotspotX := some (UInt16.ofNat (leAt p 4 2))
      hotspotY := some (UInt16.ofNat (leAt p 6 2))
      rgba := some (String.ofList (Framing.Base64.encode (p.drop 8)))}

def cursorPosToWS (f : Frame) : CursorPosMessage :=
  let p:=f.payload
  if p.length<12 then ⟨0,0,0⟩
  else ⟨UInt32.ofNat (leAt p 0 4),UInt32.ofNat (leAt p 4 4),UInt32.ofNat (leAt p 8 4)⟩

end Waymux.Viewer.Socket
