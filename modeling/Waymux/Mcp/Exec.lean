import Waymux.Framing.LengthPrefix
import Waymux.Mcp.CallArgs

/-!
# Running the CLI for a tool call (`exec.rs`)

What the CLI did is an argument. Bytes are read the way `String::from_utf8_lossy` reads them.
-/

namespace Waymux.Mcp.Exec
open Framing.LengthPrefix Tools CallArgs

/- How many bytes of a code point are to come, its value so far, and where the next byte has to lie. -/
structure Pending where
  need : Nat
  value : Nat
  lo : UInt8
  hi : UInt8

def replacement : Char := Char.ofNat 0xFFFD

def start (b : UInt8) : List Char × Option Pending :=
  if b<0x80 then ([Char.ofNat b.toNat],none)
  else if b<0xC2 then ([replacement],none)
  else if b<0xE0 then ([],some ⟨1,b.toNat%32,0x80,0xBF⟩)
  else if b=0xE0 then ([],some ⟨2,0,0xA0,0xBF⟩)
  else if b=0xED then ([],some ⟨2,13,0x80,0x9F⟩)
  else if b<0xF0 then ([],some ⟨2,b.toNat%16,0x80,0xBF⟩)
  else if b=0xF0 then ([],some ⟨3,0,0x90,0xBF⟩)
  else if b<0xF4 then ([],some ⟨3,b.toNat%8,0x80,0xBF⟩)
  else if b=0xF4 then ([],some ⟨3,4,0x80,0x8F⟩)
  else ([replacement],none)

/- A sequence that is not continued gives one replacement character; the byte after it is looked at again. -/
def decode : Option Pending → Bytes → List Char
  | none, [] => []
  | some _, [] => [replacement]
  | none, b::bs => (start b).1++decode (start b).2 bs
  | some p, b::bs =>
      if p.lo≤b ∧ b≤p.hi then
        let value:=p.value*64+b.toNat%64
        if p.need=1 then Char.ofNat value::decode none bs
        else decode (some ⟨p.need-1,value,0x80,0xBF⟩) bs
      else replacement::(start b).1++decode (start b).2 bs

def fromUtf8Lossy (bs : Bytes) : String := String.ofList (decode none bs)

example : fromUtf8Lossy [0x22,0xE2,0x82,0xAC,0xE2,0x82,0x22,0xF0,0x80] =
    "\"€�\"��" := by decide +kernel

/- `char::is_whitespace`. -/
def isWhitespace (c : Char) : Bool :=
  let n:=c.toNat
  9≤n && n≤13 || n=0x20 || n=0x85 || n=0xA0 || n=0x1680 || 0x2000≤n && n≤0x200A ||
    n=0x2028 || n=0x2029 || n=0x202F || n=0x205F || n=0x3000

def trim (s : String) : String :=
  String.ofList ((s.toList.dropWhile isWhitespace).reverse.dropWhile isWhitespace).reverse

def asBytes (s : String) : Bytes := s.toUTF8.data.toList

/-- What is used of `serde_json`: a reader of JSON texts, and a writer that
escapes line feeds. -/
structure Serde where
  fromStr : String → Except String Value
  text : Value → String
  oneLine : ∀ v,10∉asBytes (text v)

structure ToolOutcome where
  content : List Value
  structured : Option Value
  isError : Bool

def textBlock (s : String) : Value := .object [("type",.string "text"),("text",.string s)]
def imageBlock (b64 : String) : Value :=
  .object [("type",.string "image"),("data",.string b64),("mimeType",.string "image/png")]

def ToolOutcome.ok (content : List Value) (structured : Option Value) : ToolOutcome :=
  ⟨content,structured,false⟩
def ToolOutcome.error (message : String) : ToolOutcome := ⟨[textBlock message],none,true⟩

/- The text leaves out what may be a megabyte of base64. -/
def compactSummary (text : Value → String) : Value → String
  | .object m =>
      if Map.containsKey m "png_b64" then text (.object (Map.insert m "png_b64" (.string "<elided>")))
      else text (.object m)
  | data => text data

def mapSuccess (text : Value → String) (spec : ToolSpec) (data : Value) : ToolOutcome :=
  let summary:=compactSummary text data
  let generic:=ToolOutcome.ok [textBlock s!"{spec.verb}: {summary}"] (some data)
  if spec.verb = "screenshot" ∨ spec.verb = "screenshot-desktop" then
    match (data.get "png_b64").bind Value.asStr with
    | some b64 =>
        let w:=text ((data.get "width").getD .null)
        let h:=text ((data.get "height").getD .null)
        let size:=b64.utf8ByteSize
        .ok [imageBlock b64,textBlock s!"screenshot {w}x{h} PNG ({size} base64 bytes)"] (some data)
    | none => generic
  else generic

def mapEnvelope (serde : Serde) (spec : ToolSpec) (stdout : String) : ToolOutcome :=
  match serde.fromStr (trim stdout) with
  | .error e =>
      .error s!"waymux returned unparseable output for `{spec.verb}`: {e}\n--- stdout ---\n{stdout}"
  | .ok env =>
      match (env.get "ok").bind Value.asBool with
      | some true => mapSuccess serde.text spec ((env.get "data").getD .null)
      | some false =>
          let err:=env.get "error"
          let code:=((err.bind (Value.get · "code")).bind Value.asStr).getD "E_INTERNAL"
          let message:=((err.bind (Value.get · "message")).bind Value.asStr).getD "unknown error"
          .error s!"{code}: {message}"
      | none => .error s!"waymux envelope for `{spec.verb}` missing boolean `ok`: {stdout}"

/-- The binary could not be started, or left a status, shown as `shown`, and its output. -/
inductive CliRun
  | failed (bin e : String)
  | exited (success : Bool) (shown : String) (stdout stderr : Bytes)

def runTool (serde : Serde) (run : CliRun) (spec : ToolSpec) (args : Map) : ToolOutcome :=
  match commandArgs serde.text spec args with
  | .error e => .error e
  | .ok _ =>
      match run with
      | .failed bin e => .error s!"failed to execute waymux binary `{bin}`: {e}"
      | .exited success shown out err =>
          let stdout:=fromUtf8Lossy out
          let stderr:=trim (fromUtf8Lossy err)
          if trim stdout = "" then
            if success then .ok [textBlock s!"{spec.verb}: ok"] (some .null)
            else .error s!"waymux `{spec.verb}` exited with {shown} and no stdout\n--- stderr ---\n{stderr}"
          else mapEnvelope serde spec stdout

end Waymux.Mcp.Exec
