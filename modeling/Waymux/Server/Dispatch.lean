import Waymux.Registry.SessionNames
import Waymux.Server.Messages

/-!
# The hello gate and the dispatcher (`server.rs`)

An arm of `dispatch` answers by itself, waits for one operation of the registry or the backend, or
is the `subscribe` arm, which has a loop of its own.
-/

namespace Waymux.Server.Dispatch
open Framing.LengthPrefix Messages Registry.SessionNames

/- `CreateRequest`: `codec` and `gpu_type` are not passed on. -/
structure CreateRequest where
  name : String
  width : Nat
  height : Nat
  scale : Nat
  env : List (String × String)
  shareClipboard : Bool
  shareAudio : Bool
  memCapMb : Option Nat
  cpuCapPct : Option Nat
  diskQuotaMb : Option Nat
  fdLimit : Option Nat
  apiKeyId : Option String
  deriving DecidableEq, Repr

def CreateRequest.ofParams (p : CreateSessionParams) : CreateRequest where
  name := p.name
  width := p.width
  height := p.height
  scale := p.scale
  env := p.env
  shareClipboard := p.shareClipboard
  shareAudio := p.shareAudio
  memCapMb := p.memCapMb
  cpuCapPct := p.cpuCapPct
  diskQuotaMb := p.diskQuotaMb
  fdLimit := p.fdLimit
  apiKeyId := p.apiKeyId

/-- What the connection handler calls: `create` and `destroy` on the backend,
the rest on the registry. -/
inductive Operation
  | create (req : CreateRequest)
  | destroy (name : String)
  | list
  | attach (name : String)
  | detach (name : String)
  | subscribeEvents
  | replayLogs (session : String)
  | spawnChild (name : String) (argv : List String) (env : List (String × String)) (compositor : Bool)
  | listWindows (name : String)
  | resize (name : String) (width height : Nat)
  | tagWindow (name : String) (windowId : Nat) (tags : List String)
  | waitForIdle (name : String) (quietMs timeoutMs : Nat)
  | injectKey (name : String) (keycode : Nat) (state : KeyState) (modifiers : Nat)
  | injectPointer (name : String) (x y : F64) (button : Nat) (state : KeyState) (axisX axisY : F64)
      (windowId : Option Nat) (content : Bool)
  | injectBatch (name : String) (ops : List InjectOp)
  | injectTouch (name : String) (touchId : Nat) (x y : F64) (phase : TouchPhase)
      (windowId : Option Nat) (content : Bool)
  | recordStart (name : String) (path : Option String) (codec secondaryCodec : Option RecordingCodec)
      (mode : Option CaptureMode) (minFps : Option Nat)
  | recordStop (name : String)
  | recordStatus (name : String)
  | viewerStart (session : String) (bind : Option String) (port : Option Nat)
  | viewerStop (session : String)
  | viewerStatus (session : String)
  | screenshot (name : String) (windowId : Nat)
  | screenshotDesktop (name : String)
  deriving DecidableEq, Repr

inductive ControlFault
  | notFound
  | failed (reason : String)
  deriving DecidableEq, Repr

def ControlFault.text : ControlFault → String
  | .notFound => "session not found"
  | .failed reason => s!"session control call failed: {reason}"

/-- An `anyhow::Error` by the type it can be downcast to. -/
inductive OpError
  | create (e : CreateFault)
  | destroyNotFound
  | spawn (e : SpawnFault)
  | control (e : ControlFault)
  | resizeRejected (reason : String)
  | tagWindowNotFound
  | screenshotFailed (reason : String)
  | other (text : String)
  deriving DecidableEq, Repr

def OpError.text : OpError → String
  | .create e => e.text
  | .destroyNotFound => "session not found"
  | .spawn e => e.text
  | .control e => e.text
  | .resizeRejected reason => s!"resize rejected: {reason}"
  | .tagWindowNotFound => "window not found in session"
  | .screenshotFailed reason => s!"screenshot failed: {reason}"
  | .other text => text

/- The text is kept; the code depends on the type, any other type is internal. -/
def createCode : OpError → ErrorCode
  | .create .alreadyExists => .alreadyExists
  | .create .invalidName => .badRequest
  | .create .invalidSize => .badRequest
  | _ => .internal

def destroyCode : OpError → ErrorCode
  | .destroyNotFound => .notFound
  | _ => .internal

def spawnCode : OpError → ErrorCode
  | .spawn .sessionNotFound => .notFound
  | .spawn .invalidArgv => .badRequest
  | .spawn .argvNotAbsolute => .badRequest
  | .spawn .argvTooLarge => .badRequest
  | _ => .internal

def sessionCtlCode : OpError → ErrorCode
  | .control .notFound => .notFound
  | .control (.failed _) => .internal
  | _ => .internal

def resizeCode : OpError → ErrorCode
  | .control .notFound => .notFound
  | .resizeRejected _ => .resizeRejected
  | _ => .internal

def screenshotCode : OpError → ErrorCode
  | .control .notFound => .notFound
  | .screenshotFailed _ => .notFound
  | _ => .internal

def tagCode : OpError → ErrorCode
  | .control .notFound => .notFound
  | .tagWindowNotFound => .notFound
  | _ => .internal

def internalErr (id : Nat) (text : String) : Response := .failure id (.new .internal text)

/-- Its result as msgpack (or the text of the serialisation error), or its own error. -/
inductive Outcome
  | ok (result : Except String Bytes)
  | err (e : OpError)

/- `Response::success(id, &result).unwrap_or_else(|e| internal_err(id, e))` -/
def succeed (id : Nat) : Except String Bytes → Response
  | .ok value => .success id value
  | .error e => internalErr id e

def answer (id : Nat) (code : OpError → ErrorCode) : Outcome → Response
  | .ok result => succeed id result
  | .err e => .failure id (.new (code e) e.text)

def acceptsHello : RequestMethod → Bool
  | .hello v => v != 0 && decide (v≤currentProtocolVersion)
  | _ => false

def helloResult : HelloResult := ⟨currentProtocolVersion,["subscribe","spawn"]⟩

/- `handle_hello_gate`: the response and the new value of `negotiated`, which
was false. -/
def handleHelloGate (encode : HelloResult → Except String Bytes) (request : Request) :
    Response × Bool :=
  match request.method with
  | .hello v =>
      if v=0 ∨ currentProtocolVersion<v then
        (.failure request.id (.new .protoVersion
          s!"client protocol {v} not supported (server: {currentProtocolVersion})"),false)
      else (succeed request.id (encode helloResult),true)
  | _ => (.failure request.id (.new .protoVersion "first request must be hello"),false)

inductive Arm
  | reply (error : ResponseError)
  | call (op : Operation) (code : OpError → ErrorCode)
  | subscribe (topics : List String)

/- `list` cannot fail, so the code of its error is never looked at. -/
def dispatch : RequestMethod → Arm
  | .hello _ => .reply (.new .protoVersion "hello already completed")
  | .listSessions => .call .list sessionCtlCode
  | .createSession p => .call (.create (.ofParams p)) createCode
  | .attach name => .call (.attach name) sessionCtlCode
  | .detach name => .call (.detach name) sessionCtlCode
  | .destroySession name => .call (.destroy name) destroyCode
  | .subscribe topics => .subscribe topics
  | .spawn name argv env compositor => .call (.spawnChild name argv env compositor) spawnCode
  | .listWindows name => .call (.listWindows name) sessionCtlCode
  | .resize name width height => .call (.resize name width height) resizeCode
  | .tagWindow name windowId tags => .call (.tagWindow name windowId tags) tagCode
  | .waitForIdle name quietMs timeoutMs => .call (.waitForIdle name quietMs timeoutMs) sessionCtlCode
  | .injectKey name keycode state modifiers =>
      .call (.injectKey name keycode state modifiers) sessionCtlCode
  | .injectPointer name x y button state axisX axisY windowId content =>
      .call (.injectPointer name x y button state axisX axisY windowId content) sessionCtlCode
  | .injectBatch name ops => .call (.injectBatch name ops) sessionCtlCode
  | .injectTouch name touchId x y phase windowId content =>
      .call (.injectTouch name touchId x y phase windowId content) sessionCtlCode
  | .recordStart name path codec secondaryCodec mode minFps =>
      .call (.recordStart name path codec secondaryCodec mode minFps) sessionCtlCode
  | .recordStop name => .call (.recordStop name) sessionCtlCode
  | .recordStatus name => .call (.recordStatus name) sessionCtlCode
  | .viewerStart session bind port => .call (.viewerStart session bind port) sessionCtlCode
  | .viewerStop session => .call (.viewerStop session) sessionCtlCode
  | .viewerStatus session => .call (.viewerStatus session) sessionCtlCode
  | .screenshot name (some windowId) _ => .call (.screenshot name windowId) screenshotCode
  | .screenshot _ none _ =>
      .reply (.new .notImplemented "whole-output screenshots are a v2 concern (the protocol spec Q3)")
  | .screenshotDesktop name _ => .call (.screenshotDesktop name) screenshotCode
  | .injectSelector .. =>
      .reply (.new .notImplemented
        ("inject_selector is a reserved slot: resolve the target with `windows` " ++
          "(or `wait`) and inject with an explicit window_id"))
  | .streamLogs name follow =>
      .reply (.new .notImplemented ((RequestMethod.streamLogs name follow).name ++ " not implemented yet"))

@[simp] theorem succeed_id (id : Nat) (r : Except String Bytes) : (succeed id r).id=id := by
  cases r <;> rfl

@[simp] theorem answer_id (id : Nat) (code : OpError → ErrorCode) (o : Outcome) : (answer id code o).id=id := by
  cases o with
  | ok r => exact succeed_id id r
  | err => rfl

theorem handleHelloGate_id (encode : HelloResult → Except String Bytes) (request : Request) :
    (handleHelloGate encode request).1.id=request.id := by
  unfold handleHelloGate
  split
  · split
    · rfl
    · exact succeed_id _ _
  · rfl

theorem handleHelloGate_negotiated (encode : HelloResult → Except String Bytes) (request : Request) :
    (handleHelloGate encode request).2=acceptsHello request.method := by
  unfold handleHelloGate acceptsHello
  cases request.method with
  | hello v =>
    by_cases hv : v=0 ∨ currentProtocolVersion<v
    · have hno : (v != 0 && decide (v≤currentProtocolVersion))=false := by
        rcases hv with rfl | hv
        · rfl
        · simp [Nat.not_le.mpr hv]
      simp [if_pos hv,hno]
    · have hyes : (v != 0 && decide (v≤currentProtocolVersion))=true := by
        simp only [not_or,Nat.not_lt] at hv
        simp [hv.1,hv.2]
      simp [if_neg hv,hyes]
  | _ => rfl

end Waymux.Server.Dispatch
