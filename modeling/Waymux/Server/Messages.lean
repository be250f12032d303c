import Waymux.Wire.FrameCodec

/-!
# Messages of the client protocol (`messages.rs`) and their topics

Floating point coordinates are kept as their 64 bits, msgpack values as the bytes they were parsed
from: the handler passes both on unread.
-/

namespace Waymux.Server.Messages
open Framing.LengthPrefix

def currentProtocolVersion : Nat := 4

abbrev F64 := UInt64

inductive KeyState
  | pressed
  | released
  deriving DecidableEq, Repr

inductive TouchPhase
  | down
  | motion
  | up
  deriving DecidableEq, Repr

inductive ScreenshotFormat
  | dmabuf
  | png
  deriving DecidableEq, Repr

inductive RecordingCodec
  | ffv1
  | x264Lossless
  | h264Nvenc
  | h264Vaapi
  | h264Vulkan
  | ffv1Vulkan
  | h264VulkanLossless
  | hevcVulkanLossless
  | cudaNvenc
  deriving DecidableEq, Repr

inductive CaptureMode
  | focusedWindow
  | wholeDesktop
  deriving DecidableEq, Repr

inductive InjectOp
  | key (keycode : Nat) (state : KeyState) (modifiers : Nat)
  | pointer (x y : F64) (button : Nat) (state : KeyState) (axisX axisY : F64)
      (windowId : Option Nat) (content : Bool) (seq : Nat)
  | touch (id : Nat) (x y : F64) (phase : TouchPhase) (windowId : Option Nat) (content : Bool)
  deriving DecidableEq, Repr

structure CreateSessionParams where
  name : String
  width : Nat
  height : Nat
  scale : Nat
  env : List (String × String)
  shareClipboard : Bool
  shareAudio : Bool
  memCapMb : Option Nat
  cpuCapPct : Option Nat
  diskQuotaMb : Option Nat
  fdLimit : Option Nat
  apiKeyId : Option String
  codec : Option String
  gpuType : Option String
  deriving DecidableEq, Repr

inductive RequestMethod
  | hello (clientProtocol : Nat)
  | listSessions
  | createSession (params : CreateSessionParams)
  | destroySession (name : String)
  | attach (name : String)
  | detach (name : String)
  | resize (name : String) (width height : Nat)
  | spawn (name : String) (argv : List String) (env : List (String × String)) (compositor : Bool)
  | listWindows (name : String)
  | tagWindow (name : String) (windowId : Nat) (tags : List String)
  | screenshot (name : String) (windowId : Option Nat) (format : ScreenshotFormat)
  | screenshotDesktop (name : String) (format : ScreenshotFormat)
  | waitForIdle (name : String) (quietMs timeoutMs : Nat)
  | subscribe (topics : List String)
  | injectKey (name : String) (keycode : Nat) (state : KeyState) (modifiers : Nat)
  | injectPointer (name : String) (x y : F64) (button : Nat) (state : KeyState) (axisX axisY : F64)
      (windowId : Option Nat) (content : Bool)
  | injectTouch (name : String) (id : Nat) (x y : F64) (phase : TouchPhase)
      (windowId : Option Nat) (content : Bool)
  | injectBatch (name : String) (ops : List InjectOp)
  | injectSelector (session selector : String) (button : Nat) (pressed content : Bool)
  | streamLogs (name : String) (follow : Bool)
  | recordStart (name : String) (path : Option String) (codec secondaryCodec : Option RecordingCodec)
      (mode : Option CaptureMode) (minFps : Option Nat)
  | recordStop (name : String)
  | recordStatus (name : String)
  | viewerStart (session : String) (bind : Option String) (port : Option Nat)
  | viewerStop (session : String)
  | viewerStatus (session : String)
  deriving DecidableEq, Repr

structure Request where
  id : Nat
  method : RequestMethod
  deriving DecidableEq, Repr

/- `method_name` -/
def RequestMethod.name : RequestMethod → String
  | .hello .. => "hello"
  | .listSessions => "list_sessions"
  | .createSession .. => "create_session"
  | .destroySession .. => "destroy_session"
  | .attach .. => "attach"
  | .detach .. => "detach"
  | .resize .. => "resize"
  | .spawn .. => "spawn"
  | .listWindows .. => "list_windows"
  | .tagWindow .. => "tag_window"
  | .screenshot .. => "screenshot"
  | .screenshotDesktop .. => "screenshot_desktop"
  | .waitForIdle .. => "wait_for_idle"
  | .subscribe .. => "subscribe"
  | .injectKey .. => "inject_key"
  | .injectPointer .. => "inject_pointer"
  | .injectBatch .. => "inject_batch"
  | .injectSelector .. => "inject_selector"
  | .injectTouch .. => "inject_touch"
  | .recordStart .. => "record_start"
  | .recordStop .. => "record_stop"
  | .recordStatus .. => "record_status"
  | .streamLogs .. => "stream_logs"
  | .viewerStart .. => "viewer_start"
  | .viewerStop .. => "viewer_stop"
  | .viewerStatus .. => "viewer_status"

inductive ErrorCode
  | notFound
  | alreadyExists
  | protoVersion
  | noRenderNode
  | resizeRejected
  | backpressure
  | notImplemented
  | badRequest
  | internal
  | unknown
  deriving DecidableEq, Repr

structure ResponseError where
  code : ErrorCode
  message : String
  detail : Option Bytes
  deriving DecidableEq, Repr

def ResponseError.new (code : ErrorCode) (message : String) : ResponseError := ⟨code,message,none⟩

structure Response where
  id : Nat
  ok : Bool
  result : Option Bytes
  error : Option ResponseError
  deriving DecidableEq, Repr

/- `value` is what `to_vec_named` made of the payload. -/
def Response.success (id : Nat) (value : Bytes) : Response := ⟨id,true,some value,none⟩

def Response.failure (id : Nat) (error : ResponseError) : Response := ⟨id,false,none,some error⟩

structure HelloResult where
  serverProtocol : Nat
  capabilities : List String
  deriving DecidableEq, Repr

structure Rect where
  x : Int
  y : Int
  width : Nat
  height : Nat
  deriving DecidableEq, Repr

structure WindowChange where
  title : Option String
  appId : Option String
  geometry : Option Rect
  focused : Option Bool
  deriving DecidableEq, Repr

inductive EventBody
  | sessionCreated (name : String)
  | sessionDestroyed (name : String) (exitCode : Int)
  | childExited (name : String) (pid exitCode : Int)
  | sessionCrashed (name : String) (pid exitCode : Int)
  | occluded (name : String) (occluded : Bool)
  | windowCreated (name : String) (windowId : Nat) (appId title : String) (pid : Int)
  | windowDestroyed (name : String) (windowId : Nat)
  | windowChanged (name : String) (windowId : Nat) (fields : WindowChange)
  | damage (name : String) (serial timestampNs : Nat)
  | log (name stream text : String)
  deriving DecidableEq, Repr

structure Event where
  id : Nat
  body : EventBody
  deriving DecidableEq, Repr

def Event.new (body : EventBody) : Event := ⟨0,body⟩

def EventBody.isLog : EventBody → Bool
  | .log .. => true
  | _ => false

/- `str::strip_prefix` -/
def stripPrefix (pre text : String) : Option String :=
  if pre.toList.isPrefixOf text.toList then some (String.ofList (text.toList.drop pre.length)) else none

def topicMatches (event : Event) (topics : List String) : Bool :=
  if topics.isEmpty then false
  else match event.body with
    | .sessionCreated .. | .sessionDestroyed .. | .sessionCrashed .. | .occluded .. | .childExited .. =>
        topics.any (· == "sessions")
    | .windowCreated .. | .windowDestroyed .. | .windowChanged .. => topics.any (· == "windows")
    | .damage name .. =>
        topics.any fun t => t == "damage" || (stripPrefix "damage:" t).any (· == name)
    | .log name .. => topics.any fun t => t == "logs" || (stripPrefix "logs:" t).any (· == name)

theorem topicMatches_log {topics : List String} {t name stream text : String} (ht : t∈topics)
    (h : t = "logs" ∨ stripPrefix "logs:" t=some name) :
    topicMatches (.new (.log name stream text)) topics=true := by
  have hne : topics.isEmpty=false := by
    cases topics with
    | nil => cases ht
    | cons => rfl
  simp only [topicMatches,Event.new,hne,Bool.false_eq_true,if_false,List.any_eq_true]
  refine ⟨t,ht,?_⟩
  rcases h with rfl | h
  · simp
  · simp [h]

example : topicMatches (.new (.damage "foo" 1 1)) ["damage:foo"]=true := by decide
example : topicMatches (.new (.log "foo" "stdout" "x")) ["logs:bar","sessions"]=false := by decide

end Waymux.Server.Messages
