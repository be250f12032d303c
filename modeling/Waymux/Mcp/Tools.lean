import Waymux.Mcp.Value

/-!
# Tool registry of the MCP server (`registry.rs`)

The advertised schemas are made from the table.
-/

namespace Waymux.Mcp.Tools

inductive ParamKind
  | positional
  | flag
  | boolFlag
  deriving DecidableEq, Repr

inductive ParamType
  | stringT
  | integerT
  | numberT
  | booleanT
  | jsonStringT
  | stringArrayT
  deriving DecidableEq, Repr

structure Param where
  name : String
  cliName : String
  kind : ParamKind
  ty : ParamType
  required : Bool
  description : String
  deriving DecidableEq, Repr

structure ToolSpec where
  name : String
  verb : String
  argv : List String
  description : String
  params : List Param
  deriving DecidableEq, Repr

def pos (name : String) (ty : ParamType) (required : Bool) (d : String) : Param :=
  ⟨name,name,.positional,ty,required,d⟩
def flag (name cliName : String) (ty : ParamType) (required : Bool) (d : String) : Param :=
  ⟨name,cliName,.flag,ty,required,d⟩
def boolflag (name cliName : String) (d : String) : Param :=
  ⟨name,cliName,.boolFlag,.booleanT,false,d⟩

def waymuxLs : ToolSpec where
  name := "waymux_ls"
  verb := "ls"
  argv := ["ls"]
  description := "List all waymux sessions."
  params := []

def waymuxNew : ToolSpec where
  name := "waymux_new"
  verb := "new"
  argv := ["new"]
  description := "Create a new waymux session."
  params := [
    pos "name" .stringT true "Session name.",
    flag "size" "size" .stringT false "Size in WxH pixels, e.g. 1920x1080. Defaults to 1920x1080.",
    flag "scale" "scale" .integerT false "Output scale. Defaults to 1.",
    boolflag "share_audio" "share-audio"
      "Share host PulseAudio/PipeWire sockets with the session (local-only).",
    flag "mem_cap_mb" "mem-cap-mb" .integerT false "Aggregate memory cap in MiB via cgroup-v2.",
    flag "cpu_cap_pct" "cpu-cap-pct" .integerT false
      "Aggregate CPU cap as percent of one core (200 = two cores).",
    flag "disk_quota_mb" "disk-quota-mb" .integerT false
      "Per-session disk quota in MiB for the runtime dir.",
    flag "fd_limit" "fd-limit" .integerT false
      "File-descriptor cap (RLIMIT_NOFILE) for the session subprocess.",
    flag "api_key_id" "api-key-id" .stringT false "Waymux API-key id (UUID) to attribute usage to."]

def waymuxRm : ToolSpec where
  name := "waymux_rm"
  verb := "rm"
  argv := ["rm"]
  description := "Destroy a waymux session."
  params := [
    pos "name" .stringT true "Session name to destroy."]

def waymuxInfo : ToolSpec where
  name := "waymux_info"
  verb := "info"
  argv := ["info"]
  description := "Show details for a single waymux session."
  params := [
    pos "name" .stringT true "Session name."]

def waymuxSpawn : ToolSpec where
  name := "waymux_spawn"
  verb := "spawn"
  argv := ["spawn"]
  description := "Launch a client (argv) inside a session (local-only). The command and its arguments are " ++
    "passed as a vector after a `--` separator; no shell is involved. argv is bounded (at most " ++
    "~1024 elements, each at most ~256 KiB) and argv[0] must be an absolute path."
  params := [
    pos "name" .stringT true "Session name.",
    boolflag "compositor" "compositor" "Run the spawned client as a nested compositor.",
    .mk "argv" "argv" .positional .stringArrayT true
      ("Command and arguments to run, as an array of strings (e.g. [\"chromium\", " ++
        "\"--app=https://example.com\"]). Passed after `--`; never interpreted by a shell.")]

def waymuxWindows : ToolSpec where
  name := "waymux_windows"
  verb := "windows"
  argv := ["windows"]
  description := "List windows in a session, optionally filtered by tag."
  params := [
    pos "name" .stringT true "Session name.",
    flag "tag" "tag" .stringT false "Only list windows whose tag set contains this tag."]

def waymuxTag : ToolSpec where
  name := "waymux_tag"
  verb := "tag"
  argv := ["tag"]
  description := "Replace a window's tag set with one or more free-form tags."
  params := [
    pos "name" .stringT true "Session name.",
    pos "window_id" .integerT true "Window id (see waymux_windows).",
    .mk "tags" "tags" .positional .stringArrayT true "One or more tags to set on the window (at least one)."]

def waymuxResize : ToolSpec where
  name := "waymux_resize"
  verb := "resize"
  argv := ["resize"]
  description := "Resize a session's virtual output (local-only)."
  params := [
    pos "name" .stringT true "Session name.",
    pos "size" .stringT true "New size in WxH pixels, e.g. 1280x720."]

def waymuxScreenshot : ToolSpec where
  name := "waymux_screenshot"
  verb := "screenshot"
  argv := ["screenshot"]
  description := "Capture a window's current buffer as a PNG. Under --json the PNG is returned " ++
    "base64-encoded (no file is written)."
  params := [
    pos "name" .stringT true "Session name.",
    pos "window_id" .integerT true "Window id (see waymux_windows).",
    flag "output" "output" .stringT false
      ("Ignored under --json (bytes are returned in the result); a placeholder is supplied " ++
        "automatically if omitted.")]

def waymuxScreenshotDesktop : ToolSpec where
  name := "waymux_screenshot_desktop"
  verb := "screenshot-desktop"
  argv := ["screenshot-desktop"]
  description := "Composite every window in the session into a single desktop PNG. Under --json the PNG is " ++
    "returned base64-encoded."
  params := [
    pos "name" .stringT true "Session name.",
    flag "output" "output" .stringT false
      ("Ignored under --json (bytes are returned in the result); a placeholder is supplied " ++
        "automatically if omitted.")]

def waymuxIdle : ToolSpec where
  name := "waymux_idle"
  verb := "idle"
  argv := ["idle"]
  description := "Wait until the session has been quiescent for --quiet-ms."
  params := [
    pos "name" .stringT true "Session name.",
    flag "quiet_ms" "quiet-ms" .integerT false "Required quiet window in milliseconds. Defaults to 500.",
    flag "timeout_ms" "timeout-ms" .integerT false "Overall timeout in milliseconds. Defaults to 10000."]

def waymuxWait : ToolSpec where
  name := "waymux_wait"
  verb := "wait"
  argv := ["wait"]
  description := "Block until a window matching a selector appears, or timeout (local-only)."
  params := [
    pos "name" .stringT true "Session name.",
    flag "app_id" "app-id" .stringT false "Match windows with this app id.",
    flag "title" "title" .stringT false "Match windows with this exact title.",
    flag "tag" "tag" .stringT false "Match windows whose tag set contains this tag.",
    flag "pid" "pid" .integerT false "Match windows owned by this pid.",
    flag "nth" "nth" .integerT false "Select the nth (0-based) matching window.",
    flag "timeout_ms" "timeout-ms" .integerT false "Timeout in milliseconds. Defaults to 5000."]

def waymuxKey : ToolSpec where
  name := "waymux_key"
  verb := "key"
  argv := ["key"]
  description := "Send a synthetic key event (local-only)."
  params := [
    pos "name" .stringT true "Session name.",
    pos "keycode" .integerT true "Linux input keycode to send.",
    boolflag "release" "release" "Send a key release instead of a press.",
    flag "modifiers" "modifiers" .integerT false "Modifier bitmask. Defaults to 0."]

def waymuxClick : ToolSpec where
  name := "waymux_click"
  verb := "click"
  argv := ["click"]
  description := "Move the pointer and optionally press a button (local-only)."
  params := [
    pos "name" .stringT true "Session name.",
    pos "x" .numberT true "Pointer x coordinate.",
    pos "y" .numberT true "Pointer y coordinate.",
    flag "button" "button" .integerT false "Button code to click. 0 (default) just moves the pointer."]

def waymuxInject : ToolSpec where
  name := "waymux_inject"
  verb := "inject"
  argv := ["inject"]
  description := "Inject one or more input ops, supplied as a JSON array string."
  params := [
    pos "name" .stringT true "Session name.",
    flag "ops" "ops" .jsonStringT true
      "JSON array of inject ops, e.g. [\x7b\"type\":\"key\",\"keycode\":30\x7d]."]

def waymuxAttach : ToolSpec where
  name := "waymux_attach"
  verb := "attach"
  argv := ["attach"]
  description := "Return the path of the attach Wayland socket for a session (local-only). Under --json " ++
    "this does NOT launch the interactive client; it returns the socket path."
  params := [
    pos "name" .stringT true "Session name."]

def waymuxDetach : ToolSpec where
  name := "waymux_detach"
  verb := "detach"
  argv := ["detach"]
  description := "Mark a session as detached (local-only)."
  params := [
    pos "name" .stringT true "Session name."]

def waymuxRecordStart : ToolSpec where
  name := "waymux_record_start"
  verb := "record start"
  argv := ["record","start"]
  description := "Start recording a session's composited output to an MKV file (local-only)."
  params := [
    pos "name" .stringT true "Session name to record.",
    pos "output" .stringT false
      "Output MKV path (must be inside the recordings dir). Defaults to an auto-named file.",
    flag "codec" "codec" .stringT false
      ("Video encoder: ffv1 (default), h264-nvenc, h264-vaapi, h264-vulkan, ffv1-vulkan, " ++
        "h264-vulkan-lossless, hevc-vulkan-lossless."),
    flag "secondary_codec" "secondary-codec" .stringT false
      "Optional second encoder writing <output>.secondary.mkv.",
    flag "mode" "mode" .stringT false "Capture mode: focused-window (default) or whole-desktop.",
    flag "min_fps" "min-fps" .integerT false "Minimum fps pacing; re-encodes the last frame when idle."]

def waymuxRecordStop : ToolSpec where
  name := "waymux_record_stop"
  verb := "record stop"
  argv := ["record","stop"]
  description := "Stop a session's recording (local-only)."
  params := [
    pos "name" .stringT true "Session name."]

def waymuxRecordStatus : ToolSpec where
  name := "waymux_record_status"
  verb := "record status"
  argv := ["record","status"]
  description := "Report whether a session is currently recording, plus the output path(s) and codec when " ++
    "active (local-only)."
  params := [
    pos "name" .stringT true "Session name."]

def waymuxViewerStart : ToolSpec where
  name := "waymux_viewer_start"
  verb := "viewer start"
  argv := ["viewer","start"]
  description := "Start a browser WebRTC viewer for a session and return its URL (local-only)."
  params := [
    pos "name" .stringT true "Session name.",
    flag "bind" "bind" .stringT false "Bind address for the bridge. Defaults to 127.0.0.1.",
    flag "port" "port" .integerT false "Explicit TCP port for the bridge. Defaults to an ephemeral port."]

def waymuxViewerStop : ToolSpec where
  name := "waymux_viewer_stop"
  verb := "viewer stop"
  argv := ["viewer","stop"]
  description := "Stop the active viewer for a session (local-only)."
  params := [
    pos "name" .stringT true "Session name."]

def waymuxViewerStatus : ToolSpec where
  name := "waymux_viewer_status"
  verb := "viewer status"
  argv := ["viewer","status"]
  description := "Return the viewer URL if one is active for the session, else a null url (local-only)."
  params := [
    pos "name" .stringT true "Session name."]

def tools : List ToolSpec := [
  waymuxLs,waymuxNew,waymuxRm,waymuxInfo,waymuxSpawn,waymuxWindows,waymuxTag,waymuxResize,
  waymuxScreenshot,waymuxScreenshotDesktop,waymuxIdle,waymuxWait,waymuxKey,waymuxClick,
  waymuxInject,waymuxAttach,waymuxDetach,waymuxRecordStart,waymuxRecordStop,waymuxRecordStatus,
  waymuxViewerStart,waymuxViewerStop,waymuxViewerStatus]

def findTool (name : String) : Option ToolSpec := tools.find? fun t => t.name == name

def schemaTypeFragment (p : Param) : Value :=
  match p.ty with
  | .stringT => .object [("type",.string "string"),("description",.string p.description)]
  | .integerT => .object [("type",.string "integer"),("description",.string p.description)]
  | .numberT => .object [("type",.string "number"),("description",.string p.description)]
  | .booleanT => .object [("type",.string "boolean"),("description",.string p.description)]
  | .jsonStringT => .object [("type",.string "string"),
      ("description",.string s!"{p.description} (must be a JSON-encoded string)")]
  | .stringArrayT => .object [("type",.string "array"),("items",.object [("type",.string "string")]),
      ("description",.string p.description)]

def properties (ps : List Param) : Map := ps.map fun p => (p.name,schemaTypeFragment p)
def requiredNames (ps : List Param) : List Value := (ps.filter Param.required).map fun p => .string p.name

def inputSchema (spec : ToolSpec) : Value :=
  .object ([("type",.string "object"),("properties",.object (properties spec.params))] ++
    (if (requiredNames spec.params).isEmpty then [] else [("required",.array (requiredNames spec.params))]) ++
    [("additionalProperties",.bool false)])

def toolsList : Value :=
  .array (tools.map fun t => .object [("name",.string t.name),("description",.string t.description),
    ("inputSchema",inputSchema t)])

/- Names differ, a switch is an optional boolean and nothing else is one, at most one parameter is an array,
and the table puts no bare `--` on a command line. -/
structure Regular (t : ToolSpec) : Prop where
  names : (t.params.map Param.name).Nodup
  switches : ∀ p∈t.params,p.kind=.boolFlag → p.required=false
  booleans : ∀ p∈t.params,p.kind=.boolFlag ↔ p.ty=.booleanT
  arrays : (t.params.filter fun p => p.ty=.stringArrayT).length≤1
  flags : ∀ p∈t.params,p.cliName ≠ ""
  verbs : "--" ∉ t.argv

instance (t : ToolSpec) : Decidable (Regular t) :=
  decidable_of_iff ((t.params.map Param.name).Nodup ∧
    (∀ p∈t.params,p.kind=.boolFlag → p.required=false) ∧
    (∀ p∈t.params,p.kind=.boolFlag ↔ p.ty=.booleanT) ∧
    (t.params.filter fun p => p.ty=.stringArrayT).length≤1 ∧
    (∀ p∈t.params,p.cliName ≠ "") ∧ "--" ∉ t.argv)
    ⟨fun ⟨a,b,c,d,e,f⟩ => ⟨a,b,c,d,e,f⟩,fun h => ⟨h.1,h.2,h.3,h.4,h.5,h.6⟩⟩

theorem tools_regular : ∀ t∈tools,Regular t := by decide +kernel

end Waymux.Mcp.Tools
