import Waymux.Registry.HostResources

/-! # Request validation and registry errors (`registry.rs`) -/

namespace Waymux.Registry.SessionNames
open HostResources

def maxOutputDimension : Nat := 16384
def maxArgvLen : Nat := 1024
def maxArgvElemBytes : Nat := 256*1024

/- `CreateError` -/
inductive CreateFault
  | alreadyExists
  | invalidName
  | invalidSize
  deriving DecidableEq, Repr

def CreateFault.text : CreateFault → String
  | .alreadyExists => "session already exists"
  | .invalidName => "invalid session name"
  | .invalidSize =>
      s!"invalid size: width and height must each be between 1 and {maxOutputDimension} pixels"

/- `SpawnError` -/
inductive SpawnFault
  | sessionNotFound
  | invalidArgv
  | argvNotAbsolute
  | argvTooLarge
  deriving DecidableEq, Repr

def SpawnFault.text : SpawnFault → String
  | .sessionNotFound => "session not found"
  | .invalidArgv => "argv is empty"
  | .argvNotAbsolute =>
      "argv[0] must be an absolute path: the daemon clears the environment and does not search PATH, " ++
      "so pass a full path (for example /usr/bin/foot, or $(command -v foot))"
  | .argvTooLarge =>
      s!"argv too large: at most {maxArgvLen} elements, each at most {maxArgvElemBytes} bytes"

/-- Beside the faults, the anyhow contexts between the two existence checks. -/
inductive CreateError
  | fault (e : CreateFault)
  | mkdir
  | bind (k : Sock)
  | spawn
  | ready
  | exitedBeforeReady (code : Int)
  | timedOut
  deriving DecidableEq, Repr

/- `stderr` is what was drained from the child, trimmed. -/
def CreateError.text (dir bin name stderr : String) : CreateError → String
  | .fault e => e.text
  | .mkdir => s!"mkdir {dir}"
  | .bind .ready => s!"bind ready socket {dir}/ready.sock"
  | .bind k => s!"bind events socket {dir}/" ++ k.file
  | .spawn => s!"spawn {bin}"
  | .ready => "waiting for session ready"
  | .exitedBeforeReady code => s!"session {name} exited before ready (code {code}): {stderr}"
  | .timedOut => s!"session {name} spawn timed out after 5s"

inductive SpawnError
  | fault (e : SpawnFault)
  | spawn
  deriving DecidableEq, Repr

def nameChar (c : Char) : Bool := c.isAlphanum || c == '-' || c == '_' || c == '.'

/- The length is in bytes; every accepted character is one byte. -/
def validateSessionName (name : Name) : Except CreateFault Unit :=
  if name.isEmpty || name.utf8ByteSize>64 then .error .invalidName
  else if !name.toList.all nameChar then .error .invalidName
  else if name.toList.head? == some '.' then .error .invalidName
  else .ok ()

def validateOutputSize (width height : Nat) : Except CreateFault Unit :=
  if width=0 ∨ height=0 ∨ width>maxOutputDimension ∨ height>maxOutputDimension then
    .error .invalidSize
  else .ok ()

/- argv[0] absolute, element count and element size bounded, in this order. -/
def validateArgv : List String → Except SpawnFault Unit
  | [] => .error .invalidArgv
  | a::rest =>
      if a.toList.head? != some '/' then .error .argvNotAbsolute
      else if rest.length+1>maxArgvLen then .error .argvTooLarge
      else if (a::rest).any (fun x => x.utf8ByteSize>maxArgvElemBytes) then .error .argvTooLarge
      else .ok ()

end Waymux.Registry.SessionNames
