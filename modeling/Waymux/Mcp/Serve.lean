import Waymux.Framing.Lines
import Waymux.Interleave.Runs
import Waymux.Mcp.Exec

/-!
# The stdio loop of the MCP server (`server.rs`)

One byte at a time, on a `BufReader` that is filled in chunks of any size up to its own. What the
CLI does comes with the step that makes the call.
-/

namespace Waymux.Mcp.Serve
open Framing.LengthPrefix Framing.Lines Interleave.Runs Tools Exec List

/-! ### Messages -/

def protocolVersion : String := "2025-06-18"
def serverName : String := "waymux-mcp"
def serverVersion : String := "0.2.0-dev"

def parseError : Number := .negInt (-32700) (by decide)
def invalidRequest : Number := .negInt (-32600) (by decide)
def methodNotFound : Number := .negInt (-32601) (by decide)
def invalidParams : Number := .negInt (-32602) (by decide)

def maxLineSize : Nat := 8*1024*1024

def rpcResult (id result : Value) : Value :=
  .object [("jsonrpc",.string "2.0"),("id",id),("result",result)]

def rpcError (id : Value) (code : Number) (message : String) : Value :=
  .object [("jsonrpc",.string "2.0"),("id",id),
    ("error",.object [("code",.number code),("message",.string message)])]

def outcomeToResult (outcome : ToolOutcome) : Value :=
  .object ([("content",.array outcome.content)] ++
    (match outcome.structured with
    | some structured => [("structuredContent",structured)]
    | none => []) ++
    (if outcome.isError then [("isError",.bool true)] else []))

def initializeResult : Value :=
  .object [("protocolVersion",.string protocolVersion),
    ("serverInfo",.object [("name",.string serverName),("version",.string serverVersion)]),
    ("capabilities",.object [("tools",.object [("listChanged",.bool false)])])]

inductive Handled
  | respond (resp : Value)
  | silent

def handleToolsCall (serde : Serde) (run : CliRun) (id msg : Value) : Value :=
  match msg.get "params" with
  | none => rpcError id invalidParams "missing params"
  | some params =>
      match (params.get "name").bind Value.asStr with
      | none => rpcError id invalidParams "missing tool name"
      | some name =>
          match findTool name with
          | none => rpcError id invalidParams s!"unknown tool: {name}"
          | some spec =>
              match params.get "arguments" with
              | none | some .null => rpcResult id (outcomeToResult (runTool serde run spec []))
              | some (.object m) => rpcResult id (outcomeToResult (runTool serde run spec m))
              | some _ => rpcError id invalidParams "`arguments` must be an object"

def handleMessage (serde : Serde) (run : CliRun) (msg : Value) : Handled :=
  match (msg.get "method").bind Value.asStr, msg.get "id" with
  | none, some id => .respond (rpcError id invalidRequest "missing method")
  | none, none => .silent
  | some _, none => .silent
  | some method, some id =>
      if method = "initialize" then .respond (rpcResult id initializeResult)
      else if method = "tools/list" then .respond (rpcResult id (.object [("tools",toolsList)]))
      else if method = "tools/call" then .respond (handleToolsCall serde run id msg)
      else if method = "ping" then .respond (rpcResult id (.object []))
      else .respond (rpcError id methodNotFound s!"method not found: {method}")

/-! ### Lines -/

inductive LineRead
  | line (bytes : Bytes)
  | tooLong

/- The response to what `read_line_bounded` returned, if there is one. -/
def reply (serde : Serde) (run : CliRun) : LineRead → Option Value
  | .tooLong => some (rpcError .null parseError s!"line exceeds {maxLineSize} bytes; rejected")
  | .line bytes =>
      let trimmed:=trim (fromUtf8Lossy bytes)
      if trimmed = "" then none
      else match serde.fromStr trimmed with
        | .error e => some (rpcError .null parseError s!"parse error: {e}")
        | .ok msg =>
            match handleMessage serde run msg with
            | .respond resp => some resp
            | .silent => none

def writeLine (serde : Serde) (v : Value) : Bytes := asBytes (serde.text v)++[10]

def bufSize : Nat := 8192

/- `read_line_bounded` in its first loop, in the one that discards what is left
of a line, or `serve` returned. -/
inductive Pc
  | line (buf : Bytes)
  | drain (buf : Bytes)
  | stopped
  deriving DecidableEq, Repr

/- `arrived` is all that has come on standard input, `avail` what of it is still
in the `BufReader`. -/
structure State where
  arrived : Bytes
  avail : Bytes
  ended : Bool
  pc : Pc
  out : Bytes
  deriving DecidableEq, Repr

def init : State := ⟨[],[],false,.line [],[]⟩

inductive Act
  | fill (chunk : Bytes)
  | close
  | read (run : CliRun)

/- `read_line_bounded` returns and the loop body runs. -/
def serveLine (serde : Serde) (run : CliRun) (s : State) (rest : Bytes) (l : LineRead) : State :=
  {s with avail := rest, pc := .line [], out := s.out++((reply serde run l).map (writeLine serde)).getD []}

def step (serde : Serde) (s : State) : Act → Option State
  | .fill chunk =>
      if s.pc≠.stopped ∧ s.avail=[] ∧ s.ended=false ∧ chunk≠[] ∧ chunk.length≤bufSize then
        some {s with arrived := s.arrived++chunk, avail := chunk}
      else none
  | .close =>
      if s.pc≠.stopped ∧ s.avail=[] ∧ s.ended=false then some {s with ended := true} else none
  | .read run =>
      match s.pc, s.avail with
      | .stopped, _ => none
      | .line buf, [] =>
          if s.ended=false then none
          else if buf=[] then some {s with pc := .stopped}
          else some (serveLine serde run s [] (.line buf))
      | .line buf, b::rest =>
          if b=10 then some (serveLine serde run s rest (.line buf))
          else if maxLineSize≤buf.length then some {s with avail := rest, pc := .drain buf}
          else some {s with avail := rest, pc := .line (buf++[b])}
      | .drain _, [] => if s.ended=false then none else some (serveLine serde run s [] .tooLong)
      | .drain buf, b::rest =>
          if b=10 then some (serveLine serde run s rest .tooLong)
          else some {s with avail := rest, pc := .drain buf}

variable {serde : Serde} {s t : State} {a : Act} {run : CliRun} {ls : List Bytes} {l cur out : Bytes}

/-! ### What one step does -/

inductive Turn (serde : Serde) (s : State) : Act → State → Prop
  | filled (chunk : Bytes) : s.pc≠.stopped → s.avail=[] → s.ended=false → chunk≠[] →
      chunk.length≤bufSize → Turn serde s (.fill chunk) {s with arrived := s.arrived++chunk, avail := chunk}
  | closed : s.pc≠.stopped → s.avail=[] → s.ended=false → Turn serde s .close {s with ended := true}
  | pushed (run : CliRun) (buf rest : Bytes) (b : UInt8) : s.pc=.line buf → s.avail=b::rest → b≠10 →
      buf.length < maxLineSize → Turn serde s (.read run) {s with avail := rest, pc := .line (buf++[b])}
  | overflowed (run : CliRun) (buf rest : Bytes) (b : UInt8) : s.pc=.line buf → s.avail=b::rest → b≠10 →
      maxLineSize≤buf.length → Turn serde s (.read run) {s with avail := rest, pc := .drain buf}
  | skipped (run : CliRun) (buf rest : Bytes) (b : UInt8) : s.pc=.drain buf → s.avail=b::rest → b≠10 →
      Turn serde s (.read run) {s with avail := rest, pc := .drain buf}
  | newline (run : CliRun) (buf rest : Bytes) : s.pc=.line buf → s.avail=10::rest →
      Turn serde s (.read run) (serveLine serde run s rest (.line buf))
  | resynced (run : CliRun) (buf rest : Bytes) : s.pc=.drain buf → s.avail=10::rest →
      Turn serde s (.read run) (serveLine serde run s rest .tooLong)
  | flushed (run : CliRun) (buf : Bytes) : s.pc=.line buf → s.avail=[] → s.ended=true → buf≠[] →
      Turn serde s (.read run) (serveLine serde run s [] (.line buf))
  | rejected (run : CliRun) (buf : Bytes) : s.pc=.drain buf → s.avail=[] → s.ended=true →
      Turn serde s (.read run) (serveLine serde run s [] .tooLong)
  | stopped (run : CliRun) : s.pc=.line [] → s.avail=[] → s.ended=true →
      Turn serde s (.read run) {s with pc := .stopped}

theorem step_turn (h : step serde s a=some t) : Turn serde s a t := by
  revert h
  -- one branch of the definition, one constructor
  fun_cases step serde s a <;> intro h <;> grind [Turn]

theorem read_enabled (hpc : s.pc≠.stopped) (h : s.avail≠[] ∨ s.ended=true) (run : CliRun) :
    ∃ t,step serde s (.read run)=some t := by
  rw [← Option.isSome_iff_exists]
  simp only [step]
  split <;> grind

/-! ### The lines read so far -/

def lineRead (l : Bytes) : LineRead := if maxLineSize<l.length then .tooLong else .line l

inductive Holds (cur : Bytes) : Pc → Prop
  | line : cur.length ≤ maxLineSize → Holds cur (.line cur)
  | drain (buf : Bytes) : buf.length=maxLineSize → maxLineSize<cur.length → Holds cur (.drain buf)

def Served (serde : Serde) (ls : List Bytes) (out : Bytes) : Prop :=
  ∃ os,List.Forall₂ (fun l o => ∃ run,reply serde run (lineRead l)=o) ls os ∧
    out=(os.filterMap id).flatMap (writeLine serde)

theorem Served.concat (h : Served serde ls out) (run : CliRun) (l : Bytes) : Served serde (ls++[l])
    (out++((reply serde run (lineRead l)).map (writeLine serde)).getD []) := by
  obtain ⟨os,hos,rfl⟩ := h
  refine ⟨os++[reply serde run (lineRead l)],?_,?_⟩
  · exact rel_append hos (.cons ⟨run,rfl⟩ .nil)
  · cases reply serde run (lineRead l) <;> simp

/-- A step is taken inside a line, or at the end of the stream with all lines served. -/
inductive Progress (serde : Serde) (s : State) : Prop
  | reading (done : List Bytes) (cur : Bytes) : s.arrived=joined 10 done++(cur++s.avail) →
      (∀ l∈done,10∉l) → 10∉cur → Holds cur s.pc → Served serde done s.out → Progress serde s
  | flushed : s.avail=[] → s.ended=true → (s.pc=.line [] ∨ s.pc=.stopped) →
      Served serde (lines 10 s.arrived) s.out → Progress serde s

theorem Holds.lineRead_line {buf : Bytes} (h : Holds cur (.line buf)) : lineRead cur=.line buf := by
  cases h with
  | line hlen => exact if_neg (Nat.not_lt.mpr hlen)

theorem Holds.lineRead_drain {buf : Bytes} (h : Holds cur (.drain buf)) : lineRead cur=.tooLong := by
  cases h with
  | drain _ _ hlen => exact if_pos hlen

theorem progress_newline {done : List Bytes} {rest : Bytes} {r : LineRead}
    (harr : s.arrived=joined 10 done++(cur++s.avail)) (hdone : ∀ l∈done,10∉l) (hcur : 10∉cur)
    (hserved : Served serde done s.out) (hav : s.avail=10::rest) (hread : lineRead cur=r) :
    Progress serde (serveLine serde run s rest r) := by
  subst hread
  refine .reading (done++[cur]) [] ?_ ?_ (by simp) (.line (by decide)) (hserved.concat run cur)
  · simp [serveLine,harr,hav,joined_concat]
  · intro l hl
    rcases mem_append.mp hl with hl | hl
    · exact hdone l hl
    · exact mem_singleton.mp hl ▸ hcur

theorem progress_eof {done : List Bytes} {r : LineRead}
    (harr : s.arrived=joined 10 done++(cur++s.avail)) (hdone : ∀ l∈done,10∉l) (hcur : 10∉cur)
    (hserved : Served serde done s.out) (hav : s.avail=[]) (hend : s.ended=true) (hne : cur≠[])
    (hread : lineRead cur=r) : Progress serde (serveLine serde run s [] r) := by
  subst hread
  have hlines : lines 10 s.arrived=done++[cur] := by
    rw [harr,hav,append_nil,lines_joined hdone hcur,if_neg hne]
  refine .flushed rfl hend (.inl rfl) ?_
  change Served serde (lines 10 s.arrived) _
  rw [hlines]
  exact hserved.concat run cur

theorem progress_step (hp : Progress serde s) (h : step serde s a=some t) : Progress serde t := by
  have hturn:=step_turn h
  cases hp with
  | reading done cur harr hdone hcur hholds hserved =>
    cases hturn with
    | filled chunk hpc hav =>
      refine .reading done cur ?_ hdone hcur hholds hserved
      simp [harr,hav]
    | closed => exact .reading done cur harr hdone hcur hholds hserved
    | pushed run buf rest b hpc hav hb hlen =>
      rw [hpc] at hholds
      cases hholds
      refine .reading done (cur++[b]) ?_ hdone (by simp [hcur,Ne.symm hb]) (.line ?_) hserved
      · simp [harr,hav]
      · rw [length_append]
        exact hlen
    | overflowed run buf rest b hpc hav hb hlen =>
      rw [hpc] at hholds
      cases hholds with
      | line hle =>
        refine .reading done (cur++[b]) ?_ hdone (by simp [hcur,Ne.symm hb]) (.drain _ ?_ ?_) hserved
        · simp [harr,hav]
        · exact Nat.le_antisymm hle hlen
        · rw [length_append]
          exact Nat.lt_succ_of_le hlen
    | skipped run buf rest b hpc hav hb =>
      rw [hpc] at hholds
      cases hholds with
      | drain _ hbuf hlen =>
        refine .reading done (cur++[b]) ?_ hdone (by simp [hcur,Ne.symm hb]) (.drain _ hbuf ?_) hserved
        · simp [harr,hav]
        · rw [length_append]
          exact Nat.lt_add_right _ hlen
    | newline run buf rest hpc hav =>
      exact progress_newline harr hdone hcur hserved hav (hpc ▸ hholds).lineRead_line
    | resynced run buf rest hpc hav =>
      exact progress_newline harr hdone hcur hserved hav (hpc ▸ hholds).lineRead_drain
    | flushed run buf hpc hav hend hne =>
      rw [hpc] at hholds
      cases hholds with
      | line hle => exact progress_eof harr hdone hcur hserved hav hend hne (Holds.line hle).lineRead_line
    | rejected run buf hpc hav hend =>
      rw [hpc] at hholds
      cases hholds with
      | drain _ hbuf hlen =>
        have hne : cur≠[] := ne_nil_of_length_pos (Nat.zero_lt_of_lt hlen)
        exact progress_eof harr hdone hcur hserved hav hend hne (Holds.drain _ hbuf hlen).lineRead_drain
    | stopped run hpc hav hend =>
      rw [hpc] at hholds
      cases hholds with
      | line =>
        have hlines : lines 10 s.arrived=done := by
          rw [harr,hav,append_nil,lines_joined hdone hcur,if_pos rfl,append_nil]
        exact .flushed hav hend (.inr rfl) (hlines.symm ▸ hserved)
  | flushed hav hend hpc hserved =>
    -- nothing is left but to return
    cases hturn with
    | filled _ _ _ hopen | closed _ _ hopen => simp [hend] at hopen
    | pushed _ _ _ _ _ hav' | overflowed _ _ _ _ _ hav' | skipped _ _ _ _ _ hav' | newline _ _ _ _ hav'
    | resynced _ _ _ _ hav' => simp [hav] at hav'
    | flushed => simp_all
    | rejected _ _ hdrain => simp [hdrain] at hpc
    | stopped => exact .flushed hav hend (.inr rfl) hserved

theorem progress_reach (hr : Reach (step serde) Free init s) : Progress serde s := by
  refine hr.keeps ?_ fun hp _ hs => progress_step hp hs
  exact .reading [] [] rfl (by simp) (by simp) (.line (by decide)) ⟨[],.nil,rfl⟩

/-! ### Buffers -/

def Pc.buffered : Pc → Nat
  | .line buf | .drain buf => buf.length
  | .stopped => 0

structure Bounded (s : State) : Prop where
  line : s.pc.buffered ≤ maxLineSize
  chunk : s.avail.length≤bufSize

theorem bounded_step (hb : Bounded s) (h : step serde s a=some t) : Bounded t := by
  obtain ⟨hline,hchunk⟩ := hb
  cases step_turn h with
  | filled chunk _ _ _ _ hlen => exact ⟨hline,hlen⟩
  | closed => exact ⟨hline,hchunk⟩
  | pushed _ buf rest b _ hav _ hlen =>
    rw [hav] at hchunk
    refine ⟨?_,Nat.le_of_succ_le hchunk⟩
    rw [Pc.buffered,length_append]
    exact hlen
  | overflowed _ _ _ _ hpc hav | skipped _ _ _ _ hpc hav =>
    rw [hpc] at hline
    rw [hav] at hchunk
    exact ⟨hline,Nat.le_of_succ_le hchunk⟩
  | newline _ _ _ _ hav | resynced _ _ _ _ hav =>
    rw [hav] at hchunk
    exact ⟨Nat.zero_le _,Nat.le_of_succ_le hchunk⟩
  | stopped => exact ⟨Nat.zero_le _,hchunk⟩
  | _ => exact ⟨Nat.zero_le _,Nat.zero_le _⟩

/-! ### Every read comes to an end -/

/-- Reading goes on, whatever the CLI does in between, until `Q` holds. -/
inductive Settles (serde : Serde) (Q : State → Prop) : State → Prop
  | done {s : State} : Q s → Settles serde Q s
  | read {s : State} (next : CliRun → State) : (∀ run,step serde s (.read run)=some (next run)) →
      (∀ run,Settles serde Q (next run)) → Settles serde Q s

def Idle (s : State) : Prop := s.pc=.stopped ∨ s.avail=[] ∧ s.ended=false

def weight : Pc → Nat
  | .stopped => 0
  | .line [] => 1
  | .line _ | .drain _ => 2

theorem weight_pos {pc : Pc} (h : pc≠.stopped) : 0<weight pc := by
  unfold weight
  split <;> first | exact absurd rfl h | decide

theorem weight_le (pc : Pc) : weight pc≤2 := by
  unfold weight
  split <;> decide

theorem read_decreases (h : step serde s (.read run)=some t) :
    2*t.avail.length+weight t.pc<2*s.avail.length+weight s.pc ∧ t.ended=s.ended := by
  have hle:=weight_le t.pc
  -- with a byte the line may grow from empty, and without one it is given up
  have hbyte {b : UInt8} {rest : Bytes} (hav : s.avail=b::rest) (hpc : s.pc≠.stopped) :
      2*rest.length+weight t.pc<2*s.avail.length+weight s.pc := by
    have hpos:=weight_pos hpc
    rw [hav,length_cons]
    omega
  cases step_turn h with
  | pushed _ _ _ _ hpc hav | overflowed _ _ _ _ hpc hav | skipped _ _ _ _ hpc hav | newline _ _ _ hpc hav
  | resynced _ _ _ hpc hav => exact ⟨hbyte hav (by simp [hpc]),rfl⟩
  | flushed _ buf hpc hav _ hne =>
    have hw : weight (.line buf)=2 := by
      cases buf with
      | nil => exact absurd rfl hne
      | cons => rfl
    rw [hpc,hav,hw]
    exact ⟨Nat.one_lt_two,rfl⟩
  | rejected _ _ hpc hav =>
    rw [hpc,hav]
    exact ⟨Nat.one_lt_two,rfl⟩
  | stopped _ hpc hav =>
    rw [hpc,hav]
    exact ⟨Nat.zero_lt_one,rfl⟩

theorem settles (serde : Serde) (s : State) : Settles serde (fun t => t.ended=s.ended ∧ Idle t) s := by
  suffices h : ∀ n (u : State),2*u.avail.length+weight u.pc≤n → u.ended=s.ended →
      Settles serde (fun t => t.ended=s.ended ∧ Idle t) u from h _ s (Nat.le_refl _) rfl
  intro n
  induction n with
  | zero =>
    intro u hn hu
    refine .done ⟨hu,.inl ?_⟩
    by_contra hpc
    have hpos:=weight_pos hpc
    omega
  | succ n ih =>
    intro u hn hu
    by_cases hidle : Idle u
    · exact .done ⟨hu,hidle⟩
    · obtain ⟨hpc,hav⟩ := not_or.mp hidle
      have hready : u.avail≠[] ∨ u.ended=true := by
        by_contra hno
        rw [not_or,not_not,Bool.not_eq_true] at hno
        exact hav hno
      choose next hnext using @read_enabled serde u hpc hready
      refine .read next hnext fun run => ?_
      obtain ⟨hless,hended⟩ := read_decreases (hnext run)
      exact ih (next run) (by omega) (hended.trans hu)

/-! ### Responses -/

def message (serde : Serde) (l : Bytes) : Option (Except String Value) :=
  let trimmed:=trim (fromUtf8Lossy l)
  if trimmed = "" then none else some (serde.fromStr trimmed)

def isNotification (v : Value) : Bool :=
  (v.get "jsonrpc").bind Value.asStr == some "2.0" && ((v.get "method").bind Value.asStr).isSome &&
    (v.get "id").isNone &&
    match v.get "params" with
    | none | some (.array _) | some (.object _) => true
    | _ => false

def demands (serde : Serde) (l : Bytes) : Bool :=
  maxLineSize<l.length ||
    match message serde l with
    | none => false
    | some (.error _) => true
    | some (.ok v) => !isNotification v

/- The line is neither a request nor a notification: a JSON value with no `id`
in it and no notification either. -/
def misfit (serde : Serde) (l : Bytes) : Bool :=
  l.length ≤ maxLineSize &&
    match message serde l with
    | some (.ok v) => (v.get "id").isNone && !isNotification v
    | _ => false

def echoedId (serde : Serde) (l : Bytes) : Value :=
  if maxLineSize<l.length then .null
  else match message serde l with
    | some (.ok v) => (v.get "id").getD .null
    | _ => .null

structure Answers (serde : Serde) (l : Bytes) (v : Value) : Prop where
  version : v.get "jsonrpc" = some (.string "2.0")
  id : v.get "id" = some (echoedId serde l)
  one : (v.get "result").isSome = !(v.get "error").isSome
  rejected : maxLineSize<l.length → (v.get "error").isSome=true

/-- The output has one line for each that asks for a response, in order, and it is a response to it. -/
def Answered (serde : Serde) (ls : List Bytes) (out : Bytes) : Prop :=
  List.Forall₂ (fun l o => ∃ v,o=asBytes (serde.text v) ∧ Answers serde l v)
    (ls.filter (demands serde)) (lines 10 out)

inductive ResponseTo (id : Value) : Value → Prop
  | result (r : Value) : ResponseTo id (rpcResult id r)
  | error (code : Number) (m : String) : ResponseTo id (rpcError id code m)

theorem ResponseTo.answers {id v : Value} (h : ResponseTo id v) (hid : echoedId serde l=id)
    (hlen : l.length ≤ maxLineSize) : Answers serde l v := by
  subst hid
  have hshort:=Nat.not_lt.mpr hlen
  cases h with
  | result => exact ⟨rfl,rfl,rfl,fun hlong => absurd hlong hshort⟩
  | error => exact ⟨rfl,rfl,rfl,fun _ => rfl⟩

theorem handleToolsCall_response (id msg : Value) : ResponseTo id (handleToolsCall serde run id msg) := by
  unfold handleToolsCall
  split
  · exact .error _ _
  · split
    · exact .error _ _
    · split
      · exact .error _ _
      · split
        · exact .result _
        · exact .result _
        · exact .result _
        · exact .error _ _

theorem handleMessage_cases (msg : Value) :
    (msg.get "id" = none ∧ handleMessage serde run msg=.silent) ∨
    ∃ id resp,msg.get "id" = some id ∧ handleMessage serde run msg=.respond resp ∧ ResponseTo id resp := by
  unfold handleMessage
  cases hid : msg.get "id" with
  | none =>
    refine .inl ⟨rfl,?_⟩
    cases (msg.get "method").bind Value.asStr <;> rfl
  | some id =>
    refine .inr ⟨id,?_⟩
    cases (msg.get "method").bind Value.asStr with
    | none => exact ⟨_,rfl,rfl,.error _ _⟩
    | some =>
      dsimp only
      split_ifs
      · exact ⟨_,rfl,rfl,.result _⟩
      · exact ⟨_,rfl,rfl,.result _⟩
      · exact ⟨_,rfl,rfl,handleToolsCall_response id msg⟩
      · exact ⟨_,rfl,rfl,.result _⟩
      · exact ⟨_,rfl,rfl,.error _ _⟩

theorem reply_line (l : Bytes) : reply serde run (.line l) =
    match message serde l with
    | none => none
    | some (.error e) => some (rpcError .null parseError s!"parse error: {e}")
    | some (.ok msg) =>
        match handleMessage serde run msg with
        | .respond resp => some resp
        | .silent => none := by
  simp only [reply,message]
  split
  · rfl
  · cases serde.fromStr (trim (fromUtf8Lossy l)) <;> rfl

theorem isNotification_id {v : Value} (h : isNotification v=true) : v.get "id" = none := by
  simp only [isNotification,Bool.and_eq_true,Option.isNone_iff_eq_none] at h
  exact h.1.2

theorem reply_spec (l : Bytes) : (reply serde run (lineRead l)).isSome=(demands serde l && !misfit serde l) ∧
    ∀ v,reply serde run (lineRead l)=some v → Answers serde l v := by
  by_cases hlen : maxLineSize<l.length
  · have hread : lineRead l=.tooLong := if_pos hlen
    have hid : echoedId serde l=.null := if_pos hlen
    rw [hread]
    refine ⟨by simp [reply,demands,misfit,hlen,Nat.not_le.mpr hlen],fun v hv => ?_⟩
    cases hv
    exact ⟨rfl,hid ▸ rfl,rfl,fun _ => rfl⟩
  · have hread : lineRead l=.line l := if_neg hlen
    have hshort:=Nat.le_of_not_lt hlen
    rw [hread,reply_line]
    cases hm : message serde l with
    | none => simp [demands,misfit,hlen,hm]
    | some m =>
      cases m with
      | error =>
        refine ⟨by simp [demands,misfit,hlen,hm],fun v hv => ?_⟩
        cases hv
        exact (ResponseTo.error _ _).answers (by simp [echoedId,hlen,hm]) hshort
      | ok msg =>
        rcases @handleMessage_cases serde run msg with ⟨hid,hsilent⟩ | ⟨id,resp,hid,hresp,hto⟩
        · refine ⟨?_,?_⟩
          · simp [demands,misfit,hlen,hshort,hm,hid,hsilent]
          · simp [hsilent]
        · have hnot : isNotification msg=false := by
            by_contra hnote
            simp [isNotification_id (Bool.not_eq_false _ ▸ hnote)] at hid
          refine ⟨?_,fun v hv => ?_⟩
          · simp [demands,misfit,hlen,hm,hid,hresp,hnot]
          · simp only [hresp,Option.some.injEq] at hv
            subst hv
            exact hto.answers (by simp [echoedId,hlen,hm,hid]) hshort

theorem misfit_demands (h : misfit serde l=true) : demands serde l=true := by
  simp only [misfit,Bool.and_eq_true] at h
  unfold demands
  cases hm : message serde l with
  | none => simp [hm] at h
  | some m =>
    cases m with
    | error => simp [hm] at h
    | ok => simp_all

theorem lines_written (serde : Serde) (vs : List Value) :
    lines 10 (vs.flatMap (writeLine serde))=vs.map fun v => asBytes (serde.text v) := by
  have hjoin : vs.flatMap (writeLine serde)=joined 10 (vs.map fun v => asBytes (serde.text v))++[] := by
    rw [append_nil,joined,flatMap_map]
    rfl
  rw [hjoin,lines_joined (by simpa using fun v _ => serde.oneLine v) (by simp)]
  simp

theorem responses_matched {os : List (Option Value)}
    (h : List.Forall₂ (fun l o => ∃ run,reply serde run (lineRead l)=o) ls os) :
    List.Forall₂ (Answers serde) (ls.filter fun l => demands serde l && !misfit serde l) (os.filterMap id) := by
  induction h with
  | nil => exact .nil
  | cons hreply _ ih =>
    obtain ⟨run,rfl⟩ := hreply
    rename_i l _ _ _
    obtain ⟨hsome,hans⟩ := @reply_spec serde run l
    cases hr : reply serde run (lineRead l) with
    | none =>
      rw [hr] at hsome
      simpa [← hsome] using ih
    | some v =>
      rw [hr] at hsome
      simpa [← hsome] using List.Forall₂.cons (hans v hr) ih

/-- Once these lines are served, all that asked for it are answered if and only
if none is a misfit. -/
theorem answered_iff (h : Served serde ls out) : Answered serde ls out ↔ ∀ l∈ls,misfit serde l=false := by
  obtain ⟨os,hos,rfl⟩ := h
  have hmatched:=responses_matched hos
  unfold Answered
  rw [lines_written,forall₂_map_right_iff]
  constructor
  · intro hall
    -- both count the responses, so nothing that asked is left out
    have hcount : ((ls.filter (demands serde)).filter fun l => !misfit serde l).length =
        (ls.filter (demands serde)).length := by
      simpa [Bool.and_comm] using hmatched.length_eq.trans hall.length_eq.symm
    have hfit:=length_filter_eq_length_iff.mp hcount
    intro l hl
    by_contra hmis
    have hmis : misfit serde l=true := Bool.not_eq_false _ ▸ hmis
    simpa [hmis] using hfit l (mem_filter.mpr ⟨hl,misfit_demands hmis⟩)
  · intro hfit
    have hsame : ls.filter (fun l => demands serde l && !misfit serde l)=ls.filter (demands serde) :=
      filter_congr fun l hl => by simp [hfit l hl]
    rw [← hsame]
    exact hmatched.imp fun l v hv => ⟨v,rfl,hv⟩

/-! ### The whole stream -/

structure GoesOn (serde : Serde) (s : State) : Prop where
  settles : Settles serde (fun t => t.ended=s.ended ∧ Idle t) s
  takes : s.pc≠.stopped → s.avail=[] → s.ended=false → (step serde s .close).isSome=true ∧
    ∀ chunk,chunk≠[] → chunk.length≤bufSize → (step serde s (.fill chunk)).isSome=true

/-- For every stream in whatever chunks: at most the limit and one chunk are held, reading never hangs, and
when the loop waits or returns every line that asks for a response has got one exactly if none is a JSON
value with no id other than a notification. -/
theorem stream_answered_iff (hr : Reach (step serde) Free init s) :
    s.pc.buffered+s.avail.length ≤ maxLineSize+bufSize ∧ GoesOn serde s ∧
    (s.avail=[] → s.ended=false →
      (Answered serde (completeLines 10 s.arrived) s.out ↔
        ∀ l∈completeLines 10 s.arrived,misfit serde l=false)) ∧
    (s.pc=.stopped →
      (Answered serde (lines 10 s.arrived) s.out ↔ ∀ l∈lines 10 s.arrived,misfit serde l=false)) := by
  have hb : Bounded s :=
    hr.keeps ⟨Nat.zero_le _,Nat.zero_le _⟩ fun hb _ hs => bounded_step hb hs
  refine ⟨Nat.add_le_add hb.line hb.chunk,⟨settles serde s,fun hpc hav hend => ⟨?_,fun chunk hne hlen => ?_⟩⟩,
    fun hav hend => answered_iff ?_,fun hpc => answered_iff ?_⟩
  · simp [step,hpc,hav,hend]
  · simp [step,hpc,hav,hend,hne,hlen]
  · cases progress_reach hr with
    | reading done cur harr hdone hcur _ hserved =>
      rw [harr,hav,append_nil,completeLines_joined hdone hcur]
      exact hserved
    | flushed _ hend' =>
      rw [hend] at hend'
      cases hend'
  · cases progress_reach hr with
    | reading done cur _ _ _ hholds =>
      rw [hpc] at hholds
      cases hholds
    | flushed _ _ _ hserved => exact hserved

/-! ### Runs -/

/- A stand-in for `serde_json` that reads two texts. -/
def smallSerde : Serde where
  fromStr := fun s =>
    if s = "42" then .ok (.number (.posInt 42))
    else if s = "ping" then .ok (.object [("id",.number (.posInt 7)),("method",.string "ping")])
    else .error "expected value"
  text := fun v =>
    match v.get "id" with
    | some .null => "null"
    | some (.number _) => "7"
    | _ => "other"
  oneLine := fun v => by split <;> decide

def reads (n : Nat) : List Act := List.replicate n (.read (.failed "" ""))

/- `ping` in two chunks, something unreadable, and `ping` again with no line feed. -/
def pings : List Act :=
  [Act.fill [112,105]]++reads 2++[Act.fill [110,103,10,33,10]]++reads 5 ++
    [Act.fill [112,105,110,103]]++reads 4++[Act.close]++reads 2

theorem stream_answered_iff_pings : ∃ s,Reach (step smallSerde) Free init s ∧
    (s.pc=.stopped ∧ s.arrived=[112,105,110,103,10,33,10,112,105,110,103] ∧
      s.out=[55,10,110,117,108,108,10,55,10]) ∧
    s.pc.buffered+s.avail.length ≤ maxLineSize+bufSize ∧ GoesOn smallSerde s ∧
    (s.avail=[] → s.ended=false →
      (Answered smallSerde (completeLines 10 s.arrived) s.out ↔
        ∀ l∈completeLines 10 s.arrived,misfit smallSerde l=false)) ∧
    (s.pc=.stopped → (Answered smallSerde (lines 10 s.arrived) s.out ↔
      ∀ l∈lines 10 s.arrived,misfit smallSerde l=false)) := by
  have hrun : ∃ s,Reach (step smallSerde) Free init s ∧ s.pc=.stopped ∧
      s.arrived=[112,105,110,103,10,33,10,112,105,110,103] ∧
      s.out=[55,10,110,117,108,108,10,55,10] :=
    free_observed pings (by decide +kernel)
  obtain ⟨s,hr,hs⟩ := hrun
  exact ⟨s,hr,hs,stream_answered_iff hr⟩

/-- The line `42` is not answered. -/
theorem number_not_answered : ∃ s,Reach (step smallSerde) Free init s ∧ s.pc=.stopped ∧
    s.arrived=[52,50,10] ∧ demands smallSerde [52,50]=true ∧ s.out=[] ∧
    ¬Answered smallSerde (lines 10 s.arrived) s.out := by
  have hrun : ∃ s,Reach (step smallSerde) Free init s ∧ s.pc=.stopped ∧ s.arrived=[52,50,10] ∧ s.out=[] :=
    free_observed ([Act.fill [52,50,10]]++reads 3++[Act.close]++reads 1) (by decide +kernel)
  obtain ⟨s,hr,hpc,harr,hout⟩ := hrun
  refine ⟨s,hr,hpc,harr,by decide +kernel,hout,fun h => ?_⟩
  have hlen:=h.length_eq
  rw [harr,hout] at hlen
  revert hlen
  decide +kernel

end Waymux.Mcp.Serve
