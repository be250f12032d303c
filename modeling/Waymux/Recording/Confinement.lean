import Waymux.Paths.Components
import Waymux.Server.Messages

/-!
# Where a recording writes (`control.rs`, `recording.rs`)

The threads create the output under the paths of `RecordStart` and, where they run ffmpeg, a log
beside it.
-/

namespace Waymux.Recording.Confinement
open Paths.Components List
open Server.Messages (RecordingCodec)

def logSuffix : List Char := ".log".toList

def secondarySuffix : List Char := ".secondary".toList

def recordingsDir (home : Path) : Path := join home ".local/share/waymux/recordings".toList

def defaultRecordingPath (home : Path) (sessionName : List Char) (seconds : Nat) : Path :=
  join (recordingsDir home) (sessionName ++ '-'::(Nat.toDigits 10 seconds ++ ".mkv".toList))

/-- `.secondary` goes before the extension, if there is one. -/
def secondaryPath (primary : Path) : Path :=
  match parent primary, fileStem primary, extension primary with
  | some dir, some stem, some ext => join dir (stem++secondarySuffix ++ '.'::ext)
  | _, _, _ => primary++secondarySuffix

/-- `recordings_dir` can fail: it creates the directory. -/
def validate (allowed : Except String Path) (path : Path) : Except String Unit :=
  if hasRoot path=false then .error "recording path must be absolute"
  else if .parentDir∈components path then .error "recording path must not contain '..'"
  else
    match allowed with
    | .error e => .error e
    | .ok dir =>
      if startsWith path dir then .ok ()
      else .error ("recording path must be inside " ++ String.ofList dir)

def validatePaths (allowed : Except String Path) (primary : Path) (secondary : Option RecordingCodec) :
    Except String Unit :=
  match validate allowed primary with
  | .error e => .error e
  | .ok () => if secondary.isSome then validate allowed (secondaryPath primary) else .ok ()

/-- The others have a thread of their own, which encodes on the graphics card. -/
def runsFfmpeg : RecordingCodec → Bool
  | .h264Vulkan | .ffv1Vulkan | .h264VulkanLossless | .hevcVulkanLossless => false
  | _ => true

def threadFiles (codec : RecordingCodec) (path : Path) : List Path :=
  if runsFfmpeg codec then [path++logSuffix,path] else [path]

/-- What the threads open for writing. -/
def openedFiles (codec : RecordingCodec) (secondary : Option RecordingCodec) (primary : Path) : List Path :=
  threadFiles codec primary++(secondary.map (threadFiles · (secondaryPath primary))).getD []

/-- Those for which `File::create`, of a thread or of its ffmpeg, succeeds. -/
def createdFiles (creates : Path → Bool) (codec : RecordingCodec) (secondary : Option RecordingCodec)
    (primary : Path) : List Path :=
  (openedFiles codec secondary primary).filter creates

/-- `recordings_dir` has made the directory, and no file is created over it. -/
def Made (dir : Path) (creates : Path → Bool) : Prop :=
  ∀ f,components f=components dir → creates f=false

/-- No slash and no single dot after the last name. -/
def endsInName (path : Path) : Bool := ((pieces path).getLast?.bind component).isSome

structure Inside (dir f : Path) : Prop where
  below : components dir <+: components f
  proper : components f≠components dir
  direct : Component.parentDir∉components f

variable {dir path home : Path} {codec : RecordingCodec} {secondary : Option RecordingCodec}
variable {P before d : List Component} {last n : List Char}

theorem logSuffix_length : logSuffix.length=4 := rfl

theorem secondarySuffix_length : secondarySuffix.length=10 := rfl

theorem logSuffix_ne : logSuffix≠[] := ne_nil_of_length_eq_add_one logSuffix_length

theorem secondarySuffix_ne : secondarySuffix≠[] := ne_nil_of_length_eq_add_one secondarySuffix_length

theorem validate_ok (h : validate (.ok dir) path=.ok ()) :
    hasRoot path=true ∧ .parentDir∉components path ∧ components dir <+: components path := by
  unfold validate at h
  split at h
  · cases h
  · rename_i hroot
    split at h
    · cases h
    · rename_i hparent
      dsimp only at h
      split at h
      · rename_i hstarts
        exact ⟨by simpa using hroot,hparent,startsWith_iff.mp hstarts⟩
      · cases h

theorem validatePaths_ok (h : validatePaths (.ok dir) path secondary=.ok ()) :
    validate (.ok dir) path=.ok () ∧
    (secondary.isSome=true → validate (.ok dir) (secondaryPath path)=.ok ()) := by
  unfold validatePaths at h
  split at h
  · cases h
  · refine ⟨by assumption,fun hsome => ?_⟩
    rwa [if_pos hsome] at h

theorem secondaryPath_cases (h : hasRoot path=true) :
    secondaryPath path=path++secondarySuffix ∨
    ∃ d stem ext,hasRoot d=true ∧ stem≠[] ∧ '/'∉stem ++ '.'::ext ∧
      components path=components d++[Component.normal (stem ++ '.'::ext)] ∧
      secondaryPath path=join d (stem++secondarySuffix ++ '.'::ext) := by
  cases hn : fileName path with
  | none =>
    refine .inl ?_
    simp [secondaryPath,fileStem,hn]
  | some name =>
    cases hsplit : splitName name with
    | none =>
      refine .inl ?_
      simp [secondaryPath,extension,hn,hsplit]
    | some parts =>
      obtain ⟨stem,ext⟩ := parts
      obtain ⟨hname,hstem⟩ := splitName_eq hsplit
      obtain ⟨d,hd,hroot,hcomps⟩ := components_parent h hn
      refine .inr ⟨d,stem,ext,hroot,hstem,?_,?_,?_⟩
      · exact hname ▸ not_mem_fileName hn
      · rw [hcomps,hname]
      · simp [secondaryPath,fileStem,extension,hd,hn,hsplit]

/-- The path itself, which may end with a slash, and names beside it or, after a slash, below it. -/
structure Names (path : Path) (before : List Component) (last : List Char) (d : List Component) (n : List Char) :
    Prop where
  ends : (pieces path).getLast?=some last
  primary : components path=before++(component last).toList
  log : components (path++logSuffix)=before++[Component.normal (last++logSuffix)]
  secondary : components (secondaryPath path)=d++[Component.normal n]
  secondaryLog : components (secondaryPath path++logSuffix)=d++[Component.normal (n++logSuffix)]
  place : (d=before ∧ n=last++secondarySuffix) ∨
    ∃ m,m.length+10=n.length ∧ components path=d++[Component.normal m]

theorem exists_names (h : hasRoot path=true) : ∃ before last d n,Names path before last d n := by
  obtain ⟨before,last,hlast,hpath,hsuffix⟩ := components_suffix h
  have hlog:=hsuffix logSuffix (by decide) (by decide)
  rcases secondaryPath_cases h with hsec | ⟨d,stem,ext,hd,hstem,hslash,hcomps,hsec⟩
  · refine ⟨before,last,before,last++secondarySuffix,hlast,hpath,hlog,?_,?_,.inl ⟨rfl,rfl⟩⟩
    · rw [hsec]
      exact hsuffix _ (by decide) (by decide)
    · have hboth:=hsuffix (secondarySuffix++logSuffix) (by decide) (by decide)
      rw [hsec,append_assoc,hboth,append_assoc]
  · have hn : '/'∉stem++secondarySuffix ++ '.'::ext := by
      have hs : '/'∉secondarySuffix := by decide
      simp_all
    have hlen : (stem ++ '.'::ext).length+10=(stem++secondarySuffix ++ '.'::ext).length := by
      simp only [length_append,length_cons,secondarySuffix_length]
      omega
    refine ⟨before,last,components d,stem++secondarySuffix ++ '.'::ext,hlast,hpath,hlog,?_,?_,.inr ⟨_,hlen,hcomps⟩⟩
    · rw [hsec]
      exact components_child hn (component_of_length (by omega)) _
    · rw [hsec,← join_append (hasRoot_of_not_mem hn) (by simp [hstem])]
      refine components_child ?_ (component_of_length (by rw [length_append]; omega)) _
      simp only [mem_append] at hn ⊢
      tauto

theorem inside_child {f : Path} {name : List Char} (hP : components dir <+: P)
    (hdirect : Component.parentDir∉P) (hf : components f=P++[Component.normal name]) : Inside dir f := by
  refine ⟨?_,fun he => ?_,?_⟩
  · rw [hf]
    exact hP.trans (prefix_append _ _)
  · have hlen:=hP.length_le
    rw [← he,hf,length_append,length_singleton] at hlen
    omega
  · rw [hf]
    simp [hdirect]

/-- What begins with the directory and is not the directory is in it by its last
component. -/
theorem prefix_before {D : List Component} {c : Component} (h : D <+: P++[c]) (hne : P++[c]≠D) : D <+: P := by
  rcases prefix_concat_iff.mp h with rfl | h
  · exact absurd rfl hne
  · exact h

theorem ne_of_length {a b : List Char} (h : a.length≠b.length) :
    P++[Component.normal a]≠P++[Component.normal b] := by
  intro he
  have hab : a=b := by simpa using he
  exact h (congrArg List.length hab)

theorem extended_ne {x : List Char} (hx : x≠[]) :
    before++[Component.normal (last++x)]≠before++(component last).toList := by
  intro he
  cases hc : component last with
  | none => simp [hc] at he
  | some c =>
    have heq : Component.normal (last++x)=c := by simpa [hc] using he
    subst heq
    have := component_normal hc
    exact hx (by simpa using this.symm)

/-- The log is in the directory if the path is below it, or names it with a slash after it. -/
theorem log_inside (hv : validate (.ok dir) path=.ok ())
    (hnames : Names path before last d n) (h : components path≠components dir ∨ component last=none) :
    Inside dir (path++logSuffix) := by
  obtain ⟨-,hdirect,hbelow⟩ := validate_ok hv
  rw [hnames.primary] at hdirect hbelow h
  have hbefore : components dir <+: before := by
    cases hc : component last with
    | none => simpa [hc] using hbelow
    | some c =>
      rw [hc] at hbelow h
      exact prefix_before hbelow (h.resolve_right nofun)
  exact inside_child hbefore (fun hm => hdirect (mem_append_left _ hm)) hnames.log

/-- The second path is checked as well, and it is never the directory if the first one passes. -/
theorem secondary_inside (hv : validate (.ok dir) path=.ok ())
    (hs : validate (.ok dir) (secondaryPath path)=.ok ()) (hnames : Names path before last d n) :
    ∀ f∈[secondaryPath path++logSuffix,secondaryPath path],Inside dir f := by
  obtain ⟨-,-,hbelow⟩ := validate_ok hv
  obtain ⟨-,hdirect,hsecond⟩ := validate_ok hs
  rw [hnames.secondary] at hdirect hsecond
  have hne : d++[Component.normal n]≠components dir := by
    intro he
    rw [← he] at hbelow
    rcases hnames.place with ⟨rfl,rfl⟩ | ⟨m,hm,hcomps⟩
    · rw [hnames.primary] at hbelow
      refine extended_ne secondarySuffix_ne (hbelow.eq_of_length_le ?_)
      cases component last <;> simp
    · rw [hcomps] at hbelow
      refine ne_of_length ?_ (hbelow.eq_of_length_le (by simp))
      omega
  have hd:=prefix_before hsecond hne
  have hparent : Component.parentDir∉d := fun hm => hdirect (mem_append_left _ hm)
  intro f hf
  simp only [mem_cons,not_mem_nil,or_false] at hf
  rcases hf with rfl | rfl
  · exact inside_child hd hparent hnames.secondaryLog
  · exact inside_child hd hparent hnames.secondary

/-- The names of the second recording against those of the first -/
theorem recordings_apart (hnames : Names path before last d n) :
    components path≠d++[Component.normal n] ∧ components path≠d++[Component.normal (n++logSuffix)] ∧
    components (path++logSuffix)≠d++[Component.normal n] ∧
    components (path++logSuffix)≠d++[Component.normal (n++logSuffix)] := by
  obtain ⟨-,hprimary,hlog,-,-,hplace⟩ := hnames
  have hl:=logSuffix_length
  have hs:=secondarySuffix_length
  rcases hplace with ⟨rfl,rfl⟩ | ⟨m,hm,hcomps⟩
  · rw [hprimary,hlog,append_assoc]
    refine ⟨(extended_ne secondarySuffix_ne).symm,(extended_ne ?_).symm,?_,?_⟩
    · exact append_ne_nil_of_left_ne_nil secondarySuffix_ne _
    · exact ne_of_length (by simp only [length_append]; omega)
    · exact ne_of_length (by simp only [length_append]; omega)
  · rw [hcomps]
    refine ⟨ne_of_length (by omega),ne_of_length (by rw [length_append]; omega),?_⟩
    rw [hprimary] at hcomps
    rw [hlog]
    cases hc : component last with
    | none =>
      -- the path ends with a slash, its log is one level further down
      have hbefore : before=d++[Component.normal m] := by simpa [hc] using hcomps
      subst hbefore
      constructor <;> · intro he; have := congrArg List.length he; simp at this
    | some c =>
      obtain ⟨rfl,hcm⟩ : before=d ∧ c=.normal m := by
        rw [hc] at hcomps
        simpa using hcomps
      have hlast : last=m := component_normal (hc.trans (congrArg some hcm))
      subst hlast
      constructor <;> exact ne_of_length (by simp only [length_append]; omega)

theorem names_distinct (hnames : Names path before last d n) :
    [path++logSuffix,path,secondaryPath path++logSuffix,secondaryPath path].Pairwise
      fun f g => components f≠components g := by
  obtain ⟨h₃,h₄,h₅,h₆⟩ := recordings_apart hnames
  have h₁ : components (path++logSuffix)≠components path := by
    rw [hnames.log,hnames.primary]
    exact extended_ne logSuffix_ne
  have h₂ : components (secondaryPath path++logSuffix)≠components (secondaryPath path) := by
    rw [hnames.secondaryLog,hnames.secondary]
    exact ne_of_length (by rw [length_append,logSuffix_length]; omega)
  rw [← hnames.secondary] at h₃ h₅
  rw [← hnames.secondaryLog] at h₄ h₆
  simp [h₁,h₂,h₃,h₄,h₅,h₆]

theorem secondaryPath_ne (h : hasRoot path=true) : components path≠components (secondaryPath path) := by
  obtain ⟨before,last,d,n,hnames⟩ := exists_names h
  have hpairs:=names_distinct hnames
  simp only [pairwise_cons,mem_cons,not_mem_nil,or_false,forall_eq_or_imp,forall_eq] at hpairs
  exact hpairs.2.1.2

theorem threadFiles_sublist (codec : RecordingCodec) (path : Path) :
    (threadFiles codec path).Sublist [path++logSuffix,path] := by
  unfold threadFiles
  split
  · exact List.Sublist.refl _
  · exact List.Sublist.cons _ (List.Sublist.refl _)

theorem openedFiles_sublist (codec : RecordingCodec) (secondary : Option RecordingCodec) (path : Path) :
    (openedFiles codec secondary path).Sublist
      [path++logSuffix,path,secondaryPath path++logSuffix,secondaryPath path] := by
  cases secondary with
  | none => exact (threadFiles_sublist codec path).append (nil_sublist _)
  | some sc => exact (threadFiles_sublist codec path).append (threadFiles_sublist sc (secondaryPath path))

theorem mem_openedFiles {f : Path} (h : f∈openedFiles codec secondary path) :
    (f=path++logSuffix ∧ runsFfmpeg codec=true) ∨ f=path ∨
    (secondary.isSome=true ∧ f∈[secondaryPath path++logSuffix,secondaryPath path]) := by
  rcases mem_append.mp h with h | h
  · unfold threadFiles at h
    split at h
    · simp only [mem_cons,not_mem_nil,or_false] at h
      exact h.imp (⟨·,by assumption⟩) .inl
    · exact .inr (.inl (mem_singleton.mp h))
  · cases secondary with
    | none => cases h
    | some sc => exact .inr (.inr ⟨rfl,(threadFiles_sublist sc _).subset h⟩)

theorem endsInName_iff (hnames : Names path before last d n) :
    endsInName path=true ↔ component last≠none := by
  rw [endsInName,hnames.ends]
  cases h : component last <;> simp [h]

/-- The log of a path that names the directory and ends with its name is beside the
directory. -/
theorem log_not_inside (hnames : Names path before last d n)
    (hdir : components path=components dir) (hname : component last≠none) : ¬Inside dir (path++logSuffix) := by
  intro hin
  obtain ⟨c,hc⟩ := Option.ne_none_iff_exists'.mp hname
  refine hin.proper (hin.below.eq_of_length_le ?_).symm
  rw [← hdir,hnames.primary,hnames.log,hc]
  simp

/-- For every request that passes the checks, and whichever of the opens succeed: the files are different
proper descendants of the recordings directory, except where the path is the directory by its name and the
codec runs ffmpeg. -/
theorem recording_confined (h : validatePaths (.ok (recordingsDir home)) path secondary=.ok ()) :
    (∀ creates,Made (recordingsDir home) creates →
      (∀ f∈createdFiles creates codec secondary path,Inside (recordingsDir home) f) ∧
      (createdFiles creates codec secondary path).Pairwise fun f g => components f≠components g) ↔
    ¬(components path=components (recordingsDir home) ∧ endsInName path=true ∧ runsFfmpeg codec=true) := by
  obtain ⟨hv,hvs⟩ := validatePaths_ok h
  obtain ⟨before,last,d,n,hnames⟩ := exists_names (validate_ok hv).1
  rw [endsInName_iff hnames]
  constructor
  · intro hall ⟨hdir,hname,hff⟩
    -- every open succeeds but those of the directory
    let creates : Path → Bool := fun f => components f≠components (recordingsDir home)
    have hout:=log_not_inside hnames hdir hname
    refine hout ((hall creates fun f hf => by simp [creates,hf]).1 _ (mem_filter.mpr ⟨?_,?_⟩))
    · exact mem_append_left _ (by simp [threadFiles,hff])
    · refine decide_eq_true fun he => ?_
      rw [← hdir,hnames.log,hnames.primary] at he
      exact extended_ne logSuffix_ne he
  · intro hcond creates hmade
    constructor
    · intro f hf
      obtain ⟨hf,hc⟩ := mem_filter.mp hf
      rcases mem_openedFiles hf with ⟨rfl,hff⟩ | rfl | ⟨hsome,hf⟩
      · refine log_inside hv hnames ?_
        by_cases hdir : components path=components (recordingsDir home)
        · exact .inr (not_not.mp fun hname => hcond ⟨hdir,hname,hff⟩)
        · exact .inl hdir
      · obtain ⟨-,hdirect,hbelow⟩ := validate_ok hv
        refine ⟨hbelow,fun hdir => ?_,hdirect⟩
        rw [hmade _ hdir] at hc
        cases hc
      · exact secondary_inside hv (hvs hsome) hnames f hf
    · exact (names_distinct hnames).sublist ((filter_sublist (p := creates)).trans (openedFiles_sublist ..))

/-- Two recordings with a log each, and the directory given with a slash after it. -/
theorem recording_confined_dual :
    let dir:=recordingsDir "/home/u".toList
    let path := "/home/u/.local/share/waymux/recordings/a.b.mkv".toList
    let creates : Path → Bool := fun f => components f≠components dir
    validatePaths (.ok dir) path (some .h264Nvenc)=.ok () ∧ validatePaths (.ok dir) (dir++['/']) none=.ok () ∧
    (createdFiles creates .ffv1 (some .h264Nvenc) path).length=4 ∧
    createdFiles creates .ffv1 none (dir++['/'])=[dir++ '/'::logSuffix] ∧
    ((∀ f∈createdFiles creates .ffv1 (some .h264Nvenc) path,Inside dir f) ∧
      (createdFiles creates .ffv1 (some .h264Nvenc) path).Pairwise fun f g => components f≠components g) ∧
    ∀ f∈createdFiles creates .ffv1 none (dir++['/']),Inside dir f := by
  intro dir path creates
  have hv : validatePaths (.ok dir) path (some .h264Nvenc)=.ok () := by decide +kernel
  have hslash : validatePaths (.ok dir) (dir++['/']) none=.ok () := by decide +kernel
  have hmade : Made dir creates := fun f hf => by simp [creates,hf]
  refine ⟨hv,hslash,by decide +kernel,by decide +kernel,?_,?_⟩
  · exact (recording_confined hv).mpr (by decide +kernel) creates hmade
  · exact ((recording_confined hslash).mpr (by decide +kernel) creates hmade).1

/-- The directory itself passes as a path, and the log is created beside it. -/
theorem log_beside_recordings :
    let dir:=recordingsDir "/home/u".toList
    let creates : Path → Bool := fun f => components f≠components dir
    validatePaths (.ok dir) dir none=.ok () ∧ Made dir creates ∧
    createdFiles creates .ffv1 none dir=["/home/u/.local/share/waymux/recordings.log".toList] ∧
    ¬Inside dir "/home/u/.local/share/waymux/recordings.log".toList := by
  intro dir creates
  refine ⟨by decide +kernel,fun f hf => by simp [creates,hf],by decide +kernel,fun h => ?_⟩
  exact absurd h.below (by decide +kernel)

theorem recordingsDir_root (h : hasRoot home=true) : hasRoot (recordingsDir home)=true ∧
    components (recordingsDir home)=components home ++
      [Component.normal ".local".toList,.normal "share".toList,.normal "waymux".toList,
        .normal "recordings".toList] := by
  refine ⟨hasRoot_join h rfl,(components_join rfl fun _ => rfl).trans ?_⟩
  rw [append_cancel_left_eq]
  decide +kernel

theorem slash_not_mem_digits (n : Nat) : '/'∉Nat.toDigits 10 n := by
  intro h
  have hdigit:=Nat.isDigit_of_mem_toDigits (by decide) (by decide) h
  revert hdigit
  decide

theorem components_default {sessionName : List Char} (h : hasRoot home=true) (hname : '/'∉sessionName)
    (seconds : Nat) : hasRoot (defaultRecordingPath home sessionName seconds)=true ∧
      ∃ name,components (defaultRecordingPath home sessionName seconds) =
        components (recordingsDir home)++[Component.normal name] := by
  have hslash : '/'∉sessionName ++ '-'::(Nat.toDigits 10 seconds ++ ".mkv".toList) := by
    have hmkv : '/' ∉ ".mkv".toList := by decide
    have hdigits:=slash_not_mem_digits seconds
    simp only [mem_append,mem_cons,not_or]
    exact ⟨hname,by decide,hdigits,hmkv⟩
  have hroot:=(recordingsDir_root h).1
  refine ⟨hasRoot_join hroot (hasRoot_of_not_mem hslash),_,components_child hslash (component_of_length ?_) _⟩
  have hmkv : ".mkv".toList.length=4 := rfl
  simp only [length_append,length_cons,hmkv]
  omega

/-- The default path passes the check, for a home without `..`. -/
theorem default_accepted {sessionName : List Char} (h : hasRoot home=true)
    (hdirect : Component.parentDir∉components home) (hname : '/'∉sessionName) (seconds : Nat) :
    validate (.ok (recordingsDir home)) (defaultRecordingPath home sessionName seconds)=.ok () ∧
    components (defaultRecordingPath home sessionName seconds)≠components (recordingsDir home) := by
  have hdir:=(recordingsDir_root h).2
  obtain ⟨habs,name,hcomps⟩ := components_default h hname seconds
  have hparent : Component.parentDir∉components (defaultRecordingPath home sessionName seconds) := by
    rw [hcomps,hdir]
    simp [hdirect]
  have hstarts : startsWith (defaultRecordingPath home sessionName seconds) (recordingsDir home)=true := by
    rw [startsWith_iff,hcomps]
    exact prefix_append _ _
  refine ⟨?_,?_⟩
  · simp [validate,habs,hparent,hstarts]
  · rw [hcomps]
    simp

end Waymux.Recording.Confinement
