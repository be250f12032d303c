import Waymux.Registry.TaskSteps

/-!
# What one step can do

For every task one relation that lists its steps with their guards and the state each leaves; no
later proof unfolds a step function.
-/

namespace Waymux.Registry.StepCases
open HostResources SessionNames TaskState TaskSteps Function

variable {s t : Daemon} {i : Inc} {n : Name} {o : Outcome}

def nameOf (s : Daemon) (i : Inc) : Name := (s.creates i).args.name

inductive CreateCase (s : Daemon) (i : Inc) : Daemon → Prop
  | taken (e : SessionEntry) : (s.creates i).pc=.lookup → s.sessions (nameOf s i)=some e →
      CreateCase s i (createAt s i (.done (some (.fault .alreadyExists))))
  | free : (s.creates i).pc=.lookup → s.sessions (nameOf s i)=none →
      CreateCase s i (createAt s i .mkdir)
  | mkdir : (s.creates i).pc=.mkdir →
      CreateCase s i (createAt (setDir s (nameOf s i) ((s.dirs (nameOf s i)).createDirAll i)) i .mount)
  | mounted (d : SessionDir) : (s.creates i).pc=.mount → (s.dirs (nameOf s i)).mount i=some d →
      CreateCase s i (setCreate (setDir s (nameOf s i) d) i
        {s.creates i with pc := .clear .wayland, tmpfs := true})
  | unmounted : (s.creates i).pc=.mount → CreateCase s i (createAt s i (.clear .wayland))
  | clear (k : Sock) : (s.creates i).pc=.clear k →
      CreateCase s i (createAt (setDir s (nameOf s i) ((s.dirs (nameOf s i)).removeFile k)) i (afterClear k))
  | bind (k : Sock) (d : SessionDir) : (s.creates i).pc=.bind k →
      (s.dirs (nameOf s i)).bind i k=some d →
      CreateCase s i (createAt (setDir s (nameOf s i) d) i (afterBind k))
  | spawn (p : Pid) : (s.creates i).pc=.spawn → s.procs.pidUsed p=false →
      CreateCase s i {setCreate s i {s.creates i with pc := .wait, pid := p} with
        procs := ⟨p,.session i,i,none⟩::s.procs
        boxes := update s.boxes i
          (Wire.Mailbox.init ⟨(s.creates i).args.width,(s.creates i).args.height,[]⟩)}
  | ready : (s.creates i).pc=.wait → CreateCase s i (createAt s i .unlinkReady)
  | unlinkReady : (s.creates i).pc=.unlinkReady →
      CreateCase s i (createAt (setDir s (nameOf s i) ((s.dirs (nameOf s i)).removeFile .ready)) i .cgroup)
  | leaf : (s.creates i).pc=.cgroup →
      CreateCase s i (setCreate (setLeaf s (nameOf s i) (some ((s.leaves (nameOf s i)).getD ⟨i,[]⟩))) i
        {s.creates i with pc := .join, cgroup := true})
  | noLeaf : (s.creates i).pc=.cgroup → CreateCase s i (createAt s i .insert)
  | join : (s.creates i).pc=.join →
      CreateCase s i (createAt (setLeaf s (nameOf s i)
        ((s.leaves (nameOf s i)).map (·.add (.session i)))) i .insert)
  | insert : (s.creates i).pc=.insert → s.sessions (nameOf s i)=none →
      CreateCase s i {createAt (supAt (setEntry s (nameOf s i) (some (newEntry i (s.creates i)))) i .wait)
          i .announce with
        usage := if s.metering then s.usage++[.start (nameOf s i) (s.creates i).args.apiKeyId i] else s.usage
        history := s.history++[i]}
  | announce : (s.creates i).pc=.announce →
      CreateCase s i {createAt s i (.done none) with
        events := s.events++[.sessionCreated (nameOf s i) i]}
  | failed (err : CreateError) : (s.creates i).pc=.mkdir ∨ (∃ k,(s.creates i).pc=.bind k) ∨
      (s.creates i).pc=.spawn → CreateCase s i (createAt s i (.done (some err)))
  | abandoned (err : CreateError) : (s.creates i).pc=.wait →
      CreateCase s i (createAt (killSession s i) i (.done (some err)))
  | lost (e : SessionEntry) : (s.creates i).pc=.insert → s.sessions (nameOf s i)=some e →
      CreateCase s i (createAt (killSession s i) i (.done (some (.fault .alreadyExists))))

theorem createStep_cases (h : createStep s i o=some t) : CreateCase s i t := by
  unfold createStep at h
  extract_lets at h
  repeat' split at h
  all_goals cases h
  · exact .taken _ ‹_› ‹_›
  · exact .free ‹_› ‹_›
  · exact .mkdir ‹_›
  · exact .failed _ (.inl ‹_›)
  · exact .mounted _ ‹_› ‹_›
  · exact .unmounted ‹_›
  · exact .unmounted ‹_›
  · exact .clear _ ‹_›
  · exact .bind _ _ ‹_› ‹_›
  · exact .failed _ (.inr (.inl ⟨_,‹_›⟩))
  · exact .failed _ (.inr (.inl ⟨_,‹_›⟩))
  next hp => exact .spawn _ ‹_› (by simpa using hp)
  · exact .failed _ (.inr (.inr ‹_›))
  · exact .ready ‹_›
  · exact .abandoned _ ‹_›
  · exact .abandoned _ ‹_›
  · exact .abandoned _ ‹_›
  · exact .unlinkReady ‹_›
  · exact .leaf ‹_›
  · exact .noLeaf ‹_›
  · exact .noLeaf ‹_›
  · exact .join ‹_›
  · unfold insertEntry
    dsimp only
    split
    · exact .lost _ ‹_› ‹_›
    · exact .insert ‹_› ‹_›
  · exact .announce ‹_›

inductive DestroyCase (s : Daemon) (d : Nat) : Daemon → Prop
  | missing : (s.destroys d).pc=.remove → s.sessions (s.destroys d).name=none →
      DestroyCase s d (destroyAt s d (.done false))
  | remove (e : SessionEntry) : (s.destroys d).pc=.remove → s.sessions (s.destroys d).name=some e →
      DestroyCase s d (destroyAt (take s (s.destroys d).name e) d (.emit e))
  | emit (e : SessionEntry) : (s.destroys d).pc=.emit e →
      DestroyCase s d (destroyAt (sigterm {s with
        usage := if s.metering then s.usage++[.stop (s.destroys d).name none e.inc] else s.usage} e) d (.tags e))
  | tags (e : SessionEntry) : (s.destroys d).pc=.tags e →
      DestroyCase s d (destroyAt (forgetTags s (s.destroys d).name) d (.kill e))
  | kill (e : SessionEntry) : (s.destroys d).pc=.kill e →
      DestroyCase s d (destroyAt {s with kills := update s.kills e.inc .sent} d (.unmount e))
  | unmount (e : SessionEntry) : (s.destroys d).pc=.unmount e → e.tmpfs=true →
      DestroyCase s d (destroyAt
        (setDir s (s.destroys d).name (s.dirs (s.destroys d).name).unmount) d (.cleanup e))
  | noTmpfs (e : SessionEntry) : (s.destroys d).pc=.unmount e → e.tmpfs=false →
      DestroyCase s d (destroyAt s d (.cleanup e))
  | cleanup (e : SessionEntry) : (s.destroys d).pc=.cleanup e → e.cgroup=true →
      DestroyCase s d (destroyAt (cleanAt s e.inc .kill) d (.done true))
  | noCgroup (e : SessionEntry) : (s.destroys d).pc=.cleanup e → e.cgroup=false →
      DestroyCase s d (destroyAt s d (.done true))

theorem destroyStep_cases {d : Nat} (h : destroyStep s d=some t) : DestroyCase s d t := by
  simp only [destroyStep] at h
  repeat' split at h
  all_goals cases h
  · exact .missing ‹_› ‹_›
  · exact .remove _ ‹_› ‹_›
  · exact .emit _ ‹_›
  · exact .tags _ ‹_›
  · exact .kill _ ‹_›
  · exact .unmount _ ‹_› ‹_›
  · exact .noTmpfs _ ‹_› (Bool.eq_false_iff.mpr ‹_›)
  · exact .cleanup _ ‹_› ‹_›
  · exact .noCgroup _ ‹_› (Bool.eq_false_iff.mpr ‹_›)

inductive CleanCase (s : Daemon) (i : Inc) : Daemon → Prop
  | kill : s.cleans i=.kill →
      CleanCase s i (cleanAt {s with
        procs := s.procs.exitWhen (fun x => leafMember s (nameOf s i) x.proc) sigkill} i (.retry 0))
  | removed (k : Nat) : s.cleans i=.retry k →
      (∀ x∈s.procs,leafMember s (nameOf s i) x.proc=true → x.status≠none) →
      CleanCase s i (cleanAt (setLeaf s (nameOf s i) none) i .done)
  | busy (k : Nat) (pc : CleanPc) : s.cleans i=.retry k → pc=.retry (k+1) ∨ pc=.done →
      CleanCase s i (cleanAt s i pc)

theorem cleanStep_cases (h : cleanStep s i o=some t) : CleanCase s i t := by
  simp only [cleanStep] at h
  repeat' split at h
  all_goals cases h
  · exact .kill ‹_›
  next hn =>
    refine .removed _ ‹_› fun x hx hm hst => hn ?_
    exact List.any_eq_true.mpr ⟨x,hx,by simpa [nameOf] using And.intro hm hst⟩
  · exact .busy _ _ ‹_› (.inl rfl)
  · exact .busy _ _ ‹_› (.inr rfl)

inductive SupCase (s : Daemon) (i : Inc) : Daemon → Prop
  | killed : s.sups i=.wait → s.kills i≠.waiting → SupCase s i (supAt s i .term)
  | exited (st : ExitStatus) : s.sups i=.wait ∨ s.sups i=.term →
      s.procs.exitOf (.session i)=some st →
      SupCase s i (supAt (killSession s i) i (.remove (exitCodeOf st)))
  | escalated (code : Int) : s.sups i=.term →
      SupCase s i (supAt (killSession s i) i (.remove code))
  | removed (code : Int) (e : SessionEntry) (pc : SupPc) : s.sups i=.remove code →
      s.sessions (nameOf s i)=some e →
      (s.metering=true ∧ pc=.emit code e) ∨ (s.metering=false ∧ pc=.unmount code e.tmpfs) →
      SupCase s i (supAt {take s (nameOf s i) e with
          kills := update s.kills e.inc (dropKill (s.kills e.inc))} i pc)
  | absent (code : Int) : s.sups i=.remove code → s.sessions (nameOf s i)=none →
      SupCase s i (supAt s i (.unmount code false))
  | emit (code : Int) (e : SessionEntry) : s.sups i=.emit code e →
      SupCase s i (supAt {s with usage := s.usage++[.stop (nameOf s i) (some code) e.inc]} i
        (.unmount code e.tmpfs))
  | unmount (code : Int) : s.sups i=.unmount code true →
      SupCase s i (supAt (setDir s (nameOf s i) (s.dirs (nameOf s i)).unmount) i (.tags code))
  | noTmpfs (code : Int) : s.sups i=.unmount code false → SupCase s i (supAt s i (.tags code))
  | tags (code : Int) : s.sups i=.tags code →
      SupCase s i (supAt (forgetTags s (nameOf s i)) i (.unlink code .wayland))
  | unlink (code : Int) (k : Sock) : s.sups i=.unlink code k →
      SupCase s i (supAt (setDir s (nameOf s i) ((s.dirs (nameOf s i)).removeFile k)) i
        (afterUnlink code k))
  | rmdir (code : Int) : s.sups i=.rmdir code →
      SupCase s i (supAt (setDir s (nameOf s i) (s.dirs (nameOf s i)).removeDirAll) i (.announce code))
  | announce (code : Int) : s.sups i=.announce code →
      SupCase s i (supAt {s with
        events := s.events++[.sessionDestroyed (nameOf s i) code i]} i (.done code))

theorem supStep_cases (h : supStep s i o=some t) : SupCase s i t := by
  unfold supStep at h
  extract_lets at h
  repeat' split at h
  all_goals cases h
  · exact .killed ‹_› ‹_›
  · exact .exited _ (.inl ‹_›) ‹_›
  · exact .exited _ (.inr ‹_›) ‹_›
  · exact .escalated _ ‹_›
  · exact .removed _ _ _ ‹_› ‹_› (.inl ⟨‹_›,rfl⟩)
  · exact .removed _ _ _ ‹_› ‹_› (.inr ⟨Bool.eq_false_iff.mpr ‹_›,rfl⟩)
  · exact .absent _ ‹_› ‹_›
  · exact .emit _ _ ‹_›
  next code b hpc hb => exact .unmount code (hb ▸ hpc)
  next code b hpc hb => exact .noTmpfs code (Bool.eq_false_iff.mpr hb ▸ hpc)
  · exact .tags _ ‹_›
  · exact .unlink _ _ ‹_›
  · exact .rmdir _ ‹_›
  · exact .announce _ ‹_›

inductive SpawnCase (s : Daemon) (c : Nat) : Daemon → Prop
  | missing : (s.spawns c).pc=.lookup → s.sessions (s.spawns c).name=none →
      SpawnCase s c (setSpawn s c {s.spawns c with pc := .done (some (.fault .sessionNotFound))})
  | found (e : SessionEntry) : (s.spawns c).pc=.lookup → s.sessions (s.spawns c).name=some e →
      SpawnCase s c (setSpawn s c {s.spawns c with pc := .spawn e.inc})
  | spawn (i : Inc) (p : Pid) : (s.spawns c).pc=.spawn i → s.procs.pidUsed p=false →
      SpawnCase s c {setSpawn s c {s.spawns c with pc := .record i, pid := p} with
        procs := ⟨p,.child c,i,none⟩::s.procs}
  | failed (i : Inc) : (s.spawns c).pc=.spawn i →
      SpawnCase s c (setSpawn s c {s.spawns c with pc := .done (some .spawn)})
  | record (i : Inc) (e : SessionEntry) (l : Option Leaf) : (s.spawns c).pc=.record i →
      s.sessions (s.spawns c).name=some e →
      l=s.leaves (s.spawns c).name ∨
        e.cgroup=true ∧ l=(s.leaves (s.spawns c).name).map (·.add (.child c)) →
      SpawnCase s c (setSpawn (setLeaf (setEntry s (s.spawns c).name
          (some (addChild e (s.spawns c).pid (s.spawns c).compositor))) (s.spawns c).name l) c
        {s.spawns c with pc := .done none, reaper := .wait i})
  | recordGone (i : Inc) : (s.spawns c).pc=.record i → s.sessions (s.spawns c).name=none →
      SpawnCase s c (setSpawn s c {s.spawns c with pc := .done none, reaper := .wait i})

theorem setLeaf_self (s : Daemon) (n : Name) : setLeaf s n (s.leaves n)=s := by
  simp only [setLeaf,update_eq_self]

theorem spawnStep_cases {c : Nat} (h : spawnStep s c o=some t) : SpawnCase s c t := by
  simp only [spawnStep] at h
  split at h
  case h_4 i hpc =>
    cases h
    unfold recordChild
    split
    next he => exact .recordGone i hpc he
    next e he =>
      cases hg : e.cgroup with
      | true => exact .record i e _ hpc he (.inr ⟨hg,rfl⟩)
      | false =>
        have hc:=SpawnCase.record i e _ hpc he (.inl rfl)
        have hl : s.leaves (s.spawns c).name=(setEntry s (s.spawns c).name
            (some (addChild e (s.spawns c).pid (s.spawns c).compositor))).leaves (s.spawns c).name := rfl
        rw [hl,setLeaf_self] at hc
        exact hc
  all_goals repeat' split at h
  all_goals cases h
  · exact .missing ‹_› ‹_›
  · exact .found _ ‹_› ‹_›
  next hp => exact .spawn _ _ ‹_› (by simpa using hp)
  · exact .failed _ ‹_›

theorem spawn_running {c : Nat} (hk : SpawnCase s c t) : (s.spawns c).pc≠.done none := by
  cases hk with
  | missing hpc | found e hpc | spawn k p hpc | failed k hpc | record k e l hpc | recordGone k hpc =>
    simp [hpc]

inductive ReapCase (s : Daemon) (c : Nat) : Daemon → Prop
  | wait (i : Inc) (st : ExitStatus) : (s.spawns c).reaper=.wait i →
      s.procs.exitOf (.child c)=some st →
      ReapCase s c {setSpawn s c {s.spawns c with reaper := .prune i (exitCodeOf st)} with
        procs := s.procs.reap (.child c)}
  | prune (i : Inc) (code : Int) (e : SessionEntry) : (s.spawns c).reaper=.prune i code →
      s.sessions (s.spawns c).name=some e →
      ReapCase s c (setSpawn (setEntry s (s.spawns c).name (some (pruneChild e (s.spawns c).pid))) c
        {s.spawns c with reaper := .report i code (e.compositorPid=some (s.spawns c).pid)})
  | pruneGone (i : Inc) (code : Int) : (s.spawns c).reaper=.prune i code →
      s.sessions (s.spawns c).name=none →
      ReapCase s c (setSpawn s c {s.spawns c with reaper := .report i code false})
  | report (i : Inc) (code : Int) (crashed : Bool) (pc : ReapPc) :
      (s.spawns c).reaper=.report i code crashed →
      (crashed=true ∧ pc=.crash i code) ∨ (crashed=false ∧ pc=.done) →
      ReapCase s c {setSpawn s c {s.spawns c with reaper := pc} with
        events := s.events++[.childExited (s.spawns c).name (s.spawns c).pid code c]}
  | crash (i : Inc) (code : Int) : (s.spawns c).reaper=.crash i code →
      ReapCase s c {setSpawn s c {s.spawns c with reaper := .done} with
        events := s.events++[.sessionCrashed (s.spawns c).name (s.spawns c).pid code c]}

theorem reapStep_cases {c : Nat} (h : reapStep s c=some t) : ReapCase s c t := by
  simp only [reapStep] at h
  repeat' split at h
  all_goals cases h
  · exact .wait _ _ ‹_› ‹_›
  · exact .prune _ _ _ ‹_› ‹_›
  · exact .pruneGone _ _ ‹_› ‹_›
  · exact .report _ _ _ _ ‹_› (.inl ⟨‹_›,rfl⟩)
  · exact .report _ _ _ _ ‹_› (.inr ⟨Bool.eq_false_iff.mpr ‹_›,rfl⟩)
  · exact .crash _ _ ‹_›

inductive ControlCase (s : Daemon) (c : Nat) : Daemon → Prop
  | missing : (s.controls c).pc=.lookup → s.sessions (s.controls c).name=none →
      ControlCase s c (rpcAt s c (.done none .notFound))
  | found (e : SessionEntry) : (s.controls c).pc=.lookup →
      s.sessions (s.controls c).name=some e →
      ControlCase s c (rpcAt
        (setBox s e.inc ((s.boxes e.inc).enter c (s.controls c).req.method)) c (.rpc e.inc))
  | broken (i : Inc) : (s.controls c).pc=.rpc i → (s.boxes i).calls c=.done none →
      ControlCase s c (rpcAt s c (.done (some i) .io))
  | answered (i : Inc) (r : SessionCtlResponse) : (s.controls c).pc=.rpc i →
      (s.boxes i).calls c=.done (some r) →
      ControlCase s c (rpcAt s c (afterRpc i (s.controls c).req r))
  | merge (i : Inc) (ws : List WindowInfo) : (s.controls c).pc=.merge i ws →
      ControlCase s c (rpcAt s c (afterMerge s i (s.controls c).name (s.controls c).req ws))
  | store (i : Inc) (w : Nat) (ls : List String) : (s.controls c).pc=.store i →
      (s.controls c).req=.tagWindow w ls →
      ControlCase s c (rpcAt (storeTags s (s.controls c).name c i w ls) c (.done (some i) .ok))
  | record (i : Inc) (w h : Nat) (e : SessionEntry) : (s.controls c).pc=.record i →
      (s.controls c).req=.resize w h → s.sessions (s.controls c).name=some e →
      ControlCase s c (rpcAt (setEntry s (s.controls c).name (some (resized e w h))) c
        (.done (some i) .ok))
  | recordGone (i : Inc) (w h : Nat) : (s.controls c).pc=.record i →
      (s.controls c).req=.resize w h → s.sessions (s.controls c).name=none →
      ControlCase s c (rpcAt s c (.done (some i) .ok))

theorem controlStep_cases {c : Nat} (h : controlStep s c=some t) : ControlCase s c t := by
  simp only [controlStep] at h
  repeat' split at h
  all_goals cases h
  · exact .missing ‹_› ‹_›
  · exact .found _ ‹_› ‹_›
  · exact .broken _ ‹_› ‹_›
  · exact .answered _ _ ‹_› ‹_›
  · exact .merge _ _ ‹_›
  · exact .store _ _ _ ‹_› ‹_›
  · exact .record _ _ _ _ ‹_› ‹_› ‹_›
  · exact .recordGone _ _ _ ‹_› ‹_› ‹_›

inductive StepCase (s : Daemon) : Act → Daemon → Prop
  | create (i : Inc) (args : CreateArgs) : (s.creates i).pc=.idle →
      StepCase s (.create i args) (setCreate s i ⟨args,callCreate args,false,false,0⟩)
  | createStep {t : Daemon} (i : Inc) (o : Outcome) : createStep s i o=some t → CreateCase s i t →
      StepCase s (.createStep i o) t
  | destroy (d : Nat) (n : Name) : (s.destroys d).pc=.idle →
      StepCase s (.destroy d n) {s with destroys := update s.destroys d ⟨n,.remove⟩}
  | destroyStep {t : Daemon} (d : Nat) : DestroyCase s d t → StepCase s (.destroyStep d) t
  | supStep {t : Daemon} (i : Inc) (o : Outcome) : SupCase s i t → StepCase s (.supStep i o) t
  | cleanStep {t : Daemon} (i : Inc) (o : Outcome) : CleanCase s i t → StepCase s (.cleanStep i o) t
  | spawnChild (c : Nat) (n : Name) (argv : List String) (comp : Bool) : (s.spawns c).pc=.idle →
      StepCase s (.spawnChild c n argv comp) (setSpawn s c ⟨n,comp,callSpawn argv,0,.none⟩)
  | spawnStep {t : Daemon} (c : Nat) (o : Outcome) : SpawnCase s c t → StepCase s (.spawnStep c o) t
  | reapStep {t : Daemon} (c : Nat) : ReapCase s c t → StepCase s (.reapStep c) t
  | control (c : Nat) (n : Name) (req : ControlReq) : (s.controls c).pc=.idle →
      StepCase s (.control c n req)
        {s with controls := update s.controls c ⟨n,req,callControl req⟩}
  | controlStep {t : Daemon} (c : Nat) : ControlCase s c t → StepCase s (.controlStep c) t
  | box (i : Inc) (a : BoxAct) (b : Box) : (∀ c r,a≠.begin c r) →
      Wire.Mailbox.step dispatch (s.boxes i) a=some b → StepCase s (.box i a) (setBox s i b)
  | exit (q : Proc) (st : ExitStatus) : s.procs.running q=true →
      StepCase s (.exit q st) {s with procs := s.procs.exitWhen (fun x => x.proc=q) st}
  | sessionBind (i : Inc) (k : Sock) : ownSock k=true → s.procs.running (.session i)=true →
      StepCase s (.sessionBind i k)
        (setDir s (nameOf s i) ((s.dirs (nameOf s i)).rebind i k))
  | windows (i : Inc) (ids : List Nat) : s.procs.running (.session i)=true →
      StepCase s (.windows i ids)
        (setBox s i {s.boxes i with sess := {(s.boxes i).sess with windows := untagged ids}})

theorem boxStep_cases {a : BoxAct} (h : boxStep s i a=some t) :
    (∀ c r,a≠.begin c r) ∧
      ∃ b,Wire.Mailbox.step dispatch (s.boxes i) a=some b ∧ t=setBox s i b := by
  cases a with
  | begin => cases h
  | serve k b =>
    simp only [boxStep] at h
    split at h
    · obtain ⟨b,hb,ht⟩ := Option.map_eq_some_iff.mp h
      exact ⟨by simp,b,hb,ht.symm⟩
    · cases h
  | _ =>
    simp only [boxStep] at h
    obtain ⟨b,hb,ht⟩ := Option.map_eq_some_iff.mp h
    exact ⟨by simp,b,hb,ht.symm⟩

theorem step_cases {a : Act} (h : step s a=some t) : StepCase s a t := by
  cases a with
  | create | destroy | spawnChild | control | exit | windows =>
    simp only [step] at h
    split at h <;> cases h
    constructor
    assumption
  | createStep i o => exact .createStep i o h (createStep_cases h)
  | destroyStep d => exact .destroyStep d (destroyStep_cases h)
  | supStep i o => exact .supStep i o (supStep_cases h)
  | cleanStep i o => exact .cleanStep i o (cleanStep_cases h)
  | spawnStep c o => exact .spawnStep c o (spawnStep_cases h)
  | reapStep c => exact .reapStep c (reapStep_cases h)
  | controlStep c => exact .controlStep c (controlStep_cases h)
  | box i a =>
    obtain ⟨hb,b,hs,rfl⟩ := boxStep_cases h
    exact .box i a b hb hs
  | sessionBind i k =>
    simp only [step] at h
    split at h <;> cases h
    next hk => exact .sessionBind i k hk.1 hk.2

end Waymux.Registry.StepCases
