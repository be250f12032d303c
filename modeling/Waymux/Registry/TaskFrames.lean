import Waymux.Registry.StepCases

/-!
# Who writes what

One lemma per component of the daemon state: a step leaves it alone or is one of the listed ones.
-/

namespace Waymux.Registry.TaskFrames
open HostResources SessionNames TaskState TaskSteps StepCases Function

theorem at_key {ι β : Type} [DecidableEq ι] {f g : ι → β} {i j : ι} {v : β} {P : Prop} (same : g j=f j → P)
    (ht : g=update f i v) (here : j=i → P) : P := by
  by_cases hj : j=i
  · exact here hj
  · exact same (ht ▸ update_of_ne hj ..)

variable {s t : Daemon} {a : Act} (h : step s a=some t)
include h

/-! ### Task states -/

theorem create_frame (j : Inc) : t.creates j=s.creates j ∨
    (∃ args,a=.create j args ∧ (s.creates j).pc=.idle ∧
      t.creates j=⟨args,callCreate args,false,false,0⟩) ∨
    ∃ o,a=.createStep j o ∧ CreateCase s j t := by
  cases step_cases h with
  | create i args hpc =>
    refine at_key .inl rfl ?_
    rintro rfl
    exact .inr (.inl ⟨args,rfl,hpc,update_self ..⟩)
  | createStep i o _ hc =>
    by_cases hj : j=i
    · subst hj
      exact .inr (.inr ⟨o,rfl,hc⟩)
    · refine .inl ?_
      cases hc <;> exact update_of_ne hj ..
  | _ => first | exact .inl rfl | (rename_i hc; cases hc <;> exact .inl rfl)

theorem destroy_frame (d : Nat) : t.destroys d=s.destroys d ∨
    (∃ n,a=.destroy d n ∧ (s.destroys d).pc=.idle ∧ t.destroys d=⟨n,.remove⟩) ∨
    a=.destroyStep d ∧ DestroyCase s d t := by
  cases step_cases h with
  | destroy d' n hpc =>
    refine at_key .inl rfl ?_
    rintro rfl
    exact .inr (.inl ⟨n,rfl,hpc,update_self ..⟩)
  | destroyStep d' hc =>
    by_cases hd : d=d'
    · subst hd
      exact .inr (.inr ⟨rfl,hc⟩)
    · refine .inl ?_
      cases hc <;> exact update_of_ne hd ..
  | _ => first | exact .inl rfl | (rename_i hc; cases hc <;> exact .inl rfl)

theorem sup_frame (j : Inc) : t.sups j=s.sups j ∨
    ((s.creates j).pc=.insert ∧ (t.creates j).pc=.announce ∧ t.sups j=.wait) ∨
    ∃ o,a=.supStep j o ∧ SupCase s j t := by
  cases step_cases h with
  | createStep i o _ hc =>
    cases hc with
    | insert hpc =>
      refine at_key .inl rfl ?_
      rintro rfl
      refine .inr (.inl ⟨hpc,?_,update_self ..⟩)
      simp [createAt,setCreate]
    | _ => exact .inl rfl
  | supStep i o hc =>
    by_cases hj : j=i
    · subst hj
      exact .inr (.inr ⟨o,rfl,hc⟩)
    · refine .inl ?_
      cases hc <;> exact update_of_ne hj ..
  | _ => first | exact .inl rfl | (rename_i hc; cases hc <;> exact .inl rfl)

theorem clean_frame (j : Inc) : t.cleans j=s.cleans j ∨
    (∃ d e,(s.destroys d).pc=.cleanup e ∧ e.cgroup=true ∧ e.inc=j ∧ t.cleans j=.kill) ∨
    ∃ o,a=.cleanStep j o ∧ CleanCase s j t := by
  cases step_cases h with
  | destroyStep d hc =>
    cases hc with
    | cleanup e hpc hg =>
      refine at_key .inl rfl ?_
      rintro rfl
      exact .inr (.inl ⟨d,e,hpc,hg,rfl,update_self ..⟩)
    | _ => exact .inl rfl
  | cleanStep i o hc =>
    by_cases hj : j=i
    · subst hj
      exact .inr (.inr ⟨o,rfl,hc⟩)
    · refine .inl ?_
      cases hc <;> exact update_of_ne hj ..
  | _ => first | exact .inl rfl | (rename_i hc; cases hc <;> exact .inl rfl)

theorem spawn_frame (c : Nat) : t.spawns c=s.spawns c ∨
    (∃ n comp pc,(s.spawns c).pc=.idle ∧ t.spawns c=⟨n,comp,pc,0,.none⟩ ∧
      (pc=.lookup ∨ ∃ err,pc=.done (some err))) ∨
    (∃ o,a=.spawnStep c o ∧ SpawnCase s c t) ∨ a=.reapStep c ∧ ReapCase s c t := by
  cases step_cases h with
  | spawnChild c' n argv comp hpc =>
    refine at_key .inl rfl ?_
    rintro rfl
    refine .inr (.inl ⟨n,comp,_,hpc,update_self ..,?_⟩)
    unfold callSpawn
    split
    · exact .inr ⟨_,rfl⟩
    · exact .inl rfl
  | spawnStep c' o hc =>
    by_cases hj : c=c'
    · subst hj
      exact .inr (.inr (.inl ⟨o,rfl,hc⟩))
    · refine .inl ?_
      cases hc <;> exact update_of_ne hj ..
  | reapStep c' hc =>
    by_cases hj : c=c'
    · subst hj
      exact .inr (.inr (.inr ⟨rfl,hc⟩))
    · refine .inl ?_
      cases hc <;> exact update_of_ne hj ..
  | _ => first | exact .inl rfl | (rename_i hc; cases hc <;> exact .inl rfl)

theorem control_frame (c : Nat) : t.controls c=s.controls c ∨
    (∃ n req,a=.control c n req ∧ (s.controls c).pc=.idle ∧
      t.controls c=⟨n,req,callControl req⟩) ∨
    a=.controlStep c ∧ ControlCase s c t := by
  cases step_cases h with
  | control c' n req hpc =>
    refine at_key .inl rfl ?_
    rintro rfl
    exact .inr (.inl ⟨n,req,rfl,hpc,update_self ..⟩)
  | controlStep c' hc =>
    by_cases hj : c=c'
    · subst hj
      exact .inr (.inr ⟨rfl,hc⟩)
    · refine .inl ?_
      cases hc <;> exact update_of_ne hj ..
  | _ => first | exact .inl rfl | (rename_i hc; cases hc <;> exact .inl rfl)

/-! ### Session map -/

inductive EntryEffect (s t : Daemon) (n : Name) : Act → Prop
  | same {a : Act} : t.sessions n=s.sessions n → EntryEffect s t n a
  | inserted (i : Inc) (o : Outcome) : (s.creates i).pc=.insert → nameOf s i=n →
      s.sessions n=none → t.sessions n=some (newEntry i (s.creates i)) →
      (t.creates i).pc=.announce → t.sups i=.wait → EntryEffect s t n (.createStep i o)
  | recorded (c : Nat) (o : Outcome) (i : Inc) (e : SessionEntry) : (s.spawns c).pc=.record i →
      (s.spawns c).name=n → s.sessions n=some e →
      t.sessions n=some (addChild e (s.spawns c).pid (s.spawns c).compositor) →
      EntryEffect s t n (.spawnStep c o)
  | pruned (c : Nat) (i : Inc) (code : Int) (e : SessionEntry) :
      (s.spawns c).reaper=.prune i code → (s.spawns c).name=n → s.sessions n=some e →
      t.sessions n=some (pruneChild e (s.spawns c).pid) → EntryEffect s t n (.reapStep c)
  | resized (c : Nat) (i : Inc) (w h : Nat) (e : SessionEntry) : (s.controls c).pc=.record i →
      (s.controls c).req=.resize w h → (s.controls c).name=n → s.sessions n=some e →
      t.sessions n=some (resized e w h) → EntryEffect s t n (.controlStep c)
  | destroyed (d : Nat) (e : SessionEntry) : (s.destroys d).pc=.remove →
      (s.destroys d).name=n → s.sessions n=some e → t.sessions n=none →
      t.removed=update s.removed e.inc (some e) → EntryEffect s t n (.destroyStep d)
  | collected (i : Inc) (o : Outcome) (code : Int) (e : SessionEntry) : s.sups i=.remove code →
      nameOf s i=n → s.sessions n=some e → t.sessions n=none →
      t.removed=update s.removed e.inc (some e) → EntryEffect s t n (.supStep i o)

theorem entry_effect (n : Name) : EntryEffect s t n a := by
  cases step_cases h with
  | createStep i o _ hc =>
    cases hc with
    | insert hpc hs =>
      refine at_key .same rfl ?_
      rintro rfl
      refine .inserted i o hpc rfl hs (update_self ..) ?_ (update_self ..)
      simp [createAt,setCreate]
    | _ => exact .same rfl
  | destroyStep d hc =>
    cases hc with
    | remove e hpc hs =>
      refine at_key .same rfl ?_
      rintro rfl
      exact .destroyed d e hpc rfl hs (update_self ..) rfl
    | _ => exact .same rfl
  | supStep i o hc =>
    cases hc with
    | removed code e pc hpc hs =>
      refine at_key .same rfl ?_
      rintro rfl
      exact .collected i o code e hpc rfl hs (update_self ..) rfl
    | _ => exact .same rfl
  | spawnStep c o hc =>
    cases hc with
    | record i e l hpc hs =>
      refine at_key .same rfl ?_
      rintro rfl
      exact .recorded c o i e hpc rfl hs (update_self ..)
    | _ => exact .same rfl
  | reapStep c hc =>
    cases hc with
    | prune i code e hpc hs =>
      refine at_key .same rfl ?_
      rintro rfl
      exact .pruned c i code e hpc rfl hs (update_self ..)
    | _ => exact .same rfl
  | controlStep c hc =>
    cases hc with
    | record i w h' e hpc hq hs =>
      refine at_key .same rfl ?_
      rintro rfl
      exact .resized c i w h' e hpc hq rfl hs (update_self ..)
    | _ => exact .same rfl
  | _ => first | exact .same rfl | (rename_i hc; cases hc <;> exact .same rfl)

/-- The entry at `n` after a step, seen from after it: a new one, or the one
before the step with its identity and handles. -/
theorem entry_after {n : Name} {e : SessionEntry} (he : t.sessions n=some e) :
    (∃ i,(s.creates i).pc=.insert ∧ nameOf s i=n ∧ s.sessions n=none ∧
      e=newEntry i (s.creates i) ∧ (t.creates i).pc=.announce ∧ t.sups i=.wait) ∨
    ∃ e',s.sessions n=some e' ∧ e'.inc=e.inc ∧ e'.cgroup=e.cgroup ∧ e'.tmpfs=e.tmpfs := by
  cases entry_effect h n with
  | same hs => exact .inr ⟨e,hs ▸ he,rfl,rfl,rfl⟩
  | inserted i o hpc hn hs ht hc hw =>
    exact .inl ⟨i,hpc,hn,hs,Option.some.inj (he.symm.trans ht),hc,hw⟩
  | recorded c o i e' _ _ hs ht | pruned c i code e' _ _ hs ht | resized c i w h e' _ _ _ hs ht =>
    cases he.symm.trans ht
    exact .inr ⟨e',hs,rfl,rfl,rfl⟩
  | destroyed d e' _ _ _ ht | collected i o code e' _ _ _ ht => cases he.symm.trans ht

/-! ### Tags -/

inductive TagEffect (s t : Daemon) (n : Name) (w : Nat) : Act → Prop
  | same {a : Act} : t.tags n w=s.tags n w → TagEffect s t n w a
  | forgotten (d : Nat) (e : SessionEntry) : (s.destroys d).pc=.tags e →
      (s.destroys d).name=n → t.tags n w=none → TagEffect s t n w (.destroyStep d)
  | erased (i : Inc) (o : Outcome) (code : Int) : s.sups i=.tags code → nameOf s i=n →
      t.tags n w=none → TagEffect s t n w (.supStep i o)
  | stored (c : Nat) (i : Inc) (ls : List String) : (s.controls c).pc=.store i →
      (s.controls c).req=.tagWindow w ls → (s.controls c).name=n →
      t.tags n w=some ⟨ls,i,c⟩ → TagEffect s t n w (.controlStep c)

theorem tag_effect (n : Name) (w : Nat) : TagEffect s t n w a := by
  cases step_cases h with
  | destroyStep d hc =>
    cases hc with
    | tags e hpc =>
      by_cases hn : n=(s.destroys d).name
      · subst hn
        exact .forgotten d e hpc rfl (by simp [destroyAt,forgetTags])
      · exact .same (by simp [destroyAt,forgetTags,hn])
    | _ => exact .same rfl
  | supStep i o hc =>
    cases hc with
    | tags code hpc =>
      by_cases hn : n=nameOf s i
      · subst hn
        exact .erased i o code hpc rfl (by simp [supAt,forgetTags])
      · exact .same (by simp [supAt,forgetTags,hn])
    | _ => exact .same rfl
  | controlStep c hc =>
    cases hc with
    | store i v ls hpc hq =>
      by_cases hn : n=(s.controls c).name
      · by_cases hw : w=v
        · subst hn hw
          exact .stored c i ls hpc hq rfl (by simp [rpcAt,storeTags])
        · exact .same (by simp [rpcAt,storeTags,hn,hw])
      · exact .same (by simp [rpcAt,storeTags,hn])
    | _ => exact .same rfl
  | _ => first | exact .same rfl | (rename_i hc; cases hc <;> exact .same rfl)

/-! ### Session directory -/

inductive DirEffect (s t : Daemon) (n : Name) : Act → Prop
  | same {a : Act} : t.dirs n=s.dirs n → DirEffect s t n a
  | made (i : Inc) (o : Outcome) : (s.creates i).pc=.mkdir → nameOf s i=n →
      t.dirs n=(s.dirs n).createDirAll i → DirEffect s t n (.createStep i o)
  | mounted (i : Inc) (o : Outcome) : (s.creates i).pc=.mount → nameOf s i=n →
      t.dirs n={s.dirs n with mounts := Layer.empty i::(s.dirs n).mounts} →
      (t.creates i).pc=.clear .wayland → (t.creates i).tmpfs=true →
      DirEffect s t n (.createStep i o)
  | cleared (i : Inc) (o : Outcome) (k : Sock) :
      (s.creates i).pc=.clear k ∨ (s.creates i).pc=.unlinkReady → nameOf s i=n →
      t.dirs n=(s.dirs n).removeFile k → DirEffect s t n (.createStep i o)
  | bound (i : Inc) (o : Outcome) (k : Sock) : (s.creates i).pc=.bind k → nameOf s i=n →
      t.dirs n=(s.dirs n).rebind i k → (t.creates i).pc=afterBind k →
      DirEffect s t n (.createStep i o)
  | rebound (i : Inc) (k : Sock) : s.procs.running (.session i)=true → nameOf s i=n →
      t.dirs n=(s.dirs n).rebind i k → DirEffect s t n (.sessionBind i k)
  | detached (d : Nat) (e : SessionEntry) : (s.destroys d).pc=.unmount e → e.tmpfs=true →
      (s.destroys d).name=n → t.dirs n=(s.dirs n).unmount → DirEffect s t n (.destroyStep d)
  | unmounted (i : Inc) (o : Outcome) (code : Int) : s.sups i=.unmount code true →
      nameOf s i=n → t.dirs n=(s.dirs n).unmount → DirEffect s t n (.supStep i o)
  | unlinked (i : Inc) (o : Outcome) (code : Int) (k : Sock) : s.sups i=.unlink code k →
      nameOf s i=n → t.dirs n=(s.dirs n).removeFile k → DirEffect s t n (.supStep i o)
  | wiped (i : Inc) (o : Outcome) (code : Int) : s.sups i=.rmdir code → nameOf s i=n →
      t.dirs n=(s.dirs n).removeDirAll → t.sups i=.announce code → DirEffect s t n (.supStep i o)

omit h in
theorem mount_eq {d d' : SessionDir} {i : Inc} (h : d.mount i=some d') :
    d'={d with mounts := Layer.empty i::d.mounts} := by
  unfold SessionDir.mount at h
  split at h
  · cases h
  · exact (Option.some.inj h).symm

omit h in
theorem bind_eq {d d' : SessionDir} {i : Inc} {k : Sock} (h : d.bind i k=some d') : d'=d.rebind i k := by
  unfold SessionDir.bind at h
  split at h
  · cases h
  · split at h
    · exact (Option.some.inj h).symm
    · cases h

theorem dir_effect (n : Name) : DirEffect s t n a := by
  cases step_cases h with
  | createStep i o _ hc =>
    by_cases hn : n=nameOf s i
    · subst hn
      cases hc with
      | mkdir hpc => exact .made i o hpc rfl (update_self ..)
      | mounted d hpc hd =>
        refine .mounted i o hpc rfl (mount_eq hd ▸ update_self ..) ?_ ?_
        all_goals simp [setCreate]
      | clear k hpc => exact .cleared i o k (.inl hpc) rfl (update_self ..)
      | unlinkReady hpc => exact .cleared i o .ready (.inr hpc) rfl (update_self ..)
      | bind k d hpc hd =>
        refine .bound i o k hpc rfl (bind_eq hd ▸ update_self ..) ?_
        simp [createAt,setCreate]
      | _ => exact .same rfl
    · cases hc with
      | mkdir | mounted | clear | unlinkReady | bind => exact .same (update_of_ne hn ..)
      | _ => exact .same rfl
  | destroyStep d hc =>
    cases hc with
    | unmount e hpc ht =>
      refine at_key .same rfl ?_
      rintro rfl
      exact .detached d e hpc ht rfl (update_self ..)
    | _ => exact .same rfl
  | supStep i o hc =>
    by_cases hn : n=nameOf s i
    · subst hn
      cases hc with
      | unmount code hpc => exact .unmounted i o code hpc rfl (update_self ..)
      | unlink code k hpc => exact .unlinked i o code k hpc rfl (update_self ..)
      | rmdir code hpc =>
        exact .wiped i o code hpc rfl (update_self ..) (update_self ..)
      | _ => exact .same rfl
    · cases hc with
      | unmount | unlink | rmdir => exact .same (update_of_ne hn ..)
      | _ => exact .same rfl
  | sessionBind i k _ hr =>
    refine at_key .same rfl ?_
    rintro rfl
    exact .rebound i k hr rfl (update_self ..)
  | _ => first | exact .same rfl | (rename_i hc; cases hc <;> exact .same rfl)

/-! ### Processes and cgroup leaves -/

inductive ProcEffect (s t : Daemon) : Act → Prop
  | same {a : Act} : t.procs=s.procs → ProcEffect s t a
  | session (i : Inc) (o : Outcome) (p : Pid) : (s.creates i).pc=.spawn →
      s.procs.pidUsed p=false → t.procs=⟨p,.session i,i,none⟩::s.procs →
      (t.creates i).pc=.wait → ProcEffect s t (.createStep i o)
  | client (c : Nat) (o : Outcome) (i : Inc) (p : Pid) : (s.spawns c).pc=.spawn i →
      s.procs.pidUsed p=false → t.procs=⟨p,.child c,i,none⟩::s.procs →
      t.spawns c={s.spawns c with pc := .record i, pid := p} → ProcEffect s t (.spawnStep c o)
  | given (i : Inc) (o : Outcome) (err : CreateError) :
      (s.creates i).pc=.wait ∨ (s.creates i).pc=.insert → t.procs=s.procs.reap (.session i) →
      (t.creates i).pc=.done (some err) → ProcEffect s t (.createStep i o)
  | shutdown (i : Inc) (o : Outcome) (code : Int) : s.sups i=.wait ∨ s.sups i=.term →
      t.procs=s.procs.reap (.session i) → t.sups i=.remove code → ProcEffect s t (.supStep i o)
  | reaped (c : Nat) (i : Inc) (st : ExitStatus) : (s.spawns c).reaper=.wait i →
      s.procs.exitOf (.child c)=some st → t.procs=s.procs.reap (.child c) →
      t.spawns c={s.spawns c with reaper := .prune i (exitCodeOf st)} →
      ProcEffect s t (.reapStep c)
  | killed (i : Inc) (o : Outcome) : s.cleans i=.kill →
      t.procs=s.procs.exitWhen (fun x => leafMember s (nameOf s i) x.proc) sigkill →
      ProcEffect s t (.cleanStep i o)
  | exited (q : Proc) (st : ExitStatus) :
      t.procs=s.procs.exitWhen (fun x => x.proc=q) st → ProcEffect s t (.exit q st)

theorem proc_effect : ProcEffect s t a := by
  cases step_cases h with
  | createStep i o _ hc =>
    cases hc with
    | spawn p hpc hp =>
      refine .session i o p hpc hp rfl ?_
      simp [setCreate]
    | abandoned err hpc =>
      refine .given i o err (.inl hpc) rfl ?_
      simp [createAt,setCreate]
    | lost e hpc =>
      refine .given i o (.fault .alreadyExists) (.inr hpc) rfl ?_
      simp [createAt,setCreate]
    | _ => exact .same rfl
  | supStep i o hc =>
    cases hc with
    | exited st hpc => exact .shutdown i o _ hpc rfl (update_self ..)
    | escalated code hpc => exact .shutdown i o _ (.inr hpc) rfl (update_self ..)
    | _ => exact .same rfl
  | cleanStep i o hc =>
    cases hc with
    | kill hpc => exact .killed i o hpc rfl
    | _ => exact .same rfl
  | spawnStep c o hc =>
    cases hc with
    | spawn i p hpc hp => exact .client c o i p hpc hp rfl (update_self ..)
    | _ => exact .same rfl
  | reapStep c hc =>
    cases hc with
    | wait i st hpc hst => exact .reaped c i st hpc hst rfl (update_self ..)
    | _ => exact .same rfl
  | exit q st => exact .exited q st rfl
  | _ => first | exact .same rfl | (rename_i hc; cases hc <;> exact .same rfl)

inductive LeafEffect (s t : Daemon) (n : Name) : Act → Prop
  | same {a : Act} : t.leaves n=s.leaves n → LeafEffect s t n a
  | made (i : Inc) (o : Outcome) : (s.creates i).pc=.cgroup → nameOf s i=n →
      t.leaves n=some ((s.leaves n).getD ⟨i,[]⟩) →
      t.creates i={s.creates i with pc := .join, cgroup := true} →
      LeafEffect s t n (.createStep i o)
  | joined (i : Inc) (o : Outcome) : (s.creates i).pc=.join → nameOf s i=n →
      t.leaves n=(s.leaves n).map (·.add (.session i)) → LeafEffect s t n (.createStep i o)
  | entered (c : Nat) (o : Outcome) (i : Inc) : (s.spawns c).pc=.record i →
      (s.spawns c).name=n → t.leaves n=(s.leaves n).map (·.add (.child c)) →
      LeafEffect s t n (.spawnStep c o)
  | removed (i : Inc) (o : Outcome) (k : Nat) : s.cleans i=.retry k → nameOf s i=n →
      t.leaves n=none → LeafEffect s t n (.cleanStep i o)

theorem leaf_effect (n : Name) : LeafEffect s t n a := by
  cases step_cases h with
  | createStep i o _ hc =>
    by_cases hn : n=nameOf s i
    · subst hn
      cases hc with
      | leaf hpc =>
        exact .made i o hpc rfl (update_self ..) (update_self ..)
      | join hpc => exact .joined i o hpc rfl (update_self ..)
      | _ => exact .same rfl
    · cases hc with
      | leaf | join => exact .same (update_of_ne hn ..)
      | _ => exact .same rfl
  | spawnStep c o hc =>
    cases hc with
    | record i e l hpc hs hl =>
      refine at_key .same rfl ?_
      rintro rfl
      rcases hl with rfl | ⟨-,rfl⟩
      · exact .same (update_self ..)
      · exact .entered c o i hpc rfl (update_self ..)
    | _ => exact .same rfl
  | cleanStep i o hc =>
    cases hc with
    | removed k hpc =>
      refine at_key .same rfl ?_
      rintro rfl
      exact .removed i o k hpc rfl (update_self ..)
    | _ => exact .same rfl
  | _ => first | exact .same rfl | (rename_i hc; cases hc <;> exact .same rfl)

/-! ### Control connections -/

inductive BoxEffect (s t : Daemon) (i : Inc) : Act → Prop
  | same {a : Act} : t.boxes i=s.boxes i → BoxEffect s t i a
  | spawned (o : Outcome) : (s.creates i).pc=.spawn →
      t.boxes i=Wire.Mailbox.init ⟨(s.creates i).args.width,(s.creates i).args.height,[]⟩ →
      BoxEffect s t i (.createStep i o)
  | entered (c : Nat) (e : SessionEntry) : (s.controls c).pc=.lookup →
      s.sessions (s.controls c).name=some e → e.inc=i →
      t.boxes i=(s.boxes i).enter c (s.controls c).req.method →
      t.controls c={s.controls c with pc := .rpc i} → BoxEffect s t i (.controlStep c)
  | moved (x : BoxAct) : (∀ c r,x≠.begin c r) →
      Wire.Mailbox.step dispatch (s.boxes i) x=some (t.boxes i) → BoxEffect s t i (.box i x)
  | redrawn (ids : List Nat) :
      t.boxes i={s.boxes i with sess := {(s.boxes i).sess with windows := untagged ids}} →
      BoxEffect s t i (.windows i ids)

theorem box_effect (i : Inc) : BoxEffect s t i a := by
  cases step_cases h with
  | createStep j o _ hc =>
    cases hc with
    | spawn p hpc =>
      refine at_key .same rfl ?_
      rintro rfl
      exact .spawned o hpc (update_self ..)
    | _ => exact .same rfl
  | controlStep c hc =>
    cases hc with
    | found e hpc he =>
      refine at_key .same rfl ?_
      rintro rfl
      exact .entered c e hpc he rfl (update_self ..) (update_self ..)
    | _ => exact .same rfl
  | box j x b hx hb =>
    refine at_key .same rfl ?_
    rintro rfl
    refine .moved x hx (hb.trans ?_)
    simp [setBox]
  | windows j ids =>
    refine at_key .same rfl ?_
    rintro rfl
    exact .redrawn ids (update_self ..)
  | _ => first | exact .same rfl | (rename_i hc; cases hc <;> exact .same rfl)

/-! ### Logs and settings -/

theorem metering_frame : t.metering=s.metering := by
  cases step_cases h with
  | _ => first | rfl | (rename_i hc; cases hc <;> rfl)

inductive UsageEffect (s t : Daemon) : Act → Prop
  | same {a : Act} : t.usage=s.usage → UsageEffect s t a
  | start (i : Inc) (o : Outcome) : (s.creates i).pc=.insert →
      t.usage=s.usage++[UsageLine.start (nameOf s i) (s.creates i).args.apiKeyId i] →
      UsageEffect s t (.createStep i o)
  | destroyed (d : Nat) (e : SessionEntry) : (s.destroys d).pc=.emit e →
      t.usage=s.usage++[UsageLine.stop (s.destroys d).name none e.inc] →
      (t.destroys d).pc=.tags e → UsageEffect s t (.destroyStep d)
  | exited (i : Inc) (o : Outcome) (code : Int) (e : SessionEntry) : s.sups i=.emit code e →
      t.usage=s.usage++[UsageLine.stop (nameOf s i) (some code) e.inc] →
      t.sups i=.unmount code e.tmpfs → UsageEffect s t (.supStep i o)

theorem usage_effect : UsageEffect s t a := by
  cases step_cases h with
  | createStep i o _ hc =>
    cases hc with
    | insert hpc =>
      cases s.metering with
      | true => exact .start i o hpc rfl
      | false => exact .same rfl
    | _ => exact .same rfl
  | destroyStep d hc =>
    cases hc with
    | emit e hpc =>
      cases s.metering with
      | true =>
        refine .destroyed d e hpc ?_ ?_
        · simp [destroyAt,sigterm]
        · simp [destroyAt]
      | false => exact .same (by simp [destroyAt,sigterm])
    | _ => exact .same rfl
  | supStep i o hc =>
    cases hc with
    | emit code e hpc => exact .exited i o code e hpc rfl (update_self ..)
    | _ => exact .same rfl
  | _ => first | exact .same rfl | (rename_i hc; cases hc <;> exact .same rfl)

inductive EventEffect (s t : Daemon) : Act → Prop
  | same {a : Act} : t.events=s.events → EventEffect s t a
  | created (i : Inc) (o : Outcome) : (s.creates i).pc=.announce →
      t.events=s.events++[Event.sessionCreated (nameOf s i) i] → (t.creates i).pc=.done none →
      EventEffect s t (.createStep i o)
  | destroyed (i : Inc) (o : Outcome) (code : Int) : s.sups i=.announce code →
      t.events=s.events++[Event.sessionDestroyed (nameOf s i) code i] → t.sups i=.done code →
      EventEffect s t (.supStep i o)
  | childExited (c : Nat) (code : Int) :
      t.events=s.events++[Event.childExited (s.spawns c).name (s.spawns c).pid code c] →
      EventEffect s t (.reapStep c)
  | crashed (c : Nat) (code : Int) :
      t.events=s.events++[Event.sessionCrashed (s.spawns c).name (s.spawns c).pid code c] →
      EventEffect s t (.reapStep c)

theorem event_effect : EventEffect s t a := by
  cases step_cases h with
  | createStep i o _ hc =>
    cases hc with
    | announce hpc =>
      refine .created i o hpc rfl ?_
      simp [createAt,setCreate]
    | _ => exact .same rfl
  | supStep i o hc =>
    cases hc with
    | announce code hpc => exact .destroyed i o code hpc rfl (update_self ..)
    | _ => exact .same rfl
  | reapStep c hc =>
    cases hc with
    | report i code => exact .childExited c code rfl
    | crash i code => exact .crashed c code rfl
    | _ => exact .same rfl
  | _ => first | exact .same rfl | (rename_i hc; cases hc <;> exact .same rfl)

/-- SIGTERMs are sent by `destroy` to the clients in the entry it has taken. -/
inductive SignalEffect (s t : Daemon) : Act → Prop
  | same {a : Act} : t.signals=s.signals → SignalEffect s t a
  | sent (d : Nat) (e : SessionEntry) : (s.destroys d).pc=.emit e →
      t.signals=s.signals ++
        e.childPids.map (fun p => (⟨e.inc,p,(s.procs.byPid p).map Process.proc⟩ : Signal)) →
      SignalEffect s t (.destroyStep d)

theorem signal_effect : SignalEffect s t a := by
  cases step_cases h with
  | destroyStep d hc =>
    cases hc with
    | emit e hpc => exact .sent d e hpc rfl
    | _ => exact .same rfl
  | _ => first | exact .same rfl | (rename_i hc; cases hc <;> exact .same rfl)

theorem signals_mono {x : Signal} (hx : x∈s.signals) : x∈t.signals := by
  cases signal_effect h with
  | same hs => exact hs ▸ hx
  | sent d e _ hs => exact hs ▸ List.mem_append_left _ hx

theorem history_frame : t.history=s.history ∨
    ∃ i o,a=.createStep i o ∧ (s.creates i).pc=.insert ∧ (t.creates i).pc=.announce ∧
      t.history=s.history++[i] := by
  cases step_cases h with
  | createStep i o _ hc =>
    cases hc with
    | insert hpc =>
      refine .inr ⟨i,o,rfl,hpc,?_,rfl⟩
      simp [createAt,setCreate]
    | _ => exact .inl rfl
  | _ => first | exact .inl rfl | (rename_i hc; cases hc <;> exact .inl rfl)

theorem removed_frame (j : Inc) : t.removed j=s.removed j ∨
    ∃ n e,e.inc=j ∧ s.sessions n=some e ∧ t.sessions n=none ∧ t.removed j=some e := by
  cases step_cases h with
  | destroyStep d hc =>
    cases hc with
    | remove e hpc hs =>
      refine at_key .inl rfl ?_
      rintro rfl
      exact .inr ⟨_,e,rfl,hs,update_self ..,update_self ..⟩
    | _ => exact .inl rfl
  | supStep i o hc =>
    cases hc with
    | removed code e pc hpc hs =>
      refine at_key .inl rfl ?_
      rintro rfl
      exact .inr ⟨_,e,rfl,hs,update_self ..,update_self ..⟩
    | _ => exact .inl rfl
  | _ => first | exact .inl rfl | (rename_i hc; cases hc <;> exact .inl rfl)

omit h in
theorem dropKill_told (k : KillChan) : dropKill k≠.waiting := by
  cases k <;> decide

/-- The kill channel of an incarnation resolves once and for all. -/
theorem kill_frame (j : Inc) : t.kills j=s.kills j ∨ t.kills j≠.waiting := by
  cases step_cases h with
  | destroyStep d hc =>
    cases hc with
    | kill =>
      refine at_key .inl rfl ?_
      rintro rfl
      exact .inr (by simp [destroyAt])
    | _ => exact .inl rfl
  | supStep i o hc =>
    cases hc with
    | removed code e =>
      refine at_key .inl rfl ?_
      rintro rfl
      exact .inr (by simpa [supAt] using dropKill_told (s.kills e.inc))
    | _ => exact .inl rfl
  | _ => first | exact .inl rfl | (rename_i hc; cases hc <;> exact .inl rfl)

theorem told_stable {j : Inc} (hk : s.kills j≠.waiting) : t.kills j≠.waiting := by
  rcases kill_frame h j with hs | ht
  · rw [hs]
    exact hk
  · exact ht

end Waymux.Registry.TaskFrames
