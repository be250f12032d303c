import Waymux.Registry.NameExclusive

/-!
# Directory, sockets and tmpfs of a name

Read as two stacks: who made the mounts, and which sockets lie in each layer.
-/

namespace Waymux.Registry.Directories
open HostResources TaskState TaskSteps StepCases TaskFrames Incarnations Processes List Function
open NameExclusive Interleave.Runs

variable {s t : Daemon} {a : Act} {i j : Inc} {n : Name} {m : Bool}

def makers (d : SessionDir) : List Inc := d.mounts.map Layer.maker
def sockets (d : SessionDir) : List (Sock → Option Inc) :=
  d.mounts.map Layer.files++(d.base.map Layer.files).toList

section Stacks
variable (d : SessionDir) (k : Sock) (f : Option Inc)

theorem makers_onVisible (g : Layer → Layer) (hg : ∀ l,(g l).maker=l.maker) :
    makers (d.onVisible g)=makers d := by
  unfold SessionDir.onVisible makers
  split
  · next hm => simp [hm,hg]
  · next hm => simp [hm]

theorem makers_put : makers (d.onVisible fun l => l.put k f)=makers d :=
  makers_onVisible d _ fun _ => rfl

theorem makers_createDirAll (i : Inc) : makers (d.createDirAll i)=makers d := by
  unfold SessionDir.createDirAll
  split <;> rfl

theorem makers_removeDirAll : makers d.removeDirAll=makers d := by
  unfold SessionDir.removeDirAll makers
  split
  · next hm => simp [hm,Layer.wipe]
  · next hm => simp [hm]

theorem makers_unmount : makers d.unmount=(makers d).tail := map_tail

theorem sockets_put : sockets (d.onVisible fun l => l.put k f) =
    (sockets d).modifyHead fun g => update g k f := by
  unfold SessionDir.onVisible sockets
  split
  · next hm => simp [hm,Layer.put]
  · next hm => cases hb : d.base <;> simp [hm,Layer.put]

theorem sockets_createDirAll (i : Inc) : sockets (d.createDirAll i)=sockets d ∨
    sockets (d.createDirAll i)=sockets d++[fun _ => none] := by
  unfold SessionDir.createDirAll sockets
  split
  · next hb => exact .inr (by simp [hb,Layer.empty])
  · next hb => exact .inl (by simp [hb])

theorem sockets_removeDirAll : sockets d.removeDirAll=(sockets d).tail ∨
    sockets d.removeDirAll=(fun _ => none)::(sockets d).tail := by
  unfold SessionDir.removeDirAll sockets
  split
  · next hm => exact .inr (by simp [hm,Layer.wipe])
  · next hm => exact .inl (by cases hb : d.base <;> simp [hm])

theorem sockets_unmount : sockets d.unmount=(sockets d).tail ∨ sockets d.unmount=sockets d := by
  unfold SessionDir.unmount sockets
  cases hm : d.mounts with
  | nil => exact .inr (by simp)
  | cons => exact .inl (by simp)

end Stacks

/- Until its unmount the destroy call has the handle. -/
def detaching : DestroyPc → Option SessionEntry
  | .emit e | .tags e | .kill e | .unmount e => some e
  | _ => none

def Holder (s : Daemon) (i : Inc) : Prop :=
  InFlight s i ∧ (s.creates i).tmpfs=true ∨
  (∃ e,s.sessions (nameOf s i)=some e ∧ e.inc=i ∧ e.tmpfs=true) ∨
  (∃ d e,detaching (s.destroys d).pc=some e ∧ e.inc=i ∧ e.tmpfs=true) ∨
  (∃ code e,s.sups i=.emit code e ∧ e.tmpfs=true) ∨
  ∃ code,s.sups i=.unmount code true

theorem detaching_taken {pc : DestroyPc} {e : SessionEntry} (h : detaching pc=some e) : taken pc=some e := by
  cases pc <;> simp_all [detaching,taken]

theorem Holder.busy (w : Wf s) (h : Holder s i) : Busy s i := by
  rcases h with ⟨h,_⟩ | ⟨e,he,rfl,_⟩ | ⟨d,e,h,rfl,_⟩ | ⟨code,e,h,_⟩ | ⟨code,h⟩
  · exact .inl h
  · exact entry_busy w he
  · exact destroy_busy (detaching_taken h)
  · exact sup_busy h rfl
  · exact sup_busy h rfl

def NoHandleYet (s : Daemon) : Prop :=
  ∀ i,(s.creates i).pc=.lookup ∨ (s.creates i).pc=.mkdir ∨ (s.creates i).pc=.mount →
    (s.creates i).tmpfs=false

variable {ok : Daemon → Act → Prop} {f : Sock → Option Inc}

theorem noHandle_reach (hr : Reach step ok (init m) s) : NoHandleYet s := by
  refine hr.keeps (by simp [NoHandleYet,init]) fun {u v a} hu _ h => ?_
  intro i hpc
  rcases create_frame h i with hs | ⟨args,_,_,hq⟩ | ⟨o,_,hc⟩
  · rw [hs] at hpc ⊢
    exact hu i hpc
  · simp [hq]
  · cases hc with
    | free hp => simpa [createAt,setCreate] using hu i (.inl hp)
    | mkdir hp => simpa [createAt,setCreate,setDir] using hu i (.inr (.inl hp))
    | clear k => cases k <;> simp [createAt,setCreate,afterClear] at hpc
    | bind k => cases k <;> simp [createAt,setCreate,afterBind] at hpc
    | _ => simp [createAt,setCreate] at hpc

theorem create_tmpfs (hc : CreateCase s i t) (hf : (s.creates i).tmpfs=true) : (t.creates i).tmpfs=true := by
  cases hc <;> simp [createAt,setCreate,setDir,setLeaf,killSession,supAt,setEntry,hf]

theorem flight_handle_step (h : step s a=some t) (hf : InFlight s j) (hm : (s.creates j).tmpfs=true) :
    Holder t j ∨ Failed t j := by
  have hn:=name_stable h hf.not_idle
  rcases create_frame h j with hs | ⟨args,_,hpc,_⟩ | ⟨o,rfl,hc⟩
  · exact .inl (.inl ⟨by simpa only [InFlight,hs] using hf,by rw [hs,hm]⟩)
  · exact absurd hpc hf.not_idle
  · rcases (create_phase hc).2 with ⟨_,hx⟩ | ⟨hx,_⟩ | ⟨_,hx | hx⟩ | ⟨hx,_⟩ | ⟨hx,_⟩
    · exact .inr hx
    · simp [InFlight,hx,working] at hf
    · exact .inl (.inl ⟨hx,create_tmpfs hc hm⟩)
    · exact .inr hx
    · cases hc with
      | insert =>
        exact .inl (.inr (.inl ⟨newEntry j (s.creates j),by rw [hn]; exact update_self ..,rfl,hm⟩))
      | lost => exact .inr (createAt_failed ..)
      | _ => simp_all
    · simp [InFlight,hx,working] at hf

section Step
variable (w : Wf s) (h : step s a=some t)
include w h

theorem entry_handle_step (hu : Sole Busy s) {e : SessionEntry}
    (he : s.sessions (nameOf s e.inc)=some e) (hm : e.tmpfs=true) : Holder t e.inc := by
  have hn:=name_stable h (w.entry_inserted _ e he).not_idle
  cases entry_effect h (nameOf s e.inc) with
  | same hs => exact .inr (.inl ⟨e,by rw [hn,hs,he],rfl,hm⟩)
  | inserted k o _ _ hs => simp [he] at hs
  | recorded c o k e' _ _ hs ht | pruned c k code e' _ _ hs ht | resized c k x y e' _ _ _ hs ht =>
    cases he.symm.trans hs
    exact .inr (.inl ⟨_,(congrArg t.sessions hn).trans ht,rfl,hm⟩)
  | destroyed d e' hpc hd hs =>
    cases he.symm.trans hs
    refine .inr (.inr (.inl ⟨d,e,?_,rfl,hm⟩))
    cases destroyStep_cases (show destroyStep s d=some t from h) with
    | remove f _ hf =>
      cases (hd ▸ hs).symm.trans hf
      simp [destroyAt,detaching]
    | missing _ hf => simp [hd,he] at hf
    | _ => simp_all
  | collected k o code e' hpc hk =>
    -- the supervisor that finds the entry is the entry's own
    have hke : k=e.inc := hu k e.inc (sup_busy hpc rfl) (entry_busy w he) hk
    subst hke
    cases supStep_cases (show supStep s e.inc o=some t from h) with
    | removed code' f pc hpc' hf hp =>
      cases he.symm.trans hf
      rcases hp with ⟨_,rfl⟩ | ⟨_,rfl⟩
      · exact .inr (.inr (.inr (.inl ⟨code',e,update_self ..,hm⟩)))
      · exact .inr (.inr (.inr (.inr ⟨code',by simp [supAt,hm]⟩)))
    | absent code' _ hf => simp [he] at hf
    | _ => simp_all

theorem holder_step (hu : Sole Busy s) (hh : Holder s j) :
    Holder t j ∨ Failed t j ∨ t.dirs (nameOf s j)=(s.dirs (nameOf s j)).unmount := by
  rcases hh with ⟨hf,hm⟩ | ⟨e,he,rfl,hm⟩ | ⟨d,e,hd,rfl,hm⟩ | ⟨code,e,hp,hm⟩ | ⟨code,hp⟩
  · exact (flight_handle_step h hf hm).imp id .inl
  · exact .inl (entry_handle_step w h hu he hm)
  · rcases destroy_frame h d with hs | ⟨n,_,hpc,_⟩ | ⟨_,hc⟩
    · exact .inl (.inr (.inr (.inl ⟨d,e,hs ▸ hd,rfl,hm⟩)))
    · simp [hpc,detaching] at hd
    · have hn:=(w.destroy_taken d e (detaching_taken hd)).2
      have keep {pc : DestroyPc} (hpc : (t.destroys d).pc=pc) (he : detaching pc=some e) :
          Holder t e.inc := .inr (.inr (.inl ⟨d,e,hpc ▸ he,rfl,hm⟩))
      cases hc with
      | emit f hpc | tags f hpc | kill f hpc =>
        simp only [hpc,detaching,Option.some.injEq] at hd
        subst hd
        exact .inl (keep (by simp only [destroyAt,update_self]; rfl) rfl)
      | unmount =>
        exact .inr (.inr (hn ▸ update_self ..))
      | noTmpfs f hpc hf =>
        simp only [hpc,detaching,Option.some.injEq] at hd
        simp [hd,hm] at hf
      | missing hpc | remove f hpc | cleanup f hpc | noCgroup f hpc =>
        simp [hpc,detaching] at hd
  · rcases sup_frame h j with hs | ⟨hpc,_,_⟩ | ⟨o,_,hc⟩
    · exact .inl (.inr (.inr (.inr (.inl ⟨code,e,hs ▸ hp,hm⟩))))
    · exact absurd ((w.sup_iff j).mp (by simp [hp])) (inFlight_of_pc hpc rfl).not_inserted
    · cases hc with
      | emit code' f hq =>
        cases hp.symm.trans hq
        exact .inl (.inr (.inr (.inr (.inr ⟨code,by simp [supAt,hm]⟩))))
      | _ => simp_all
  · rcases sup_frame h j with hs | ⟨hpc,_,_⟩ | ⟨o,_,hc⟩
    · exact .inl (.inr (.inr (.inr (.inr ⟨code,hs ▸ hp⟩))))
    · exact absurd ((w.sup_iff j).mp (by simp [hp])) (inFlight_of_pc hpc rfl).not_inserted
    · cases hc with
      | unmount => exact .inr (.inr (update_self ..))
      | _ => simp_all

end Step

theorem makers_after (h : step s a=some t) (n : Name) :
    makers (t.dirs n)=makers (s.dirs n) ∨
    (∃ i,(s.creates i).pc=.mount ∧ nameOf s i=n ∧ makers (t.dirs n)=i::makers (s.dirs n) ∧
      (t.creates i).pc=.clear .wayland ∧ (t.creates i).tmpfs=true) ∨
    makers (t.dirs n)=(makers (s.dirs n)).tail := by
  cases dir_effect h n with
  | same ht => exact .inl (by rw [ht])
  | made i o _ _ ht => exact .inl (by rw [ht,makers_createDirAll])
  | mounted i o hpc hn ht hc hm => exact .inr (.inl ⟨i,hpc,hn,by rw [ht]; rfl,hc,hm⟩)
  | cleared i o k _ _ ht | unlinked i o code k _ _ ht | bound i o k _ _ ht | rebound i k _ _ ht =>
    exact .inl (ht ▸ makers_put ..)
  | detached d e _ _ _ ht | unmounted i o code _ _ ht => exact .inr (.inr (ht ▸ makers_unmount ..))
  | wiped i o code _ _ ht => exact .inl (by rw [ht,makers_removeDirAll])

/-- The top mount belongs to a holder of its handle; below lie the mounts that
failed create calls have left behind. -/
def MountStack (s : Daemon) : Prop :=
  ∀ n j rest,makers (s.dirs n)=j::rest →
    nameOf s j=n ∧ (Failed s j ∨ Holder s j) ∧ ∀ k∈rest,nameOf s k=n ∧ Failed s k

theorem Holder.not_mounting (w : Wf s) (h0 : NoHandleYet s) (h : Holder s i) : (s.creates i).pc≠.mount := by
  intro hpc
  have hflight : InFlight s i := inFlight_of_pc hpc rfl
  rcases h with ⟨_,hx⟩ | ⟨e,he,rfl,_⟩ | ⟨d,e,hx,rfl,_⟩ | ⟨code,e,hx,_⟩ | ⟨code,hx⟩
  · simp [h0 i (.inr (.inr hpc))] at hx
  · exact hflight.not_inserted (w.entry_inserted _ e he)
  · have hrem:=(w.destroy_taken d e (detaching_taken hx)).1
    exact hflight.not_inserted (w.removed_inserted _ e hrem).2
  · exact hflight.not_inserted ((w.sup_iff i).mp (by simp [hx]))
  · exact hflight.not_inserted ((w.sup_iff i).mp (by simp [hx]))

theorem mountStack_step (w : Wf s) (hu : Sole Busy s) (h0 : NoHandleYet s) (hs : MountStack s)
    (h : step s a=some t) : MountStack t := by
  intro n j rest hj
  -- leftovers stay leftovers
  have left {k : Inc} (hk : nameOf s k=n ∧ Failed s k) : nameOf t k=n ∧ Failed t k :=
    ⟨(name_stable h hk.2.not_idle).trans hk.1,hk.2.stable h⟩
  rcases makers_after h n with ht | ⟨i,hpc,hn,ht,hc,hm⟩ | ht
  · obtain ⟨hn,hjs,hrest⟩ := hs n j rest (ht ▸ hj)
    refine ⟨?_,?_,fun k hk => left (hrest k hk)⟩
    · rcases hjs with hf | hh
      · exact (left ⟨hn,hf⟩).1
      · exact (name_stable h ((hh.busy w).not_idle w)).trans hn
    · rcases hjs with hf | hh
      · exact .inl (hf.stable h)
      · rcases holder_step w h hu hh with hh | hf | hd
        · exact .inr hh
        · exact .inl hf
        · -- had the handle been used, the stack would be shorter
          rw [hn] at hd
          have hshort : makers (t.dirs n)=rest := by
            rw [hd,makers_unmount,← ht,hj,tail_cons]
          exact absurd (hj.symm.trans hshort) (cons_ne_self j rest)
  · obtain ⟨rfl,rfl⟩ := List.cons.inj (ht.symm.trans hj)
    have hflight : InFlight s i := inFlight_of_pc hpc rfl
    refine ⟨(name_stable h hflight.not_idle).trans hn,.inr (.inl ⟨by simp [InFlight,hc,working],hm⟩),?_⟩
    intro k hk
    refine left ?_
    cases hmk : makers (s.dirs n) with
    | nil => simp [hmk] at hk
    | cons j' rest' =>
      obtain ⟨hn',hj',hrest'⟩ := hs n j' rest' hmk
      rw [hmk] at hk
      rcases mem_cons.mp hk with rfl | hk
      · refine ⟨hn',hj'.resolve_right fun hh => ?_⟩
        -- a holder would be the create call itself, which has nothing mounted yet
        have hki : k=i := hu k i (hh.busy w) (.inl hflight) (hn'.trans hn.symm)
        exact hh.not_mounting w h0 (hki ▸ hpc)
      · exact hrest' k hk
  · cases hmk : makers (s.dirs n) with
    | nil => simp [hmk,hj] at ht
    | cons j' rest' =>
      obtain ⟨_,_,hrest'⟩ := hs n j' rest' hmk
      rw [hj,hmk,tail_cons] at ht
      subst ht
      have hj:=left (hrest' j mem_cons_self)
      exact ⟨hj.1,.inl hj.2,fun k hk => left (hrest' k (mem_cons_of_mem _ hk))⟩

theorem mountStack_reach (hok : ∀ s a,ok s a → Alone Busy s a) (hr : Reach step ok (init m) s) : MountStack s :=
  hr.invariant (by simp [MountStack,makers,init,SessionDir.absent]) fun hu hs _ h =>
    mountStack_step (wf_reach hu) (sole_busy hok hu) (noHandle_reach hu) hs h

/- The create call may have sockets of its own in the directory. -/
def bound : CreatePc → Bool
  | .clear .events | .bind .events | .spawn | .wait | .unlinkReady | .cgroup | .join | .insert => true
  | _ => false

/- The supervisor has not removed the directory yet. -/
def seated : SupPc → Bool
  | .none | .announce _ | .done _ => false
  | _ => true

def Seated (s : Daemon) (i : Inc) : Prop :=
  bound (s.creates i).pc=true ∨ seated (s.sups i)=true

theorem seated_live {pc : SupPc} (h : seated pc=true) : supLive pc=true := by
  cases pc <;> first | rfl | cases h

theorem bound_working {pc : CreatePc} (h : bound pc=true) : working pc=true := by
  cases pc <;> first | rfl | simp [bound] at h

theorem Seated.busy (h : Seated s i) : Busy s i :=
  h.elim (fun hb => .inl (bound_working hb)) fun hs => .inr (.inl (seated_live hs))

theorem hosted_seated (h : Hosted s i) : Seated s i := by
  rcases h with h | h | h
  · refine .inl ?_
    revert h
    cases (s.creates i).pc <;> simp [spawned,bound]
  · exact .inr (by rw [h]; rfl)
  · exact .inr (by rw [h]; rfl)

theorem seated_step (h : step s a=some t) (hj : Seated s j) : Seated t j ∨ Failed t j ∨
    t.dirs (nameOf s j)=(s.dirs (nameOf s j)).removeDirAll := by
  rcases hj with hb | hp
  · rcases create_frame h j with hs | ⟨args,_,hpc,_⟩ | ⟨o,_,hc⟩
    · exact .inl (.inl (by rw [hs,hb]))
    · simp [hpc,bound] at hb
    · cases hc with
      | insert => exact .inl (.inr (by simp [createAt,setCreate,supAt,seated]))
      | failed | abandoned | lost => exact .inr (.inl (createAt_failed ..))
      | clear k hpc =>
        cases k <;> simp [hpc,bound] at hb
        exact .inl (.inl (by simp [createAt,setCreate,afterClear,bound]))
      | bind k d hpc =>
        cases k <;> simp [hpc,bound] at hb
        exact .inl (.inl (by simp [createAt,setCreate,afterBind,bound]))
      | taken e hpc | free hpc | mkdir hpc | mounted d hpc | unmounted hpc | announce hpc =>
        simp [hpc,bound] at hb
      | _ => exact .inl (.inl (by simp [createAt,setCreate,bound]))
  · rcases sup_frame h j with hs | ⟨_,_,hw⟩ | ⟨o,_,hc⟩
    · exact .inl (.inr (by rw [hs,hp]))
    · exact .inl (.inr (by rw [hw]; rfl))
    · cases hc with
      | rmdir => exact .inr (.inr (update_self ..))
      | announce code hpc => simp [hpc,seated] at hp
      | removed code e pc _ _ hpc =>
        rcases hpc with ⟨_,rfl⟩ | ⟨_,rfl⟩ <;> exact .inl (.inr (by simp [supAt,seated]))
      | unlink code k => cases k <;> exact .inl (.inr (by simp [supAt,afterUnlink,seated]))
      | _ => exact .inl (.inr (by simp [supAt,seated]))

inductive SocketEffect (s t : Daemon) (n : Name) : Prop
  | same : sockets (t.dirs n)=sockets (s.dirs n) → SocketEffect s t n
  | grown : sockets (t.dirs n)=sockets (s.dirs n)++[fun _ => none] → SocketEffect s t n
  | mounted (i : Inc) : (s.creates i).pc=.mount → nameOf s i=n →
      sockets (t.dirs n)=(fun _ => none)::sockets (s.dirs n) → SocketEffect s t n
  | unlinked (k : Sock) : sockets (t.dirs n) =
      (sockets (s.dirs n)).modifyHead (fun g => update g k none) → SocketEffect s t n
  | bound (i : Inc) (k : Sock) : nameOf t i=n → Seated t i → sockets (t.dirs n) =
      (sockets (s.dirs n)).modifyHead (fun g => update g k (some i)) → SocketEffect s t n
  | popped : sockets (t.dirs n)=(sockets (s.dirs n)).tail → SocketEffect s t n
  | wiped : sockets (t.dirs n)=(fun _ => none)::(sockets (s.dirs n)).tail → SocketEffect s t n

theorem socket_effect (w : Wf s) (r : Rows s) (h : step s a=some t) (n : Name) : SocketEffect s t n := by
  cases dir_effect h n with
  | same ht => exact .same (by rw [ht])
  | made i o _ _ ht =>
    rcases sockets_createDirAll (s.dirs n) i with hs | hs
    · exact .same (by rw [ht,hs])
    · exact .grown (by rw [ht,hs])
  | mounted i o hpc hn ht => exact .mounted i hpc hn (by rw [ht]; rfl)
  | cleared i o k _ _ ht | unlinked i o code k _ _ ht => exact .unlinked k (ht ▸ sockets_put ..)
  | bound i o k hpc hn ht hc =>
    refine .bound i k ((name_stable h (by simp [hpc])).trans hn) (.inl ?_) (ht ▸ sockets_put ..)
    rw [hc]
    cases k <;> rfl
  | rebound i k hrun hn ht =>
    obtain ⟨x,hx,hp⟩ := any_eq_true.mp hrun
    have hh:=(r.session_row x hx i (by simpa using (of_decide_eq_true hp).1)).2
    refine .bound i k ((name_stable h (hh.not_idle w)).trans hn) ?_ (ht ▸ sockets_put ..)
    rcases hosted_step h hh with hh | hp'
    · exact hosted_seated hh
    · cases step_cases h with
      | sessionBind => exact hosted_seated hh
  | detached d e _ _ _ ht | unmounted i o code _ _ ht =>
    rcases sockets_unmount (s.dirs n) with hs | hs
    · exact .popped (by rw [ht,hs])
    · exact .same (by rw [ht,hs])
  | wiped i o code _ _ ht =>
    rcases sockets_removeDirAll (s.dirs n) with hs | hs
    · exact .popped (by rw [ht,hs])
    · exact .wiped (by rw [ht,hs])

def Left (s : Daemon) (n : Name) (f : Sock → Option Inc) : Prop :=
  ∀ k j,f k=some j → nameOf s j=n ∧ Failed s j

def Own (s : Daemon) (n : Name) (f : Sock → Option Inc) : Prop :=
  ∀ k j,f k=some j → nameOf s j=n ∧ (Failed s j ∨ Seated s j)

def SocketStack (s : Daemon) : Prop :=
  ∀ n f fs,sockets (s.dirs n)=f::fs → Own s n f ∧ ∀ g∈fs,Left s n g

theorem Left.own (h : Left s n f) : Own s n f :=
  fun k j hk => ⟨(h k j hk).1,.inl (h k j hk).2⟩

theorem own_empty : Own s n fun _ => none := by
  intro k j hk
  cases hk

theorem left_empty : Left s n fun _ => none := by
  intro k j hk
  cases hk

theorem Own.update {k : Sock} {v : Option Inc} (hf : Own s n f) (hv : ∀ j,v=some j → nameOf s j=n ∧ Seated s j) :
    Own s n (update f k v) := by
  intro k' j hj
  by_cases hk : k'=k
  · subst hk
    rw [update_self] at hj
    exact ⟨(hv j hj).1,.inr (hv j hj).2⟩
  · rw [update_of_ne hk] at hj
    exact hf k' j hj

theorem Left.stable (hf : Left s n f) (h : step s a=some t) : Left t n f := by
  intro k j hj
  obtain ⟨hn,hd⟩ := hf k j hj
  exact ⟨(name_stable h hd.not_idle).trans hn,hd.stable h⟩

theorem Own.stable (w : Wf s) (hf : Own s n f) (h : step s a=some t) (hw : t.dirs n≠(s.dirs n).removeDirAll) :
    Own t n f := by
  intro k j hj
  obtain ⟨rfl,hd⟩ := hf k j hj
  rcases hd with hd | hd
  · exact ⟨name_stable h hd.not_idle,.inl (hd.stable h)⟩
  · refine ⟨name_stable h (hd.busy.not_idle w),?_⟩
    rcases seated_step h hd with hd | hd | hd
    · exact .inr hd
    · exact .inl hd
    · exact absurd hd hw

theorem socketStack_tail (hs : SocketStack s) (h : step s a=some t) {fs : List (Sock → Option Inc)}
    (ht : sockets (t.dirs n)=f::fs)
    (hl : sockets (t.dirs n)=(sockets (s.dirs n)).tail ∨ sockets (t.dirs n)=(fun _ => none)::(sockets (s.dirs n)).tail) :
    Own t n f ∧ ∀ g∈fs,Left t n g := by
  have hrest : ∀ g∈(sockets (s.dirs n)).tail,Left t n g := by
    intro g hg
    cases hk : sockets (s.dirs n) with
    | nil => simp [hk] at hg
    | cons f' fs' =>
      rw [hk] at hg
      exact ((hs n f' fs' hk).2 g hg).stable h
  rcases hl with hl | hl
  · have hall:=hl.symm.trans ht
    rw [hall] at hrest
    exact ⟨(hrest f mem_cons_self).own,fun g hg => hrest g (mem_cons_of_mem _ hg)⟩
  · obtain ⟨rfl,rfl⟩ := List.cons.inj (hl.symm.trans ht)
    exact ⟨own_empty,hrest⟩

theorem Seated.not_mounting (w : Wf s) (h : Seated s i) : (s.creates i).pc≠.mount := by
  intro hpc
  have hflight : InFlight s i := inFlight_of_pc hpc rfl
  rcases h with hb | hb
  · simp [hpc,bound] at hb
  · refine hflight.not_inserted ((w.sup_iff i).mp fun hnone => ?_)
    simp [hnone,seated] at hb

theorem socketStack_step (w : Wf s) (r : Rows s) (hu : Sole Busy s) (hs : SocketStack s)
    (h : step s a=some t) : SocketStack t := by
  intro n f fs ht
  by_cases hw : t.dirs n=(s.dirs n).removeDirAll
  · exact socketStack_tail hs h ht (hw ▸ sockets_removeDirAll (s.dirs n))
  -- otherwise every layer of before keeps its reading
  have keep {f' : Sock → Option Inc} {fs' : List (Sock → Option Inc)}
      (hk : sockets (s.dirs n)=f'::fs') : Own t n f' ∧ ∀ g∈fs',Left t n g :=
    ⟨(hs n f' fs' hk).1.stable w h hw,fun g hg => ((hs n f' fs' hk).2 g hg).stable h⟩
  -- and a write into the visible layer only adds what belongs there
  have write {k : Sock} {v : Option Inc} (hv : ∀ j,v=some j → nameOf t j=n ∧ Seated t j)
      (hm : sockets (t.dirs n)=(sockets (s.dirs n)).modifyHead fun g => update g k v) :
      Own t n f ∧ ∀ g∈fs,Left t n g := by
    cases hk : sockets (s.dirs n) with
    | nil => simp [hk,ht] at hm
    | cons =>
      rw [ht,hk] at hm
      obtain ⟨rfl,rfl⟩ := List.cons.inj hm
      exact ⟨(keep hk).1.update hv,(keep hk).2⟩
  cases socket_effect w r h n with
  | same hm => exact keep (hm ▸ ht)
  | grown hm =>
    cases hk : sockets (s.dirs n) with
    | nil =>
      rw [ht,hk] at hm
      obtain ⟨rfl,rfl⟩ := List.cons.inj hm
      exact ⟨own_empty,by simp⟩
    | cons =>
      rw [ht,hk] at hm
      obtain ⟨rfl,rfl⟩ := List.cons.inj hm
      refine ⟨(keep hk).1,fun g hg => ?_⟩
      rcases mem_append.mp hg with hg | hg
      · exact (keep hk).2 g hg
      · rw [mem_singleton.mp hg]
        exact left_empty
  | mounted i hpc hn hm =>
    obtain ⟨rfl,rfl⟩ := List.cons.inj (ht.symm.trans hm)
    refine ⟨own_empty,fun g hg => ?_⟩
    have hflight : InFlight s i := inFlight_of_pc hpc rfl
    cases hk : sockets (s.dirs n) with
    | nil => simp [hk] at hg
    | cons f' fs' =>
      rw [hk] at hg
      rcases mem_cons.mp hg with rfl | hg
      · refine Left.stable (fun k j hj => ?_) h
        obtain ⟨hjn,hd⟩ := (hs n g fs' hk).1 k j hj
        refine ⟨hjn,hd.resolve_right fun hseat => ?_⟩
        -- a seated owner would be the create call itself, which has bound nothing
        have hji : j=i := hu j i hseat.busy (.inl hflight) (hjn.trans hn.symm)
        exact hseat.not_mounting w (hji ▸ hpc)
      · exact (keep hk).2 g hg
  | unlinked k hm => exact write (by simp) hm
  | bound i k hn hseat hm =>
    refine write (fun j hj => ?_) hm
    cases hj
    exact ⟨hn,hseat⟩
  | popped hm => exact socketStack_tail hs h ht (.inl hm)
  | wiped hm => exact socketStack_tail hs h ht (.inr hm)

theorem socketStack_reach (hok : ∀ s a,ok s a → Alone Busy s a) (hr : Reach step ok (init m) s) : SocketStack s :=
  hr.invariant (by simp [SocketStack,sockets,init,SessionDir.absent]) fun hu hs _ h =>
    socketStack_step (wf_reach hu) (rows_reach hu) (sole_busy hok hu) hs h

/- The create call has made the directory its own. -/
def housed : CreatePc → Bool
  | .mount | .clear _ | .bind _ | .spawn | .wait | .unlinkReady | .cgroup | .join | .insert => true
  | _ => false

def Housed (s : Daemon) (i : Inc) : Prop :=
  housed (s.creates i).pc=true ∨ seated (s.sups i)=true

theorem Housed.busy (h : Housed s i) : Busy s i := by
  rcases h with h | h
  · refine .inl ?_
    revert h
    unfold InFlight
    cases (s.creates i).pc <;> simp [housed,working]
  · exact .inr (.inl (seated_live h))

theorem housed_before (h : step s a=some t) (hi : Housed t i) : Housed s i ∨
    (s.creates i).pc=.mkdir ∧ t.dirs (nameOf s i)=(s.dirs (nameOf s i)).createDirAll i := by
  rcases hi with hp | hp
  · rcases create_frame h i with hs | ⟨args,_,_,hq⟩ | ⟨o,_,hc⟩
    · exact .inl (.inl (hs ▸ hp))
    · rcases callCreate_pc args with hl | ⟨err,hl⟩ <;> simp [hq,hl,housed] at hp
    · cases hc with
      | mkdir hpc => exact .inr ⟨hpc,update_self ..⟩
      | mounted d hpc | unmounted hpc | clear k hpc | bind k d hpc | spawn p hpc | ready hpc
      | unlinkReady hpc | leaf hpc | noLeaf hpc | join hpc => exact .inl (.inl (by rw [hpc]; rfl))
      | _ => simp [createAt,setCreate,housed] at hp
  · rcases sup_frame h i with hs | ⟨hpc,_,_⟩ | ⟨o,_,hc⟩
    · exact .inl (.inr (hs ▸ hp))
    · exact .inl (.inl (by rw [hpc]; rfl))
    · refine .inl (.inr ?_)
      cases hc with
      | announce => simp [supAt,seated] at hp
      | exited st hpc => rcases hpc with hpc | hpc <;> simp [hpc,seated]
      | _ => simp_all [seated]

def BaseOwner (s : Daemon) : Prop :=
  ∀ i b,Housed s i → (s.dirs (nameOf s i)).base=some b → b.maker=i

theorem base_before (h : step s a=some t) {b : Layer} (hb : (t.dirs n).base=some b) :
    (∃ b',(s.dirs n).base=some b' ∧ b'.maker=b.maker) ∨
    ∃ i,(s.creates i).pc=.mkdir ∧ nameOf s i=n ∧ b.maker=i := by
  have visible {k : Sock} {v : Option Inc} (ht : t.dirs n=(s.dirs n).onVisible fun l => l.put k v) :
      ∃ b',(s.dirs n).base=some b' ∧ b'.maker=b.maker := by
    rw [ht] at hb
    unfold SessionDir.onVisible at hb
    split at hb
    · exact ⟨b,hb,rfl⟩
    · obtain ⟨b',hb',rfl⟩ := Option.map_eq_some_iff.mp hb
      exact ⟨b',hb',rfl⟩
  cases dir_effect h n with
  | same ht => exact .inl ⟨b,ht ▸ hb,rfl⟩
  | made i o hpc hn ht =>
    refine .inr ⟨i,hpc,hn,?_⟩
    rw [ht] at hb
    unfold SessionDir.createDirAll at hb
    split at hb <;> (cases hb; rfl)
  | cleared i o k _ _ ht | unlinked i o code k _ _ ht | bound i o k _ _ ht | rebound i k _ _ ht =>
    exact .inl (visible ht)
  | mounted _ _ _ _ ht | detached _ _ _ _ _ ht | unmounted _ _ _ _ _ ht => exact .inl ⟨b,by rw [ht] at hb; exact hb,rfl⟩
  | wiped i o code _ _ ht =>
    rw [ht] at hb
    unfold SessionDir.removeDirAll at hb
    split at hb
    · exact .inl ⟨b,hb,rfl⟩
    · cases hb

theorem baseOwner_step (w : Wf s) (hu : Sole Busy s) (hs : BaseOwner s) (h : step s a=some t) : BaseOwner t := by
  intro i b hi hb
  rcases housed_before h hi with hold | ⟨hpc,hmade⟩
  · have hn:=name_stable h (hold.busy.not_idle w)
    rw [hn] at hb
    rcases base_before h hb with ⟨b',hb',hm⟩ | ⟨k,hpc,hk,hm⟩
    · exact hm ▸ hs i b' hold hb'
    · have hki : k=i := hu k i (.inl (inFlight_of_pc hpc rfl)) hold.busy hk
      exact hm.trans hki
  · -- the create call has just made or taken over the directory
    have hn:=name_stable h (inFlight_of_pc hpc rfl).not_idle
    rw [hn,hmade] at hb
    unfold SessionDir.createDirAll at hb
    split at hb <;> (cases hb; rfl)

theorem baseOwner_reach (hok : ∀ s a,ok s a → Alone Busy s a) (hr : Reach step ok (init m) s) : BaseOwner s :=
  hr.invariant (by simp [BaseOwner,init,SessionDir.absent]) fun hu hs _ h =>
    baseOwner_step (wf_reach hu) (sole_busy hok hu) hs h

end Waymux.Registry.Directories
