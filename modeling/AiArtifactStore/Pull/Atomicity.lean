import AiArtifactStore.Pull.Content

/-!
# What the destination holds

At every point where a call may stop, the destination holds what it held or the
complete object, unless the call writes its partial file while the destination
names the same inode.
-/

namespace AiArtifactStore.Pull

open AiArtifactStore.Client
open AiArtifactStore.Foundation
open AiArtifactStore.Identity
open AiArtifactStore.Metadata
open Relation

namespace PullState

/-- The destination holds what it held before the call, or what other processes put there
since, or the complete verified object of the plan. -/
def Intact (ctx : PullContext) (s : PullState) : Prop :=
  s.files.fs.lookup ctx.request.destinationPath = s.left ∨
    ∃ plan content, s.phase.plan? = some plan ∧
      s.files.fs.lookup ctx.request.destinationPath = some (.file content) ∧
      Complete ctx.env plan content

def Own (op : PullOp) : Prop := ∀ bytes, op ≠ .others bytes

/-- An operation that cuts or writes the partial file is made while the destination names
another inode, or none. -/
def Clean (ctx : PullContext) (s : PullState) (op : PullOp) : Prop :=
  match s.phase, op with
  | .emptying file, .next | .cutting file _ _, .next | .downloading file _ _ _, .window (.pwrite _) =>
      s.files.fs.entries ctx.request.destinationPath ≠ some file.inode
  | _, _ => True

def CleanStep (ctx : PullContext) (s s' : PullState) : Prop :=
  ∃ op, step ctx s op = some s' ∧ Clean ctx s op

variable {ctx : PullContext} {s s' : PullState} {op : PullOp}

/-! ## Steps of the call -/

theorem left_moves (h : Moves ctx s op s') (hown : Own op) : s'.left = s.left := by
  cases h with
  | resumes | cuts =>
      unfold afterResume
      split <;> rfl
  | othersCreate | othersRemove => exact absurd rfl (hown _)
  | throws | validates | plans | opens | oversized | sized | empties | reuses | mismatches
  | window | joins | verifies | flushes | closes | renames | links | unlinks | keeps => rfl

theorem files_afterResume (file : PartialFile) (state : ResumeState) :
    (s.afterResume ctx file state).files = s.files := by
  unfold afterResume
  split <;> rfl

theorem beforePublication_afterResume (file : PartialFile) (state : ResumeState) :
    (s.afterResume ctx file state).phase.beforePublication = true := by
  unfold afterResume
  split <;> rfl

/-- A step of the window leaves the file system alone, or it is a `pwrite` and writes the
partial file. -/
theorem fs_window {file : PartialFile} {state : ResumeState}
    {remaining : state.firstDownloadIndex < file.chunks.length} {window window' : WindowState Files}
    {wop : WindowOp Answers}
    (h : window.step (windowContext ctx file state remaining) wop = some window') :
    window'.sink.fs = window.sink.fs ∨
      (∃ count, wop = .pwrite count) ∧ ∃ f, window'.sink.fs = window.sink.fs.modify file.inode f := by
  cases wop with
  | worker index answers => exact .inl (by rw [WindowState.sink_of_workerStep h])
  | writer =>
      rcases WindowState.sink_of_writerStep h with hsink | ⟨bytes, hsink⟩
      · exact .inl (by rw [hsink])
      · exact .inl (by rw [hsink]; rfl)
  | pwrite count =>
      obtain ⟨index, position, data, hsink⟩ := WindowState.sink_of_pwrite h
      exact .inr ⟨⟨count, rfl⟩, _, by rw [hsink]; rfl⟩
  | throwWriter e => exact .inl (by rw [WindowState.sink_of_throwWriter h])

theorem lookup_window {file : PartialFile} {state : ResumeState}
    {remaining : state.firstDownloadIndex < file.chunks.length} {window window' : WindowState Files}
    {wop : WindowOp Answers} (path : String)
    (hclean : (∃ count, wop = .pwrite count) → window.sink.fs.entries path ≠ some file.inode)
    (h : window.step (windowContext ctx file state remaining) wop = some window') :
    window'.sink.fs.lookup path = window.sink.fs.lookup path := by
  rcases fs_window h with hfs | ⟨hpwrite, f, hfs⟩
  · rw [hfs]
  · rw [hfs]
    exact FileSystem.lookup_modify_of_ne (hclean hpwrite) _

theorem lookup_moves (h : Moves ctx s op s') (hclean : Clean ctx s op) (hown : Own op)
    (hbefore : s'.phase.beforePublication = true) :
    s.phase.beforePublication = true ∧
      s'.files.fs.lookup ctx.request.destinationPath =
        s.files.fs.lookup ctx.request.destinationPath := by
  cases h with
  | throws hphase => exact ⟨hphase, rfl⟩
  | validates hphase | plans hphase | oversized hphase | sized hphase | reuses hphase
  | mismatches hphase | joins hphase | verifies hphase | flushes hphase | closes hphase =>
      exact ⟨by rw [hphase]; rfl, rfl⟩
  | opens hphase hopen =>
      obtain ⟨-, -, hother⟩ := FileSystem.openFile_spec hopen
      exact ⟨by rw [hphase]; rfl, (hother _ (partialPath_ne _).symm).1⟩
  | empties hphase =>
      simp only [Clean, hphase] at hclean
      exact ⟨by rw [hphase]; rfl, FileSystem.lookup_modify_of_ne hclean _⟩
  | resumes hphase =>
      rw [files_afterResume]
      exact ⟨by rw [hphase]; rfl, rfl⟩
  | cuts hphase =>
      simp only [Clean, hphase] at hclean
      rw [files_afterResume]
      exact ⟨by rw [hphase]; rfl, FileSystem.lookup_modify_of_ne hclean _⟩
  | window hphase hstep =>
      refine ⟨by rw [hphase]; rfl, lookup_window _ (fun ⟨count, hop⟩ => ?_) hstep⟩
      subst hop
      simp only [Clean, hphase] at hclean
      exact hclean
  | renames | links | unlinks | keeps => cases hbefore
  | othersCreate | othersRemove => exact absurd rfl (hown _)

theorem lookup_moves_of_exists (h : Moves ctx s op s') (hclean : Clean ctx s op) (hown : Own op)
    (hmode : ctx.request.overwrite = false)
    (hexists : s.files.fs.lookup ctx.request.destinationPath ≠ none) :
    s'.files.fs.lookup ctx.request.destinationPath =
      s.files.fs.lookup ctx.request.destinationPath := by
  by_cases hbefore : s'.phase.beforePublication = true
  · exact (lookup_moves h hclean hown hbefore).2
  cases h with
  | renames hphase hoverwrite => exact absurd (hmode.symm.trans hoverwrite) (by simp)
  | links hphase hmode hlink =>
      have hnone := (FileSystem.link_spec hlink).1
      exact absurd (by simp [FileSystem.lookup, hnone]) hexists
  | unlinks => exact FileSystem.lookup_remove_of_ne (partialPath_ne _).symm
  | keeps => rfl
  | throws | validates | plans | opens | oversized | sized | empties | reuses | mismatches
  | window | joins | verifies | flushes | closes => exact absurd rfl hbefore
  | resumes | cuts => exact absurd (beforePublication_afterResume _ _) hbefore
  | othersCreate | othersRemove => exact absurd rfl (hown _)

/-! ## Runs -/

def Untouched (ctx : PullContext) (s : PullState) : Prop :=
  s.phase.beforePublication = true →
    s.files.fs.lookup ctx.request.destinationPath = s.left

theorem lookup_others {bytes : Option (List UInt8)}
    (h : step ctx s (.others bytes) = some s') :
    s'.phase = s.phase ∧ s'.files.fs.lookup ctx.request.destinationPath = s'.left := by
  simp only [step, othersWrite] at h
  split at h
  · split at h
    · obtain rfl := Option.some.inj h
      exact ⟨rfl, FileSystem.lookup_create _⟩
    · obtain rfl := Option.some.inj h
      exact ⟨rfl, FileSystem.lookup_remove⟩
  · cases h

theorem untouched_step (h : CleanStep ctx s s') (hs : Untouched ctx s) : Untouched ctx s' := by
  obtain ⟨op, hstep, hclean⟩ := h
  intro hbefore
  by_cases hown : Own op
  · have hmoves := moves_of_step hstep
    obtain ⟨hphase, hlookup⟩ := lookup_moves hmoves hclean hown hbefore
    rw [hlookup, hs hphase, left_moves hmoves hown]
  · obtain ⟨bytes, hop⟩ := not_forall.mp hown
    obtain rfl := not_not.mp hop
    exact (lookup_others hstep).2

theorem runs_of_clean (h : ReflTransGen (CleanStep ctx) s s') : Runs ctx s s' :=
  h.lift id fun _ _ ⟨op, hstep, _⟩ => ⟨op, hstep⟩

theorem intact_of_clean {fs : FileSystem String}
    (h : ReflTransGen (CleanStep ctx) (initial ctx fs) s) : Intact ctx s := by
  have hcontent := content_of_runs (runs_of_clean h)
  have hstart : Untouched ctx (initial ctx fs) := fun _ => rfl
  have huntouched : Untouched ctx s :=
    invariant_of_step (P := Untouched ctx) (fun _ _ => untouched_step) h hstart
  unfold Content at hcontent
  cases hphase : s.phase with
  | unlinking restored | published restored =>
      rw [hphase] at hcontent
      obtain ⟨content, hlookup, hcomplete⟩ := hcontent
      exact .inr ⟨_, content, by rw [hphase]; rfl, hlookup, hcomplete⟩
  | _ => exact .inl (huntouched (by rw [hphase]; rfl))

/-! ## When every run is clean -/

/-- The partial path and the destination do not name one inode. -/
def Distinct (ctx : PullContext) (fs : FileSystem String) : Prop :=
  fs.entries ctx.request.destinationPath = none ∨
    fs.entries ctx.request.destinationPath ≠ fs.entries ctx.request.partialPath

/-- A descriptor is open on another file than the one at the destination. -/
def Apart (ctx : PullContext) (fs : FileSystem String) (file : PartialFile) : Prop :=
  fs.entries ctx.request.destinationPath ≠ some file.inode ∧ file.inode < fs.next

def Separate (ctx : PullContext) (s : PullState) : Prop :=
  match s.phase with
  | .validating => ctx.request.overwrite = false ∨ Distinct ctx s.files.fs
  | .planning | .opening _ => Distinct ctx s.files.fs
  | .sizing file | .emptying file | .resuming file _ _ | .cutting file _ _
  | .downloading file _ _ _ => Apart ctx s.files.fs file
  | _ => True

theorem clean_of_separate (hs : Separate ctx s) : Clean ctx s op := by
  unfold Separate at hs
  unfold Clean
  split
  · rename_i hphase
    rw [hphase] at hs
    exact hs.1
  · rename_i hphase
    rw [hphase] at hs
    exact hs.1
  · rename_i hphase
    rw [hphase] at hs
    exact hs.1
  · trivial

theorem distinct_of_validates (hvalid : validateDestination s.files.fs ctx.request = .ok ())
    (hs : ctx.request.overwrite = false ∨ Distinct ctx s.files.fs) : Distinct ctx s.files.fs := by
  rcases hs with hmode | hs
  · simp only [validateDestination, bind_eq_ok, exists_unit, failIf_eq_ok, hmode, and_true,
      not_not] at hvalid
    have hnone := hvalid.2.2.2.2.2
    exact .inl (Option.map_eq_none_iff.mp hnone)
  · exact hs

theorem apart_of_openFile {fs fs' : FileSystem String} {plan : MultiNodeRestorePlan} {inode : Nat}
    (hopen : fs.openFile ctx.request.partialPath = some (inode, fs')) (hs : Distinct ctx fs) :
    Apart ctx fs' ⟨plan, inode⟩ := by
  obtain ⟨hentry, -, hother⟩ := FileSystem.openFile_spec hopen
  refine ⟨fun hshared => ?_, fs'.fresh _ _ hentry⟩
  obtain ⟨hdestination, hpartial⟩ := (hother _ (partialPath_ne _).symm).2 hshared
  rcases hs with hnone | hne
  · exact absurd (hdestination.symm.trans hnone) (by simp)
  · exact hne (hdestination.trans hpartial.symm)

theorem separate_afterResume {file : PartialFile} {state : ResumeState}
    (h : Apart ctx s.files.fs file) : Separate ctx (s.afterResume ctx file state) := by
  unfold afterResume
  split
  · exact h
  · trivial

theorem apart_window {file : PartialFile} {state : ResumeState}
    {remaining : state.firstDownloadIndex < file.chunks.length} {window window' : WindowState Files}
    {wop : WindowOp Answers} (h : window.step (windowContext ctx file state remaining) wop =
      some window') (hs : Apart ctx window.sink.fs file) : Apart ctx window'.sink.fs file := by
  rcases fs_window h with hfs | ⟨-, f, hfs⟩
  · rwa [hfs]
  · rw [hfs]
    exact hs

theorem distinct_create (fs : FileSystem String) (bytes : List UInt8) :
    Distinct ctx (fs.create ctx.request.destinationPath bytes) := by
  refine .inr fun hshared => ?_
  rw [FileSystem.entries_create, FileSystem.entries_create_of_ne (partialPath_ne _)] at hshared
  exact Nat.lt_irrefl _ (fs.fresh _ _ hshared.symm)

theorem apart_create {fs : FileSystem String} {file : PartialFile} (bytes : List UInt8)
    (hs : Apart ctx fs file) :
    Apart ctx (fs.create ctx.request.destinationPath bytes) file := by
  refine ⟨fun hshared => ?_, Nat.lt_succ_of_lt hs.2⟩
  rw [FileSystem.entries_create] at hshared
  exact absurd (Option.some.inj hshared) (Nat.ne_of_gt hs.2)

theorem entries_remove (fs : FileSystem String) :
    (fs.remove ctx.request.destinationPath).entries ctx.request.destinationPath = none :=
  Function.update_self ..

theorem separate_others {fs : FileSystem String} {left : Option Node} (hdistinct : Distinct ctx fs)
    (hapart : ∀ file, Apart ctx s.files.fs file → Apart ctx fs file) (hs : Separate ctx s) :
    Separate ctx { s.withFs fs with left := left } := by
  unfold Separate at hs ⊢
  simp only [withFs]
  cases hphase : s.phase <;> rw [hphase] at hs
  case validating => exact .inr hdistinct
  case planning | opening => exact hdistinct
  case sizing | emptying | resuming | cutting | downloading => exact hapart _ hs
  all_goals trivial

theorem separate_moves (h : Moves ctx s op s') (hs : Separate ctx s) : Separate ctx s' := by
  have hstart := hs
  unfold Separate at hs
  cases h with
  | throws | joins | verifies | flushes | closes | renames | links | unlinks | keeps => trivial
  | validates hphase hvalid =>
      rw [hphase] at hs
      exact distinct_of_validates hvalid hs
  | plans hphase | oversized hphase | sized hphase | empties hphase | reuses hphase
  | mismatches hphase =>
      rw [hphase] at hs
      exact hs
  | opens hphase hopen =>
      rw [hphase] at hs
      exact apart_of_openFile hopen hs
  | resumes hphase | cuts hphase =>
      rw [hphase] at hs
      exact separate_afterResume hs
  | window hphase hstep =>
      rw [hphase] at hs
      exact apart_window hstep hs
  | othersCreate =>
      exact separate_others (distinct_create _ _) (fun _ hfile => apart_create _ hfile) hstart
  | othersRemove =>
      refine separate_others (.inl (entries_remove _)) (fun _ hfile => ⟨?_, hfile.2⟩) hstart
      rw [entries_remove]
      simp

theorem clean_of_runs {fs : FileSystem String}
    (hstart : ctx.request.overwrite = false ∨ Distinct ctx fs) (h : Runs ctx (initial ctx fs) s) :
    ReflTransGen (CleanStep ctx) (initial ctx fs) s ∧ Separate ctx s := by
  induction h with
  | refl => exact ⟨.refl, hstart⟩
  | tail _ hstep ih =>
      obtain ⟨op, hop⟩ := hstep
      exact ⟨ih.1.tail ⟨op, hop, clean_of_separate ih.2⟩, separate_moves (moves_of_step hop) ih.2⟩

/-! ## Atomic publication -/

/-- While the call cuts and writes its partial file under no inode of the destination, the
destination is intact at every point.  Such is every run where the destination may not be
overwritten, or does not name the inode of the partial path at the start. -/
theorem pull_atomic (ctx : PullContext) (fs : FileSystem String) :
    (∀ s, ReflTransGen (CleanStep ctx) (initial ctx fs) s →
      Intact ctx s ∧ ∀ op s', step ctx s op = some s' → Own op → Clean ctx s op →
        s'.left = s.left ∧
        (ctx.request.overwrite = false →
          s.files.fs.lookup ctx.request.destinationPath ≠ none →
          s'.files.fs.lookup ctx.request.destinationPath =
            s.files.fs.lookup ctx.request.destinationPath)) ∧
    (ctx.request.overwrite = false ∨ Distinct ctx fs → ∀ s, Runs ctx (initial ctx fs) s →
      ReflTransGen (CleanStep ctx) (initial ctx fs) s) := by
  refine ⟨fun s hrun => ⟨intact_of_clean hrun, fun op s' hstep hown hclean => ?_⟩,
    fun hstart s hrun => (clean_of_runs hstart hrun).1⟩
  have hmoves := moves_of_step hstep
  exact ⟨left_moves hmoves hown, lookup_moves_of_exists hmoves hclean hown⟩

namespace Sample

/-- An earlier call without `overwrite` has linked the destination and has not removed the
partial file, and the destination was edited since. -/
def edited : FileSystem String :=
  (leftover.link (context false).request.partialPath "/out/a").getD leftover

/-- The call stops after it has cut the file that is too long. -/
def torn : PullState :=
  afterOps (step (context true)) (initial (context true) edited)
    [.next, .metadata (.ok plan), .next, .next, .next]

end Sample

/-- The destination is emptied in place, before anything is published. -/
theorem pull_not_atomic :
    Runs (Sample.context true) (initial (Sample.context true) Sample.edited) Sample.torn ∧
    Sample.edited.lookup "/out/a" = some (.file (asciiBytes "xyz".toList)) ∧
    Sample.torn.files.fs.lookup "/out/a" = some (.file []) ∧
    ¬Intact (Sample.context true) Sample.torn := by
  have hlookup : Sample.torn.files.fs.lookup "/out/a" = some (.file []) := by decide +kernel
  have hleft : Sample.torn.left = some (.file (asciiBytes "xyz".toList)) := by decide +kernel
  have hplan : Sample.torn.phase.plan? = some Sample.plan := by decide +kernel
  refine ⟨runs_afterOps _ _ _, by decide +kernel, hlookup, ?_⟩
  rintro (hheld | ⟨plan, content, hnamed, hcontent, hcomplete⟩)
  · have hsame := hlookup.symm.trans (hheld.trans hleft)
    simp [asciiBytes] at hsame
  · obtain rfl := Option.some.inj (hplan.symm.trans hnamed)
    have hempty : content = [] := by
      have hsame := hlookup.symm.trans hcontent
      simpa using hsame.symm
    have htotal := hcomplete.2.1
    rw [hempty] at htotal
    cases htotal

end PullState

end AiArtifactStore.Pull
