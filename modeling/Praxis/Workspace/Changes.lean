import Mathlib.Data.List.Dedup
import Mathlib.Data.List.Perm.Basic
import Praxis.Foundation.Footprint
import Praxis.Foundation.Related
import Mathlib.Data.List.Sort
import Praxis.Foundation.Rust
import Praxis.Workspace.Host

/-!
# The changes between two checkpoints

`summarize_manifest_changes` lists what has to be done to the files of one checkpoint to
come to those of another.  It goes over the paths of both in the order of a hash set, so
in any order.  A path that is only in one of them is added or deleted; then
`pair_renames` takes a deleted path and an added one with the same content together, each
added path with the last deleted one that is left for its content.

The list is exact (`summary_exact`).  Its entries are updates with disjoint footprints
(`Foundation.HasFootprint`), so that the order in which they are applied does not matter.
-/

namespace Praxis.Workspace

open Foundation

/-! ## The code -/

inductive WorkspaceMutationKind where
  | add
  | update
  | delete
  | rename
  deriving DecidableEq

structure WorkspaceCheckpointFileSummary where
  path : PathBuf
  previousPath : Option PathBuf
  kind : WorkspaceMutationKind
  byteSize : Nat
  deriving DecidableEq

/-- The files by their path.  Of several with one path it is the last one that is found. -/
def filesByPath (manifest : WorkspaceCheckpointManifest) (path : PathBuf) :
    Option WorkspaceFileVersion :=
  manifest.files.reverse.find? (·.path = path)

/-- The hash set of the paths, in the order in which it is iterated. -/
structure PathOrder (before after : WorkspaceCheckpointManifest) where
  paths : List PathBuf
  nodup : paths.Nodup
  mem_iff : ∀ path, path ∈ paths ↔
    (filesByPath before path).isSome ∨ (filesByPath after path).isSome

/-- The summary of a path, if it has changed. -/
def changeOf (before after : PathBuf → Option WorkspaceFileVersion) (path : PathBuf) :
    Option WorkspaceCheckpointFileSummary :=
  match before path, after path with
  | none, some after => some ⟨path, none, .add, after.byteSize⟩
  | some before, none => some ⟨path, none, .delete, before.byteSize⟩
  | some before, some after =>
    if before.blobHash ≠ after.blobHash then some ⟨path, none, .update, after.byteSize⟩ else none
  | none, none => none

/-- The first loop of `pair_renames`.  A hash without an entry is one without paths. -/
def collectDeleted (before : PathBuf → Option WorkspaceFileVersion)
    (deletedByHash : String → List PathBuf) (summary : WorkspaceCheckpointFileSummary) :
    String → List PathBuf :=
  if summary.kind = .delete then
    match before summary.path with
    | some file =>
      Function.update deletedByHash file.blobHash (deletedByHash file.blobHash ++ [summary.path])
    | none => deletedByHash
  else deletedByHash

/-- The state of the second loop of `pair_renames`. -/
structure RenamePairing where
  deletedByHash : String → List PathBuf
  consumedDeletes : List PathBuf
  /-- The summaries that the loop has passed. -/
  passed : List WorkspaceCheckpointFileSummary

/-- The second loop of `pair_renames`. -/
def pairRename (after : PathBuf → Option WorkspaceFileVersion) (state : RenamePairing)
    (summary : WorkspaceCheckpointFileSummary) : RenamePairing :=
  let unpaired := { state with passed := state.passed ++ [summary] }
  if summary.kind = .add then
    match after summary.path with
    | none => unpaired
    | some file =>
      match (state.deletedByHash file.blobHash).getLast? with
      | none => unpaired
      | some previousPath =>
        { deletedByHash := Function.update state.deletedByHash file.blobHash
            (state.deletedByHash file.blobHash).dropLast
          consumedDeletes := previousPath :: state.consumedDeletes
          passed := state.passed ++
            [{ summary with previousPath := some previousPath, kind := .rename }] }
  else unpaired

/-- `pair_renames`. -/
def pairRenames (before after : PathBuf → Option WorkspaceFileVersion)
    (summaries : List WorkspaceCheckpointFileSummary) : List WorkspaceCheckpointFileSummary :=
  let deletedByHash := summaries.foldl (collectDeleted before) fun _ ↦ []
  let paired := summaries.foldl (pairRename after) ⟨deletedByHash, [], []⟩
  paired.passed.filter fun item ↦ item.kind ≠ .delete ∨ item.path ∉ paired.consumedDeletes

/-- A component as `Ord` compares it: its kind, then the bytes of its name. -/
def Component.key : Component → List Nat
  | .rootDir => [0]
  | .curDir => [1]
  | .parentDir => [2]
  | .normal name => 3 :: name.map UInt8.toNat

/-- `Path::cmp` is not greater. -/
def PathBuf.le (left right : PathBuf) : Bool :=
  !decide (right.map Component.key < left.map Component.key)

/-- `summarize_manifest_changes`. -/
def summarizeManifestChanges (before after : WorkspaceCheckpointManifest)
    (order : PathOrder before after) : List WorkspaceCheckpointFileSummary :=
  let summaries := order.paths.filterMap (changeOf (filesByPath before) (filesByPath after))
  (pairRenames (filesByPath before) (filesByPath after) summaries).insertionSort
    fun left right ↦ PathBuf.le left.path right.path

/-! ## What the summary should be -/

/-- The contents of the files. -/
def hashes (files : PathBuf → Option WorkspaceFileVersion) (path : PathBuf) : Option String :=
  (files path).map WorkspaceFileVersion.blobHash

/-- A change is done: a file that is new or updated has the content of the later checkpoint,
and a renamed one the content that it had. -/
def applyChange (after : PathBuf → Option String) (contents : PathBuf → Option String)
    (summary : WorkspaceCheckpointFileSummary) : PathBuf → Option String :=
  match summary.kind, summary.previousPath with
  | .delete, _ => Function.update contents summary.path none
  | .rename, some source =>
    Function.update (Function.update contents source none) summary.path (contents source)
  | _, _ => Function.update contents summary.path (after summary.path)

/-- The paths of a change, as source and as target. -/
def WorkspaceCheckpointFileSummary.touched (summary : WorkspaceCheckpointFileSummary) :
    List PathBuf :=
  summary.path :: summary.previousPath.toList

variable (before after : PathBuf → Option WorkspaceFileVersion)

/-- A list of changes is exact. -/
structure ExactChanges (changes : List WorkspaceCheckpointFileSummary) : Prop where
  /-- Applied to the earlier files the changes give the later ones. -/
  applied : changes.foldl (applyChange (hashes after)) (hashes before) = hashes after
  /-- No path occurs twice. -/
  disjoint : (changes.flatMap WorkspaceCheckpointFileSummary.touched).Nodup
  /-- A rename is one of equal contents, from a path that is gone to one that is new. -/
  renames : ∀ change ∈ changes, change.kind = .rename →
    ∃ source, change.previousPath = some source ∧ (hashes before source).isSome ∧
      hashes before source = hashes after change.path ∧ after source = none ∧
      before change.path = none
  /-- Nothing that is left could be renamed. -/
  maximal : ∀ deleted ∈ changes, ∀ added ∈ changes, deleted.kind = .delete → added.kind = .add →
    hashes before deleted.path ≠ hashes after added.path

/-! ## Sound changes -/

/-- What a change says about the files. -/
inductive SoundChange : WorkspaceCheckpointFileSummary → Prop where
  | add {path : PathBuf} {size : Nat} : SoundChange ⟨path, none, .add, size⟩
  | update {path : PathBuf} {size : Nat} : SoundChange ⟨path, none, .update, size⟩
  | delete {path : PathBuf} {size : Nat} (hbefore : (before path).isSome)
      (hafter : after path = none) : SoundChange ⟨path, none, .delete, size⟩
  | rename {path source : PathBuf} {size : Nat} (hsome : (hashes before source).isSome)
      (hcontent : hashes before source = hashes after path) (hafter : after source = none)
      (hbefore : before path = none) : SoundChange ⟨path, some source, .rename, size⟩

variable {before after} {changes : List WorkspaceCheckpointFileSummary}

theorem hasFootprint_applyChange (later : PathBuf → Option String) :
    HasFootprint (applyChange later) WorkspaceCheckpointFileSummary.touched where
  frame contents change path hpath := by
    obtain ⟨target, previous, kind, size⟩ := change
    obtain ⟨hne, hsource⟩ := List.ne_and_not_mem_of_not_mem_cons hpath
    have hkeep : ∀ value, Function.update contents target value path = contents path :=
      fun value ↦ Function.update_of_ne hne _ _
    cases kind with
    | rename =>
      cases previous with
      | none => exact hkeep _
      | some source =>
        have hother : path ≠ source := List.ne_of_not_mem_cons hsource
        exact (Function.update_of_ne hne _ _).trans (Function.update_of_ne hother _ _)
    | _ => exact hkeep _
  congr contents contents' change hsame path hpath := by
    obtain ⟨target, previous, kind, size⟩ := change
    have hwrite : ∀ value, Function.update contents target value path =
        Function.update contents' target value path := by
      intro value
      by_cases htarget : path = target
      · rw [htarget, Function.update_self, Function.update_self]
      · rw [Function.update_of_ne htarget, Function.update_of_ne htarget, hsame path hpath]
    cases kind with
    | rename =>
      cases previous with
      | none => exact hwrite _
      | some source =>
        have hsource : contents source = contents' source :=
          hsame source (List.mem_cons_of_mem _ List.mem_cons_self)
        change Function.update (Function.update contents source none) target (contents source)
            path =
          Function.update (Function.update contents' source none) target (contents' source) path
        rw [hsource]
        by_cases htarget : path = target
        · rw [htarget, Function.update_self, Function.update_self]
        · rw [Function.update_of_ne htarget, Function.update_of_ne htarget]
          by_cases hpathSource : path = source
          · rw [hpathSource, Function.update_self, Function.update_self]
          · rw [Function.update_of_ne hpathSource, Function.update_of_ne hpathSource,
              hsame path hpath]
    | _ => exact hwrite _

/-- **Sound changes of different paths are exact** when they cover what has changed. -/
theorem applied_of_sound
    (hdisjoint : (changes.flatMap WorkspaceCheckpointFileSummary.touched).Nodup)
    (hsound : ∀ change ∈ changes, SoundChange before after change)
    (hcovers : ∀ path, hashes before path ≠ hashes after path →
      ∃ change ∈ changes, path ∈ change.touched) :
    changes.foldl (applyChange (hashes after)) (hashes before) = hashes after := by
  obtain ⟨hnodup, hpairwise⟩ := List.nodup_flatMap.mp hdisjoint
  funext path
  by_cases htouched : ∃ change ∈ changes, path ∈ change.touched
  · obtain ⟨change, hchange, hpath⟩ := htouched
    rw [(hasFootprint_applyChange _).foldl_of_mem hpairwise hchange hpath]
    have hsource := hnodup change hchange
    cases hsound change hchange with
    | add =>
      cases List.mem_singleton.mp hpath
      exact Function.update_self ..
    | update =>
      cases List.mem_singleton.mp hpath
      exact Function.update_self ..
    | delete hbefore hafter =>
      cases List.mem_singleton.mp hpath
      rw [hashes, hafter]
      exact Function.update_self ..
    | @rename target source size hsome hcontent hafter hbefore =>
      change Function.update (Function.update (hashes before) source none) target
        (hashes before source) path = _
      rcases List.mem_cons.mp hpath with rfl | hpath
      · rw [Function.update_self, hcontent]
      · have heq : path = source := List.mem_singleton.mp hpath
        have hne : source ≠ target :=
          fun hsame ↦ (List.nodup_cons.mp hsource).1 (hsame ▸ List.mem_singleton_self source)
        rw [heq, Function.update_of_ne hne, Function.update_self, hashes, hafter]
        rfl
  · have hnot : ∀ change ∈ changes, path ∉ change.touched :=
      fun change hchange hpath ↦ htouched ⟨change, hchange, hpath⟩
    rw [(hasFootprint_applyChange _).foldl_of_notMem hnot]
    exact Classical.byContradiction fun hne ↦ htouched (hcovers path hne)

/-! ## The pairing -/

/-- The deleted paths. -/
def deletedPaths (summaries : List WorkspaceCheckpointFileSummary) : List PathBuf :=
  (summaries.filter fun summary ↦ summary.kind = .delete).map (·.path)

/-- The paths whose earlier content has a hash. -/
def withHash (files : PathBuf → Option WorkspaceFileVersion) (hash : String)
    (paths : List PathBuf) : List PathBuf :=
  paths.filter fun path ↦ hashes files path = some hash

variable {summaries passed : List WorkspaceCheckpointFileSummary} {state : RenamePairing}
  {summary : WorkspaceCheckpointFileSummary}

theorem withHash_cons_of_eq {files : PathBuf → Option WorkspaceFileVersion} {hash : String}
    {path : PathBuf} (h : hashes files path = some hash) (paths : List PathBuf) :
    withHash files hash (path :: paths) = path :: withHash files hash paths :=
  List.filter_cons_of_pos (decide_eq_true h)

theorem withHash_cons_of_ne {files : PathBuf → Option WorkspaceFileVersion} {hash : String}
    {path : PathBuf} (h : hashes files path ≠ some hash) (paths : List PathBuf) :
    withHash files hash (path :: paths) = withHash files hash paths :=
  List.filter_cons_of_neg (by simpa using h)

/-- The first loop collects the deleted paths by their content. -/
theorem foldl_collectDeleted (deletedByHash : String → List PathBuf) (hash : String) :
    summaries.foldl (collectDeleted before) deletedByHash hash =
      deletedByHash hash ++ withHash before hash (deletedPaths summaries) := by
  induction summaries generalizing deletedByHash with
  | nil => exact (List.append_nil _).symm
  | cons summary summaries ih =>
    rw [List.foldl_cons, ih, collectDeleted]
    by_cases hkind : summary.kind = .delete
    · have hdeleted : deletedPaths (summary :: summaries) =
          summary.path :: deletedPaths summaries := by
        simp only [deletedPaths, List.filter_cons, hkind, decide_true, if_true, List.map_cons]
      rw [if_pos hkind, hdeleted]
      cases hfile : before summary.path with
      | none =>
        have hnone : hashes before summary.path ≠ some hash := by
          rw [hashes, hfile]
          nofun
        rw [withHash_cons_of_ne hnone]
      | some file =>
        have hcontent : hashes before summary.path = some file.blobHash := by
          rw [hashes, hfile]
          rfl
        by_cases hhash : hash = file.blobHash
        · rw [hhash, withHash_cons_of_eq hcontent]
          simp
        · have hne : hashes before summary.path ≠ some hash := by
            rw [hcontent]
            exact fun heq ↦ hhash (Option.some.inj heq).symm
          rw [withHash_cons_of_ne hne]
          dsimp only
          rw [Function.update_of_ne hhash]
    · have hdeleted : deletedPaths (summary :: summaries) = deletedPaths summaries := by
        simp only [deletedPaths, List.filter_cons, hkind, decide_false, Bool.false_eq_true,
          if_false]
      rw [if_neg hkind, hdeleted]

/-- A summary that the second loop has passed: as it was, or a rename of the same content. -/
inductive PairedAs (before after : PathBuf → Option WorkspaceFileVersion) :
    WorkspaceCheckpointFileSummary → WorkspaceCheckpointFileSummary → Prop where
  | kept (summary : WorkspaceCheckpointFileSummary) : PairedAs before after summary summary
  | renamed {path source : PathBuf} {size : Nat} {hash : String}
      (hbefore : hashes before source = some hash) (hafter : hashes after path = some hash) :
      PairedAs before after ⟨path, none, .add, size⟩ ⟨path, some source, .rename, size⟩

variable (before after) in
/-- The state of the second loop, when it has passed some summaries. -/
structure Pairing (deleted : List PathBuf) (summaries : List WorkspaceCheckpointFileSummary)
    (state : RenamePairing) : Prop where
  paired : List.Forall₂ (PairedAs before after) summaries state.passed
  /-- The sources of the renames are the deletes that are consumed. -/
  sources : state.passed.filterMap (·.previousPath) = state.consumedDeletes.reverse
  /-- A deleted path is waiting or consumed, and only once. -/
  balance : ∀ hash, withHash before hash deleted =
    state.deletedByHash hash ++ withHash before hash state.consumedDeletes
  hashed : ∀ path ∈ state.consumedDeletes, (hashes before path).isSome
  /-- For an added path that is left, no deleted path is waiting. -/
  exhausted : ∀ summary ∈ state.passed, summary.kind = .add → ∀ hash,
    hashes after summary.path = some hash → state.deletedByHash hash = []

namespace Pairing

variable {deleted : List PathBuf}

/-- A summary that is passed as it is. -/
theorem keep (h : Pairing before after deleted summaries state)
    (hprevious : summary.previousPath = none)
    (hadd : summary.kind = .add → ∀ hash, hashes after summary.path = some hash →
      state.deletedByHash hash = []) :
    Pairing before after deleted (summaries ++ [summary])
      { state with passed := state.passed ++ [summary] } where
  paired := List.rel_append h.paired (.cons (.kept summary) .nil)
  sources := by
    rw [List.filterMap_append, h.sources]
    simp [hprevious]
  balance := h.balance
  hashed := h.hashed
  exhausted other hother hkind := by
    rcases List.mem_append.mp hother with hother | hother
    · exact h.exhausted other hother hkind
    · cases List.mem_singleton.mp hother
      exact hadd hkind

/-- An added path takes the last of the deleted paths that wait for its content. -/
theorem rename {path source : PathBuf} {size : Nat} {hash : String}
    (h : Pairing before after deleted summaries state) (hafter : hashes after path = some hash)
    (hsource : (state.deletedByHash hash).getLast? = some source) :
    Pairing before after deleted (summaries ++ [⟨path, none, .add, size⟩])
      { deletedByHash := Function.update state.deletedByHash hash
          (state.deletedByHash hash).dropLast
        consumedDeletes := source :: state.consumedDeletes
        passed := state.passed ++ [⟨path, some source, .rename, size⟩] } := by
  obtain ⟨waiting, hwaiting⟩ := List.getLast?_eq_some_iff.mp hsource
  have hbefore : hashes before source = some hash := by
    have hmem : source ∈ withHash before hash deleted := by
      rw [h.balance hash, hwaiting]
      exact List.mem_append_left _ (List.mem_append_right _ List.mem_cons_self)
    exact of_decide_eq_true (List.mem_filter.mp hmem).2
  constructor
  · exact List.rel_append h.paired (.cons (.renamed hbefore hafter) .nil)
  · rw [List.filterMap_append, h.sources, List.reverse_cons]
    rfl
  · intro hash'
    dsimp only
    by_cases hhash : hash' = hash
    · rw [hhash, Function.update_self, withHash_cons_of_eq hbefore, h.balance hash, hwaiting,
        List.dropLast_concat, List.append_assoc]
      rfl
    · have hne : hashes before source ≠ some hash' := by
        rw [hbefore]
        exact fun heq ↦ hhash (Option.some.inj heq).symm
      rw [Function.update_of_ne hhash, withHash_cons_of_ne hne, h.balance hash']
  · intro consumed hconsumed
    rcases List.mem_cons.mp hconsumed with rfl | hconsumed
    · exact Option.isSome_of_eq_some hbefore
    · exact h.hashed consumed hconsumed
  · intro other hother hkind hash' hhash'
    rcases List.mem_append.mp hother with hother | hother
    · have hempty := h.exhausted other hother hkind hash' hhash'
      have hne : hash' ≠ hash := by
        rintro rfl
        rw [hempty] at hwaiting
        exact List.cons_ne_nil _ _ (List.append_eq_nil_iff.mp hwaiting.symm).2
      dsimp only
      rw [Function.update_of_ne hne]
      exact hempty
    · cases List.mem_singleton.mp hother
      cases hkind

/-- **One summary** in the second loop. -/
theorem step (h : Pairing before after deleted summaries state)
    (hprevious : summary.previousPath = none) :
    Pairing before after deleted (summaries ++ [summary]) (pairRename after state summary) := by
  unfold pairRename
  dsimp only
  split
  · rename_i hadd
    split
    · rename_i hnone
      refine h.keep hprevious fun _ hash hhash ↦ ?_
      rw [hashes, hnone] at hhash
      cases hhash
    · rename_i file hfile
      have hafter : hashes after summary.path = some file.blobHash := by
        rw [hashes, hfile]
        rfl
      split
      · rename_i hempty
        refine h.keep hprevious fun _ hash hhash ↦ ?_
        cases hafter.symm.trans hhash
        exact List.getLast?_eq_none_iff.mp hempty
      · rename_i source hsource
        obtain ⟨path, previousPath, kind, size⟩ := summary
        cases hadd
        cases hprevious
        exact h.rename hafter hsource
  · rename_i hadd
    exact h.keep hprevious fun hkind ↦ absurd hkind hadd

theorem run (h : Pairing before after deleted passed state)
    (hprevious : ∀ summary ∈ summaries, summary.previousPath = none) :
    Pairing before after deleted (passed ++ summaries)
      (summaries.foldl (pairRename after) state) := by
  induction summaries generalizing passed state with
  | nil => rwa [List.append_nil]
  | cons summary summaries ih =>
    have hnext := ih (h.step (hprevious summary List.mem_cons_self))
      fun other hother ↦ hprevious other (List.mem_cons_of_mem _ hother)
    rwa [List.append_assoc] at hnext

/-- A consumed path was deleted. -/
theorem mem_deleted (h : Pairing before after deleted summaries state) {path : PathBuf}
    (hpath : path ∈ state.consumedDeletes) : path ∈ deleted := by
  obtain ⟨hash, hhash⟩ := Option.isSome_iff_exists.mp (h.hashed path hpath)
  have hmem : path ∈ withHash before hash deleted := by
    rw [h.balance hash]
    exact List.mem_append_right _ (List.mem_filter.mpr ⟨hpath, decide_eq_true hhash⟩)
  exact (List.mem_filter.mp hmem).1

/-- A deleted path that is not consumed is waiting. -/
theorem mem_waiting (h : Pairing before after deleted summaries state) {path : PathBuf}
    {hash : String} (hpath : path ∈ deleted) (hhash : hashes before path = some hash)
    (hleft : path ∉ state.consumedDeletes) : path ∈ state.deletedByHash hash := by
  have hmem : path ∈ withHash before hash deleted :=
    List.mem_filter.mpr ⟨hpath, decide_eq_true hhash⟩
  rw [h.balance hash] at hmem
  exact (List.mem_append.mp hmem).resolve_right fun hconsumed ↦
    hleft (List.mem_filter.mp hconsumed).1

theorem nodup_consumed (h : Pairing before after deleted summaries state)
    (hdeleted : deleted.Nodup) : state.consumedDeletes.Nodup := by
  rw [List.nodup_iff_count_le_one]
  intro path
  by_cases hpath : path ∈ state.consumedDeletes
  · obtain ⟨hash, hhash⟩ := Option.isSome_iff_exists.mp (h.hashed path hpath)
    have hsublist : (withHash before hash state.consumedDeletes).Sublist
        (withHash before hash deleted) := by
      rw [h.balance hash]
      exact List.sublist_append_right _ _
    have hcount := List.nodup_iff_count_le_one.mp ((hdeleted.filter _).sublist hsublist) path
    have hsame : (withHash before hash state.consumedDeletes).count path =
        state.consumedDeletes.count path := List.count_filter (decide_eq_true hhash)
    rwa [hsame] at hcount
  · rw [List.count_eq_zero_of_not_mem hpath]
    exact Nat.zero_le 1

end Pairing

/-! ## Exactness -/

/-- What a path has to do with its change. -/
theorem changeOf_cases {path : PathBuf} (h : changeOf before after path = some summary) :
    summary.path = path ∧ summary.previousPath = none ∧ summary.kind ≠ .rename ∧
      (summary.kind = .add → before path = none) ∧
      (summary.kind = .delete → (before path).isSome ∧ after path = none) := by
  unfold changeOf at h
  split at h
  · rename_i hbefore hafter
    cases h
    exact ⟨rfl, rfl, nofun, fun _ ↦ hbefore, nofun⟩
  · rename_i hbefore hafter
    cases h
    exact ⟨rfl, rfl, nofun, nofun, fun _ ↦ ⟨Option.isSome_of_eq_some hbefore, hafter⟩⟩
  · split at h
    · cases h
      exact ⟨rfl, rfl, nofun, nofun, nofun⟩
    · cases h
  · cases h

/-- A path with another content has a change. -/
theorem hashes_eq_of_changeOf {path : PathBuf} (h : changeOf before after path = none) :
    hashes before path = hashes after path := by
  unfold changeOf at h
  unfold hashes
  split at h
  · cases h
  · cases h
  · rename_i hbefore hafter
    split at h
    · cases h
    · rename_i heq
      rw [hbefore, hafter]
      exact congrArg some (not_not.mp heq)
  · rename_i hbefore hafter
    rw [hbefore, hafter]

theorem paths_filterMap_sublist (paths : List PathBuf) :
    ((paths.filterMap (changeOf before after)).map (·.path)).Sublist paths := by
  induction paths with
  | nil => exact .slnil
  | cons path paths ih =>
    rw [List.filterMap_cons]
    split
    · exact ih.cons path
    · rename_i summary hsummary
      rw [List.map_cons, (changeOf_cases hsummary).1]
      exact ih.cons_cons path

theorem PairedAs.path_eq {summary' : WorkspaceCheckpointFileSummary}
    (h : PairedAs before after summary summary') : summary'.path = summary.path := by
  cases h with
  | kept => rfl
  | renamed => rfl

section Exact

variable {paths : List PathBuf} (hnodup : paths.Nodup)
  (hpaths : ∀ path, path ∈ paths ↔ (before path).isSome ∨ (after path).isSome)

variable (before after paths) in
/-- The changes before they are paired. -/
def rawChanges : List WorkspaceCheckpointFileSummary := paths.filterMap (changeOf before after)

variable (before after paths) in
/-- The state behind the second loop. -/
def pairedChanges : RenamePairing :=
  (rawChanges before after paths).foldl (pairRename after)
    ⟨(rawChanges before after paths).foldl (collectDeleted before) fun _ ↦ [], [], []⟩

theorem mem_rawChanges (h : summary ∈ rawChanges before after paths) :
    summary.path ∈ paths ∧ changeOf before after summary.path = some summary := by
  obtain ⟨path, hpath, hchange⟩ := List.mem_filterMap.mp h
  rw [(changeOf_cases hchange).1]
  exact ⟨hpath, hchange⟩

theorem pairing_pairedChanges : Pairing before after (deletedPaths (rawChanges before after paths))
    (rawChanges before after paths) (pairedChanges before after paths) := by
  have hstart : Pairing before after (deletedPaths (rawChanges before after paths)) []
      ⟨(rawChanges before after paths).foldl (collectDeleted before) fun _ ↦ [], [], []⟩ := by
    refine ⟨.nil, rfl, fun hash ↦ ?_, nofun, nofun⟩
    have hwaiting :
        (rawChanges before after paths).foldl (collectDeleted before) (fun _ ↦ []) hash =
          withHash before hash (deletedPaths (rawChanges before after paths)) :=
      foldl_collectDeleted _ hash
    exact hwaiting.symm.trans (List.append_nil _).symm
  refine hstart.run fun summary hsummary ↦ ?_
  exact (changeOf_cases (mem_rawChanges hsummary).2).2.1

variable (before after paths) in
/-- The changes that are left. -/
def leftChanges : List WorkspaceCheckpointFileSummary :=
  (pairedChanges before after paths).passed.filter fun item ↦
    item.kind ≠ .delete ∨ item.path ∉ (pairedChanges before after paths).consumedDeletes

theorem mem_leftChanges : summary ∈ leftChanges before after paths ↔
    summary ∈ (pairedChanges before after paths).passed ∧
      (summary.kind = .delete →
        summary.path ∉ (pairedChanges before after paths).consumedDeletes) := by
  rw [leftChanges, List.mem_filter, decide_eq_true_iff, imp_iff_not_or]

theorem mem_deletedPaths {path : PathBuf} (h : path ∈ deletedPaths summaries) :
    ∃ summary ∈ summaries, summary.path = path ∧ summary.kind = .delete := by
  obtain ⟨summary, hsummary, rfl⟩ := List.mem_map.mp h
  obtain ⟨hmem, hkind⟩ := List.mem_filter.mp hsummary
  exact ⟨summary, hmem, rfl, of_decide_eq_true hkind⟩

theorem isDeleted_of_consumed {path : PathBuf}
    (h : path ∈ (pairedChanges before after paths).consumedDeletes) :
    ∃ summary, changeOf before after path = some summary ∧ summary.kind = .delete := by
  obtain ⟨summary, hmem, rfl, hkind⟩ := mem_deletedPaths (pairing_pairedChanges.mem_deleted h)
  exact ⟨summary, (mem_rawChanges hmem).2, hkind⟩

/-- Where a summary that the second loop has passed comes from. -/
theorem exists_raw (h : summary ∈ (pairedChanges before after paths).passed) :
    ∃ raw ∈ rawChanges before after paths, changeOf before after summary.path = some raw ∧
      PairedAs before after raw summary := by
  have hpairing : Pairing before after _ _ (pairedChanges before after paths) :=
    pairing_pairedChanges
  obtain ⟨raw, hraw, hpaired⟩ := exists_of_forall₂_left hpairing.paired.flip h
  have hpaired : PairedAs before after raw summary := hpaired
  rw [hpaired.path_eq]
  exact ⟨raw, hraw, (mem_rawChanges hraw).2, hpaired⟩

theorem soundChange_of_left (h : summary ∈ leftChanges before after paths) :
    SoundChange before after summary := by
  have hpassed := (mem_leftChanges.mp h).1
  obtain ⟨raw, -, hraw, hpaired⟩ := exists_raw hpassed
  obtain ⟨hpath, hprevious, hrename, hadd, hdelete⟩ := changeOf_cases hraw
  cases hpaired with
  | kept =>
    obtain ⟨path, previousPath, kind, size⟩ := summary
    cases hprevious
    cases kind with
    | add => exact .add
    | update => exact .update
    | delete => exact .delete (hdelete rfl).1 (hdelete rfl).2
    | rename => exact absurd rfl hrename
  | @renamed path source size hash hbefore hafter =>
    have hconsumed : source ∈ (pairedChanges before after paths).consumedDeletes := by
      have hsources : (pairedChanges before after paths).passed.filterMap (·.previousPath) = _ :=
        pairing_pairedChanges.sources
      rw [← List.mem_reverse, ← hsources]
      exact List.mem_filterMap.mpr ⟨_, hpassed, rfl⟩
    obtain ⟨deleted, hdeleted, hkind⟩ := isDeleted_of_consumed hconsumed
    obtain ⟨-, -, -, -, hgone⟩ := changeOf_cases hdeleted
    exact .rename (Option.isSome_of_eq_some hbefore) (hbefore.trans hafter.symm) (hgone hkind).2
      (hadd rfl)

include hpaths in
/-- The changes that are left cover all that has changed. -/
theorem exists_left {path : PathBuf} (h : hashes before path ≠ hashes after path) :
    ∃ change ∈ leftChanges before after paths, path ∈ change.touched := by
  have hpairing : Pairing before after _ _ (pairedChanges before after paths) :=
    pairing_pairedChanges
  have hmem : path ∈ paths := by
    rw [hpaths]
    by_contra hnone
    rw [not_or, Option.not_isSome_iff_eq_none, Option.not_isSome_iff_eq_none] at hnone
    rw [hashes, hashes, hnone.1, hnone.2] at h
    exact h rfl
  obtain ⟨raw, hraw⟩ : ∃ raw, changeOf before after path = some raw :=
    Option.ne_none_iff_exists'.mp fun hnone ↦ h (hashes_eq_of_changeOf hnone)
  obtain ⟨change, hchange, hpaired⟩ := exists_of_forall₂_left hpairing.paired
    (List.mem_filterMap.mpr ⟨path, hmem, hraw⟩)
  have hpath : change.path = path := hpaired.path_eq.trans (changeOf_cases hraw).1
  by_cases hleft : change ∈ leftChanges before after paths
  · exact ⟨change, hleft, hpath ▸ List.mem_cons_self⟩
  · -- the change is a delete that was consumed: its rename is left
    rw [mem_leftChanges, not_and, Classical.not_imp, not_not, hpath] at hleft
    have hconsumed := (hleft hchange).2
    rw [← List.mem_reverse, ← hpairing.sources] at hconsumed
    obtain ⟨rename, hrename, hsource⟩ := List.mem_filterMap.mp hconsumed
    refine ⟨rename, mem_leftChanges.mpr ⟨hrename, fun hkind ↦ ?_⟩, ?_⟩
    · obtain ⟨raw', -, hraw', hpaired'⟩ := exists_raw hrename
      cases hpaired' with
      | kept => cases (changeOf_cases hraw').2.1.symm.trans hsource
      | renamed => cases hkind
    · rw [WorkspaceCheckpointFileSummary.touched, hsource]
      exact List.mem_cons_of_mem _ List.mem_cons_self

include hnodup in
/-- No path occurs twice in the changes that are left. -/
theorem nodup_touched_left :
    ((leftChanges before after paths).flatMap WorkspaceCheckpointFileSummary.touched).Nodup := by
  have hpairing : Pairing before after _ _ (pairedChanges before after paths) :=
    pairing_pairedChanges
  have hraw : ((rawChanges before after paths).map (·.path)).Nodup :=
    hnodup.sublist (paths_filterMap_sublist paths)
  have hdeleted : (deletedPaths (rawChanges before after paths)).Nodup :=
    hraw.sublist (List.filter_sublist.map _)
  have hsplit : ((leftChanges before after paths).map (·.path) ++
      (leftChanges before after paths).filterMap (·.previousPath)).Perm
      ((leftChanges before after paths).flatMap WorkspaceCheckpointFileSummary.touched) := by
    rw [List.map_eq_flatMap, List.filterMap_eq_flatMap_toList]
    exact List.flatMap_append_perm (leftChanges before after paths) (fun change ↦ [change.path])
      fun change ↦ change.previousPath.toList
  rw [← hsplit.nodup_iff, List.nodup_append']
  refine ⟨?_, ?_, ?_⟩
  · have hmap : (rawChanges before after paths).map (·.path) =
        (pairedChanges before after paths).passed.map (·.path) :=
      map_eq_of_forall₂ (fun _ _ hpaired ↦ hpaired.path_eq.symm) hpairing.paired
    rw [hmap] at hraw
    exact hraw.sublist (List.filter_sublist.map _)
  · have hsublist : ((leftChanges before after paths).filterMap (·.previousPath)).Sublist
        ((pairedChanges before after paths).passed.filterMap (·.previousPath)) :=
      List.filter_sublist.filterMap _
    rw [hpairing.sources] at hsublist
    exact (List.nodup_reverse.mpr (hpairing.nodup_consumed hdeleted)).sublist hsublist
  · intro path hpath hsource
    obtain ⟨change, hchange, rfl⟩ := List.mem_map.mp hpath
    obtain ⟨rename, hrename, hprevious⟩ := List.mem_filterMap.mp hsource
    obtain ⟨hpassed, hkept⟩ := mem_leftChanges.mp hchange
    have hconsumed : change.path ∈ (pairedChanges before after paths).consumedDeletes := by
      rw [← List.mem_reverse, ← hpairing.sources]
      exact List.mem_filterMap.mpr ⟨rename, (mem_leftChanges.mp hrename).1, hprevious⟩
    obtain ⟨raw, -, hraw, hpaired⟩ := exists_raw hpassed
    obtain ⟨raw', hraw', hkind⟩ := isDeleted_of_consumed hconsumed
    cases hraw.symm.trans hraw'
    cases hpaired with
    | kept => exact hkept hkind hconsumed
    | renamed => cases hkind

/-- A deleted path that is left has no added path with its content. -/
theorem maximal_left {deleted added : WorkspaceCheckpointFileSummary}
    (hdeleted : deleted ∈ leftChanges before after paths)
    (hadded : added ∈ leftChanges before after paths) (hdelete : deleted.kind = .delete)
    (hadd : added.kind = .add) : hashes before deleted.path ≠ hashes after added.path := by
  have hpairing : Pairing before after _ _ (pairedChanges before after paths) :=
    pairing_pairedChanges
  intro hsame
  obtain ⟨hpassed, hleft⟩ := mem_leftChanges.mp hdeleted
  obtain ⟨raw, hmem, hraw, hpaired⟩ := exists_raw hpassed
  cases hpaired with
  | renamed => cases hdelete
  | kept =>
    obtain ⟨hash, hhash⟩ : ∃ hash, hashes before deleted.path = some hash := by
      obtain ⟨-, -, -, -, hgone⟩ := changeOf_cases hraw
      exact Option.isSome_iff_exists.mp (Option.isSome_map.trans (hgone hdelete).1)
    have hwaiting : deleted.path ∈ (pairedChanges before after paths).deletedByHash hash := by
      refine hpairing.mem_waiting ?_ hhash (hleft hdelete)
      exact List.mem_map_of_mem (List.mem_filter.mpr ⟨hmem, decide_eq_true hdelete⟩)
    rw [hpairing.exhausted added (mem_leftChanges.mp hadded).1 hadd hash
      (hsame.symm.trans hhash)] at hwaiting
    cases hwaiting

end Exact

/-- **The summary is exact**, in whatever order the paths are met. -/
theorem summary_exact (before after : WorkspaceCheckpointManifest)
    (order : PathOrder before after) :
    ExactChanges (filesByPath before) (filesByPath after)
      (summarizeManifestChanges before after order) := by
  have hperm : (summarizeManifestChanges before after order).Perm
      (leftChanges (filesByPath before) (filesByPath after) order.paths) :=
    List.perm_insertionSort _ _
  have hdisjoint : ((summarizeManifestChanges before after order).flatMap
      WorkspaceCheckpointFileSummary.touched).Nodup :=
    (hperm.flatMap_right _).nodup_iff.mpr (nodup_touched_left order.nodup)
  have hsound : ∀ change ∈ summarizeManifestChanges before after order,
      SoundChange (filesByPath before) (filesByPath after) change :=
    fun change hchange ↦ soundChange_of_left (hperm.mem_iff.mp hchange)
  constructor
  · refine applied_of_sound hdisjoint hsound fun path hne ↦ ?_
    obtain ⟨change, hchange, hpath⟩ := exists_left order.mem_iff hne
    exact ⟨change, hperm.mem_iff.mpr hchange, hpath⟩
  · exact hdisjoint
  · intro change hchange hkind
    cases hsound change hchange with
    | @rename path source size hsome hcontent hafter hbefore =>
      exact ⟨source, rfl, hsome, hcontent, hafter, hbefore⟩
    | _ => cases hkind
  · intro deleted hdeleted added hadded hdelete hadd
    exact maximal_left (hperm.mem_iff.mp hdeleted) (hperm.mem_iff.mp hadded) hdelete hadd

end Praxis.Workspace
