import Mathlib.Data.Set.Function
import Mathlib.Data.String.Basic
import Praxis.Context.History
import Praxis.Foundation.Lines
import Praxis.Foundation.OrderedMap
import Praxis.Foundation.Utf8

/-!
# The audit of dirty files

Before and after a command the files are listed that git calls changed
(`managed_commands/dirty_files`).  What is new in the second list, or has another fingerprint, must
be within the scope of the task.

`parseGitStatusPorcelainZ` reads the output of `git status --porcelain=v1 -z`.  An entry is two
status letters, a blank and a path, each entry ended by a NUL; behind a rename or a copy, which
either letter can tell, the path it comes from follows, ended by a NUL as well.

`dirty_audit_exact` says when the audit tells all changes.  The parser leaves out where a rename
comes from, takes a second path for an entry if only the second letter tells it, and files are
compared up to case.
-/

namespace Praxis.AgentOs.DirtyFiles

open Foundation

abbrev Text := List Char

/-! ## The output of git -/

inductive StatusLetter where
  | unmodified | modified | typeChanged | added | deleted | renamed | copied | unmerged
  | untracked | ignored
deriving DecidableEq

namespace StatusLetter

def byte : StatusLetter → UInt8
  | unmodified => 0x20
  | modified => 0x4D
  | typeChanged => 0x54
  | added => 0x41
  | deleted => 0x44
  | renamed => 0x52
  | copied => 0x43
  | unmerged => 0x55
  | untracked => 0x3F
  | ignored => 0x21

/-- A second path follows. -/
def moves : StatusLetter → Bool
  | renamed | copied => true
  | _ => false

end StatusLetter

def nul : Char := Char.ofNat 0

/-- A path that git can tell. -/
def IsPath (path : Text) : Prop := path ≠ [] ∧ nul ∉ path

instance decidableIsPath (path : Text) : Decidable (IsPath path) :=
  inferInstanceAs (Decidable (path ≠ [] ∧ nul ∉ path))

/-- An entry of `git status --porcelain=v1`: the letters of the index and of the work tree, the
path, and where it comes from. -/
structure StatusEntry where
  index : StatusLetter
  worktree : StatusLetter
  path : Text
  source : Option Text
  isPath_path : IsPath path
  isPath_source : ∀ origin, source = some origin → IsPath origin
  source_iff : source.isSome = (index.moves || worktree.moves)

namespace StatusEntry

def isRename (entry : StatusEntry) : Bool :=
  entry.index = .renamed || entry.worktree = .renamed

/-- What is ended by a NUL. -/
def tokens (entry : StatusEntry) : List Bytes :=
  (entry.index.byte :: entry.worktree.byte :: 0x20 :: Utf8.encode entry.path) ::
    entry.source.toList.map Utf8.encode

/-- The files that are changed: a rename changes what it comes from, too. -/
def changed (entry : StatusEntry) : List Text :=
  entry.path :: if entry.isRename then entry.source.toList else []

end StatusEntry

/-- The encoding of `-z`. -/
def encodeZ (entries : List StatusEntry) : Bytes :=
  (entries.flatMap StatusEntry.tokens).flatMap (· ++ [0])

def changedPaths (entries : List StatusEntry) : List Text := entries.flatMap StatusEntry.changed

/-! ## Reading it -/

/-- A token that is read as an entry. -/
def looksLikeEntry (token : Bytes) : Bool := 4 ≤ token.length && token[2]? = some 0x20

/-- The loop of `parse_git_status_porcelain_z`. -/
def parseEntries : List Bytes → List Text
  | [] => []
  | entry :: rest =>
    if looksLikeEntry entry then
      let path := Utf8.lossy (entry.drop 3)
      (if path = [] then [] else [path]) ++
        if entry.head? = some 0x52 ∨ entry.head? = some 0x43 then
          match rest with
          | [] => []
          | _ :: rest => parseEntries rest
        else parseEntries rest
    else parseEntries rest

def parseGitStatusPorcelainZ (output : Bytes) : List Text :=
  parseEntries ((output.splitOnP (· == 0)).filter fun entry ↦ !entry.isEmpty)

def isAbsolute (path : Text) : Bool := path.head? = some '/'

/-- `Path::join`. -/
def join (base path : Text) : Text :=
  if isAbsolute path ∨ base = [] then path
  else if base.getLast? = some '/' then base ++ path
  else base ++ '/' :: path

/-- The path from the root of the repository, or from the working directory. -/
def absolute (repoRoot : Option Text) (cwd path : Text) : Text :=
  if isAbsolute path then path
  else
    match repoRoot with
    | some root => join root path
    | none => join cwd path

/-- `audit_git_dirty_files`, with the output of git if it succeeds. -/
def auditGitDirtyFiles (repoRoot : Option Text) (cwd : Text) (output : Option Bytes) : List Text :=
  match output with
  | none => []
  | some output => (parseGitStatusPorcelainZ output).map (absolute repoRoot cwd)

/-! ## Fingerprints and the delta -/

structure DirtyFileFingerprint where
  exist : Bool
  len : Option Nat
  modifiedUnixMillis : Option Int
deriving DecidableEq

/-- The length and the time of modification of the files there are. -/
abbrev Metadata := Text → Option (Nat × Option Int)

def dirtyFileFingerprint (files : Metadata) (cwd path : Text) : DirtyFileFingerprint :=
  match files (if isAbsolute path then path else join cwd path) with
  | none => ⟨false, none, none⟩
  | some (len, modified) => ⟨true, some len, modified⟩

/-- `normalize_path_for_scope`. -/
def normalizePathForScope (path : Text) : String :=
  String.ofList ((path.map fun c ↦ if c = '\\' then '/' else c).map Char.toLower)

def dirtyFileFingerprints (files : Metadata) (cwd : Text) (dirtyFiles : List Text) :
    OrderedMap String DirtyFileFingerprint :=
  dirtyFiles.foldl (fun map path ↦
    map.insert (normalizePathForScope path) (dirtyFileFingerprint files cwd path)) .empty

/-- The loop of `dirty_file_delta`. -/
def deltaFrom (files : Metadata) (cwd : Text) (before : List String)
    (beforeFingerprints : OrderedMap String DirtyFileFingerprint) (seen : List String) :
    List Text → List Text
  | [] => []
  | path :: after =>
    let normalized := normalizePathForScope path
    if normalized ∈ seen then deltaFrom files cwd before beforeFingerprints seen after
    else
      (if normalized ∈ before ∧ beforeFingerprints.get? normalized =
          some (dirtyFileFingerprint files cwd path) then []
        else [path]) ++
        deltaFrom files cwd before beforeFingerprints (normalized :: seen) after

def dirtyFileDelta (files : Metadata) (cwd : Text) (before : List Text)
    (beforeFingerprints : OrderedMap String DirtyFileFingerprint) (after : List Text) : List Text :=
  deltaFrom files cwd (before.map normalizePathForScope) beforeFingerprints [] after

/-! ## Scopes -/

/-- `str::trim`. -/
def trim (text : Text) : Text := Context.trimEnd (Context.trimStart text)

/-- `str::trim_start_matches`: as often as there are letters at most. -/
def trimStartMatches (start text : Text) : Text :=
  Nat.repeat (fun text ↦ if start.isPrefixOf text then text.drop start.length else text)
    text.length text

def normalizeScopePattern (pattern : Text) : Text :=
  let bare := trimStartMatches "./".toList (trimStartMatches "repo:".toList (trim pattern))
  (bare.map fun c ↦ if c = '\\' then '/' else c).map Char.toLower

def pathSegments (path : Text) : List Text :=
  (path.splitOnP (· == '/')).filter fun segment ↦ !segment.isEmpty

def wildcardMatchBytes (pattern value : Bytes) : Bool :=
  match pattern with
  | [] => value.isEmpty
  | p :: pattern =>
    if p = 0x2A then
      wildcardMatchBytes pattern value ||
        match value with
        | [] => false
        | _ :: value => wildcardMatchBytes (p :: pattern) value
    else
      match value with
      | [] => false
      | v :: value => p = v && wildcardMatchBytes pattern value
  termination_by pattern.length + value.length

def segmentMatches (pattern value : Text) : Bool :=
  if pattern = ['*'] then true
  else if '*' ∉ pattern then pattern = value
  else wildcardMatchBytes (Utf8.encode pattern) (Utf8.encode value)

def globSegmentsMatch (pattern value : List Text) : Bool :=
  match pattern with
  | [] => value.isEmpty
  | p :: pattern =>
    if p = ['*', '*'] then
      globSegmentsMatch pattern value ||
        match value with
        | [] => false
        | _ :: value => globSegmentsMatch (p :: pattern) value
    else
      match value with
      | [] => false
      | v :: value => segmentMatches p v && globSegmentsMatch pattern value
  termination_by pattern.length + value.length

def scopeMatches (pattern value : Text) : Bool :=
  let pattern := normalizeScopePattern pattern
  let value := (value.map fun c ↦ if c = '\\' then '/' else c).map Char.toLower
  let patternSegments := pathSegments pattern
  let valueSegments := pathSegments value
  if pattern = ['*'] ∨ pattern = ['*', '*'] then true
  else if patternSegments = [] then valueSegments.isEmpty
  else if '*' ∉ pattern then
    if isAbsolute pattern then patternSegments.isPrefixOf valueSegments
    else (List.range valueSegments.length).any fun start ↦
      patternSegments.isPrefixOf (valueSegments.drop start)
  else if isAbsolute pattern then globSegmentsMatch patternSegments valueSegments
  else (List.range (valueSegments.length + 1)).any fun start ↦
    globSegmentsMatch patternSegments (valueSegments.drop start)

/-- What is read of a `TaskRecord`. -/
structure TaskScope where
  exploratory : Bool
  scope : List Text

def dirtyFileAllowedByTask (task : TaskScope) (path : Text) : Bool :=
  task.exploratory || task.scope.isEmpty ||
    task.scope.any fun pattern ↦ scopeMatches pattern (normalizePathForScope path).toList

/-- `dirty_violation_path`; the scopes of the profile are a predicate, if there is a profile. -/
def dirtyViolationPath (dirtyFiles : List Text) (task : TaskScope)
    (profile : Option (Text → Bool)) : Option Text :=
  dirtyFiles.find? fun path ↦
    !dirtyFileAllowedByTask task path || !profile.any fun allows ↦ allows path

/-! ## What the parser reads -/

namespace StatusEntry

variable {entry : StatusEntry}

/-- An entry that is read right: no rename, and what it is copied from is skipped, or is not taken
for an entry. -/
def Plain (entry : StatusEntry) : Prop :=
  entry.isRename = false ∧ (entry.index.moves = false → ∀ origin, entry.source = some origin →
    looksLikeEntry (Utf8.encode origin) = false)

theorem ne_zero_of_mem_tokens {token : Bytes} (h : token ∈ entry.tokens) :
    token ≠ [] ∧ ∀ b ∈ token, (b == 0) = false := by
  have hbytes {path : Text} (hpath : IsPath path) : ∀ b ∈ Utf8.encode path, (b == 0) = false := by
    intro b hb
    refine beq_false_of_ne fun hzero ↦ ?_
    subst hzero
    exact Utf8.byte_notMem_encode (by decide) hpath.2 hb
  have hletter (letter : StatusLetter) : (letter.byte == 0) = false := by
    cases letter <;> rfl
  rcases List.mem_cons.mp h with rfl | h
  · refine ⟨List.cons_ne_nil _ _, fun b hb ↦ ?_⟩
    simp only [List.mem_cons] at hb
    rcases hb with rfl | rfl | rfl | hb
    · exact hletter _
    · exact hletter _
    · rfl
    · exact hbytes entry.isPath_path b hb
  · obtain ⟨origin, horigin, rfl⟩ := List.mem_map.mp h
    have hpath := entry.isPath_source origin (Option.mem_toList.mp horigin)
    refine ⟨fun hnil ↦ ?_, hbytes hpath⟩
    exact hpath.1 (Utf8.encode_injective hnil)

end StatusEntry

/-- The tokens are found again. -/
theorem parse_encodeZ (entries : List StatusEntry) :
    parseGitStatusPorcelainZ (encodeZ entries) =
      parseEntries (entries.flatMap StatusEntry.tokens) := by
  have htokens (token : Bytes) (h : token ∈ entries.flatMap StatusEntry.tokens) :
      token ≠ [] ∧ ∀ b ∈ token, (b == 0) = false := by
    obtain ⟨entry, -, hmem⟩ := List.mem_flatMap.mp h
    exact StatusEntry.ne_zero_of_mem_tokens hmem
  have hfilter : ((entries.flatMap StatusEntry.tokens) ++ [[]]).filter
      (fun entry ↦ !entry.isEmpty) = entries.flatMap StatusEntry.tokens := by
    rw [List.filter_append, List.filter_eq_self.mpr fun token h ↦ ?_]
    · exact List.append_nil _
    · rw [List.isEmpty_eq_false_iff.mpr (htokens token h).1]
      rfl
  have hsplit : (encodeZ entries).splitOnP (· == 0) =
      entries.flatMap StatusEntry.tokens ++ [[]] :=
    splitOnP_flatMap rfl fun token h ↦ (htokens token h).2
  rw [parseGitStatusPorcelainZ, hsplit, hfilter]

/-- The first token of an entry. -/
theorem parseEntries_path {index worktree : StatusLetter} {path : Text} (hpath : path ≠ [])
    (rest : List Bytes) :
    parseEntries ((index.byte :: worktree.byte :: 0x20 :: Utf8.encode path) :: rest) =
      path :: parseEntries (if index.moves then rest.tail else rest) := by
  have hne : Utf8.encode path ≠ [] := fun hnil ↦ hpath (Utf8.encode_injective hnil)
  have hlooks : looksLikeEntry (index.byte :: worktree.byte :: 0x20 :: Utf8.encode path) =
      true := by
    have hlength := List.length_pos_iff.mpr hne
    rw [looksLikeEntry, Bool.and_eq_true, decide_eq_true_eq, decide_eq_true_eq]
    refine ⟨?_, rfl⟩
    simp only [List.length_cons]
    omega
  have hdrop : (index.byte :: worktree.byte :: 0x20 :: Utf8.encode path).drop 3 =
      Utf8.encode path := rfl
  have hletter : (index.byte = 0x52 ∨ index.byte = 0x43) ↔ index.moves = true := by
    cases index <;> decide
  rw [parseEntries.eq_def]
  dsimp only
  rw [if_pos hlooks, hdrop, Utf8.lossy_encode, if_neg hpath]
  simp only [List.head?_cons, Option.some.injEq, hletter]
  by_cases hmoves : index.moves = true
  · rw [if_pos hmoves, if_pos hmoves]
    cases rest with
    | nil => rfl
    | cons _ rest => rfl
  · rw [if_neg hmoves, if_neg hmoves]
    rfl

theorem parseEntries_skip {token : Bytes} (h : looksLikeEntry token = false) (rest : List Bytes) :
    parseEntries (token :: rest) = parseEntries rest := by
  rw [parseEntries.eq_def]
  dsimp only
  rw [h, if_neg Bool.false_ne_true]

/-- A token that is taken for an entry. -/
theorem parseEntries_looks {token : Bytes} (h : looksLikeEntry token = true) :
    parseEntries [token] = [Utf8.lossy (token.drop 3)] := by
  have hlength : 4 ≤ token.length := by
    rw [looksLikeEntry, Bool.and_eq_true, decide_eq_true_eq] at h
    exact h.1
  have hne : Utf8.lossy (token.drop 3) ≠ [] := by
    refine Utf8.lossy_ne_nil (List.ne_nil_of_length_pos ?_)
    rw [List.length_drop]
    omega
  rw [parseEntries.eq_def]
  dsimp only
  rw [if_pos h, if_neg hne, parseEntries, ite_self, List.append_nil]

/-- It does not give the path back. -/
theorem lossy_drop_ne {path : Text} (h : looksLikeEntry (Utf8.encode path) = true) :
    Utf8.lossy ((Utf8.encode path).drop 3) ≠ path := by
  rw [looksLikeEntry, Bool.and_eq_true, decide_eq_true_eq, decide_eq_true_eq] at h
  have hsplit : Utf8.encode path = (Utf8.encode path).take 2 ++ 0x20 ::
      (Utf8.encode path).drop 3 := by
    obtain ⟨hlt, hblank⟩ := List.getElem?_eq_some_iff.mp h.2
    rw [← hblank, ← List.drop_eq_getElem_cons hlt, List.take_append_drop]
  obtain ⟨before, after, hpath, -, hafter⟩ := Utf8.encode_split hsplit (by decide)
  rw [← hafter, Utf8.lossy_encode]
  intro heq
  have hlength := congrArg List.length (heq.trans hpath)
  rw [List.length_append, List.length_cons] at hlength
  omega

namespace StatusEntry

variable {entry : StatusEntry}

theorem Plain.changed (h : entry.Plain) : entry.changed = [entry.path] := by
  rw [StatusEntry.changed, h.1]
  rfl

theorem parse_tokens (entry : StatusEntry) (rest : List Bytes) :
    parseEntries (entry.tokens ++ rest) =
      entry.path :: parseEntries (if entry.index.moves then rest
        else entry.source.toList.map Utf8.encode ++ rest) := by
  rw [tokens, List.cons_append, parseEntries_path entry.isPath_path.1]
  by_cases hmoves : entry.index.moves = true
  · have hsome := entry.source_iff
    rw [hmoves, Bool.true_or] at hsome
    obtain ⟨origin, horigin⟩ := Option.isSome_iff_exists.mp hsome
    rw [if_pos hmoves, if_pos hmoves, horigin]
    rfl
  · rw [if_neg hmoves, if_neg hmoves]

theorem Plain.parse (h : entry.Plain) (rest : List Bytes) :
    parseEntries (entry.tokens ++ rest) = entry.path :: parseEntries rest := by
  rw [parse_tokens]
  by_cases hmoves : entry.index.moves = true
  · rw [if_pos hmoves]
  · rw [if_neg hmoves]
    cases hsource : entry.source with
    | none => rfl
    | some origin =>
      have hlooks := h.2 (eq_false_of_ne_true hmoves) origin hsource
      exact congrArg _ (parseEntries_skip hlooks rest)

/-- An entry alone is read right only if it is plain. -/
theorem plain_of_parse (h : parseEntries entry.tokens = entry.changed) : entry.Plain := by
  have hparse := parse_tokens entry []
  rw [List.append_nil, h, StatusEntry.changed] at hparse
  have hrest := (List.cons.inj hparse).2
  by_cases hmoves : entry.index.moves = true
  · have hsome := entry.source_iff
    rw [hmoves, Bool.true_or] at hsome
    obtain ⟨origin, horigin⟩ := Option.isSome_iff_exists.mp hsome
    rw [if_pos hmoves, horigin, parseEntries] at hrest
    refine ⟨?_, fun hnot ↦ absurd hmoves (ne_true_of_eq_false hnot)⟩
    by_contra hrename
    rw [eq_true_of_ne_false hrename] at hrest
    cases hrest
  · rw [if_neg hmoves, List.append_nil] at hrest
    cases hsource : entry.source with
    | none =>
      have hnone := entry.source_iff
      rw [hsource, eq_false_of_ne_true hmoves, Bool.false_or] at hnone
      refine ⟨?_, fun _ origin horigin ↦ nomatch hsource.symm.trans horigin⟩
      rw [isRename, Bool.or_eq_false_iff, decide_eq_false_iff_not, decide_eq_false_iff_not]
      refine ⟨fun hindex ↦ ?_, fun hworktree ↦ ?_⟩
      · rw [hindex] at hmoves
        exact hmoves rfl
      · rw [hworktree] at hnone
        cases hnone
    | some origin =>
      rw [hsource] at hrest
      change (if entry.isRename = true then [origin] else []) =
        parseEntries [Utf8.encode origin] at hrest
      by_cases hlooks : looksLikeEntry (Utf8.encode origin) = true
      · rw [parseEntries_looks hlooks] at hrest
        split at hrest
        next => exact absurd (List.cons.inj hrest).1.symm (lossy_drop_ne hlooks)
        next => cases hrest
      · rw [parseEntries_skip (eq_false_of_ne_true hlooks), parseEntries] at hrest
        refine ⟨?_, fun _ other hother ↦ ?_⟩
        · by_contra hrename
          rw [eq_true_of_ne_false hrename] at hrest
          cases hrest
        · obtain rfl := Option.some.inj (hsource.symm.trans hother)
          exact eq_false_of_ne_true hlooks

end StatusEntry

/-- Plain entries are read right. -/
theorem parseEntries_plain {entries : List StatusEntry} (h : ∀ entry ∈ entries, entry.Plain) :
    parseEntries (entries.flatMap StatusEntry.tokens) = changedPaths entries := by
  induction entries with
  | nil => rfl
  | cons entry entries ih =>
    have hentry := h entry List.mem_cons_self
    rw [List.flatMap_cons, hentry.parse, ih fun other hmem ↦ h other (List.mem_cons_of_mem _ hmem),
      changedPaths, changedPaths, List.flatMap_cons, hentry.changed]
    rfl

/-- The entries that are read right in every list are the plain ones. -/
theorem parse_exact_iff (K : StatusEntry → Prop) :
    (∀ entries, (∀ entry ∈ entries, K entry) →
      parseGitStatusPorcelainZ (encodeZ entries) = changedPaths entries) ↔
      ∀ entry, K entry → entry.Plain := by
  constructor
  · intro h entry hentry
    have hone := h [entry] fun other hmem ↦ List.mem_singleton.mp hmem ▸ hentry
    rw [parse_encodeZ, changedPaths, List.flatMap_singleton, List.flatMap_singleton] at hone
    exact StatusEntry.plain_of_parse hone
  · intro h entries hentries
    rw [parse_encodeZ]
    exact parseEntries_plain fun entry hmem ↦ h entry (hentries entry hmem)

/-! ## What the delta reports -/

/-- The file is new in the audit, or was in the one before and has another fingerprint. -/
def Changed (cwd : Text) (filesBefore files : Metadata) (before after : List Text) (path : Text) :
    Prop :=
  path ∈ after ∧ path ∉ before ∨
    path ∈ before ∧ dirtyFileFingerprint filesBefore cwd path ≠ dirtyFileFingerprint files cwd path

/-- Every file that is changed is reported, and nothing twice. -/
def ReportsChanges (cwd : Text) (filesBefore files : Metadata) (before after : List Text) : Prop :=
  let delta := dirtyFileDelta files cwd before (dirtyFileFingerprints filesBefore cwd before) after
  (∀ path, Changed cwd filesBefore files before after path → path ∈ delta) ∧ delta.Nodup

/-- Files that were dirty still are, and no two files are alike up to case. -/
def Comparable (before after : List Text) : Prop :=
  before ⊆ after ∧ Set.InjOn normalizePathForScope {path | path ∈ after}

section Delta

variable {files filesBefore : Metadata} {cwd : Text} {keys seen : List String}
  {fingerprints : OrderedMap String DirtyFileFingerprint} {before after : List Text}

/-- What is reported is of the audit, is new to what was seen, and no two are alike. -/
theorem deltaFrom_spec :
    (∀ path ∈ deltaFrom files cwd keys fingerprints seen after,
      path ∈ after ∧ normalizePathForScope path ∉ seen) ∧
      ((deltaFrom files cwd keys fingerprints seen after).map normalizePathForScope).Nodup := by
  induction after generalizing seen with
  | nil => exact ⟨nofun, List.nodup_nil⟩
  | cons path after ih =>
    rw [deltaFrom]
    split
    next hseen =>
      refine ⟨fun other hmem ↦ ?_, ih.2⟩
      obtain ⟨hafter, hnew⟩ := ih.1 other hmem
      exact ⟨List.mem_cons_of_mem _ hafter, hnew⟩
    next hseen =>
      obtain ⟨hmem, hnodup⟩ := @ih (normalizePathForScope path :: seen)
      have hrest (other : Text)
          (h : other ∈ deltaFrom files cwd keys fingerprints (normalizePathForScope path :: seen)
            after) : other ∈ path :: after ∧ normalizePathForScope other ∉ seen :=
        ⟨List.mem_cons_of_mem _ (hmem other h).1,
          fun hin ↦ (hmem other h).2 (List.mem_cons_of_mem _ hin)⟩
      split
      next => exact ⟨hrest, hnodup⟩
      next =>
        refine ⟨fun other h ↦ ?_, List.nodup_cons.mpr ⟨fun hin ↦ ?_, hnodup⟩⟩
        · rcases List.mem_cons.mp h with rfl | h
          · exact ⟨List.mem_cons_self, hseen⟩
          · exact hrest other h
        · obtain ⟨other, hother, hsame⟩ := List.mem_map.mp hin
          exact (hmem other hother).2 (hsame ▸ List.mem_cons_self)

/-- A file of the audit with which no other is alike is reported unless its fingerprint is the one
that is known. -/
theorem mem_deltaFrom {path : Text} (hpath : path ∈ after)
    (halone : ∀ other ∈ after, normalizePathForScope other = normalizePathForScope path →
      other = path)
    (hseen : normalizePathForScope path ∉ seen)
    (hchanged : normalizePathForScope path ∈ keys →
      fingerprints.get? (normalizePathForScope path) ≠
        some (dirtyFileFingerprint files cwd path)) :
    path ∈ deltaFrom files cwd keys fingerprints seen after := by
  induction after generalizing seen with
  | nil => cases hpath
  | cons first after ih =>
    rw [deltaFrom]
    by_cases hfirst : first = path
    · rw [hfirst, if_neg hseen, if_neg fun h ↦ hchanged h.1 h.2]
      exact List.mem_cons_self
    · have hmem : path ∈ after := (List.mem_cons.mp hpath).resolve_left (Ne.symm hfirst)
      have hrest (other : Text) (h : other ∈ after) := halone other (List.mem_cons_of_mem _ h)
      split
      next => exact ih hmem hrest hseen
      next =>
        refine List.mem_append_right _ (ih hmem hrest fun hin ↦ ?_)
        rcases List.mem_cons.mp hin with hsame | hin
        · exact hfirst (halone first List.mem_cons_self hsame.symm)
        · exact hseen hin

/-- The fingerprint of a file with which no other is alike. -/
theorem get?_dirtyFileFingerprints {path : Text} (hpath : path ∈ before)
    (halone : ∀ other ∈ before, normalizePathForScope other = normalizePathForScope path →
      other = path) :
    (dirtyFileFingerprints filesBefore cwd before).get? (normalizePathForScope path) =
      some (dirtyFileFingerprint filesBefore cwd path) := by
  induction before using List.reverseRecOn with
  | nil => cases hpath
  | append_singleton before last ih =>
    rw [dirtyFileFingerprints, List.foldl_append, List.foldl_cons, List.foldl_nil,
      OrderedMap.get?_insert]
    by_cases hlast : last = path
    · rw [hlast, if_pos rfl]
    · have hne : normalizePathForScope path ≠ normalizePathForScope last := fun hsame ↦
        hlast (halone last (List.mem_append_right _ List.mem_cons_self) hsame.symm)
      rw [if_neg hne]
      refine ih ?_ fun other hmem ↦ halone other (List.mem_append_left _ hmem)
      refine (List.mem_append.mp hpath).resolve_right fun hin ↦ hlast ?_
      exact (List.mem_singleton.mp hin).symm

theorem reportsChanges_of_comparable (h : Comparable before after) :
    ReportsChanges cwd filesBefore files before after := by
  obtain ⟨hsub, hinj⟩ := h
  refine ⟨fun path hchanged ↦ ?_, List.Nodup.of_map _ deltaFrom_spec.2⟩
  have hpath : path ∈ after := by
    rcases hchanged with ⟨hafter, -⟩ | ⟨hbefore, -⟩
    · exact hafter
    · exact hsub hbefore
  refine mem_deltaFrom hpath (fun other hother hsame ↦ hinj hother hpath hsame) List.not_mem_nil
    fun hkey ↦ ?_
  obtain ⟨other, hother, hsame⟩ := List.mem_map.mp hkey
  obtain rfl : other = path := hinj (hsub hother) hpath hsame
  rw [get?_dirtyFileFingerprints hother fun another hmem ↦ hinj (hsub hmem) hpath]
  rcases hchanged with ⟨-, hnew⟩ | ⟨-, hdiff⟩
  · exact absurd hother hnew
  · exact fun heq ↦ hdiff (Option.some.inj heq)

/-- Every file has another fingerprint when there was none and all are there. -/
theorem comparable_of_reportsChanges
    (h : ReportsChanges cwd (fun _ ↦ none) (fun _ ↦ some (0, none)) before after) :
    Comparable before after := by
  have hdelta (path : Text) (hpath : path ∈ before ∨ path ∈ after) :
      path ∈ dirtyFileDelta (fun _ ↦ some (0, none)) cwd before
        (dirtyFileFingerprints (fun _ ↦ none) cwd before) after := by
    refine h.1 path ?_
    by_cases hbefore : path ∈ before
    · exact .inr ⟨hbefore, nofun⟩
    · exact .inl ⟨hpath.resolve_left hbefore, hbefore⟩
  refine ⟨fun path hpath ↦ (deltaFrom_spec.1 path (hdelta path (.inl hpath))).1, ?_⟩
  intro a ha b hb hsame
  exact List.inj_on_of_nodup_map deltaFrom_spec.2 (hdelta a (.inr ha)) (hdelta b (.inr hb)) hsame

end Delta

/-! ## When the audit tells all changes -/

/-- A change outside of the scope of the task is found. -/
theorem violation_of_changed {repoRoot : Option Text} {cwd : Text} {filesBefore files : Metadata}
    {before : List Text} {entries : List StatusEntry} {task : TaskScope}
    {profile : Option (Text → Bool)} {path : Text}
    (hplain : ∀ entry ∈ entries, entry.Plain)
    (hcomparable : Comparable before (auditGitDirtyFiles repoRoot cwd (some (encodeZ entries))))
    (hchanged : Changed cwd filesBefore files before
      ((changedPaths entries).map (absolute repoRoot cwd)) path)
    (houtside : dirtyFileAllowedByTask task path = false) :
    (dirtyViolationPath (dirtyFileDelta files cwd before
      (dirtyFileFingerprints filesBefore cwd before)
      (auditGitDirtyFiles repoRoot cwd (some (encodeZ entries)))) task profile).isSome = true := by
  have haudit : auditGitDirtyFiles repoRoot cwd (some (encodeZ entries)) =
      (changedPaths entries).map (absolute repoRoot cwd) := by
    rw [auditGitDirtyFiles, parse_encodeZ, parseEntries_plain hplain]
  rw [haudit] at hcomparable ⊢
  have hmem := (reportsChanges_of_comparable hcomparable).1 path hchanged
  rw [dirtyViolationPath, List.find?_isSome]
  refine ⟨path, hmem, ?_⟩
  rw [houtside]
  rfl

/-- Plain entries, and no others, are read right in every list.  The delta of two audits has every
change, whatever the files are, if and only if the audits can be compared.  And then nothing
outside of the scope of a task is hidden. -/
theorem dirty_audit_exact (repoRoot : Option Text) (cwd : Text) :
    (∀ K : StatusEntry → Prop,
      (∀ entries, (∀ entry ∈ entries, K entry) →
        parseGitStatusPorcelainZ (encodeZ entries) = changedPaths entries) ↔
        ∀ entry, K entry → entry.Plain) ∧
    (∀ before after, (∀ filesBefore files, ReportsChanges cwd filesBefore files before after) ↔
      Comparable before after) ∧
    ∀ filesBefore files before entries task profile path, (∀ entry ∈ entries, entry.Plain) →
      Comparable before (auditGitDirtyFiles repoRoot cwd (some (encodeZ entries))) →
      Changed cwd filesBefore files before ((changedPaths entries).map (absolute repoRoot cwd))
        path →
      dirtyFileAllowedByTask task path = false →
      (dirtyViolationPath (dirtyFileDelta files cwd before
        (dirtyFileFingerprints filesBefore cwd before)
        (auditGitDirtyFiles repoRoot cwd (some (encodeZ entries)))) task profile).isSome =
        true := by
  refine ⟨parse_exact_iff, fun before after ↦ ⟨fun h ↦ ?_, fun h filesBefore files ↦ ?_⟩, ?_⟩
  · exact comparable_of_reportsChanges (h _ _)
  · exact reportsChanges_of_comparable h
  · intro filesBefore files before entries task profile path hplain hcomparable hchanged houtside
    exact violation_of_changed hplain hcomparable hchanged houtside

def untracked (path : Text) (h : IsPath path) : StatusEntry :=
  ⟨.untracked, .untracked, path, none, h, nofun, rfl⟩

/-- A task with the files below `in`, and a profile without limits. -/
def inTask : TaskScope := ⟨false, ["in".toList]⟩

def anyProfile : Option (Text → Bool) := some fun _ ↦ true

def root : Text := "/r".toList

def outside : List StatusEntry := [untracked "out/a".toList (by decide)]

theorem outside_plain : ∀ entry ∈ outside, entry.Plain := by
  intro entry hmem
  rw [List.mem_singleton.mp hmem]
  exact ⟨rfl, fun _ _ hnone ↦ nomatch hnone⟩

theorem outside_audit : auditGitDirtyFiles (some root) root (some (encodeZ outside)) =
    ["/r/out/a".toList] := by
  rw [auditGitDirtyFiles, parse_encodeZ, parseEntries_plain outside_plain]
  rfl

theorem dirty_audit_exact_outside :
    (dirtyViolationPath (dirtyFileDelta (fun _ ↦ some (3, none)) root []
      (dirtyFileFingerprints (fun _ ↦ none) root [])
      (auditGitDirtyFiles (some root) root (some (encodeZ outside)))) inTask
      anyProfile).isSome = true := by
  refine (dirty_audit_exact (some root) root).2.2 _ _ _ outside _ _ "/r/out/a".toList
    outside_plain ⟨nofun, ?_⟩ (.inl ⟨List.mem_singleton.mpr rfl, List.not_mem_nil⟩) (by decide)
  rw [outside_audit]
  intro a ha b hb _
  exact (List.mem_singleton.mp ha).trans (List.mem_singleton.mp hb).symm

/-- A file outside of the scope is renamed into it. -/
def renameIn : StatusEntry :=
  ⟨.renamed, .unmodified, "in/b".toList, some "out/a".toList, by decide,
    fun origin h ↦ by obtain rfl := Option.some.inj h; decide, rfl⟩

/-- A copy that the work tree has, of a file with a name that looks like an entry. -/
def copyOfEntry : StatusEntry :=
  ⟨.unmodified, .copied, "f".toList, some "R  g".toList, by decide,
    fun origin h ↦ by obtain rfl := Option.some.inj h; decide, rfl⟩

theorem parse_renameIn :
    parseGitStatusPorcelainZ (encodeZ [renameIn]) = ["in/b".toList] := by
  have hparse := StatusEntry.parse_tokens renameIn []
  rw [List.append_nil] at hparse
  rw [parse_encodeZ, List.flatMap_singleton, hparse]
  rfl

/-- The second path is read as a rename, which hides the next entry. -/
theorem parse_copyOfEntry : parseGitStatusPorcelainZ
    (encodeZ [copyOfEntry, untracked "h".toList (by decide)]) = ["f".toList, "g".toList] := by
  have hcopy := StatusEntry.parse_tokens copyOfEntry
    ((untracked "h".toList (by decide)).tokens)
  have hsource : parseEntries (Utf8.encode "R  g".toList ::
      (untracked "h".toList (by decide)).tokens) = ["g".toList] :=
    @parseEntries_path .renamed .unmodified "g".toList (by decide) _
  rw [parse_encodeZ, List.flatMap_cons, List.flatMap_singleton, hcopy]
  exact congrArg _ hsource

theorem dirty_audit_hides :
    -- where a rename comes from
    (parseGitStatusPorcelainZ (encodeZ [renameIn]) = ["in/b".toList] ∧
      changedPaths [renameIn] = ["in/b".toList, "out/a".toList] ∧
      dirtyFileAllowedByTask inTask "/r/out/a".toList = false ∧
      dirtyViolationPath (dirtyFileDelta (fun _ ↦ none) root []
        (dirtyFileFingerprints (fun _ ↦ none) root [])
        (auditGitDirtyFiles (some root) root (some (encodeZ [renameIn])))) inTask
        anyProfile = none) ∧
    -- an entry behind a copy
    (parseGitStatusPorcelainZ (encodeZ [copyOfEntry, untracked "h".toList (by decide)]) =
        ["f".toList, "g".toList] ∧
      changedPaths [copyOfEntry, untracked "h".toList (by decide)] =
        ["f".toList, "h".toList]) ∧
    -- a file that differs in case from another
    dirtyFileDelta (fun _ ↦ none) root [] .empty ["/r/A".toList, "/r/a".toList] =
      ["/r/A".toList] ∧
    -- a file that is not dirty any more
    dirtyFileDelta (fun _ ↦ some (3, none)) root ["/r/a".toList]
      (dirtyFileFingerprints (fun _ ↦ some (5, none)) root ["/r/a".toList]) [] = [] := by
  refine ⟨⟨parse_renameIn, rfl, by decide, ?_⟩, ⟨parse_copyOfEntry, rfl⟩, by decide, rfl⟩
  rw [auditGitDirtyFiles, parse_renameIn]
  decide

end Praxis.AgentOs.DirtyFiles
