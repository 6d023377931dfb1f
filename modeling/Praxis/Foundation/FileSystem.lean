import Mathlib.Data.List.AList
import Praxis.Foundation.Bytes

/-!
# A directory of files that can lose power

A directory maps names to files, each with its bytes, the length of the prefix
that its last successful sync covered, and whether a sync of the directory has
covered its entry.  The order in which the entries are listed carries no
meaning; two directories with the same lookups may list them differently.

`Survives` is what a power failure may leave of a file, and `Crash` what it may
leave of a directory: a file whose entry is on disk keeps at least its synced
prefix, and a file whose entry is not may be gone or cut at any length.
-/

namespace Praxis.Foundation

/-- A file name: UTF-8 text, or bytes that are not. -/
inductive FileName where
  | utf8 (chars : List Char)
  | raw (bytes : Bytes)
deriving DecidableEq

/-- A regular file. -/
structure File where
  /-- Its contents. -/
  data : Bytes
  /-- The length of the prefix covered by the last successful sync. -/
  synced : Nat
  /-- Whether a directory sync has covered its entry. -/
  linked : Bool
  synced_le : synced ≤ data.length
deriving DecidableEq

namespace File

/-- A file that has just been created. -/
def created (data : Bytes) : File := ⟨data, 0, false, Nat.zero_le _⟩

/-- Bytes written at the end. -/
def write (f : File) (bytes : Bytes) : File :=
  { f with
    data := f.data ++ bytes
    synced_le := by
      rw [List.length_append]
      exact Nat.le_add_right_of_le f.synced_le }

/-- `set_len`: cut, or extended with zeros. -/
def setLen (f : File) (n : Nat) : File :=
  { f with
    data := f.data.take n ++ List.replicate (n - f.data.length) 0
    synced := min f.synced n
    synced_le := by
      have := f.synced_le
      simp only [List.length_append, List.length_take, List.length_replicate]
      omega }

/-- `sync_all` on a file. -/
def sync (f : File) : File := { f with synced := f.data.length, synced_le := Nat.le_refl _ }

/-- What a sync of the directory does to an entry. -/
def link (f : File) : File := { f with linked := true }

@[simp] theorem write_data (f : File) (bytes : Bytes) : (f.write bytes).data = f.data ++ bytes := rfl
@[simp] theorem sync_data (f : File) : f.sync.data = f.data := rfl
@[simp] theorem link_data (f : File) : f.link.data = f.data := rfl

theorem setLen_data {f : File} {n : Nat} (h : n ≤ f.data.length) :
    (f.setLen n).data = f.data.take n := by
  simp [setLen, Nat.sub_eq_zero_of_le h]

end File

/-- A directory entry: a regular file or something else. -/
inductive Node where
  | file (f : File)
  | other
deriving DecidableEq

/-- The entry after a sync of the directory. -/
def Node.link : Node → Node
  | .file f => .file f.link
  | .other => .other

abbrev Directory := AList fun _ : FileName ↦ Node

namespace Directory

variable {d : Directory} {name other : FileName} {f : File}

/-- The regular file of a name. -/
def file? (d : Directory) (name : FileName) : Option File :=
  match d.lookup name with
  | some (.file f) => some f
  | _ => none

theorem file?_eq_some_iff : d.file? name = some f ↔ d.lookup name = some (.file f) := by
  unfold file?
  split <;> simp_all

/-- Put a file in place of what was there. -/
def setFile (d : Directory) (name : FileName) (f : File) : Directory := d.insert name (.file f)

@[simp] theorem lookup_setFile_self : (d.setFile name f).lookup name = some (.file f) :=
  AList.lookup_insert d

theorem lookup_setFile_ne (h : other ≠ name) : (d.setFile name f).lookup other = d.lookup other :=
  AList.lookup_insert_ne h

@[simp] theorem file?_setFile_self : (d.setFile name f).file? name = some f := by
  rw [file?_eq_some_iff, lookup_setFile_self]

theorem file?_setFile_ne (h : other ≠ name) : (d.setFile name f).file? other = d.file? other := by
  rw [file?, file?, lookup_setFile_ne h]

/-- `remove_file`. -/
def remove (d : Directory) (name : FileName) : Directory := d.erase name

@[simp] theorem lookup_remove_self : (d.remove name).lookup name = none := AList.lookup_erase name d

theorem lookup_remove_ne (h : other ≠ name) : (d.remove name).lookup other = d.lookup other :=
  AList.lookup_erase_ne h

@[simp] theorem file?_remove_self : (d.remove name).file? name = none := by
  rw [file?, lookup_remove_self]

theorem file?_remove_ne (h : other ≠ name) : (d.remove name).file? other = d.file? other := by
  rw [file?, file?, lookup_remove_ne h]

/-- A sync of the directory: every entry is on disk afterwards. -/
def sync (d : Directory) : Directory where
  entries := d.entries.map fun entry ↦ ⟨entry.1, entry.2.link⟩
  nodupKeys := by
    have hkeys : (d.entries.map fun entry ↦ (⟨entry.1, entry.2.link⟩ : Σ _ : FileName, Node)).keys =
        d.entries.keys := by
      simp [List.keys, Function.comp_def]
    rw [List.NodupKeys, hkeys]
    exact d.nodupKeys

theorem lookup_sync : d.sync.lookup name = (d.lookup name).map Node.link :=
  List.dlookup_map₂ (f := fun _ ↦ Node.link) name

theorem file?_sync : d.sync.file? name = (d.file? name).map File.link := by
  rw [file?, file?, lookup_sync]
  rcases d.lookup name with _ | (_ | _) <;> rfl

/-- The bytes of the regular file of a name. -/
def contents (d : Directory) (name : FileName) : Option Bytes := (d.file? name).map File.data

theorem contents_eq_some_iff {bytes : Bytes} :
    d.contents name = some bytes ↔ ∃ f, d.file? name = some f ∧ f.data = bytes :=
  Option.map_eq_some_iff

theorem isSome_contents : (d.contents name).isSome = (d.file? name).isSome :=
  Option.isSome_map

@[simp] theorem contents_setFile_self : (d.setFile name f).contents name = some f.data := by
  simp [contents]

theorem contents_setFile_ne (h : other ≠ name) :
    (d.setFile name f).contents other = d.contents other := by
  rw [contents, contents, file?_setFile_ne h]

@[simp] theorem contents_remove_self : (d.remove name).contents name = none := by
  simp [contents]

theorem contents_remove_ne (h : other ≠ name) :
    (d.remove name).contents other = d.contents other := by
  rw [contents, contents, file?_remove_ne h]

@[simp] theorem contents_sync : d.sync.contents name = d.contents name := by
  rw [contents, contents, file?_sync, Option.map_map]
  rfl

end Directory

/-! ## Syncs -/

/-- The whole file is on disk. -/
def File.OnDisk (f : File) : Prop := f.synced = f.data.length ∧ f.linked = true

/-- The same contents, of which syncs may have brought more to disk. -/
structure File.Hardens (f f' : File) : Prop where
  data_eq : f'.data = f.data
  synced_le : f.synced ≤ f'.synced
  linked : f.linked → f'.linked

namespace File.Hardens

variable {f f' f'' : File}

theorem refl (f : File) : f.Hardens f := ⟨rfl, Nat.le_refl _, id⟩

theorem trans (h : f.Hardens f') (h' : f'.Hardens f'') : f.Hardens f'' :=
  ⟨h'.data_eq.trans h.data_eq, h.synced_le.trans h'.synced_le, h'.linked ∘ h.linked⟩

theorem sync (f : File) : f.Hardens f.sync := ⟨rfl, f.synced_le, id⟩

theorem link (f : File) : f.Hardens f.link := ⟨rfl, Nat.le_refl _, fun _ ↦ rfl⟩

/-- A file that was synced as a whole stays so. -/
theorem synced_eq (h : f.Hardens f') (hf : f.synced = f.data.length) :
    f'.synced = f'.data.length := by
  refine Nat.le_antisymm f'.synced_le ?_
  rw [h.data_eq, ← hf]
  exact h.synced_le

end File.Hardens

/-- The same entry, of which syncs may have brought more to disk. -/
inductive Node.Hardens : Node → Node → Prop
  | file {f f' : File} (h : f.Hardens f') : Hardens (.file f) (.file f')
  | other : Hardens .other .other

theorem Node.Hardens.refl : ∀ node : Node, node.Hardens node
  | .file f => .file (.refl f)
  | .other => .other

namespace Directory

/-- The same entries, of which syncs may have brought more to disk. -/
def Hardens (d d' : Directory) : Prop :=
  ∀ name, Option.Rel Node.Hardens (d.lookup name) (d'.lookup name)

/-- The file of a name is on disk as a whole. -/
def OnDisk (d : Directory) (name : FileName) : Prop := ∃ f, d.file? name = some f ∧ f.OnDisk

section Entry

variable {d d' : Directory} {name : FileName} {f : File}
  (hrel : Option.Rel Node.Hardens (d.lookup name) (d'.lookup name))

include hrel

theorem file?_of_rel (hf : d.file? name = some f) : ∃ f', d'.file? name = some f' ∧ f.Hardens f' := by
  rw [file?_eq_some_iff] at hf
  rw [hf] at hrel
  generalize hd : d'.lookup name = node at hrel
  rcases hrel with (hff' | _) | _
  exact ⟨_, file?_eq_some_iff.mpr hd, hff'⟩

/-- A file on disk stays there. -/
theorem OnDisk.of_rel (h : d.OnDisk name) : d'.OnDisk name := by
  obtain ⟨f, hf, hsynced, hlinked⟩ := h
  obtain ⟨f', hf', hff'⟩ := file?_of_rel hrel hf
  exact ⟨f', hf', hff'.synced_eq hsynced, hff'.linked hlinked⟩

theorem contents_of_rel : d'.contents name = d.contents name := by
  rw [contents, contents, file?, file?]
  revert hrel
  generalize d.lookup name = node
  generalize d'.lookup name = node'
  rintro ((hff' | _) | _)
  · exact congrArg some hff'.data_eq
  · rfl
  · rfl

end Entry

namespace Hardens

variable {d d' d'' : Directory} {name : FileName} {f f' : File}

theorem of_lookup_eq (h : ∀ name, d'.lookup name = d.lookup name) : d.Hardens d' := by
  intro name
  rw [h name]
  cases d.lookup name with
  | none => exact .none
  | some node => exact .some (.refl node)

theorem refl (d : Directory) : d.Hardens d := of_lookup_eq fun _ ↦ rfl

theorem trans (h : d.Hardens d') (h' : d'.Hardens d'') : d.Hardens d'' := by
  intro name
  have hname := h name
  have hname' := h' name
  revert hname hname'
  generalize d.lookup name = node
  generalize d'.lookup name = node'
  generalize d''.lookup name = node''
  rintro ((hf | _) | _) ((hf' | _) | _)
  · exact .some (.file (hf.trans hf'))
  · exact .some .other
  · exact .none

theorem file? (h : d.Hardens d') (hf : d.file? name = some f) :
    ∃ f', d'.file? name = some f' ∧ f.Hardens f' :=
  file?_of_rel (h name) hf

theorem contents_eq (h : d.Hardens d') (name : FileName) : d'.contents name = d.contents name :=
  contents_of_rel (h name)

theorem setFile (hf : d.file? name = some f) (h : f.Hardens f') :
    d.Hardens (d.setFile name f') := by
  intro other
  by_cases hother : other = name
  · subst hother
    rw [file?_eq_some_iff.mp hf, lookup_setFile_self]
    exact .some (.file h)
  · rw [lookup_setFile_ne hother]
    exact refl d other

theorem sync (d : Directory) : d.Hardens d.sync := by
  intro name
  rw [lookup_sync]
  rcases d.lookup name with _ | (f | _)
  · exact .none
  · exact .some (.file (.link f))
  · exact .some .other

end Hardens

end Directory

/-! ## Power failure -/

/-- What may be left of a file whose entry is on disk. -/
def Survives (f f' : File) : Prop :=
  f'.data <+: f.data ∧ (f.linked → f.synced ≤ f'.data.length)

/-- What a power failure may leave of a directory. -/
structure Crash (d d' : Directory) : Prop where
  /-- Nothing new appears. -/
  of_file : ∀ name f', d'.file? name = some f' → ∃ f, d.file? name = some f ∧ Survives f f'
  /-- Files whose entries are on disk are still there. -/
  of_linked : ∀ name f, d.file? name = some f → f.linked → ∃ f', d'.file? name = some f'
  /-- Entries that are not regular files are left alone. -/
  of_other : ∀ name, d'.lookup name = some .other ↔ d.lookup name = some .other

section

variable {d d' : Directory} {name : FileName}

/-- A file that is on disk as a whole survives as a whole. -/
theorem Crash.contents_eq (h : Crash d d') (hdisk : d.OnDisk name) :
    d'.contents name = d.contents name := by
  obtain ⟨f, hf, hsynced, hlinked⟩ := hdisk
  obtain ⟨f', hf'⟩ := h.of_linked name f hf hlinked
  obtain ⟨g, hg, hstart, hlength⟩ := h.of_file name f' hf'
  obtain rfl : f = g := Option.some.inj (hf.symm.trans hg)
  have hle := hlength hlinked
  rw [hsynced] at hle
  rw [Directory.contents, Directory.contents, hf, hf']
  exact congrArg some (hstart.eq_of_length_le hle)

/-- A crash makes no file appear. -/
theorem Crash.isSome_of_isSome (h : Crash d d')
    (hsome : (d'.contents name).isSome) : (d.contents name).isSome := by
  rw [Directory.isSome_contents] at *
  obtain ⟨f', hf'⟩ := Option.isSome_iff_exists.mp hsome
  obtain ⟨f, hf, -⟩ := h.of_file name f' hf'
  rw [hf]
  rfl

end

end Praxis.Foundation
