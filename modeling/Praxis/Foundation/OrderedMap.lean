import Mathlib.Data.List.Sort
import Mathlib.Data.List.Pairwise

/-!
# Maps and sets in the order of their keys

`OrderedMap κ ν` holds its entries in the order of the keys, each key once, as a B-tree
map does: an iteration over it meets the entries in that order.  `OrderedSet κ` is the
same without values.
-/

namespace Praxis.Foundation

/-- Entries in the order of their keys. -/
structure OrderedMap (κ ν : Type) [LinearOrder κ] where
  entries : List (κ × ν)
  sorted : (entries.map Prod.fst).Pairwise (· < ·)

namespace OrderedMap

variable {κ ν : Type} [LinearOrder κ]

def empty : OrderedMap κ ν := ⟨[], .nil⟩

def get? (m : OrderedMap κ ν) (k : κ) : Option ν := (m.entries.find? (·.1 = k)).map Prod.snd

def contains (m : OrderedMap κ ν) (k : κ) : Bool := (m.get? k).isSome

def values (m : OrderedMap κ ν) : List ν := m.entries.map Prod.snd

/-- The entry takes its place, or that of the entry with its key. -/
def insertEntry (k : κ) (v : ν) : List (κ × ν) → List (κ × ν)
  | [] => [(k, v)]
  | e :: es => if k < e.1 then (k, v) :: e :: es else if k = e.1 then (k, v) :: es
      else e :: insertEntry k v es

theorem mem_fst_insertEntry {k k' : κ} {v : ν} {es : List (κ × ν)}
    (h : k' ∈ (insertEntry k v es).map Prod.fst) : k' = k ∨ k' ∈ es.map Prod.fst := by
  induction es with
  | nil => simpa [insertEntry] using h
  | cons e es ih =>
    unfold insertEntry at h
    split_ifs at h with hlt heq
    · simpa using h
    · rcases List.mem_cons.mp h with h | h
      · exact .inl h
      · exact .inr (List.mem_cons_of_mem _ h)
    · rcases List.mem_cons.mp h with h | h
      · exact .inr (h ▸ List.mem_cons_self)
      · exact (ih h).imp_right (List.mem_cons_of_mem _)

theorem sorted_insertEntry {k : κ} {v : ν} {es : List (κ × ν)}
    (h : (es.map Prod.fst).Pairwise (· < ·)) :
    ((insertEntry k v es).map Prod.fst).Pairwise (· < ·) := by
  induction es with
  | nil => exact List.pairwise_singleton ..
  | cons e es ih =>
    obtain ⟨he, hes⟩ := List.pairwise_cons.mp h
    unfold insertEntry
    split_ifs with hlt heq
    · refine List.pairwise_cons.mpr ⟨fun k' hk' ↦ ?_, h⟩
      rcases List.mem_cons.mp hk' with rfl | hk'
      · exact hlt
      · exact hlt.trans (he k' hk')
    · exact List.pairwise_cons.mpr ⟨fun k' hk' ↦ heq ▸ he k' hk', hes⟩
    · refine List.pairwise_cons.mpr ⟨fun k' hk' ↦ ?_, ih hes⟩
      rcases mem_fst_insertEntry hk' with rfl | hk'
      · exact lt_of_le_of_ne (not_lt.mp hlt) (Ne.symm heq)
      · exact he k' hk'

def insert (m : OrderedMap κ ν) (k : κ) (v : ν) : OrderedMap κ ν :=
  ⟨insertEntry k v m.entries, sorted_insertEntry m.sorted⟩

def erase (m : OrderedMap κ ν) (k : κ) : OrderedMap κ ν :=
  ⟨m.entries.filter (·.1 ≠ k), m.sorted.sublist (List.filter_sublist.map _)⟩

/-- Changes the value of a key, if it has one. -/
def modify (m : OrderedMap κ ν) (k : κ) (f : ν → ν) : OrderedMap κ ν :=
  match m.get? k with
  | none => m
  | some v => m.insert k (f v)

variable {m : OrderedMap κ ν} {k k' : κ} {v v' : ν}

@[ext] theorem ext {m m' : OrderedMap κ ν} (h : m.entries = m'.entries) : m = m' := by
  cases m
  cases m'
  congr

theorem get?_eq_some_iff : m.get? k = some v ↔ (k, v) ∈ m.entries := by
  unfold get?
  rw [Option.map_eq_some_iff]
  constructor
  · rintro ⟨⟨k', v'⟩, hfind, rfl⟩
    obtain rfl : k' = k := by simpa using List.find?_some hfind
    exact List.mem_of_find?_eq_some hfind
  · intro hmem
    have hsome : (m.entries.find? (·.1 = k)).isSome := List.find?_isSome.mpr ⟨_, hmem, by simp⟩
    obtain ⟨⟨k', v'⟩, hfind⟩ := Option.isSome_iff_exists.mp hsome
    obtain rfl : k' = k := by simpa using List.find?_some hfind
    have hnodup : (m.entries.map Prod.fst).Nodup := m.sorted.imp ne_of_lt
    have heq := List.inj_on_of_nodup_map hnodup (List.mem_of_find?_eq_some hfind) hmem rfl
    exact ⟨_, hfind, congrArg Prod.snd heq⟩

theorem mem_insertEntry {es : List (κ × ν)} (h : (es.map Prod.fst).Pairwise (· < ·)) :
    (k', v') ∈ insertEntry k v es ↔ if k' = k then v' = v else (k', v') ∈ es := by
  induction es with
  | nil =>
    simp only [insertEntry, List.mem_singleton, Prod.mk.injEq, List.not_mem_nil]
    split_ifs with hk <;> simp [hk]
  | cons e es ih =>
    obtain ⟨he, hes⟩ := List.pairwise_cons.mp h
    have hnot {k : κ} (hk : ¬ e.1 < k) : (k, v') ∉ es := fun hmem ↦
      hk (he k (List.mem_map_of_mem hmem))
    unfold insertEntry
    by_cases hk : k' = k
    · subst hk
      rw [if_pos rfl]
      split_ifs with hlt heq
      · have hne : (k', v') ≠ e := fun heq ↦ hlt.ne (congrArg Prod.fst heq)
        simp [hne, hnot hlt.asymm]
      · simp [hnot (not_lt.mpr heq.le)]
      · have hne : (k', v') ≠ e := fun heq' ↦ heq (congrArg Prod.fst heq')
        rw [List.mem_cons, or_iff_right hne, ih hes, if_pos rfl]
    · rw [if_neg hk]
      split_ifs with hlt heq
      · simp [hk]
      · have hne : (k', v') ≠ e := fun heq' ↦ hk ((congrArg Prod.fst heq').trans heq.symm)
        simp [hk, hne]
      · rw [List.mem_cons, List.mem_cons, ih hes, if_neg hk]

theorem get?_insert : (m.insert k v).get? k' = if k' = k then some v else m.get? k' := by
  refine Option.ext fun v' ↦ ?_
  rw [get?_eq_some_iff]
  refine (mem_insertEntry m.sorted).trans ?_
  split_ifs with hk
  · rw [Option.some.injEq, eq_comm]
  · exact get?_eq_some_iff.symm

theorem get?_erase : (m.erase k).get? k' = if k' = k then none else m.get? k' := by
  refine Option.ext fun v' ↦ ?_
  rw [get?_eq_some_iff]
  unfold erase
  rw [List.mem_filter]
  split_ifs with hk
  · simp [hk]
  · simp [hk, get?_eq_some_iff]

theorem get?_modify {f : ν → ν} :
    (m.modify k f).get? k' = if k' = k then (m.get? k).map f else m.get? k' := by
  unfold modify
  split
  · rename_i hnone
    split_ifs with hk
    · rw [hk, hnone]
      rfl
    · rfl
  · rename_i hsome
    rw [get?_insert, hsome]
    rfl

/-- A change that is made once or more. -/
theorem get?_foldl_modify {f : ν → ν} (hf : ∀ v, f (f v) = f v) (ks : List κ) :
    (ks.foldl (fun m k ↦ m.modify k f) m).get? k' =
      if k' ∈ ks then (m.get? k').map f else m.get? k' := by
  induction ks generalizing m with
  | nil => rfl
  | cons k ks ih =>
    rw [List.foldl_cons, ih, get?_modify]
    by_cases hk : k' = k
    · subst hk
      have hmem : k' ∈ k' :: ks := List.mem_cons_self
      rw [if_pos rfl, if_pos hmem]
      split
      next =>
        rw [Option.map_map]
        exact Option.map_congr fun v _ ↦ hf v
      next => rfl
    · rw [if_neg hk]
      exact if_congr (by rw [List.mem_cons, or_iff_right hk]) rfl rfl

theorem erase_of_get?_none (h : m.get? k = none) : m.erase k = m := by
  refine ext (List.filter_eq_self.mpr fun e he ↦ decide_eq_true fun hk ↦ ?_)
  have hget : m.get? e.1 = some e.2 := get?_eq_some_iff.mpr he
  rw [hk, h] at hget
  cases hget

@[simp] theorem get?_empty : (empty : OrderedMap κ ν).get? k = none := rfl

/-- Maps are equal if their keys have the same values. -/
theorem ext_get? {m m' : OrderedMap κ ν} (h : ∀ k, m.get? k = m'.get? k) : m = m' := by
  have hnodup (m : OrderedMap κ ν) : m.entries.Nodup :=
    List.Nodup.of_map Prod.fst (m.sorted.imp ne_of_lt)
  have hsorted (m : OrderedMap κ ν) : m.entries.Pairwise fun e e' ↦ e.1 < e'.1 :=
    List.pairwise_map.mp m.sorted
  refine ext (List.Perm.eq_of_pairwise (fun e e' _ _ hlt hlt' ↦ absurd hlt' hlt.asymm) (hsorted m)
    (hsorted m') ?_)
  refine (List.perm_ext_iff_of_nodup (hnodup m) (hnodup m')).mpr fun e ↦ ?_
  rw [← get?_eq_some_iff, h, get?_eq_some_iff]

theorem insert_insert : (m.insert k v).insert k v' = m.insert k v' := by
  refine ext_get? fun k' ↦ ?_
  rw [get?_insert, get?_insert, get?_insert]
  split_ifs <;> rfl

theorem insert_of_get? (h : m.get? k = some v) : m.insert k v = m := by
  refine ext_get? fun k' ↦ ?_
  rw [get?_insert]
  split_ifs with hk
  · rw [hk, h]
  · rfl

theorem modify_modify {f g : ν → ν} : (m.modify k f).modify k g = m.modify k (g ∘ f) := by
  refine ext_get? fun k' ↦ ?_
  simp only [get?_modify, if_true, Option.map_map]
  split_ifs <;> rfl

theorem modify_eq_self_iff {f : ν → ν} : m.modify k f = m ↔ ∀ v, m.get? k = some v → f v = v := by
  constructor
  · intro h v hv
    have hget : (m.modify k f).get? k = m.get? k := by rw [h]
    rw [get?_modify, if_pos rfl, hv] at hget
    exact Option.some.inj hget
  · intro h
    refine ext_get? fun k' ↦ ?_
    rw [get?_modify]
    split_ifs with hk
    · subst hk
      cases hv : m.get? k' with
      | none => rfl
      | some v => exact congrArg some (h v hv)
    · rfl

theorem modify_modify_eq_iff {f g : ν → ν} :
    (m.modify k g).modify k f = m.modify k g ↔ ∀ v, m.get? k = some v → f (g v) = g v := by
  rw [modify_eq_self_iff, get?_modify, if_pos rfl]
  constructor
  · exact fun h v hv ↦ h (g v) (by rw [hv]; rfl)
  · intro h v hv
    obtain ⟨w, hw, rfl⟩ := Option.map_eq_some_iff.mp hv
    exact h w hw

theorem insert_eq_self_iff (h : m.get? k = some v) : m.insert k v' = m ↔ v' = v := by
  constructor
  · intro heq
    have hget : (m.insert k v').get? k = m.get? k := by rw [heq]
    rw [get?_insert, if_pos rfl, h] at hget
    exact Option.some.inj hget
  · rintro rfl
    exact insert_of_get? h

theorem get?_foldl_erase {ks : List κ} :
    (ks.foldl erase m).get? k = if k ∈ ks then none else m.get? k := by
  induction ks generalizing m with
  | nil => rfl
  | cons k' ks ih =>
    rw [List.foldl_cons, ih, get?_erase]
    by_cases hks : k ∈ ks
    · rw [if_pos hks, if_pos (List.mem_cons_of_mem k' hks)]
    · rw [if_neg hks]
      simp [hks]

/-! ### Gathering under keys -/

section Gather

variable {α : Type} {key : α → κ} {join : ν → α → ν} {start : ν}

/-- An element joins what is there under its key. -/
def gather (key : α → κ) (join : ν → α → ν) (start : ν) (m : OrderedMap κ ν) (a : α) :
    OrderedMap κ ν :=
  m.insert (key a) (join ((m.get? (key a)).getD start) a)

/-- Under a key are the elements of that key, joined in their order. -/
theorem get?_foldl_gather {as : List α} :
    (as.foldl (gather key join start) m).get? k =
      if as.filter (key · = k) = [] then m.get? k
      else some ((as.filter (key · = k)).foldl join ((m.get? k).getD start)) := by
  induction as generalizing m with
  | nil => rfl
  | cons a as ih =>
    rw [List.foldl_cons, ih, gather, get?_insert]
    by_cases ha : key a = k
    · subst ha
      rw [if_pos rfl, List.filter_cons_of_pos (by simp), if_neg (List.cons_ne_nil _ _),
        List.foldl_cons, Option.getD_some]
      split
      · next hnil => rw [hnil]; rfl
      · rfl
    · rw [if_neg (Ne.symm ha), List.filter_cons_of_neg (by simpa using ha)]

end Gather

end OrderedMap

/-- Elements in their order. -/
structure OrderedSet (κ : Type) [LinearOrder κ] where
  elements : List κ
  sorted : elements.Pairwise (· < ·)
  deriving DecidableEq

namespace OrderedSet

variable {κ : Type} [LinearOrder κ] {s : OrderedSet κ} {a b : κ}

def empty : OrderedSet κ := ⟨[], .nil⟩

instance : Membership κ (OrderedSet κ) := ⟨fun s a ↦ a ∈ s.elements⟩

instance : Decidable (a ∈ s) := inferInstanceAs (Decidable (a ∈ s.elements))

/-- The element takes its place unless it is there. -/
def insertElement (a : κ) : List κ → List κ
  | [] => [a]
  | b :: bs => if a < b then a :: b :: bs else if a = b then b :: bs
      else b :: insertElement a bs

theorem mem_insertElement {bs : List κ} : b ∈ insertElement a bs ↔ b = a ∨ b ∈ bs := by
  induction bs with
  | nil => simp [insertElement]
  | cons c bs ih =>
    unfold insertElement
    split_ifs with hlt heq
    · exact List.mem_cons
    · subst heq
      simp
    · rw [List.mem_cons, ih, List.mem_cons, or_left_comm]

theorem sorted_insertElement {bs : List κ} (h : bs.Pairwise (· < ·)) :
    (insertElement a bs).Pairwise (· < ·) := by
  induction bs with
  | nil => exact List.pairwise_singleton ..
  | cons c bs ih =>
    obtain ⟨hc, hbs⟩ := List.pairwise_cons.mp h
    unfold insertElement
    split_ifs with hlt heq
    · refine List.pairwise_cons.mpr ⟨fun b hb ↦ ?_, h⟩
      rcases List.mem_cons.mp hb with rfl | hb
      · exact hlt
      · exact hlt.trans (hc b hb)
    · exact h
    · refine List.pairwise_cons.mpr ⟨fun b hb ↦ ?_, ih hbs⟩
      rcases mem_insertElement.mp hb with rfl | hb
      · exact lt_of_le_of_ne (not_lt.mp hlt) (Ne.symm heq)
      · exact hc b hb

def insert (s : OrderedSet κ) (a : κ) : OrderedSet κ :=
  ⟨insertElement a s.elements, sorted_insertElement s.sorted⟩

def erase (s : OrderedSet κ) (a : κ) : OrderedSet κ :=
  ⟨s.elements.filter (· ≠ a), s.sorted.sublist List.filter_sublist⟩

theorem mem_insert : b ∈ s.insert a ↔ b = a ∨ b ∈ s := mem_insertElement

theorem mem_erase : b ∈ s.erase a ↔ b ∈ s ∧ b ≠ a := by
  change b ∈ s.elements.filter (· ≠ a) ↔ _
  rw [List.mem_filter, decide_eq_true_iff]
  rfl

theorem notMem_erase : b ∉ s.erase a ↔ b ∉ s ∨ b = a := by
  rw [mem_erase, not_and_or, not_not]

theorem erase_of_notMem (h : a ∉ s) : s.erase a = s := by
  obtain ⟨elements, sorted⟩ := s
  unfold erase
  congr 1
  exact List.filter_eq_self.mpr fun b hb ↦ decide_eq_true fun hba ↦ h (hba ▸ hb)

theorem mem_foldl_erase {as : List κ} : b ∈ as.foldl erase s ↔ b ∈ s ∧ b ∉ as := by
  induction as generalizing s with
  | nil => simp
  | cons a as ih =>
    rw [List.foldl_cons, ih, mem_erase, List.mem_cons, not_or, and_assoc]

@[simp] theorem not_mem_empty : a ∉ (empty : OrderedSet κ) := List.not_mem_nil

end OrderedSet

end Praxis.Foundation
