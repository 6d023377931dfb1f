import Mathlib.Data.Nat.Digits.Lemmas
import Praxis.Foundation.PrefixCode

/-!
# Compact JSON text

Values and the text a compact JSON writer produces for them: no white space,
fields in the order given, strings with the short escapes for the seven
characters that have one, `\u00xx` for the other control characters and every
other byte as it is.  Strings are given by their UTF-8 bytes and numbers are the
integers of sixty-four bits, signed or unsigned.

The text of a value is not self-delimiting: a number can be continued by more
digits.  It is self-delimiting in front of anything that does not start with a
digit (`Json.render_append_inj`), which is all that commas and brackets need, and
so the text determines the value (`Json.render_injective`).  `Json.size` bounds
its length.
-/

namespace Praxis.Foundation

/-! ## Values -/

/-- An integer that fits sixty-four bits, signed or unsigned. -/
structure Json.Number where
  /-- The integer. -/
  val : Int
  /-- It fits an `i64`, or else -/
  ge : -2 ^ 63 ≤ val
  /-- it fits a `u64`. -/
  lt : val < 2 ^ 64
deriving DecidableEq

/-- A JSON value without fractional numbers. -/
inductive Json where
  | null
  | bool (b : Bool)
  | number (n : Json.Number)
  | string (utf8 : Bytes)
  | array (items : List Json)
  | object (fields : List (Bytes × Json))

namespace Json

/-! ## Strings -/

/-- A lower-case hexadecimal digit. -/
def hexDigit (n : Nat) : UInt8 :=
  if n < 10 then UInt8.ofNat (0x30 + n) else UInt8.ofNat (0x57 + n)

theorem hexDigit_inj : ∀ m n : Fin 16, hexDigit m = hexDigit n → m = n := by decide

/-- A byte in hexadecimal. -/
def hexByte (b : UInt8) : Bytes := [hexDigit (b.toNat / 16), hexDigit (b.toNat % 16)]

theorem hexByte_injective : Function.Injective hexByte := by
  intro a b h
  simp only [hexByte, List.cons.injEq, and_true] at h
  have ha : a.toNat / 16 < 16 := by have := a.toNat_lt; omega
  have hb : b.toNat / 16 < 16 := by have := b.toNat_lt; omega
  have hhigh := hexDigit_inj ⟨_, ha⟩ ⟨_, hb⟩ h.1
  have hlow := hexDigit_inj ⟨_, Nat.mod_lt _ (by decide)⟩ ⟨_, Nat.mod_lt _ (by decide)⟩ h.2
  simp only [Fin.mk.injEq] at hhigh hlow
  rw [← UInt8.toNat_inj]
  omega

/-- The characters with an escape of two characters, and its second one. -/
def shortEscapes : List (UInt8 × UInt8) :=
  [(0x22, 0x22), (0x5C, 0x5C), (0x08, 0x62), (0x0C, 0x66), (0x0A, 0x6E), (0x0D, 0x72),
    (0x09, 0x74)]

/-- What a byte of a string is written as. -/
def escape (b : UInt8) : Bytes :=
  match shortEscapes.lookup b with
  | some c => [0x5C, c]
  | none => if b < 0x20 then 0x5C :: 0x75 :: 0x30 :: 0x30 :: hexByte b else [b]

/-- The three ways a byte is written. -/
inductive Escapes (b : UInt8) : Bytes → Prop
  | short {c : UInt8} (h : (b, c) ∈ shortEscapes) : Escapes b [0x5C, c]
  | control : Escapes b (0x5C :: 0x75 :: 0x30 :: 0x30 :: hexByte b)
  | plain (quote : b ≠ 0x22) (backslash : b ≠ 0x5C) : Escapes b [b]

theorem escapes_escape (b : UInt8) : Escapes b (escape b) := by
  unfold escape
  split
  · rename_i c h
    obtain ⟨as, bs, heq, -⟩ := List.lookup_eq_some_iff.mp h
    exact .short (by rw [heq]; simp)
  · rename_i h
    split
    · exact .control
    · refine .plain ?_ ?_
      · rintro rfl
        exact absurd h (by decide)
      · rintro rfl
        exact absurd h (by decide)

theorem selfDelimiting_escape : SelfDelimiting escape := by
  have hinj : ∀ p ∈ shortEscapes, ∀ q ∈ shortEscapes, p.2 = q.2 → p.1 = q.1 := by
    simp [shortEscapes]
  have hcontrol : ∀ p ∈ shortEscapes, p.2 ≠ 0x75 := by simp [shortEscapes]
  intro a b s t h
  have ha := escapes_escape a
  have hb := escapes_escape b
  generalize escape a = x at ha h
  generalize escape b = y at hb h
  cases ha with
  | short ha =>
    cases hb with
    | short hb =>
      simp only [List.cons_append, List.nil_append, List.cons.injEq, true_and] at h
      exact ⟨hinj _ ha _ hb h.1, h.2⟩
    | control => exact absurd (List.cons.inj (List.cons.inj h).2).1 (hcontrol _ ha)
    | plain _ hb => exact absurd (List.cons.inj h).1.symm hb
  | control =>
    cases hb with
    | short hb => exact absurd (List.cons.inj (List.cons.inj h).2).1.symm (hcontrol _ hb)
    | control =>
      simp only [List.cons_append, List.cons.injEq, true_and] at h
      obtain ⟨hhex, hst⟩ := List.append_inj h rfl
      exact ⟨hexByte_injective hhex, hst⟩
    | plain _ hb => exact absurd (List.cons.inj h).1.symm hb
  | plain _ ha =>
    cases hb with
    | short => exact absurd (List.cons.inj h).1 ha
    | control => exact absurd (List.cons.inj h).1 ha
    | plain => exact ⟨(List.cons.inj h).1, (List.cons.inj h).2⟩

/-- No byte of a string looks like its closing quote. -/
theorem escape_append_ne (b : UInt8) (s t : Bytes) : escape b ++ s ≠ 0x22 :: t := by
  have hb := escapes_escape b
  generalize escape b = x at hb
  cases hb with
  | short => exact fun h ↦ absurd (List.cons.inj h).1 (by decide)
  | control => exact fun h ↦ absurd (List.cons.inj h).1 (by decide)
  | plain hb => exact fun h ↦ absurd (List.cons.inj h).1 hb

theorem escape_length_le (b : UInt8) : (escape b).length ≤ 6 := by
  have hb := escapes_escape b
  generalize escape b = x at hb
  cases hb <;> simp [hexByte]

/-- A string in quotes. -/
def quote (utf8 : Bytes) : Bytes := 0x22 :: (utf8.flatMap escape ++ [0x22])

theorem selfDelimiting_quote : SelfDelimiting quote := by
  intro a b s t h
  simp only [quote, List.cons_append, List.append_assoc, List.nil_append, List.cons.injEq,
    true_and] at h
  exact selfDelimiting_escape.flatMap_terminated escape_append_ne a b s t h

theorem quote_length_le (utf8 : Bytes) : (quote utf8).length ≤ 2 + 6 * utf8.length := by
  have hsum : (utf8.flatMap escape).length ≤ 6 * utf8.length := by
    induction utf8 with
    | nil => simp
    | cons b utf8 ih =>
      have := escape_length_le b
      simp only [List.flatMap_cons, List.length_append, List.length_cons]
      omega
  simp only [quote, List.length_cons, List.length_append, List.length_nil]
  omega

/-! ## Numbers -/

/-- The decimal digits of a number, most significant first. -/
def decimal (n : Nat) : Bytes :=
  if n = 0 then [0x30] else ((Nat.digits 10 n).map fun d ↦ UInt8.ofNat (0x30 + d)).reverse

/-- An ASCII digit. -/
def isDigit (b : UInt8) : Bool := 0x30 ≤ b && b ≤ 0x39

/-- The text does not continue a number. -/
def Stops (s : Bytes) : Prop := ∀ b ∈ s.head?, isDigit b = false

theorem stops_nil : Stops [] := nofun

theorem stops_cons {b : UInt8} {s : Bytes} (h : isDigit b = false) : Stops (b :: s) := by
  rintro _ ⟨⟩
  exact h

private theorem toNat_ofNat_digit {d : Nat} (h : d < 10) : (UInt8.ofNat (0x30 + d)).toNat = 0x30 + d :=
  UInt8.toNat_ofNat_of_lt' (by unfold UInt8.size; omega)

theorem isDigit_of_mem_decimal {n : Nat} {b : UInt8} (h : b ∈ decimal n) : isDigit b = true := by
  unfold decimal at h
  split at h
  · rw [List.mem_singleton.mp h]
    rfl
  · rw [List.mem_reverse, List.mem_map] at h
    obtain ⟨d, hd, rfl⟩ := h
    have hd := Nat.digits_lt_base (by decide) hd
    have hval := toNat_ofNat_digit hd
    simp only [isDigit, Bool.and_eq_true, decide_eq_true_eq, UInt8.le_iff_toNat_le, hval]
    exact ⟨Nat.le_add_right _ _, by simp; omega⟩

theorem decimal_ne_nil (n : Nat) : decimal n ≠ [] := by
  unfold decimal
  split
  · simp
  · rename_i h
    rw [ne_eq, List.reverse_eq_nil_iff, List.map_eq_nil_iff]
    exact Nat.digits_ne_nil_iff_ne_zero.mpr h

/-- Decimal text read as a number. -/
private theorem ofDigits_decimal (n : Nat) :
    Nat.ofDigits 10 ((decimal n).reverse.map fun b ↦ b.toNat - 0x30) = n := by
  unfold decimal
  split
  · rename_i h
    rw [h]
    rfl
  · rw [List.reverse_reverse, List.map_map]
    have hdigits : (Nat.digits 10 n).map ((fun b : UInt8 ↦ b.toNat - 0x30) ∘
        fun d ↦ UInt8.ofNat (0x30 + d)) = Nat.digits 10 n := by
      refine (List.map_congr_left fun d hd ↦ ?_).trans (List.map_id _)
      rw [Function.comp_apply, toNat_ofNat_digit (Nat.digits_lt_base (by decide) hd)]
      exact Nat.add_sub_cancel_left _ _
    rw [hdigits, Nat.ofDigits_digits]

theorem decimal_injective : Function.Injective decimal := by
  intro m n h
  rw [← ofDigits_decimal m, h, ofDigits_decimal]

theorem decimal_append_inj {m n : Nat} {s t : Bytes} (hs : Stops s) (ht : Stops t)
    (h : decimal m ++ s = decimal n ++ t) : m = n ∧ s = t := by
  have hspan : ∀ (k : Nat) {r : Bytes}, Stops r → (decimal k ++ r).takeWhile isDigit = decimal k := by
    intro k r hr
    rw [List.takeWhile_append_of_pos fun b hb ↦ isDigit_of_mem_decimal hb]
    cases r with
    | nil => simp
    | cons b r => simp [hr b rfl]
  have hmn : decimal m = decimal n := by
    rw [← hspan m hs, h, hspan n ht]
  exact ⟨decimal_injective hmn, List.append_cancel_left (hmn ▸ h)⟩

theorem decimal_length_le {n k : Nat} (h : n < 10 ^ (k + 1)) : (decimal n).length ≤ k + 1 := by
  unfold decimal
  split
  · simp
  · rw [List.length_reverse, List.length_map]
    exact (Nat.digits_length_le_iff (by decide) _).mpr h

namespace Number

/-- A number with its sign. -/
def render (n : Number) : Bytes :=
  if n.val < 0 then 0x2D :: decimal n.val.natAbs else decimal n.val.natAbs

/-- A number starts with a minus sign or a digit. -/
theorem exists_render_eq_cons (n : Number) :
    ∃ b bs, n.render = b :: bs ∧ (b = 0x2D ∨ isDigit b = true) := by
  unfold render
  split
  · exact ⟨_, _, rfl, .inl rfl⟩
  · obtain ⟨b, bs, h⟩ := List.exists_cons_of_ne_nil (decimal_ne_nil n.val.natAbs)
    exact ⟨b, bs, h, .inr (isDigit_of_mem_decimal (h ▸ List.mem_cons_self))⟩

theorem render_append_ne (n : Number) {b : UInt8} (h : b ≠ 0x2D) (hb : isDigit b = false)
    (s t : Bytes) : n.render ++ s ≠ b :: t := by
  obtain ⟨c, cs, hcs, hc⟩ := n.exists_render_eq_cons
  rw [hcs]
  intro e
  obtain rfl := (List.cons.inj e).1
  rcases hc with rfl | hc
  · exact h rfl
  · exact absurd hc (by rw [hb]; decide)

theorem render_append_inj {m n : Number} {s t : Bytes} (hs : Stops s) (ht : Stops t)
    (h : m.render ++ s = n.render ++ t) : m = n ∧ s = t := by
  have hne : ∀ (k : Nat) (r u : Bytes), decimal k ++ r ≠ 0x2D :: u := by
    intro k r u e
    obtain ⟨b, bs, hbs⟩ := List.exists_cons_of_ne_nil (decimal_ne_nil k)
    have hb := isDigit_of_mem_decimal (hbs ▸ List.mem_cons_self : b ∈ decimal k)
    rw [hbs] at e
    rw [(List.cons.inj e).1] at hb
    exact absurd hb (by decide)
  have hval : m.val = n.val ∧ s = t := by
    unfold render at h
    split at h <;> split at h
    · obtain ⟨habs, hst⟩ := decimal_append_inj hs ht (List.cons.inj h).2
      exact ⟨by omega, hst⟩
    · exact absurd h.symm (hne _ _ _)
    · exact absurd h (hne _ _ _)
    · obtain ⟨habs, hst⟩ := decimal_append_inj hs ht h
      exact ⟨by omega, hst⟩
  obtain ⟨m, _, _⟩ := m
  obtain ⟨n, _, _⟩ := n
  obtain ⟨rfl, hst⟩ := hval
  exact ⟨rfl, hst⟩

theorem render_length_le (n : Number) : n.render.length ≤ 20 := by
  have hge := n.ge
  have hlt := n.lt
  unfold render
  split
  · have := decimal_length_le (n := n.val.natAbs) (k := 18) (by omega)
    rw [List.length_cons]
    omega
  · exact decimal_length_le (k := 19) (by omega)

end Number

/-! ## Values -/

mutual

/-- The text of a value. -/
def render : Json → Bytes
  | .null => [0x6E, 0x75, 0x6C, 0x6C]
  | .bool true => [0x74, 0x72, 0x75, 0x65]
  | .bool false => [0x66, 0x61, 0x6C, 0x73, 0x65]
  | .number n => n.render
  | .string utf8 => quote utf8
  | .array [] => [0x5B, 0x5D]
  | .array (item :: items) => 0x5B :: (item.render ++ renderItems items)
  | .object [] => [0x7B, 0x7D]
  | .object ((name, value) :: fields) =>
      0x7B :: (quote name ++ 0x3A :: (value.render ++ renderFields fields))

/-- The rest of an array behind one of its items. -/
def renderItems : List Json → Bytes
  | [] => [0x5D]
  | item :: items => 0x2C :: (item.render ++ renderItems items)

/-- The rest of an object behind one of its fields. -/
def renderFields : List (Bytes × Json) → Bytes
  | [] => [0x7D]
  | (name, value) :: fields =>
      0x2C :: (quote name ++ 0x3A :: (value.render ++ renderFields fields))

end

theorem stops_renderItems (items : List Json) (s : Bytes) : Stops (renderItems items ++ s) := by
  cases items <;> rw [renderItems] <;> exact stops_cons (by decide)

theorem stops_renderFields (fields : List (Bytes × Json)) (s : Bytes) :
    Stops (renderFields fields ++ s) := by
  rcases fields with _ | ⟨⟨name, value⟩, fields⟩ <;> rw [renderFields] <;>
    exact stops_cons (by decide)

/-- The constructor of a value. -/
inductive Kind where
  | null | bool | number | string | array | object
deriving DecidableEq

def kind : Json → Kind
  | .null => .null
  | .bool _ => .bool
  | .number _ => .number
  | .string _ => .string
  | .array _ => .array
  | .object _ => .object

/-- The kind of value a text starts. -/
def kindAt (b : UInt8) : Kind :=
  if b = 0x6E then .null
  else if b = 0x74 ∨ b = 0x66 then .bool
  else if b = 0x22 then .string
  else if b = 0x5B then .array
  else if b = 0x7B then .object
  else .number

theorem kindAt_of_isDigit {b : UInt8} (h : isDigit b = true) : kindAt b = .number := by
  unfold kindAt
  split_ifs with h₁ h₂ h₃ h₄ h₅
  · exact absurd h (by rw [h₁]; decide)
  · rcases h₂ with rfl | rfl <;> exact absurd h (by decide)
  · exact absurd h (by rw [h₃]; decide)
  · exact absurd h (by rw [h₄]; decide)
  · exact absurd h (by rw [h₅]; decide)
  · rfl

/-- The first character of a text tells the kind of its value. -/
theorem exists_render_eq_cons (v : Json) : ∃ b bs, v.render = b :: bs ∧ kindAt b = v.kind := by
  rcases v with _ | (_ | _) | n | _ | (_ | _) | (_ | ⟨⟨_, _⟩, _⟩)
  case number =>
    obtain ⟨b, bs, hbs, hb⟩ := n.exists_render_eq_cons
    rw [render]
    refine ⟨b, bs, hbs, ?_⟩
    rcases hb with rfl | hb
    · rfl
    · exact kindAt_of_isDigit hb
  all_goals
    rw [render]
    exact ⟨_, _, rfl, rfl⟩

theorem kind_eq_of_render_append {v w : Json} {s t : Bytes}
    (h : v.render ++ s = w.render ++ t) : v.kind = w.kind := by
  obtain ⟨b, bs, hb, hv⟩ := v.exists_render_eq_cons
  obtain ⟨c, cs, hc, hw⟩ := w.exists_render_eq_cons
  rw [hb, hc] at h
  rw [← hv, ← hw, (List.cons.inj h).1]

/-- No text starts with a closing bracket. -/
theorem render_append_ne (v : Json) {b : UInt8} (hb : b = 0x5D ∨ b = 0x7D) (s t : Bytes) :
    v.render ++ s ≠ b :: t := by
  intro h
  obtain ⟨c, cs, hc, hkind⟩ := v.exists_render_eq_cons
  have hcb : c = b := by
    rw [hc] at h
    exact (List.cons.inj h).1
  have hnumber : v.kind = .number := by
    rw [← hkind, hcb]
    rcases hb with rfl | rfl <;> rfl
  rcases v with _ | _ | n | _ | _ | _ <;> cases hnumber
  rw [render] at h
  refine n.render_append_ne ?_ ?_ s t h <;> rcases hb with rfl | rfl <;> decide

mutual

/-- **The text of a value is self-delimiting** in front of anything that does not
continue a number. -/
theorem render_append_inj : ∀ (v w : Json) {s t : Bytes}, Stops s → Stops t →
    v.render ++ s = w.render ++ t → v = w ∧ s = t
  | .null, w, s, t, _, _, h => by
    have hkind := kind_eq_of_render_append h
    cases w <;> cases hkind
    exact ⟨rfl, List.append_cancel_left h⟩
  | .bool a, w, s, t, _, _, h => by
    have hkind := kind_eq_of_render_append h
    rcases w with _ | b | _ | _ | _ | _ <;> cases hkind
    cases a <;> cases b <;> simp_all [render]
  | .number m, w, s, t, hs, ht, h => by
    have hkind := kind_eq_of_render_append h
    rcases w with _ | _ | n | _ | _ | _ <;> cases hkind
    rw [render, render] at h
    obtain ⟨rfl, rfl⟩ := Number.render_append_inj hs ht h
    exact ⟨rfl, rfl⟩
  | .string a, w, s, t, _, _, h => by
    have hkind := kind_eq_of_render_append h
    rcases w with _ | _ | _ | b | _ | _ <;> cases hkind
    rw [render, render] at h
    obtain ⟨rfl, rfl⟩ := selfDelimiting_quote _ _ _ _ h
    exact ⟨rfl, rfl⟩
  | .array as, w, s, t, hs, ht, h => by
    have hkind := kind_eq_of_render_append h
    rcases w with _ | _ | _ | _ | bs | _ <;> cases hkind
    match as, bs, h with
    | [], [], h => exact ⟨rfl, List.append_cancel_left h⟩
    | [], b :: bs, h =>
      simp only [render, List.cons_append, List.append_assoc, List.cons.injEq, true_and] at h
      exact absurd h.symm (render_append_ne _ (.inl rfl) _ _)
    | a :: as, [], h =>
      simp only [render, List.cons_append, List.append_assoc, List.cons.injEq, true_and] at h
      exact absurd h (render_append_ne _ (.inl rfl) _ _)
    | a :: as, b :: bs, h =>
      simp only [render, List.cons_append, List.append_assoc, List.cons.injEq, true_and] at h
      obtain ⟨rfl, h'⟩ := render_append_inj a b (stops_renderItems _ _) (stops_renderItems _ _) h
      obtain ⟨rfl, rfl⟩ := renderItems_append_inj as bs h'
      exact ⟨rfl, rfl⟩
  | .object as, w, s, t, hs, ht, h => by
    have hkind := kind_eq_of_render_append h
    rcases w with _ | _ | _ | _ | _ | bs <;> cases hkind
    match as, bs, h with
    | [], [], h => exact ⟨rfl, List.append_cancel_left h⟩
    | [], (_, _) :: bs, h => simp [render, quote] at h
    | (_, _) :: as, [], h => simp [render, quote] at h
    | (n, a) :: as, (m, b) :: bs, h =>
      simp only [render, List.cons_append, List.append_assoc, List.cons.injEq, true_and,
        selfDelimiting_quote.append_eq_iff] at h
      obtain ⟨rfl, h⟩ := h
      obtain ⟨rfl, h'⟩ := render_append_inj a b (stops_renderFields _ _) (stops_renderFields _ _) h
      obtain ⟨rfl, rfl⟩ := renderFields_append_inj as bs h'
      exact ⟨rfl, rfl⟩

theorem renderItems_append_inj : ∀ (as bs : List Json) {s t : Bytes},
    renderItems as ++ s = renderItems bs ++ t → as = bs ∧ s = t
  | [], [], _, _, h => ⟨rfl, by simpa [renderItems] using h⟩
  | [], _ :: _, _, _, h => by simp [renderItems] at h
  | _ :: _, [], _, _, h => by simp [renderItems] at h
  | a :: as, b :: bs, s, t, h => by
    simp only [renderItems, List.cons_append, List.append_assoc, List.cons.injEq, true_and] at h
    obtain ⟨rfl, h'⟩ := render_append_inj a b (stops_renderItems _ _) (stops_renderItems _ _) h
    obtain ⟨rfl, rfl⟩ := renderItems_append_inj as bs h'
    exact ⟨rfl, rfl⟩

theorem renderFields_append_inj : ∀ (as bs : List (Bytes × Json)) {s t : Bytes},
    renderFields as ++ s = renderFields bs ++ t → as = bs ∧ s = t
  | [], [], _, _, h => ⟨rfl, by simpa [renderFields] using h⟩
  | [], (_, _) :: _, _, _, h => by simp [renderFields] at h
  | (_, _) :: _, [], _, _, h => by simp [renderFields] at h
  | (n, a) :: as, (m, b) :: bs, s, t, h => by
    simp only [renderFields, List.cons_append, List.append_assoc, List.cons.injEq, true_and,
      selfDelimiting_quote.append_eq_iff] at h
    obtain ⟨rfl, h⟩ := h
    obtain ⟨rfl, h'⟩ := render_append_inj a b (stops_renderFields _ _) (stops_renderFields _ _) h
    obtain ⟨rfl, rfl⟩ := renderFields_append_inj as bs h'
    exact ⟨rfl, rfl⟩

end

/-- The text of a value determines it. -/
theorem render_injective : Function.Injective render := by
  intro v w h
  exact (render_append_inj v w stops_nil stops_nil (by rw [h])).1

/-! ## Length -/

mutual

/-- A bound on the length of a text that looks at no digit and no character. -/
def size : Json → Nat
  | .null => 4
  | .bool _ => 5
  | .number _ => 20
  | .string utf8 => 2 + 6 * utf8.length
  | .array items => 2 + sizeItems items
  | .object fields => 2 + sizeFields fields

def sizeItems : List Json → Nat
  | [] => 0
  | item :: items => 1 + item.size + sizeItems items

def sizeFields : List (Bytes × Json) → Nat
  | [] => 0
  | (name, value) :: fields => 4 + 6 * name.length + value.size + sizeFields fields

end

mutual

theorem render_length_le : ∀ v : Json, v.render.length ≤ v.size
  | .null => by simp [render, size]
  | .bool true => by simp [render, size]
  | .bool false => by simp [render, size]
  | .number n => by
    rw [render, size]
    exact n.render_length_le
  | .string utf8 => by
    rw [render, size]
    exact quote_length_le utf8
  | .array [] => by simp [render, size, sizeItems]
  | .array (item :: items) => by
    have hitem := render_length_le item
    have hitems := renderItems_length_le items
    simp only [render, size, sizeItems, List.length_cons, List.length_append]
    omega
  | .object [] => by simp [render, size, sizeFields]
  | .object ((name, value) :: fields) => by
    have hname := quote_length_le name
    have hvalue := render_length_le value
    have hfields := renderFields_length_le fields
    simp only [render, size, sizeFields, List.length_cons, List.length_append]
    omega

theorem renderItems_length_le : ∀ items : List Json,
    (renderItems items).length ≤ 1 + sizeItems items
  | [] => by simp [renderItems, sizeItems]
  | item :: items => by
    have hitem := render_length_le item
    have hitems := renderItems_length_le items
    simp only [renderItems, sizeItems, List.length_cons, List.length_append]
    omega

theorem renderFields_length_le : ∀ fields : List (Bytes × Json),
    (renderFields fields).length ≤ 1 + sizeFields fields
  | [] => by simp [renderFields, sizeFields]
  | (name, value) :: fields => by
    have hname := quote_length_le name
    have hvalue := render_length_le value
    have hfields := renderFields_length_le fields
    simp only [renderFields, sizeFields, List.length_cons, List.length_append]
    omega

end

end Json

end Praxis.Foundation
