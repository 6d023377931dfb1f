import Mathlib
import Praxis.Foundation.Fallible
import Praxis.Foundation.Rust
import Praxis.Network.Constraints

/-!
# What the managed constraints guarantee

In the subset mode a pattern is accepted if a managed pattern allows it, and the hosts that
the pattern matches should then be matched by the managed patterns.  The comparison is made
on names as `parseForConstraints` reads them, the matching on names as they are compiled
(`compiled`).  The two readings differ for a name that the `url` crate rewrites (an IPv4
address in a short spelling) or rejects: all names that it rejects are one to the comparison.

`Kept` is what the guarantee needs: what was accepted is allowed also as it is compiled,
part by part, and a name that is accepted as a subdomain does not match with an empty first
label.  For patterns without wildcards in their names it is all that the guarantee says.
-/

namespace Praxis.Network

open Foundation

/-! ## Names -/

/-- A letter, a digit, a hyphen, a wildcard, or the dot between two labels. -/
def nameChar (c : Char) : Prop :=
  c.isAlphanum = true ∨ c = '-' ∨ c = '*' ∨ c = '?' ∨ c = '.'

/-- The names the guarantee is about: labels with dots between them, of which none is
empty. -/
structure IsDomain (domain : Text) : Prop where
  ne_nil : domain ≠ []
  chars : ∀ c ∈ domain, nameChar c
  head : domain.head? ≠ some '.'
  last : domain.getLast? ≠ some '.'
  apart : ¬ ['.', '.'] <:+: domain

theorem nameChar_code {c : Char} (h : nameChar c) :
    (65 ≤ c.toNat ∧ c.toNat ≤ 90) ∨ (97 ≤ c.toNat ∧ c.toNat ≤ 122) ∨
      (48 ≤ c.toNat ∧ c.toNat ≤ 57) ∨ c = '-' ∨ c = '*' ∨ c = '?' ∨ c = '.' := by
  rcases h with h | h | h | h | h
  · simp only [Char.isAlphanum, Char.isAlpha, Char.isUpper, Char.isLower, Char.isDigit,
      Bool.or_eq_true, Bool.and_eq_true, decide_eq_true_eq, UInt32.le_iff_toNat_le,
      ge_iff_le] at h
    change ((65 ≤ c.toNat ∧ c.toNat ≤ 90) ∨ (97 ≤ c.toNat ∧ c.toNat ≤ 122)) ∨
      (48 ≤ c.toNat ∧ c.toNat ≤ 57) at h
    omega
  all_goals subst h; simp

theorem isWhitespace_nameChar {c : Char} (h : nameChar c) : Context.isWhitespace c = false := by
  rcases nameChar_code h with h | h | h | h | h | h | h
  · simp [Context.isWhitespace]
    omega
  · simp [Context.isWhitespace]
    omega
  · simp [Context.isWhitespace]
    omega
  all_goals subst h; decide

/-- Lowering does not touch what stands in front of the letters. -/
theorem toLower_eq_iff {c x : Char} (hx : x.toNat < 65) : c.toLower = x ↔ c = x := by
  rcases toLower_code c with ⟨hlow, -, hcode⟩ | h
  · constructor
    · rintro rfl
      omega
    · rintro rfl
      omega
  · rw [h]

theorem nameChar_toLower {c : Char} (h : nameChar c) : nameChar c.toLower := by
  rcases toLower_code c with ⟨hlow, hhigh, hcode⟩ | hsame
  · left
    have halpha : c.toLower.isLower = true := by
      simp only [Char.isLower, Bool.and_eq_true, decide_eq_true_eq, UInt32.le_iff_toNat_le, ge_iff_le]
      change 97 ≤ c.toLower.toNat ∧ c.toLower.toNat ≤ 122
      omega
    simp [Char.isAlphanum, Char.isAlpha, halpha]
  · rw [hsame]
    exact h

theorem toLower_toLower (c : Char) : c.toLower.toLower = c.toLower := by
  rcases toLower_code c with ⟨hlow, hhigh, hcode⟩ | hsame
  · rcases toLower_code c.toLower with ⟨-, hhigh', -⟩ | hsame
    · omega
    · exact hsame
  · rw [hsame, hsame]

@[simp] theorem toAsciiLowercase_idem (text : Text) :
    toAsciiLowercase (toAsciiLowercase text) = toAsciiLowercase text := by
  simp [toAsciiLowercase, toLower_toLower]

theorem trim_of_nameChars {text : Text} (h : ∀ c ∈ text, nameChar c) : trim text = text := by
  have hstart : ∀ text : Text, (∀ c ∈ text, nameChar c) → Context.trimStart text = text := by
    rintro (_ | ⟨c, text⟩) hchars
    · rfl
    · rw [Context.trimStart, List.dropWhile_cons_of_neg]
      rw [isWhitespace_nameChar (hchars c List.mem_cons_self)]
      exact Bool.false_ne_true
  have hreverse := hstart text.reverse fun c hc ↦ h c (List.mem_reverse.mp hc)
  rw [trim, hstart text h, Context.trimEnd, hreverse, List.reverse_reverse]

namespace IsDomain

variable {domain : Text}

/-- What stands behind a first label of stars is a name. -/
theorem of_stars (stars : Text) (h : IsDomain (stars ++ '.' :: domain)) : IsDomain domain := by
  have hne : domain ≠ [] := by
    rintro rfl
    exact h.last (by simp)
  refine ⟨hne, fun c hc ↦ h.chars c (by simp [hc]), ?_, ?_, ?_⟩
  · intro hhead
    obtain ⟨rest, rfl⟩ := List.head?_eq_some_iff.mp hhead
    exact h.apart ⟨stars, rest, by simp⟩
  · intro hlast
    exact h.last (by simp [List.getLast?_append, List.getLast?_cons, hlast])
  · rintro ⟨a, b, rfl⟩
    exact h.apart ⟨stars ++ '.' :: a, b, by simp⟩

theorem trim (h : IsDomain domain) : Network.trim domain = domain := trim_of_nameChars h.chars

theorem trimEndDots (h : IsDomain domain) : Network.trimEndDots domain = domain := by
  rw [Network.trimEndDots, List.rdropWhile_eq_self_iff]
  intro hne hdot
  refine h.last ?_
  rw [List.getLast?_eq_some_getLast hne, of_decide_eq_true hdot]

theorem toAsciiLowercase (h : IsDomain domain) : IsDomain (Network.toAsciiLowercase domain) := by
  have hdot : ∀ c : Char, c.toLower = '.' → c = '.' := fun c ↦ (toLower_eq_iff (by decide)).mp
  refine ⟨?_, ?_, ?_, ?_, ?_⟩
  · simpa [Network.toAsciiLowercase] using h.ne_nil
  · intro c hc
    obtain ⟨c, hmem, rfl⟩ := List.mem_map.mp hc
    exact nameChar_toLower (h.chars c hmem)
  · intro hhead
    rw [Network.toAsciiLowercase, List.head?_map] at hhead
    obtain ⟨c, hc, heq⟩ := Option.map_eq_some_iff.mp hhead
    exact h.head (by rw [hc, hdot c heq])
  · intro hlast
    rw [Network.toAsciiLowercase, List.getLast?_map] at hlast
    obtain ⟨c, hc, heq⟩ := Option.map_eq_some_iff.mp hlast
    exact h.last (by rw [hc, hdot c heq])
  · intro hinfix
    obtain ⟨pair, hpair, heq⟩ := List.infix_map_iff.mp hinfix
    obtain ⟨a, b, rfl⟩ := List.length_eq_two.mp (List.length_map .. ▸ congrArg List.length heq).symm
    rw [List.map_cons, List.map_singleton, List.cons.injEq, List.singleton_inj] at heq
    rw [hdot a heq.1.symm, hdot b heq.2.symm] at hpair
    exact h.apart hpair

end IsDomain

/-! ## Patterns as they are compiled -/

/-- The name of a pattern. -/
def DomainPattern.domain : DomainPattern → Text
  | exact domain | subdomainsOnly domain | apexAndSubdomains domain => domain

/-- The pattern that the globs of an entry are compiled from. -/
def compiled (pattern : Text) : DomainPattern := DomainPattern.parse (normalizePattern pattern)

theorem normalizeHost_of_isDomain {domain : Text} (h : IsDomain domain) :
    normalizeHost domain = toAsciiLowercase domain := by
  have hcode : ∀ c ∈ domain, c ≠ '[' ∧ c ≠ ':' := by
    intro c hc
    constructor
    · rintro rfl
      have := nameChar_code (h.chars _ hc)
      revert this
      decide
    · rintro rfl
      have := nameChar_code (h.chars _ hc)
      revert this
      decide
  have hbracket : ¬ (domain.head? = some '[' ∧ ']' ∈ domain) :=
    fun hb ↦ (hcode _ (List.mem_of_head? hb.1)).1 rfl
  have hport : domain.count ':' ≠ 1 := by
    rw [List.count_eq_zero_of_not_mem fun hmem ↦ (hcode _ hmem).2 rfl]
    decide
  rw [normalizeHost, h.trim, if_neg hbracket, if_neg hport, normalizeDnsHost,
    h.toAsciiLowercase.trimEndDots]

theorem dropPrefix_append (start text : Text) : (start ++ text).dropPrefix? start = some text :=
  List.dropPrefix?_eq_some_iff.mpr ⟨start, rfl, BEq.rfl⟩

theorem eq_append_of_dropPrefix {text start rest : Text} (h : text.dropPrefix? start = some rest) :
    text = start ++ rest := by
  obtain ⟨start', rfl, heq⟩ := List.dropPrefix?_eq_some_iff.mp h
  rw [eq_of_beq heq]

/-- A name keeps its shape when it is lowered. -/
theorem dropPrefix_toAsciiLowercase {text start : Text} (hstart : ∀ c ∈ start, c.toNat < 65)
    (h : text.dropPrefix? start = none) : (toAsciiLowercase text).dropPrefix? start = none := by
  cases hrest : (toAsciiLowercase text).dropPrefix? start with
  | none => rfl
  | some rest =>
    obtain ⟨a, b, rfl, ha, -⟩ := List.map_eq_append_iff.mp (eq_append_of_dropPrefix hrest)
    have hsame : a = start := by
      have hmap : a.map Char.toLower = a.map id := by
        refine List.map_congr_left fun c hc ↦ ?_
        have hlow := hstart c.toLower (ha ▸ List.mem_map_of_mem hc)
        exact ((toLower_eq_iff hlow).mp rfl).symm
      rw [← ha, hmap, List.map_id]
    rw [hsame, dropPrefix_append] at h
    cases h

theorem nameChars_stars {domain : Text} (stars : Text) (hstars : ∀ c ∈ stars, c = '*' ∨ c = '.')
    (h : ∀ c ∈ domain, nameChar c) : ∀ c ∈ stars ++ domain, nameChar c := by
  intro c hc
  rcases List.mem_append.mp hc with hc | hc
  · rcases hstars c hc with rfl | rfl
    · exact .inr (.inr (.inl rfl))
    · exact .inr (.inr (.inr (.inr rfl)))
  · exact h c hc

theorem parseDomain_of_isDomain {domain : Text} (h : IsDomain domain)
    (build : Text → DomainPattern) : DomainPattern.parseDomain domain build = build domain := by
  rw [DomainPattern.parseDomain, h.trim, if_neg h.ne_nil]

theorem parse_apex {domain : Text} (h : IsDomain domain) :
    DomainPattern.parse (['*', '*', '.'] ++ domain) = .apexAndSubdomains domain := by
  have htrim := trim_of_nameChars (nameChars_stars ['*', '*', '.'] (by simp) h.chars)
  rw [DomainPattern.parse, htrim, if_neg (by simp), dropPrefix_append]
  exact parseDomain_of_isDomain h _

theorem parse_subdomains {domain : Text} (h : IsDomain domain) :
    DomainPattern.parse (['*', '.'] ++ domain) = .subdomainsOnly domain := by
  have htrim := trim_of_nameChars (nameChars_stars ['*', '.'] (by simp) h.chars)
  have hnone : (['*', '.'] ++ domain).dropPrefix? ['*', '*', '.'] = none := rfl
  rw [DomainPattern.parse, htrim, if_neg (by simp), hnone, dropPrefix_append]
  exact parseDomain_of_isDomain h _

theorem parse_exact {domain : Text} (h : IsDomain domain)
    (hapex : domain.dropPrefix? ['*', '*', '.'] = none)
    (hsub : domain.dropPrefix? ['*', '.'] = none) :
    DomainPattern.parse domain = .exact domain := by
  rw [DomainPattern.parse, h.trim, if_neg h.ne_nil, hapex, hsub]

/-- The three shapes of a pattern. -/
theorem compiled_cases {pattern : Text} (h : IsDomain pattern) :
    compiled pattern = .exact (toAsciiLowercase pattern) ∨
      (∃ domain, IsDomain domain ∧ compiled pattern = .subdomainsOnly (toAsciiLowercase domain)) ∨
      ∃ domain, IsDomain domain ∧ compiled pattern = .apexAndSubdomains (toAsciiLowercase domain) := by
  rw [compiled, normalizePattern, h.trim]
  split_ifs with hstar
  · subst hstar
    exact .inl rfl
  · cases hapex : pattern.dropPrefix? ['*', '*', '.'] with
    | some domain =>
      have hd : IsDomain domain :=
        IsDomain.of_stars ['*', '*'] (eq_append_of_dropPrefix hapex ▸ h)
      dsimp only
      rw [normalizeHost_of_isDomain hd, parse_apex hd.toAsciiLowercase]
      exact .inr (.inr ⟨domain, hd, rfl⟩)
    | none =>
      cases hsub : pattern.dropPrefix? ['*', '.'] with
      | some domain =>
        have hd : IsDomain domain :=
          IsDomain.of_stars ['*'] (eq_append_of_dropPrefix hsub ▸ h)
        dsimp only
        rw [normalizeHost_of_isDomain hd, parse_subdomains hd.toAsciiLowercase]
        exact .inr (.inl ⟨domain, hd, rfl⟩)
      | none =>
        dsimp only
        rw [normalizeHost_of_isDomain h, parse_exact h.toAsciiLowercase
          (dropPrefix_toAsciiLowercase (by simp) hapex)
          (dropPrefix_toAsciiLowercase (by simp) hsub)]
        exact .inl rfl

/-- The name of a pattern as it is compiled is a lowered name. -/
theorem compiled_domain {pattern : Text} (h : IsDomain pattern) :
    IsDomain (compiled pattern).domain ∧
      toAsciiLowercase (compiled pattern).domain = (compiled pattern).domain := by
  rcases compiled_cases h with heq | ⟨domain, hd, heq⟩ | ⟨domain, hd, heq⟩
  · rw [heq]
    exact ⟨h.toAsciiLowercase, toAsciiLowercase_idem _⟩
  · rw [heq]
    exact ⟨hd.toAsciiLowercase, toAsciiLowercase_idem _⟩
  · rw [heq]
    exact ⟨hd.toAsciiLowercase, toAsciiLowercase_idem _⟩

/-! ## Matching -/

namespace DomainPattern

/-- The pattern matches the host. -/
def Matches (pattern : DomainPattern) (host : Text) : Prop :=
  ∃ glob ∈ pattern.globs, wild glob (toAsciiLowercase host) = true

theorem wild_subdomains {domain host : Text} :
    wild (['?', '*', '.'] ++ domain) host = true ↔
      ∃ sub rest, host = sub ++ '.' :: rest ∧ sub ≠ [] ∧ wild domain rest = true := by
  change wild (['?', '*'] ++ '.' :: domain) host = true ↔ _
  rw [wild_append]
  constructor
  · rintro ⟨sub, tail, rfl, hsub, htail⟩
    obtain ⟨c, rest, rfl, hc, hrest⟩ := (wild_cons (by decide)).mp htail
    rcases hc with hc | rfl
    · exact absurd hc (by decide)
    · exact ⟨sub, rest, rfl, wild_some.mp hsub, hrest⟩
  · rintro ⟨sub, rest, rfl, hsub, hrest⟩
    exact ⟨sub, '.' :: rest, rfl, wild_some.mpr hsub,
      (wild_cons (by decide)).mpr ⟨'.', rest, rfl, .inr rfl, hrest⟩⟩

theorem matches_exact {domain host : Text} :
    (exact domain).Matches host ↔ wild domain (toAsciiLowercase host) = true := by
  simp [Matches, globs]

theorem matches_subdomainsOnly {domain host : Text} :
    (subdomainsOnly domain).Matches host ↔ ∃ sub rest,
      toAsciiLowercase host = sub ++ '.' :: rest ∧ sub ≠ [] ∧ wild domain rest = true := by
  rw [← wild_subdomains]
  simp [Matches, globs]

theorem matches_apexAndSubdomains {domain host : Text} :
    (apexAndSubdomains domain).Matches host ↔
      (exact domain).Matches host ∨ (subdomainsOnly domain).Matches host := by
  simp [Matches, globs]

/-- The parts of a pattern: a name, or the subdomains of one. -/
def parts : DomainPattern → List DomainPattern
  | apexAndSubdomains domain => [exact domain, subdomainsOnly domain]
  | pattern => [pattern]

theorem matches_iff_parts {pattern : DomainPattern} {host : Text} :
    pattern.Matches host ↔ ∃ part ∈ pattern.parts, part.Matches host := by
  cases pattern with
  | apexAndSubdomains domain => simp [parts, matches_apexAndSubdomains]
  | subdomainsOnly domain => simp [parts]
  | exact domain => simp [parts]

/-- The first label is not made of stars only. -/
def LeadNotBlank (domain : Text) : Prop := ∃ c ∈ domain.takeWhile (· ≠ '.'), c ≠ '*'

/-- The pattern allows a part of another, and not by a first label that may be empty. -/
def Covers (pattern part : DomainPattern) : Prop :=
  pattern.allows part = true ∧
    ∀ domain, part = exact domain → domain = pattern.domain ∨ LeadNotBlank domain

end DomainPattern

/-- What the documentation of `globset` says of a glob of letters, digits, hyphens, dots and
wildcards that does not heed case. -/
structure Externals.Documented (X : Externals) : Prop where
  glob : ∀ pattern : Text, (∀ c ∈ pattern, nameChar c) → ∃ glob, X.buildGlob pattern = some glob ∧
    ∀ host, X.matchGlob glob host = wild (toAsciiLowercase pattern) (toAsciiLowercase host)

/-! ## The compiled set -/

section Compiled

variable {X : Externals} (hX : X.Documented)

/-- The set matches by the globs that were seen. -/
def Reflects (found : List Text × List X.Glob) : Prop :=
  ∀ host, isMatch found.2 host = true ↔
    ∃ glob ∈ found.1, wild (toAsciiLowercase glob) (toAsciiLowercase host) = true

include hX

theorem addGlobs_spec {found : List Text × List X.Glob} {glob : Text} (h : Reflects found)
    (hglob : ∀ c ∈ glob, nameChar c) :
    ∃ found', addGlobs found glob = .ok found' ∧ Reflects found' ∧
      ∀ other, other ∈ found'.1 ↔ other = glob ∨ other ∈ found.1 := by
  obtain ⟨seen, set⟩ := found
  by_cases hseen : glob ∈ seen
  · refine ⟨(seen, set), if_pos hseen, h, fun other ↦ ⟨.inr, ?_⟩⟩
    rintro (rfl | hother)
    · exact hseen
    · exact hother
  · obtain ⟨built, hbuild, hmatch⟩ := hX.glob glob hglob
    refine ⟨(glob :: seen, set ++ [built]), ?_, ?_, fun other ↦ List.mem_cons⟩
    · rw [addGlobs, if_neg hseen, hbuild]
    · intro host
      have hset := h host
      simp only [isMatch, List.any_append, List.any_cons, List.any_nil, Bool.or_false,
        Bool.or_eq_true, List.exists_mem_cons_iff, hmatch] at hset ⊢
      rw [hset, or_comm]

/-- The globs of one pattern. -/
theorem foldlM_addGlobs {globs : List Text} (hglobs : ∀ glob ∈ globs, ∀ c ∈ glob, nameChar c)
    {found : List Text × List X.Glob} (h : Reflects found) :
    ∃ found', globs.foldlM addGlobs found = .ok found' ∧ Reflects found' ∧
      ∀ other, other ∈ found'.1 ↔ other ∈ globs ∨ other ∈ found.1 := by
  induction globs generalizing found with
  | nil => exact ⟨found, rfl, h, by simp⟩
  | cons glob globs ih =>
    obtain ⟨next, hnext, hreflects, hmem⟩ := addGlobs_spec hX h (hglobs glob List.mem_cons_self)
    obtain ⟨last, hlast, hreflects', hmem'⟩ :=
      ih (fun g hg ↦ hglobs g (List.mem_cons_of_mem glob hg)) hreflects
    refine ⟨last, ?_, hreflects', fun other ↦ ?_⟩
    · rw [List.foldlM_cons, hnext]
      exact hlast
    · rw [hmem', hmem, List.mem_cons, or_left_comm, or_assoc]

omit hX in
/-- A glob is a name or stands for its subdomains. -/
theorem DomainPattern.eq_of_mem_globs {pattern : DomainPattern} {glob : Text}
    (h : glob ∈ pattern.globs) :
    glob = pattern.domain ∨ glob = '?' :: '*' :: '.' :: pattern.domain := by
  cases pattern with
  | exact domain => exact .inl (List.mem_singleton.mp h)
  | subdomainsOnly domain => exact .inr (List.mem_singleton.mp h)
  | apexAndSubdomains domain => exact List.mem_pair.mp h

omit hX in
/-- A pattern is compiled to lowered globs of name characters. -/
theorem globs_compiled {pattern glob : Text} (h : IsDomain pattern)
    (hglob : glob ∈ (compiled pattern).globs) :
    (∀ c ∈ glob, nameChar c) ∧ toAsciiLowercase glob = glob := by
  obtain ⟨hdomain, hlow⟩ := compiled_domain h
  rcases DomainPattern.eq_of_mem_globs hglob with rfl | rfl
  · exact ⟨hdomain.chars, hlow⟩
  · refine ⟨?_, congrArg (fun d ↦ '?' :: '*' :: '.' :: d) hlow⟩
    simp only [List.forall_mem_cons]
    refine ⟨?_, ?_, ?_, hdomain.chars⟩
    all_goals simp [nameChar]

/-- All the patterns. -/
theorem foldlM_patterns {patterns : List Text} (hp : ∀ p ∈ patterns, IsDomain p)
    {found : List Text × List X.Glob} (h : Reflects found) :
    ∃ found', patterns.foldlM (fun found pattern ↦ (compiled pattern).globs.foldlM addGlobs found)
        found = .ok found' ∧ Reflects found' ∧
      ∀ other, other ∈ found'.1 ↔ (∃ p ∈ patterns, other ∈ (compiled p).globs) ∨
        other ∈ found.1 := by
  induction patterns generalizing found with
  | nil => exact ⟨found, rfl, h, by simp⟩
  | cons pattern patterns ih =>
    obtain ⟨next, hnext, hreflects, hmem⟩ := foldlM_addGlobs hX
      (fun glob hglob ↦ (globs_compiled (hp pattern List.mem_cons_self) hglob).1) h
    obtain ⟨last, hlast, hreflects', hmem'⟩ :=
      ih (fun p hmem ↦ hp p (List.mem_cons_of_mem pattern hmem)) hreflects
    refine ⟨last, ?_, hreflects', fun other ↦ ?_⟩
    · rw [List.foldlM_cons, hnext]
      exact hlast
    · rw [hmem', hmem, List.exists_mem_cons_iff, or_left_comm, or_assoc]

/-- The set of an allowlist matches what its patterns match. -/
theorem compileAllowlistGlobset_spec {patterns : List Text} (hp : ∀ p ∈ patterns, IsDomain p) :
    ∃ set, compileAllowlistGlobset X patterns = .ok set ∧
      ∀ host, isMatch set host = true ↔ ∃ p ∈ patterns, (compiled p).Matches host := by
  have hnew : Reflects (X := X) ([], []) := fun host ↦ by simp [isMatch]
  obtain ⟨found, hfound, hreflects, hmem⟩ := foldlM_patterns hX hp hnew
  refine ⟨found.2, ?_, fun host ↦ ?_⟩
  · exact congrArg (Except.map Prod.snd) hfound
  · rw [hreflects host]
    constructor
    · rintro ⟨glob, hglob, hwild⟩
      obtain ⟨p, hmemp, hglobs⟩ := ((hmem glob).mp hglob).resolve_right (List.not_mem_nil)
      rw [(globs_compiled (hp p hmemp) hglobs).2] at hwild
      exact ⟨p, hmemp, glob, hglobs, hwild⟩
    · rintro ⟨p, hmemp, glob, hglobs, hwild⟩
      refine ⟨glob, (hmem glob).mpr (.inl ⟨p, hmemp, hglobs⟩), ?_⟩
      rwa [(globs_compiled (hp p hmemp) hglobs).2]

end Compiled

/-! ## What a pattern allows -/

/-- A name as the comparison reads it once more. -/
structure IsLowered (domain : Text) : Prop extends IsDomain domain where
  low : toAsciiLowercase domain = domain

theorem IsLowered.normalizeDomain {domain : Text} (h : IsLowered domain) :
    Network.normalizeDomain domain = domain := by
  rw [Network.normalizeDomain, h.trimEndDots, h.low]

theorem domainEq_iff {left right : Text} (hl : IsLowered left) (hr : IsLowered right) :
    domainEq left right = true ↔ left = right := by
  rw [domainEq, hl.normalizeDomain, hr.normalizeDomain, decide_eq_true_iff]

theorem isSubdomainOrEqual_iff {child parent : Text} (hc : IsLowered child)
    (hp : IsLowered parent) :
    isSubdomainOrEqual child parent = true ↔ child = parent ∨ '.' :: parent <:+ child := by
  rw [isSubdomainOrEqual, hc.normalizeDomain, hp.normalizeDomain, Bool.or_eq_true,
    decide_eq_true_iff, List.isSuffixOf_iff_suffix]

theorem isStrictSubdomain_iff {child parent : Text} (hc : IsLowered child)
    (hp : IsLowered parent) : isStrictSubdomain child parent = true ↔ '.' :: parent <:+ child := by
  rw [isStrictSubdomain, hc.normalizeDomain, hp.normalizeDomain, Bool.and_eq_true,
    decide_eq_true_iff, List.isSuffixOf_iff_suffix, and_iff_right_iff_imp]
  rintro hsuffix rfl
  have hlen := hsuffix.length_le
  rw [List.length_cons] at hlen
  omega

namespace DomainPattern

/-- The subdomains of a subdomain are subdomains. -/
theorem matches_subdomains_of_suffix {domain candidate host : Text}
    (h : candidate = domain ∨ '.' :: domain <:+ candidate)
    (hmatch : (subdomainsOnly candidate).Matches host) : (subdomainsOnly domain).Matches host := by
  rcases h with rfl | ⟨lead, rfl⟩
  · exact hmatch
  · obtain ⟨sub, rest, hhost, hsub, hwild⟩ := matches_subdomainsOnly.mp hmatch
    obtain ⟨a, tail, rfl, -, htail⟩ := wild_append.mp hwild
    obtain ⟨c, b, rfl, hc, hb⟩ := (wild_cons (by decide)).mp htail
    rcases hc with hc | rfl
    · exact absurd hc (by decide)
    · exact matches_subdomainsOnly.mpr ⟨sub ++ '.' :: a, b, by rw [hhost]; simp, by simp, hb⟩

/-- A subdomain with a first label that cannot be empty is matched as one. -/
theorem matches_subdomains_of_exact {domain candidate host : Text} (hc : IsDomain candidate)
    (h : '.' :: domain <:+ candidate) (hlead : LeadNotBlank candidate)
    (hmatch : (exact candidate).Matches host) : (subdomainsOnly domain).Matches host := by
  obtain ⟨lead, rfl⟩ := h
  obtain ⟨sub, tail, hhost, hsub, htail⟩ := wild_append.mp (matches_exact.mp hmatch)
  obtain ⟨c, rest, rfl, heq, hrest⟩ := (wild_cons (by decide)).mp htail
  have hne : ∃ c ∈ lead, c ≠ '*' := by
    by_cases hdot : '.' ∈ lead
    · exact ⟨'.', hdot, by decide⟩
    · obtain ⟨c, hmem, hstar⟩ := hlead
      rw [List.takeWhile_append_of_pos, List.takeWhile_cons_of_neg (by simp)] at hmem
      · exact ⟨c, by simpa using hmem, hstar⟩
      · intro c hmem
        exact decide_eq_true fun hc ↦ hdot (hc ▸ hmem)
  rcases heq with heq | rfl
  · exact absurd heq (by decide)
  · exact matches_subdomainsOnly.mpr ⟨sub, rest, hhost, ne_nil_of_wild hsub hne, hrest⟩

/-- What covers a part of a pattern matches all that the part matches. -/
theorem matches_of_covers {pattern part : DomainPattern} (hpattern : IsLowered pattern.domain)
    (hpart : IsLowered part.domain) (hapex : ∀ domain, part ≠ apexAndSubdomains domain)
    (h : pattern.Covers part) {host : Text} (hmatch : part.Matches host) :
    pattern.Matches host := by
  obtain ⟨hallows, hlead⟩ := h
  cases part with
  | apexAndSubdomains candidate => exact absurd rfl (hapex candidate)
  | exact candidate =>
    have hblank := hlead candidate rfl
    cases pattern with
    | exact domain =>
      obtain rfl : candidate = domain := (domainEq_iff hpart hpattern).mp hallows
      exact hmatch
    | subdomainsOnly domain =>
      have hsuffix := (isStrictSubdomain_iff hpart hpattern).mp hallows
      rcases hblank with rfl | hblank
      · exact absurd hsuffix.length_le (by simp [DomainPattern.domain])
      · exact matches_subdomains_of_exact hpart.toIsDomain hsuffix hblank hmatch
    | apexAndSubdomains domain =>
      rw [matches_apexAndSubdomains]
      rcases (isSubdomainOrEqual_iff hpart hpattern).mp hallows with rfl | hsuffix
      · exact .inl hmatch
      · rcases hblank with rfl | hblank
        · exact .inl hmatch
        · exact .inr (matches_subdomains_of_exact hpart.toIsDomain hsuffix hblank hmatch)
  | subdomainsOnly candidate =>
    cases pattern with
    | exact domain => exact absurd hallows (by simp [allows])
    | subdomainsOnly domain =>
      exact matches_subdomains_of_suffix ((isSubdomainOrEqual_iff hpart hpattern).mp hallows) hmatch
    | apexAndSubdomains domain =>
      rw [matches_apexAndSubdomains]
      exact .inr
        (matches_subdomains_of_suffix ((isSubdomainOrEqual_iff hpart hpattern).mp hallows) hmatch)

/-- No wildcard in the name. -/
def Plain (domain : Text) : Prop := ∀ c ∈ domain, c ≠ '*' ∧ c ≠ '?'

theorem matches_subdomainsOnly_of_plain {domain host : Text} (h : Plain domain) :
    (subdomainsOnly domain).Matches host ↔
      ∃ sub, toAsciiLowercase host = sub ++ '.' :: domain ∧ sub ≠ [] := by
  rw [matches_subdomainsOnly]
  constructor
  · rintro ⟨sub, rest, hhost, hsub, hwild⟩
    exact ⟨sub, by rw [hhost, (wild_of_plain h).mp hwild], hsub⟩
  · rintro ⟨sub, hhost, hsub⟩
    exact ⟨sub, domain, hhost, hsub, (wild_of_plain h).mpr rfl⟩

theorem matches_exact_of_plain {domain host : Text} (h : Plain domain) :
    (exact domain).Matches host ↔ toAsciiLowercase host = domain :=
  matches_exact.trans (wild_of_plain h)

theorem LeadNotBlank.of_plain {domain : Text} (hd : IsDomain domain) (h : Plain domain) :
    LeadNotBlank domain := by
  obtain ⟨c, rest, rfl⟩ := List.exists_cons_of_ne_nil hd.ne_nil
  have hc : c ≠ '.' := fun hc ↦ hd.head (by rw [hc]; rfl)
  refine ⟨c, ?_, (h c List.mem_cons_self).1⟩
  simp [hc]

/-- A pattern that matches a name as a host covers it. -/
theorem covers_of_matches_domain {pattern : DomainPattern} {domain : Text}
    (hpattern : IsLowered pattern.domain) (hplain : Plain pattern.domain) (hd : IsLowered domain)
    (hdplain : Plain domain) (h : pattern.Matches domain) : pattern.Covers (exact domain) := by
  refine ⟨?_, fun d heq ↦ .inr ?_⟩
  · have hexact : (exact pattern.domain).Matches domain → domain = pattern.domain := fun hm ↦ by
      rw [← (matches_exact_of_plain hplain).mp hm, hd.low]
    have hsub : (subdomainsOnly pattern.domain).Matches domain →
        '.' :: pattern.domain <:+ domain := fun hm ↦ by
      obtain ⟨sub, hhost, -⟩ := (matches_subdomainsOnly_of_plain hplain).mp hm
      rw [hd.low] at hhost
      exact ⟨sub, hhost.symm⟩
    cases pattern with
    | exact d => exact (domainEq_iff hd hpattern).mpr (hexact h)
    | subdomainsOnly d => exact (isStrictSubdomain_iff hd hpattern).mpr (hsub h)
    | apexAndSubdomains d =>
      exact (isSubdomainOrEqual_iff hd hpattern).mpr
        ((matches_apexAndSubdomains.mp h).imp hexact hsub)
  · cases heq
    exact .of_plain hd.toIsDomain hdplain

theorem toAsciiLowercase_long {domain : Text} (n : Nat) (h : toAsciiLowercase domain = domain) :
    toAsciiLowercase (List.replicate n 'a' ++ '.' :: domain) =
      List.replicate n 'a' ++ '.' :: domain := by
  rw [toAsciiLowercase, List.map_append, List.map_replicate, List.map_cons]
  exact congrArg (fun d ↦ List.replicate n 'a' ++ '.' :: d) h

/-- A pattern that matches a subdomain with a first label longer than its name covers all
the subdomains. -/
theorem covers_of_matches_long {pattern : DomainPattern} {domain : Text} {n : Nat}
    (hpattern : IsLowered pattern.domain) (hplain : Plain pattern.domain) (hd : IsLowered domain)
    (hn : pattern.domain.length < n)
    (h : pattern.Matches (List.replicate n 'a' ++ '.' :: domain)) :
    pattern.Covers (subdomainsOnly domain) := by
  refine ⟨?_, nofun⟩
  have hlow := toAsciiLowercase_long n hd.low
  have hexact : ¬ (exact pattern.domain).Matches (List.replicate n 'a' ++ '.' :: domain) := by
    intro hm
    have hlen := congrArg List.length ((matches_exact_of_plain hplain).mp hm)
    rw [hlow, List.length_append, List.length_replicate] at hlen
    omega
  have hsub : (subdomainsOnly pattern.domain).Matches (List.replicate n 'a' ++ '.' :: domain) →
      domain = pattern.domain ∨ '.' :: pattern.domain <:+ domain := by
    intro hm
    obtain ⟨sub, hhost, -⟩ := (matches_subdomainsOnly_of_plain hplain).mp hm
    rw [hlow] at hhost
    rcases List.append_eq_append_iff.mp hhost with ⟨k, rfl, hk⟩ | ⟨k, hk, hrest⟩
    · cases k with
      | nil => exact .inl (List.cons.inj hk).2
      | cons c k =>
        obtain ⟨rfl, rfl⟩ := List.cons.inj hk
        exact .inr ⟨k, rfl⟩
    · cases k with
      | nil => exact .inl (List.cons.inj hrest).2.symm
      | cons c k =>
        obtain ⟨rfl, -⟩ := List.cons.inj hrest
        have hmem : '.' ∈ List.replicate n 'a' := hk ▸ by simp
        exact absurd (List.eq_of_mem_replicate hmem) (by decide)
  cases pattern with
  | exact d => exact absurd h hexact
  | subdomainsOnly d => exact (isSubdomainOrEqual_iff hd hpattern).mpr (hsub h)
  | apexAndSubdomains d =>
    exact (isSubdomainOrEqual_iff hd hpattern).mpr
      (hsub ((matches_apexAndSubdomains.mp h).resolve_left hexact))

end DomainPattern

/-! ## The guarantee -/

section Guarantee

variable (X : Externals)

/-- The guarantee for one candidate: if it is accepted, then what it matches is matched by
the managed list. -/
def Sound (managed : List Text) (candidate : Text) : Prop :=
  accepts X managed candidate = true → ∃ set managedSet,
    compileAllowlistGlobset X [candidate] = .ok set ∧
    compileAllowlistGlobset X managed = .ok managedSet ∧
    ∀ host, isMatch set host = true → isMatch managedSet host = true

/-- What was accepted is covered, part by part, also as it is compiled. -/
def Kept (managed : List Text) (candidate : Text) : Prop :=
  accepts X managed candidate = true →
    ∀ part ∈ (compiled candidate).parts, ∃ entry ∈ managed, (compiled entry).Covers part

variable {X}

theorem isLowered_compiled {pattern : Text} (h : IsDomain pattern) :
    IsLowered (compiled pattern).domain :=
  ⟨(compiled_domain h).1, (compiled_domain h).2⟩

theorem domain_of_mem_parts {pattern part : DomainPattern} (h : part ∈ pattern.parts) :
    part.domain = pattern.domain ∧ ∀ domain, part ≠ .apexAndSubdomains domain := by
  cases pattern with
  | apexAndSubdomains domain =>
    rcases List.mem_pair.mp h with rfl | rfl
    · exact ⟨rfl, nofun⟩
    · exact ⟨rfl, nofun⟩
  | subdomainsOnly domain =>
    rw [List.mem_singleton.mp h]
    exact ⟨rfl, nofun⟩
  | exact domain =>
    rw [List.mem_singleton.mp h]
    exact ⟨rfl, nofun⟩

variable (hX : X.Documented)

include hX

theorem sound_iff {managed : List Text} {candidate : Text}
    (hmanaged : ∀ p ∈ managed, IsDomain p) (hc : IsDomain candidate) :
    Sound X managed candidate ↔ (accepts X managed candidate = true → ∀ host,
      (compiled candidate).Matches host → ∃ entry ∈ managed, (compiled entry).Matches host) := by
  obtain ⟨set, hset, hmatch⟩ := compileAllowlistGlobset_spec hX (List.forall_mem_singleton.mpr hc)
  obtain ⟨managedSet, hmanagedSet, hmanagedMatch⟩ := compileAllowlistGlobset_spec hX hmanaged
  have hmatch' : ∀ host, isMatch set host = true ↔ (compiled candidate).Matches host := by
    intro host
    rw [hmatch host]
    simp
  refine imp_congr_right fun _ ↦ ⟨?_, fun h ↦ ?_⟩
  · rintro ⟨set', managedSet', hset', hmanagedSet', hsub⟩ host hhost
    cases hset.symm.trans hset'
    cases hmanagedSet.symm.trans hmanagedSet'
    exact (hmanagedMatch host).mp (hsub host ((hmatch' host).mpr hhost))
  · exact ⟨set, managedSet, hset, hmanagedSet, fun host hhost ↦
      (hmanagedMatch host).mpr (h host ((hmatch' host).mp hhost))⟩

theorem sound_of_kept {managed : List Text} {candidate : Text}
    (hmanaged : ∀ p ∈ managed, IsDomain p) (hc : IsDomain candidate)
    (h : Kept X managed candidate) : Sound X managed candidate := by
  rw [sound_iff hX hmanaged hc]
  intro haccepts host hhost
  obtain ⟨part, hpart, hpartm⟩ := DomainPattern.matches_iff_parts.mp hhost
  obtain ⟨hdomain, hapex⟩ := domain_of_mem_parts hpart
  obtain ⟨entry, hentry, hcovers⟩ := h haccepts part hpart
  refine ⟨entry, hentry, ?_⟩
  exact DomainPattern.matches_of_covers (isLowered_compiled (hmanaged entry hentry))
    (hdomain ▸ isLowered_compiled hc) hapex hcovers hpartm

/-- Without wildcards in the names, the guarantee fails wherever the readings part. -/
theorem kept_of_sound {managed : List Text} {candidate : Text}
    (hmanaged : ∀ p ∈ managed, IsDomain p) (hc : IsDomain candidate)
    (hplain : ∀ p ∈ managed, DomainPattern.Plain (compiled p).domain)
    (hcplain : DomainPattern.Plain (compiled candidate).domain)
    (h : Sound X managed candidate) : Kept X managed candidate := by
  intro haccepts part hpart
  have hsub := (sound_iff hX hmanaged hc).mp h haccepts
  obtain ⟨hdomain, hapex⟩ := domain_of_mem_parts hpart
  have hlow := isLowered_compiled hc
  rw [← hdomain] at hlow hcplain
  cases part with
  | apexAndSubdomains domain => exact absurd rfl (hapex domain)
  | exact domain =>
    -- The name itself is a host that the candidate matches.
    have hself : (DomainPattern.exact domain).Matches domain :=
      (DomainPattern.matches_exact_of_plain hcplain).mpr hlow.low
    obtain ⟨entry, hentry, hmatch⟩ :=
      hsub domain (DomainPattern.matches_iff_parts.mpr ⟨_, hpart, hself⟩)
    exact ⟨entry, hentry, DomainPattern.covers_of_matches_domain
      (isLowered_compiled (hmanaged entry hentry)) (hplain entry hentry) hlow hcplain hmatch⟩
  | subdomainsOnly domain =>
    -- A subdomain whose first label is longer than all the managed names.
    let n := (managed.map fun p ↦ (compiled p).domain.length).sum + 1
    have hlong : (DomainPattern.subdomainsOnly domain).Matches
        (List.replicate n 'a' ++ '.' :: domain) := by
      refine (DomainPattern.matches_subdomainsOnly_of_plain hcplain).mpr
        ⟨List.replicate n 'a', DomainPattern.toAsciiLowercase_long n hlow.low, by simp [n]⟩
    obtain ⟨entry, hentry, hmatch⟩ := hsub _ (DomainPattern.matches_iff_parts.mpr ⟨_, hpart, hlong⟩)
    have hle : (compiled entry).domain.length ≤
        (managed.map fun p ↦ (compiled p).domain.length).sum :=
      List.single_le_sum (by simp) _ (List.mem_map_of_mem hentry)
    exact ⟨entry, hentry, DomainPattern.covers_of_matches_long
      (isLowered_compiled (hmanaged entry hentry)) (hplain entry hentry) hlow
      (Nat.lt_succ_of_le hle) hmatch⟩

omit hX in
/-- In the subset mode a configuration that passes has accepted patterns only. -/
theorem accepts_of_validate {config : NetworkProxySettings} {constraints : NetworkProxyConstraints}
    {managed : List Text} (h : validatePolicyAgainstConstraints X config constraints = .ok ())
    (hmanaged : constraints.allowedDomains = some managed)
    (hmode : constraints.allowlistExpansionEnabled = none) :
    ∀ p ∈ config.allowedDomains.getD [], accepts X managed p = true := by
  unfold validatePolicyAgainstConstraints at h
  simp only [bind_eq_ok_iff, hmanaged, hmode, validateSome, validateAllowedDomains] at h
  obtain ⟨_, -, _, -, _, -, _, -, _, -, _, -, _, -, _, ⟨_, -, h⟩, -⟩ := h
  intro p hp
  by_contra hnot
  have hmem : p ∈ (config.allowedDomains.getD []).filter fun entry ↦ !accepts X managed entry :=
    List.mem_filter.mpr ⟨hp, by simpa using hnot⟩
  rw [if_neg (List.ne_nil_of_mem hmem)] at h
  cases h

omit hX in
/-- A host is allowed only by the allowlist. -/
theorem isMatch_of_hostBlocked {state : ConfigState X} {host : Text} {port : UInt16}
    (h : hostBlocked state host port = .allowed) :
    isMatch state.allowSet (normalizeHost host) = true := by
  unfold hostBlocked Host.parse at h
  split_ifs at h with hne
  dsimp only at h
  split_ifs at h with hdeny hlocal hallow
  simp only [Bool.or_eq_true, not_or, Bool.not_eq_true', Bool.not_eq_false] at hallow
  exact hallow.2

omit hX in
theorem allowSet_of_buildConfigState {config : NetworkProxySettings} {state : ConfigState X}
    (h : buildConfigState X config = .ok state) :
    compileAllowlistGlobset X (config.allowedDomains.getD []) = .ok state.allowSet := by
  unfold buildConfigState at h
  simp only [bind_eq_ok_iff] at h
  obtain ⟨-, -, -, -, denySet, -, allowSet, hallow, h⟩ := h
  split_ifs at h
  · obtain ⟨-, -, h⟩ := bind_eq_ok_iff.mp h
    cases h
    exact hallow
  · cases h
    exact hallow

/-- A configuration of kept patterns lets no host through that the managed list would not
match. -/
theorem isMatch_managed_of_allowed {config : NetworkProxySettings}
    {constraints : NetworkProxyConstraints} {managed : List Text} {state : ConfigState X}
    {host : Text} {port : UInt16}
    (h : validatePolicyAgainstConstraints X config constraints = .ok ())
    (hmanaged : constraints.allowedDomains = some managed)
    (hmode : constraints.allowlistExpansionEnabled = none)
    (hdomains : ∀ p ∈ managed, IsDomain p)
    (hkept : ∀ p ∈ config.allowedDomains.getD [], IsDomain p ∧ Kept X managed p)
    (hstate : buildConfigState X config = .ok state)
    (hallowed : hostBlocked state host port = .allowed) :
    ∃ managedSet, compileAllowlistGlobset X managed = .ok managedSet ∧
      isMatch managedSet (normalizeHost host) = true := by
  obtain ⟨managedSet, hmanagedSet, hmanagedMatch⟩ := compileAllowlistGlobset_spec hX hdomains
  refine ⟨managedSet, hmanagedSet, (hmanagedMatch _).mpr ?_⟩
  obtain ⟨set, hset, hmatch⟩ := compileAllowlistGlobset_spec hX fun p hp ↦ (hkept p hp).1
  cases hset.symm.trans (allowSet_of_buildConfigState hstate)
  obtain ⟨p, hp, hpm⟩ := (hmatch _).mp (isMatch_of_hostBlocked hallowed)
  obtain ⟨hdomain, hk⟩ := hkept p hp
  exact (sound_iff hX hdomains hdomain).mp (sound_of_kept hX hdomains hdomain hk)
    (accepts_of_validate h hmanaged hmode p hp) _ hpm

end Guarantee

/-! ## A reference for what is taken from elsewhere -/

namespace Reference

instance : DecidablePred nameChar := fun c ↦
  inferInstanceAs (Decidable (c.isAlphanum = true ∨ c = '-' ∨ c = '*' ∨ c = '?' ∨ c = '.'))

/-- A decimal number below 256. -/
def isOctet (label : Text) : Bool :=
  label ≠ [] && label.all Char.isDigit &&
    label.foldl (fun n c ↦ 10 * n + (c.toNat - 48)) 0 < 256

/-- `url::Host::parse` for names in ASCII: a name with a number for its last label has to be
an address. -/
def parseUrlHost (name : Text) : Option Text :=
  let labels := name.splitOn '.'
  if (labels.getLast?.getD []).all Char.isDigit then
    if labels.length = 4 ∧ labels.all isOctet then some name else none
  else some (toAsciiLowercase name)

/-- Globs as they are documented, and a resolver that knows one public address. -/
def externals : Externals where
  parseUrlHost := parseUrlHost
  Glob := Text
  buildGlob := some
  matchGlob glob host := wild (toAsciiLowercase glob) (toAsciiLowercase host)
  parseIpAddr _ := none
  lookupHost _ _ := some [.v4 (ipv4 93 184 216 34)]
  debugList _ := "[..]"
  validUnixSocketPath _ := true
  newMitmState _ := .ok ()

theorem documented : externals.Documented :=
  ⟨fun pattern _ ↦ ⟨pattern, rfl, fun _ ↦ rfl⟩⟩

/-- A managed list with an address that is none. -/
def managed : List Text := ["10.0.0.256".toList]

def constraints : NetworkProxyConstraints :=
  { NetworkProxyConstraints.default with allowedDomains := some managed }

def settings : NetworkProxySettings :=
  { NetworkProxySettings.default with
    enabled := true
    domains := some [⟨"evil.999".toList, .allow⟩] }

end Reference

instance (domain : Text) : Decidable (IsDomain domain) :=
  have : Decidable (∀ c ∈ domain, nameChar c) := List.decidableBAll _ _
  decidable_of_iff (domain ≠ [] ∧ (∀ c ∈ domain, nameChar c) ∧ domain.head? ≠ some '.' ∧
      domain.getLast? ≠ some '.' ∧ ¬ ['.', '.'] <:+: domain)
    ⟨fun ⟨hne, hchars, hhead, hlast, hapart⟩ ↦ ⟨hne, hchars, hhead, hlast, hapart⟩,
      fun h ↦ ⟨h.ne_nil, h.chars, h.head, h.last, h.apart⟩⟩

/-- The managed constraints are sound for the candidates that are covered as they are
compiled, and, where no name has a wildcard, only for these.  A configuration of such
candidates lets no host through that the managed list would not match. -/
theorem managed_constraints_sound {X : Externals} (hX : X.Documented) :
    (∀ (managed : List Text) (candidate : Text), (∀ p ∈ managed, IsDomain p) →
      IsDomain candidate → Kept X managed candidate → Sound X managed candidate) ∧
    (∀ (managed : List Text) (candidate : Text), (∀ p ∈ managed, IsDomain p) →
      IsDomain candidate → (∀ p ∈ managed, DomainPattern.Plain (compiled p).domain) →
      DomainPattern.Plain (compiled candidate).domain →
      (Sound X managed candidate ↔ Kept X managed candidate)) ∧
    (∀ (config : NetworkProxySettings) (constraints : NetworkProxyConstraints)
      (managed : List Text) (state : ConfigState X) (host : Text) (port : UInt16),
      validatePolicyAgainstConstraints X config constraints = .ok () →
      constraints.allowedDomains = some managed →
      constraints.allowlistExpansionEnabled = none →
      (∀ p ∈ managed, IsDomain p) →
      (∀ p ∈ config.allowedDomains.getD [], IsDomain p ∧ Kept X managed p) →
      buildConfigState X config = .ok state → hostBlocked state host port = .allowed →
      ∃ managedSet, compileAllowlistGlobset X managed = .ok managedSet ∧
        isMatch managedSet (normalizeHost host) = true) := by
  refine ⟨fun _ _ hmanaged hc ↦ sound_of_kept hX hmanaged hc, ?_, ?_⟩
  · intro managed candidate hmanaged hc hplain hcplain
    exact ⟨kept_of_sound hX hmanaged hc hplain hcplain, sound_of_kept hX hmanaged hc⟩
  · intro config constraints managed state host port h hmanaged hmode hdomains hkept hstate hallowed
    exact isMatch_managed_of_allowed hX h hmanaged hmode hdomains hkept hstate hallowed

theorem managed_constraints_sound_subdomain :
    Sound Reference.externals ["*.example.com".toList] "api.example.com".toList := by
  refine (managed_constraints_sound Reference.documented).1 _ _ (by decide) (by decide) ?_
  intro _ part hpart
  refine ⟨"*.example.com".toList, List.mem_singleton_self _, ?_⟩
  obtain rfl := List.mem_singleton.mp hpart
  exact ⟨by decide, fun domain hdomain ↦ .inr (by cases hdomain; exact ⟨'a', by decide, by decide⟩)⟩

/-- Both names end in a number and are no address, so that the comparison reads them as the
empty name: the candidate is accepted, and a host of its name is let through. -/
theorem rejected_names_are_equal :
    (∀ p ∈ Reference.managed, IsDomain p) ∧ IsDomain "evil.999".toList ∧
    accepts Reference.externals Reference.managed "evil.999".toList = true ∧
    validatePolicyAgainstConstraints Reference.externals Reference.settings
      Reference.constraints = .ok () ∧
    (∃ state, buildConfigState Reference.externals Reference.settings = .ok state ∧
      hostBlocked state "evil.999".toList 443 = .allowed) ∧
    ∃ managedSet,
      compileAllowlistGlobset Reference.externals Reference.managed = .ok managedSet ∧
      isMatch managedSet "evil.999".toList = false := by
  refine ⟨by decide, by decide, by decide, rfl, ⟨_, rfl, ?_⟩, _, rfl, ?_⟩
  · decide
  · decide

end Praxis.Network
