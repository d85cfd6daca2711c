import Mathlib.Data.List.Sort
import Mathlib.Data.List.Infix

/-! # Byte strings

A Go string is a list of bytes with the lexicographic order. The operations behave as
documented for package `strings`.
-/

namespace Go

open List

/-- A Go string or byte slice. A nil slice and an empty one are both `[]`. -/
abbrev Str := List UInt8

-- named, so that every membership test below rests on the same proof
instance : LawfulBEq Str := List.instLawfulBEq

/-- The bytes of a source literal, encoded as UTF-8. -/
def lit (text : String) : Str := text.toList.flatMap String.utf8EncodeChar

namespace Str

/-- The separator of hierarchical keys. -/
def slash : UInt8 := 47

def colon : UInt8 := 58

variable (s : Str)

variable (pre : Str)

def hasPrefix : Bool := pre.isPrefixOf s

def hasSuffix (suffix : Str) : Bool := suffix.isSuffixOf s

/-- `strings.TrimPrefix`: the argument itself when the prefix is absent. -/
def trimPrefix : Str := if s.hasPrefix pre then s.drop pre.length else s

/-- `strings.TrimSuffix`: the argument itself when the suffix is absent. -/
def trimSuffix (suffix : Str) : Str :=
  if s.hasSuffix suffix then s.take (s.length - suffix.length) else s

/-- `strings.Cut`: what stands before and after the first instance of `sep`. -/
def cut (sep : Str) : Str → Option (Str × Str)
  | [] => if sep.isEmpty then some ([], []) else none
  | b :: rest =>
    if sep.isPrefixOf (b :: rest) then some ([], (b :: rest).drop sep.length)
    else (cut sep rest).map (fun parts => (b :: parts.1, parts.2))

/-- `strings.Contains`. -/
def containsStr (sub : Str) : Bool := (cut sub s).isSome

/-- `strings.Contains` for a one-byte separator. -/
def containsByte (b : UInt8) : Bool := s.contains b

/-- The encodings of the characters that `unicode.IsSpace` accepts. -/
def spaces : List Str :=
  [[9], [10], [11], [12], [13], [32], [0xC2, 0x85], [0xC2, 0xA0], [0xE1, 0x9A, 0x80],
    [0xE2, 0x80, 0x80], [0xE2, 0x80, 0x81], [0xE2, 0x80, 0x82], [0xE2, 0x80, 0x83],
    [0xE2, 0x80, 0x84], [0xE2, 0x80, 0x85], [0xE2, 0x80, 0x86], [0xE2, 0x80, 0x87],
    [0xE2, 0x80, 0x88], [0xE2, 0x80, 0x89], [0xE2, 0x80, 0x8A], [0xE2, 0x80, 0xA8],
    [0xE2, 0x80, 0xA9], [0xE2, 0x80, 0xAF], [0xE2, 0x81, 0x9F], [0xE3, 0x80, 0x80]]

/-- Strip leading members of `blanks`, at most `fuel` of them. -/
def stripLeading (blanks : List Str) : Nat → Str → Str
  | 0, s => s
  | fuel + 1, s =>
    match blanks.find? (fun blank => blank.isPrefixOf s) with
    | none => s
    | some blank => stripLeading blanks fuel (s.drop blank.length)

/-- `strings.TrimSpace`, at the end by way of the reversed string. -/
def trimSpace : Str :=
  let left := stripLeading spaces s.length s
  (stripLeading (spaces.map List.reverse) left.length left.reverse).reverse

/-- `strings.CutPrefix`: what follows the prefix, if it is there. -/
def cutPrefix : Option Str := if s.hasPrefix pre then some (s.drop pre.length) else none

def join (sep : Str) (parts : List Str) : Str := sep.intercalate parts

/-- What comes before the last of a byte, if there is one: `s[:LastIndex(s, sep)]`. -/
def beforeLast (sep : UInt8) (s : Str) : Option Str :=
  if s.contains sep then some ((s.reverse.dropWhile (· != sep)).drop 1).reverse else none

/-- `strings.SplitN` for a one-byte separator; the last part keeps further separators. -/
def splitN (sep : UInt8) : Nat → Str → List Str
  | 0, _ => []
  | 1, s => [s]
  | n + 2, s =>
    if s.contains sep then
      s.takeWhile (· != sep) :: splitN sep (n + 1) ((s.dropWhile (· != sep)).drop 1)
    else [s]

/-- `strings.Split` for a one-byte separator. One more part than there are
separators always suffices. -/
def split (sep : UInt8) (s : Str) : List Str := splitN sep (s.length + 1) s

theorem hasPrefix_iff {s pre : Str} : s.hasPrefix pre = true ↔ pre <+: s := by
  simp [hasPrefix]

section

variable {sep : UInt8}

theorem splitN_append {part : Str} (hpart : sep ∉ part) (n : Nat) (rest : Str) :
    splitN sep (n + 2) (part ++ sep :: rest) = part :: splitN sep (n + 1) rest := by
  have hall : ∀ b ∈ part, (b != sep) = true := fun b hb => by
    simpa using fun heq : b = sep => hpart (heq ▸ hb)
  have htake : (part ++ sep :: rest).takeWhile (· != sep) = part := by
    rw [takeWhile_append_of_pos hall, takeWhile_cons_of_neg (by simp), append_nil]
  have hdrop : (part ++ sep :: rest).dropWhile (· != sep) = sep :: rest := by
    rw [dropWhile_append_of_pos hall, dropWhile_cons_of_neg (by simp)]
  rw [splitN, if_pos (by simp), htake, hdrop]
  rfl

/-- The parts put together with separators are the string, and all but the last
are free of separators. -/
theorem splitN_cons {n : Nat} {s part : Str} {next : Str} {more : List Str}
    (h : splitN sep (n + 1) s = part :: next :: more) :
    ∃ rest, s = part ++ sep :: rest ∧ sep ∉ part ∧ splitN sep n rest = next :: more := by
  cases n with
  | zero => simp [splitN] at h
  | succ n =>
    by_cases hmem : sep ∈ s
    · obtain ⟨_, after, rfl, hbefore⟩ := eq_append_cons_of_mem hmem
      rw [splitN_append hbefore] at h
      obtain ⟨rfl, hrest⟩ := List.cons.inj h
      exact ⟨after, rfl, hbefore, hrest⟩
    · rw [splitN, if_neg (by simpa using hmem)] at h
      simp at h

theorem splitN_singleton_iff {n : Nat} {s part : Str} :
    splitN sep (n + 2) s = [part] ↔ s = part ∧ sep ∉ s := by
  by_cases hmem : sep ∈ s
  · obtain ⟨_, _, rfl, hbefore⟩ := eq_append_cons_of_mem hmem
    cases n <;> simp [splitN]
    split <;> simp
  · rw [splitN]
    simp [hmem]

theorem splitN_two_iff {s first last : Str} :
    splitN sep 2 s = [first, last] ↔ s = first ++ sep :: last ∧ sep ∉ first := by
  constructor
  · intro h
    obtain ⟨rest, rfl, hfirst, hrest⟩ := splitN_cons h
    obtain rfl : rest = last := by simpa [splitN] using hrest
    exact ⟨rfl, hfirst⟩
  · rintro ⟨rfl, hfirst⟩
    rw [splitN_append hfirst]
    rfl

theorem append_sep_inj {first second rest others : Str} (hfirst : sep ∉ first)
    (hsecond : sep ∉ second) :
    first ++ sep :: rest = second ++ sep :: others ↔ first = second ∧ rest = others := by
  constructor
  · intro h
    have hsplit := splitN_two_iff.mpr ⟨h, hsecond⟩
    rw [splitN_two_iff.mpr ⟨rfl, hfirst⟩] at hsplit
    simpa using hsplit
  · rintro ⟨rfl, rfl⟩
    rfl

theorem splitN_three_iff {s first second last : Str} : splitN sep 3 s = [first, second, last] ↔
      s = first ++ sep :: (second ++ sep :: last) ∧ sep ∉ first ∧ sep ∉ second := by
  constructor
  · intro h
    obtain ⟨_, rfl, hfirst, hrest⟩ := splitN_cons h
    obtain ⟨rfl, hsecond⟩ := splitN_two_iff.mp hrest
    exact ⟨rfl, hfirst, hsecond⟩
  · rintro ⟨rfl, hfirst, hsecond⟩
    rw [splitN_append hfirst, splitN_two_iff.mpr ⟨rfl, hsecond⟩]

theorem splitN_four_iff {s first second third last : Str} :
    splitN sep 4 s = [first, second, third, last] ↔
      s = first ++ sep :: (second ++ sep :: (third ++ sep :: last)) ∧
        sep ∉ first ∧ sep ∉ second ∧ sep ∉ third := by
  constructor
  · intro h
    obtain ⟨_, rfl, hfirst, hrest⟩ := splitN_cons h
    obtain ⟨rfl, hsecond, hthird⟩ := splitN_three_iff.mp hrest
    exact ⟨rfl, hfirst, hsecond, hthird⟩
  · rintro ⟨rfl, hfirst, hsecond, hthird⟩
    rw [splitN_append hfirst, splitN_three_iff.mpr ⟨rfl, hsecond, hthird⟩]

end

theorem hasSuffix_iff {s suffix : Str} : s.hasSuffix suffix = true ↔ suffix <:+ s := by
  simp [hasSuffix]

/-- A cut puts the string together from its parts, and is found if there is any. -/
theorem cut_eq_some {sep s before after : Str} (h : cut sep s = some (before, after)) :
    s = before ++ sep ++ after := by
  induction s generalizing before with
  | nil =>
    simp only [cut] at h
    split at h
    next hempty =>
      obtain ⟨rfl, rfl⟩ := Prod.mk.inj (Option.some.inj h)
      simpa using hempty
    next => cases h
  | cons b rest ih =>
    simp only [cut] at h
    split at h
    next hstarts =>
      obtain ⟨rfl, rfl⟩ := Prod.mk.inj (Option.some.inj h)
      obtain ⟨_, htail⟩ := isPrefixOf_iff_prefix.mp hstarts
      simp [← htail]
    next =>
      obtain ⟨_, hparts, heq⟩ := Option.map_eq_some_iff.mp h
      obtain ⟨rfl, rfl⟩ := Prod.mk.inj heq
      simp [ih hparts]

theorem cut_isSome_of_append (sep before after : Str) :
    (cut sep (before ++ sep ++ after)).isSome := by
  induction before with
  | nil =>
    cases hwhole : [] ++ sep ++ after with
    | nil =>
      obtain ⟨hsep, -⟩ := append_eq_nil_iff.mp hwhole
      simp [cut, show sep = [] by simpa using hsep]
    | cons b rest =>
      have hstarts : sep.isPrefixOf (b :: rest) = true := by
        rw [← hwhole]
        simp
      simp [cut, hstarts]
  | cons b rest ih =>
    rw [append_assoc, cons_append, cut]
    split
    · rfl
    · rw [Option.isSome_map, ← append_assoc]
      exact ih

theorem containsStr_iff {s sub : Str} : s.containsStr sub = true ↔ sub <:+: s := by
  constructor
  · intro h
    obtain ⟨parts, hparts⟩ := Option.isSome_iff_exists.mp h
    exact ⟨parts.1, parts.2, (cut_eq_some hparts).symm⟩
  · rintro ⟨before, after, rfl⟩
    exact cut_isSome_of_append sub before after

theorem trimPrefix_append (rest : Str) : (pre ++ rest).trimPrefix pre = rest := by
  rw [trimPrefix, if_pos (hasPrefix_iff.mpr (prefix_append pre rest)), drop_left]

theorem cutPrefix_eq_some_iff {s pre rest : Str} :
    s.cutPrefix pre = some rest ↔ s = pre ++ rest := by
  unfold cutPrefix
  constructor
  · intro h
    split at h
    next hstarts =>
      obtain ⟨_, rfl⟩ := hasPrefix_iff.mp hstarts
      rw [drop_left] at h
      rw [Option.some.inj h]
    next => cases h
  · rintro rfl
    rw [if_pos (hasPrefix_iff.mpr (prefix_append pre rest)), drop_left]

theorem hasPrefix_append (rest : Str) : (pre ++ rest).hasPrefix pre = true :=
  hasPrefix_iff.mpr (prefix_append pre rest)

end Str

end Go
