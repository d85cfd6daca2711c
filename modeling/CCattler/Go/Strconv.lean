import Mathlib.Data.Nat.Digits.Lemmas
import Mathlib.Data.List.TakeWhile
import CCattler.Go.Strings

/-! # Decimal numerals and 64-bit arithmetic

`Atoi` and `ParseInt` return a value together with an error, and some callers keep the
value and drop the error.
-/

namespace Go

open List

/-- The value of an `int64` computation in two's complement. -/
def wrap64 (n : Int) : Int := Int.bmod n (2 ^ 64)

def maxInt64 : Int := 2 ^ 63 - 1

variable {n : Nat}

theorem wrap64_natCast (h : n < 2 ^ 63) : wrap64 n = n := by
  apply Int.bmod_eq_of_le <;> omega

theorem wrap64_natCast_le (n : Nat) : wrap64 n ≤ n := by
  unfold wrap64 Int.bmod
  dsimp only
  split <;> omega

def minInt64 : Int := -2 ^ 63

inductive NumError where
  | syntactic
  | range
  deriving DecidableEq, Repr

/-- The value of a decimal digit, if the byte is one. -/
def digitValue (b : UInt8) : Option Nat :=
  if 48 ≤ b.toNat ∧ b.toNat ≤ 57 then some (b.toNat - 48) else none

/-- The loop of `ParseUint`. Overflow is noticed before a later bad byte. -/
def parseUintFrom : Nat → Str → Except NumError Nat
  | value, [] => .ok value
  | value, b :: rest =>
    match digitValue b with
    | none => .error .syntactic
    | some digit =>
      if 2 ^ 64 ≤ value * 10 + digit then .error .range
      else parseUintFrom (value * 10 + digit) rest

/-- `ParseUint` in base ten: the empty string is a syntax error. -/
def parseUint : Str → Except NumError Nat
  | [] => .error .syntactic
  | b :: rest => parseUintFrom 0 (b :: rest)

/-- Bring a magnitude into `int64` range, reporting whether it did not fit. -/
def signedOf (negative : Bool) (magnitude : Nat) : Int × Option NumError :=
  if negative then
    if 2 ^ 63 < magnitude then (minInt64, some .range) else (-(magnitude : Int), none)
  else
    if 2 ^ 63 ≤ magnitude then (maxInt64, some .range) else (magnitude, none)

/-- The optional sign of a numeral, and the digits after it. -/
def splitSign : Str → Bool × Str
  | [] => (false, [])
  | b :: rest =>
    if b = 43 then (false, rest) else if b = 45 then (true, rest) else (false, b :: rest)

/-- `strconv.ParseInt(s, 10, 64)`, which on a 64-bit platform is `strconv.Atoi`. -/
def parseInt (s : Str) : Int × Option NumError :=
  match parseUint (splitSign s).2 with
  | .error .syntactic => (0, some .syntactic)
  | .error .range => (if (splitSign s).1 then minInt64 else maxInt64, some .range)
  | .ok magnitude => signedOf (splitSign s).1 magnitude

/-- The decimal digits of a natural number, most significant first. -/
def natDigits (n : Nat) : Str :=
  if n = 0 then [48] else (Nat.digits 10 n).reverse.map (fun d => UInt8.ofNat (48 + d))

/-- `strconv.Itoa`, also `fmt.Sprintf("%d", n)`. -/
def itoa (n : Int) : Str :=
  match n with
  | .ofNat m => natDigits m
  | .negSucc m => 45 :: natDigits (m + 1)

/-- The longest start of a string that is an optional sign and digits. -/
def leadingNumeral : Str → Str
  | [] => []
  | b :: rest =>
    if b = 43 ∨ b = 45 then b :: rest.takeWhile (fun c => (digitValue c).isSome)
    else (b :: rest).takeWhile (fun c => (digitValue c).isSome)

/-- An ASCII blank that `Sscanf` skips: a newline is not one. -/
def isBlank (b : UInt8) : Bool :=
  b == 32 || b == 9 || b == 11 || b == 12 || b == 13

/-- `fmt.Sscanf(s, "%d", &n)` into a zero variable; an error leaves zero. -/
def sscanfDecimal (s : Str) : Int :=
  match parseInt (leadingNumeral (s.dropWhile isBlank)) with
  | (value, none) => value
  | (_, some _) => 0

theorem digitValue_digit {d : Nat} (h : d < 10) : digitValue (UInt8.ofNat (48 + d)) = some d := by
  have hbyte : (UInt8.ofNat (48 + d)).toNat = 48 + d := by
    rw [UInt8.toNat_ofNat']
    omega
  rw [digitValue, if_pos (by omega)]
  congr 1
  omega

/-- Digits that fit are parsed to their value. -/
theorem parseUintFrom_digits (digits : List Nat) (hdigits : ∀ d ∈ digits, d < 10) (value : Nat)
    (hfit : Nat.ofDigits 10 digits.reverse + 10 ^ digits.length * value < 2 ^ 64) :
    parseUintFrom value (digits.map (fun d => UInt8.ofNat (48 + d))) =
      .ok (Nat.ofDigits 10 digits.reverse + 10 ^ digits.length * value) := by
  induction digits generalizing value with
  | nil => simp [parseUintFrom]
  | cons d rest ih =>
    have hsplit : Nat.ofDigits 10 (d :: rest).reverse + 10 ^ (d :: rest).length * value =
        Nat.ofDigits 10 rest.reverse + 10 ^ rest.length * (value * 10 + d) := by
      rw [reverse_cons, Nat.ofDigits_append, length_reverse, length_cons]
      simp only [Nat.ofDigits_singleton]
      ring
    have hstep : value * 10 + d < 2 ^ 64 := by
      have hpow : 1 ≤ 10 ^ rest.length := Nat.one_le_pow _ _ (by norm_num)
      nlinarith [Nat.zero_le (Nat.ofDigits 10 rest.reverse)]
    rw [hsplit] at hfit ⊢
    simp only [map_cons, parseUintFrom, digitValue_digit (hdigits d mem_cons_self)]
    rw [if_neg (by omega)]
    exact ih (fun x hx => hdigits x (mem_cons_of_mem d hx)) _ hfit

theorem natDigits_ne_nil (n : Nat) : natDigits n ≠ [] := by
  unfold natDigits
  split
  next => simp
  next hzero => simpa [Nat.digits_ne_nil_iff_ne_zero] using hzero

theorem parseUint_natDigits (hfit : n < 2 ^ 64) : parseUint (natDigits n) = .ok n := by
  have hread : parseUintFrom 0 (natDigits n) = .ok n := by
    unfold natDigits
    split
    next =>
      subst n
      rfl
    next =>
      have hdigits : ∀ d ∈ (Nat.digits 10 n).reverse, d < 10 := fun d hd =>
        Nat.digits_lt_base (by norm_num) (mem_reverse.mp hd)
      have hvalue := parseUintFrom_digits (Nat.digits 10 n).reverse hdigits 0
        (by simpa [Nat.ofDigits_digits] using hfit)
      simpa [Nat.ofDigits_digits] using hvalue
  cases hlist : natDigits n with
  | nil => exact absurd hlist (natDigits_ne_nil n)
  | cons b rest =>
    rw [hlist] at hread
    exact hread

variable {b : UInt8}

theorem digitValue_natDigits (hb : b ∈ natDigits n) : (digitValue b).isSome = true := by
  unfold natDigits at hb
  split at hb
  next =>
    rw [mem_singleton.mp hb]
    rfl
  next =>
    obtain ⟨d, hd, rfl⟩ := mem_map.mp hb
    rw [digitValue_digit (Nat.digits_lt_base (by norm_num) (mem_reverse.mp hd))]
    rfl

theorem not_isBlank_of_digitValue (h : (digitValue b).isSome = true) : isBlank b = false := by
  by_contra hblank
  simp only [Bool.not_eq_false, isBlank, Bool.or_eq_true, beq_iff_eq] at hblank
  rcases hblank with (((rfl | rfl) | rfl) | rfl) | rfl <;> exact absurd h (by decide)

theorem exists_natDigits_cons (n : Nat) : ∃ b rest, natDigits n = b :: rest ∧
    b ≠ 43 ∧ b ≠ 45 ∧ isBlank b = false := by
  cases hlist : natDigits n with
  | nil => exact absurd hlist (natDigits_ne_nil n)
  | cons b rest =>
    have hdigit := digitValue_natDigits (n := n) (b := b) (by rw [hlist]; exact mem_cons_self)
    refine ⟨b, rest, rfl, ?_, ?_, not_isBlank_of_digitValue hdigit⟩
    · rintro rfl
      exact absurd hdigit (by decide)
    · rintro rfl
      exact absurd hdigit (by decide)

theorem parseInt_itoa {n : Int} (hlow : minInt64 ≤ n) (hhigh : n ≤ maxInt64) :
    parseInt (itoa n) = (n, none) := by
  unfold minInt64 at hlow
  unfold maxInt64 at hhigh
  cases n with
  | ofNat m =>
    have hm : m < 2 ^ 63 := by
      rw [Int.ofNat_eq_natCast] at hhigh
      omega
    have hread := parseUint_natDigits (n := m) (by omega)
    obtain ⟨b, _, hlist, hplus, hminus, -⟩ := exists_natDigits_cons m
    have hsign : splitSign (natDigits m) = (false, natDigits m) := by
      simp [hlist, splitSign, hplus, hminus]
    simp only [itoa, parseInt, hsign, hread, signedOf, Bool.false_eq_true, ↓reduceIte]
    rw [if_neg (by omega)]
    rfl
  | negSucc m =>
    have hread := parseUint_natDigits (n := m + 1) (by omega)
    have hsign : splitSign (45 :: natDigits (m + 1)) = (true, natDigits (m + 1)) := rfl
    simp only [itoa, parseInt, hsign, hread, signedOf, ↓reduceIte]
    rw [if_neg (by omega)]
    rfl

theorem natDigits_injective : Function.Injective natDigits := by
  refine Function.LeftInverse.injective
    (g := fun text => Nat.ofDigits 10 (text.reverse.map fun b => b.toNat - 48)) fun n => ?_
  unfold natDigits
  split
  next hzero =>
    subst hzero
    rfl
  next =>
    have hdigits : (Nat.digits 10 n).map (fun d => (UInt8.ofNat (48 + d)).toNat - 48) =
        Nat.digits 10 n := by
      refine (map_congr_left fun d hd => ?_).trans (map_id _)
      have hlt : d < 10 := Nat.digits_lt_base (by norm_num) hd
      rw [UInt8.toNat_ofNat', Nat.mod_eq_of_lt (by omega), Nat.add_sub_cancel_left]
      rfl
    dsimp only
    rw [map_reverse, map_map, map_reverse, reverse_reverse]
    exact (congrArg (Nat.ofDigits 10) hdigits).trans (Nat.ofDigits_digits 10 n)

theorem itoa_inj {first second : Nat} (h : itoa first = itoa second) : first = second :=
  natDigits_injective h

theorem le_of_parseUintFrom {start number : Nat} {text : Str}
    (h : parseUintFrom start text = .ok number) : start ≤ number := by
  induction text generalizing start with
  | nil => exact Nat.le_of_eq (Except.ok.inj h)
  | cons b rest ih =>
    simp only [parseUintFrom] at h
    split at h
    next => cases h
    next =>
      split at h
      next => cases h
      next => exact Nat.le_trans (by omega) (ih h)

theorem notMem_itoa (hdigit : digitValue b = none) (hminus : b ≠ 45) (n : Int) : b ∉ itoa n := by
  have hnat : ∀ m, b ∉ natDigits m := by
    intro m hmem
    have hsome := digitValue_natDigits hmem
    rw [hdigit] at hsome
    cases hsome
  cases n with
  | ofNat m => exact hnat m
  | negSucc m =>
    rw [itoa, mem_cons, not_or]
    exact ⟨hminus, hnat _⟩

theorem slash_notMem_itoa (n : Int) : Str.slash ∉ itoa n := notMem_itoa (by decide) (by decide) n

/-! ## Numerals that parse -/

theorem parseInt_range (s : Str) : minInt64 ≤ (parseInt s).1 ∧ (parseInt s).1 ≤ maxInt64 := by
  unfold parseInt
  split
  next => decide
  next => split <;> decide
  next =>
    simp only [signedOf, minInt64, maxInt64]
    split <;> split <;> simp only <;> omega

theorem sscanfDecimal_range (s : Str) :
    minInt64 ≤ sscanfDecimal s ∧ sscanfDecimal s ≤ maxInt64 := by
  unfold sscanfDecimal
  split
  next _ heq =>
    have hrange := parseInt_range (leadingNumeral (s.dropWhile isBlank))
    rw [heq] at hrange
    exact hrange
  next => decide

theorem leadingNumeral_itoa (n : Int) : leadingNumeral (itoa n) = itoa n := by
  have hall : ∀ m, (natDigits m).takeWhile (fun b => (digitValue b).isSome) = natDigits m :=
    fun m => takeWhile_eq_self_iff.mpr (fun b hb => digitValue_natDigits hb)
  cases n with
  | ofNat m =>
    obtain ⟨b, _, hlist, hplus, hminus, -⟩ := exists_natDigits_cons m
    have htake := hall m
    rw [hlist] at htake
    simp only [itoa, hlist, leadingNumeral, hplus, hminus, or_self, ↓reduceIte, htake]
  | negSucc m =>
    simp only [itoa, leadingNumeral, or_true, ↓reduceIte, hall]

theorem sscanfDecimal_itoa {n : Int} (hlow : minInt64 ≤ n) (hhigh : n ≤ maxInt64) :
    sscanfDecimal (itoa n) = n := by
  have hblank : (itoa n).dropWhile isBlank = itoa n := by
    cases n with
    | ofNat m =>
      obtain ⟨b, _, hlist, -, -, hblank⟩ := exists_natDigits_cons m
      simp [itoa, hlist, hblank]
    | negSucc m => rfl
  rw [sscanfDecimal, hblank, leadingNumeral_itoa, parseInt_itoa hlow hhigh]

end Go
