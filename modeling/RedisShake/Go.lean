import Mathlib.Tactic.IntervalCases
import Mathlib.Data.List.Infix
import Mathlib.Data.Nat.Digits

set_option autoImplicit false

namespace RedisShake.Go

-- Go strings and byte slices are Lean strings: the code only compares, prefix-tests and
-- parses them, and measures them with `len`, which is their UTF-8 size.

/-- `strconv.ErrSyntax` and `strconv.ErrRange`. -/
inductive NumError where
  | invalid
  | range
deriving DecidableEq, Repr

def maxUint64 : Nat := 2 ^ 64 - 1

/-- The digit loop of `strconv.ParseUint(s, 10, 64)`: an overflow ends the scan before the
rest of the string is looked at. -/
def parseUintDigits (n : Nat) : List Char → Nat × Option NumError
  | [] => (n, none)
  | c :: cs =>
    if c.isDigit then
      if maxUint64 / 10 + 1 ≤ n then (maxUint64, some .range)
      else if maxUint64 < n * 10 + (c.toNat - '0'.toNat) then (maxUint64, some .range)
      else parseUintDigits (n * 10 + (c.toNat - '0'.toNat)) cs
    else (0, some .invalid)

def parseUint : List Char → Nat × Option NumError
  | [] => (0, some .invalid)
  | c :: cs => parseUintDigits 0 (c :: cs)

/-- `strconv.ParseInt(s, 10, 64)`, which is also `strconv.Atoi` on a 64-bit platform:
the value Go returns next to the error, `0` for a malformed string and the nearest bound
for one out of range. -/
def parseInt (s : String) : Int × Option NumError :=
  match s.toList with
  | [] => (0, some .invalid)
  | c :: cs =>
    let neg := decide (c = '-')
    let digits := if c = '+' ∨ c = '-' then cs else c :: cs
    match parseUint digits with
    | (_, some .invalid) => (0, some .invalid)
    | (un, _) =>
      if !neg ∧ 2 ^ 63 ≤ un then (2 ^ 63 - 1, some .range)
      else if neg ∧ 2 ^ 63 < un then (-2 ^ 63, some .range)
      else (if neg then -(un : Int) else un, none)

def atoi (s : String) : Int × Option NumError := parseInt s

/-- Go's `int32(x)` on a 64-bit `int`: the low 32 bits, read as a signed number. -/
def toInt32 (x : Int) : Int := x.bmod (2 ^ 32)

/-- Go's `uint32(x)` on a 64-bit `int`. -/
def toUint32 (x : Int) : UInt32 := UInt32.ofNat (x % 2 ^ 32).toNat

/-- `strings.EqualFold` case folding for the runes whose simple-fold orbit meets an ASCII
letter: ASCII case, the long s (U+017F) and the Kelvin sign (U+212A). It agrees with Go
whenever one side is ASCII, which is how the parser calls it. -/
def foldRune (c : Char) : Char :=
  if c = Char.ofNat 383 then 's' else if c = Char.ofNat 8490 then 'k' else c.toLower

def equalFold (s t : String) : Bool :=
  s.length == t.length && (s.toList.zip t.toList).all fun p => foldRune p.1 == foldRune p.2

/-- `strings.HasPrefix(s, pre)`. -/
def hasPrefix (s pre : String) : Bool := pre.toList.isPrefixOf s.toList

theorem hasPrefix_iff (s pre : String) : hasPrefix s pre = true ↔ pre.toList <+: s.toList :=
  List.isPrefixOf_iff_prefix

/-! ### `strconv.FormatInt` and `strconv.ParseInt` are inverse on `int64` -/

theorem digitChar_value (d : Nat) (h : d < 10) :
    (Nat.digitChar d).isDigit = true ∧ (Nat.digitChar d).toNat - '0'.toNat = d := by
  interval_cases d <;> decide

theorem parseUintDigits_toDigitsCore (fuel m : Nat) (ds : List Char) (fits : m < fuel)
    (bound : m ≤ maxUint64) :
    parseUintDigits 0 (Nat.toDigitsCore 10 fuel m ds) = parseUintDigits m ds := by
  induction fuel generalizing m ds with
  | zero => omega
  | succ fuel ih =>
    obtain ⟨digit, value⟩ := digitChar_value (m % 10) (Nat.mod_lt _ (by omega))
    have last : m / 10 * 10 + m % 10 = m := Nat.div_add_mod' m 10
    have small : m / 10 < maxUint64 / 10 + 1 := by unfold maxUint64 at *; omega
    by_cases top : m / 10 = 0
    next =>
      obtain ⟨digit, value⟩ := digitChar_value m (by omega)
      have single : m % 10 = m := by omega
      have fresh : ¬ maxUint64 / 10 + 1 ≤ 0 := by unfold maxUint64; omega
      simp only [Nat.toDigitsCore, top, if_true, single, parseUintDigits, digit, value,
        Nat.zero_mul, Nat.zero_add, fresh, Nat.not_lt.mpr bound, if_false]
    next =>
      simp only [Nat.toDigitsCore, top, if_false]
      rw [ih (m / 10) _ (by omega) (by unfold maxUint64 at *; omega)]
      simp only [parseUintDigits, digit, value, last, if_true, Nat.not_le.mpr small,
        Nat.not_lt.mpr bound, if_false]

theorem toDigits_cons (m : Nat) :
    ∃ c cs, Nat.toDigits 10 m = c :: cs ∧ c.isDigit = true := by
  have core (fuel n : Nat) (ds : List Char) (fits : n < fuel) :
      ∃ c cs, Nat.toDigitsCore 10 fuel n ds = c :: cs ∧ c.isDigit = true := by
    induction fuel generalizing n ds with
    | zero => omega
    | succ fuel ih =>
      by_cases top : n / 10 = 0
      next =>
        exact ⟨_, ds, by simp [Nat.toDigitsCore, top],
          (digitChar_value (n % 10) (Nat.mod_lt _ (by omega))).1⟩
      next =>
        simpa [Nat.toDigitsCore, top] using ih (n / 10) _ (by omega)
  exact core (m + 1) m [] (by omega)

theorem parseUint_toDigits (m : Nat) (bound : m ≤ maxUint64) :
    parseUint (Nat.toDigits 10 m) = (m, none) := by
  obtain ⟨c, cs, digits, _⟩ := toDigits_cons m
  have parsed := parseUintDigits_toDigitsCore (m + 1) m [] (by omega) bound
  simp only [Nat.toDigits] at digits
  simp only [Nat.toDigits, digits, parseUint] at parsed ⊢
  simpa [parseUintDigits] using parsed

theorem parseInt_toString (n : Int) (low : -2 ^ 63 ≤ n) (high : n < 2 ^ 63) :
    parseInt (toString n) = (n, none) := by
  cases n with
  | ofNat m =>
    simp only [Int.ofNat_eq_coe] at low high
    obtain ⟨c, cs, digits, isDigit⟩ := toDigits_cons m
    have plain : ¬ (c = '+' ∨ c = '-') := by
      rintro (rfl | rfl) <;> simp at isDigit
    have plus : c ≠ '+' := fun h => plain (.inl h)
    have minus : c ≠ '-' := fun h => plain (.inr h)
    have value := parseUint_toDigits m (by unfold maxUint64; omega)
    rw [digits] at value
    have small : ¬ 2 ^ 63 ≤ m := by omega
    simp only [toString, Nat.repr, List.asString, digits, parseInt, if_neg plain, value]
    simp [plus, minus, value]
    omega
  | negSucc m =>
    rw [Int.negSucc_eq] at low
    have value := parseUint_toDigits (m + 1) (by unfold maxUint64; omega)
    have small : ¬ 2 ^ 63 < m + 1 := by omega
    simp only [toString, Nat.repr, List.asString, parseInt, String.append, List.cons_append,
      List.nil_append, value]
    simp [value, small, Int.negSucc_eq]
    omega

theorem atoi_toString (n : Int) (low : -2 ^ 63 ≤ n) (high : n < 2 ^ 63) :
    atoi (toString n) = (n, none) :=
  parseInt_toString n low high

theorem toInt32_bounds (x : Int) : -2 ^ 31 ≤ toInt32 x ∧ toInt32 x < 2 ^ 31 := by
  simp only [toInt32, Int.bmod_def]
  split <;> omega

end RedisShake.Go
