import InferenceRouter.Backend
import InferenceRouter.Text
import Mathlib.Algebra.Field.Rat
import Mathlib.Algebra.Order.Ring.Unbundled.Rat
import Mathlib.Data.List.TakeWhile

/-! `f64`, with its finite values read as exact rationals: nothing is rounded,
nothing overflows to infinity, and there is one zero. -/
namespace InferenceRouter

inductive F64 where
  | nan
  | negInf
  | inf
  | finite (value : ℚ)
  deriving DecidableEq

namespace F64

def isFinite : F64 → Bool
  | .finite _ => true
  | .nan | .negInf | .inf => false

/-- The operator `<=`. -/
def le : F64 → F64 → Bool
  | .nan, _ | _, .nan => false
  | .negInf, _ | _, .inf => true
  | .finite p, .finite q => p ≤ q
  | .inf, _ | _, .negInf => false

/-- The operator `<`. -/
def lt (a b : F64) : Bool := le a b && !le b a

def neg : F64 → F64
  | .nan => .nan
  | .negInf => .inf
  | .inf => .negInf
  | .finite q => .finite (-q)

def add : F64 → F64 → F64
  | .nan, _ | _, .nan | .inf, .negInf | .negInf, .inf => .nan
  | .inf, _ | _, .inf => .inf
  | .negInf, _ | _, .negInf => .negInf
  | .finite p, .finite q => .finite (p + q)

/-- `f64::max`: a NaN gives way to the other argument. -/
def maximum : F64 → F64 → F64
  | .nan, other | other, .nan => other
  | .negInf, other | other, .negInf => other
  | .inf, _ | _, .inf => .inf
  | .finite p, .finite q => .finite (max p q)

/-- `f64::clamp`: a NaN stays one. -/
def clamp (low high : ℚ) : F64 → F64
  | .nan => .nan
  | .negInf => .finite low
  | .inf => .finite high
  | .finite q => .finite (max low (min q high))

/-- Multiplication by a positive constant. -/
def scale (factor : ℚ) : F64 → F64
  | .finite q => .finite (q * factor)
  | other => other

/-- The cast `as u64`, which saturates. -/
def toU64 : F64 → Nat
  | .nan | .negInf => 0
  | .inf => wordSize - 1
  | .finite q => min ⌊q⌋₊ (wordSize - 1)

theorem toU64_lt (v : F64) : v.toU64 < wordSize := by
  have hWord : 0 < wordSize := by decide
  cases v <;> simp only [toU64] <;> omega

/-- The number, if the value is one. -/
def toRat : F64 → ℚ
  | .finite q => q
  | .nan | .negInf | .inf => 0

/-- A sign and what follows it; no sign is a plus. -/
def splitSign : List Char → Bool × List Char
  | '-' :: rest => (true, rest)
  | '+' :: rest => (false, rest)
  | text => (false, text)

def exponent (text : List Char) : Option Int :=
  let (negative, digits) := splitSign text
  if digits.isEmpty || !digits.all Char.isDigit then none
  else
    let value := Nat.ofDigitChars 10 digits 0
    some (if negative then -value else value)

/-- The digits behind a decimal point, if there is one, and what follows them. -/
def splitFraction : List Char → List Char × List Char
  | '.' :: rest => (rest.takeWhile Char.isDigit, rest.dropWhile Char.isDigit)
  | rest => ([], rest)

/-- A mantissa and what follows its digits: nothing, or an exponent. -/
def withExponent (mantissa : ℚ) : List Char → Option ℚ
  | [] => some mantissa
  | c :: rest => if c = 'e' || c = 'E' then (exponent rest).map fun e => mantissa * 10 ^ e else none

/-- Decimal digits with or without a point among or around them. -/
def number (text : List Char) : Option ℚ :=
  let whole := text.takeWhile Char.isDigit
  let (fraction, rest) := splitFraction (text.dropWhile Char.isDigit)
  if whole.isEmpty && fraction.isEmpty then none
  else withExponent (Nat.ofDigitChars 10 (whole ++ fraction) 0 / 10 ^ fraction.length) rest

/-- A value without its sign. The names of the special ones are read in any case. -/
def magnitude (text : List Char) : Option F64 :=
  let lower := text.map Char.toLower
  if lower = "inf".toList || lower = "infinity".toList then some .inf
  else if lower = "nan".toList then some .nan
  else (number text).map .finite

/-- `f64::from_str`. -/
def fromStr (text : List Char) : Option F64 :=
  let (negative, text) := splitSign text
  (magnitude text).map fun value => if negative then value.neg else value

/-- `Display`: all decimals of a finite value, without an exponent. -/
def display : F64 → String
  | .nan => "NaN"
  | .inf => "inf"
  | .negInf => "-inf"
  | .finite q =>
      let places := ((List.range (q.den.log2 + 1)).find? fun k => 10 ^ k % q.den = 0).getD 0
      let digits := q.num.natAbs * 10 ^ places / q.den
      let decimals := (Nat.toDigits 10 (digits % 10 ^ places)).leftpad places '0'
      (if q < 0 then "-" else "") ++ toString (digits / 10 ^ places) ++
        (if places = 0 then "" else "." ++ String.ofList decimals)

example : fromStr "-12.50e-1".toList = some (.finite (-5 / 4)) ∧ fromStr "+Inf".toList = some .inf ∧
    fromStr "1.".toList = some (.finite 1) ∧ fromStr ".".toList = none ∧ fromStr "1e".toList = none ∧
    (F64.finite (-5 / 4)).display = "-1.25" := by
  decide +kernel

/-- The characters of numbers are among those from `+` to `z`. -/
def Plain (c : Char) : Prop := 43 ≤ c.toNat ∧ c.toNat ≤ 122

theorem Plain.not_whitespace {c : Char} (h : Plain c) : isWhitespace c = false := by
  obtain ⟨hLow, hHigh⟩ := h
  simp [isWhitespace]
  omega

theorem plain_of_isDigit {c : Char} (h : c.isDigit = true) : Plain c := by
  simp only [Char.isDigit, Bool.and_eq_true, decide_eq_true_eq, ge_iff_le, UInt32.le_iff_toNat_le] at h
  have hLow : 48 ≤ c.toNat := h.1
  have hHigh : c.toNat ≤ 57 := h.2
  exact ⟨by omega, by omega⟩

theorem plain_of_toLower {c : Char} (h : 97 ≤ c.toLower.toNat ∧ c.toLower.toNat ≤ 122) : Plain c := by
  unfold Char.toLower at h
  split at h
  · rename_i hUpper
    have hLow : 65 ≤ c.toNat := hUpper.1
    have hHigh : c.toNat ≤ 90 := hUpper.2
    exact ⟨by omega, by omega⟩
  · exact ⟨by omega, h.2⟩

theorem mem_splitSign {text : List Char} {c : Char} (h : c ∈ text) :
    Plain c ∨ c ∈ (splitSign text).2 := by
  unfold splitSign
  split
  · rcases List.mem_cons.mp h with rfl | hRest
    · exact .inl (by unfold Plain; decide)
    · exact .inr hRest
  · rcases List.mem_cons.mp h with rfl | hRest
    · exact .inl (by unfold Plain; decide)
    · exact .inr hRest
  · exact .inr h

theorem plain_of_exponent {text : List Char} {e : Int} (h : exponent text = some e) :
    ∀ c ∈ text, Plain c := by
  intro c hc
  rcases mem_splitSign hc with hSign | hDigits
  · exact hSign
  · simp only [exponent] at h
    split at h
    · cases h
    · rename_i hAll
      simp only [Bool.or_eq_true, Bool.not_eq_true', not_or, Bool.not_eq_false, List.all_eq_true] at hAll
      exact plain_of_isDigit (hAll.2 c hDigits)

/-- Digits in front do no harm. -/
theorem plain_of_dropWhile {text : List Char} (h : ∀ c ∈ text.dropWhile Char.isDigit, Plain c) :
    ∀ c ∈ text, Plain c := by
  intro c hc
  rw [← text.takeWhile_append_dropWhile (p := Char.isDigit), List.mem_append] at hc
  rcases hc with hDigit | hRest
  · exact plain_of_isDigit (List.mem_takeWhile_imp hDigit)
  · exact h c hRest

theorem plain_of_splitFraction {text : List Char} (h : ∀ c ∈ (splitFraction text).2, Plain c) :
    ∀ c ∈ text, Plain c := by
  unfold splitFraction at h
  split at h
  · intro c hc
    rcases List.mem_cons.mp hc with rfl | hRest
    · unfold Plain
      decide
    · exact plain_of_dropWhile h c hRest
  · exact h

theorem plain_of_withExponent {mantissa q : ℚ} {text : List Char}
    (h : withExponent mantissa text = some q) : ∀ c ∈ text, Plain c := by
  unfold withExponent at h
  split at h
  · simp
  · split at h
    · rename_i hExponent
      obtain ⟨value, hValue, _⟩ := Option.map_eq_some_iff.mp h
      intro c hc
      rcases List.mem_cons.mp hc with rfl | hRest
      · simp only [Bool.or_eq_true, decide_eq_true_eq] at hExponent
        rcases hExponent with rfl | rfl
        · unfold Plain
          decide
        · unfold Plain
          decide
      · exact plain_of_exponent hValue c hRest
    · cases h

theorem plain_of_number {text : List Char} {q : ℚ} (h : number text = some q) :
    text ≠ [] ∧ ∀ c ∈ text, Plain c := by
  constructor
  · rintro rfl
    simp [number, splitFraction] at h
  · simp only [number] at h
    split at h
    · cases h
    · exact plain_of_dropWhile (plain_of_splitFraction (plain_of_withExponent h))

theorem plain_of_magnitude {text : List Char} {value : F64} (h : magnitude text = some value) :
    text ≠ [] ∧ ∀ c ∈ text, Plain c := by
  have hWord (word : List Char) (hEq : text.map Char.toLower = word) (hNonempty : word ≠ [])
      (hLetters : (word.all fun d => 97 ≤ d.toNat && d.toNat ≤ 122) = true) :
      text ≠ [] ∧ ∀ c ∈ text, Plain c := by
    subst hEq
    refine ⟨fun hNil => hNonempty (by rw [hNil]; rfl), fun c hc => plain_of_toLower ?_⟩
    have hLetter := List.all_eq_true.mp hLetters _ (List.mem_map_of_mem hc)
    rwa [Bool.and_eq_true, decide_eq_true_eq, decide_eq_true_eq] at hLetter
  simp only [magnitude] at h
  split at h
  · rename_i hInf
    simp only [Bool.or_eq_true, decide_eq_true_eq] at hInf
    rcases hInf with hInf | hInf
    · exact hWord _ hInf (by decide) (by decide)
    · exact hWord _ hInf (by decide) (by decide)
  · split at h
    · rename_i hNan
      exact hWord _ hNan (by decide) (by decide)
    · obtain ⟨q, hNumber, _⟩ := Option.map_eq_some_iff.mp h
      exact plain_of_number hNumber

/-- A text that is a number is one token. -/
theorem token_of_fromStr {text : List Char} {value : F64} (h : fromStr text = some value) :
    text ≠ [] ∧ ∀ c ∈ text, isWhitespace c = false := by
  obtain ⟨_, hMagnitude, _⟩ := Option.map_eq_some_iff.mp h
  obtain ⟨hNonempty, hPlain⟩ := plain_of_magnitude hMagnitude
  constructor
  · rintro rfl
    exact hNonempty rfl
  · intro c hc
    rcases mem_splitSign hc with hSign | hRest
    · exact hSign.not_whitespace
    · exact (hPlain c hRest).not_whitespace

theorem takeWhile_isDigit {digits : List Char} (rest : List Char) (hDigits : ∀ c ∈ digits, c.isDigit = true)
    (hRest : ∀ c ∈ rest.head?, c.isDigit = false) :
    (digits ++ rest).takeWhile Char.isDigit = digits ∧ (digits ++ rest).dropWhile Char.isDigit = rest := by
  rw [List.takeWhile_append_of_pos hDigits, List.dropWhile_append_of_pos hDigits]
  cases rest with
  | nil => simp
  | cons c rest => simp [hRest c rfl]

/-- Digits, and digits behind a point, are the number they are the digits of. -/
theorem number_decimal {whole : List Char} (fraction : List Char) (hNonempty : whole ≠ [])
    (hWhole : ∀ c ∈ whole, c.isDigit = true) (hFraction : ∀ c ∈ fraction, c.isDigit = true) :
    number (whole ++ if fraction = [] then [] else '.' :: fraction) =
      some ((Nat.ofDigitChars 10 (whole ++ fraction) 0 : ℚ) / 10 ^ fraction.length) := by
  have hPoint : ∀ c ∈ (if fraction = [] then [] else '.' :: fraction).head?, c.isDigit = false := by
    split
    · simp
    · simp
  obtain ⟨hTake, hDrop⟩ := takeWhile_isDigit _ hWhole hPoint
  have hSplit : splitFraction (if fraction = [] then [] else '.' :: fraction) = (fraction, []) := by
    split
    · rename_i hNone
      rw [hNone]
      rfl
    · obtain ⟨hTakeFraction, hDropFraction⟩ := takeWhile_isDigit [] hFraction (by simp)
      rw [List.append_nil] at hTakeFraction hDropFraction
      rw [splitFraction, hTakeFraction, hDropFraction]
  simp only [number, hTake, hDrop, hSplit]
  simp [hNonempty, withExponent]

/-- What begins with a digit is a number or nothing. -/
theorem fromStr_of_digit {c : Char} {rest : List Char} {q : ℚ} (hDigit : c.isDigit = true)
    (hNumber : number (c :: rest) = some q) : fromStr (c :: rest) = some (.finite q) := by
  have hOther (d : Char) (hLetter : d.isDigit = false) : c ≠ d := fun hSame => by
    rw [hSame, hLetter] at hDigit
    cases hDigit
  have hSign : splitSign (c :: rest) = (false, c :: rest) := by
    unfold splitSign
    split
    · rename_i hMinus
      exact absurd (List.cons.inj hMinus).1 (hOther '-' (by decide))
    · rename_i hPlus
      exact absurd (List.cons.inj hPlus).1 (hOther '+' (by decide))
    · rfl
  have hLower : c.toLower = c := by
    have hPlain := (plain_of_isDigit hDigit)
    unfold Char.toLower
    rw [dif_neg]
    rintro ⟨hUpper, -⟩
    simp only [Char.isDigit, Bool.and_eq_true, decide_eq_true_eq] at hDigit
    have hHigh := hDigit.2
    simp only [UInt32.le_iff_toNat_le] at hHigh hUpper
    have hNine : c.val.toNat ≤ 57 := hHigh
    have hA : 65 ≤ c.val.toNat := hUpper
    omega
  have hWord (d : Char) (word : List Char) (hLetter : d.isDigit = false) :
      ¬ (c :: rest).map Char.toLower = d :: word := fun hSame => by
    rw [List.map_cons, hLower] at hSame
    exact hOther d hLetter (List.cons.inj hSame).1
  have hMagnitude : magnitude (c :: rest) = some (.finite q) := by
    have hInf : (c :: rest).map Char.toLower ≠ "inf".toList := hWord 'i' ['n', 'f'] (by decide)
    have hInfinity : (c :: rest).map Char.toLower ≠ "infinity".toList :=
      hWord 'i' ['n', 'f', 'i', 'n', 'i', 't', 'y'] (by decide)
    have hNan : (c :: rest).map Char.toLower ≠ "nan".toList := hWord 'n' ['a', 'n'] (by decide)
    simp only [magnitude, hNumber, Option.map_some, hInf, hInfinity, hNan, decide_false, Bool.or_self,
      Bool.false_eq_true, if_false]
  rw [fromStr, hSign]
  simp [hMagnitude]

/-- A natural number is read as it is printed. -/
theorem fromStr_repr (n : Nat) : fromStr (toString n).toList = some (.finite n) := by
  have hDigits : ∀ c ∈ Nat.toDigits 10 n, c.isDigit = true :=
    fun c hc => Nat.isDigit_of_mem_toDigits (by decide) (by decide) hc
  have hNumber := number_decimal [] Nat.toDigits_ne_nil hDigits (by simp)
  rw [if_pos rfl, List.append_nil, Nat.ofDigitChars_ten_toDigits, List.length_nil, pow_zero, div_one] at hNumber
  rw [Nat.toString_eq_repr, Nat.toList_repr]
  cases hText : Nat.toDigits 10 n with
  | nil => exact absurd hText Nat.toDigits_ne_nil
  | cons c rest =>
      rw [hText] at hNumber
      exact fromStr_of_digit (hDigits c (hText ▸ List.mem_cons_self)) hNumber

end F64

end InferenceRouter
