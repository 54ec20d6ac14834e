import Mathlib.Data.List.TakeWhile

/-! Unsigned numerals as the C++ standard library reads them: `std::stoull` skips
white space, takes a sign and the longest run of digits, and ignores the rest. -/
namespace TinyChat.Text

/-- The exceptions of `std::stoull`. -/
inductive NumeralError where
  | invalidArgument
  | outOfRange
  deriving DecidableEq

/-- `std::isspace` in the C locale. -/
def isSpace (char : Char) : Bool := char = ' ' || (9 ≤ char.toNat && char.toNat ≤ 13)

/-- Take an optional sign off; true for a minus sign. -/
def splitSign : List Char → Bool × List Char
  | '-' :: rest => (true, rest)
  | '+' :: rest => (false, rest)
  | text => (false, text)

/-- The number of the leading digits; a minus sign negates modulo 2 to the 64th. -/
def numeral (negative : Bool) (text : List Char) : Except NumeralError UInt64 :=
  let digits := text.takeWhile Char.isDigit
  if digits = [] then .error .invalidArgument
  else if UInt64.size ≤ Nat.ofDigitChars 10 digits 0 then .error .outOfRange
  else
    let value := UInt64.ofNat (Nat.ofDigitChars 10 digits 0)
    .ok (if negative then 0 - value else value)

/-- `std::stoull` in base ten. -/
def stoull (text : String) : Except NumeralError UInt64 :=
  let (negative, rest) := splitSign (text.toList.dropWhile isSpace)
  numeral negative rest

/-- `std::to_string`. -/
def toDecimal (number : UInt64) : String := toString number.toNat

@[simp] theorem toDecimal_toList (number : UInt64) :
    (toDecimal number).toList = Nat.toDigits 10 number.toNat := by
  simp [toDecimal]

theorem isDigit_of_mem_toDecimal {number : UInt64} {char : Char}
    (found : char ∈ Nat.toDigits 10 number.toNat) : char.isDigit = true :=
  Nat.isDigit_of_mem_toDigits (by decide) (by decide) found

private theorem isSpace_of_isDigit {char : Char} (digit : char.isDigit = true) :
    isSpace char = false := by
  have low : 48 ≤ char.toNat := by
    have bounds : 48 ≤ char.val ∧ char.val ≤ 57 := by simpa [Char.isDigit] using digit
    exact UInt32.le_iff_toNat_le.mp bounds.1
  have blank : char ≠ ' ' := by
    rintro rfl
    exact absurd low (by decide)
  simp [isSpace, blank]
  omega

private theorem splitSign_of_isDigit {char : Char} {rest : List Char}
    (digit : char.isDigit = true) : splitSign (char :: rest) = (false, char :: rest) := by
  unfold splitSign
  split
  · rename_i same
    cases same
    exact absurd digit (by decide)
  · rename_i same
    cases same
    exact absurd digit (by decide)
  · rfl

/-- A numeral is read to its last digit, whatever follows. -/
theorem numeral_toDecimal (number : UInt64) {suffix : List Char}
    (ends : suffix.head?.all (fun char => !char.isDigit) = true) :
    numeral false (Nat.toDigits 10 number.toNat ++ suffix) = .ok number := by
  have digits : (Nat.toDigits 10 number.toNat ++ suffix).takeWhile Char.isDigit =
      Nat.toDigits 10 number.toNat := by
    rw [List.takeWhile_append_of_pos fun _ found => isDigit_of_mem_toDecimal found]
    cases suffix with
    | nil => simp
    | cons char rest =>
      have other : char.isDigit = false := by simpa using ends
      simp [other]
  have bounded : ¬ UInt64.size ≤ number.toNat := Nat.not_le.mpr number.toNat_lt_size
  simp [numeral, digits, bounded]

/-- `stoull` reads back what `to_string` printed, with anything but a digit after it. -/
theorem stoull_toDecimal_append (number : UInt64) {suffix : String}
    (ends : suffix.toList.head?.all (fun char => !char.isDigit) = true) :
    stoull (toDecimal number ++ suffix) = .ok number := by
  obtain ⟨char, rest, shape⟩ := List.exists_cons_of_ne_nil (@Nat.toDigits_ne_nil number.toNat 10)
  have digit : char.isDigit = true := @isDigit_of_mem_toDecimal number _ (by simp [shape])
  have text : (toDecimal number ++ suffix).toList = char :: (rest ++ suffix.toList) := by
    simp [shape]
  have read := @numeral_toDecimal number suffix.toList ends
  rw [shape, List.cons_append] at read
  simp only [stoull, text, List.dropWhile_cons, isSpace_of_isDigit digit, Bool.false_eq_true,
    if_false, splitSign_of_isDigit digit]
  exact read

theorem stoull_toDecimal (number : UInt64) : stoull (toDecimal number) = .ok number := by
  simpa using @stoull_toDecimal_append number "" rfl

theorem toDecimal_injective : Function.Injective toDecimal := by
  intro first second same
  have read := stoull_toDecimal first
  rw [same, stoull_toDecimal] at read
  exact (Except.ok.inj read).symm

example : stoull " +42x" = .ok 42 := by decide

example : stoull "-1" = .ok 18446744073709551615 := by decide

end TinyChat.Text
