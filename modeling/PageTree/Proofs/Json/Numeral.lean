import Mathlib.Data.List.Basic
import Mathlib.Data.List.Induction
import Mathlib.Data.List.TakeDrop
import Mathlib.Data.List.TakeWhile
import Mathlib.Tactic.IntervalCases
import Mathlib.Tactic.SplitIfs
import PageTree.Json.Reader

/-!
Integers as numerals. An integer has exactly one numeral without fraction and exponent that the
reader accepts as an integer: writing an integer gives that numeral back, and every numeral that
was read and is kept as an integer is the written form of it.
-/

namespace PageTree.Json

def Numeral.ofInt (n : Int) : Numeral := ⟨decide (n < 0), Nat.toDigits 10 n.natAbs, [], none⟩

/-- The integers that a signed or an unsigned 64-bit number can hold. -/
def InRange (n : Int) : Prop := -(i64Bound : Int) ≤ n ∧ n < u64Bound

structure Numeral.Spelled (n : Numeral) : Prop where
  digits : ∀ c ∈ n.whole, c.isDigit = true
  nonempty : n.whole ≠ []
  leadingZero : ∀ others, n.whole = '0' :: others → others = []

/-- A text that cannot go on a numeral before it. -/
def EndsNumeral (rest : List Char) : Prop :=
  ∀ c ∈ rest.head?, c.isDigit = false ∧ c ≠ '.' ∧ c ≠ 'e' ∧ c ≠ 'E'

theorem endsNumeral_nil : EndsNumeral [] := by simp [EndsNumeral]

theorem endsNumeral_cons {c : Char} {rest : List Char} (digit : c.isDigit = false)
    (point : c ≠ '.') (lower : c ≠ 'e') (upper : c ≠ 'E') : EndsNumeral (c :: rest) := by
  intro d first
  obtain rfl : c = d := by simpa using first
  exact ⟨digit, point, lower, upper⟩

theorem digitsOf_append {digits rest : List Char} (all : ∀ c ∈ digits, c.isDigit = true)
    (ends : EndsNumeral rest) : digitsOf (digits ++ rest) = (digits, rest) := by
  rw [digitsOf, List.span_eq_takeWhile_dropWhile, List.takeWhile_append_of_pos all,
    List.dropWhile_append_of_pos all]
  cases rest with
  | nil => simp
  | cons c rest =>
    have stop := (ends c (by simp)).1
    simp [stop]

theorem isDigit_of_mem_digitsOf {cs : List Char} {c : Char} (member : c ∈ (digitsOf cs).1) :
    c.isDigit = true := by
  rw [digitsOf, List.span_eq_takeWhile_dropWhile] at member
  exact List.mem_takeWhile_imp member

theorem eq_zero_of_head_toDigits (n : Nat) (zero : (Nat.toDigits 10 n).head? = some '0') :
    n = 0 := by
  induction n using Nat.strongRecOn with
  | ind n ih =>
    rw [Nat.toDigits_eq_if (by decide)] at zero
    split at zero
    · next small =>
      interval_cases n <;> simp_all [Nat.digitChar]
    · next large =>
      rw [List.head?_append_of_ne_nil _ Nat.toDigits_ne_nil] at zero
      have quotient := ih (n / 10) (by omega) zero
      omega

theorem spelled_ofInt (n : Int) : (Numeral.ofInt n).Spelled where
  digits _ member := Nat.isDigit_of_mem_toDigits (by decide) (by decide) member
  nonempty := Nat.toDigits_ne_nil
  leadingZero others same := by
    have zero := eq_zero_of_head_toDigits n.natAbs (by simp [Numeral.ofInt] at same; simp [same])
    simp only [Numeral.ofInt, zero, Nat.toDigits_zero, List.cons.injEq, true_and] at same
    exact same.symm

theorem readWhole_append {n : Numeral} (spelled : n.Spelled) {rest : List Char}
    (ends : EndsNumeral rest) : readWhole (n.whole ++ rest) = some (n.whole, rest) := by
  rw [readWhole, digitsOf_append spelled.digits ends]
  split
  · next none => exact absurd (Prod.mk.inj none).1 spelled.nonempty
  · next first others _ double =>
    have single := spelled.leadingZero (first :: others) (Prod.mk.inj double).1
    simp at single
  · next digits left _ _ same =>
    rw [(Prod.mk.inj same).1, (Prod.mk.inj same).2]

theorem readFraction_absent {rest : List Char} (ends : EndsNumeral rest) :
    readFraction rest = some ([], rest) := by
  cases rest with
  | nil => rfl
  | cons c rest =>
    have point := (ends c (by simp)).2.1
    unfold readFraction
    split
    · next same => exact absurd (List.cons.inj same).1 point
    · rfl

theorem readExponent_absent {rest : List Char} (ends : EndsNumeral rest) :
    readExponent rest = some (none, rest) := by
  cases rest with
  | nil => rfl
  | cons c rest =>
    obtain ⟨-, -, lower, upper⟩ := ends c (by simp)
    simp [readExponent, lower, upper]

theorem readMagnitude_toDigits (n : Int) {rest : List Char} (ends : EndsNumeral rest)
    (sign : Bool) :
    readMagnitude sign (Nat.toDigits 10 n.natAbs ++ rest) =
      some (⟨sign, Nat.toDigits 10 n.natAbs, [], none⟩, rest) := by
  have whole := readWhole_append (spelled_ofInt n) ends
  simp only [Numeral.ofInt] at whole
  simp only [readMagnitude, whole, readFraction_absent ends, readExponent_absent ends,
    Option.bind_eq_bind, Option.bind_some]
  rfl

theorem readNumeral_intText (n : Int) {rest : List Char} (ends : EndsNumeral rest) :
    readNumeral (intText n ++ rest) = some (Numeral.ofInt n, rest) := by
  unfold intText Numeral.ofInt
  by_cases negative : n < 0
  · rw [if_pos negative, decide_eq_true negative, List.cons_append, readNumeral]
    exact readMagnitude_toDigits n ends true
  · rw [if_neg negative, decide_eq_false negative, readNumeral]
    · exact readMagnitude_toDigits n ends false
    · intro others same
      have digit : ('-' : Char).isDigit = true :=
        Nat.isDigit_of_mem_toDigits (b := 10) (n := n.natAbs) (by decide) (by decide) (by
          cases written : Nat.toDigits 10 n.natAbs with
          | nil => exact absurd written Nat.toDigits_ne_nil
          | cons c cs =>
            rw [written] at same
            simp [(List.cons.inj same).1])
      exact absurd digit (by decide)

theorem magnitude_ofInt (n : Int) : (Numeral.ofInt n).magnitude = n.natAbs :=
  Nat.ofDigitChars_ten_toDigits

theorem integer?_ofInt {n : Int} (range : InRange n) : (Numeral.ofInt n).integer? = some n := by
  obtain ⟨low, high⟩ := range
  have magnitude := magnitude_ofInt n
  by_cases negative : n < 0
  · have bound : n.natAbs ≠ 0 ∧ n.natAbs ≤ i64Bound := by omega
    simp only [Numeral.integer?, magnitude, if_pos bound]
    simp only [Numeral.isWhole, Numeral.ofInt, List.isEmpty_nil, Option.isNone_none, Bool.and_self,
      if_true, negative, decide_true, Option.some.injEq]
    omega
  · have bound : n.natAbs < u64Bound := by omega
    simp only [Numeral.integer?, magnitude, if_pos bound]
    simp only [Numeral.isWhole, Numeral.ofInt, List.isEmpty_nil, Option.isNone_none, Bool.and_self,
      if_true, negative, decide_false, Bool.false_eq_true, if_false, Option.some.injEq]
    omega

theorem digit_lt_ten {c : Char} (digit : c.isDigit = true) : c.toNat - '0'.toNat < 10 := by
  have range : c.toNat ≤ 57 := (Char.isDigit_iff_toNat.mp digit).2
  change c.toNat - 48 < 10
  omega

theorem digitChar_sub_zero {c : Char} (digit : c.isDigit = true) :
    Nat.digitChar (c.toNat - '0'.toNat) = c := by
  have low : 48 ≤ c.toNat := (Char.isDigit_iff_toNat.mp digit).1
  apply Char.toNat_inj.mp
  rw [Nat.toNat_digitChar_of_lt_ten (digit_lt_ten digit)]
  change 48 + (c.toNat - 48) = c.toNat
  omega

theorem toDigits_ofDigitChars (digits : List Char) (all : ∀ c ∈ digits, c.isDigit = true)
    (nonempty : digits ≠ []) (leading : ∀ others, digits = '0' :: others → others = []) :
    Nat.toDigits 10 (Nat.ofDigitChars 10 digits 0) = digits := by
  induction digits using List.reverseRecOn with
  | nil => exact absurd rfl nonempty
  | append_singleton front last ih =>
    have digit := all last (by simp)
    have small := digit_lt_ten digit
    rw [Nat.ofDigitChars_append, Nat.ofDigitChars_cons, Nat.ofDigitChars_nil]
    cases front with
    | nil =>
      rw [Nat.ofDigitChars_nil, Nat.mul_zero, Nat.zero_add, Nat.toDigits_of_lt_base small,
        digitChar_sub_zero digit, List.nil_append]
    | cons first others =>
      have kept := ih (fun c member => all c (List.mem_append_left _ member)) (by simp)
        (fun rest same => by
          have whole := leading (rest ++ [last]) (by rw [same, List.cons_append])
          simp at whole)
      have positive : 0 < Nat.ofDigitChars 10 (first :: others) 0 := by
        rw [Nat.pos_iff_ne_zero]
        intro zero
        rw [zero, Nat.toDigits_zero] at kept
        obtain ⟨rfl, rfl⟩ := List.cons.inj kept
        have whole := leading [last] rfl
        simp at whole
      rw [← Nat.toDigits_append_toDigits (by decide) positive small, kept,
        Nat.toDigits_of_lt_base small, digitChar_sub_zero digit]

theorem eq_ofInt_of_integer? {n : Numeral} (spelled : n.Spelled) {i : Int}
    (kept : n.integer? = some i) : n = Numeral.ofInt i := by
  have digits : Nat.toDigits 10 n.magnitude = n.whole :=
    toDigits_ofDigitChars n.whole spelled.digits spelled.nonempty spelled.leadingZero
  unfold Numeral.integer? at kept
  generalize n.magnitude = size at digits kept
  obtain ⟨negative, whole, fraction, exponent⟩ := n
  simp only [Numeral.isWhole, Bool.and_eq_true, List.isEmpty_iff,
    Option.isNone_iff_eq_none] at kept digits
  split_ifs at kept with form sign range range <;> obtain ⟨rfl, rfl⟩ := form <;>
    obtain rfl := Option.some.inj kept
  · have below : -(size : Int) < 0 := by omega
    rw [Numeral.ofInt, decide_eq_true below, Int.natAbs_neg, Int.natAbs_natCast, digits, sign]
  · have above : ¬ (size : Int) < 0 := by omega
    rw [Numeral.ofInt, decide_eq_false above, Int.natAbs_natCast, digits,
      Bool.eq_false_iff.mpr sign]

theorem inRange_of_integer? {n : Numeral} {i : Int} (kept : n.integer? = some i) : InRange i := by
  unfold Numeral.integer? at kept
  have small : i64Bound < u64Bound := by decide
  split_ifs at kept <;> simp only [Option.some.injEq] at kept <;> subst kept <;>
    constructor <;> omega

end PageTree.Json
