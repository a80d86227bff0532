import Mathlib.Tactic.SplitIfs
import PageTree.Json.Reader
import PageTree.Json.Writer

/-!
Strings in their written form. Whatever the characters of a text are, controls and quotes among
them, reading its written form gives the text back and leaves exactly what stands after the closing
quote.
-/

namespace PageTree.Json

theorem hexValue?_hexDigit (n : Nat) (small : n < 16) : hexValue? (hexDigit n) = some n := by
  have all : ∀ n < 16, hexValue? (hexDigit n) = some n := by decide
  exact all n small

theorem hexUnit?_control {n : Nat} (small : n < 32) :
    hexUnit? '0' '0' (hexDigit (n / 16)) (hexDigit (n % 16)) = some n := by
  have high := hexValue?_hexDigit (n / 16) (by omega)
  have low := hexValue?_hexDigit (n % 16) (by omega)
  have zero : hexValue? '0' = some 0 := rfl
  simp only [hexUnit?, zero, high, low, Option.bind_eq_bind, Option.bind_some, Option.pure_def,
    Option.some.injEq]
  omega

theorem readText_control {n : Nat} (small : n < 32) (rest : List Char) :
    readText ('\\' :: 'u' :: '0' :: '0' :: hexDigit (n / 16) :: hexDigit (n % 16) :: rest) =
      (readText rest).map (addChar (Char.ofNat n)) := by
  have unit := hexUnit?_control small
  have lead : isLead n = false := by simp [isLead]; omega
  have trail : isTrail n = false := by simp [isTrail]; omega
  rw [readText.eq_def]
  split
  · next same => simp at same
  · next same =>
    simp only [List.cons.injEq, true_and] at same
    obtain ⟨rfl, rfl, rfl, rfl, rfl⟩ := same
    simp [unit, lead, trail]
  · next same =>
    simp only [List.cons.injEq, true_and] at same
    obtain ⟨rfl, rfl, rfl, rfl, rfl⟩ := same
    simp [unit, lead, trail]
  · next short same =>
    simp only [List.cons.injEq, true_and] at same
    exact absurd same.2.symm (short _ _ _ _ _ same.1.symm)
  · next short same =>
    simp only [List.cons.injEq] at same
    exact absurd same.2.symm (short _ _ same.1.symm)
  · next same => simp at same

theorem readText_plain {c : Char} (quote : c ≠ '"') (backslash : c ≠ '\\')
    (printable : ¬ c.toNat < 32) (rest : List Char) :
    readText (c :: rest) = (readText rest).map (addChar c) := by
  rw [readText.eq_def]
  split
  · next same => exact absurd (List.cons.inj same).1 quote
  · next same => exact absurd (List.cons.inj same).1 backslash
  · next same => exact absurd (List.cons.inj same).1 backslash
  · next same => exact absurd (List.cons.inj same).1 backslash
  · next same =>
    obtain ⟨rfl, rfl⟩ := List.cons.inj same
    simp [backslash, printable]
  · next same => simp at same

theorem readText_letter {c meant : Char} (notCode : c ≠ 'u') (known : unescape? c = some meant)
    (rest : List Char) : readText ('\\' :: c :: rest) = (readText rest).map (addChar meant) := by
  rw [readText]
  · simp [known]
  · simp [notCode]
  · simp [notCode]

theorem readText_escapeChar (c : Char) (rest : List Char) :
    readText (escapeChar c ++ rest) = (readText rest).map (addChar c) := by
  unfold escapeChar
  split_ifs with quote backslash newline carriage tab backspace feed control
  · subst quote
    exact readText_letter (by decide) rfl rest
  · subst backslash
    exact readText_letter (by decide) rfl rest
  · subst newline
    exact readText_letter (by decide) rfl rest
  · subst carriage
    exact readText_letter (by decide) rfl rest
  · subst tab
    exact readText_letter (by decide) rfl rest
  · rw [← Char.ofNat_toNat c, backspace]
    exact readText_letter (by decide) rfl rest
  · rw [← Char.ofNat_toNat c, feed]
    exact readText_letter (by decide) rfl rest
  · have read := readText_control control rest
    rwa [Char.ofNat_toNat] at read
  · exact readText_plain quote backslash control rest

theorem readText_escaped (cs rest : List Char) :
    readText (cs.flatMap escapeChar ++ '"' :: rest) = some (some cs, rest) := by
  induction cs with
  | nil => simp [readText]
  | cons c cs ih =>
    rw [List.flatMap_cons, List.append_assoc, readText_escapeChar, ih]
    rfl

theorem readString_escaped (s : String) (rest : List Char) :
    readString (s.toList.flatMap escapeChar ++ '"' :: rest) = some (some s, rest) := by
  simp [readString, readText_escaped]

theorem quoted_append (s : String) (rest : List Char) :
    quoted s ++ rest = '"' :: (s.toList.flatMap escapeChar ++ '"' :: rest) := by
  simp [quoted]

end PageTree.Json
