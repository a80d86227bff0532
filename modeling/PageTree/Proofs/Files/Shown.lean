import Mathlib.Algebra.Ring.Nat
import Mathlib.Data.List.Basic
import PageTree.Path

/-!
Paths as texts. The path that a text spells is shown as the text. Whatever bytes a path has, what is
shown of it has a slash only where the path has one, and is empty only if the path is.
-/

namespace PageTree.Path

theorem toNat_ofNat {code : Nat} (valid : code.isValidChar) : (Char.ofNat code).toNat = code := by
  rw [Char.ofNat, dif_pos valid]
  rfl

theorem toNat_stray {byte : Nat} (high : byte ≤ 0xFF) : (stray byte).toNat = strayStart + byte := by
  refine toNat_ofNat ?_
  rw [strayStart, Nat.isValidChar]
  omega

theorem byte?_stray {byte : Nat} (low : 0x80 ≤ byte) (high : byte ≤ 0xFF) :
    byte? (stray byte) = some byte := by
  rw [byte?, toNat_stray high, if_pos (Nat.add_le_add_left low _), Nat.add_sub_cancel_left]

theorem byte?_eq_some_iff {c : Char} {byte : Nat} :
    byte? c = some byte ↔ 0x80 ≤ byte ∧ c.toNat = strayStart + byte := by
  rw [byte?]
  split
  · rw [Option.some.injEq]
    omega
  · simp only [reduceCtorEq, false_iff]
    omega

theorem le_of_byte? {c : Char} {byte : Nat} (known : byte? c = some byte) :
    0x80 ≤ byte ∧ byte ≤ 0xFF := by
  obtain ⟨low, code⟩ := byte?_eq_some_iff.mp known
  have valid : c.toNat < 0x110000 := by
    rcases c.valid with small | ⟨-, large⟩
    · exact Nat.lt_trans small (by decide)
    · exact large
  rw [code, strayStart] at valid
  omega

theorem ofText_append (front back : String) : ofText (front ++ back) = ofText front ++ ofText back := by
  rw [ofText, String.toList_append, List.flatMap_append]
  rfl

theorem shownFrom_ownBytes {c : Char} {byte : Nat} (known : byte? c = some byte) (rest : Path) :
    shownFrom none ((ownBytes byte).map stray ++ rest) = c :: shownFrom none rest := by
  obtain ⟨low, high⟩ := le_of_byte? known
  have third : 0xBC + byte / 64 ≤ 0xBF := by omega
  have bits : (0x43C0 + (0xBC + byte / 64) % 64) * 64 + (0x80 + byte) % 64 = c.toNat := by
    rw [(byte?_eq_some_iff.mp known).2, strayStart]
    omega
  have first : byte? (stray 0xF4) = some 0xF4 := byte?_stray (by decide) (by decide)
  have second : byte? (stray 0x8F) = some 0x8F := byte?_stray (by decide) (by decide)
  have next : byte? (stray (0xBC + byte / 64)) = some (0xBC + byte / 64) :=
    byte?_stray (by omega) (by omega)
  have last : byte? (stray (0x80 + byte % 64)) = some (0x80 + byte % 64) :=
    byte?_stray (by omega) (by omega)
  have within : 0x80 ≤ 0xBC + byte / 64 := by omega
  have within' : 0x80 + byte % 64 ≤ 0xBF := by omega
  simp [ownBytes, shownFrom, Sequence.start, Sequence.next, first, second, next, last, within, third,
    within', bits]

theorem shownFrom_spell (c : Char) (rest : Path) :
    shownFrom none (spell c ++ rest) = c :: shownFrom none rest := by
  rw [spell]
  cases known : byte? c with
  | none => simp [shownFrom, Sequence.start, known]
  | some byte => exact shownFrom_ownBytes known rest

theorem shown_ofText (text : String) : (ofText text).shown = text.toList := by
  rw [shown, ofText]
  induction text.toList with
  | nil => rfl
  | cons c cs ih => rw [List.flatMap_cons, shownFrom_spell, ih]

theorem display_ofText (text : String) : (ofText text).display = text := by
  rw [display, shown_ofText, String.ofList_toList]

theorem ofText_json : ofText ".json" = '.' :: "json".toList := by decide

theorem mem_of_mem_ofText {c : Char} (ordinary : byte? c = none) {text : String}
    (member : c ∈ ofText text) : c ∈ text.toList := by
  obtain ⟨other, inside, here⟩ := List.mem_flatMap.mp member
  rw [spell] at here
  cases known : byte? other with
  | none =>
    rw [known, List.mem_singleton] at here
    rwa [here]
  | some byte =>
    rw [known] at here
    obtain ⟨own, isOwn, rfl⟩ := List.mem_map.mp here
    obtain ⟨low, high⟩ := le_of_byte? known
    have range : 0x80 ≤ own ∧ own ≤ 0xFF := by
      simp only [ownBytes, List.mem_cons, List.not_mem_nil, or_false] at isOwn
      omega
    cases ordinary.symm.trans (byte?_stray range.1 range.2)

/-- A sequence that has begun ends in a character beyond ASCII. -/
structure Sequence.Proper (sequence : Sequence) : Prop where
  low : 0x80 ≤ sequence.low
  high : sequence.high ≤ 0xBF
  least : 0x80 ≤ (sequence.bits * 64 + (sequence.low - 0x80)) * 64 ^ sequence.more

theorem Sequence.start_proper {c : Char} {sequence : Sequence}
    (opened : (start c).2 = some sequence) : sequence.Proper := by
  unfold start at opened
  split at opened
  · exact nomatch opened
  · split_ifs at opened with two first surrogates three fourth four last
    all_goals
      obtain rfl := Option.some.inj opened
      constructor <;> dsimp only <;> omega

theorem Sequence.Proper.le {sequence : Sequence} (proper : sequence.Proper) {byte : Nat}
    (within : sequence.low ≤ byte ∧ byte ≤ sequence.high) :
    0x80 ≤ (sequence.bits * 64 + byte % 64) * 64 ^ sequence.more := by
  have low := proper.low
  have high := proper.high
  exact Nat.le_trans proper.least (Nat.mul_le_mul_right _ (by omega))

theorem Sequence.Proper.next {sequence after : Sequence} (proper : sequence.Proper) {c : Char}
    (opened : (sequence.next c).2 = some after) : after.Proper := by
  unfold Sequence.next at opened
  dsimp only at opened
  split at opened
  · exact start_proper opened
  · next byte _ =>
    split_ifs at opened with within
    · have least := proper.le within
      split at opened
      · exact nomatch opened
      · next more known =>
        obtain rfl := Option.some.inj opened
        refine ⟨Nat.le_refl _, Nat.le_refl _, ?_⟩
        rw [known, Nat.pow_succ', ← Nat.mul_assoc] at least
        dsimp only
        rw [Nat.sub_self, Nat.add_zero]
        exact least
    · exact start_proper opened

theorem Sequence.start_shows {c shown : Char} (ascii : shown.toNat < 0x80)
    (shows : shown ∈ (start c).1) : shown = c := by
  have apart : shown ≠ replacement := by
    rintro rfl
    exact absurd ascii (by decide)
  unfold start at shows
  split at shows
  · exact List.mem_singleton.mp shows
  · split_ifs at shows <;> simp [apart] at shows

theorem Sequence.Proper.next_shows {sequence : Sequence} (proper : sequence.Proper) {c shown : Char}
    (ascii : shown.toNat < 0x80) (code : shown.toNat ≠ 0) (shows : shown ∈ (sequence.next c).1) :
    shown = c := by
  have broken : shown ∈ replacement :: (start c).1 → shown = c := by
    intro member
    rcases List.mem_cons.mp member with rfl | later
    · exact absurd ascii (by decide)
    · exact start_shows ascii later
  unfold Sequence.next at shows
  dsimp only at shows
  split at shows
  · exact broken shows
  · next byte _ =>
    split_ifs at shows with within
    · have least := proper.le within
      split at shows
      · next known =>
        rw [known, Nat.pow_zero, Nat.mul_one] at least
        rw [List.mem_singleton] at shows
        subst shows
        by_cases valid : (sequence.bits * 64 + byte % 64).isValidChar
        · rw [toNat_ofNat valid] at ascii
          omega
        · rw [Char.ofNat, dif_neg valid] at code
          exact absurd rfl code
      · exact absurd shows List.not_mem_nil
    · exact broken shows

theorem mem_of_mem_shownFrom {open? : Option Sequence} {path : Path} {c : Char}
    (proper : ∀ sequence ∈ open?, sequence.Proper) (ascii : c.toNat < 0x80) (code : c.toNat ≠ 0)
    (member : c ∈ shownFrom open? path) : c ∈ path := by
  induction path generalizing open? with
  | nil =>
    cases open? with
    | none => exact nomatch member
    | some sequence =>
      rw [shownFrom, List.mem_singleton] at member
      rw [member] at ascii
      exact absurd ascii (by decide)
  | cons first path ih =>
    cases open? with
    | none =>
      rw [shownFrom] at member
      rcases List.mem_append.mp member with here | later
      · exact Sequence.start_shows ascii here ▸ List.mem_cons_self
      · exact List.mem_cons_of_mem _ (ih (fun _ opened => Sequence.start_proper opened) later)
    | some sequence =>
      have isProper := proper sequence rfl
      rw [shownFrom] at member
      rcases List.mem_append.mp member with here | later
      · exact isProper.next_shows ascii code here ▸ List.mem_cons_self
      · exact List.mem_cons_of_mem _ (ih (fun _ opened => isProper.next opened) later)

theorem mem_of_mem_shown {path : Path} {c : Char} (ascii : c.toNat < 0x80) (code : c.toNat ≠ 0)
    (member : c ∈ path.shown) : c ∈ path :=
  mem_of_mem_shownFrom (fun sequence opened => absurd opened (Option.not_mem_none sequence)) ascii code
    member

theorem Sequence.start_opens {c : Char} (nothing : (start c).1 = []) : (start c).2.isSome := by
  unfold start at nothing ⊢
  split at nothing
  · cases nothing
  · split_ifs at nothing ⊢ <;> rfl

theorem Sequence.next_opens {sequence : Sequence} {c : Char} (nothing : (sequence.next c).1 = []) :
    (sequence.next c).2.isSome := by
  unfold Sequence.next at nothing ⊢
  dsimp only at nothing ⊢
  split at nothing
  · cases nothing
  · split_ifs at nothing ⊢
    · split at nothing
      · cases nothing
      · rfl

theorem shownFrom_ne_nil {open? : Option Sequence} (isOpen : open?.isSome) (path : Path) :
    shownFrom open? path ≠ [] := by
  obtain ⟨sequence, rfl⟩ := Option.isSome_iff_exists.mp isOpen
  induction path generalizing sequence with
  | nil => exact List.cons_ne_nil _ _
  | cons c path ih =>
    rw [shownFrom]
    intro nothing
    obtain ⟨here, later⟩ := List.append_eq_nil_iff.mp nothing
    obtain ⟨after, opened⟩ := Option.isSome_iff_exists.mp (Sequence.next_opens here)
    rw [opened] at later
    exact ih after rfl later

theorem shown_ne_nil {path : Path} (some : path ≠ []) : path.shown ≠ [] := by
  cases path with
  | nil => exact absurd rfl some
  | cons c path =>
    rw [shown, shownFrom]
    intro nothing
    obtain ⟨here, later⟩ := List.append_eq_nil_iff.mp nothing
    exact shownFrom_ne_nil (Sequence.start_opens here) path later

/-- A character of its own divides what is shown. -/
theorem shownFrom_append {c : Char} (ordinary : byte? c = none) (open? : Option Sequence)
    (front back : Path) : shownFrom open? (front ++ c :: back) = shownFrom open? front ++ c :: back.shown := by
  induction front generalizing open? with
  | nil =>
    cases open? with
    | none => simp [shownFrom, Sequence.start, ordinary, shown]
    | some sequence => simp [shownFrom, Sequence.next, Sequence.start, ordinary, shown]
  | cons first front ih => cases open? <;> simp [shownFrom, ih]

theorem shown_append {c : Char} (ordinary : byte? c = none) (front back : Path) :
    (front ++ c :: back).shown = front.shown ++ c :: back.shown :=
  shownFrom_append ordinary none front back

end PageTree.Path
