import PageTree.Terminal.Log

/-!
What a terminal shows. It closes a line at a line break, moves and erases at two control sequences,
and takes a colour for nothing; every other character goes to the place of the cursor, over what
stands there. The main lemmas say what the pieces of a log do to a terminal that is ready for text.
-/

namespace PageTree.Terminal

/-- How far a control sequence has been read. -/
inductive Pending where
  | nothing
  | escape
  | parameters (read : List Char)
  deriving DecidableEq

/-- The closed lines, the line of the cursor with the cursor's column, and what is still pending. -/
structure Screen where
  lines : List (List Char) := []
  current : List Char := []
  column : Nat := 0
  pending : Pending := .nothing
  deriving DecidableEq

namespace Screen

/-- Puts a character at the cursor, with blanks before it if the line does not reach that far. -/
def put (screen : Screen) (c : Char) : Screen :=
  { screen with
    current := screen.current.take screen.column
      ++ List.replicate (screen.column - screen.current.length) ' '
      ++ c :: screen.current.drop (screen.column + 1)
    column := screen.column + 1 }

/-- The column that the parameters of a move name; the first one has the number one. -/
def columnOf (parameters : List Char) : Nat := Nat.ofDigitChars 10 parameters 0 - 1

/-- Carries out a control sequence. Others than those for moving and erasing change nothing. -/
def control (screen : Screen) (parameters : List Char) (final : Char) : Screen :=
  if final = 'G' then { screen with column := columnOf parameters }
  else if final = 'K' ∧ parameters = ['2'] then { screen with current := [] }
  else screen

def isFinal (c : Char) : Bool := '@' ≤ c && c ≤ '~'

def take (screen : Screen) (c : Char) : Screen :=
  match screen.pending with
  | .nothing =>
    if c = '\x1b' then { screen with pending := .escape }
    else if c = '\n' then { lines := screen.lines ++ [screen.current] }
    else screen.put c
  | .escape => { screen with pending := if c = '[' then .parameters [] else .nothing }
  | .parameters read =>
    if isFinal c then control { screen with pending := .nothing } read c
    else { screen with pending := .parameters (read ++ [c]) }

def takeAll (screen : Screen) (text : String) : Screen := text.toList.foldl take screen

theorem takeAll_append (screen : Screen) (first second : String) :
    screen.takeAll (first ++ second) = (screen.takeAll first).takeAll second := by
  rw [takeAll, String.toList_append, List.foldl_append, takeAll, takeAll]

example : (takeAll {} "ab\n\x1b[1mcd\x1b[0m\x1b[1Ge") =
    { lines := [['a', 'b']], current := ['e', 'd'], column := 1 } := rfl

@[simp]
theorem takeAll_empty (screen : Screen) : screen.takeAll "" = screen := rfl

/-- No control sequence is pending, and the cursor is at the end of its line. -/
def AtEnd (screen : Screen) : Prop :=
  screen.pending = .nothing ∧ screen.column = screen.current.length

def extend (screen : Screen) (text : List Char) : Screen :=
  { screen with
    current := screen.current ++ text
    column := (screen.current ++ text).length }

theorem AtEnd.extend {screen : Screen} (atEnd : screen.AtEnd) (text : List Char) :
    (screen.extend text).AtEnd := ⟨atEnd.1, rfl⟩

theorem extend_append (screen : Screen) (first second : List Char) :
    screen.extend (first ++ second) = (screen.extend first).extend second := by
  simp [Screen.extend]

theorem AtEnd.extend_nil {screen : Screen} (atEnd : screen.AtEnd) : screen.extend [] = screen := by
  obtain ⟨lines, current, column, pending⟩ := screen
  obtain rfl : column = current.length := atEnd.2
  simp [Screen.extend]

theorem AtEnd.put {screen : Screen} (atEnd : screen.AtEnd) (c : Char) :
    screen.put c = screen.extend [c] := by
  simp [Screen.put, Screen.extend, atEnd.2]

end Screen

/-- A text that only adds to the line of the cursor, when the cursor is at the end. -/
def Writes (text : String) (shown : List Char) : Prop :=
  ∀ screen : Screen, screen.AtEnd → screen.takeAll text = screen.extend shown

theorem Writes.append {first second : String} {shown others : List Char}
    (writes : Writes first shown) (more : Writes second others) :
    Writes (first ++ second) (shown ++ others) := by
  intro screen atEnd
  rw [Screen.takeAll_append, writes screen atEnd, more _ (atEnd.extend shown), Screen.extend_append]

def isControl (c : Char) : Bool := c.toNat < 32 || (127 ≤ c.toNat && c.toNat < 160)

/-- A text without control characters. -/
def Plain (text : String) : Prop := ∀ c ∈ text.toList, isControl c = false

instance (text : String) : Decidable (Plain text) := List.decidableBAll _ text.toList

theorem writes_plain {text : String} (plain : Plain text) : Writes text text.toList := by
  intro screen atEnd
  rw [Plain] at plain
  rw [Screen.takeAll]
  generalize text.toList = cs at plain
  induction cs generalizing screen with
  | nil => exact atEnd.extend_nil.symm
  | cons c cs ih =>
    obtain ⟨here, later⟩ := List.forall_mem_cons.mp plain
    have escape : c ≠ '\x1b' := by rintro rfl; exact absurd here (by decide)
    have feed : c ≠ '\n' := by rintro rfl; exact absurd here (by decide)
    have one : screen.take c = screen.extend [c] := by
      rw [Screen.take, atEnd.1]
      simp only [if_neg escape, if_neg feed]
      exact atEnd.put c
    rw [List.foldl_cons, one, ih _ (atEnd.extend [c]) later, ← Screen.extend_append]
    rfl

theorem writes_colour {code : String} (known : code ∈ ["1m", "94m", "92m", "91m", "93m", "39m", "0m"]) :
    Writes (escapeCode code) [] := by
  intro screen atEnd
  rw [atEnd.extend_nil]
  obtain ⟨lines, current, column, pending⟩ := screen
  obtain rfl : pending = .nothing := atEnd.1
  simp only [List.mem_cons, List.not_mem_nil, or_false] at known
  rcases known with rfl | rfl | rfl | rfl | rfl | rfl | rfl <;> rfl

theorem colourOf_mem (name : String) : colourOf name ∈ ["94m", "92m", "91m", "93m"] := by
  rw [colourOf]
  split
  · simp
  · split
    · simp
    · split <;> simp

theorem writes_label (coloured : Bool) {name : String} (plain : Plain name) :
    Writes (label coloured name) ("[" ++ name ++ "]").toList := by
  have text : Plain ("[" ++ name ++ "]") := by
    intro c member
    rw [String.toList_append, String.toList_append, List.mem_append, List.mem_append] at member
    rcases member with (left | inner) | right
    · obtain rfl := List.mem_singleton.mp left
      rfl
    · exact plain c inner
    · obtain rfl := List.mem_singleton.mp right
      rfl
  have shown := writes_plain text
  rw [label]
  cases coloured with
  | false => exact shown
  | true =>
    have colour : Writes (escapeCode (colourOf name)) [] := by
      refine writes_colour ?_
      have four := colourOf_mem name
      simp only [List.mem_cons, List.not_mem_nil, or_false] at four ⊢
      rcases four with same | same | same | same <;> simp [same]
    have bold : Writes (escapeCode "1m") [] := writes_colour (by simp)
    have plainColour : Writes (escapeCode "39m") [] := writes_colour (by simp)
    have plainWeight : Writes (escapeCode "0m") [] := writes_colour (by simp)
    simpa using (((bold.append colour).append shown).append plainColour).append plainWeight

namespace Screen

theorem takeAll_eraseLine {screen : Screen} (ready : screen.pending = .nothing) :
    screen.takeAll eraseLine = { lines := screen.lines } := by
  obtain ⟨lines, current, column, pending⟩ := screen
  subst ready
  rfl

theorem takeAll_newline {screen : Screen} (ready : screen.pending = .nothing) :
    screen.takeAll "\n" = { lines := screen.lines ++ [screen.current] } := by
  obtain ⟨lines, current, column, pending⟩ := screen
  subst ready
  rfl

end Screen

end PageTree.Terminal
