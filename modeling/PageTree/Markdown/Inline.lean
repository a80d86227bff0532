/-!
Inline content. While a line is read, characters that may have a meaning become marks; later marks
turn into code, links, emphasis and so on, or else count as the text that they are. Every piece
knows the part of the source that it stands for.
-/

namespace PageTree.Markdown

/-- How a link names its target. The unknown forms have a label that no definition has. -/
inductive LinkForm where
  | inline | reference | collapsed | shortcut
  | unknownReference | unknownCollapsed | unknownShortcut
  | autolink | email
  deriving DecidableEq

inductive Mark where
  | text (escaped : Bool)
  | literal (content : List Char)
  | delimiter (char : Char) (count : Nat) (canOpen canClose : Bool)
  | backticks (count : Nat) (afterBackslash : Bool)
  | angle
  | openBracket
  | openImage
  | closeBracket (mayRefer : Bool)
  | softBreak
  | hardBreak (backslash : Bool)
  | task (checked : Bool)
  | code (content : List Char)
  | html (content : Option (List Char))
  | htmlLine
  | emphasis
  | strong
  | strikethrough
  | link (form : LinkForm) (target title : String)
  | image (form : LinkForm) (target title : String)
  | footnoteReference (label : String)

structure Inline where
  mark : Mark
  start : Nat
  stop : Nat
  children : List Inline := []

namespace Inline

def appendText (pieces : Array Inline) (start stop : Nat) (escaped : Bool) : Array Inline :=
  if start < stop then
    match pieces.back? with
    | some last =>
      match last.mark with
      | .text _ =>
        if last.stop = start then pieces.pop.push { last with stop }
        else pieces.push { mark := .text escaped, start, stop }
      | _ => pieces.push { mark := .text escaped, start, stop }
    | none => pieces.push { mark := .text escaped, start, stop }
  else pieces

end Inline

end PageTree.Markdown
