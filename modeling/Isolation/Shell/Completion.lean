import Isolation.Shell.Request
/-!
Completion of the keyword at the start of a line.
-/

namespace Isolation.Shell

/-- Candidates for the text from a byte position to the end of the line. -/
structure Completion where
  start : Nat
  candidates : List String
  deriving DecidableEq

/-- Only the first word is a keyword, so a second one has no candidates. -/
def complete (line : List Char) : Completion :=
  let size := (String.ofList line).utf8ByteSize
  let word := Text.trimStart line
  if word.any Text.isBlank then { start := size, candidates := [] }
  else
    let capitals := Request.upper word
    { start := size - capitals.utf8ByteSize
      candidates := keywords.filter fun keyword => capitals.toList.isPrefixOf keyword.toList }

end Isolation.Shell
