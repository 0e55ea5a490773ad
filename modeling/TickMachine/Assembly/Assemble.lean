import TickMachine.Assembly.Draft
import TickMachine.Source.Lexer

/-! # Assembly

From source text to an executable: lexing, a first pass that lays out words and labels, and a
second pass that puts addresses in the place of labels. -/

namespace TickMachine

/-- What assembling a source text gives: the labels entered, which are all labels only where the
first pass succeeds, and the executable. -/
structure Assembly where
  labels : LabelTable
  result : Except AssemblyError Executable

namespace Assembly

/-- The assembly of a sequence of tokens. -/
def ofTokens (tokens : List Token) : Assembly :=
  let (labels, draft) := Draft.empty.extend tokens
  { labels, result := draft.bind Draft.link }

/-- The assembly of a source text. -/
def ofSource (source : String) : Assembly :=
  match lex source with
  | .error error => ⟨.empty, .error (.lexical error)⟩
  | .ok tokens => ofTokens tokens

end Assembly

/-- Assembles a source text into an executable and the table of its labels. -/
def assembleWithLabels (source : String) : Except AssemblyError (Executable × LabelTable) :=
  let assembly := Assembly.ofSource source
  assembly.result.map fun executable => (executable, assembly.labels)

/-- Assembles a source text into an executable. -/
def assemble (source : String) : Except AssemblyError Executable :=
  (Assembly.ofSource source).result

end TickMachine
