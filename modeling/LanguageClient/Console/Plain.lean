import LanguageClient.Console.Block

/-!
# Blocks as plain lines

Where there is no terminal to lay blocks out on, they are written as lines: the text of
markup as it stands, the parts of a panel below each other, and the cells of a table
with tabs between them.
-/

namespace LanguageClient.Block

def lines : Block → List Text
  | .markup text | .plain text => [text]
  | .panel p => p.title.toList ++ [p.body] ++ p.subtitle.toList
  | .table t =>
    let tab : Text := [CodePoint.ofChar '\t']
    t.title :: Text.join tab (t.columns.map (·.1)) :: t.rows.map (Text.join tab)

end LanguageClient.Block
