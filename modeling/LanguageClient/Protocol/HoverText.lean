import LanguageClient.Protocol.Message

/-!
# Hover text for display

A hover is shown as a title, a list of lines and a stretch of the buffer.  A single
fragment gives the lines; of several fragments the first is the title, and an empty
line stands between the others.
-/

namespace LanguageClient

/-- A place in an editor buffer: line and column, counted from zero. -/
structure BufferPosition where
  line : Json
  column : Json

/-- A stretch of an editor buffer. -/
structure BufferRange where
  first : BufferPosition
  last : BufferPosition

structure HoverText where
  title : Text
  description : List Text
  range : Option BufferRange

namespace Position

/-- The place in a buffer; columns are characters. -/
def toBuffer (p : Position) : BufferPosition := ⟨p.line, p.character⟩

end Position

namespace BufferPosition

def toPosition (p : BufferPosition) : Position := ⟨p.line, p.column⟩

end BufferPosition

namespace HoverText

/-- The pieces between line breaks, `current` and `done` in reverse: a carriage return, a line feed,
or the two together break a line. -/
def linesFrom (current : Text) (done : List Text) (afterReturn : Bool) : Text → List Text
  | [] => (current.reverse :: done).reverse
  | c :: rest =>
    if c.val = 0x0A && afterReturn then linesFrom current done false rest
    else if c.val = 0x0A || c.val = 0x0D then
      linesFrom [] (current.reverse :: done) (c.val = 0x0D) rest
    else linesFrom (c :: current) done false rest

def lines (t : Text) : List Text := linesFrom [] [] false t

/-- The lines of several texts, an empty line between two of them. -/
def paragraphs : List Text → List Text
  | [] => []
  | [t] => lines t
  | t :: next :: rest => lines t ++ [] :: paragraphs (next :: rest)

def fragmentText (f : Fragment) : Text := Message.textOf f.value

/-- What is shown of a hover. -/
def ofHover (h : Hover) : HoverText :=
  let range := h.range.map fun r => (⟨r.start.toBuffer, r.stop.toBuffer⟩ : BufferRange)
  match h.contents with
  | .one f => ⟨[], lines (fragmentText f), range⟩
  | .many [] => ⟨[], [], range⟩
  | .many [f] => ⟨[], lines (fragmentText f), range⟩
  | .many (first :: rest) => ⟨fragmentText first, paragraphs (rest.map fragmentText), range⟩

end HoverText

end LanguageClient
