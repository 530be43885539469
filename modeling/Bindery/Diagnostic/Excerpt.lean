import Bindery.Diagnostic.Log
import Bindery.Number.Digits

set_option autoImplicit false

/-! Reports as text: the message, then for each file the lines that labels point at, with marks
below them, then the notes.

Marks stand below the bytes of their label: `^` for a primary label and `-` for a secondary one.
The text of the last label of a line stands behind its marks if no other label is in the way; the
other texts hang below, each at the end of a stroke that starts under its label. A label lies
within one line, and every character takes one column, except the tab. -/

namespace Bindery.Excerpt

/-- A line of a file: its number, counted from one, the offset where it starts and its characters
without the line break. -/
structure Line where
  number : Nat
  start : Nat
  chars : List Char
  deriving Repr

/-- The characters between line breaks. The last line may be empty. -/
def splitLines : List Char → List (List Char)
  | [] => [[]]
  | c :: rest =>
      if c = '\n' then [] :: splitLines rest
      else match splitLines rest with
        | [] => [[c]]
        | line :: lines => (c :: line) :: lines

def byteLength (chars : List Char) : Nat :=
  chars.foldr (fun c length => c.utf8Size + length) 0

def numberLines (number start : Nat) : List (List Char) → List Line
  | [] => []
  | chars :: rest =>
      ⟨number, start, chars⟩ :: numberLines (number + 1) (start + byteLength chars + 1) rest

def linesOf (text : String) : List Line := numberLines 1 0 (splitLines text.toList)

/-- The line of an offset: the last one that does not start after it. -/
def lineAt (lines : List Line) (offset : Nat) : Line :=
  ((lines.filter fun line => line.start ≤ offset).getLast?).getD ⟨1, 0, []⟩

namespace Line

/-- The characters that are shown: those at the end that move no pen are left out. -/
def shown (line : Line) : List Char :=
  (line.chars.reverse.dropWhile fun c => c = '\n' || c = '\r' || c.toNat = 0).reverse

/-- The column of an offset, counted from one: one more than the characters that end before it. -/
def column (line : Line) (offset : Nat) : Nat :=
  let ends := (List.range line.chars.length).map fun index =>
    line.start + byteLength (line.chars.take (index + 1))
  1 + (ends.filter fun stop => stop ≤ offset).length

end Line

/-- A label on its line. The bytes from `start` to `stop`, at least one, count from the start of the
line. -/
structure Mark where
  style : LabelStyle
  start : Nat
  stop : Nat
  message : String
  deriving Repr

def Mark.ofLabel (line : Line) (label : Label) : Mark :=
  let start := label.span.start - line.start
  ⟨label.style, start, max (label.span.stop - line.start) (start + 1), label.message⟩

def Mark.before (left right : Mark) : Bool :=
  left.start < right.start || (left.start = right.start && left.stop < right.stop)

/-- Puts a mark among sorted ones: behind those that come before it, and of those with the same
bytes behind all but the last. -/
def insertMark (mark : Mark) : List Mark → List Mark
  | [] => [mark]
  | first :: rest =>
      if first.before mark || rest.head?.any fun next => !mark.before next then
        first :: insertMark mark rest
      else mark :: first :: rest

def overlap (start stop start' stop' : Nat) : Bool := max start start' < min stop stop'

/-- A character on its line: its first byte, its column and the columns that it takes. -/
structure Cell where
  offset : Nat
  width : Nat
  char : Char
  deriving Repr

/-- The cells of a line; a tab reaches to the next multiple of four columns. -/
def cellsFrom (offset column : Nat) : List Char → List Cell
  | [] => []
  | c :: rest =>
      let width := if c = '\t' then 4 - column % 4 else 1
      ⟨offset, width, c⟩ :: cellsFrom (offset + c.utf8Size) (column + width) rest

def cellsOf (chars : List Char) : List Cell := cellsFrom 0 0 chars

def blanks (count : Nat) : List Char := List.replicate count ' '

/-- The characters of a line with tabs filled up. -/
def fillTabs (cells : List Cell) : List Char :=
  cells.flatMap fun cell => if cell.char = '\t' then blanks cell.width else [cell.char]

/-- The place of the label whose text stands behind the marks: the last of those that reach
furthest, if it has a text and shares no byte with another. -/
def trailing? (marks : List Mark) : Option Nat :=
  let step := fun (state : Nat × Option Nat) (entry : Mark × Nat) =>
    let furthest := max state.1 entry.1.stop
    if entry.1.stop = furthest then
      (furthest, if entry.1.message = "" then none else some entry.2)
    else (furthest, state.2)
  let candidate := (marks.zipIdx.foldl step (0, none)).2
  candidate.filter fun index =>
    match marks[index]? with
    | none => false
    | some mark =>
        !marks.zipIdx.any fun entry =>
          entry.2 ≠ index && overlap mark.start mark.stop entry.1.start entry.1.stop

/-- The labels whose text hangs below the line. -/
def hanging (marks : List Mark) : List Mark :=
  let trailing := trailing? marks
  (marks.zipIdx.filter fun entry => entry.1.message ≠ "" && trailing ≠ some entry.2).map Prod.fst

def greatest (values : List Nat) : Nat := values.foldl max 0

/-- The mark below one cell: that of a primary label if there is one, else that of a secondary one.
Where there is none a blank keeps the place, as far as the labels reach. -/
def underline (marks : List Mark) (cell : Cell) : List Char :=
  let here := marks.filter fun mark =>
    overlap mark.start mark.stop cell.offset (cell.offset + cell.char.utf8Size)
  if here.any fun mark => mark.style = .primary then List.replicate cell.width '^'
  else if !here.isEmpty then List.replicate cell.width '-'
  else if cell.offset < greatest (marks.map Mark.stop) then blanks cell.width
  else []

def underlines (marks : List Mark) (cells : List Cell) (length : Nat) : List Char :=
  (cells ++ [(⟨length, 1, ' '⟩ : Cell)]).flatMap (underline marks)

/-- The strokes from which texts hang, below one cell. Blanks keep the place as far as the last
label starts. -/
def stroke (marks hanging : List Mark) (cell : Cell) : List Char :=
  let starts := hanging.any fun mark =>
    cell.offset ≤ mark.start && mark.start < cell.offset + cell.char.utf8Size
  let room := if starts then cell.width - 1 else cell.width
  (if starts then ['│'] else []) ++
    if cell.offset ≤ greatest (marks.map Mark.start) then blanks room else []

def strokes (marks hanging : List Mark) (cells : List Cell) : List Char :=
  cells.flatMap (stroke marks hanging)

/-- The left margin of a report whose line numbers have at most `padding` digits. -/
def margin (padding : Nat) : List Char := blanks (padding + 1)

def bar (padding : Nat) : List Char := margin padding ++ ['│']

def numberedLine (padding : Nat) (line : Line) : List Char :=
  let number := Number.digitsOf line.number
  blanks (padding - number.length) ++ number ++ [' ', '│', ' '] ++ fillTabs (cellsOf line.shown)

def markedLine (padding : Nat) (line : Line) (marks : List Mark) : List (List Char) :=
  let cells := cellsOf line.shown
  let trailing := ((trailing? marks).bind fun index => marks[index]?).map Mark.message
  let hung := hanging marks
  let below := underlines marks cells (byteLength line.shown) ++
    match trailing with
    | some message => ' ' :: message.toList
    | none => []
  let texts := hung.reverse.map fun mark =>
    strokes marks hung (cells.filter fun cell => cell.offset < mark.start) ++ mark.message.toList
  numberedLine padding line ::
    ((below :: (if hung.isEmpty then [] else strokes marks hung cells :: texts)).map fun row =>
      bar padding ++ ' ' :: row)

/-- The labels of one file. -/
structure Section where
  file : SourceFile
  lines : List Line
  labels : List Label

namespace Section

def lineOf (part : Section) (label : Label) : Line := lineAt part.lines label.span.start

/-- The label that gives the place of the section: of the primary labels, or of all if there is
none, the one that starts first. -/
def anchor? (part : Section) : Option Label :=
  let primary := part.labels.filter fun label => label.style = .primary
  let candidates := if primary.isEmpty then part.labels else primary
  candidates.foldl (fun best label =>
    match best with
    | none => some label
    | some found => if label.span.start < found.span.start then some label else some found) none

def markedLines (part : Section) : List (Line × List Mark) :=
  let numbers := part.labels.map fun label => (part.lineOf label).number
  (part.lines.filter fun line => numbers.contains line.number).map fun line =>
    let labels := part.labels.filter fun label => (part.lineOf label).number = line.number
    (line, labels.foldl (fun marks label => insertMark (.ofLabel line label) marks) [])

def numbered (part : Section) (number : Nat) : Option Line :=
  part.lines.find? fun line => line.number = number

/-- What stands between two lines with labels: a line that is missing alone is shown, a longer gap
is hinted at. -/
def between (part : Section) (padding above below : Nat) : List (List Char) :=
  if below ≤ above + 1 then []
  else if below = above + 2 then
    ((part.numbered (above + 1)).map (numberedLine padding)).toList
  else [margin padding ++ ['·']]

def body (part : Section) (padding : Nat) : List (Line × List Mark) → List (List Char)
  | [] => []
  | [(line, marks)] => markedLine padding line marks
  | (line, marks) :: (next, nextMarks) :: rest =>
      markedLine padding line marks ++ part.between padding line.number next.number ++
        body part padding ((next, nextMarks) :: rest)

def rows (part : Section) (padding : Nat) : List (List Char) :=
  let place :=
    match part.anchor? with
    | none => []
    | some label =>
        let line := part.lineOf label
        ':' :: Number.digitsOf line.number ++
          ':' :: Number.digitsOf (line.column label.span.start)
  (margin padding ++ ['┌', '─', ' '] ++ part.file.name.toList ++ place) ::
    bar padding :: part.body padding part.markedLines

end Section

/-- The lines of a note; a line break at its end starts no line. -/
def noteLines (note : String) : List (List Char) :=
  let lines := splitLines note.toList
  let complete := lines.dropLast.map fun line =>
    if line.getLast? = some '\r' then line.dropLast else line
  let last := lines.getLast?.getD []
  if last.isEmpty then complete else complete ++ [last]

/-- A note with a sign before its first line. -/
def noteRows (padding : Nat) (note : String) : List (List Char) :=
  match noteLines note with
  | [] => []
  | first :: rest =>
      (margin padding ++ ['=', ' '] ++ first) ::
        rest.map fun line => margin padding ++ [' ', ' '] ++ line

/-- Why a label cannot be shown. -/
inductive Fault where
  /-- There is no file of its number. -/
  | unknownFile
  /-- Its mark would end beyond the largest offset. -/
  | tooFar
  deriving DecidableEq, Repr

/-- Makes sure that a label can be shown. An offset takes 64 bits, so the end of a mark, too, is
below `UInt64.size`. -/
def checkLabel (files : List SourceFile) (label : Label) : Except Fault Unit :=
  match files[label.file]? with
  | none => .error .unknownFile
  | some file =>
      let mark := Mark.ofLabel (lineAt (linesOf file.text) label.span.start) label
      if mark.stop < UInt64.size then .ok () else .error .tooFar

/-- The sections of a report, in the order in which its labels first name the files. -/
def sections (files : List SourceFile) (diagnostic : Diagnostic) : List Section :=
  let ids := (diagnostic.labels.map Label.file).foldl
    (fun seen file => if seen.contains file then seen else seen ++ [file]) []
  ids.filterMap fun id =>
    (files[id]?).map fun file =>
      ⟨file, linesOf file.text, diagnostic.labels.filter fun label => label.file = id⟩

/-- The number of digits of the greatest line number. -/
def paddingOf (sections : List Section) : Nat :=
  greatest <| sections.flatMap fun part =>
    part.labels.map fun label => (Number.digitsOf (part.lineOf label).number).length

/-- The sections, with an empty bar after each that is followed by another or by notes. -/
def sectionRows (padding : Nat) (hasNotes : Bool) : List Section → List (List Char)
  | [] => []
  | part :: rest =>
      part.rows padding ++ (if hasNotes || !rest.isEmpty then [bar padding] else []) ++
        sectionRows padding hasNotes rest

/-- A report as text; an empty line follows it. The first label that cannot be shown gives the
fault. -/
def render (files : List SourceFile) (diagnostic : Diagnostic) : Except Fault String := do
  diagnostic.labels.forM (checkLabel files)
  let parts := sections files diagnostic
  let padding := paddingOf parts
  let rows :=
    (diagnostic.severity.name ++ ": " ++ diagnostic.message).toList ::
      sectionRows padding (!diagnostic.notes.isEmpty) parts ++
      diagnostic.notes.flatMap (noteRows padding) ++ [[]]
  return String.ofList (rows.flatMap fun row => row ++ ['\n'])

end Excerpt

/-- All reports as text. If the first fault is a file that is not there, only the messages are
shown; `none` if it is a mark that would end beyond the largest offset. -/
def DiagnosticLog.render? (log : DiagnosticLog) : Option String :=
  match log.diagnostics.mapM (Excerpt.render log.files) with
  | .ok texts => some (String.join texts)
  | .error .unknownFile => some (String.intercalate "\n" log.messages)
  | .error .tooFar => none

end Bindery
