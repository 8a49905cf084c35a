import Permits.Terminal.Wrap

set_option autoImplicit false

namespace Permits.Terminal

def screenWidth : Nat := 80

def stroke (c : Char) (count : Nat) : List Char := List.replicate count c

def printed (lines : List (List Char)) : String :=
  String.ofList (lines.flatMap (· ++ ['\n']))

def paragraph (text : List Char) : List (List Char) := wrap screenWidth .fold text

def panel (title text : List Char) : List (List Char) :=
  let inner := screenWidth - 4
  let name := ' ' :: title ++ [' ']
  let left := (inner - textWidth name) / 2
  let right := inner - textWidth name - left
  let top := '╭' :: stroke '─' (left + 1) ++ name ++ stroke '─' (right + 1) ++ ['╮']
  let bottom := '╰' :: stroke '─' (screenWidth - 2) ++ ['╯']
  let lines := (wrap inner .fold text).map fun line =>
    "│ ".toList ++ padded inner line ++ " │".toList
  top :: lines ++ [bottom]

/-- A table with a title. Each row has as many cells as there are headings. -/
structure Listing where
  title : List Char
  headings : List (List Char)
  rows : List (List (List Char))

namespace Listing

def endsLine (c : Char) : Bool :=
  c = '\n' || (28 ≤ c.toNat && c.toNat ≤ 30) || c.toNat = 0x85 || c.toNat = 0x2028 ||
    c.toNat = 0x2029

def cellWidth (cell : List Char) : Nat :=
  (cell.splitOnP endsLine).foldl (fun most line => max most (textWidth line)) 0

/-- The widths that the columns ask for, with a space on either side of a cell. -/
def wantedWidths (listing : Listing) : List Nat :=
  listing.headings.zipIdx.map fun (heading, index) =>
    (heading :: listing.rows.map (·.getD index [])).foldl
      (fun most cell => max most (cellWidth cell)) 0 + 2

/-- The width beside the columns: one before each column, and one at the right edge. -/
def edges (listing : Listing) : Nat := listing.headings.length + 1

def total (widths : List Nat) : Nat := widths.foldl (· + ·) 0

/-- The widths of the columns. The first one gives way if the table is too wide. -/
def widths (listing : Listing) : List Nat :=
  match listing.wantedWidths with
  | [] => []
  | first :: others => min first (screenWidth - listing.edges - total others) :: others

def rowLines (widths : List Nat) (cells : List (List Char)) : List (List Char) :=
  let columns := (widths.zip cells).map fun (width, cell) =>
    (width, (wrap (width - 2) .ellipsis cell).map (padded (width - 2)))
  let height := columns.foldl (fun most (_, lines) => max most lines.length) 0
  (List.range height).map fun index =>
    columns.flatMap (fun (width, lines) =>
      ' ' :: ' ' :: lines.getD index (stroke ' ' (width - 2)) ++ [' ']) ++ [' ']

def lines (listing : Listing) : List (List Char) :=
  let widths := listing.widths
  let width := total widths + listing.edges
  let title := (wrap width .fold listing.title).map fun line => centred width (trimEnd line)
  let blank := stroke ' ' width
  let rule := ' ' :: stroke '─' (width - 2) ++ [' ']
  title ++ [blank] ++ rowLines widths listing.headings ++ [rule] ++
    listing.rows.flatMap (rowLines widths) ++ [blank]

end Listing

end Permits.Terminal
