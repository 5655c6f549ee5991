import StoredProgram.Text.Padding

set_option autoImplicit false

namespace StoredProgram.Text

inductive Alignment where
  | left
  | right
deriving DecidableEq, Repr

def Alignment.pad : Alignment → Nat → String → String
  | .left => padRight
  | .right => padLeft

structure Grid where
  titles : String × String
  rows : List (String × String)
  alignment : Alignment
deriving DecidableEq, Repr

def widest (texts : List String) : Nat :=
  texts.foldr (fun text width => max text.length width) 0

def pairCells : List String → List String → List (String × String)
  | [], [] => []
  | left :: lefts, [] => (left, "") :: pairCells lefts []
  | [], right :: rights => ("", right) :: pairCells [] rights
  | left :: lefts, right :: rights => (left, right) :: pairCells lefts rights

theorem length_le_widest {texts : List String} {text : String} (member : text ∈ texts) :
    text.length ≤ widest texts := by
  induction texts with
  | nil => simp at member
  | cons first rest ih =>
      simp only [widest, List.foldr_cons] at ih ⊢
      rcases List.mem_cons.mp member with rfl | member
      · exact Nat.le_max_left _ _
      · exact Nat.le_trans (ih member) (Nat.le_max_right _ _)

theorem length_pad (alignment : Alignment) (width : Nat) (text : String) :
    (alignment.pad width text).length = max width text.length := by
  cases alignment
  · exact length_pad_right width text
  · exact length_pad_left width text

namespace Grid

def leftWidth (grid : Grid) : Nat :=
  widest ((grid.titles :: grid.rows).map Prod.fst)

def rightWidth (grid : Grid) : Nat :=
  widest ((grid.titles :: grid.rows).map Prod.snd)

def line (grid : Grid) (cells : String × String) : String :=
  "  " ++ grid.alignment.pad grid.leftWidth cells.1 ++ " │ " ++ padRight grid.rightWidth cells.2 ++ "  "

def dashes (width : Nat) : String :=
  String.ofList (List.replicate width '─')

def rule (grid : Grid) (joint : String) : String :=
  " " ++ dashes (grid.leftWidth + 2) ++ joint ++ dashes (grid.rightWidth + 2) ++ " "

def lines (grid : Grid) : List String :=
  grid.line grid.titles :: grid.rule "┼" :: grid.rows.map grid.line ++ [grid.rule "┴"]

def width (grid : Grid) : Nat :=
  grid.leftWidth + grid.rightWidth + 7

theorem length_line (grid : Grid) (cells : String × String)
    (left : cells.1.length ≤ grid.leftWidth) (right : cells.2.length ≤ grid.rightWidth) :
    (grid.line cells).length = grid.width := by
  have leftCell := length_pad grid.alignment grid.leftWidth cells.1
  have rightCell := length_pad_right grid.rightWidth cells.2
  have frame : "  ".length = 2 := by decide
  have bar : " │ ".length = 3 := by decide
  simp only [line, width, String.length_append, leftCell, rightCell, frame, bar]
  omega

theorem length_rule (grid : Grid) (joint : String) (single : joint.length = 1) :
    (grid.rule joint).length = grid.width := by
  have blank : " ".length = 1 := by decide
  simp only [rule, width, dashes, String.length_append, String.length_ofList, List.length_replicate,
    single, blank]
  omega

theorem left_fits (grid : Grid) {cells : String × String} (row : cells ∈ grid.titles :: grid.rows) :
    cells.1.length ≤ grid.leftWidth :=
  length_le_widest (List.mem_map_of_mem row)

theorem right_fits (grid : Grid) {cells : String × String} (row : cells ∈ grid.titles :: grid.rows) :
    cells.2.length ≤ grid.rightWidth :=
  length_le_widest (List.mem_map_of_mem row)

theorem length_of_mem_lines (grid : Grid) {text : String} (member : text ∈ grid.lines) :
    text.length = grid.width := by
  have fits {cells : String × String} (row : cells ∈ grid.titles :: grid.rows) :
      (grid.line cells).length = grid.width :=
    grid.length_line cells (grid.left_fits row) (grid.right_fits row)
  have cross : "┼".length = 1 := by decide
  have foot : "┴".length = 1 := by decide
  simp only [lines, List.cons_append, List.mem_cons, List.mem_append, List.mem_map,
    List.not_mem_nil, or_false] at member
  rcases member with rfl | rfl | ⟨cells, row, rfl⟩ | rfl
  · exact fits (List.mem_cons_self ..)
  · exact grid.length_rule _ cross
  · exact fits (List.mem_cons_of_mem _ row)
  · exact grid.length_rule _ foot

theorem length_lines (grid : Grid) : grid.lines.length = grid.rows.length + 3 := by
  simp [lines]

end Grid

end StoredProgram.Text
