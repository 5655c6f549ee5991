import StoredProgram.Text.Grid
import StoredProgram.Text.Occurrence

set_option autoImplicit false

namespace StoredProgram

namespace Text

theorem widest_append (first second : List String) : widest (first ++ second) = max (widest first) (widest second) := by
  induction first with
  | nil => simp [widest]
  | cons text first ih =>
      simp only [widest, List.cons_append, List.foldr_cons] at ih ⊢
      rw [ih, Nat.max_assoc]

theorem widest_replicate_empty (count : Nat) : widest (List.replicate count "") = 0 := by
  induction count with
  | zero => rfl
  | succ count ih =>
      rw [List.replicate_succ, widest, List.foldr_cons]
      exact Nat.max_eq_zero_iff.mpr ⟨rfl, ih⟩

theorem widest_of_uniform {texts : List String} {width : Nat} (some : texts ≠ [])
    (uniform : ∀ text ∈ texts, text.length = width) : widest texts = width := by
  induction texts with
  | nil => exact absurd rfl some
  | cons text texts ih =>
      obtain ⟨first, others⟩ := List.forall_mem_cons.mp uniform
      rw [widest, List.foldr_cons, first]
      cases texts with
      | nil => exact Nat.max_zero width
      | cons another texts =>
          have rest := ih (List.cons_ne_nil _ _) others
          rw [widest] at rest
          rw [rest, Nat.max_self]

theorem pair_cells_left (left right : List String) :
    (pairCells left right).map Prod.fst = left ++ List.replicate (right.length - left.length) "" := by
  induction left, right using pairCells.induct with
  | case1 => simp [pairCells]
  | case2 first left ih => simpa [pairCells] using ih
  | case3 first right ih =>
      simp only [pairCells, List.map_cons, ih, List.nil_append, List.length_cons, List.length_nil, Nat.sub_zero,
        List.replicate_succ]
  | case4 first left another right ih => simpa [pairCells] using ih

theorem pair_cells_right (left right : List String) :
    (pairCells left right).map Prod.snd = right ++ List.replicate (left.length - right.length) "" := by
  induction left, right using pairCells.induct with
  | case1 => simp [pairCells]
  | case2 first left ih =>
      simp only [pairCells, List.map_cons, ih, List.nil_append, List.length_cons, List.length_nil, Nat.sub_zero,
        List.replicate_succ]
  | case3 first right ih => simpa [pairCells] using ih
  | case4 first left another right ih => simpa [pairCells] using ih

theorem getD_append_empty (texts : List String) (count position : Nat) :
    (texts ++ List.replicate count "")[position]?.getD "" = texts[position]?.getD "" := by
  by_cases inside : position < texts.length
  · rw [List.getElem?_append_left inside]
  · have outside := Nat.le_of_not_lt inside
    rw [List.getElem?_append_right outside, List.getElem?_eq_none outside, List.getElem?_replicate]
    split <;> rfl

theorem left_of_pair {left right : List String} {position : Nat} {cells : String × String}
    (held : (pairCells left right)[position]? = some cells) : cells.1 = left[position]?.getD "" := by
  rw [← getD_append_empty, ← pair_cells_left left right, List.getElem?_map, held]
  rfl

theorem right_of_pair {left right : List String} {position : Nat} {cells : String × String}
    (held : (pairCells left right)[position]? = some cells) : cells.2 = right[position]?.getD "" := by
  rw [← getD_append_empty, ← pair_cells_right left right, List.getElem?_map, held]
  rfl

theorem length_pair_cells (left right : List String) :
    (pairCells left right).length = max left.length right.length := by
  have column := congrArg List.length (pair_cells_left left right)
  rw [List.length_map, List.length_append, List.length_replicate] at column
  omega

theorem pair_of_right {left right : List String} {position : Nat} {text : String}
    (held : right[position]? = some text) : ∃ other, (pairCells left right)[position]? = some (other, text) := by
  have inside : position < (pairCells left right).length := by
    have bound := (List.getElem?_eq_some_iff.mp held).1
    rw [length_pair_cells]
    omega
  have paired := List.getElem?_eq_getElem inside
  have cell := right_of_pair paired
  rw [held] at cell
  exact ⟨_, paired.trans (congrArg some (Prod.ext rfl cell))⟩

namespace Grid

def frame : List Char :=
  [' ', '│', '─', '┼', '┴']

theorem to_list_line (grid : Grid) (cells : String × String) :
    (grid.line cells).toList = [' ', ' '] ++ (grid.alignment.pad grid.leftWidth cells.1).toList ++
      ' ' :: '│' :: ' ' :: ((padRight grid.rightWidth cells.2).toList ++ [' ', ' ']) := by
  simp [line]

theorem to_list_rule (grid : Grid) (joint : String) :
    (grid.rule joint).toList = ' ' :: List.replicate (grid.leftWidth + 2) '─' ++ (joint.toList ++
      (List.replicate (grid.rightWidth + 2) '─' ++ [' '])) := by
  simp [rule, dashes]

theorem lines_below_rule (grid : Grid) (row : Nat) :
    grid.lines[row + 2]? = (grid.rows.map grid.line ++ [grid.rule "┴"])[row]? :=
  rfl

theorem line_cases (grid : Grid) {position : Nat} {text : String} (held : grid.lines[position]? = some text) :
    (position = 0 ∧ text = grid.line grid.titles) ∨ (position = 1 ∧ text = grid.rule "┼") ∨
      (∃ row cells, position = row + 2 ∧ grid.rows[row]? = some cells ∧ text = grid.line cells) ∨
      position = grid.rows.length + 2 ∧ text = grid.rule "┴" := by
  rcases position with _ | _ | row
  · have first : grid.lines[0]? = some (grid.line grid.titles) := rfl
    exact .inl ⟨rfl, Option.some.inj (held.symm.trans first)⟩
  · have second : grid.lines[1]? = some (grid.rule "┼") := rfl
    exact .inr (.inl ⟨rfl, Option.some.inj (held.symm.trans second)⟩)
  · rw [lines_below_rule] at held
    by_cases inside : row < grid.rows.length
    · rw [List.getElem?_append_left (by rwa [List.length_map]), List.getElem?_map, Option.map_eq_some_iff] at held
      obtain ⟨cells, found, same⟩ := held
      exact .inr (.inr (.inl ⟨row, cells, rfl, found, same.symm⟩))
    · have beyond := (List.getElem?_eq_some_iff.mp held).1
      rw [List.length_append, List.length_map, List.length_singleton] at beyond
      obtain rfl : row = grid.rows.length := by omega
      rw [List.getElem?_append_right (Nat.le_of_eq (List.length_map _)), List.length_map, Nat.sub_self] at held
      exact .inr (.inr (.inr ⟨rfl, (Option.some.inj held).symm⟩))

theorem line_of_row (grid : Grid) {row : Nat} {cells : String × String} (found : grid.rows[row]? = some cells) :
    grid.lines[row + 2]? = some (grid.line cells) := by
  have inside := (List.getElem?_eq_some_iff.mp found).1
  rw [lines_below_rule, List.getElem?_append_left (by rwa [List.length_map]), List.getElem?_map, found]
  rfl

theorem left_infix_line (grid : Grid) (cells : String × String) : cells.1.toList <:+: (grid.line cells).toList := by
  have padded : cells.1.toList <:+: (grid.alignment.pad grid.leftWidth cells.1).toList := by
    cases grid.alignment with
    | left =>
        rw [Alignment.pad, to_list_pad_right]
        exact (List.prefix_append _ _).isInfix
    | right =>
        rw [Alignment.pad, to_list_pad_left]
        exact (List.suffix_append _ _).isInfix
  rw [to_list_line]
  exact padded.trans (List.infix_append _ _ _)

theorem right_infix_line (grid : Grid) (cells : String × String) : cells.2.toList <:+: (grid.line cells).toList := by
  have padded : cells.2.toList <:+: (padRight grid.rightWidth cells.2).toList := by
    rw [to_list_pad_right]
    exact (List.prefix_append _ _).isInfix
  have parts : (grid.line cells).toList =
      ([' ', ' '] ++ (grid.alignment.pad grid.leftWidth cells.1).toList ++ [' ', '│', ' ']) ++
        ((padRight grid.rightWidth cells.2).toList ++ [' ', ' ']) := by
    rw [to_list_line]
    simp
  rw [parts]
  exact padded.trans (List.infix_append' _ _ _)

theorem line_separator (grid : Grid) {cells : String × String} (fits : cells.1.length ≤ grid.leftWidth) :
    (grid.line cells).toList[grid.leftWidth + 3]? = some '│' := by
  have padded := length_pad grid.alignment grid.leftWidth cells.1
  rw [Nat.max_eq_left fits, ← String.length_toList] at padded
  rw [to_list_line, List.getElem?_append_right (by simp [padded])]
  have place : grid.leftWidth + 3 - ([' ', ' '] ++ (grid.alignment.pad grid.leftWidth cells.1).toList).length = 1 := by
    rw [List.length_append, padded]
    simp
    omega
  rw [place]
  rfl

theorem rule_separator (grid : Grid) (joint : String) {character : Char} (single : joint.toList = [character]) :
    (grid.rule joint).toList[grid.leftWidth + 3]? = some character := by
  rw [to_list_rule, single, List.getElem?_append_right (by simp)]
  simp

theorem separator_of_lines (grid : Grid) {position : Nat} {text : String} (held : grid.lines[position]? = some text) :
    text.toList[grid.leftWidth + 3]? =
      some (if position = 1 then '┼' else if position + 1 = grid.lines.length then '┴' else '│') := by
  have count := grid.length_lines
  rcases grid.line_cases held with ⟨rfl, rfl⟩ | ⟨rfl, rfl⟩ | ⟨row, cells, rfl, found, rfl⟩ | ⟨rfl, rfl⟩
  · rw [if_neg (by decide), if_neg (by omega)]
    exact grid.line_separator (grid.left_fits List.mem_cons_self)
  · exact grid.rule_separator "┼" rfl
  · have inside := (List.getElem?_eq_some_iff.mp found).1
    rw [if_neg (by omega), if_neg (by omega)]
    exact grid.line_separator (grid.left_fits (List.mem_cons_of_mem _ (List.mem_of_getElem? found)))
  · rw [if_neg (by omega), if_pos (by omega)]
    exact grid.rule_separator "┴" rfl

section Occurrences

variable (grid : Grid) {character : Char} (unframed : character ∉ frame)

include unframed

theorem not_mem_line (cells : String × String) :
    character ∉ (grid.line cells).toList ↔ character ∉ cells.1.toList ∧ character ∉ cells.2.toList := by
  have solid : character ≠ ' ' := fun blank => unframed (blank ▸ List.mem_cons_self)
  have bar : character ≠ '│' := fun bar => unframed (bar ▸ List.mem_cons_of_mem _ List.mem_cons_self)
  have padded : character ∉ (grid.alignment.pad grid.leftWidth cells.1).toList ↔ character ∉ cells.1.toList := by
    cases grid.alignment with
    | left => exact not_mem_pad_right _ _ solid
    | right => exact not_mem_pad_left _ _ solid
  simp [to_list_line, padded, not_mem_pad_right _ _ solid, solid, bar]

theorem not_mem_rule (joint : String) (free : character ∉ joint.toList) : character ∉ (grid.rule joint).toList := by
  simp only [frame, List.mem_cons, not_or] at unframed
  obtain ⟨solid, -, dash, -⟩ := unframed
  simp [to_list_rule, free, solid, dash]

theorem row_of_mem {position : Nat} {text : String}
    (titles : character ∉ grid.titles.1.toList ∧ character ∉ grid.titles.2.toList)
    (held : grid.lines[position]? = some text) (member : character ∈ text.toList) :
    ∃ row cells, position = row + 2 ∧ grid.rows[row]? = some cells ∧
      (character ∈ cells.1.toList ∨ character ∈ cells.2.toList) := by
  have joints : character ∉ "┼".toList ∧ character ∉ "┴".toList := by
    simp only [frame, List.mem_cons, not_or] at unframed
    obtain ⟨-, -, -, cross, foot, -⟩ := unframed
    exact ⟨by simp [cross], by simp [foot]⟩
  rcases grid.line_cases held with ⟨-, rfl⟩ | ⟨-, rfl⟩ | ⟨row, cells, rfl, found, rfl⟩ | ⟨-, rfl⟩
  · exact absurd member ((grid.not_mem_line unframed _).mpr titles)
  · exact absurd member (grid.not_mem_rule unframed _ joints.1)
  · refine ⟨row, cells, rfl, found, Decidable.byContradiction fun neither => ?_⟩
    exact absurd member ((grid.not_mem_line unframed _).mpr (not_or.mp neither))
  · exact absurd member (grid.not_mem_rule unframed _ joints.2)

theorem not_mem_lines
    (cells : ∀ cells ∈ grid.titles :: grid.rows, character ∉ cells.1.toList ∧ character ∉ cells.2.toList) :
    ∀ text ∈ grid.lines, character ∉ text.toList := by
  obtain ⟨titles, rows⟩ := List.forall_mem_cons.mp cells
  intro text listed member
  obtain ⟨position, held⟩ := List.mem_iff_getElem?.mp listed
  obtain ⟨row, pair, -, found, inside⟩ := grid.row_of_mem unframed titles held member
  exact not_or.mpr (rows pair (List.mem_of_getElem? found)) inside

end Occurrences

def padded (grid : Grid) (cells : String × String) : String × String :=
  (grid.alignment.pad grid.leftWidth cells.1, padRight grid.rightWidth cells.2)

theorem rule_inj {first second : Grid} (same : first.rule "┼" = second.rule "┼") :
    first.leftWidth = second.leftWidth ∧ first.rightWidth = second.rightWidth := by
  have cross : "┼".toList = ['┼'] := by decide
  have chars := congrArg String.toList same
  simp only [to_list_rule, cross, List.singleton_append] at chars
  have free (width : Nat) : '┼' ∉ ' ' :: List.replicate width '─' := by simp
  obtain ⟨left, right⟩ := (marked_inj (free _) (free _)).mp chars
  have leftLength := congrArg List.length left
  have rightLength := congrArg List.length right
  simp only [List.length_append, List.length_cons, List.length_replicate] at leftLength rightLength
  omega

theorem line_inj {first second : Grid} {cells others : String × String}
    (widths : first.leftWidth = second.leftWidth ∧ first.rightWidth = second.rightWidth)
    (row : cells ∈ first.titles :: first.rows) (rowToo : others ∈ second.titles :: second.rows)
    (same : first.line cells = second.line others) : first.padded cells = second.padded others := by
  have left (grid : Grid) {cells : String × String} (row : cells ∈ grid.titles :: grid.rows) :
      (grid.padded cells).1.toList.length = grid.leftWidth := by
    rw [String.length_toList, padded, length_pad, Nat.max_eq_left (grid.left_fits row)]
  have right (grid : Grid) {cells : String × String} (row : cells ∈ grid.titles :: grid.rows) :
      (grid.padded cells).2.toList.length = grid.rightWidth := by
    rw [String.length_toList, padded, length_pad_right, Nat.max_eq_left (grid.right_fits row)]
  have chars := congrArg String.toList same
  rw [to_list_line, to_list_line, List.append_assoc, List.append_assoc, List.append_right_inj] at chars
  have lefts := (left first row).trans (widths.1.trans (left second rowToo).symm)
  have rights := (right first row).trans (widths.2.trans (right second rowToo).symm)
  obtain ⟨leftCells, rest⟩ := List.append_inj chars lefts
  obtain ⟨rightCells, -⟩ := List.append_inj (List.cons.inj (List.cons.inj (List.cons.inj rest).2).2).2 rights
  exact Prod.ext (String.toList_inj.mp leftCells) (String.toList_inj.mp rightCells)

-- The widths can be seen in the rule, and with them the cells in the lines.
theorem lines_inj {first second : Grid} (same : first.lines = second.lines) :
    (first.leftWidth = second.leftWidth ∧ first.rightWidth = second.rightWidth) ∧
      first.rows.map first.padded = second.rows.map second.padded := by
  rw [lines, lines] at same
  have parts := (List.append_inj' same (by simp only [List.length_singleton])).1
  obtain ⟨-, rest⟩ := List.cons.inj parts
  obtain ⟨rule, rows⟩ := List.cons.inj rest
  have widths := rule_inj rule
  refine ⟨widths, List.ext_getElem? fun position => ?_⟩
  have here := congrArg (·[position]?) rows
  simp only [List.getElem?_map] at here ⊢
  cases found : first.rows[position]? with
  | none =>
      cases foundToo : second.rows[position]? with
      | none => rfl
      | some others =>
          rw [found, foundToo] at here
          cases here
  | some cells =>
      cases foundToo : second.rows[position]? with
      | none =>
          rw [found, foundToo] at here
          cases here
      | some others =>
          rw [found, foundToo] at here
          have row := List.mem_cons_of_mem first.titles (List.mem_of_getElem? found)
          have rowToo := List.mem_cons_of_mem second.titles (List.mem_of_getElem? foundToo)
          exact congrArg some (line_inj widths row rowToo (Option.some.inj here))

theorem blanks_not_mem_lines (grid : Grid) (width : Nat) : blanks width ∉ grid.lines := by
  intro member
  obtain ⟨position, held⟩ := List.mem_iff_getElem?.mp member
  have separator := List.mem_of_getElem? (grid.separator_of_lines held)
  rw [blanks, String.toList_ofList] at separator
  have blank := List.eq_of_mem_replicate separator
  split at blank
  · cases blank
  · split at blank <;> cases blank

theorem padded_column (grid : Grid) (count : Nat) :
    (grid.lines ++ List.replicate count "").map (padRight grid.width) =
      grid.lines ++ List.replicate count (blanks grid.width) := by
  have full : ∀ text ∈ grid.lines, padRight grid.width text = text := by
    intro text member
    rw [padRight, grid.length_of_mem_lines member, Nat.sub_self]
    exact String.append_empty
  have empty : padRight grid.width "" = blanks grid.width := String.empty_append
  rw [List.map_append, List.map_replicate, empty, List.map_congr_left full, List.map_id']

-- Blank lines below the lines of a grid do not hide where it ends.
theorem column_inj {first second : Grid} {count countToo : Nat} {blank : String}
    (free : blank ∉ first.lines) (freeToo : blank ∉ second.lines)
    (same : first.lines ++ List.replicate count blank = second.lines ++ List.replicate countToo blank) :
    first.lines = second.lines := by
  have stripped (grid : Grid) (count : Nat) (free : blank ∉ grid.lines) :
      (grid.lines ++ List.replicate count blank).filter (· ≠ blank) = grid.lines := by
    rw [List.filter_append, List.filter_replicate_of_neg (by simp), List.append_nil]
    refine List.filter_eq_self.mpr fun text member => ?_
    exact decide_eq_true fun same => free (same ▸ member)
  rw [← stripped first count free, same, stripped second countToo freeToo]

end Grid

end Text

end StoredProgram
