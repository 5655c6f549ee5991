import StoredProgram.Program.Load
import StoredProgram.Proofs.Layout
import StoredProgram.Proofs.Loading

set_option autoImplicit false

namespace StoredProgram.Program

open Text

inductive Ending where
  | newline
  | returnNewline
deriving DecidableEq, Repr

def Ending.text : Ending → List Char
  | .newline => ['\n']
  | .returnNewline => ['\r', '\n']

structure Page where
  ended : List (Layout × Ending)
  unended : Option Layout
deriving DecidableEq, Repr

namespace Page

def text (page : Page) : List Char :=
  page.ended.flatMap (fun (layout, ending) => layout.text ++ ending.text) ++
    page.unended.elim [] Layout.text

def layouts (page : Page) : List Layout :=
  page.ended.map Prod.fst ++ page.unended.toList

def image (page : Page) : List Byte :=
  page.layouts.filterMap Layout.byte?

theorem text_cons (layout : Layout) (ending : Ending) (ended : List (Layout × Ending)) (unended : Option Layout) :
    text ⟨(layout, ending) :: ended, unended⟩ = layout.text ++ ending.text ++ text ⟨ended, unended⟩ := by
  simp [text]

theorem image_cons (layout : Layout) (ending : Ending) (ended : List (Layout × Ending)) (unended : Option Layout) :
    image ⟨(layout, ending) :: ended, unended⟩ = layout.byte?.toList ++ image ⟨ended, unended⟩ := by
  cases byte : layout.byte? <;> simp [image, layouts, byte]

theorem image_unended (layout : Layout) : image ⟨[], some layout⟩ = layout.byte?.toList := by
  cases byte : layout.byte? <;> simp [image, layouts, byte]

theorem image_insert (before after : List (Layout × Ending)) (unended : Option Layout) (layout : Layout)
    (ending : Ending) (bare : layout.literal = none) :
    image ⟨before ++ (layout, ending) :: after, unended⟩ = image ⟨before ++ after, unended⟩ := by
  simp [image, layouts, Layout.byte?, bare]

end Page

theorem drop_return_of_head (line : List Char) (head : line.head? ≠ some '\r') : dropReturn line = line := by
  unfold dropReturn
  split
  · exact absurd rfl head
  · rfl

theorem Literal.mem_text (literal : Literal) (character : Char) (member : character ∈ literal.text) :
    isBinaryDigit character ∨ character = 'b' := by
  rcases List.mem_append.mp member with mark | digit
  · split at mark
    · rcases List.mem_cons.mp mark with rfl | second
      · exact .inl (by decide)
      · exact .inr (List.mem_singleton.mp second)
    · cases mark
  · exact .inl (literal.digits_binary character digit)

namespace Layout

def front (layout : Layout) : List Char :=
  layout.lead ++ (layout.literal.elim [] Literal.text ++ layout.trail)

theorem text_eq_front (layout : Layout) : layout.text = layout.front ++ layout.remark := by
  simp [text, front]

theorem mem_front (layout : Layout) (character : Char) (member : character ∈ layout.front) :
    isBlank character ∨ isBinaryDigit character ∨ character = 'b' := by
  rcases List.mem_append.mp member with lead | others
  · exact .inl (layout.lead_blank character lead)
  · rcases List.mem_append.mp others with written | trail
    · cases source : layout.literal with
      | none =>
          rw [source] at written
          cases written
      | some literal =>
          rw [source] at written
          exact .inr (literal.mem_text character written)
    · exact .inl (layout.trail_blank character trail)

theorem newline_not_mem_front (layout : Layout) : '\n' ∉ layout.front := by
  intro member
  exact absurd (layout.mem_front '\n' member) (by decide)

theorem return_not_mem_front (layout : Layout) : '\r' ∉ layout.front := by
  intro member
  exact absurd (layout.mem_front '\r' member) (by decide)

theorem newline_not_mem_text (layout : Layout) : '\n' ∉ layout.text := by
  rw [text_eq_front, List.mem_append]
  rintro (front | remark)
  · exact layout.newline_not_mem_front front
  · unfold Layout.remark at remark
    split at remark
    · cases remark
    · rename_i comment written
      rcases List.mem_cons.mp remark with impossible | broken
      · cases impossible
      · exact layout.comment_unbroken comment written broken

-- A carriage return that is taken for part of the ending can only have been the last character of a comment.
theorem without_return (layout : Layout) :
    ∃ read : Layout, read.byte? = layout.byte? ∧ read.text = (dropReturn layout.text.reverse).reverse := by
  by_cases returned : layout.text.reverse.head? = some '\r'
  · cases written : layout.comment with
    | none =>
        have text : layout.text = layout.front := by simp [text_eq_front, remark, written]
        have member := List.mem_reverse.mp (List.mem_of_head? returned)
        rw [text] at member
        exact absurd member layout.return_not_mem_front
    | some comment =>
        have text : layout.text.reverse = comment.reverse ++ '#' :: layout.front.reverse := by
          simp [text_eq_front, remark, written]
        rcases List.eq_nil_or_concat comment with rfl | ⟨kept, last, rfl⟩
        · rw [text] at returned
          cases returned
        · rw [List.concat_eq_append] at written text
          rw [text, List.reverse_concat] at returned
          cases returned
          have unbroken : '\n' ∉ kept := fun broken =>
            layout.comment_unbroken _ written (List.mem_append_left _ broken)
          have others : ∀ remark ∈ some kept, '\n' ∉ remark := by
            rintro _ ⟨rfl⟩
            exact unbroken
          refine ⟨{ layout with comment := some kept, comment_unbroken := others }, rfl, ?_⟩
          rw [text, text_eq_front]
          simp [dropReturn, front, remark]
  · exact ⟨layout, rfl, by rw [drop_return_of_head _ returned, List.reverse_reverse]⟩

theorem lines_from_ended (layout : Layout) (ending : Ending) (following : List Char) :
    ∃ read : Layout, read.byte? = layout.byte? ∧
      linesFrom [] (layout.text ++ ending.text ++ following) = read.text :: linesFrom [] following := by
  have unbroken := layout.newline_not_mem_text
  cases ending with
  | newline =>
      obtain ⟨read, same, text⟩ := layout.without_return
      refine ⟨read, same, ?_⟩
      rw [Ending.text, List.append_assoc, List.singleton_append, lines_from_append_newline [] _ following unbroken,
        List.append_nil, text]
  | returnNewline =>
      have split : layout.text ++ ['\r', '\n'] ++ following =
          (layout.text ++ ['\r']) ++ '\n' :: following := by simp
      have unbrokenToo : '\n' ∉ layout.text ++ ['\r'] := by simp [unbroken]
      refine ⟨layout, rfl, ?_⟩
      rw [Ending.text, split, lines_from_append_newline [] _ following unbrokenToo]
      simp [dropReturn]

theorem parse_line_unended (layout : Layout) (number : Nat) :
    parseLines number (linesFrom [] layout.text) = .ok layout.byte?.toList := by
  have parsed := layout.parse_line_text
  rw [lines_from_unbroken [] layout.text layout.newline_not_mem_text, List.append_nil, List.reverse_reverse]
  cases text : layout.text with
  | nil =>
      rw [text] at parsed
      have empty : none = layout.byte? := Option.some.inj parsed
      rw [← empty]
      rfl
  | cons character others =>
      rw [text] at parsed
      simp [parseLines, parsed, Except.map]

end Layout

theorem parse_lines_page (ended : List (Layout × Ending)) (unended : Option Layout) (number : Nat) :
    parseLines number (linesFrom [] (Page.text ⟨ended, unended⟩)) = .ok (Page.image ⟨ended, unended⟩) := by
  induction ended generalizing number with
  | nil =>
      cases unended with
      | none => rfl
      | some layout =>
          rw [Page.image_unended]
          exact layout.parse_line_unended number
  | cons line ended ih =>
      obtain ⟨layout, ending⟩ := line
      obtain ⟨read, same, lines⟩ := layout.lines_from_ended ending (Page.text ⟨ended, unended⟩)
      rw [Page.text_cons, lines, parseLines, read.parse_line_text, ih (number + 1), same, Page.image_cons]
      rfl

theorem parse_page (page : Page) : parse (String.ofList page.text) = .ok page.image := by
  rw [parse, String.toList_ofList]
  exact parse_lines_page page.ended page.unended 1

theorem read_text_of_held (files : Files) (path text : String) (held : files path = .ok text.toUTF8) :
    readText files path = .ok text := by
  have decoded : String.fromUTF8? text.toUTF8 = some text := dif_pos text.isValidUTF8
  simp only [readText, held, bind, Except.bind, decoded]
  rfl

theorem load_of_text (files : Files) (path text : String) (held : files path = .ok text.toUTF8) :
    load files path = (parse text).bind fun image =>
      if image.length ≤ Memory.capacity then .ok image
      else .error (.programTooLarge image.length Memory.capacity) := by
  rw [load_eq, read_text_of_held files path text held]
  dsimp only
  cases parse text <;> rfl

theorem load_of_parsed (files : Files) (path text : String) (image : List Byte)
    (held : files path = .ok text.toUTF8) (parsed : parse text = .ok image)
    (fits : image.length ≤ Memory.capacity) : load files path = .ok image := by
  rw [load_of_text files path text held, parsed]
  exact if_pos fits

theorem loading_undoes_writing (page : Page) (files : Files) (path : String)
    (fits : page.image.length ≤ 100) (held : files path = .ok (String.ofList page.text).toUTF8) :
    load files path = .ok page.image ∧
    (∃ machine, Machine.withProgram page.image = .ok machine ∧
      machine.memory.cells = page.image ++ List.replicate (100 - page.image.length) 0 ∧
      machine.pc = 0 ∧ (∀ register, register < 8 → machine.registers.get register = .ok 0) ∧
      machine.steps = 0) ∧
    ∀ before after layout ending, page.ended = before ++ after → layout.literal = none →
      parse (String.ofList (Page.text ⟨before ++ (layout, ending) :: after, page.unended⟩)) =
        .ok page.image := by
  refine ⟨load_of_parsed files path _ page.image held (parse_page page) fits, ?_, ?_⟩
  · have cells := Memory.overlay_zeroed page.image fits
    refine ⟨_, Machine.with_program_of_fits page.image fits, cells, rfl, ?_, rfl⟩
    intro register inside
    rw [Registers.get_of_lt _ register inside]
    exact congrArg Except.ok (Machine.fresh_content register)
  · intro before after layout ending parts bare
    rw [parse_page, Page.image_insert before after page.unended layout ending bare, ← parts]

def mixedPage : Page where
  ended := [
    ({ lead := ['\t', ' '], literal := some ⟨0b10000010, true, 3⟩, trail := [' '],
       comment := some " 0b1 # LDI\r".toList, lead_blank := by simp [isBlank], trail_blank := by simp [isBlank],
       comment_unbroken := by simp }, .newline),
    ({ lead := [], literal := none, trail := [' '], comment := some "nothing".toList, lead_blank := nofun,
       trail_blank := by simp [isBlank], comment_unbroken := by simp }, .returnNewline)]
  unended := some {
    lead := [], literal := some ⟨0b100, false, 0⟩, trail := [], comment := none, lead_blank := nofun,
    trail_blank := nofun, comment_unbroken := nofun }

def mixedText : String :=
  "\t 0b00010000010 # 0b1 # LDI\r\n #nothing\r\n100"

theorem mixed_page_loads :
    ∃ files : Files, files "mixed" = .ok mixedText.toUTF8 ∧ mixedPage.image.length ≤ 100 ∧
      load files "mixed" = .ok [0b10000010, 0b100] ∧
      ∃ machine, Machine.withProgram [0b10000010, 0b100] = .ok machine ∧
        machine.memory.cells = [0b10000010, 0b100] ++ List.replicate 98 0 ∧ machine.pc = 0 := by
  have text : String.ofList mixedPage.text = mixedText := by rfl
  have image : mixedPage.image = [0b10000010, 0b100] := by rfl
  have fits : mixedPage.image.length ≤ 100 := by rw [image]; decide
  let files : Files := fun _ => .ok mixedText.toUTF8
  have held : files "mixed" = .ok (String.ofList mixedPage.text).toUTF8 := by rw [text]
  obtain ⟨loaded, ⟨machine, built, cells, counter, -⟩, -⟩ :=
    loading_undoes_writing mixedPage files "mixed" fits held
  rw [image] at loaded built cells
  exact ⟨files, rfl, fits, loaded, machine, built, cells, counter⟩

end StoredProgram.Program
