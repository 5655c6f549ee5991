import StoredProgram.Text.Lines
import StoredProgram.Text.Numeral
import StoredProgram.Text.Padding

set_option autoImplicit false

namespace StoredProgram.Text

theorem marked_inj {mark : Char} {first second rest more : List Char} (free : mark ∉ first)
    (freeToo : mark ∉ second) :
    first ++ mark :: rest = second ++ mark :: more ↔ first = second ∧ rest = more := by
  constructor
  · intro same
    induction first generalizing second with
    | nil =>
        cases second with
        | nil => exact ⟨rfl, (List.cons.inj same).2⟩
        | cons character second => exact absurd ((List.cons.inj same).1 ▸ List.mem_cons_self) freeToo
    | cons character first ih =>
        rw [List.mem_cons, not_or] at free
        cases second with
        | nil => exact absurd (List.cons.inj same).1.symm free.1
        | cons another second =>
            rw [List.mem_cons, not_or] at freeToo
            obtain ⟨rfl, others⟩ := List.cons.inj same
            obtain ⟨rfl, rest⟩ := ih free.2 freeToo.2 others
            exact ⟨rfl, rest⟩
  · rintro ⟨rfl, rfl⟩
    rfl

theorem to_list_unlines_cons (line : String) (lines : List String) :
    (unlines (line :: lines)).toList = line.toList ++ '\n' :: (unlines lines).toList := by
  simp [unlines]

theorem unlines_inj {first second : List String} (unbroken : ∀ line ∈ first, '\n' ∉ line.toList)
    (unbrokenToo : ∀ line ∈ second, '\n' ∉ line.toList) : unlines first = unlines second ↔ first = second := by
  constructor
  · intro same
    replace same := congrArg String.toList same
    induction first generalizing second with
    | nil =>
        cases second with
        | nil => rfl
        | cons line second =>
            rw [to_list_unlines_cons] at same
            exact absurd same.symm (List.append_ne_nil_of_right_ne_nil _ (List.cons_ne_nil _ _))
    | cons line first ih =>
        rw [to_list_unlines_cons] at same
        cases second with
        | nil => exact absurd same (List.append_ne_nil_of_right_ne_nil _ (List.cons_ne_nil _ _))
        | cons another second =>
            rw [to_list_unlines_cons] at same
            obtain ⟨here, others⟩ := List.forall_mem_cons.mp unbroken
            obtain ⟨hereToo, othersToo⟩ := List.forall_mem_cons.mp unbrokenToo
            obtain ⟨line, lines⟩ := (marked_inj here hereToo).mp same
            rw [String.toList_inj.mp line, ih others othersToo lines]
  · rintro rfl
    rfl

section Parts

variable {character : Char}

theorem not_mem_decimal (number : Nat) (character : Char) (other : character.isDigit = false) :
    character ∉ (decimal number).toList := by
  intro member
  rw [digit_of_mem_decimal number character member] at other
  cases other

theorem digit_of_mem_binary (width number : Nat) (member : character ∈ (binary width number).toList) :
    character.isDigit := by
  rw [binary, String.toList_ofList] at member
  induction width generalizing number with
  | zero => cases member
  | succ width ih =>
      rcases List.mem_append.mp member with front | last
      · exact ih _ front
      · split at last <;> (obtain rfl := List.mem_singleton.mp last; decide)

theorem not_mem_binary (width number : Nat) (other : character.isDigit = false) :
    character ∉ (binary width number).toList := by
  intro member
  rw [digit_of_mem_binary width number member] at other
  cases other

theorem not_mem_blanks (width : Nat) (solid : character ≠ ' ') : character ∉ (blanks width).toList := by
  rw [blanks, String.toList_ofList]
  intro member
  exact solid (List.eq_of_mem_replicate member)

theorem not_mem_pad_left (width : Nat) (text : String) (solid : character ≠ ' ') :
    character ∉ (padLeft width text).toList ↔ character ∉ text.toList := by
  simp [padLeft, not_mem_blanks _ solid]

theorem not_mem_pad_right (width : Nat) (text : String) (solid : character ≠ ' ') :
    character ∉ (padRight width text).toList ↔ character ∉ text.toList := by
  simp [padRight, not_mem_blanks _ solid]

end Parts

end StoredProgram.Text
