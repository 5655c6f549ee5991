set_option autoImplicit false

namespace StoredProgram.Text

def blanks (width : Nat) : String :=
  String.ofList (List.replicate width ' ')

def padLeft (width : Nat) (text : String) : String :=
  blanks (width - text.length) ++ text

def padRight (width : Nat) (text : String) : String :=
  text ++ blanks (width - text.length)

@[simp]
theorem length_blanks (width : Nat) : (blanks width).length = width := by
  simp [blanks]

theorem length_pad_left (width : Nat) (text : String) :
    (padLeft width text).length = max width text.length := by
  simp [padLeft]
  omega

theorem length_pad_right (width : Nat) (text : String) :
    (padRight width text).length = max width text.length := by
  simp [padRight]
  omega

theorem to_list_pad_left (width : Nat) (text : String) :
    (padLeft width text).toList = List.replicate (width - text.length) ' ' ++ text.toList := by
  rw [padLeft, String.toList_append, blanks, String.toList_ofList]

theorem to_list_pad_right (width : Nat) (text : String) :
    (padRight width text).toList = text.toList ++ List.replicate (width - text.length) ' ' := by
  rw [padRight, String.toList_append, blanks, String.toList_ofList]

theorem pad_left_inj {width : Nat} {first second : String} (solid : first.toList.head? ≠ some ' ')
    (solidToo : second.toList.head? ≠ some ' ') : padLeft width first = padLeft width second ↔ first = second := by
  have stripped (text : String) (solid : text.toList.head? ≠ some ' ') :
      (padLeft width text).toList.dropWhile (· = ' ') = text.toList := by
    have blank : ∀ character ∈ List.replicate (width - text.length) ' ', decide (character = ' ') = true := by
      intro character member
      exact decide_eq_true (List.eq_of_mem_replicate member)
    rw [to_list_pad_left, List.dropWhile_append_of_pos blank]
    cases chars : text.toList with
    | nil => rfl
    | cons character rest =>
        rw [chars] at solid
        refine List.dropWhile_cons_of_neg fun first => ?_
        exact solid (congrArg some (of_decide_eq_true first))
  constructor
  · intro same
    have texts := stripped first solid
    rw [same, stripped second solidToo] at texts
    exact (String.toList_inj.mp texts).symm
  · rintro rfl
    rfl

end StoredProgram.Text
