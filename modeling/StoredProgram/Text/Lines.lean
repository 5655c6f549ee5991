set_option autoImplicit false

namespace StoredProgram.Text

def unlines : List String → String
  | [] => ""
  | line :: lines => line ++ "\n" ++ unlines lines

theorem unlines_append (first second : List String) :
    unlines (first ++ second) = unlines first ++ unlines second := by
  induction first with
  | nil => simp [unlines]
  | cons line lines ih => simp [unlines, ih, String.append_assoc]

end StoredProgram.Text
