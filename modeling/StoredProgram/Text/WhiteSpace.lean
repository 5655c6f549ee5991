set_option autoImplicit false

namespace StoredProgram.Text

def whiteSpace : List Char :=
  ['\x09', '\x0a', '\x0b', '\x0c', '\x0d', ' ', '\x85', '\xa0', '\u1680',
   '\u2000', '\u2001', '\u2002', '\u2003', '\u2004', '\u2005', '\u2006', '\u2007', '\u2008',
   '\u2009', '\u200a', '\u2028', '\u2029', '\u202f', '\u205f', '\u3000']

def isWhiteSpace (character : Char) : Bool :=
  whiteSpace.contains character

def trimStart (text : List Char) : List Char :=
  text.dropWhile isWhiteSpace

def trimEnd (text : List Char) : List Char :=
  (trimStart text.reverse).reverse

def trim (text : List Char) : List Char :=
  trimEnd (trimStart text)

theorem trim_start_spec (text : List Char) :
    ∃ front, text = front ++ trimStart text ∧ (∀ character ∈ front, isWhiteSpace character) ∧
      ∀ first, (trimStart text).head? = some first → isWhiteSpace first = false := by
  refine ⟨text.takeWhile isWhiteSpace, List.takeWhile_append_dropWhile.symm, ?_, ?_⟩
  · exact List.all_eq_true.mp List.all_takeWhile
  · intro first head
    have stops := List.head?_dropWhile_not isWhiteSpace text
    rw [trimStart] at head
    rw [head] at stops
    exact stops

theorem trim_end_spec (text : List Char) :
    ∃ back, text = trimEnd text ++ back ∧ (∀ character ∈ back, isWhiteSpace character) ∧
      ∀ last, (trimEnd text).getLast? = some last → isWhiteSpace last = false := by
  obtain ⟨front, parts, white, solid⟩ := trim_start_spec text.reverse
  refine ⟨front.reverse, ?_, ?_, ?_⟩
  · have same := congrArg List.reverse parts
    rw [List.reverse_reverse, List.reverse_append] at same
    exact same
  · intro character member
    exact white character (List.mem_reverse.mp member)
  · intro last ending
    rw [trimEnd, List.getLast?_reverse] at ending
    exact solid last ending

structure Trimmed (text content : List Char) : Prop where
  surrounded : ∃ front back, text = front ++ content ++ back ∧ (∀ character ∈ front, isWhiteSpace character) ∧
    ∀ character ∈ back, isWhiteSpace character
  first_solid : ∀ first, content.head? = some first → isWhiteSpace first = false
  last_solid : ∀ last, content.getLast? = some last → isWhiteSpace last = false

theorem trimmed_trim (text : List Char) : Trimmed text (trim text) := by
  obtain ⟨front, start, whiteFront, solidFront⟩ := trim_start_spec text
  obtain ⟨back, stop, whiteBack, solidBack⟩ := trim_end_spec (trimStart text)
  refine ⟨⟨front, back, ?_, whiteFront, whiteBack⟩, ?_, solidBack⟩
  · rw [List.append_assoc, trim, ← stop, ← start]
  · intro first head
    apply solidFront
    rw [stop, List.head?_append]
    rw [trim] at head
    rw [head]
    rfl

end StoredProgram.Text
