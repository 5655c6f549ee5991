import StoredProgram.Proofs.Settings

set_option autoImplicit false

namespace StoredProgram.CommandLine

inductive Group where
  | limit (text : String)
  | joinedLimit (text : String)
  | switch (given : Switch) (lasting : given ≠ .help ∧ given ≠ .version)
  | cluster (letters : List Char) (begun : letters ≠ []) (known : ∀ letter ∈ letters, letter = 'v' ∨ letter = 'q')
  | program (text : String) (plain : text = "-" ∨ text.toList.head? ≠ some '-')
deriving DecidableEq, Repr

namespace Group

def arguments : Group → List String
  | .limit text => ["--max-steps", text]
  | .joinedLimit text => ["--max-steps=" ++ text]
  | .switch given _ => ["--" ++ given.name]
  | .cluster letters _ _ => [String.ofList ('-' :: letters)]
  | .program text _ => [text]

def settings : Group → List Setting
  | .limit text => [.limit text]
  | .joinedLimit text => [.limit text]
  | .switch given _ => [.switch given]
  | .cluster letters _ _ => letters.map fun letter => .switch (if letter = 'v' then .verbosity else .quiet)
  | .program text _ => [.program text]

end Group

theorem shape_of_name (given : Switch) : Shape.ofArgument ("--" ++ given.name) = .option given.name none := by
  cases given <;> rfl

theorem shape_of_joined (text : String) :
    Shape.ofArgument ("--max-steps=" ++ text) = .option limitName (some text) := by
  simp [Shape.ofArgument, splitValue, limitName]

theorem shape_of_letters (letters : List Char) (begun : letters ≠ [])
    (known : ∀ letter ∈ letters, letter = 'v' ∨ letter = 'q') :
    Shape.ofArgument (String.ofList ('-' :: letters)) = .cluster letters := by
  obtain ⟨first, others, rfl⟩ := List.exists_cons_of_ne_nil begun
  rcases known first List.mem_cons_self with rfl | rfl <;> simp [Shape.ofArgument]

theorem shape_plain_iff (argument : String) :
    Shape.ofArgument argument = .plain ↔ argument = "-" ∨ argument.toList.head? ≠ some '-' := by
  have hyphen : argument = "-" ↔ argument.toList = ['-'] := String.toList_inj.symm
  rw [hyphen, Shape.ofArgument]
  split
  case h_4 chars _ _ several =>
    refine ⟨fun _ => ?_, fun _ => rfl⟩
    cases text : argument.toList with
    | nil => simp
    | cons first others =>
        cases others with
        | nil => simpa using Classical.em (first = '-')
        | cons letter letters =>
            refine .inr fun begins => several letter letters ?_
            rw [text, Option.some.inj begins]
  all_goals simp_all

theorem plain_of_denotes {text : String} {value : Nat} (denotes : Denotes text value) :
    Shape.ofArgument text = .plain := by
  obtain ⟨sign, digits, parts, signed, begun, digit, -⟩ := denotes
  rw [shape_plain_iff, parts]
  right
  rcases signed with rfl | rfl
  · obtain ⟨first, others, rfl⟩ := List.exists_cons_of_ne_nil begun
    rintro ⟨rfl⟩
    exact absurd (digit '-' List.mem_cons_self) (by decide)
  · nofun

theorem split_value_join (text : List Char) :
    (splitValue text).1 ++ (splitValue text).2.elim "" ("=" ++ ·) = String.ofList text := by
  have parts : text.takeWhile (· ≠ '=') ++ text.dropWhile (· ≠ '=') = text := List.takeWhile_append_dropWhile
  have stops := List.head?_dropWhile_not (· ≠ '=') text
  rw [← String.toList_inj, String.toList_append, String.toList_ofList, splitValue]
  cases rest : text.dropWhile (· ≠ '=') with
  | nil =>
      rw [rest] at parts
      simpa using parts
  | cons mark value =>
      rw [rest] at parts stops
      obtain rfl : mark = '=' := by simpa using stops
      simpa using parts

theorem argument_of_option (argument name : String) (value : Option String)
    (shape : Shape.ofArgument argument = .option name value) :
    argument = "--" ++ (name ++ value.elim "" ("=" ++ ·)) := by
  rw [Shape.ofArgument] at shape
  split at shape
  case h_2 chars text _ hyphens =>
    obtain ⟨rfl, rfl⟩ := Shape.option.inj shape
    rw [split_value_join, ← String.toList_inj, hyphens]
    simp
  all_goals cases shape

theorem argument_of_cluster (argument : String) (letters : List Char)
    (shape : Shape.ofArgument argument = .cluster letters) :
    letters ≠ [] ∧ argument = String.ofList ('-' :: letters) := by
  rw [Shape.ofArgument] at shape
  split at shape
  case h_3 chars letter others _ _ hyphen =>
    cases shape
    rw [← String.toList_inj, hyphen, String.toList_ofList]
    exact ⟨List.cons_ne_nil _ _, rfl⟩
  all_goals cases shape

end StoredProgram.CommandLine
