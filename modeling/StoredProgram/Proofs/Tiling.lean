import StoredProgram.Proofs.Rows

set_option autoImplicit false

namespace StoredProgram

namespace Listing

namespace Row

def covers (row : Row) (index : Nat) : Prop :=
  row.address ≤ index ∧ index < row.address + row.size

def shown : Row → List Nat
  | .code address (.load ..) => [address, address + 1, address + 2]
  | .code address .compare => [address]
  | .code address (.jump ..) => [address]
  | .data address _ => [address]

def skipped : Row → List Nat
  | .code address .compare => [address + 1, address + 2]
  | .code address (.jump ..) => [address + 1]
  | .code _ (.load ..) => []
  | .data .. => []

@[simp]
theorem size_load (address : Nat) (register value : Byte) : (Row.code address (.load register value)).size = 3 :=
  Opcode.ldi_size

@[simp]
theorem size_compare (address : Nat) : (Row.code address .compare).size = 3 :=
  Opcode.cmp_size

@[simp]
theorem size_jump (address register : Nat) (condition : Condition) :
    (Row.code address (.jump condition register)).size = 2 :=
  condition.opcode_size

@[simp]
theorem size_data (address : Nat) (byte : Byte) : (Row.data address byte).size = 1 :=
  rfl

theorem covers_iff (row : Row) (index : Nat) : row.covers index ↔ index ∈ row.shown ∨ index ∈ row.skipped := by
  rcases row with ⟨address, ⟨register, value⟩ | _ | ⟨condition, register⟩⟩ | ⟨address, byte⟩
  all_goals
    simp only [covers, Row.address, size_load, size_compare, size_jump, size_data, shown, skipped, List.mem_cons,
      List.not_mem_nil, or_false]
    omega

theorem not_skipped_of_shown (row : Row) (index : Nat) (member : index ∈ row.shown) : index ∉ row.skipped := by
  rcases row with ⟨address, ⟨register, value⟩ | _ | ⟨condition, register⟩⟩ | ⟨address, byte⟩
  all_goals
    simp only [shown, skipped, List.mem_cons, List.not_mem_nil, or_false, not_false_eq_true] at member ⊢
  all_goals omega

theorem StandsIn.reach {bytes : List Byte} {row : Row} (stands : row.StandsIn bytes) :
    row.address + row.size ≤ bytes.length + row.skipped.length := by
  have inside := stands.inside
  cases row with
  | data address byte => exact inside
  | code address instruction =>
      cases instruction with
      | load register value =>
          have last := ((Instruction.decode_eq_ok_iff bytes address _).mp stands).2.2
          rw [size_load]
          exact (List.getElem?_eq_some_iff.mp last).1
      | compare =>
          rw [size_compare]
          exact Nat.add_le_add_right inside 2
      | jump condition register =>
          rw [size_jump]
          exact Nat.add_le_add_right inside 1

end Row

section Walks

variable {bytes : List Byte} {start : Nat} {rows : List Row}

theorem Walk.stands (walk : Walk bytes start rows) : ∀ row ∈ rows, row.StandsIn bytes := by
  induction walk with
  | ended => exact List.forall_mem_nil _
  | next stands walk ih => exact List.forall_mem_cons.mpr ⟨stands, ih⟩

theorem Walk.above (walk : Walk bytes start rows) : ∀ row ∈ rows, start ≤ row.address := by
  induction walk with
  | ended => exact List.forall_mem_nil _
  | next stands walk ih =>
      refine List.forall_mem_cons.mpr ⟨Nat.le_refl _, ?_⟩
      intro row member
      exact Nat.le_trans (Nat.le_add_right _ _) (ih row member)

theorem walk_cons_iff (row : Row) :
    Walk bytes start (row :: rows) ↔
      row.address = start ∧ row.StandsIn bytes ∧ Walk bytes (row.address + row.size) rows := by
  constructor
  · intro walk
    cases walk with
    | next stands walk => exact ⟨rfl, stands, walk⟩
  · rintro ⟨rfl, stands, walk⟩
    exact .next stands walk

theorem Walk.eq_nil_iff (walk : Walk bytes start rows) : rows = [] ↔ bytes.length ≤ start := by
  cases walk with
  | ended outside => exact ⟨fun _ => outside, fun _ => rfl⟩
  | next stands walk => exact ⟨nofun, fun outside => absurd stands.inside (Nat.not_lt.mpr outside)⟩

theorem Walk.head (walk : Walk bytes start rows) : ∀ row, rows.head? = some row → row.address = start := by
  intro row first
  cases walk with
  | ended => cases first
  | next => rw [← Option.some.inj first]

theorem Walk.length_le (walk : Walk bytes start rows) : rows.length ≤ bytes.length - start := by
  induction walk with
  | ended => exact Nat.zero_le _
  | @next row rows stands walk ih =>
      have inside := stands.inside
      have positive := row.size_pos
      rw [List.length_cons]
      omega

theorem Walk.around {before after : List Row} {row : Row} (walk : Walk bytes start (before ++ row :: after)) :
    (∀ earlier ∈ before, earlier.address + earlier.size ≤ row.address) ∧ row.StandsIn bytes ∧
      Walk bytes (row.address + row.size) after := by
  induction before generalizing start with
  | nil =>
      cases walk with
      | next stands walk => exact ⟨List.forall_mem_nil _, stands, walk⟩
  | cons first before ih =>
      cases walk with
      | next _ walk =>
          obtain ⟨earlier, stands, onward⟩ := ih walk
          have later := walk.above row (List.mem_append_right _ List.mem_cons_self)
          exact ⟨List.forall_mem_cons.mpr ⟨later, earlier⟩, stands, onward⟩

theorem Walk.reaches (walk : Walk bytes start rows) (index : Nat) (above : start ≤ index)
    (inside : index < bytes.length) : ∃ before row after, rows = before ++ row :: after ∧ row.covers index := by
  induction walk with
  | ended outside => omega
  | @next row rows stands walk ih =>
      by_cases within : index < row.address + row.size
      · exact ⟨[], row, rows, rfl, above, within⟩
      · obtain ⟨before, found, after, rfl, covered⟩ := ih (Nat.le_of_not_lt within)
        exact ⟨row :: before, found, after, rfl, covered⟩

-- No two rows overlap: those before a row have ended where it starts, and those behind it start where it ends.
theorem Walk.alone {before after : List Row} {row : Row} (walk : Walk bytes start (before ++ row :: after))
    (index : Nat) (covered : row.covers index) : ∀ other ∈ before ++ after, ¬ other.covers index := by
  obtain ⟨earlier, -, onward⟩ := walk.around
  obtain ⟨low, high⟩ := covered
  intro other member covering
  obtain ⟨lowToo, highToo⟩ := covering
  rcases List.mem_append.mp member with front | behind
  · have ends := earlier other front
    omega
  · have starts := onward.above other behind
    omega

end Walks

theorem Row.StandsIn.data_iff {bytes : List Byte} {row : Row} {byte : Byte} (stands : row.StandsIn bytes)
    (held : bytes[row.address]? = some byte) :
    row = .data row.address byte ↔
      Opcode.ofByte? byte = none ∨ byte = Opcode.ldi.code ∧ bytes.length - (row.address + 1) < 2 := by
  have short : bytes.length - (row.address + 1) < 2 ↔ bytes.length ≤ row.address + 2 := by omega
  rw [short, ← Instruction.decode_fails_iff bytes row.address byte held]
  constructor
  · intro same
    rw [same] at stands
    exact stands.2
  · intro failed
    have standsToo : (Row.data row.address byte).StandsIn bytes := ⟨held, failed⟩
    exact stands.unique standsToo rfl

theorem listing_tiles_image (image : List Byte) :
    (∀ rows, Walk image 0 rows ↔ rows = listing image) ∧ (listing image).length ≤ image.length ∧
    (listing image = [] ↔ image = []) ∧
    (∀ first, (listing image).head? = some first → first.address = 0) ∧
    (∀ before row next after, listing image = before ++ row :: next :: after →
      next.address = row.address + row.size) ∧
    (∀ before last, listing image = before ++ [last] →
      last.address < image.length ∧ image.length ≤ last.address + last.size ∧
        match last with
        | .code _ .compare => last.address + last.size ≤ image.length + 2
        | .code _ (.jump ..) => last.address + last.size ≤ image.length + 1
        | .code _ (.load ..) => last.address + last.size = image.length
        | .data .. => last.address + last.size = image.length) ∧
    (∀ address instruction, .code address instruction ∈ listing image →
      Instruction.decode image address = .ok instruction) ∧
    (∀ address byte, .data address byte ∈ listing image → image[address]? = some byte) ∧
    (∀ row ∈ listing image, ∃ byte, image[row.address]? = some byte ∧
      (row = .data row.address byte ↔
        Opcode.ofByte? byte = none ∨ byte = Opcode.ldi.code ∧ image.length - (row.address + 1) < 2)) ∧
    ∀ index, index < image.length → ∃ before row after, listing image = before ++ row :: after ∧
      row.covers index ∧ ∀ other ∈ before ++ after, ¬ other.covers index := by
  have walk : Walk image 0 (listing image) := walk_rows_at image 0
  refine ⟨walk_iff image 0, walk.length_le, ?_, walk.head, ?_, ?_, ?_, ?_, ?_, ?_⟩
  · rw [walk.eq_nil_iff, Nat.le_zero, List.length_eq_zero_iff]
  · intro before row next after split
    rw [split] at walk
    exact walk.around.2.2.head next rfl
  · intro before last split
    rw [split] at walk
    obtain ⟨-, stands, onward⟩ := walk.around
    have ended := onward.eq_nil_iff.mp rfl
    have reach := stands.reach
    refine ⟨stands.inside, ended, ?_⟩
    cases last with
    | data => exact Nat.le_antisymm reach ended
    | code address instruction =>
        cases instruction with
        | load => exact Nat.le_antisymm reach ended
        | compare => exact reach
        | jump => exact reach
  · intro address instruction member
    exact walk.stands _ member
  · intro address byte member
    exact (walk.stands _ member).1
  · intro row member
    have stands := walk.stands row member
    have held := List.getElem?_eq_getElem stands.inside
    exact ⟨_, held, stands.data_iff held⟩
  · intro index inside
    obtain ⟨before, row, after, split, covered⟩ := walk.reaches index (Nat.zero_le _) inside
    rw [split] at walk
    exact ⟨before, row, after, split, covered, walk.alone index covered⟩

theorem comparison_overruns_its_image :
    listing [0b10000010, 0, 8, 0b10100111] = [.code 0 (.load 0 8), .code 3 .compare] ∧
      ∃ before row after, listing [0b10000010, 0, 8, 0b10100111] = before ++ row :: after ∧ row.covers 3 ∧
        ∀ other ∈ before ++ after, ¬ other.covers 3 := by
  obtain ⟨walks, -, -, -, -, -, -, -, -, tiles⟩ := listing_tiles_image [0b10000010, 0, 8, 0b10100111]
  have rows : listing [0b10000010, 0, 8, 0b10100111] = [.code 0 (.load 0 8), .code 3 .compare] := by
    refine ((walks _).mp ?_).symm
    exact (walk_cons_iff _).mpr ⟨rfl, rfl, (walk_cons_iff _).mpr ⟨rfl, rfl, .ended (by decide)⟩⟩
  exact ⟨rows, tiles 3 (by decide)⟩

end Listing

end StoredProgram
