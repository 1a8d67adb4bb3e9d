/-! Two measures of a text: its bytes in UTF-8, in which offsets are counted, and its 16-bit units,
in which the columns of a line are counted. -/

namespace EventQuery.Text

def byteSize : List Char → Nat
  | [] => 0
  | c :: cs => c.utf8Size + byteSize cs

def unitsOf (c : Char) : Nat := if c.toNat < 0x10000 then 1 else 2

def unitSize : List Char → Nat
  | [] => 0
  | c :: cs => unitsOf c + unitSize cs

theorem unitsOf_pos (c : Char) : 0 < unitsOf c := by
  unfold unitsOf
  split <;> omega

/-- A character of two units has more than one byte. -/
theorem unitsOf_le_utf8Size (c : Char) : unitsOf c ≤ c.utf8Size := by
  unfold unitsOf
  split
  · exact c.utf8Size_pos
  · next hwide =>
    have hne : c.utf8Size ≠ 1 := by
      intro hone
      have hle := Char.utf8Size_eq_one_iff.mp hone
      rw [UInt32.le_iff_toNat_le] at hle
      have htoNat : c.val.toNat = c.toNat := rfl
      have hmax : (0x7F : UInt32).toNat = 0x7F := rfl
      omega
    have hpos := c.utf8Size_pos
    omega

@[simp]
theorem byteSize_append (a b : List Char) : byteSize (a ++ b) = byteSize a + byteSize b := by
  induction a with
  | nil => simp [byteSize]
  | cons c a ih => simp [byteSize, ih, Nat.add_assoc]

@[simp]
theorem unitSize_append (a b : List Char) : unitSize (a ++ b) = unitSize a + unitSize b := by
  induction a with
  | nil => simp [unitSize]
  | cons c a ih => simp [unitSize, ih, Nat.add_assoc]

end EventQuery.Text
