/-! The size of a text in UTF-8, which is what every offset counts. -/

namespace Multiparty.Text

def byteCount : List Char → Nat
  | [] => 0
  | char :: rest => char.utf8Size + byteCount rest

@[simp] theorem byteCount_nil : byteCount [] = 0 := rfl

@[simp] theorem byteCount_cons (char : Char) (rest : List Char) :
    byteCount (char :: rest) = char.utf8Size + byteCount rest := rfl

@[simp] theorem byteCount_append (first second : List Char) :
    byteCount (first ++ second) = byteCount first + byteCount second := by
  induction first with
  | nil => simp
  | cons char rest ih => simp [ih, Nat.add_assoc]

/-- What follows the first `count` bytes, if a character begins there. -/
def dropBytes : Nat → List Char → Option (List Char)
  | 0, chars => some chars
  | _ + 1, [] => none
  | count + 1, char :: rest =>
    if char.utf8Size ≤ count + 1 then dropBytes (count + 1 - char.utf8Size) rest else none

theorem dropBytes_byteCount (first second : List Char) :
    dropBytes (byteCount first) (first ++ second) = some second := by
  induction first with
  | nil => cases second <;> rfl
  | cons char rest ih =>
    have positive := char.utf8Size_pos
    obtain ⟨size, sized⟩ : ∃ size, byteCount (char :: rest) = size + 1 :=
      ⟨byteCount (char :: rest) - 1, by simp only [byteCount_cons]; omega⟩
    have remaining : size + 1 - char.utf8Size = byteCount rest := by
      simp only [byteCount_cons] at sized; omega
    have fits : char.utf8Size ≤ size + 1 := by
      simp only [byteCount_cons] at sized; omega
    rw [sized]
    simp only [List.cons_append, dropBytes, fits, if_true, remaining, ih]

end Multiparty.Text
