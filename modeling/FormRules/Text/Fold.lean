import FormRules.Text.Case

/-!
# Case-insensitive comparison

Two characters are counterparts if they have the same fold, which is the lower case of the upper
case, taken where each is a single character. The two Turkish letters without a plain counterpart
are left alone.
-/

namespace FormRules.Text

/-- The image of `c` under a case mapping, if that is a single character. -/
def single (map : Char → List Char) (c : Char) : Char :=
  match map c with
  | [d] => d
  | _ => c

/-- The representative of a character's counterparts. -/
def fold (c : Char) : Char :=
  if c.toNat = 0x130 ∨ c.toNat = 0x131 then c else single lowerChar (single upperChar c)

/-- Characters that are neither a fold nor the upper case of one. -/
def variants : List Nat := [
  0x212A, 0x17F, 0xB5, 0x212B, 0x1E9E, 0x1C5, 0x1C8, 0x1CB, 0x1F2, 0x345, 0x1FBE, 0x3D0, 0x3F5,
  0x3D1, 0x3F4, 0x3F0, 0x3D6, 0x3F1, 0x3C2, 0x3D5, 0x2126, 0x1C80, 0x1C81, 0x1C82, 0x1C83, 0x1C84,
  0x1C85, 0x1C86, 0x1C87, 0x1C88, 0x1E9B, 0x1F88, 0x1F89, 0x1F8A, 0x1F8B, 0x1F8C, 0x1F8D, 0x1F8E,
  0x1F8F, 0x1F98, 0x1F99, 0x1F9A, 0x1F9B, 0x1F9C, 0x1F9D, 0x1F9E, 0x1F9F, 0x1FA8, 0x1FA9, 0x1FAA,
  0x1FAB, 0x1FAC, 0x1FAD, 0x1FAE, 0x1FAF, 0x1FBC, 0x1FCC, 0x1FFC]

/-- The character and its counterparts. -/
def counterparts (c : Char) : List Char :=
  let f := fold c
  c :: f :: single upperChar f :: (variants.map Char.ofNat).filter fun d => fold d == f

end FormRules.Text
