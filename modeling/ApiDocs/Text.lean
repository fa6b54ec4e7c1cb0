/-!
# Texts

A text is a list of code points. An escape in a data document may stand for one half of a surrogate
pair, which is no character, so a code point is a character or a surrogate that stands alone. Code
points are ordered by number, and texts by the first code point in which they differ.
-/

namespace ApiDocs

/-- A code point of Unicode. -/
inductive CodePoint where
  | char (c : Char)
  /-- A surrogate that stands alone; `0xD800` is added to the offset. -/
  | surrogate (offset : Fin 0x800)
  deriving DecidableEq, Repr

namespace CodePoint

instance : Coe Char CodePoint := ⟨char⟩

def toNat : CodePoint → Nat
  | char c => c.toNat
  | surrogate k => 0xD800 + k

def ofNat? (n : Nat) : Option CodePoint :=
  if h : 0xD800 ≤ n ∧ n < 0xE000 then some (surrogate ⟨n - 0xD800, by omega⟩)
  else if n < 0x110000 then some (char (Char.ofNat n))
  else none

def char? : CodePoint → Option Char
  | char c => some c
  | surrogate _ => none

/-- Whether a code point is a character that satisfies `p`. -/
def is (p : Char → Bool) (c : CodePoint) : Bool := c.char?.any p

instance : LT CodePoint := ⟨fun a b => a.toNat < b.toNat⟩

instance : DecidableLT CodePoint := fun a b => inferInstanceAs (Decidable (a.toNat < b.toNat))

/-- Different code points have different numbers. -/
theorem toNat_inj {a b : CodePoint} : a.toNat = b.toNat ↔ a = b := by
  refine ⟨fun h => ?_, fun h => h ▸ rfl⟩
  have apart (c : Char) (k : Fin 0x800) : c.toNat ≠ 0xD800 + k := by
    have := c.valid
    have : c.toNat = c.val.toNat := rfl
    simp only [UInt32.isValidChar, Nat.isValidChar] at *
    omega
  match a, b with
  | char c, char d => exact congrArg char (Char.toNat_inj.1 h)
  | char c, surrogate k => exact absurd h (apart c k)
  | surrogate k, char c => exact absurd h.symm (apart c k)
  | surrogate k, surrogate l => exact congrArg surrogate (Fin.ext (Nat.add_left_cancel h))

end CodePoint

/-- A text. -/
abbrev Text := List CodePoint

namespace Text

instance : LawfulBEq Text := inferInstance

def ofChars (cs : List Char) : Text := cs.map .char

def ofString (s : String) : Text := ofChars s.toList

instance : Coe (List Char) Text := ⟨ofChars⟩

instance : Coe String Text := ⟨ofString⟩

/-- One code point a number of times. -/
def replicate (n : Nat) (c : CodePoint) : Text := List.replicate n c

/-- The string of a text, unless a surrogate stands alone in it. -/
def toString? (t : Text) : Option String := (t.mapM CodePoint.char?).map String.ofList

end Text

end ApiDocs
