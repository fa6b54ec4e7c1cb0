import ApiDocs.Text.Blank

/-!
# Cutting a text at separators

A text is cut at every separator, at its first, or at its last. Cutting at every separator gives
one piece more than there are separators, so joining the pieces gives the text back.
-/

namespace ApiDocs.Text

/-- The pieces between the separators, empty ones included. -/
def splitWhere (p : CodePoint → Bool) : Text → List Text
  | [] => [[]]
  | c :: cs =>
    if p c then [] :: splitWhere p cs
    else match splitWhere p cs with
      | [] => [[c]]
      | w :: ws => (c :: w) :: ws

/-- The maximal runs of code points other than white space. -/
def words (t : Text) : List Text := (splitWhere isBlank t).filter (! ·.isEmpty)

def withoutBlanks (t : Text) : Text := t.filter (! isBlank ·)

/-- What stands before the first `sep`, and what stands after it if there is one. -/
def cutAt (sep : CodePoint) : Text → Text × Option Text
  | [] => ([], none)
  | c :: cs =>
    if c = sep then ([], some cs)
    else ((c :: (cutAt sep cs).1), (cutAt sep cs).2)

/-- What stands after the last `sep`; everything if there is none. -/
def afterLast (sep : CodePoint) (cs : Text) : Text := takeRightWhile (· != sep) cs

/-- The pieces of a text between occurrences of a word, found from left to right without overlap.
The counter is the number of code points still to be skipped. -/
def splitOnWordFrom (word : Text) : Nat → Text → List Text
  | _, [] => [[]]
  | skip + 1, _ :: cs => splitOnWordFrom word skip cs
  | 0, c :: cs =>
    if word.isPrefixOf (c :: cs) then [] :: splitOnWordFrom word (word.length - 1) cs
    else match splitOnWordFrom word 0 cs with
      | [] => [[c]]
      | w :: ws => (c :: w) :: ws

/-- The pieces of a text between the occurrences of a non-empty word. -/
def splitOnWord (word cs : Text) : List Text := splitOnWordFrom word 0 cs

def hasWord (word : Text) : Text → Bool
  | [] => word.isEmpty
  | c :: cs => word.isPrefixOf (c :: cs) || hasWord word cs

/-- Join pieces with a separator between them. -/
def joinWith (sep : Text) : List Text → Text
  | [] => []
  | [w] => w
  | w :: ws => w ++ sep ++ joinWith sep ws

theorem splitWhere_ne_nil (p : CodePoint → Bool) (cs : Text) : splitWhere p cs ≠ [] := by
  cases cs with
  | nil => simp [splitWhere]
  | cons c cs =>
    simp only [splitWhere]
    split
    · simp
    · split <;> simp

/-- Cutting at every `sep` and joining with `sep` gives the text back. -/
theorem joinWith_splitWhere (sep : CodePoint) (cs : Text) :
    joinWith [sep] (splitWhere (· == sep) cs) = cs := by
  induction cs with
  | nil => rfl
  | cons c cs ih =>
    obtain ⟨w, ws, hw⟩ := List.exists_cons_of_ne_nil (splitWhere_ne_nil (· == sep) cs)
    rw [hw] at ih
    by_cases h : c == sep
    · have hc : c = sep := by simpa using h
      simp only [splitWhere, h, if_true, hw]
      simpa [joinWith, hc] using ih
    · simp only [splitWhere, h, hw]
      cases ws with
      | nil => simpa [joinWith] using ih
      | cons v vs => simpa [joinWith] using ih

end ApiDocs.Text
