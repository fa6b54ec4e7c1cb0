import ApiDocs.Text

/-!
# Matches in a text

A recogniser looks at the start of a text and gives what it finds there with the rest of the text.
`scan` finds the matches of a recogniser from left to right without overlap and cuts the text into
these matches and the single code points outside them, so that nothing is lost.
-/

namespace ApiDocs.Comment

/-- What a recogniser finds at the start of a text, and the text after it. -/
abbrev Recogniser (α : Type) := Text → Option (α × Text)

/-- A piece of a scanned text. -/
inductive Piece (α : Type) where
  /-- A code point outside every match. -/
  | point (c : CodePoint)
  /-- A match, with the text that it covers. -/
  | hit (a : α) (covered : Text)
  deriving Repr

variable {α β : Type}

/-- The part of the scanned text that a piece stands for. -/
def Piece.covers : Piece α → Text
  | point c => [c]
  | hit _ covered => covered

def Piece.match? : Piece α → Option α
  | point _ => none
  | hit a _ => some a

/-- Scan a text whose first `skip` code points belong to an earlier match. -/
def scanFrom (find : Recogniser α) : Nat → Text → List (Piece α)
  | _, [] => []
  | skip + 1, _ :: cs => scanFrom find skip cs
  | 0, c :: cs =>
    match find (c :: cs) with
    | none => .point c :: scanFrom find 0 cs
    | some (a, rest) =>
      let n := cs.length - rest.length
      .hit a (c :: cs.take n) :: scanFrom find n cs

def scan (find : Recogniser α) (cs : Text) : List (Piece α) := scanFrom find 0 cs

def allMatches (find : Recogniser α) (cs : Text) : List α :=
  (scan find cs).filterMap (·.match?)

def replaceMatches (find : Recogniser α) (image : α → Text) (cs : Text) : Text :=
  (scan find cs).flatMap fun
    | .point c => [c]
    | .hit a _ => image a

theorem covers_scanFrom (find : Recogniser α) (skip : Nat) (cs : Text) :
    (scanFrom find skip cs).flatMap Piece.covers = cs.drop skip := by
  induction cs generalizing skip with
  | nil => cases skip <;> simp [scanFrom]
  | cons c cs ih =>
    cases skip with
    | succ skip => simpa [scanFrom] using ih skip
    | zero =>
      simp only [scanFrom]
      split
      · simpa [Piece.covers] using ih 0
      · simp [Piece.covers, ih]

/-- The pieces of a text, put together, are the text. -/
theorem covers_scan (find : Recogniser α) (cs : Text) :
    (scan find cs).flatMap Piece.covers = cs := covers_scanFrom find 0 cs

end ApiDocs.Comment
