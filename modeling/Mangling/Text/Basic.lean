/-! Text is a list of characters, so every length, offset and count is one of characters. -/

namespace Mangling

/-- A text is its characters in order. -/
abbrev Text := List Char

/-- Trimming drops the characters of one class from both ends and from nowhere else. -/
def trim (drops : Char → Bool) (text : Text) : Text :=
  -- The end is trimmed as the front of the reversed text.
  ((text.dropWhile drops).reverse.dropWhile drops).reverse

/-- The pieces between commas, of which the empty text has one. -/
def commaPieces (text : Text) : List Text :=
  -- Brackets do not protect a comma.
  text.splitOn ','

/-- A character in front of a list of pieces belongs to the first of them. -/
def consPiece (char : Char) : List Text → List Text
  | [] => [[char]]
  -- Splitting reads from the end, so the first piece is the one still growing.
  | piece :: pieces => (char :: piece) :: pieces

/-- The pieces between double colons, where of three colons in a row the first two separate. -/
def scopePieces : Text → List Text
  | [] => [[]]
  -- Both colons are spent, so a third one begins the next piece.
  | ':' :: ':' :: rest => [] :: scopePieces rest
  | char :: rest => consPiece char (scopePieces rest)

/-- The position of the last place where a pattern begins, the end included. -/
def lastPlace (pattern : Text) : Text → Option Nat
  -- Only the empty pattern begins at the end.
  | [] => if pattern.isEmpty then some 0 else none
  | char :: rest =>
    -- A later place wins over this one.
    match lastPlace pattern rest with
    | some place => some (place + 1)
    | none => if pattern.isPrefixOf (char :: rest) then some 0 else none

/-- Some text has at least one comma piece, even the empty one. -/
theorem commaPieces_ne_nil (text : Text) : commaPieces text ≠ [] :=
  List.splitOn_ne_nil ',' text

/-- A text without commas is its only piece. -/
theorem commaPieces_of_not_mem {text : Text} (free : ',' ∉ text) : commaPieces text = [text] :=
  List.splitOn_eq_singleton free

/-- A character other than a colon stays in its piece. -/
theorem scopePieces_cons {char : Char} (plain : char ≠ ':') (rest : Text) :
    scopePieces (char :: rest) = consPiece char (scopePieces rest) := by
  -- The separator alternative needs a colon in front.
  rw [scopePieces]
  intro _ colon
  exact absurd colon plain

end Mangling
