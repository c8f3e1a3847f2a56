import Mangling.Notice
import Mangling.Signature.Token
import Mangling.Stream.Unread
import Mangling.Text.Alphanumeric

/-! Scanning a declaration signature from left to right into tokens. -/

namespace Mangling

/-- What a scanner carries: the signature, the name it is collecting, and whether a scope has been
read. -/
structure Scanner where
  symbol : Text
  name : Text := []
  inScope : Bool := false
  deriving DecidableEq

/-- How a scan ends: its tokens or its fault, the scanner and the unread text as they then are, and
the notices given. -/
structure Scan where
  result : Except Fault (List Token)
  scanner : Scanner
  notices : List Notice
  unread : Text

/-- A scan that comes behind some tokens and notices; a fault loses the tokens only. -/
def Scan.behind (tokens : List Token) (notices : List Notice) (scan : Scan) : Scan :=
  { scan with
    -- Notices are given as they arise, so a later fault does not take them back.
    result := scan.result.map (tokens ++ ·)
    notices := notices ++ scan.notices }

/-- A scan that ends with these tokens. -/
def Scanner.done (scanner : Scanner) (tokens : List Token) (unread : Text) : Scan :=
  { result := .ok tokens, scanner, notices := [], unread }

/-- A scan that ends in a fault. -/
def Scanner.fail (scanner : Scanner) (fault : Fault) (unread : Text) : Scan :=
  { result := .error fault, scanner, notices := [], unread }

/-- A scan that rejects its signature. -/
def Scanner.reject (scanner : Scanner) (offence : Offence) (char unread : Text) : Scan :=
  scanner.fail (.rejected { offence, char, symbol := scanner.symbol }) unread

/-- The pending name as a token, if there is one. -/
def Scanner.pending (scanner : Scanner) : List Token :=
  -- No name is ever empty.
  if scanner.name.isEmpty then [] else [.name scanner.name]

/-- The scanner once its pending name has become a token. -/
def Scanner.flushed (scanner : Scanner) : Scanner :=
  { scanner with name := [] }

/-- A space is kept between two words, so that a name of several words survives. -/
def Scanner.spaced (scanner : Scanner) (unread : Text) : Scanner :=
  -- A space in front of the name, behind it or next to another space is dropped.
  if !scanner.name.isEmpty && (unread.head?.any isIdentifierChar) then
    { scanner with name := scanner.name ++ [' '] }
  else scanner

/-- An identifier character joins the pending name. -/
def Scanner.lengthened (scanner : Scanner) (char : Char) : Scanner :=
  { scanner with name := scanner.name ++ [char] }

/-- The scanner behind a scope separator. -/
def Scanner.entered (scanner : Scanner) : Scanner :=
  { scanner with inScope := true }

/-- Behind the parameter list only blanks may follow, or the member word if a scope was read. -/
def Scanner.scanTrailing (scanner : Scanner) (unread : Text) : Scan :=
  match skipBlanks unread with
  | (.error fault, rest) => scanner.fail fault rest
  | (.ok _, []) => scanner.done [.stop] []
  | (.ok _, char :: rest) =>
    -- Only a member can promise not to change its object.
    if scanner.inScope && constWord.isPrefixOf (char :: rest) then
      match readExact constWord.length (char :: rest) with
      | (.error fault, rest) => scanner.fail fault rest
      | (.ok _, rest) =>
        -- Behind the word the signature has to end.
        match skipBlanks rest with
        | (.error fault, rest) => scanner.fail fault rest
        | (.ok _, []) => scanner.done [.const, .stop] []
        | (.ok _, char :: rest) => scanner.reject .unexpectedTrailing [char] (char :: rest)
    else scanner.reject .unexpectedTrailing [char] (char :: rest)

/-- The parameter list runs from its opening parenthesis to the last closing one. -/
def Scanner.scanParams (scanner : Scanner) (unread : Text) : Scan :=
  -- Parentheses inside the list are part of its content.
  match distanceToLast [')'] unread with
  | none => scanner.reject .unmatchedParen ['('] unread
  | some distance =>
    match readClosed distance unread with
    | (.error fault, rest) => scanner.fail fault rest
    | (.ok content, rest) =>
      match Token.bracketed .params content with
      | .error fault => scanner.fail fault rest
      | .ok token => (scanner.scanTrailing rest).behind [token] []

/-- The template arguments run from their opening bracket to the first closing one, so they do not
nest; the token comes with the text behind it. -/
def Scanner.readTemplateArgs (scanner : Scanner) (unread : Text) : Except Fault Token × Text :=
  -- The end is sought first, so that a list without one is found out before anything is read.
  match distanceTo (· == '>') unread with
  | none =>
    (.error (.rejected { offence := .unterminatedTemplate, char := [], symbol := scanner.symbol }),
      unread)
  | some distance =>
    match readClosed distance unread with
    | (.error fault, rest) => (.error fault, rest)
    | (.ok content, rest) => (Token.bracketed .templateArgs content, rest)

/-- Reading template arguments never lengthens what is unread. -/
theorem Scanner.readTemplateArgs_length_le (scanner : Scanner) (unread : Text) :
    (scanner.readTemplateArgs unread).2.length ≤ unread.length := by
  -- Without an end nothing is read, and otherwise a closed read takes place.
  rw [readTemplateArgs]
  split
  · exact Nat.le_refl _
  next distance _ =>
    have shorter := readClosed_length_le distance unread
    split
    next fault rest read => simpa [read] using shorter
    next content rest read => simpa [read] using shorter

/-- The scan of an unread text; anything that has no place in a signature is passed over. -/
def Scanner.scanFrom (scanner : Scanner) (unread : Text) : Scan :=
  match unread with
  | [] => scanner.flushed.done (scanner.pending ++ [.stop]) []
  | char :: rest =>
    -- Every space outside brackets is worth a notice, whether or not it is kept.
    if char = ' ' then
      ((scanner.spaced rest).scanFrom rest).behind [] [.whitespace scanner.symbol]
    else if char = ':' then
      -- The name in front is complete before the second colon is looked for.
      match rest with
      | [] => scanner.flushed.reject .malformedScope [] []
      | next :: after =>
        if next = ':' then
          (scanner.flushed.entered.scanFrom after).behind (scanner.pending ++ [.scope]) []
        else scanner.flushed.reject .malformedScope [next] (next :: after)
    else if char = '<' then
      -- Template arguments belong to a name, which has to be there.
      if scanner.name.isEmpty then scanner.reject .missingTemplateName ['<'] (char :: rest)
      else
        match _ : scanner.flushed.readTemplateArgs rest with
        | (.error fault, after) => scanner.flushed.fail fault after
        | (.ok token, after) =>
          (scanner.flushed.scanFrom after).behind (scanner.pending ++ [token]) []
    -- Everything behind the opening parenthesis is the matter of the parameter list.
    else if char = '(' then
      (scanner.flushed.scanParams rest).behind scanner.pending []
    else if isIdentifierChar char then (scanner.lengthened char).scanFrom rest
    else scanner.scanFrom rest
termination_by unread.length
decreasing_by
  -- Every turn spends the character in front, and template arguments spend more.
  all_goals simp only [List.length_cons]
  all_goals try omega
  rename_i read
  have shorter := scanner.flushed.readTemplateArgs_length_le rest
  simp only [read] at shorter
  omega

/-- A scan starts with no pending name outside every scope, and has to spend the whole signature. -/
def Scanner.scan (scanner : Scanner) : Scan :=
  -- Whatever an earlier signature left behind is forgotten.
  let scan := Scanner.scanFrom { scanner with name := [], inScope := false } scanner.symbol
  match scan.result with
  | .error _ => scan
  | .ok _ =>
    match checkSpent scan.unread with
    | .ok () => scan
    | .error fault => { scan with result := .error fault }

/-- One scanner reads one signature after the other. -/
def Scanner.scanAll : Scanner → List Text → List Scan
  | _, [] => []
  | scanner, symbol :: symbols =>
    -- The scanner comes back from each scan as that scan left it.
    let scan := Scanner.scan { scanner with symbol }
    scan :: scan.scanner.scanAll symbols

/-- The scan of a signature by a fresh scanner. -/
def scanSignature (signature : Text) : Scan :=
  Scanner.scan { symbol := signature }

end Mangling
