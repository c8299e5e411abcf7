import Timeslice.Predicate.Fault

/-!
# Reading tokens

A text is cut into tokens from left to right; blanks and semicolons stand between tokens and mean
nothing. A minus sign belongs to a number if a digit follows it, and is no token otherwise.
-/

namespace Timeslice.Lexer

inductive Flaw where
  | character
  | quote
  | number (text : String)

/-- A number without its sign, and the text after it. A point makes it a decimal, with or without
digits after the point. -/
def number (negative : Bool) (cs : List Char) : Except Flaw (Token × List Char) :=
  let whole := cs.takeWhile Numeral.isDigit
  match cs.dropWhile Numeral.isDigit with
  | '.' :: rest =>
    let places := rest.takeWhile Numeral.isDigit
    .ok (.decimal (Double.ofDecimal negative (Numeral.value (whole ++ places)) places.length),
      rest.dropWhile Numeral.isDigit)
  | rest =>
    let n : Int := Numeral.value whole
    match Word.signed64? (if negative then -n else n) with
    | some v => .ok (.integer v, rest)
    | none => .error (.number (String.ofList (if negative then '-' :: whole else whole)))

def quoted (q : Char) (make : String → Token) (rest : List Char) :
    Except Flaw (Token × List Char) :=
  match Quoted.close q rest with
  | some (cs, rest) => .ok (make (String.ofList cs), rest)
  | none => .error .quote

def token (c : Char) (rest : List Char) : Except Flaw (Token × List Char) :=
  match c, rest with
  | '(', _ => .ok (.openParen, rest)
  | ')', _ => .ok (.closeParen, rest)
  | ',', _ => .ok (.comma, rest)
  | '*', _ => .ok (.star, rest)
  | '=', _ => .ok (.comparator .equal, rest)
  | '!', '=' :: rest => .ok (.comparator .notEqual, rest)
  | '<', '=' :: rest => .ok (.comparator .lessOrEqual, rest)
  | '<', '>' :: rest => .ok (.comparator .notEqual, rest)
  | '<', _ => .ok (.comparator .less, rest)
  | '>', '=' :: rest => .ok (.comparator .greaterOrEqual, rest)
  | '>', _ => .ok (.comparator .greater, rest)
  | '\'', _ => quoted '\'' .text rest
  | '"', _ => quoted '"' .name rest
  | _, _ =>
    if Numeral.isDigit c then number false (c :: rest)
    else if c = '-' ∧ (rest.head?.any Numeral.isDigit) then number true rest
    else if Text.startsName c then
      .ok (.name (String.ofList (c :: rest.takeWhile Text.continuesName)),
        rest.dropWhile Text.continuesName)
    else .error .character

theorem length_number_lt {negative : Bool} {c : Char} {cs : List Char} {r : Token × List Char}
    (hc : Numeral.isDigit c = true) (h : number negative (c :: cs) = .ok r) :
    r.2.length ≤ cs.length := by
  have hd : (c :: cs).dropWhile Numeral.isDigit = cs.dropWhile Numeral.isDigit := by
    rw [List.dropWhile_cons, if_pos hc]
  have hle (l : List Char) : (l.dropWhile Numeral.isDigit).length ≤ l.length :=
    (List.dropWhile_sublist _).length_le
  simp only [number, hd] at h
  split at h
  · next rest hrest =>
    cases h
    have h1 := hle rest
    have h2 := hle cs
    rw [hrest, List.length_cons] at h2
    simp only
    omega
  · split at h
    · cases h; exact hle cs
    · cases h

theorem length_quoted_le {q : Char} {make : String → Token} {rest : List Char}
    {r : Token × List Char} (h : quoted q make rest = .ok r) : r.2.length ≤ rest.length := by
  unfold quoted at h
  split at h
  · next hclose =>
    cases h
    exact Nat.le_of_lt (Quoted.length_close_lt hclose)
  · cases h

theorem length_token_le {c : Char} {rest : List Char} {r : Token × List Char}
    (h : token c rest = .ok r) : r.2.length ≤ rest.length := by
  unfold token at h
  split at h <;> try (cases h; simp)
  · exact length_quoted_le h
  · exact length_quoted_le h
  · split at h
    · next hc => exact length_number_lt hc h
    · split at h
      · next hc =>
        cases rest with
        | nil => simp at hc
        | cons d ds =>
          have := length_number_lt (by simpa using hc.2) h
          simp only [List.length_cons]
          omega
      · split at h
        · cases h
          exact (List.dropWhile_sublist _).length_le
        · cases h

/-- How many bytes the characters take up. -/
def width : List Char → Nat
  | [] => 0
  | c :: cs => c.utf8Size + width cs

def isSpace (c : Char) : Bool :=
  Text.isBlank c || c == ';'

def Flaw.toFault (c : Char) (position : Nat) : Flaw → SyntaxFault
  | character => .unexpectedCharacter c position
  | quote => .unterminatedQuote position
  | number text => .invalidNumber text

/-- The tokens of the end of a text that is `total` bytes wide. -/
def tokens (total : Nat) : List Char → Except SyntaxFault (List Token)
  | [] => .ok []
  | c :: rest =>
    if isSpace c then tokens total rest
    else
      match h : token c rest with
      | .error flaw => .error (flaw.toFault c (total - width (c :: rest)))
      | .ok (t, after) =>
        have : after.length ≤ rest.length := length_token_le h
        (tokens total after).map (t :: ·)
termination_by cs => cs.length

def read (s : String) : Except SyntaxFault (List Token) :=
  match tokens (width s.toList) s.toList with
  | .ok [] => .error .empty
  | r => r

end Timeslice.Lexer
