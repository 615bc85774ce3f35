import CheckedFormat.Byte
/-! The tokens of a JSON text.

Blank space separates tokens and means nothing else. A string token keeps its
bytes and its escapes as they are written, and a number token its digits: what they
stand for is asked only where a value is wanted. -/
namespace CheckedFormat
namespace Json

/-- A part of a string. -/
inductive StringPart where
  | byte (b : Byte)
  /-- A UTF-16 unit, written as an escape. -/
  | unit (code : Nat)
  deriving DecidableEq, Repr

/-- A number as it is written. -/
structure Numeral where
  negative : Bool
  whole : List Byte
  /-- The digits after the point, if there is one. -/
  fraction : Option (List Byte)
  /-- Whether the exponent is negative, and its digits. -/
  exponent : Option (Bool × List Byte)
  deriving DecidableEq, Repr

inductive Token where
  | openObject | closeObject | openArray | closeArray | colon | comma
  | null | true | false
  | number (n : Numeral)
  | string (parts : List StringPart)
  deriving DecidableEq, Repr

def isBlank (b : Byte) : Bool := b == 32 || b == 9 || b == 10 || b == 13

/-! ### Strings -/

/-- The byte that a one-letter escape stands for. -/
def escaped? (b : Byte) : Option Byte :=
  match b.toChar with
  | '"' => some 34
  | '\\' => some 92
  | '/' => some 47
  | 'b' => some 8
  | 'f' => some 12
  | 'n' => some 10
  | 'r' => some 13
  | 't' => some 9
  | _ => none

/-- The unit that four hexadecimal digits write. -/
def unit? (a b c d : Byte) : Option Nat := do
  let digit := Byte.digit? 16
  return (((← digit a) * 16 + (← digit b)) * 16 + (← digit c)) * 16 + (← digit d)

/-- The parts of a string up to its closing quote, and the text after it. A control
character may not stand in a string as it is. -/
def takeString : List Byte → Option (List StringPart × List Byte)
  | [] => none
  | 34 :: rest => some ([], rest)
  | 92 :: 117 :: a :: b :: c :: d :: rest => do
    let code ← unit? a b c d
    let (parts, rest) ← takeString rest
    return (.unit code :: parts, rest)
  | 92 :: e :: rest => do
    let b ← escaped? e
    let (parts, rest) ← takeString rest
    return (.byte b :: parts, rest)
  | b :: rest =>
    if b < 32 then none
    else do
      let (parts, rest) ← takeString rest
      return (.byte b :: parts, rest)

/-! ### Numbers -/

def takeDigits (text : List Byte) : List Byte × List Byte :=
  (text.takeWhile Byte.isDigit, text.dropWhile Byte.isDigit)

/-- Takes the point and the digits after it, of which there must be one. -/
def takeFraction : List Byte → Option (Option (List Byte) × List Byte)
  | 46 :: text =>
    match takeDigits text with
    | ([], _) => none
    | (digits, rest) => some (some digits, rest)
  | text => some (none, text)

/-- Takes the sign of an exponent. -/
def takeSign : List Byte → Bool × List Byte
  | 45 :: rest => (true, rest)
  | 43 :: rest => (false, rest)
  | text => (false, text)

def takeExponent : List Byte → Option (Option (Bool × List Byte) × List Byte)
  | [] => some (none, [])
  | e :: text =>
    if e.lower == 101 then
      let (negative, text) := takeSign text
      match takeDigits text with
      | ([], _) => none
      | (digits, rest) => some (some (negative, digits), rest)
    else some (none, e :: text)

/-- Takes the digits before the point. A zero in front stands alone. -/
def takeWhole : List Byte → List Byte × List Byte
  | 48 :: rest => ([48], rest)
  | text => takeDigits text

/-- Takes a number behind its sign. -/
def takeMagnitude (negative : Bool) (text : List Byte) : Option (Numeral × List Byte) :=
  if (takeWhole text).1.isEmpty then none
  else do
    let (fraction, rest) ← takeFraction (takeWhole text).2
    let (exponent, rest) ← takeExponent rest
    return (⟨negative, (takeWhole text).1, fraction, exponent⟩, rest)

/-! ### Tokens -/

/-- Takes a word that is spelled out. -/
def takeWord (word : String) (token : Token) (text : List Byte) : Option (Token × List Byte) :=
  if (ascii word).isPrefixOf text then some (token, text.drop word.length) else none

/-- Takes the token that starts with a byte. -/
def takeToken (b : Byte) (rest : List Byte) : Option (Token × List Byte) :=
  match b.toChar with
  | '{' => some (.openObject, rest)
  | '}' => some (.closeObject, rest)
  | '[' => some (.openArray, rest)
  | ']' => some (.closeArray, rest)
  | ':' => some (.colon, rest)
  | ',' => some (.comma, rest)
  | 'n' => takeWord "ull" .null rest
  | 't' => takeWord "rue" .true rest
  | 'f' => takeWord "alse" .false rest
  | '"' => (takeString rest).map fun (parts, rest) => (.string parts, rest)
  | '-' => (takeMagnitude Bool.true rest).map fun (n, rest) => (.number n, rest)
  | _ => (takeMagnitude Bool.false (b :: rest)).map fun (n, rest) => (.number n, rest)

/-! ### Every token takes something -/

theorem length_takeString_le {text rest : List Byte} {parts : List StringPart}
    (h : takeString text = some (parts, rest)) : rest.length ≤ text.length := by
  fun_induction takeString text generalizing parts rest with
  | case1 => cases h
  | case2 => cases h; simp
  | case3 a b c d text ih =>
    simp only [Option.bind_eq_bind, Option.bind_eq_some_iff] at h
    obtain ⟨_, _, ⟨_, _⟩, hs, he⟩ := h
    cases he
    have := ih hs
    simp only [List.length_cons]
    omega
  | case4 e text _ ih =>
    simp only [Option.bind_eq_bind, Option.bind_eq_some_iff] at h
    obtain ⟨_, _, ⟨_, _⟩, hs, he⟩ := h
    cases he
    have := ih hs
    simp only [List.length_cons]
    omega
  | case5 => cases h
  | case6 b text _ _ _ _ ih =>
    simp only [Option.bind_eq_bind, Option.bind_eq_some_iff] at h
    obtain ⟨⟨_, _⟩, hs, he⟩ := h
    cases he
    have := ih hs
    simp only [List.length_cons]
    omega

theorem length_takeDigits (text : List Byte) :
    (takeDigits text).1.length + (takeDigits text).2.length = text.length := by
  rw [takeDigits, ← List.length_append, List.takeWhile_append_dropWhile]

theorem length_takeWhole (text : List Byte) :
    (takeWhole text).1.length + (takeWhole text).2.length = text.length := by
  unfold takeWhole
  split
  · simp only [List.length_cons, List.length_nil]; omega
  · exact length_takeDigits _

theorem length_takeFraction_le {text rest : List Byte} {fraction : Option (List Byte)}
    (h : takeFraction text = some (fraction, rest)) : rest.length ≤ text.length := by
  unfold takeFraction at h
  split at h
  · rename_i text
    have hl := length_takeDigits text
    split at h
    · cases h
    · rename_i digits after _ hd
      rw [hd] at hl
      cases h
      simp only [List.length_cons] at *
      omega
  · cases h; simp

theorem length_takeSign_le (text : List Byte) : (takeSign text).2.length ≤ text.length := by
  unfold takeSign; split <;> simp

theorem length_takeExponent_le {text rest : List Byte} {exponent : Option (Bool × List Byte)}
    (h : takeExponent text = some (exponent, rest)) : rest.length ≤ text.length := by
  unfold takeExponent at h
  split at h
  · cases h; simp
  · rename_i e text
    split at h
    · have hs := length_takeSign_le text
      have hl := length_takeDigits (takeSign text).2
      simp only at h
      split at h
      · cases h
      · rename_i digits after _ hd
        rw [hd] at hl
        cases h
        simp only [List.length_cons] at *
        omega
    · cases h; simp

theorem length_lt_of_takeMagnitude {negative : Bool} {text rest : List Byte} {n : Numeral}
    (h : takeMagnitude negative text = some (n, rest)) : rest.length < text.length := by
  unfold takeMagnitude at h
  have hl := length_takeWhole text
  split at h
  · cases h
  · rename_i hw
    have hw : (takeWhole text).1.length ≠ 0 := by simpa using hw
    simp only [Option.bind_eq_bind, Option.bind_eq_some_iff] at h
    obtain ⟨⟨_, _⟩, hf, ⟨_, _⟩, he, hr⟩ := h
    cases hr
    have h₁ := length_takeFraction_le hf
    have h₂ := length_takeExponent_le he
    simp only at *
    omega

theorem length_takeWord_le {word : String} {t token : Token} {text rest : List Byte}
    (h : takeWord word t text = some (token, rest)) : rest.length ≤ text.length := by
  unfold takeWord at h
  split at h
  · cases h; simp
  · cases h

theorem length_takeToken_le {b : Byte} {text rest : List Byte} {token : Token}
    (h : takeToken b text = some (token, rest)) : rest.length ≤ text.length := by
  unfold takeToken at h
  split at h
  · cases h; simp
  · cases h; simp
  · cases h; simp
  · cases h; simp
  · cases h; simp
  · cases h; simp
  · exact length_takeWord_le h
  · exact length_takeWord_le h
  · exact length_takeWord_le h
  · obtain ⟨⟨_, _⟩, hs, he⟩ := Option.map_eq_some_iff.1 h
    cases he
    exact length_takeString_le hs
  · obtain ⟨⟨_, _⟩, hs, he⟩ := Option.map_eq_some_iff.1 h
    cases he
    exact Nat.le_of_lt (length_lt_of_takeMagnitude hs)
  · obtain ⟨⟨_, _⟩, hs, he⟩ := Option.map_eq_some_iff.1 h
    cases he
    exact Nat.le_of_lt_succ (length_lt_of_takeMagnitude hs)

/-- The tokens of a text, if it has no other parts. -/
def tokens? (text : List Byte) : Option (List Token) :=
  match text with
  | [] => some []
  | b :: rest =>
    if isBlank b then tokens? rest
    else
      match h : takeToken b rest with
      | none => none
      | some (token, after) =>
        have := length_takeToken_le h
        (tokens? after).map (token :: ·)
  termination_by text.length

end Json
end CheckedFormat
