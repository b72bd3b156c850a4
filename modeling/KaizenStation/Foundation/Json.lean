/-
KaizenStation.Foundation.Json — JSON values and the compact text of a flat
object.

`ObjectText` is the fragment of the JSON grammar in which the objects of
this development travel: no white space, scalar members, integers in plain
decimal. A string may be written in every way the grammar offers, one
character at a time: raw, with a short escape, as `\uXXXX`, or as a
surrogate pair. Members keep their order and repeated names stay visible.

`printObject` and `readObject` are one writer and one reader of the
fragment. They are what the theorems of `JsonTheorems` are about and what an
assumption about a JSON library can be tried on.
-/
import Mathlib.Algebra.Order.Ring.Int

namespace KaizenStation.Foundation

/-- A JSON value. Numbers with a fraction or an exponent are doubles: the
value of a finite one, or `none` where the double overflows. `constant` is
one of the three names (`NaN` and the infinities) that some readers accept
as numbers. -/
inductive Json where
  | null
  | bool (b : Bool)
  | int (n : Int)
  | float (x : Option Rat)
  | constant (name : String)
  | str (s : String)
  | arr (items : List Json)
  | obj (members : List (String × Json))

namespace Json

/-! ## Parts of a tree -/

mutual

/-- Every string of a tree, names of members included. -/
def strings : Json → List String
  | .str s => [s]
  | .arr items => itemStrings items
  | .obj members => memberStrings members
  | _ => []

def itemStrings : List Json → List String
  | [] => []
  | value :: rest => strings value ++ itemStrings rest

def memberStrings : List (String × Json) → List String
  | [] => []
  | (name, value) :: rest => name :: strings value ++ memberStrings rest

end

mutual

/-- The names of the constants in a tree. -/
def constants : Json → List String
  | .constant name => [name]
  | .arr items => itemConstants items
  | .obj members => memberConstants members
  | _ => []

def itemConstants : List Json → List String
  | [] => []
  | value :: rest => constants value ++ itemConstants rest

def memberConstants : List (String × Json) → List String
  | [] => []
  | (_, value) :: rest => constants value ++ memberConstants rest

end

/-! ## Strings -/

/-- The two-character escapes: the letter and what it stands for. -/
def shortEscapes : List (Char × Char) :=
  [('"', '"'), ('\\', '\\'), ('/', '/'), ('b', Char.ofNat 8), ('f', Char.ofNat 12),
   ('n', '\n'), ('r', '\r'), ('t', '\t')]

def hexDigit? (c : Char) : Option Nat :=
  if '0' ≤ c ∧ c ≤ '9' then some (c.toNat - 48)
  else if 'a' ≤ c ∧ c ≤ 'f' then some (c.toNat - 87)
  else if 'A' ≤ c ∧ c ≤ 'F' then some (c.toNat - 55)
  else none

/-- The value of four hexadecimal digits. -/
def hex4? (a b c d : Char) : Option Nat :=
  match hexDigit? a, hexDigit? b, hexDigit? c, hexDigit? d with
  | some a, some b, some c, some d => some (((a * 16 + b) * 16 + c) * 16 + d)
  | _, _, _, _ => none

/-- The ways to write one character of a string. -/
inductive CharText : Char → List Char → Prop where
  | raw {c : Char} : c ≠ '"' → c ≠ '\\' → 32 ≤ c.toNat → CharText c [c]
  | short {c e : Char} : (e, c) ∈ shortEscapes → CharText c ['\\', e]
  | unicode {c h₁ h₂ h₃ h₄ : Char} :
      hex4? h₁ h₂ h₃ h₄ = some c.toNat → CharText c ['\\', 'u', h₁, h₂, h₃, h₄]
  | surrogates {c h₁ h₂ h₃ h₄ l₁ l₂ l₃ l₄ : Char} {hi lo : Nat} :
      hex4? h₁ h₂ h₃ h₄ = some (0xD800 + hi) → hi < 0x400 →
      hex4? l₁ l₂ l₃ l₄ = some (0xDC00 + lo) → lo < 0x400 →
      c.toNat = 0x10000 + hi * 0x400 + lo →
      CharText c ['\\', 'u', h₁, h₂, h₃, h₄, '\\', 'u', l₁, l₂, l₃, l₄]

/-- What may stand between the quotes of a string. -/
inductive StringBody : List Char → List Char → Prop where
  | nil : StringBody [] []
  | cons {c : Char} {cs t ts : List Char} :
      CharText c t → StringBody cs ts → StringBody (c :: cs) (t ++ ts)

/-! ## Scalars and objects -/

/-- Plain decimal. -/
def decimal : Int → List Char
  | .ofNat n => Nat.toDigits 10 n
  | .negSucc n => '-' :: Nat.toDigits 10 (n + 1)

inductive ScalarText : Json → List Char → Prop where
  | true : ScalarText (.bool true) ['t', 'r', 'u', 'e']
  | false : ScalarText (.bool false) ['f', 'a', 'l', 's', 'e']
  | int (n : Int) : ScalarText (.int n) (decimal n)
  | str {s : String} {t : List Char} :
      StringBody s.toList t → ScalarText (.str s) ('"' :: t ++ ['"'])

/-- One or more members, with the commas between them. -/
inductive MembersText : List (String × Json) → List Char → Prop where
  | last {k : String} {v : Json} {kt vt : List Char} :
      StringBody k.toList kt → ScalarText v vt →
      MembersText [(k, v)] ('"' :: kt ++ '"' :: ':' :: vt)
  | cons {k : String} {v : Json} {kt vt : List Char} {ms : List (String × Json)}
      {mt : List Char} :
      StringBody k.toList kt → ScalarText v vt → MembersText ms mt →
      MembersText ((k, v) :: ms) ('"' :: kt ++ '"' :: ':' :: vt ++ ',' :: mt)

/-- A compact object with at least one member. -/
def ObjectText (members : List (String × Json)) (text : List Char) : Prop :=
  ∃ t, MembersText members t ∧ text = '{' :: t ++ ['}']

/-! ## A writer -/

def hexChar (n : Nat) : Char := Nat.digitChar (n % 16)

/-- Quotes, backslashes and control characters are escaped, everything else
is written raw. -/
def printChar (c : Char) : List Char :=
  if c = '"' then ['\\', '"']
  else if c = '\\' then ['\\', '\\']
  else if 32 ≤ c.toNat then [c]
  else if c = '\n' then ['\\', 'n']
  else if c = '\r' then ['\\', 'r']
  else if c = '\t' then ['\\', 't']
  else if c.toNat = 8 then ['\\', 'b']
  else if c.toNat = 12 then ['\\', 'f']
  else ['\\', 'u', '0', '0', hexChar (c.toNat / 16), hexChar c.toNat]

def printString (s : String) : List Char := '"' :: s.toList.flatMap printChar ++ ['"']

/-- `none` for a value that is not one of the scalars of `ScalarText`. -/
def printScalar : Json → Option (List Char)
  | .bool true => some ['t', 'r', 'u', 'e']
  | .bool false => some ['f', 'a', 'l', 's', 'e']
  | .int n => some (decimal n)
  | .str s => some (printString s)
  | _ => none

def printMembers : List (String × Json) → Option (List Char)
  | [] => none
  | [(k, v)] => (printScalar v).map fun vt => printString k ++ ':' :: vt
  | (k, v) :: ms => do
    let vt ← printScalar v
    let mt ← printMembers ms
    some (printString k ++ ':' :: vt ++ ',' :: mt)

def printObject (members : List (String × Json)) : Option (List Char) :=
  (printMembers members).map fun t => '{' :: t ++ ['}']

/-! ## A reader

Fuel bounds the number of characters and of members; the length of the text
is always enough. -/

/-- The character whose code point is `n`. -/
def charOf? (n : Nat) : Option Char := if n.isValidChar then some (Char.ofNat n) else none

/-- One written character and the text after it. -/
def readChar : List Char → Option (Char × List Char)
  | '\\' :: 'u' :: h₁ :: h₂ :: h₃ :: h₄ :: rest =>
    match hex4? h₁ h₂ h₃ h₄ with
    | none => none
    | some n =>
      if 0xD800 ≤ n ∧ n < 0xDC00 then
        match rest with
        | '\\' :: 'u' :: l₁ :: l₂ :: l₃ :: l₄ :: rest =>
          match hex4? l₁ l₂ l₃ l₄ with
          | some m =>
            if 0xDC00 ≤ m ∧ m < 0xE000 then
              (charOf? (0x10000 + (n - 0xD800) * 0x400 + (m - 0xDC00))).map (·, rest)
            else none
          | none => none
        | _ => none
      else (charOf? n).map (·, rest)
  | '\\' :: e :: rest => (shortEscapes.find? (·.1 = e)).map (·.2, rest)
  | c :: rest => if c = '"' ∨ c = '\\' ∨ c.toNat < 32 then none else some (c, rest)
  | [] => none

/-- A string body up to its closing quote. -/
def readBody : Nat → List Char → Option (List Char × List Char)
  | 0, _ => none
  | _ + 1, '"' :: rest => some ([], rest)
  | fuel + 1, l => do
    let (c, rest) ← readChar l
    let (cs, rest) ← readBody fuel rest
    some (c :: cs, rest)

def readString (l : List Char) : Option (String × List Char) :=
  match l with
  | '"' :: rest => (readBody l.length rest).map fun (cs, rest) => (String.ofList cs, rest)
  | _ => none

def readNat (l : List Char) : Option (Nat × List Char) :=
  match l.takeWhile Char.isDigit with
  | [] => none
  | digits => some (Nat.ofDigitChars 10 digits 0, l.dropWhile Char.isDigit)

def readScalar : List Char → Option (Json × List Char)
  | 't' :: 'r' :: 'u' :: 'e' :: rest => some (.bool true, rest)
  | 'f' :: 'a' :: 'l' :: 's' :: 'e' :: rest => some (.bool false, rest)
  | '-' :: rest => (readNat rest).map fun (n, rest) => (.int (-n), rest)
  | '"' :: rest => (readString ('"' :: rest)).map fun (s, rest) => (.str s, rest)
  | l => (readNat l).map fun (n, rest) => (.int n, rest)

/-- Members up to the closing brace. -/
def readMembers : Nat → List Char → Option (List (String × Json) × List Char)
  | 0, _ => none
  | fuel + 1, l => do
    let (k, rest) ← readString l
    match rest with
    | ':' :: rest =>
      let (v, rest) ← readScalar rest
      match rest with
      | '}' :: rest => some ([(k, v)], rest)
      | ',' :: rest => do
        let (ms, rest) ← readMembers fuel rest
        some ((k, v) :: ms, rest)
      | _ => none
    | _ => none

/-- The members of a compact object that is the whole text. -/
def readObject : List Char → Option (List (String × Json))
  | '{' :: rest =>
    match readMembers rest.length rest with
    | some (members, []) => some members
    | _ => none
  | _ => none

end Json

end KaizenStation.Foundation
