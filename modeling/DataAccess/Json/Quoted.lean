import DataAccess.Text.Hex
import DataAccess.Text.Rest

/-!
# JSON strings

A string between quotes is read in two steps: into characters and the UTF-16 units of its `u`
escapes, and then into characters, where two units can make one. Only the second step refuses half
a surrogate pair.
-/

namespace DataAccess.Json

open Text

def escaped? : Char → Option Char
  | '"' => some '"'
  | '\\' => some '\\'
  | '/' => some '/'
  | 'b' => some '\x08'
  | 'f' => some '\x0c'
  | 'n' => some '\n'
  | 'r' => some '\r'
  | 't' => some '\t'
  | _ => none

inductive Piece where
  | char (c : Char)
  | unit (n : Nat)

/-- Reads up to and over the closing quote. -/
def quoted? : (cs : List Char) → Option (List Piece × Rest cs)
  | [] => none
  | '"' :: cs => some ([], .tail _ cs)
  | '\\' :: 'u' :: a :: b :: c :: d :: cs => do
    let n ← hexDigits? [a, b, c, d]
    let (ps, r) ← quoted? cs
    return (.unit n :: ps, .cons _ (.cons _ (.cons _ (.cons _ (.cons _ (.cons _ r))))))
  | '\\' :: c :: cs => do
    let e ← escaped? c
    let (ps, r) ← quoted? cs
    return (.char e :: ps, .cons _ (.cons _ r))
  | c :: cs =>
    if c.toNat < 32 ∨ c = '\\' then none
    else do
      let (ps, r) ← quoted? cs
      return (.char c :: ps, .cons _ r)

def isHigh (n : Nat) : Bool := 0xD800 ≤ n && n ≤ 0xDBFF

def isLow (n : Nat) : Bool := 0xDC00 ≤ n && n ≤ 0xDFFF

/-- The characters of a string, or nothing if half a surrogate pair is among its units. -/
def content? : List Piece → Option (List Char)
  | [] => some []
  | .char c :: ps => (content? ps).map (c :: ·)
  | .unit n :: .unit m :: ps =>
    if isHigh n && isLow m then
      (content? ps).map (Char.ofNat (0x10000 + (n - 0xD800) * 0x400 + (m - 0xDC00)) :: ·)
    else if isHigh n || isLow n then none
    else (content? (.unit m :: ps)).map (Char.ofNat n :: ·)
  | .unit n :: ps =>
    if isHigh n || isLow n then none else (content? ps).map (Char.ofNat n :: ·)

/-- The text of a string that can be read. -/
def quotedText? (ps : List Piece) : Option String := (content? ps).map String.ofList

end DataAccess.Json
